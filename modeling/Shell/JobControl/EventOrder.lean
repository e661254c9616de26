import Shell.JobControl.Delivery
import Shell.Library.Interleaving

/-!
# The order in which wait events arrive

The kernel reports the events of one process in order, but it interleaves the
processes as it likes.  The table that `update_process` makes of a sequence of
events depends on the events of each process alone, except for the flags
`state_changed`: whether a job passes through another state on the way to its
last one is a matter of the interleaving.

The updates of two processes commute in every table, also in one that records
a pid more than once, since an update never changes which record the next one
finds.
-/

namespace Shell.EventOrder

open Shell.FirstMatch
open Shell.Interleaving
open Shell.JobTable
open Shell.Delivery

/-! ## Sequences of events -/

/-- What `waitpid` reports: a process and its status. -/
abbrev WaitEvent := Int × WaitStatus

/-- `update_process` for one event after the other. -/
def updateAll (control : JobControl) (events : List WaitEvent) : JobControl :=
  events.foldl (fun control event => control.updateProcess event.1 event.2)
    control

/-- Everything the job says except whether its state has changed. -/
def Job.settled (job : Job) : Job :=
  { job with stateChanged := false }

/-- The table without the flags `state_changed`. -/
def settled (control : JobControl) : JobControl :=
  { control with jobs := control.jobs.map Job.settled }

/-! ## Updates without the flag -/

/-- The state of a job with these records. -/
def summary (processes : List ProcessRecord) : JobState :=
  recomputedState { processes := processes }

/-- The state is a summary of the records: the old state plays no part. -/
theorem recomputedState_eq_summary (job : Job) :
    recomputedState job = summary job.processes := by
  simp only [summary, recomputedState]
  cases job.processes.any fun process => process.state = .running <;>
    cases job.processes.any fun process => process.state = .stopped <;>
    rfl

/-- One event as it shows in the job without the flag. -/
def Job.settledUpdate (pid : Int) (status : WaitStatus) (job : Job) : Job :=
  Job.settled (job.updated pid status)

theorem Job.settledUpdate_eq (pid : Int) (status : WaitStatus) (job : Job) :
    Job.settledUpdate pid status job =
      { job with
        processes := updateRecords pid status job.processes
        lastStatus :=
          if pid = job.lastPid ∧ status.ifContinued = false then
            decodeWaitStatus status
          else
            job.lastStatus
        state := summary (updateRecords pid status job.processes)
        stateChanged := false } := by
  simp only [Job.settledUpdate, Job.settled, Job.updated, recomputeState,
    recomputedState_eq_summary]

theorem Job.settledUpdate_settled
    (pid : Int) (status : WaitStatus) (job : Job) :
    Job.settledUpdate pid status (Job.settled job) =
      Job.settled (job.updated pid status) :=
  rfl

/-- One event as it shows in the table without the flags. -/
def settledStep (control : JobControl) (event : WaitEvent) : JobControl :=
  { control with
    jobs :=
      control.jobs.lookmap fun job =>
        if job.HasPid event.1 then
          some (Job.settledUpdate event.1 event.2 job)
        else
          none }

theorem settledStep_settled (control : JobControl) (event : WaitEvent) :
    settledStep (settled control) event =
      settled (control.updateProcess event.1 event.2) := by
  have sameJobs :
      (control.jobs.lookmap (Job.updateProcess event.1 event.2)).map
          Job.settled =
        (control.jobs.map Job.settled).lookmap fun job =>
          if job.HasPid event.1 then
            some (Job.settledUpdate event.1 event.2 job)
          else
            none := by
    apply map_lookmap
    intro job
    show (if job.HasPid event.1 then _ else _) = _
    by_cases hasPid : job.HasPid event.1
    · rw [if_pos hasPid, Job.updateProcess, if_pos hasPid, Option.map_some,
        Job.settledUpdate_settled]
    · rw [if_neg hasPid, Job.updateProcess, if_neg hasPid, Option.map_none]
  simp only [settledStep, settled, JobControl.updateProcess, sameJobs]

/-! ## Events of different processes commute -/

theorem updateRecords_comm
    {first second : Int} (different : first ≠ second)
    (firstStatus secondStatus : WaitStatus)
    (processes : List ProcessRecord) :
    updateRecords first firstStatus
        (updateRecords second secondStatus processes) =
      updateRecords second secondStatus
        (updateRecords first firstStatus processes) := by
  apply lookmap_comm
  · intro process
    rfl
  · intro process
    rfl
  · intro process isFirst isSecond
    exact absurd (isFirst.symm.trans isSecond) different

theorem Job.settledUpdate_comm
    {first second : Int} (different : first ≠ second)
    (firstStatus secondStatus : WaitStatus) (job : Job) :
    Job.settledUpdate first firstStatus
        (Job.settledUpdate second secondStatus job) =
      Job.settledUpdate second secondStatus
        (Job.settledUpdate first firstStatus job) := by
  simp only [Job.settledUpdate_eq,
    updateRecords_comm different firstStatus secondStatus]
  congr 1
  -- At most one of the two pids is that of the last process.
  by_cases firstLast : first = job.lastPid
  · have secondNotLast : second ≠ job.lastPid :=
      fun secondLast => different (firstLast.trans secondLast.symm)
    simp only [secondNotLast, false_and, if_false]
  · simp only [firstLast, false_and, if_false]

theorem hasPid_settledUpdate
    (pid other : Int) (status : WaitStatus) (job : Job) :
    (Job.settledUpdate other status job).HasPid pid ↔ job.HasPid pid := by
  rw [hasPid_iff, hasPid_iff]
  show pid ∈ pids (job.updated other status) ↔ _
  rw [pids_updated]

theorem settledStep_independent :
    Independent (fun event : WaitEvent => event.1) settledStep := by
  intro control first second different
  have sameJobs :=
    lookmap_comm
      (hasPid_settledUpdate second.1 first.1 first.2)
      (hasPid_settledUpdate first.1 second.1 second.2)
      (fun job _ _ =>
        Job.settledUpdate_comm (Ne.symm different) second.2 first.2 job)
      control.jobs
  exact congrArg (fun jobs => { control with jobs := jobs }) sameJobs

/-! ## Whole sequences -/

theorem settled_updateAll (control : JobControl) (events : List WaitEvent) :
    settled (updateAll control events) =
      events.foldl settledStep (settled control) :=
  (List.foldl_hom settled settledStep_settled).symm

/-- Some job of the table has a record of the pid. -/
def Recorded (control : JobControl) (pid : Int) : Prop :=
  ∃ job ∈ control.jobs, job.HasPid pid

instance (control : JobControl) (pid : Int) :
    Decidable (Recorded control pid) :=
  inferInstanceAs (Decidable (∃ job ∈ control.jobs, job.HasPid pid))

theorem recorded_updateProcess
    (control : JobControl) (pid other : Int) (status : WaitStatus) :
    Recorded (control.updateProcess other status) pid ↔
      Recorded control pid := by
  constructor
  · rintro ⟨job, member, hasPid⟩
    rcases JobControl.mem_updateProcess member with
      old | ⟨source, isMember, rfl⟩
    · exact ⟨job, old, hasPid⟩
    · rw [hasPid_iff, pids_updated, ← hasPid_iff] at hasPid
      exact ⟨source, isMember, hasPid⟩
  · rintro ⟨job, member, hasPid⟩
    rcases JobControl.mem_updateProcess_of_mem member other status with
      kept | changed
    · exact ⟨job, kept, hasPid⟩
    · refine ⟨job.updated other status, changed, ?_⟩
      rwa [hasPid_iff, pids_updated, ← hasPid_iff]

/-- Events of processes that no job records may be left out. -/
theorem updateAll_recorded (control : JobControl) (events : List WaitEvent) :
    updateAll control events =
      updateAll control
        (events.filter fun event => Recorded control event.1) := by
  induction events generalizing control with
  | nil => rfl
  | cons event events induction =>
      have sameFilter :
          (events.filter fun later =>
              Recorded (control.updateProcess event.1 event.2) later.1) =
            events.filter fun later => Recorded control later.1 := by
        simp only [recorded_updateProcess]
      have step := induction (control.updateProcess event.1 event.2)
      rw [sameFilter] at step
      by_cases recorded : Recorded control event.1
      · simp only [List.filter_cons, recorded, decide_true, if_true]
        exact step
      · have unchanged :
            control.updateProcess event.1 event.2 = control :=
          updateProcess_unrecorded
            (fun job member hasPid => recorded ⟨job, member, hasPid⟩)
            event.2
        simp only [List.filter_cons, recorded, decide_false,
          Bool.false_eq_true, if_false]
        rw [unchanged] at step
        calc
          updateAll control (event :: events) =
              updateAll (control.updateProcess event.1 event.2) events :=
            rfl
          _ = updateAll control events := by
            rw [unchanged]
          _ = _ := step

/--
Whatever the interleaving, the events of the processes lead to the same jobs
with the same records, states and statuses, and those of processes that are in
no job have no effect at all.
-/
theorem updateAll_order_independent
    (control : JobControl) (events reordered : List WaitEvent)
    (same : SameHistories Prod.fst events reordered) :
    settled (updateAll control events) =
        settled (updateAll control reordered) ∧
      updateAll control events =
        updateAll control
          (events.filter fun event => Recorded control event.1) := by
  constructor
  · rw [settled_updateAll, settled_updateAll]
    exact settledStep_independent.foldl_eq same (settled control)
  · exact updateAll_recorded control events

/-- A pipeline of two running processes. -/
def sampleTable : JobControl :=
  { nextJobId := 2
    jobs :=
      [{ id := 1
         pgid := 10
         processes := [⟨10, .running, 0⟩, ⟨11, .running, 0⟩]
         lastPid := 11 }] }

/--
Both processes stop and go on.  In the first order one of them is always
running; in the second the job is stopped for a while, and its flag says so.
-/
theorem updateAll_order_independent_sample :
    let events : List WaitEvent :=
      [(10, 0x137f), (10, 0xffff), (11, 0x137f), (11, 0xffff)]
    let reordered : List WaitEvent :=
      [(10, 0x137f), (11, 0x137f), (10, 0xffff), (11, 0xffff)]
    settled (updateAll sampleTable events) =
        settled (updateAll sampleTable reordered) ∧
      updateAll sampleTable events ≠ updateAll sampleTable reordered := by
  intro events reordered
  have same : SameHistories Prod.fst events reordered := by
    apply SameHistories.cons
    apply SameHistories.swap
    decide
  constructor
  · exact (updateAll_order_independent sampleTable events reordered same).1
  · decide

end Shell.EventOrder
