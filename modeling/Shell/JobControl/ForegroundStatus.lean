import Shell.JobControl.Delivery

/-!
# The status of a foreground job

What `wait_foreground` returns is taken from `last_status`, which follows the
record of the last process of the job: whenever that process is not running,
the field has the decoded status of its record.  For a job that is done this is
the status with which the process has ended, whatever came before.  For a job
that is stopped it is the status of the stop only if the last process is among
the stopped ones.
-/

namespace Shell.ForegroundStatus

open Shell.Syntax
open Shell.FirstMatch
open Shell.TransitionSystem
open Shell.JobTable
open Shell.JobOperations
open Shell.TableInvariant
open Shell.Delivery

/-! ## Statuses and records -/

/-- The statuses that the kernel reports of a child: exits, kills, stops and
continues. -/
def Reported (status : WaitStatus) : Prop :=
  status.terminates = true ∨ status.ifStopped = true ∨
    status.ifContinued = true

/-- A continued process neither terminates nor stops. -/
theorem kinds_of_ifContinued
    {status : WaitStatus} (continued : status.ifContinued = true) :
    status.terminates = false ∧ status.ifStopped = false := by
  have isContinued : status = 0xffff#32 := of_decide_eq_true continued
  rw [isContinued]
  decide

theorem update_state
    (process : ProcessRecord) {status : WaitStatus}
    (reported : Reported status) :
    (process.update status).state =
      if status.terminates then .done
      else if status.ifStopped then .stopped
      else .running := by
  rcases reported with ends | stopped | continued
  · simp only [ends, if_true]
    exact if_pos ends
  · have goesOn := terminates_of_ifStopped stopped
    simp only [goesOn, stopped, if_true, Bool.false_eq_true, if_false]
    exact (if_neg (Bool.eq_false_iff.mp goesOn)).trans (if_pos stopped)
  · rcases kinds_of_ifContinued continued with ⟨goesOn, notStopped⟩
    simp only [goesOn, notStopped, Bool.false_eq_true, if_false]
    exact (if_neg (Bool.eq_false_iff.mp goesOn)).trans
      ((if_neg (Bool.eq_false_iff.mp notStopped)).trans (if_pos continued))

theorem update_state_eq_done
    (process : ProcessRecord) {status : WaitStatus}
    (reported : Reported status) :
    (process.update status).state = .done ↔ status.terminates = true := by
  rw [update_state process reported]
  split_ifs with ends <;> simp [ends]

/-- A stopped process has the status of its stop on record, and one that is
done the status of its end. -/
structure Fits (process : ProcessRecord) : Prop where
  stopped : process.state = .stopped → process.waitStatus.ifStopped = true
  done : process.state = .done → process.waitStatus.terminates = true

theorem fits_update
    (process : ProcessRecord) {status : WaitStatus}
    (reported : Reported status) :
    Fits (process.update status) where
  stopped := by
    intro isStopped
    rw [update_state process reported] at isStopped
    split_ifs at isStopped with ends stopped
    exact stopped
  done := (update_state_eq_done process reported).mp

theorem fits_stable :
    JobStable Reported fun job => ∀ process ∈ job.processes, Fits process where
  added := by
    intro id pgid pids lastPid command process member
    rcases List.mem_map.mp member with ⟨pid, -, rfl⟩
    exact ⟨nofun, nofun⟩
  updated := by
    intro job pid status reported fits process member
    rcases mem_of_mem_lookmap member with old | ⟨source, -, updated⟩
    · exact fits process old
    · split at updated
      · cases updated
        exact fits_update source reported
      · cases updated
  resumed := by
    intro job fits process member
    rcases List.mem_map.mp member with ⟨source, isMember, rfl⟩
    split
    · exact ⟨nofun, nofun⟩
    · exact fits source isMember
  acknowledged := fun fits => fits
  keepsModes := fun _ fits => fits

/-! ## The record of the last process -/

def lastRecord (job : Job) : Option ProcessRecord :=
  job.processes.find? fun process => process.pid = job.lastPid

/-- `last_status` is the decoded status of the last process, unless that
process is running. -/
def LastAgrees (job : Job) : Prop :=
  ∀ process ∈ lastRecord job, process.state ≠ .running →
    job.lastStatus = decodeWaitStatus process.waitStatus

theorem lastRecord_updated (pid : Int) (status : WaitStatus) (job : Job) :
    lastRecord (job.updated pid status) =
      if job.lastPid = pid then
        (lastRecord job).map (ProcessRecord.update status)
      else
        lastRecord job := by
  have keeps :
      ∀ process : ProcessRecord,
        (process.update status).pid = process.pid :=
    fun _ => rfl
  exact find?_lookmap_key keeps pid job.lastPid job.processes

theorem lastRecord_resume (job : Job) :
    lastRecord job.resume =
      (lastRecord job).map fun process =>
        if process.state = .stopped then
          { process with state := .running }
        else
          process := by
  simp only [lastRecord, Job.resume, List.find?_map]
  congr 2
  funext process
  simp only [Function.comp_apply]
  split <;> rfl

theorem LastAgrees.updated
    {job : Job} (agrees : LastAgrees job) (pid : Int)
    (status : WaitStatus) :
    LastAgrees (job.updated pid status) := by
  intro process isLast notRunning
  rw [lastRecord_updated] at isLast
  split_ifs at isLast with isPid
  · rcases Option.map_eq_some_iff.mp isLast with ⟨source, -, rfl⟩
    have notContinued : status.ifContinued = false := by
      by_contra continued
      rw [Bool.not_eq_false] at continued
      apply notRunning
      rw [update_state source (Or.inr (Or.inr continued))]
      rcases kinds_of_ifContinued continued with ⟨goesOn, notStopped⟩
      rw [goesOn, notStopped]
      rfl
    exact if_pos ⟨isPid.symm, notContinued⟩
  · have otherPid :
        ¬ (pid = job.lastPid ∧ status.ifContinued = false) :=
      fun both => isPid both.1.symm
    exact (if_neg otherPid).trans (agrees process isLast notRunning)

theorem LastAgrees.resume
    {job : Job} (agrees : LastAgrees job) : LastAgrees job.resume := by
  intro process isLast notRunning
  rw [lastRecord_resume] at isLast
  rcases Option.map_eq_some_iff.mp isLast with ⟨source, found, rfl⟩
  split at notRunning
  · exact absurd rfl notRunning
  · rename_i notStopped
    rw [if_neg notStopped]
    exact agrees source found notRunning

theorem lastAgrees_stable :
    JobStable (fun _ => True) LastAgrees where
  added := by
    intro id pgid pids lastPid command process isLast notRunning
    rcases List.mem_map.mp (List.mem_of_find?_eq_some isLast) with
      ⟨pid, -, rfl⟩
    exact absurd rfl notRunning
  updated := by
    intro job pid status _ agrees
    exact agrees.updated pid status
  resumed := LastAgrees.resume
  acknowledged := fun agrees => agrees
  keepsModes := fun _ agrees => agrees

theorem reachable_lastAgrees
    {session : Session} (reachable : jobSystem.Reachable session) :
    ∀ job ∈ session.control.jobs, LastAgrees job := by
  rcases reachable with ⟨start, operations, fresh, ran⟩
  exact lastAgrees_stable.run fresh (fun _ _ _ _ _ => trivial) ran

/-- With distinct pids, every record of the last pid is the last record. -/
theorem lastRecord_of_mem
    {job : Job} (distinct : (pids job).Nodup) {process : ProcessRecord}
    (member : process ∈ job.processes) (isLast : process.pid = job.lastPid) :
    lastRecord job = some process := by
  rw [lastRecord, ← isLast]
  exact find?_key_of_mem distinct member

/-! ## What a wait for a job can report -/

/--
The results of `waitpid(-pgid)` with which the loop of `wait_foreground` takes
a job from one state to another.  It is called while the job is running, and
reports something of a process that has not terminated, or is interrupted.
-/
inductive Awaits : Job → List WaitResult → Job → Prop where
  | returned {job : Job} (notRunning : job.state ≠ .running) :
      Awaits job [] job
  | interrupted {job final : Job} {waits : List WaitResult}
      (isRunning : job.state = .running) (later : Awaits job waits final) :
      Awaits job (.interrupted :: waits) final
  | child {job final : Job} {waits : List WaitResult}
      {process : ProcessRecord} {status : WaitStatus}
      (isRunning : job.state = .running)
      (member : process ∈ job.processes) (alive : process.state ≠ .done)
      (reported : Reported status)
      (later : Awaits (job.updated process.pid status) waits final) :
      Awaits job (.child process.pid status :: waits) final

/-- The job as the loop finds it. -/
def entering (job : Job) (continueJob : Bool) : Job :=
  if continueJob then job.resume else job

/-- A wait changes neither the identity of a job nor its processes. -/
theorem Awaits.same
    {job final : Job} {waits : List WaitResult}
    (awaits : Awaits job waits final) :
    final.id = job.id ∧ final.lastPid = job.lastPid ∧
      pids final = pids job := by
  induction awaits with
  | returned _ => exact ⟨rfl, rfl, rfl⟩
  | interrupted _ _ induction => exact induction
  | child _ _ _ _ _ induction =>
      rw [pids_updated] at induction
      exact induction

theorem Awaits.keeps
    {expected : WaitStatus → Prop} {property : Job → Prop}
    (stable : JobStable expected property)
    (asExpected : ∀ {status}, Reported status → expected status)
    {job final : Job} {waits : List WaitResult}
    (awaits : Awaits job waits final) (holds : property job) :
    property final := by
  induction awaits with
  | returned _ => exact holds
  | interrupted _ _ induction => exact induction holds
  | child _ _ _ reported _ induction =>
      exact induction (stable.updated _ (asExpected reported) holds)

/-- The state of the job is up to date whenever it is not running. -/
theorem Awaits.aggregates
    {job final : Job} {waits : List WaitResult}
    (awaits : Awaits job waits final)
    (upToDate : job.state ≠ .running → Aggregates job) :
    Aggregates final := by
  induction awaits with
  | returned notRunning => exact upToDate notRunning
  | interrupted _ _ induction => exact induction upToDate
  | child _ _ _ _ _ induction =>
      exact induction fun _ => aggregates_recomputeState _

/-! ## How the processes have ended -/

/-- The process ends with the status during the wait, or has done so before. -/
def EndedWith (job : Job) (waits : List WaitResult) (pid : Int)
    (status : WaitStatus) : Prop :=
  .child pid status ∈ waits ∧ status.terminates = true ∨
    ⟨pid, .done, status⟩ ∈ job.processes

theorem eq_of_pid
    {job : Job} (distinct : (pids job).Nodup)
    {process other : ProcessRecord} (member : process ∈ job.processes)
    (isOther : other ∈ job.processes) (samePid : other.pid = process.pid) :
    other = process :=
  List.inj_on_of_nodup_map distinct isOther member samePid

theorem mem_updateRecords
    {job : Job} (distinct : (pids job).Nodup) {process : ProcessRecord}
    (member : process ∈ job.processes) (status : WaitStatus)
    {record : ProcessRecord} :
    record ∈ updateRecords process.pid status job.processes ↔
      record = process.update status ∨
        record ∈ job.processes ∧ record.pid ≠ process.pid := by
  rcases List.append_of_mem member with ⟨front, back, split⟩
  rw [pids, split, List.map_append, List.map_cons, List.nodup_append,
    List.nodup_cons] at distinct
  rcases distinct with ⟨-, ⟨notBack, -⟩, apart⟩
  have notFront : ∀ other ∈ front, other.pid ≠ process.pid := by
    intro other isOther
    exact apart _ (List.mem_map_of_mem isOther) _ List.mem_cons_self
  have notLater : ∀ other ∈ back, other.pid ≠ process.pid := by
    intro other isOther same
    exact notBack (same ▸ List.mem_map_of_mem isOther)
  have result :
      updateRecords process.pid status job.processes =
        front ++ process.update status :: back := by
    rw [split]
    apply lookmap_append_cons
    · intro other isOther
      exact if_neg (notFront other isOther)
    · exact if_pos rfl
  rw [result, split]
  simp only [List.mem_append, List.mem_cons]
  constructor
  · rintro (inFront | rfl | inBack)
    · exact Or.inr ⟨Or.inl inFront, notFront record inFront⟩
    · exact Or.inl rfl
    · exact Or.inr ⟨Or.inr (Or.inr inBack), notLater record inBack⟩
  · rintro (rfl | ⟨inFront | rfl | inBack, other⟩)
    · exact Or.inr (Or.inl rfl)
    · exact Or.inl inFront
    · exact absurd rfl other
    · exact Or.inr (Or.inr inBack)

/-- A report makes no difference to how the processes have ended, except that
it may itself be the end. -/
theorem endedWith_updated
    {job : Job} (distinct : (pids job).Nodup) {process : ProcessRecord}
    (member : process ∈ job.processes) (alive : process.state ≠ .done)
    {status : WaitStatus} (reported : Reported status)
    (waits : List WaitResult) (pid : Int) (ending : WaitStatus) :
    EndedWith job (.child process.pid status :: waits) pid ending ↔
      EndedWith (job.updated process.pid status) waits pid ending := by
  have records :
      (⟨pid, .done, ending⟩ : ProcessRecord) ∈
          (job.updated process.pid status).processes ↔
        (pid = process.pid ∧ ending = status ∧
            status.terminates = true) ∨
          (⟨pid, .done, ending⟩ : ProcessRecord) ∈ job.processes := by
    refine (mem_updateRecords distinct member status).trans ?_
    constructor
    · rintro (isUpdate | ⟨isOld, -⟩)
      · have isDone : (process.update status).state = .done :=
          congrArg ProcessRecord.state isUpdate.symm
        exact Or.inl ⟨congrArg ProcessRecord.pid isUpdate,
          congrArg ProcessRecord.waitStatus isUpdate,
          (update_state_eq_done process reported).mp isDone⟩
      · exact Or.inr isOld
    · rintro (⟨rfl, rfl, ends⟩ | isOld)
      · apply Or.inl
        have isDone := (update_state_eq_done process reported).mpr ends
        rw [← isDone]
        rfl
      · refine Or.inr ⟨isOld, fun samePid => alive ?_⟩
        rw [← eq_of_pid distinct member isOld samePid]
  simp only [EndedWith, records, List.mem_cons, WaitResult.child.injEq]
  constructor
  · rintro (⟨⟨rfl, rfl⟩ | later, ends⟩ | isOld)
    · exact Or.inr (Or.inl ⟨rfl, rfl, ends⟩)
    · exact Or.inl ⟨later, ends⟩
    · exact Or.inr (Or.inr isOld)
  · rintro (⟨later, ends⟩ | ⟨rfl, rfl, ends⟩ | isOld)
    · exact Or.inl ⟨Or.inr later, ends⟩
    · exact Or.inl ⟨Or.inl ⟨rfl, rfl⟩, ends⟩
    · exact Or.inr isOld

/-- After a wait, the records say how the processes have ended. -/
theorem Awaits.endedWith_iff
    {job final : Job} {waits : List WaitResult}
    (awaits : Awaits job waits final) (distinct : (pids job).Nodup)
    (pid : Int) (status : WaitStatus) :
    EndedWith job waits pid status ↔
      ⟨pid, .done, status⟩ ∈ final.processes := by
  induction awaits with
  | returned _ => simp [EndedWith]
  | interrupted _ _ induction =>
      rw [← induction distinct]
      simp [EndedWith]
  | child _ member alive reported _ induction =>
      rw [endedWith_updated distinct member alive reported]
      exact induction (by rwa [pids_updated])

theorem endedWith_entering
    (job : Job) (continueJob : Bool) (waits : List WaitResult) (pid : Int)
    (status : WaitStatus) :
    EndedWith (entering job continueJob) waits pid status ↔
      EndedWith job waits pid status := by
  cases continueJob with
  | false => rfl
  | true =>
      apply or_congr_right
      refine List.mem_map.trans ?_
      constructor
      · rintro ⟨process, member, resumed⟩
        split at resumed
        · cases resumed
        · rwa [← resumed]
      · intro member
        exact ⟨_, member, if_neg nofun⟩

/-! ## What is known at the end of a wait -/

section Final

variable {session : Session} {job final : Job} {continueJob : Bool}
  {waits : List WaitResult}

theorem entering_same (job : Job) (continueJob : Bool) :
    (entering job continueJob).id = job.id ∧
      (entering job continueJob).lastPid = job.lastPid ∧
      pids (entering job continueJob) = pids job := by
  cases continueJob with
  | false => exact ⟨rfl, rfl, rfl⟩
  | true => exact ⟨rfl, rfl, pids_resume job⟩

theorem final_same
    (awaits : Awaits (entering job continueJob) waits final) :
    final.id = job.id ∧ final.lastPid = job.lastPid ∧
      pids final = pids job := by
  have same := awaits.same
  rcases entering_same job continueJob with ⟨sameId, sameLast, samePids⟩
  rwa [sameId, sameLast, samePids] at same

theorem final_keeps
    {expected : WaitStatus → Prop} {property : Job → Prop}
    (stable : JobStable expected property)
    (asExpected : ∀ {status}, Reported status → expected status)
    (awaits : Awaits (entering job continueJob) waits final)
    (holds : property job) :
    property final := by
  apply awaits.keeps stable asExpected
  cases continueJob with
  | false => exact holds
  | true => exact stable.resumed holds

theorem final_aggregates
    (awaits : Awaits (entering job continueJob) waits final)
    (aggregates : Aggregates job) :
    Aggregates final := by
  apply awaits.aggregates
  cases continueJob with
  | false => exact fun _ => aggregates
  | true => exact fun notRunning => absurd rfl notRunning

theorem final_endedWith_iff
    (awaits : Awaits (entering job continueJob) waits final)
    (distinct : (pids job).Nodup) (pid : Int) (status : WaitStatus) :
    EndedWith job waits pid status ↔
      ⟨pid, .done, status⟩ ∈ final.processes := by
  rw [← endedWith_entering job continueJob]
  apply awaits.endedWith_iff
  rwa [(entering_same job continueJob).2.2]

/-- A process that is done has ended with the status on record, and with no
other. -/
theorem final_endedWith_iff_eq
    (awaits : Awaits (entering job continueJob) waits final)
    (distinct : (pids job).Nodup) {last : ProcessRecord}
    (isRecord : last ∈ final.processes) (isDone : last.state = .done)
    (report : WaitStatus) :
    EndedWith job waits last.pid report ↔ report = last.waitStatus := by
  rw [final_endedWith_iff awaits distinct]
  constructor
  · intro isReport
    have finalPids : (pids final).Nodup := (final_same awaits).2.2 ▸ distinct
    exact congrArg ProcessRecord.waitStatus
      (eq_of_pid finalPids isRecord isReport rfl)
  · rintro rfl
    rw [← isDone]
    exact isRecord

theorem final_lastStatus
    (reachable : jobSystem.Reachable session)
    (member : job ∈ session.control.jobs)
    (awaits : Awaits (entering job continueJob) waits final)
    (distinct : (pids job).Nodup) {last : ProcessRecord}
    (isRecord : last ∈ final.processes) (isLast : last.pid = job.lastPid)
    (notRunning : last.state ≠ .running) :
    final.lastStatus = decodeWaitStatus last.waitStatus := by
  rcases final_same awaits with ⟨-, sameLast, samePids⟩
  have finalPids : (pids final).Nodup := samePids ▸ distinct
  have agrees : LastAgrees final :=
    final_keeps lastAgrees_stable (fun _ => trivial) awaits
      (reachable_lastAgrees reachable job member)
  exact agrees last
    (lastRecord_of_mem finalPids isRecord (isLast.trans sameLast.symm))
    notRunning

end Final

/-! ## The place of the job in the table -/

/-- No pid occurs twice in the table. -/
def DistinctPids (control : JobControl) : Prop :=
  (control.jobs.flatMap pids).Nodup

instance (control : JobControl) : Decidable (DistinctPids control) :=
  inferInstanceAs (Decidable (control.jobs.flatMap pids).Nodup)

/-- The job stands between others, and no id or pid of it occurs in front. -/
structure Placed (control : JobControl) (front : List Job) (job : Job)
    (back : List Job) : Prop where
  split : control.jobs = front ++ job :: back
  otherIds : ∀ other ∈ front, other.id ≠ job.id
  otherPids : ∀ other ∈ front, ∀ pid ∈ pids job, ¬ other.HasPid pid

theorem exists_placed
    {control : JobControl} (valid : TableValid control)
    (distinct : DistinctPids control) {job : Job}
    (member : job ∈ control.jobs) :
    (pids job).Nodup ∧ ∃ front back, Placed control front job back := by
  rw [DistinctPids, List.nodup_flatMap] at distinct
  refine ⟨distinct.1 job member, ?_⟩
  rcases List.append_of_mem member with ⟨front, back, split⟩
  refine ⟨front, back, split, ?_, ?_⟩
  · have increasing := valid.increasing
    rw [ids, split, List.map_append, List.pairwise_append] at increasing
    intro other isOther
    exact Int.ne_of_lt (increasing.2.2 _ (List.mem_map_of_mem isOther) _
      List.mem_cons_self)
  · have apart := distinct.2
    rw [split, List.pairwise_append] at apart
    intro other isOther pid isPid hasPid
    exact apart.2.2 other isOther job List.mem_cons_self
      (hasPid_iff.mp hasPid) isPid

section Placed

variable {control : JobControl} {front back : List Job} {job : Job}

theorem Placed.findJob (placed : Placed control front job back) :
    control.findJob job.id = some job := by
  have skipped :
      front.find? (fun other => other.id = job.id) = none := by
    rw [List.find?_eq_none]
    intro other isOther
    simpa using placed.otherIds other isOther
  rw [JobControl.findJob, placed.split, List.find?_append, skipped]
  simp

theorem Placed.updateProcess
    (placed : Placed control front job back) {pid : Int}
    (isPid : pid ∈ pids job) (status : WaitStatus) :
    control.updateProcess pid status =
      { control with jobs := front ++ job.updated pid status :: back } := by
  rw [JobControl.updateProcess, placed.split]
  congr 1
  apply lookmap_append_cons
  · intro other isOther
    exact if_neg (placed.otherPids other isOther pid isPid)
  · exact if_pos (hasPid_iff.mpr isPid)

theorem Placed.modifyJob
    (placed : Placed control front job back) (change : Job → Job) :
    control.modifyJob job.id change =
      { control with jobs := front ++ change job :: back } := by
  rw [JobControl.modifyJob, placed.split]
  congr 1
  apply lookmap_append_cons
  · intro other isOther
    exact if_neg (placed.otherIds other isOther)
  · exact if_pos rfl

theorem Placed.replace
    (placed : Placed control front job back) {new : Job}
    (sameId : new.id = job.id) (samePids : pids new = pids job) :
    Placed { control with jobs := front ++ new :: back } front new back where
  split := rfl
  otherIds := by
    rw [sameId]
    exact placed.otherIds
  otherPids := by
    rw [samePids]
    exact placed.otherPids

/-- The loop takes the results one by one and leaves the other jobs alone. -/
theorem Awaits.waitLoop
    {final : Job} {waits : List WaitResult}
    (awaits : Awaits job waits final)
    (placed : Placed control front job back) (rest : List WaitResult) :
    waitLoop job.id (waits ++ rest) control =
      some { control with jobs := front ++ final :: back } := by
  induction awaits generalizing control with
  | returned notRunning =>
      rw [JobOperations.waitLoop.eq_def]
      simp only [placed.findJob, notRunning, if_false]
      rw [← placed.split]
  | interrupted isRunning _ induction =>
      rw [JobOperations.waitLoop.eq_def]
      simp only [placed.findJob, isRunning, if_true, List.cons_append]
      exact induction placed
  | @child job final waits process status isRunning member alive reported
      later induction =>
      have isPid : process.pid ∈ pids job := List.mem_map_of_mem member
      rw [JobOperations.waitLoop.eq_def]
      simp only [placed.findJob, isRunning, if_true, List.cons_append]
      rw [placed.updateProcess isPid]
      exact induction
        (placed.replace rfl (pids_updated process.pid status job))

end Placed

/-- `wait_foreground` comes to its report with the table of the final job. -/
theorem waitForeground_of_awaits
    {session : Session} {front back : List Job} {job final : Job}
    (placed : Placed session.control front job back)
    {answers : WaitAnswers} {continueJob : Bool}
    (continued : continueJob = true → answers.killed = true)
    {waits rest : List WaitResult}
    (delivered : answers.waits = waits ++ rest)
    (awaits : Awaits (entering job continueJob) waits final) :
    ∃ waited : Session,
      Placed waited.control front final back ∧
        waited.control =
          { session.control with jobs := front ++ final :: back } ∧
        waitForeground answers job.id continueJob session =
          some
            (reportWait job.id
              (reclaimTerminal answers
                (saveModes answers job.id waited))) := by
  rcases final_same awaits with ⟨sameId, -, samePids⟩
  have settled := placed.replace sameId samePids
  rw [waitForeground, placed.findJob]
  cases continueJob with
  | false =>
      have looped := awaits.waitLoop placed rest
      simp only [Bool.false_eq_true, if_false, awaitJob,
        giveTerminalTo_control, delivered, giveTerminalTo_output]
      rw [show waitLoop job.id (waits ++ rest) session.control = _ from
        looped]
      exact ⟨_, settled, rfl, rfl⟩
  | true =>
      have resumed :
          Placed
            { session.control with jobs := front ++ job.resume :: back }
            front job.resume back :=
        placed.replace rfl (pids_resume job)
      have looped := awaits.waitLoop resumed rest
      simp only [if_true, awaitJob, continued rfl, Session.setControl,
        giveTerminalTo_control, delivered, giveTerminalTo_output,
        placed.modifyJob]
      rw [show waitLoop job.id (waits ++ rest) _ = _ from looped]
      exact ⟨_, settled, rfl, rfl⟩

/-! ## Jobs that are done -/

theorem saveModes_of_ne_stopped
    {id : Int} {session : Session} {job : Job}
    (found : session.control.findJob id = some job)
    (notStopped : job.state ≠ .stopped) (answers : WaitAnswers) :
    saveModes answers id session = session := by
  simp only [saveModes, found]
  exact if_neg fun both => notStopped both.2.1

theorem reportWait_of_done
    {id : Int} {session : Session} {job : Job}
    (found : session.control.findJob id = some job)
    (isDone : job.state = .done) :
    (reportWait id session).1 = job.lastStatus ∧
      (reportWait id session).2.control =
        session.control.eraseJob id := by
  simp [reportWait, settleJob, found, isDone]

theorem Placed.eraseJob
    {control : JobControl} {front back : List Job} {job new : Job}
    (placed : Placed control front job back) (sameId : new.id = job.id) :
    ({ control with jobs := front ++ new :: back } : JobControl).eraseJob
        job.id =
      control.eraseJob job.id := by
  simp [JobControl.eraseJob, placed.split, sameId]

theorem waitForeground_of_done
    {session : Session} {front back : List Job} {job final : Job}
    (placed : Placed session.control front job back)
    {answers : WaitAnswers} {continueJob : Bool}
    (continued : continueJob = true → answers.killed = true)
    {waits rest : List WaitResult}
    (delivered : answers.waits = waits ++ rest)
    (awaits : Awaits (entering job continueJob) waits final)
    (isDone : final.state = .done) :
    ∃ next,
      waitForeground answers job.id continueJob session =
          some (final.lastStatus, next) ∧
        next.control = session.control.eraseJob job.id := by
  rcases final_same awaits with ⟨sameId, -, -⟩
  rcases waitForeground_of_awaits placed continued delivered awaits with
    ⟨waited, settled, control, returned⟩
  have found := settled.findJob
  rw [sameId] at found
  rw [saveModes_of_ne_stopped found (by rw [isDone]; nofun)] at returned
  rw [← reclaimTerminal_control answers] at found
  rcases reportWait_of_done found isDone with ⟨status, erased⟩
  rw [reclaimTerminal_control, control, placed.eraseJob sameId] at erased
  refine ⟨_, returned.trans ?_, erased⟩
  rw [← status]

/-- If every process of a job is done after a foreground wait, the wait returns
the decoded status with which the last process has ended, which is its exit
code or 128 and the signal that killed it, and the job leaves the table; all
other jobs stay as they are. -/
theorem finished_job_returns_last_status
    {session : Session} (reachable : jobSystem.Reachable session)
    (distinct : DistinctPids session.control)
    {job : Job} (member : job ∈ session.control.jobs)
    (hasLast : job.HasPid job.lastPid)
    {answers : WaitAnswers} {continueJob : Bool}
    (continued : continueJob = true → answers.killed = true)
    {waits rest : List WaitResult}
    (delivered : answers.waits = waits ++ rest)
    {final : Job} (awaits : Awaits (entering job continueJob) waits final)
    (allDone : ∀ process ∈ final.processes, process.state = .done) :
    ∃ status next,
      EndedWith job waits job.lastPid status ∧
        (∀ other, EndedWith job waits job.lastPid other →
          other = status) ∧
        waitForeground answers job.id continueJob session =
          some (decodeWaitStatus status, next) ∧
        (status.ifExited = true →
          decodeWaitStatus status = status.exitStatus) ∧
        (status.ifSignaled = true →
          decodeWaitStatus status = 128 + status.termSignal) ∧
        next.control = session.control.eraseJob job.id := by
  have valid := reachable_tableValid reachable
  rcases exists_placed valid distinct member with
    ⟨ownPids, front, back, placed⟩
  have isDone : final.state = .done := by
    have aggregates :=
      final_aggregates awaits (valid.jobs job member).aggregates
    exact aggregates.done.mpr allDone
  -- The record of the last process at the end of the wait.
  have hasRecord : ∃ last ∈ final.processes, last.pid = job.lastPid := by
    have isPid := hasPid_iff.mp hasLast
    rw [← (final_same awaits).2.2] at isPid
    exact List.mem_map.mp isPid
  rcases hasRecord with ⟨last, isRecord, isLast⟩
  have lastDone := allDone last isRecord
  have notRunning : last.state ≠ .running := by
    intro isRunning
    cases lastDone.symm.trans isRunning
  have onlyStatus := final_endedWith_iff_eq awaits ownPids isRecord lastDone
  rw [isLast] at onlyStatus
  rcases waitForeground_of_done placed continued delivered awaits isDone with
    ⟨next, returned, erased⟩
  rw [final_lastStatus reachable member awaits ownPids isRecord isLast
    notRunning] at returned
  exact ⟨last.waitStatus, next, (onlyStatus _).mpr rfl,
    fun other => (onlyStatus other).mp, returned,
    decodeWaitStatus_of_ifExited, decodeWaitStatus_of_ifSignaled, erased⟩

/-- A pipeline of two processes that has just been launched. -/
def launchedJob : Job :=
  { id := 1
    pgid := 10
    processes := [⟨10, .running, 0⟩, ⟨11, .running, 0⟩]
    lastPid := 11
    command := literal "yes | head" }

def launchedSession : Session :=
  ⟨{ nextJobId := 2, jobs := [launchedJob] }, ⟨1, {}⟩, [], []⟩

def launch : List Operation :=
  [.launch 10 [11] 11 (literal "yes | head")]

theorem launched : jobSystem.run sampleStart launch = some launchedSession :=
  rfl

/-- The last process stops, goes on and exits with 3 before the first one is
killed. -/
def endingWaits : List WaitResult :=
  [.child 11 0x147f#32, .interrupted, .child 11 0xffff#32,
    .child 11 0x0300#32, .child 10 0x000f#32]

theorem finished_job_returns_last_status_sample :
    ∃ status next,
      EndedWith launchedJob endingWaits 11 status ∧
        waitForeground { waits := endingWaits } 1 false launchedSession =
          some (decodeWaitStatus status, next) ∧
        next.control = launchedSession.control.eraseJob 1 := by
  have awaits :
      ∃ final,
        Awaits (entering launchedJob false) endingWaits final ∧
          ∀ process ∈ final.processes, process.state = .done := by
    constructor
    constructor
    · apply Awaits.child rfl
        (show (⟨11, .running, 0⟩ : ProcessRecord) ∈ _ by decide) nofun
        (Or.inr (Or.inl (by decide)))
      apply Awaits.interrupted (by decide)
      apply Awaits.child (by decide)
        (show (⟨11, .stopped, 0x147f#32⟩ : ProcessRecord) ∈ _ by decide)
        nofun (Or.inr (Or.inr (by decide)))
      apply Awaits.child (by decide)
        (show (⟨11, .running, 0xffff#32⟩ : ProcessRecord) ∈ _ by decide)
        nofun (Or.inl (by decide))
      apply Awaits.child (by decide)
        (show (⟨10, .running, 0⟩ : ProcessRecord) ∈ _ by decide) nofun
        (Or.inl (by decide))
      exact Awaits.returned (by decide)
    · decide
  rcases awaits with ⟨final, awaits, allDone⟩
  have continued : false = true → true = true := nofun
  have delivered :
      ({ waits := endingWaits } : WaitAnswers).waits = endingWaits ++ [] :=
    rfl
  rcases finished_job_returns_last_status
      ⟨sampleStart, launch, ⟨rfl, rfl, rfl⟩, launched⟩
      (by decide) List.mem_cons_self (by decide) continued delivered awaits
      allDone with
    ⟨status, next, ended, -, returned, -, -, erased⟩
  exact ⟨status, next, ended, returned, erased⟩

/-! ## Jobs that are stopped -/

theorem reportWait_of_stopped
    {id : Int} {session : Session} {job : Job}
    (found : session.control.findJob id = some job)
    (isStopped : job.state = .stopped) :
    (reportWait id session).1 =
        (if job.lastStatus ≠ 0 then job.lastStatus else 128 + sigtstp) ∧
      (reportWait id session).2.control.findJob id =
        some { job with stateChanged := false } := by
  simp [reportWait, settleJob, found, isStopped, findJob_modifyJob]

/-- The modes are all that is saved with a stopped job. -/
theorem saveModes_placed
    {session : Session} {front back : List Job} {job : Job}
    (placed : Placed session.control front job back)
    (answers : WaitAnswers) :
    ∃ kept,
      Placed (saveModes answers job.id session).control front kept back ∧
        kept.id = job.id ∧ kept.state = job.state ∧
        kept.processes = job.processes ∧
        kept.lastStatus = job.lastStatus := by
  simp only [saveModes, placed.findJob]
  split_ifs
  · rw [Session.setControl_control, placed.modifyJob]
    exact ⟨_, placed.replace rfl rfl, rfl, rfl, rfl, rfl⟩
  · exact ⟨job, placed, rfl, rfl, rfl, rfl⟩

theorem waitForeground_of_stopped
    {session : Session} {front back : List Job} {job final : Job}
    (placed : Placed session.control front job back)
    {answers : WaitAnswers} {continueJob : Bool}
    (continued : continueJob = true → answers.killed = true)
    {waits rest : List WaitResult}
    (delivered : answers.waits = waits ++ rest)
    (awaits : Awaits (entering job continueJob) waits final)
    (isStopped : final.state = .stopped) :
    ∃ next kept,
      waitForeground answers job.id continueJob session =
          some
            (if final.lastStatus ≠ 0 then final.lastStatus
              else 128 + sigtstp, next) ∧
        next.control.findJob job.id = some kept ∧
        kept.state = .stopped ∧ kept.stateChanged = false ∧
        kept.processes = final.processes := by
  rcases final_same awaits with ⟨sameId, -, -⟩
  rcases waitForeground_of_awaits placed continued delivered awaits with
    ⟨waited, settled, -, returned⟩
  rcases saveModes_placed settled answers with
    ⟨kept, keptPlaced, keptId, keptState, keptProcesses, keptStatus⟩
  rw [sameId] at keptPlaced keptId
  rw [← reclaimTerminal_control answers] at keptPlaced
  have found := keptPlaced.findJob
  rw [keptId] at found
  rcases reportWait_of_stopped found (keptState.trans isStopped) with
    ⟨status, foundAgain⟩
  rw [keptStatus] at status
  refine ⟨_, _, returned.trans ?_, foundAgain, keptState.trans isStopped,
    rfl, keptProcesses⟩
  rw [← status]

/-- The last report of a process during the wait; if there is none, the status
that is on record from before. -/
def LastReport (job : Job) (waits : List WaitResult) (pid : Int)
    (status : WaitStatus) : Prop :=
  (∃ before after,
      waits = before ++ .child pid status :: after ∧
        ∀ other, .child pid other ∉ after) ∨
    (∀ other, .child pid other ∉ waits) ∧
      ∃ process ∈ job.processes,
        process.pid = pid ∧ process.waitStatus = status

theorem LastReport.later
    {job : Job} {waits : List WaitResult} {pid : Int} {status : WaitStatus}
    (report : LastReport job waits pid status) {result : WaitResult}
    (isOther : ∀ other, .child pid other ≠ result) :
    LastReport job (result :: waits) pid status := by
  rcases report with ⟨before, after, split, notLater⟩ | ⟨notReported, old⟩
  · exact Or.inl ⟨result :: before, after, by rw [split]; rfl, notLater⟩
  · refine Or.inr ⟨fun other reported => ?_, old⟩
    rcases List.mem_cons.mp reported with same | later
    · exact isOther other same
    · exact notReported other later

theorem LastReport.child
    {job : Job} (distinct : (pids job).Nodup) {process : ProcessRecord}
    (member : process ∈ job.processes) {status : WaitStatus}
    {waits : List WaitResult} {pid : Int} {last : WaitStatus}
    (report :
      LastReport (job.updated process.pid status) waits pid last) :
    LastReport job (.child process.pid status :: waits) pid last := by
  rcases report with ⟨before, after, split, notLater⟩ |
    ⟨notReported, record, isRecord, samePid, sameStatus⟩
  · exact Or.inl ⟨.child process.pid status :: before, after,
      by rw [split]; rfl, notLater⟩
  rcases (mem_updateRecords distinct member status).mp isRecord with
    rfl | ⟨old, otherPid⟩
  · -- This is the report itself, and there is none behind it.
    cases samePid
    cases sameStatus
    exact Or.inl ⟨[], waits, rfl, notReported⟩
  · apply LastReport.later (Or.inr ⟨notReported, record, old, samePid,
      sameStatus⟩)
    intro other same
    cases same
    exact otherPid samePid

theorem Awaits.lastReport
    {job final : Job} {waits : List WaitResult}
    (awaits : Awaits job waits final) (distinct : (pids job).Nodup)
    {process : ProcessRecord} (member : process ∈ final.processes) :
    LastReport job waits process.pid process.waitStatus := by
  induction awaits with
  | returned _ => exact Or.inr ⟨nofun, process, member, rfl, rfl⟩
  | interrupted _ _ induction =>
      exact (induction distinct member).later nofun
  | @child job final waits reported status _ isRecord _ _ _ induction =>
      rw [← pids_updated reported.pid status] at distinct
      have report := induction distinct member
      rw [pids_updated] at distinct
      exact report.child distinct isRecord

theorem final_lastReport
    {job final : Job} {continueJob : Bool} {waits : List WaitResult}
    (awaits : Awaits (entering job continueJob) waits final)
    (distinct : (pids job).Nodup) {process : ProcessRecord}
    (member : process ∈ final.processes) :
    LastReport job waits process.pid process.waitStatus := by
  rw [← (entering_same job continueJob).2.2] at distinct
  rcases awaits.lastReport distinct member with
    during | ⟨notReported, record, isRecord, samePid, sameStatus⟩
  · exact Or.inl during
  cases continueJob with
  | false =>
      exact Or.inr ⟨notReported, record, isRecord, samePid, sameStatus⟩
  | true =>
      rcases List.mem_map.mp isRecord with ⟨source, isSource, rfl⟩
      refine Or.inr ⟨notReported, source, isSource, ?_, ?_⟩
      · rw [← samePid]
        split <;> rfl
      · rw [← sameStatus]
        split <;> rfl

/-- Some process that is stopped has been stopped by the signal. -/
def StoppedBy (job : Job) (waits : List WaitResult)
    (processes : List ProcessRecord) (signal : Nat) : Prop :=
  ∃ process ∈ processes,
    process.state = .stopped ∧
      ∃ report,
        LastReport job waits process.pid report ∧
          report.ifStopped = true ∧ report.exitStatus = signal

/-- The choice of `wait_foreground` between `last_status` and `SIGTSTP` takes
128 and a given signal in two ways. -/
theorem stop_choice_eq_iff (code : Int) (signal : Nat) :
    (if code ≠ 0 then code else 128 + sigtstp) = 128 + signal ↔
      code = 0 ∧ signal = 20 ∨ code = 128 + signal := by
  rw [sigtstp]
  split_ifs <;> omega

/-- The choice for a last process that has ended. -/
theorem stop_choice_of_ended
    {status : WaitStatus} (ends : status.terminates = true)
    (stopped : Nat → Prop) :
    (∃ signal, stopped signal ∧
        (decodeWaitStatus status = 0 ∧ signal = 20 ∨
          decodeWaitStatus status = 128 + signal)) ↔
      ∃ code,
        EndsAs status code ∧
          (code = 0 ∧ stopped 20 ∨
            ∃ signal, stopped signal ∧ code = 128 + signal) := by
  simp only [endsAs_iff ends, exists_eq_left]
  constructor
  · rintro ⟨signal, isStopped, ⟨isZero, rfl⟩ | isStop⟩
    · exact Or.inl ⟨isZero, isStopped⟩
    · exact Or.inr ⟨signal, isStopped, isStop⟩
  · rintro (⟨isZero, isStopped⟩ | ⟨signal, isStopped, isStop⟩)
    · exact ⟨20, isStopped, Or.inl ⟨isZero, rfl⟩⟩
    · exact ⟨signal, isStopped, Or.inr isStop⟩

/--
A job that is stopped after a foreground wait stays in the table as stopped
and acknowledged.  The status is 128 and the signal of a process that is
stopped exactly if the last process is among those, or has ended with zero
while some process was stopped by `SIGTSTP`, or has ended with just that code.
-/
theorem stopped_job_status
    {start session : Session} (fresh : Fresh start)
    {operations : List Operation}
    (ran : jobSystem.run start operations = some session)
    (kernel :
      ∀ operation ∈ operations, ∀ pid status,
        .child pid status ∈ results operation → Reported status)
    (distinct : DistinctPids session.control)
    {job : Job} (member : job ∈ session.control.jobs)
    {answers : WaitAnswers} {continueJob : Bool}
    (continued : continueJob = true → answers.killed = true)
    {waits rest : List WaitResult}
    (delivered : answers.waits = waits ++ rest)
    {final : Job} (awaits : Awaits (entering job continueJob) waits final)
    (isStopped : final.state = .stopped) :
    ∃ status next kept,
      waitForeground answers job.id continueJob session =
          some (status, next) ∧
        next.control.findJob job.id = some kept ∧
        kept.state = .stopped ∧ kept.stateChanged = false ∧
        kept.processes = final.processes ∧
        ∀ last ∈ kept.processes, last.pid = job.lastPid →
          ((∃ signal, StoppedBy job waits kept.processes signal ∧
              status = 128 + signal) ↔
            last.state = .stopped ∨
              ∃ report code,
                EndedWith job waits job.lastPid report ∧
                  EndsAs report code ∧
                  (code = 0 ∧ StoppedBy job waits kept.processes 20 ∨
                    ∃ signal, StoppedBy job waits kept.processes signal ∧
                      code = 128 + signal)) := by
  have reachable : jobSystem.Reachable session :=
    ⟨start, operations, fresh, ran⟩
  have valid := reachable_tableValid reachable
  rcases exists_placed valid distinct member with
    ⟨ownPids, front, back, placed⟩
  have aggregates :=
    final_aggregates awaits (valid.jobs job member).aggregates
  rcases waitForeground_of_stopped placed continued delivered awaits
      isStopped with
    ⟨next, kept, returned, found, keptState, acknowledged, processes⟩
  refine ⟨_, next, kept, returned, found, keptState, acknowledged, processes,
    ?_⟩
  intro last isRecord isLast
  rw [processes] at isRecord
  have notRunning : last.state ≠ .running :=
    (aggregates.stopped.mp isStopped).1 last isRecord
  have fits : Fits last :=
    final_keeps fits_stable id awaits
      (fits_stable.run fresh kernel ran job member) last isRecord
  rw [final_lastStatus reachable member awaits ownPids isRecord isLast
    notRunning]
  simp only [stop_choice_eq_iff]
  cases lastState : last.state with
  | running => exact absurd lastState notRunning
  | stopped =>
      have stop := fits.stopped lastState
      refine iff_of_true ⟨last.waitStatus.exitStatus, ?_, Or.inr ?_⟩
        (Or.inl rfl)
      · exact ⟨last, processes ▸ isRecord, lastState, last.waitStatus,
          final_lastReport awaits ownPids isRecord, stop, rfl⟩
      · exact decodeWaitStatus_of_ifStopped stop
  | done =>
      have onlyStatus :=
        final_endedWith_iff_eq awaits ownPids isRecord lastState
      rw [isLast] at onlyStatus
      have chosen :=
        stop_choice_of_ended (fits.done lastState)
          (StoppedBy job waits kept.processes)
      constructor
      · intro isStop
        rcases chosen.mp isStop with ⟨code, isCode, reported⟩
        exact Or.inr ⟨_, code, (onlyStatus _).mpr rfl, isCode, reported⟩
      · rintro (isStopped | ⟨report, code, ended, isCode, reported⟩)
        · cases isStopped
        · cases (onlyStatus report).mp ended
          exact chosen.mpr ⟨code, isCode, reported⟩

/-- Both processes are stopped from the terminal. -/
def stoppingWaits : List WaitResult :=
  [.child 10 0x147f#32, .child 11 0x147f#32]

theorem stopped_job_status_sample :
    ∃ status next kept,
      waitForeground { waits := stoppingWaits } 1 false launchedSession =
          some (status, next) ∧
        next.control.findJob 1 = some kept ∧
        kept.processes =
          [⟨10, .stopped, 0x147f#32⟩, ⟨11, .stopped, 0x147f#32⟩] ∧
        ∃ signal, StoppedBy launchedJob stoppingWaits kept.processes signal ∧
          status = 128 + signal := by
  have awaits :
      ∃ final,
        Awaits (entering launchedJob false) stoppingWaits final ∧
          final.state = .stopped ∧
          final.processes =
            [⟨10, .stopped, 0x147f#32⟩, ⟨11, .stopped, 0x147f#32⟩] := by
    constructor
    constructor
    · apply Awaits.child rfl
        (show (⟨10, .running, 0⟩ : ProcessRecord) ∈ _ by decide) nofun
        (Or.inr (Or.inl (by decide)))
      apply Awaits.child (by decide)
        (show (⟨11, .running, 0⟩ : ProcessRecord) ∈ _ by decide) nofun
        (Or.inr (Or.inl (by decide)))
      exact Awaits.returned (by decide)
    · decide
  rcases awaits with ⟨final, awaits, isStopped, processes⟩
  have continued : false = true → true = true := nofun
  have delivered :
      ({ waits := stoppingWaits } : WaitAnswers).waits =
        stoppingWaits ++ [] :=
    rfl
  have kernel :
      ∀ operation ∈ launch, ∀ pid status,
        .child pid status ∈ results operation → Reported status := by
    simp [launch, Operation.launch, results]
  rcases stopped_job_status ⟨rfl, rfl, rfl⟩ launched kernel (by decide)
      List.mem_cons_self continued delivered awaits isStopped with
    ⟨status, next, kept, returned, found, -, -, same, reports⟩
  rw [processes] at same
  have isRecord :
      (⟨11, .stopped, 0x147f#32⟩ : ProcessRecord) ∈ kept.processes := by
    rw [same]
    decide
  exact ⟨status, next, kept, returned, found, same,
    (reports _ isRecord rfl).mpr (Or.inl rfl)⟩

/-- The last process exits with 3, then the first one is stopped from the
terminal. -/
def mixedWaits : List WaitResult :=
  [.child 11 0x0300#32, .child 10 0x147f#32]

/-- The wait returns the 3 of the process that is gone, although the one that
is stopped has been stopped by signal 20. -/
theorem ended_process_hides_stop :
    jobSystem.run sampleStart launch = some launchedSession ∧
      DistinctPids launchedSession.control ∧
      ∃ final,
        Awaits (entering launchedJob false) mixedWaits final ∧
          final.state = .stopped ∧
          final.processes =
            [⟨10, .stopped, 0x147f#32⟩, ⟨11, .done, 0x0300#32⟩] ∧
          (waitForeground { waits := mixedWaits } 1 false
              launchedSession).map Prod.fst = some 3 ∧
          ∀ process ∈ final.processes, process.state = .stopped →
            3 ≠ 128 + process.waitStatus.exitStatus := by
  refine ⟨launched, by decide, ?_⟩
  constructor
  constructor
  · apply Awaits.child rfl
      (show (⟨11, .running, 0⟩ : ProcessRecord) ∈ _ by decide) nofun
      (Or.inl (by decide))
    apply Awaits.child (by decide)
      (show (⟨10, .running, 0⟩ : ProcessRecord) ∈ _ by decide) nofun
      (Or.inr (Or.inl (by decide)))
    exact Awaits.returned (by decide)
  · decide +kernel

end Shell.ForegroundStatus
