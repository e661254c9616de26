import Mathlib.Data.List.Nodup
import Shell.JobControl.Operations
import Shell.Library.FirstMatch

/-!
# The invariant of the job table

The table changes by seven kinds of action, each of which some operation
performs at a point where its guard holds.  The actions form a system of their
own; every operation is a run of it, so that what an action preserves holds
between any two operations.  The invariant says that ids increase along the
table and stay below the next id, that the state of a job is the aggregate of
its records, and that a job that is done is marked as changed.
-/

namespace Shell.TableInvariant

open Shell.Syntax
open Shell.FirstMatch
open Shell.TransitionSystem
open Shell.JobTable
open Shell.JobOperations

/-- The ids of the jobs in the table, in order. -/
abbrev ids (control : JobControl) : List Int :=
  control.jobs.map Job.id

/-! ## Actions -/

/-- A change of the table. -/
inductive Action where
  | add (pgid : Int) (pids : List Int) (nonempty : pids ≠ [])
      (lastPid : Int) (command : ByteString)
  | update (pid : Int) (status : WaitStatus)
  | resume (id : Int)
  | keepModes (id : Int) (modes : Termios)
  | acknowledge (id : Int)
  | erase (id : Int)
  | cleanup

/-- The table has a job with the id and the state. -/
def HasState (control : JobControl) (id : Int) (state : JobState) : Prop :=
  ∃ job ∈ control.findJob id, job.state = state

instance (control : JobControl) (id : Int) (state : JobState) :
    Decidable (HasState control id state) :=
  inferInstanceAs
    (Decidable (∃ job ∈ control.findJob id, job.state = state))

/-- Jobs are continued and acknowledged when stopped, erased when done. -/
def act (control : JobControl) : Action → Option JobControl
  | .add pgid pids _ lastPid command =>
      some (control.addJob pgid pids lastPid command).2
  | .update pid status => some (control.updateProcess pid status)
  | .resume id =>
      if HasState control id .stopped then
        some (control.modifyJob id Job.resume)
      else
        none
  | .keepModes id modes =>
      some
        (control.modifyJob id fun job =>
          { job with terminalModes := modes, hasTerminalModes := true })
  | .acknowledge id =>
      if HasState control id .stopped then
        some
          (control.modifyJob id fun job => { job with stateChanged := false })
      else
        none
  | .erase id =>
      if HasState control id .done then some (control.eraseJob id) else none
  | .cleanup => some control.cleanup

/-- Everything an action can do. -/
inductive Acts (control : JobControl) : Action → JobControl → Prop where
  | add {pgid : Int} {pids : List Int} {nonempty : pids ≠ []}
      {lastPid : Int} {command : ByteString} :
      Acts control (.add pgid pids nonempty lastPid command)
        (control.addJob pgid pids lastPid command).2
  | update {pid : Int} {status : WaitStatus} :
      Acts control (.update pid status) (control.updateProcess pid status)
  | resume {id : Int} (isStopped : HasState control id .stopped) :
      Acts control (.resume id) (control.modifyJob id Job.resume)
  | keepModes {id : Int} {modes : Termios} :
      Acts control (.keepModes id modes)
        (control.modifyJob id fun job =>
          { job with terminalModes := modes, hasTerminalModes := true })
  | acknowledge {id : Int} (isStopped : HasState control id .stopped) :
      Acts control (.acknowledge id)
        (control.modifyJob id fun job => { job with stateChanged := false })
  | erase {id : Int} (isDone : HasState control id .done) :
      Acts control (.erase id) (control.eraseJob id)
  | cleanup : Acts control .cleanup control.cleanup

theorem acts_of_act
    {control next : JobControl} {action : Action}
    (acted : act control action = some next) :
    Acts control action next := by
  unfold act at acted
  split at acted
  · cases acted
    exact .add
  · cases acted
    exact .update
  · split at acted
    · cases acted
      exact .resume ‹_›
    · cases acted
  · cases acted
    exact .keepModes
  · split at acted
    · cases acted
      exact .acknowledge ‹_›
    · cases acted
  · split at acted
    · cases acted
      exact .erase ‹_›
    · cases acted
  · cases acted
    exact .cleanup

/-- The job table as a system of actions. -/
def tableSystem : System JobControl Action where
  initial := fun control => control.nextJobId = 1 ∧ control.jobs = []
  step := act

/-! ## Valid jobs -/

/-- The state of a job is the aggregate of the states of its records. -/
structure Aggregates (job : Job) : Prop where
  done :
    job.state = .done ↔ ∀ process ∈ job.processes, process.state = .done
  running :
    job.state = .running ↔
      ∃ process ∈ job.processes, process.state = .running
  stopped :
    job.state = .stopped ↔
      (∀ process ∈ job.processes, process.state ≠ .running) ∧
        ∃ process ∈ job.processes, process.state = .stopped

structure JobValid (job : Job) : Prop where
  aggregates : Aggregates job
  changed : job.state = .done → job.stateChanged = true

theorem aggregates_of_running
    {job : Job} (isRunning : job.state = .running)
    (exists_running : ∃ process ∈ job.processes, process.state = .running) :
    Aggregates job where
  done := by
    rcases exists_running with ⟨process, member, running⟩
    constructor
    · intro done
      rw [isRunning] at done
      cases done
    · intro all
      rw [all process member] at running
      cases running
  running := ⟨fun _ => exists_running, fun _ => isRunning⟩
  stopped := by
    rcases exists_running with ⟨process, member, running⟩
    constructor
    · intro stopped
      rw [isRunning] at stopped
      cases stopped
    · rintro ⟨none_running, -⟩
      exact (none_running process member running).elim

theorem aggregates_recomputeState (job : Job) :
    Aggregates (recomputeState job) := by
  by_cases anyRunning : ∃ process ∈ job.processes, process.state = .running
  · have seen :
        (job.processes.any fun process => process.state = .running) =
          true := by
      simpa using anyRunning
    have isRunning : (recomputeState job).state = .running := by
      simp [recomputeState, recomputedState, seen]
    exact aggregates_of_running isRunning anyRunning
  · have noneRunning :
        ∀ process ∈ job.processes, process.state ≠ .running := by
      intro process member running
      exact anyRunning ⟨process, member, running⟩
    by_cases anyStopped :
        ∃ process ∈ job.processes, process.state = .stopped
    · have isStopped : (recomputeState job).state = .stopped := by
        simp [recomputeState, recomputedState, anyRunning, anyStopped]
      rcases anyStopped with ⟨process, member, stopped⟩
      constructor
      · rw [isStopped]
        constructor
        · intro impossible
          cases impossible
        · intro all
          rw [all process member] at stopped
          cases stopped
      · rw [isStopped]
        constructor
        · intro impossible
          cases impossible
        · intro running
          exact (anyRunning running).elim
      · rw [isStopped]
        exact ⟨fun _ => ⟨noneRunning, process, member, stopped⟩,
          fun _ => rfl⟩
    · have isDone : (recomputeState job).state = .done := by
        simp [recomputeState, recomputedState, anyRunning, anyStopped]
      have allDone :
          ∀ process ∈ job.processes, process.state = .done := by
        intro process member
        cases state : process.state with
        | running => exact (noneRunning process member state).elim
        | stopped => exact (anyStopped ⟨process, member, state⟩).elim
        | done => rfl
      constructor
      · exact ⟨fun _ => allDone, fun _ => isDone⟩
      · rw [isDone]
        constructor
        · intro impossible
          cases impossible
        · intro running
          exact (anyRunning running).elim
      · rw [isDone]
        constructor
        · intro impossible
          cases impossible
        · rintro ⟨-, stopped⟩
          exact (anyStopped stopped).elim

theorem JobValid.updated
    {job : Job} (valid : JobValid job) (pid : Int) (status : WaitStatus) :
    JobValid (job.updated pid status) where
  aggregates := aggregates_recomputeState _
  changed := by
    intro done
    simp only [Job.updated, recomputeState] at done ⊢
    rw [done]
    by_cases before : job.state = .done
    · simp [before, valid.changed before]
    · simp [Ne.symm before]

theorem JobValid.resume
    {job : Job} (valid : JobValid job) (isStopped : job.state = .stopped) :
    JobValid job.resume where
  aggregates := by
    rcases valid.aggregates.stopped.mp isStopped with
      ⟨-, process, member, stopped⟩
    apply aggregates_of_running rfl
    refine ⟨{ process with state := .running }, ?_, rfl⟩
    apply List.mem_map.mpr
    exact ⟨process, member, if_pos stopped⟩
  changed := by
    intro done
    cases done

/-- A job that is not done may be acknowledged. -/
theorem JobValid.acknowledge
    {job : Job} (valid : JobValid job) (notDone : job.state ≠ .done) :
    JobValid { job with stateChanged := false } where
  aggregates := ⟨valid.aggregates.done, valid.aggregates.running,
    valid.aggregates.stopped⟩
  changed := fun done => (notDone done).elim

theorem JobValid.keepModes
    {job : Job} (valid : JobValid job) (modes : Termios) :
    JobValid
      { job with terminalModes := modes, hasTerminalModes := true } where
  aggregates := ⟨valid.aggregates.done, valid.aggregates.running,
    valid.aggregates.stopped⟩
  changed := valid.changed

theorem jobValid_added
    (control : JobControl) (pgid : Int) {pids : List Int}
    (nonempty : pids ≠ []) (lastPid : Int) (command : ByteString) :
    JobValid
      { id := control.nextJobId
        pgid := pgid
        processes := pids.map fun pid => ⟨pid, .running, 0⟩
        lastPid := lastPid
        command := command } where
  aggregates := by
    rcases List.exists_mem_of_ne_nil _ nonempty with ⟨pid, member⟩
    apply aggregates_of_running rfl
    exact ⟨_, List.mem_map_of_mem member, rfl⟩
  changed := by
    intro done
    cases done

/-! ## Valid tables -/

/-- The invariant of the table. -/
structure TableValid (control : JobControl) : Prop where
  increasing : (ids control).Pairwise (· < ·)
  below : ∀ job ∈ control.jobs, job.id < control.nextJobId
  jobs : ∀ job ∈ control.jobs, JobValid job

theorem TableValid.nodup
    {control : JobControl} (valid : TableValid control) :
    (ids control).Nodup :=
  valid.increasing.imp fun less => Int.ne_of_lt less

/-- A job of a valid table is the one that its id finds. -/
theorem TableValid.findJob
    {control : JobControl} (valid : TableValid control)
    {job : Job} (member : job ∈ control.jobs) :
    control.findJob job.id = some job :=
  find?_key_of_mem valid.nodup member

theorem findJob_mem
    {control : JobControl} {id : Int} {job : Job}
    (found : control.findJob id = some job) :
    job ∈ control.jobs ∧ job.id = id := by
  constructor
  · exact List.mem_of_find?_eq_some found
  · simpa using List.find?_some found

/-- Jobs may change and leave, as long as their ids stay in order. -/
theorem TableValid.replace
    {control : JobControl} (valid : TableValid control)
    {jobs : List Job}
    (sameOrder : (jobs.map Job.id).Sublist (ids control))
    (all : ∀ job ∈ jobs, JobValid job) :
    TableValid { control with jobs := jobs } where
  increasing := valid.increasing.sublist sameOrder
  below := by
    intro job member
    have inOld := sameOrder.subset (List.mem_map_of_mem member)
    rcases List.mem_map.mp inOld with ⟨old, oldMember, sameId⟩
    rw [← sameId]
    exact valid.below old oldMember
  jobs := all

theorem addJob_ids
    (control : JobControl) (pgid : Int) (pids : List Int) (lastPid : Int)
    (command : ByteString) :
    ids (control.addJob pgid pids lastPid command).2 =
      ids control ++ [control.nextJobId] := by
  simp [ids, JobControl.addJob]

theorem updateProcess_ids
    (control : JobControl) (pid : Int) (status : WaitStatus) :
    ids (control.updateProcess pid status) = ids control := by
  apply List.lookmap_map_eq
  intro job result updated
  unfold Job.updateProcess at updated
  split at updated
  · cases updated
    rfl
  · cases updated

theorem modifyJob_ids
    (control : JobControl) (id : Int) {change : Job → Job}
    (keeps : ∀ job, (change job).id = job.id) :
    ids (control.modifyJob id change) = ids control := by
  apply List.lookmap_map_eq
  intro job result updated
  split at updated
  · cases updated
    exact (keeps job).symm
  · cases updated

theorem modifyJob_sublist
    (control : JobControl) (id : Int) {change : Job → Job}
    (keeps : ∀ job, (change job).id = job.id) :
    (ids (control.modifyJob id change)).Sublist (ids control) := by
  rw [modifyJob_ids control id keeps]

theorem findJob_modifyJob
    (control : JobControl) (id : Int) (change : Job → Job)
    (keeps : ∀ job, (change job).id = job.id) :
    (control.modifyJob id change).findJob id =
      (control.findJob id).map change :=
  (find?_lookmap_key keeps id id control.jobs).trans (if_pos rfl)

theorem eraseJob_ids (control : JobControl) (id : Int) :
    ids (control.eraseJob id) =
      (ids control).filter (fun other => other ≠ id) := by
  rw [ids, JobControl.eraseJob, List.filter_map]
  rfl

/-- Acknowledging keeps the ids; only done jobs that were written leave. -/
theorem cleanup_ids (control : JobControl) :
    ids control.cleanup =
      (ids control).filter
        (fun id =>
          id ∉ (control.jobs.filter JobControl.Announces).map Job.id) := by
  rw [ids, JobControl.cleanup, List.filter_map, List.filter_map,
    List.map_map]
  have sameId :
      (Job.id ∘ fun job : Job =>
        if job.stateChanged ∧ job.state ≠ .done then
          { job with stateChanged := false }
        else
          job) = Job.id := by
    funext job
    simp only [Function.comp_apply]
    split <;> rfl
  rw [sameId]
  congr 2
  funext job
  simp only [Function.comp_apply]
  split <;> rfl

theorem TableValid.modifyJob
    {control : JobControl} (valid : TableValid control) (id : Int)
    {change : Job → Job} (keeps : ∀ job, (change job).id = job.id)
    (changed :
      ∀ job ∈ control.findJob id, JobValid job → JobValid (change job)) :
    TableValid (control.modifyJob id change) := by
  apply valid.replace
  · exact modifyJob_sublist control id keeps
  · intro job member
    rcases JobControl.mem_modifyJob member with
      old | ⟨source, isMember, rfl, rfl⟩
    · exact valid.jobs job old
    · exact changed source (valid.findJob isMember)
        (valid.jobs source isMember)

theorem TableValid.add
    {control : JobControl} (valid : TableValid control)
    (pgid : Int) {pids : List Int} (nonempty : pids ≠ [])
    (lastPid : Int) (command : ByteString) :
    TableValid (control.addJob pgid pids lastPid command).2 where
  increasing := by
    rw [addJob_ids]
    apply List.pairwise_append.mpr
    refine ⟨valid.increasing, List.pairwise_singleton _ _, ?_⟩
    intro id member next isNext
    rcases List.mem_map.mp member with ⟨job, isJob, rfl⟩
    rw [List.mem_singleton.mp isNext]
    exact valid.below job isJob
  below := by
    intro job member
    rcases List.mem_append.mp member with old | new
    · exact Int.lt_add_one_of_le (Int.le_of_lt (valid.below job old))
    · rw [List.mem_singleton.mp new]
      exact Int.lt_succ _
  jobs := by
    intro job member
    rcases List.mem_append.mp member with old | new
    · exact valid.jobs job old
    · rw [List.mem_singleton.mp new]
      exact jobValid_added control pgid nonempty lastPid command

/-- Every action keeps the invariant. -/
theorem act_tableValid
    {control next : JobControl} {action : Action}
    (valid : TableValid control)
    (acted : act control action = some next) :
    TableValid next := by
  cases acts_of_act acted with
  | add =>
      rename_i pgid pids nonempty lastPid command
      exact valid.add pgid nonempty lastPid command
  | update =>
      rename_i pid status
      apply valid.replace
      · exact updateProcess_ids control pid status ▸ List.Sublist.refl _
      · intro job member
        rcases JobControl.mem_updateProcess member with
          old | ⟨source, isMember, rfl⟩
        · exact valid.jobs job old
        · exact (valid.jobs source isMember).updated pid status
  | resume isStopped =>
      rename_i id
      rcases isStopped with ⟨job, found, stopped⟩
      refine valid.modifyJob id (fun _ => rfl) ?_
      intro other isOther otherValid
      rw [Option.mem_unique isOther found] at otherValid ⊢
      exact otherValid.resume stopped
  | keepModes =>
      rename_i id modes
      exact valid.modifyJob id (fun _ => rfl)
        (fun _ _ jobValid => jobValid.keepModes modes)
  | acknowledge isStopped =>
      rename_i id
      rcases isStopped with ⟨job, found, stopped⟩
      refine valid.modifyJob id (fun _ => rfl) ?_
      intro other isOther otherValid
      rw [Option.mem_unique isOther found] at otherValid ⊢
      exact otherValid.acknowledge (by simp [stopped])
  | erase isDone =>
      apply valid.replace
      · exact List.filter_sublist.map _
      · intro job member
        exact valid.jobs job (List.mem_of_mem_filter member)
  | cleanup =>
      apply valid.replace
      · show (ids control.cleanup).Sublist _
        rw [cleanup_ids]
        exact List.filter_sublist
      · intro job member
        rcases List.mem_map.mp (List.mem_of_mem_filter member) with
          ⟨source, isMember, rfl⟩
        split
        · rename_i acknowledged
          exact (valid.jobs source isMember).acknowledge acknowledged.2
        · exact valid.jobs source isMember

/-- An action appends the next id, or keeps a part of the ids in order. -/
theorem act_ids
    {control next : JobControl} {action : Action}
    (acted : act control action = some next) :
    (next.nextJobId = control.nextJobId + 1 ∧
        ids next = ids control ++ [control.nextJobId]) ∨
      (next.nextJobId = control.nextJobId ∧
        (ids next).Sublist (ids control)) := by
  cases acts_of_act acted with
  | add => exact Or.inl ⟨rfl, addJob_ids ..⟩
  | update =>
      rename_i pid status
      exact Or.inr ⟨rfl, updateProcess_ids control pid status ▸ .refl _⟩
  | resume _ | keepModes | acknowledge _ =>
      exact Or.inr ⟨rfl, modifyJob_sublist _ _ fun _ => rfl⟩
  | erase isDone =>
      rename_i id
      exact Or.inr ⟨rfl, eraseJob_ids control id ▸ List.filter_sublist⟩
  | cleanup => exact Or.inr ⟨rfl, cleanup_ids control ▸ List.filter_sublist⟩

theorem tableValid_initial
    {control : JobControl} (isInitial : tableSystem.initial control) :
    TableValid control := by
  rcases isInitial with ⟨-, empty⟩
  exact ⟨by simp [ids, empty], by simp [empty], by simp [empty]⟩

/-! ## Operations as runs of actions -/

/-- The actions of a call that waits for one job. -/
def Concerns (id : Int) : Action → Prop
  | .update _ _ => True
  | .resume other => other = id
  | .keepModes other _ => other = id
  | .acknowledge other => other = id
  | .erase other => other = id
  | .add _ _ _ _ _ => False
  | .cleanup => False

/-- The actions of the loop of `reap_background`. -/
def IsUpdate (action : Action) : Prop :=
  ∃ pid status, action = .update pid status

/-- The updates by the results of `waitpid`. -/
def Reports (results : List WaitResult) (action : Action) : Prop :=
  ∃ pid status,
    .child pid status ∈ results ∧ action = .update pid status

theorem Reports.mono
    {results more : List WaitResult} {action : Action}
    (reports : Reports results action) (subset : results ⊆ more) :
    Reports more action := by
  rcases reports with ⟨pid, status, member, rfl⟩
  exact ⟨pid, status, subset member, rfl⟩

/-- An update by the action is by one of the results. -/
def Takes (results : List WaitResult) (action : Action) : Prop :=
  IsUpdate action → Reports results action

theorem Reports.takes
    {results : List WaitResult} {action : Action}
    (reports : Reports results action) :
    Takes results action :=
  fun _ => reports

/-- The actions of a call that waits for one job with these results. -/
def Waits (id : Int) (results : List WaitResult) (action : Action) : Prop :=
  Concerns id action ∧ Takes results action

theorem Reports.waits
    {results : List WaitResult} {action : Action}
    (reports : Reports results action) (id : Int) :
    Waits id results action := by
  refine ⟨?_, reports.takes⟩
  rcases reports with ⟨pid, status, -, rfl⟩
  trivial

theorem Waits.mono
    {id : Int} {results more : List WaitResult} {action : Action}
    (waits : Waits id results action) (subset : results ⊆ more) :
    Waits id more action :=
  ⟨waits.1, fun isUpdate => (waits.2 isUpdate).mono subset⟩

/-- A run of actions that all satisfy a predicate. -/
def RunsOn (allowed : Action → Prop) (control next : JobControl) : Prop :=
  ∃ actions,
    (∀ action ∈ actions, allowed action) ∧
      tableSystem.run control actions = some next

theorem RunsOn.refl (allowed : Action → Prop) (control : JobControl) :
    RunsOn allowed control control :=
  ⟨[], by simp, rfl⟩

theorem RunsOn.trans
    {allowed : Action → Prop} {control middle next : JobControl}
    (first : RunsOn allowed control middle)
    (second : RunsOn allowed middle next) :
    RunsOn allowed control next := by
  rcases first with ⟨actions, allowedFirst, ranFirst⟩
  rcases second with ⟨later, allowedLater, ranLater⟩
  refine ⟨actions ++ later, ?_,
    System.run_append.mpr ⟨middle, ranFirst, ranLater⟩⟩
  intro action member
  rcases List.mem_append.mp member with early | late
  · exact allowedFirst action early
  · exact allowedLater action late

theorem RunsOn.single
    {allowed : Action → Prop} {control next : JobControl} (action : Action)
    (isAllowed : allowed action) (acted : act control action = some next) :
    RunsOn allowed control next := by
  refine ⟨[action], by simpa using isAllowed, ?_⟩
  exact System.run_cons.mpr ⟨next, acted, System.run_nil next⟩

theorem RunsOn.mono
    {allowed weaker : Action → Prop} {control next : JobControl}
    (runs : RunsOn allowed control next)
    (implies : ∀ {action}, allowed action → weaker action) :
    RunsOn weaker control next := by
  rcases runs with ⟨actions, all, ran⟩
  exact ⟨actions, fun action member => implies (all action member), ran⟩

theorem RunsOn.tableValid
    {allowed : Action → Prop} {control next : JobControl}
    (runs : RunsOn allowed control next) (valid : TableValid control) :
    TableValid next := by
  rcases runs with ⟨actions, -, ran⟩
  exact System.run_preserves TableValid act_tableValid valid ran

theorem RunsOn.later
    {result : WaitResult} {results : List WaitResult}
    {control next : JobControl}
    (runs : RunsOn (Reports results) control next) :
    RunsOn (Reports (result :: results)) control next :=
  runs.mono fun reports => reports.mono (List.subset_cons_self _ _)

theorem RunsOn.child
    {results : List WaitResult} {control next : JobControl} {pid : Int}
    {status : WaitStatus}
    (runs :
      RunsOn (Reports results) (control.updateProcess pid status) next) :
    RunsOn (Reports (.child pid status :: results)) control next :=
  RunsOn.trans
    (.single (.update pid status)
      ⟨pid, status, List.mem_cons_self, rfl⟩ rfl)
    runs.later

theorem waitLoop_runsOn
    {id : Int} {waits : List WaitResult} {control next : JobControl}
    (returned : waitLoop id waits control = some next) :
    RunsOn (Reports waits) control next := by
  induction waits generalizing control with
  | nil =>
      unfold waitLoop at returned
      split at returned
      · cases returned
        exact .refl _ _
      · split at returned
        · cases returned
        · cases returned
          exact .refl _ _
  | cons answer waits induction =>
      unfold waitLoop at returned
      split at returned
      · cases returned
        exact .refl _ _
      · split at returned
        · cases answer with
          | child pid status => exact (induction returned).child
          | nothing => exact (induction returned).later
          | interrupted => exact (induction returned).later
          | noChild =>
              cases returned
              exact .refl _ _
          | failed =>
              cases returned
              exact .refl _ _
        · cases returned
          exact .refl _ _

theorem drain_runsOn
    {waits : List WaitResult} {control next : JobControl}
    (returned : drain waits control = some next) :
    RunsOn (Reports waits) control next := by
  induction waits generalizing control with
  | nil => cases returned
  | cons answer waits induction =>
      cases answer with
      | child pid status => exact (induction returned).child
      | interrupted => exact (induction returned).later
      | nothing =>
          cases returned
          exact .refl _ _
      | noChild =>
          cases returned
          exact .refl _ _
      | failed =>
          cases returned
          exact .refl _ _

theorem collect_runsOn
    {answers : ReapAnswers} {control next : JobControl}
    (returned : collect answers control = some next) :
    RunsOn (Reports answers.waits) control next := by
  unfold collect at returned
  split at returned
  · exact drain_runsOn returned
  · cases returned
    exact .refl _ _

theorem saveModes_runsOn
    (answers : WaitAnswers) (id : Int) (session : Session) :
    RunsOn (Waits id answers.waits) session.control
      (saveModes answers id session).control := by
  unfold saveModes
  split
  · exact .refl _ _
  · split
    · exact .single (.keepModes id session.terminal.modes)
        ⟨rfl, nofun⟩ rfl
    · exact .refl _ _

/-- The actions of the report of `wait_foreground`. -/
def Settles (id : Int) (action : Action) : Prop :=
  action = .acknowledge id ∨ action = .erase id

theorem Settles.waits
    {id : Int} {action : Action} (settles : Settles id action)
    (results : List WaitResult) :
    Waits id results action := by
  rcases settles with rfl | rfl
  · exact ⟨rfl, nofun⟩
  · exact ⟨rfl, nofun⟩

theorem settleJob_runsOn (id : Int) (control : JobControl) :
    RunsOn (Settles id) control (settleJob id control) := by
  unfold settleJob
  split
  · exact .refl _ _
  · rename_i job found
    split
    · rename_i isStopped
      exact .single (.acknowledge id) (Or.inl rfl)
        (if_pos ⟨job, found, isStopped⟩)
    · split
      · rename_i isDone
        exact .single (.erase id) (Or.inr rfl)
          (if_pos ⟨job, found, isDone⟩)
      · exact .refl _ _

theorem reportWait_runsOn
    (id : Int) (results : List WaitResult) (session : Session) :
    RunsOn (Waits id results) session.control
      (reportWait id session).2.control := by
  unfold reportWait
  split
  · exact .refl _ _
  · have settled :=
      (settleJob_runsOn id session.control).mono
        fun settles => settles.waits results
    split
    · exact settled
    · exact settled

/-- A wait that returns has left its loop, with the modes of the job on the
terminal, and has reported what the loop left. -/
theorem awaitJob_eq_some
    {answers : WaitAnswers} {id status : Int} {session next : Session}
    (returned : awaitJob answers id session = some (status, next)) :
    ∃ waited : Session,
      waitLoop id answers.waits session.control = some waited.control ∧
        waited.terminal.modes = answers.jobModes ∧
        waited.output = session.output ∧
        reportWait id
            (reclaimTerminal answers (saveModes answers id waited)) =
          (status, next) := by
  rcases Option.map_eq_some_iff.mp returned with ⟨control, looped, reported⟩
  exact ⟨{ session with
      control := control
      terminal := { session.terminal with modes := answers.jobModes } },
    looped, rfl, rfl, reported⟩

theorem awaitJob_runsOn
    {answers : WaitAnswers} {id status : Int} {session next : Session}
    (returned : awaitJob answers id session = some (status, next)) :
    RunsOn (Waits id answers.waits) session.control next.control := by
  rcases awaitJob_eq_some returned with ⟨waited, looped, -, -, equal⟩
  have looping :=
    (waitLoop_runsOn looped).mono fun reports => reports.waits id
  have saving := saveModes_runsOn answers id waited
  have reported :=
    reportWait_runsOn id answers.waits
      (reclaimTerminal answers (saveModes answers id waited))
  rw [reclaimTerminal_control, equal] at reported
  exact (looping.trans saving).trans reported

/-- `wait_foreground` changes the table only for the job it waits for. -/
theorem waitForeground_runsOn
    {answers : WaitAnswers} {id status : Int} {continueJob : Bool}
    {session next : Session}
    (stopped : ContinuesStopped session id continueJob)
    (returned :
      waitForeground answers id continueJob session =
        some (status, next)) :
    RunsOn (Waits id answers.waits) session.control next.control := by
  unfold waitForeground at returned
  split at returned
  · cases returned
    exact .refl _ _
  · rename_i job found
    generalize (if job.hasTerminalModes then some job.terminalModes
      else none) = modes at returned
    cases continueJob with
    | false =>
        simp only [Bool.false_eq_true, if_false] at returned
        simpa using awaitJob_runsOn returned
    | true =>
        simp only [if_true, giveTerminalTo_control] at returned
        have resumed :
            RunsOn (Waits id answers.waits) session.control
              (session.control.modifyJob id Job.resume) :=
          .single (.resume id) ⟨rfl, nofun⟩ (if_pos (stopped rfl))
        split at returned
        · exact resumed.trans (awaitJob_runsOn returned)
        · cases returned
          simpa using resumed

theorem reapBackground_runsOn
    {answers : ReapAnswers} {session next : Session}
    (returned : reapBackground answers false session = some next) :
    RunsOn (Reports answers.waits) session.control next.control := by
  rcases Option.map_eq_some_iff.mp returned with ⟨control, collected, rfl⟩
  exact collect_runsOn collected

/-- A notifying reap ends with one clean-up. -/
theorem reapBackground_notify
    {answers : ReapAnswers} {session next : Session}
    (returned : reapBackground answers true session = some next) :
    ∃ control,
      RunsOn (Reports answers.waits) session.control control ∧
        next.control = control.cleanup ∧
        next.output = session.output ++ notices control.jobs := by
  rcases Option.map_eq_some_iff.mp returned with ⟨control, collected, rfl⟩
  exact ⟨control, collect_runsOn collected, rfl, rfl⟩

theorem resolveJob_mem
    {control : JobControl} {spec : ByteString} {job : Job}
    (resolved : control.resolveJob spec = some job) :
    job ∈ control.jobs := by
  unfold JobControl.resolveJob at resolved
  split at resolved
  · split at resolved
    · cases resolved
    · exact (findJob_mem resolved).1
  · exact List.mem_reverse.mp (List.mem_of_find?_eq_some resolved)

/-- The job that `fg` resolves a specification to after its reap. -/
def Resolves (reap : ReapAnswers) (spec : ByteString) (session : Session)
    (job : Job) : Prop :=
  ∃ control,
    collect reap session.control = some control ∧
      control.resolveJob spec = some job

/-- `fg` changes the table by its reap and for the job it resolves. -/
theorem foreground_runsOn
    {reap : ReapAnswers} {answers : WaitAnswers} {spec : ByteString}
    {outputFd errorFd status : Int} {session next : Session}
    (valid : TableValid session.control)
    (returned :
      foreground reap answers spec outputFd errorFd session =
        some (status, next)) :
    RunsOn (Reports reap.waits) session.control next.control ∨
      ∃ job,
        Resolves reap spec session job ∧
          RunsOn (Waits job.id (reap.waits ++ answers.waits))
            session.control next.control := by
  rcases Option.bind_eq_some_iff.mp returned with
    ⟨reaped, reapReturned, rest⟩
  have updates := reapBackground_runsOn reapReturned
  have reapedValid := updates.tableValid valid
  rcases Option.map_eq_some_iff.mp reapReturned with
    ⟨control, collected, rfl⟩
  split at rest
  · cases rest
    exact Or.inl updates
  · rename_i job resolved
    split at rest
    · cases rest
      exact Or.inl updates
    · refine Or.inr ⟨job, ⟨control, collected, resolved⟩, ?_⟩
      have reaps :=
        updates.mono fun reports =>
          (reports.waits job.id).mono
            (List.subset_append_left reap.waits answers.waits)
      apply reaps.trans
      rw [← Session.write_control _ outputFd (.foregrounded job.command)]
      apply RunsOn.mono (waitForeground_runsOn ?_ rest)
      · exact fun waits => waits.mono (List.subset_append_right _ _)
      · intro continues
        refine ⟨job, ?_, of_decide_eq_true continues⟩
        exact reapedValid.findJob (resolveJob_mem resolved)

theorem continueBackground_runsOn
    {reap : ReapAnswers} {killed : Bool} {spec : ByteString}
    {outputFd errorFd status : Int} {session next : Session}
    (valid : TableValid session.control)
    (returned :
      continueBackground reap killed spec outputFd errorFd session =
        some (status, next)) :
    RunsOn
      (fun action => Reports reap.waits action ∨ ∃ id, action = .resume id)
      session.control next.control := by
  rcases Option.bind_eq_some_iff.mp returned with
    ⟨reaped, reapReturned, rest⟩
  have updates := reapBackground_runsOn reapReturned
  have reapedValid := updates.tableValid valid
  apply (updates.mono Or.inl).trans
  split at rest
  · cases rest
    exact .refl _ _
  · rename_i job resolved
    split at rest
    · cases rest
      exact .refl _ _
    · split at rest
      · rename_i isStopped
        split at rest
        · cases rest
          refine .single (.resume job.id) (Or.inr ⟨_, rfl⟩) ?_
          apply if_pos
          refine ⟨job, ?_, isStopped⟩
          exact reapedValid.findJob (resolveJob_mem resolved)
        · cases rest
          exact .refl _ _
      · cases rest
        exact .refl _ _

/-- The results of `waitpid` in a call. -/
def results : Operation → List WaitResult
  | .addJob _ _ _ _ _ => []
  | .updateProcess pid status => [.child pid status]
  | .foreground reap answers _ _ _ => reap.waits ++ answers.waits
  | .continueBackground reap _ _ _ _ => reap.waits
  | .waitForeground answers _ _ => answers.waits
  | .reapBackground answers _ => answers.waits

/-- Every operation is a run of actions. -/
theorem perform_runsOn
    {session next : Session} {operation : Operation}
    (valid : TableValid session.control)
    (performed : perform session operation = some next) :
    RunsOn (Takes (results operation)) session.control next.control := by
  cases operation with
  | addJob pgid pids nonempty lastPid command =>
      cases performed
      exact .single (.add pgid pids nonempty lastPid command) nofun rfl
  | updateProcess pid status =>
      cases performed
      exact .single (.update pid status)
        (fun _ => ⟨pid, status, List.mem_cons_self, rfl⟩) rfl
  | foreground reap answers spec outputFd errorFd =>
      rcases Option.map_eq_some_iff.mp performed with
        ⟨⟨status, _⟩, returned, rfl⟩
      rcases foreground_runsOn valid returned with runs | ⟨job, -, runs⟩
      · exact runs.mono fun reports =>
          (reports.mono (List.subset_append_left _ _)).takes
      · exact runs.mono And.right
  | continueBackground reap killed spec outputFd errorFd =>
      rcases Option.map_eq_some_iff.mp performed with
        ⟨⟨status, _⟩, returned, rfl⟩
      apply (continueBackground_runsOn valid returned).mono
      rintro action (reports | ⟨id, rfl⟩)
      · exact reports.takes
      · exact nofun
  | waitForeground answers id continueJob =>
      simp only [perform, Option.ite_none_right_eq_some] at performed
      rcases performed with ⟨stopped, mapped⟩
      rcases Option.map_eq_some_iff.mp mapped with
        ⟨⟨status, _⟩, returned, rfl⟩
      exact (waitForeground_runsOn stopped returned).mono And.right
  | reapBackground answers notify =>
      cases notify with
      | false => exact (reapBackground_runsOn performed).mono Reports.takes
      | true =>
          rcases reapBackground_notify performed with
            ⟨control, updates, cleaned, -⟩
          apply (updates.mono Reports.takes).trans
          rw [cleaned]
          exact .single .cleanup nofun rfl

/-! ## The invariant in every reachable session -/

theorem perform_tableValid
    {session next : Session} {operation : Operation}
    (valid : TableValid session.control)
    (performed : perform session operation = some next) :
    TableValid next.control :=
  (perform_runsOn valid performed).tableValid valid

theorem reachable_tableValid
    {session : Session} (reachable : jobSystem.Reachable session) :
    TableValid session.control := by
  apply reachable.invariant (fun session => TableValid session.control)
  · intro start fresh
    exact tableValid_initial ⟨fresh.1, fresh.2.1⟩
  · intro state operation next valid performed
    exact perform_tableValid valid performed

/-! ## Properties of single jobs -/

/-- What holds of a new job and stays true whatever happens to the job, if
the statuses it is updated with are as expected. -/
structure JobStable (expected : WaitStatus → Prop) (property : Job → Prop) :
    Prop where
  added :
    ∀ (id pgid : Int) (pids : List Int) (lastPid : Int)
      (command : ByteString),
      property
        { id := id
          pgid := pgid
          processes := pids.map fun pid => ⟨pid, .running, 0⟩
          lastPid := lastPid
          command := command }
  updated :
    ∀ {job : Job} (pid : Int) {status : WaitStatus}, expected status →
      property job → property (job.updated pid status)
  resumed : ∀ {job : Job}, property job → property job.resume
  acknowledged :
    ∀ {job : Job}, property job →
      property { job with stateChanged := false }
  keepsModes :
    ∀ {job : Job} (modes : Termios), property job →
      property
        { job with terminalModes := modes, hasTerminalModes := true }

theorem forall_modifyJob
    (property : Job → Prop) {control : JobControl} {id : Int}
    {change : Job → Job}
    (changed : ∀ {job}, property job → property (change job))
    (holds : ∀ job ∈ control.jobs, property job) :
    ∀ job ∈ (control.modifyJob id change).jobs, property job := by
  intro job member
  rcases JobControl.mem_modifyJob member with
    old | ⟨source, isMember, -, rfl⟩
  · exact holds job old
  · exact changed (holds source isMember)

section JobStable

variable {expected : WaitStatus → Prop} {property : Job → Prop}

theorem JobStable.act
    (stable : JobStable expected property)
    {control next : JobControl} {action : Action}
    (holds : ∀ job ∈ control.jobs, property job)
    (asExpected :
      ∀ pid status, action = .update pid status → expected status)
    (acted : act control action = some next) :
    ∀ job ∈ next.jobs, property job := by
  intro job member
  cases acts_of_act acted with
  | add =>
      rcases List.mem_append.mp member with old | new
      · exact holds job old
      · rw [List.mem_singleton.mp new]
        exact stable.added _ _ _ _ _
  | update =>
      rename_i pid status
      rcases JobControl.mem_updateProcess member with
        old | ⟨source, isMember, rfl⟩
      · exact holds job old
      · exact stable.updated pid (asExpected pid status rfl)
          (holds source isMember)
  | resume _ => exact forall_modifyJob property stable.resumed holds job member
  | keepModes =>
      exact forall_modifyJob property (stable.keepsModes _) holds job member
  | acknowledge _ =>
      exact forall_modifyJob property stable.acknowledged holds job member
  | erase _ => exact holds job (List.mem_of_mem_filter member)
  | cleanup =>
      rcases List.mem_map.mp (List.mem_of_mem_filter member) with
        ⟨source, isMember, rfl⟩
      split
      · exact stable.acknowledged (holds source isMember)
      · exact holds source isMember

theorem JobStable.runsOn
    (stable : JobStable expected property) {results : List WaitResult}
    (asExpected :
      ∀ pid status, .child pid status ∈ results → expected status)
    {control next : JobControl}
    (holds : ∀ job ∈ control.jobs, property job)
    (runs : RunsOn (Takes results) control next) :
    ∀ job ∈ next.jobs, property job := by
  rcases runs with ⟨actions, all, ran⟩
  refine System.run_preserves_allowed
    (fun control => ∀ job ∈ control.jobs, property job) (Takes results)
    ?_ holds all ran
  intro control action next holds takes acted
  refine stable.act holds ?_ acted
  rintro pid status rfl
  rcases takes ⟨pid, status, rfl⟩ with ⟨_, _, member, equal⟩
  cases equal
  exact asExpected pid status member

/-- A stable property holds of every job after a run of operations in which
`waitpid` reports the expected statuses. -/
theorem JobStable.run
    (stable : JobStable expected property)
    {start session : Session} {operations : List Operation}
    (fresh : Fresh start)
    (asExpected :
      ∀ operation ∈ operations, ∀ pid status,
        .child pid status ∈ results operation → expected status)
    (ran : jobSystem.run start operations = some session) :
    ∀ job ∈ session.control.jobs, property job := by
  refine (System.run_preserves_allowed
    (fun session =>
      TableValid session.control ∧
        ∀ job ∈ session.control.jobs, property job)
    (fun operation =>
      ∀ pid status, .child pid status ∈ results operation → expected status)
    ?_ ?_ asExpected ran).2
  · rintro session operation next ⟨valid, holds⟩ asExpected performed
    exact ⟨perform_tableValid valid performed,
      stable.runsOn asExpected holds (perform_runsOn valid performed)⟩
  · refine ⟨tableValid_initial ⟨fresh.1, fresh.2.1⟩, ?_⟩
    rw [fresh.2.1]
    exact nofun

end JobStable

/-! ## Retired ids -/

/-- An id that has been given away and is not in the table. -/
def Retired (id : Int) (control : JobControl) : Prop :=
  id < control.nextJobId ∧ id ∉ ids control

theorem act_retired
    {id : Int} {control next : JobControl} {action : Action}
    (retired : Retired id control)
    (acted : act control action = some next) :
    Retired id next := by
  rcases retired with ⟨given, absent⟩
  rcases act_ids acted with ⟨advanced, extended⟩ | ⟨sameNext, subset⟩
  · constructor
    · rw [advanced]
      exact Int.lt_add_one_of_le (Int.le_of_lt given)
    · rw [extended, List.mem_append, List.mem_singleton]
      rintro (old | new)
      · exact absent old
      · exact (Int.ne_of_lt given) new
  · constructor
    · rw [sameNext]
      exact given
    · intro present
      exact absent (subset.subset present)

theorem RunsOn.retired
    {allowed : Action → Prop} {control next : JobControl}
    (runs : RunsOn allowed control next) {id : Int}
    (retired : Retired id control) :
    Retired id next := by
  rcases runs with ⟨actions, -, ran⟩
  exact System.run_preserves (Retired id) act_retired retired ran

/-- An id that has left the table never comes back. -/
theorem run_retired
    {session later : Session} {operations : List Operation}
    (valid : TableValid session.control)
    (ran : jobSystem.run session operations = some later)
    {id : Int} (retired : Retired id session.control) :
    Retired id later.control := by
  refine (System.run_preserves
    (fun session =>
      TableValid session.control ∧ Retired id session.control)
    ?_ ⟨valid, retired⟩ ran).2
  rintro state operation next ⟨isValid, isRetired⟩ performed
  have runs := perform_runsOn isValid performed
  exact ⟨runs.tableValid isValid, runs.retired isRetired⟩

/-- What holds of the job table between any two operations. -/
structure Consistent (session : Session) : Prop where
  increasing : (session.control.jobs.map Job.id).Pairwise (· < ·)
  below : ∀ job ∈ session.control.jobs, job.id < session.control.nextJobId
  neverReused :
    ∀ operations later, jobSystem.run session operations = some later →
      ∀ id < session.control.nextJobId,
        id ∉ session.control.jobs.map Job.id →
          id ∉ later.control.jobs.map Job.id
  aggregates : ∀ job ∈ session.control.jobs, Aggregates job

/--
Between any two operations ids increase along the table and stay below the
next one, an id that has left never comes back, and the state of every job is
the aggregate of its records.
-/
theorem jobTable_consistent
    (session : Session) (reachable : jobSystem.Reachable session) :
    Consistent session := by
  have valid := reachable_tableValid reachable
  constructor
  · exact valid.increasing
  · exact valid.below
  · intro operations later ran id given absent
    exact (run_retired valid ran ⟨given, absent⟩).2
  · intro job member
    exact (valid.jobs job member).aggregates

/-- A job of two processes, one of which exits while the other stops. -/
def sampleOperations : List Operation :=
  [.addJob 10 [10, 11] (by decide) 11 (literal "sleep 9 | cat"),
    .updateProcess 10 0x0000#32,
    .updateProcess 11 0x147f#32,
    .foreground ⟨false, []⟩ { waits := [], killed := false } [] 1 2,
    .waitForeground { waits := [.interrupted, .child 11 0x147f#32] } 1 false]

def sampleStart : Session :=
  ⟨{}, ⟨1, {}⟩, [], []⟩

theorem jobTable_consistent_sample :
    ∃ session,
      jobSystem.run sampleStart sampleOperations = some session ∧
        session.control.jobs.map Job.state = [.stopped] ∧
        Consistent session := by
  have states :
      (jobSystem.run sampleStart sampleOperations).map
          (fun session => session.control.jobs.map Job.state) =
        some [.stopped] := by
    decide +kernel
  rcases Option.map_eq_some_iff.mp states with ⟨session, ran, isStopped⟩
  exact ⟨session, ran, isStopped,
    jobTable_consistent session
      ⟨sampleStart, sampleOperations, ⟨rfl, rfl, rfl⟩, ran⟩⟩

end Shell.TableInvariant
