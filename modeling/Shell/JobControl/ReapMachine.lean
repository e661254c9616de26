import Shell.JobControl.TableInvariant

/-!
# The shell and the kernel, step by step

The kernel holds the unreaped children of the shell, each with the change of
state it has not reported yet.  Every change raises `SIGCHLD`; the handler,
which may run between any two steps of the shell, sets `sigchld_pending`.  The
shell is a program counter over the steps of `reap_background` and
`wait_foreground`; launching a pipeline is one step, because nothing waits for
a child before `add_job`.  The kernel may give a new child every pid that no
unreaped child has and that is the process group of none.
-/

namespace Shell.ReapMachine

open Shell.Syntax
open Shell.TransitionSystem
open Shell.JobTable
open Shell.JobOperations
open Shell.TableInvariant

/-! ## States -/

/-- An unreaped child and the job that launched it; a child of a launch that
was given up belongs to no job. -/
structure Child where
  pid : Int
  pgid : Int
  launcher : Option Int
  change : Option WaitStatus
deriving DecidableEq, Repr

/-- The function whose loop calls `waitpid`. -/
inductive Caller where
  | reap (notify : Bool)
  | wait (id : Int)
deriving DecidableEq, Repr

/-- Where the shell is. -/
inductive Phase where
  | idle
  | testing (notify : Bool)
  | clearing (notify : Bool)
  | waiting (caller : Caller)
  | recording (caller : Caller) (child : Child) (status : WaitStatus)
  | notifying (notify : Bool)
  | reporting (id : Int)
deriving DecidableEq, Repr

structure Machine where
  control : JobControl
  children : List Child
  flag : Bool
  raised : Bool
  phase : Phase
deriving DecidableEq, Repr

/-- The steps of the shell, of the handler and of the children. -/
inductive Label where
  | launch (pids : List Int) (command : ByteString)
  | abandon (pids : List Int)
  | change (pid : Int) (status : WaitStatus)
  | handle
  | beginReap (notify : Bool)
  | testFlag (value : Bool)
  | clearFlag
  | waitChild (pid : Int) (status : WaitStatus)
  | waitInterrupted
  | waitEnds
  | record (pid : Int) (status : WaitStatus)
  | notify
  | beginWait (id : Int) (continueJob : Bool)
  | resume (id : Int)
  | report
deriving DecidableEq, Repr

/-! ## The kernel -/

/-- Pids that the kernel may give to new children. -/
def Available (children : List Child) (pids : List Int) : Prop :=
  pids.Nodup ∧
    ∀ pid ∈ pids,
      FreePid (children.map Child.pid) (children.map Child.pgid) pid

instance (children : List Child) (pids : List Int) :
    Decidable (Available children pids) :=
  inferInstanceAs (Decidable (_ ∧ _))

/-- A change that the kernel reports with this status may happen now. -/
def MayChange (child : Child) (status : WaitStatus) : Prop :=
  child.change.any WaitStatus.terminates = false ∧
    (status.terminates = true ∨ status.ifStopped = true ∨
      status.ifContinued = true)

instance (child : Child) (status : WaitStatus) :
    Decidable (MayChange child status) :=
  inferInstanceAs (Decidable (_ ∧ _))

/-- The children after the one with the pid has changed its state. -/
def markChange (pid : Int) (status : WaitStatus) (children : List Child) :
    List Child :=
  children.map fun child =>
    if child.pid = pid then { child with change := some status } else child

/-- The children after `waitpid` has returned the one with the pid. -/
def consume (pid : Int) (status : WaitStatus) (children : List Child) :
    List Child :=
  if status.terminates then
    children.filter fun child => child.pid ≠ pid
  else
    children.map fun child =>
      if child.pid = pid then { child with change := none } else child

/-- The child is one that the caller waits for. -/
def Selects (control : JobControl) (child : Child) : Caller → Prop
  | .reap _ => True
  | .wait id =>
      ∃ job ∈ control.findJob id,
        job.state = .running ∧ child.pgid = job.pgid

instance (control : JobControl) (child : Child) (caller : Caller) :
    Decidable (Selects control child caller) :=
  match caller with
  | .reap _ => inferInstanceAs (Decidable True)
  | .wait id =>
      inferInstanceAs
        (Decidable
          (∃ job ∈ control.findJob id,
            job.state = .running ∧ child.pgid = job.pgid))

/-- The loop ends: no child has a change to report, or the job is no longer
running or has no child left. -/
def Ends (control : JobControl) (children : List Child) : Caller → Prop
  | .reap _ => ∀ child ∈ children, child.change = none
  | .wait id =>
      ∀ job ∈ control.findJob id, job.state = .running →
        ∀ child ∈ children, child.pgid ≠ job.pgid

instance (control : JobControl) (children : List Child) (caller : Caller) :
    Decidable (Ends control children caller) :=
  match caller with
  | .reap _ =>
      inferInstanceAs (Decidable (∀ child ∈ children, child.change = none))
  | .wait id =>
      inferInstanceAs
        (Decidable
          (∀ job ∈ control.findJob id, job.state = .running →
            ∀ child ∈ children, child.pgid ≠ job.pgid))

/-- What follows the loop that calls `waitpid`. -/
def Caller.next : Caller → Phase
  | .reap notify => .notifying notify
  | .wait id => .reporting id

/-! ## Steps -/

/-- One step. -/
def machineStep (machine : Machine) (label : Label) : Option Machine :=
  match label, machine.phase with
  | .launch (first :: others) command, .idle =>
      if Available machine.children (first :: others) then
        let added :=
          machine.control.addJob first (first :: others)
            ((first :: others).getLast (by simp)) command
        some
          { machine with
            control := added.2
            children :=
              machine.children ++
                (first :: others).map fun pid =>
                  ⟨pid, first, some added.1, none⟩ }
      else
        none
  | .abandon (first :: others), .idle =>
      if Available machine.children (first :: others) then
        some
          { machine with
            children :=
              machine.children ++
                (first :: others).map fun pid =>
                  ⟨pid, first, none, none⟩ }
      else
        none
  | .change pid status, _ =>
      if ∃ child ∈ machine.children,
          child.pid = pid ∧ MayChange child status then
        some
          { machine with
            children := markChange pid status machine.children
            raised := true }
      else
        none
  | .handle, _ =>
      if machine.raised then
        some { machine with raised := false, flag := true }
      else
        none
  | .beginReap notify, .idle => some { machine with phase := .testing notify }
  | .testFlag value, .testing notify =>
      if machine.flag = value then
        some
          { machine with
            phase := if value then .clearing notify else .notifying notify }
      else
        none
  | .clearFlag, .clearing notify =>
      some { machine with flag := false, phase := .waiting (.reap notify) }
  | .waitChild pid status, .waiting caller =>
      match machine.children.find? fun child =>
          child.pid = pid ∧ child.change = some status with
      | none => none
      | some child =>
          if Selects machine.control child caller then
            some
              { machine with
                children := consume pid status machine.children
                phase := .recording caller child status }
          else
            none
  | .waitInterrupted, .waiting _ => some machine
  | .waitEnds, .waiting caller =>
      if Ends machine.control machine.children caller then
        some { machine with phase := caller.next }
      else
        none
  | .record pid status, .recording caller child changed =>
      if child.pid = pid ∧ changed = status then
        some
          { machine with
            control := machine.control.updateProcess pid status
            phase := .waiting caller }
      else
        none
  | .notify, .notifying notify =>
      some
        { machine with
          control :=
            if notify then machine.control.cleanup else machine.control
          phase := .idle }
  | .beginWait id continueJob, .idle =>
      if continueJob then
        (act machine.control (.resume id)).map fun control =>
          { machine with control := control, phase := .waiting (.wait id) }
      else if (machine.control.findJob id).isSome then
        some { machine with phase := .waiting (.wait id) }
      else
        none
  | .resume id, .idle =>
      (act machine.control (.resume id)).map fun control =>
        { machine with control := control }
  | .report, .reporting id =>
      some
        { machine with
          control := settleJob id machine.control
          phase := .idle }
  | _, _ => none

/-- Everything a step can do. -/
inductive Step (machine : Machine) : Label → Machine → Prop where
  | launch {first : Int} {others : List Int} (command : ByteString)
      (isIdle : machine.phase = .idle)
      (available : Available machine.children (first :: others)) :
      Step machine (.launch (first :: others) command)
        { machine with
          control :=
            (machine.control.addJob first (first :: others)
              ((first :: others).getLast (by simp)) command).2
          children :=
            machine.children ++
              (first :: others).map fun pid =>
                ⟨pid, first, some machine.control.nextJobId, none⟩ }
  | abandon {first : Int} {others : List Int}
      (isIdle : machine.phase = .idle)
      (available : Available machine.children (first :: others)) :
      Step machine (.abandon (first :: others))
        { machine with
          children :=
            machine.children ++
              (first :: others).map fun pid => ⟨pid, first, none, none⟩ }
  | change (pid : Int) (status : WaitStatus)
      (allowed : ∃ child ∈ machine.children,
        child.pid = pid ∧ MayChange child status) :
      Step machine (.change pid status)
        { machine with
          children := markChange pid status machine.children
          raised := true }
  | handle (isRaised : machine.raised = true) :
      Step machine .handle { machine with raised := false, flag := true }
  | beginReap (notify : Bool) (isIdle : machine.phase = .idle) :
      Step machine (.beginReap notify)
        { machine with phase := .testing notify }
  | testFlag {notify : Bool} (isTesting : machine.phase = .testing notify) :
      Step machine (.testFlag machine.flag)
        { machine with
          phase :=
            if machine.flag then .clearing notify else .notifying notify }
  | clearFlag {notify : Bool}
      (isClearing : machine.phase = .clearing notify) :
      Step machine .clearFlag
        { machine with flag := false, phase := .waiting (.reap notify) }
  | waitChild {caller : Caller} {child : Child} {status : WaitStatus}
      (isWaiting : machine.phase = .waiting caller)
      (member : child ∈ machine.children)
      (changed : child.change = some status)
      (selected : Selects machine.control child caller) :
      Step machine (.waitChild child.pid status)
        { machine with
          children := consume child.pid status machine.children
          phase := .recording caller child status }
  | waitInterrupted {caller : Caller}
      (isWaiting : machine.phase = .waiting caller) :
      Step machine .waitInterrupted machine
  | waitEnds {caller : Caller} (isWaiting : machine.phase = .waiting caller)
      (ends : Ends machine.control machine.children caller) :
      Step machine .waitEnds { machine with phase := caller.next }
  | record {caller : Caller} {child : Child} {status : WaitStatus}
      (isRecording : machine.phase = .recording caller child status) :
      Step machine (.record child.pid status)
        { machine with
          control := machine.control.updateProcess child.pid status
          phase := .waiting caller }
  | notify {notify : Bool} (isNotifying : machine.phase = .notifying notify) :
      Step machine .notify
        { machine with
          control :=
            if notify then machine.control.cleanup else machine.control
          phase := .idle }
  | continueWait {id : Int} {control : JobControl}
      (isIdle : machine.phase = .idle)
      (resumed : act machine.control (.resume id) = some control) :
      Step machine (.beginWait id true)
        { machine with control := control, phase := .waiting (.wait id) }
  | beginWait {id : Int} (isIdle : machine.phase = .idle)
      (present : (machine.control.findJob id).isSome = true) :
      Step machine (.beginWait id false)
        { machine with phase := .waiting (.wait id) }
  | resume {id : Int} {control : JobControl}
      (isIdle : machine.phase = .idle)
      (resumed : act machine.control (.resume id) = some control) :
      Step machine (.resume id) { machine with control := control }
  | report {id : Int} (isReporting : machine.phase = .reporting id) :
      Step machine .report
        { machine with
          control := settleJob id machine.control
          phase := .idle }

theorem step_of_machineStep
    {machine next : Machine} {label : Label}
    (stepped : machineStep machine label = some next) :
    Step machine label next := by
  unfold machineStep at stepped
  split at stepped
  · split at stepped
    · cases stepped
      exact .launch _ ‹_› ‹_›
    · cases stepped
  · split at stepped
    · cases stepped
      exact .abandon ‹_› ‹_›
    · cases stepped
  · split at stepped
    · cases stepped
      exact .change _ _ ‹_›
    · cases stepped
  · split at stepped
    · cases stepped
      exact .handle ‹_›
    · cases stepped
  · cases stepped
    exact .beginReap _ ‹_›
  · split at stepped
    · rename_i read
      subst read
      cases stepped
      exact .testFlag ‹_›
    · cases stepped
  · cases stepped
    exact .clearFlag ‹_›
  · split at stepped
    · cases stepped
    · rename_i child found
      have matched := List.find?_some found
      simp only [decide_eq_true_eq] at matched
      rcases matched with ⟨rfl, changed⟩
      split at stepped
      · cases stepped
        exact .waitChild ‹_› (List.mem_of_find?_eq_some found) changed ‹_›
      · cases stepped
  · cases stepped
    exact .waitInterrupted ‹_›
  · split at stepped
    · cases stepped
      exact .waitEnds ‹_› ‹_›
    · cases stepped
  · split at stepped
    · rename_i same
      rcases same with ⟨rfl, rfl⟩
      cases stepped
      exact .record ‹_›
    · cases stepped
  · cases stepped
    exact .notify ‹_›
  · split at stepped
    · rename_i continues
      subst continues
      rcases Option.map_eq_some_iff.mp stepped with ⟨control, resumed, rfl⟩
      exact .continueWait ‹_› resumed
    · rename_i stays
      rw [Bool.not_eq_true] at stays
      subst stays
      split at stepped
      · cases stepped
        exact .beginWait ‹_› ‹_›
      · cases stepped
  · rcases Option.map_eq_some_iff.mp stepped with ⟨control, resumed, rfl⟩
    exact .resume ‹_› resumed
  · cases stepped
    exact .report ‹_›
  · cases stepped

/-- A shell without jobs and children. -/
def Started (machine : Machine) : Prop :=
  machine.control.nextJobId = 1 ∧ machine.control.jobs = [] ∧
    machine.children = [] ∧ machine.phase = .idle

/-- The shell and the kernel as a system. -/
def machineSystem : System Machine Label where
  initial := Started
  step := machineStep

def startMachine : Machine :=
  ⟨{}, [], false, false, .idle⟩

/-! ## The steps of a call make up the function -/

/-- Inside a call of `reap_background`. -/
def InReap (machine : Machine) : Prop :=
  match machine.phase with
  | .testing _ => True
  | .clearing _ => True
  | .waiting (.reap _) => True
  | .recording (.reap _) _ _ => True
  | .notifying _ => True
  | _ => False

/-- Inside the loop of `wait_foreground`. -/
def InWait (machine : Machine) : Prop :=
  match machine.phase with
  | .waiting (.wait _) => True
  | .recording (.wait _) _ _ => True
  | _ => False

/-- What a step lets `waitpid` return; the last result ends the loop. -/
def Label.answer (last : WaitResult) : Label → Option WaitResult
  | .waitChild pid status => some (.child pid status)
  | .waitInterrupted => some .interrupted
  | .waitEnds => some last
  | _ => none

/-- The results of `waitpid` along a run. -/
def answers (last : WaitResult) (labels : List Label) : List WaitResult :=
  labels.filterMap (Label.answer last)

/-- The table when a reap has returned. -/
def finishReap (notify : Bool) (control : JobControl) : JobControl :=
  if notify then control.cleanup else control

/-- What the rest of a call of `reap_background` computes. -/
def ReapsTo (waits : List WaitResult) (result : JobControl)
    (machine : Machine) : Prop :=
  match machine.phase with
  | .testing notify =>
      ∃ pending,
        (collect ⟨pending, waits⟩ machine.control).map (finishReap notify) =
          some result
  | .clearing notify =>
      (drain waits machine.control).map (finishReap notify) = some result
  | .waiting (.reap notify) =>
      (drain waits machine.control).map (finishReap notify) = some result
  | .recording (.reap notify) child status =>
      (drain waits (machine.control.updateProcess child.pid status)).map
          (finishReap notify) =
        some result
  | .notifying notify => finishReap notify machine.control = result
  | .idle => machine.control = result
  | _ => False

theorem runsWithin_reapsTo
    {start finish : Machine} {labels : List Label}
    (call : machineSystem.RunsWithin InReap start labels finish)
    (returned : finish.phase = .idle) :
    ReapsTo (answers .nothing labels) finish.control start := by
  induction call with
  | nil state => simp [ReapsTo, returned]
  | @cons state next finish label labels inside stepped later induction =>
      have rest := induction returned
      cases step_of_machineStep stepped with
      | launch _ isIdle _ => simp [InReap, isIdle] at inside
      | abandon isIdle _ => simp [InReap, isIdle] at inside
      | beginReap _ isIdle => simp [InReap, isIdle] at inside
      | continueWait isIdle _ => simp [InReap, isIdle] at inside
      | beginWait isIdle _ => simp [InReap, isIdle] at inside
      | resume isIdle _ => simp [InReap, isIdle] at inside
      | report isReporting => simp [InReap, isReporting] at inside
      | change _ _ _ => exact rest
      | handle _ => exact rest
      | testFlag isTesting =>
          simp only [ReapsTo, isTesting]
          cases read : state.flag with
          | false =>
              refine ⟨false, ?_⟩
              simpa [ReapsTo, read, collect] using rest
          | true =>
              refine ⟨true, ?_⟩
              simp only [ReapsTo, read, if_true] at rest
              exact rest
      | clearFlag isClearing =>
          simp only [ReapsTo, isClearing]
          exact rest
      | @waitChild caller child status isWaiting _ _ _ =>
          cases caller with
          | wait id => simp [InReap, isWaiting] at inside
          | reap notify =>
              simp only [ReapsTo, isWaiting]
              exact rest
      | @waitInterrupted caller isWaiting =>
          cases caller with
          | wait id => simp [InReap, isWaiting] at inside
          | reap notify =>
              simp only [ReapsTo, isWaiting] at rest ⊢
              exact rest
      | @waitEnds caller isWaiting _ =>
          cases caller with
          | wait id => simp [InReap, isWaiting] at inside
          | reap notify =>
              simp only [ReapsTo, isWaiting]
              exact congrArg some rest
      | @record caller child status isRecording =>
          cases caller with
          | wait id => simp [InReap, isRecording] at inside
          | reap notify =>
              simp only [ReapsTo, isRecording]
              exact rest
      | notify isNotifying =>
          simp only [ReapsTo, isNotifying]
          exact rest

/-- A call of `reap_background`, taken step by step, is the function. -/
theorem reap_simulates
    {start finish : Machine} {labels : List Label} {notify : Bool}
    (call : machineSystem.RunsWithin InReap start labels finish)
    (begun : start.phase = .testing notify)
    (returned : finish.phase = .idle)
    (session : Session) (same : session.control = start.control) :
    ∃ pending,
      (reapBackground ⟨pending, answers .nothing labels⟩ notify session).map
          Session.control =
        some finish.control := by
  have reaps := runsWithin_reapsTo call returned
  simp only [ReapsTo, begun] at reaps
  rcases reaps with ⟨pending, collected⟩
  refine ⟨pending, ?_⟩
  rw [reapBackground, same, Option.map_map, ← collected]
  congr 1
  funext control
  cases notify <;> rfl

/-- What the rest of the loop of `wait_foreground` computes. -/
def WaitsTo (waits : List WaitResult) (result : JobControl)
    (machine : Machine) : Prop :=
  match machine.phase with
  | .waiting (.wait id) => waitLoop id waits machine.control = some result
  | .recording (.wait id) child status =>
      waitLoop id waits (machine.control.updateProcess child.pid status) =
        some result
  | .reporting _ => machine.control = result
  | _ => False

theorem waitLoop_running
    {control : JobControl} {id : Int} {job : Job}
    (found : control.findJob id = some job)
    (isRunning : job.state = .running)
    (answer : WaitResult) (later : List WaitResult) :
    waitLoop id (answer :: later) control =
      match answer with
      | .child pid status =>
          waitLoop id later (control.updateProcess pid status)
      | .interrupted => waitLoop id later control
      | .nothing => waitLoop id later control
      | .noChild => some control
      | .failed => some control := by
  rw [waitLoop.eq_def]
  simp only [found, isRunning, if_true]
  cases answer <;> rfl

/-- A loop over a job that does not run ends at once. -/
theorem waitLoop_notRunning
    {control : JobControl} {id : Int}
    (notRunning : ∀ job ∈ control.findJob id, job.state ≠ .running)
    (waits : List WaitResult) :
    waitLoop id waits control = some control := by
  unfold waitLoop
  split
  · rfl
  · rename_i job found
    rw [if_neg (notRunning job found)]

/-- The loop of `wait_foreground`, taken step by step, is the function. -/
theorem wait_simulates
    {start finish : Machine} {labels : List Label} {id : Int}
    (call : machineSystem.RunsWithin InWait start labels finish)
    (returned : finish.phase = .reporting id) :
    WaitsTo (answers .noChild labels) finish.control start := by
  induction call with
  | nil state => simp [WaitsTo, returned]
  | @cons state next finish label labels inside stepped later induction =>
      have rest := induction returned
      cases step_of_machineStep stepped with
      | launch _ isIdle _ => simp [InWait, isIdle] at inside
      | abandon isIdle _ => simp [InWait, isIdle] at inside
      | beginReap _ isIdle => simp [InWait, isIdle] at inside
      | continueWait isIdle _ => simp [InWait, isIdle] at inside
      | beginWait isIdle _ => simp [InWait, isIdle] at inside
      | resume isIdle _ => simp [InWait, isIdle] at inside
      | report isReporting => simp [InWait, isReporting] at inside
      | testFlag isTesting => simp [InWait, isTesting] at inside
      | clearFlag isClearing => simp [InWait, isClearing] at inside
      | notify isNotifying => simp [InWait, isNotifying] at inside
      | change _ _ _ => exact rest
      | handle _ => exact rest
      | @waitChild caller child status isWaiting _ _ selected =>
          cases caller with
          | reap notify => simp [InWait, isWaiting] at inside
          | wait other =>
              rcases selected with ⟨job, found, isRunning, -⟩
              simp only [WaitsTo, isWaiting]
              exact (waitLoop_running found isRunning _ _).trans rest
      | @waitInterrupted caller isWaiting =>
          cases caller with
          | reap notify => simp [InWait, isWaiting] at inside
          | wait other =>
              simp only [WaitsTo, isWaiting] at rest ⊢
              by_cases running :
                  ∃ job ∈ state.control.findJob other,
                    job.state = .running
              · rcases running with ⟨job, found, isRunning⟩
                exact (waitLoop_running found isRunning _ _).trans rest
              · have notRunning :
                    ∀ job ∈ state.control.findJob other,
                      job.state ≠ .running :=
                  fun job found isRunning => running ⟨job, found, isRunning⟩
                rw [waitLoop_notRunning notRunning] at rest ⊢
                exact rest
      | @waitEnds caller isWaiting _ =>
          cases caller with
          | reap notify => simp [InWait, isWaiting] at inside
          | wait other =>
              simp only [WaitsTo, Caller.next] at rest
              simp only [WaitsTo, isWaiting, ← rest]
              by_cases running :
                  ∃ job ∈ state.control.findJob other,
                    job.state = .running
              · rcases running with ⟨job, found, isRunning⟩
                exact waitLoop_running found isRunning .noChild _
              · exact waitLoop_notRunning
                  (fun job found isRunning =>
                    running ⟨job, found, isRunning⟩) _
      | @record caller child status isRecording =>
          cases caller with
          | reap notify => simp [InWait, isRecording] at inside
          | wait other =>
              simp only [WaitsTo, isRecording]
              exact rest

end Shell.ReapMachine
