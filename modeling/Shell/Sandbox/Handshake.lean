import Shell.Library.TransitionSystem
import Shell.Sandbox.ControlFiles

/-!
# The start-up handshake of the sandbox

`execute_sandbox_child` behind the parsing of its command, as a supervisor and
a worker that take their steps in any order.  They share the sync pipe: the
supervisor writes a token into it when the worker is in its cgroup, and the
worker does not go on before it has read the token.  A read from an empty pipe
waits as long as some process has the write end open.  The supervisor may die
at any time, and calls may be interrupted or fail.
-/

namespace Shell.Handshake

open Shell.Syntax
open Shell.JobTable
open Shell.JobOperations
open Shell.TransitionSystem
open Shell.SandboxOptions
open Shell.ControlFiles

/-! ## Processes -/

/-- The status of a process that has called `_exit(1)`. -/
def exitedWithOne : WaitStatus := 0x100#32

/-- The status of a process that `SIGKILL` has ended. -/
def endedBySigkill : WaitStatus := 0x9#32

/-- The next thing the supervisor does. -/
inductive SupervisorPhase where
  | creating
  | piping
  | forking
  | closingRead (worker : Int)
  | attaching (worker : Int)
  | killingUnattached
  | closingUnattached
  | waitingUnattached
  | sending
  | killingUnsent
  | closing
  | waiting
  | returned (status : Int)
deriving DecidableEq, Repr

/-- The next thing the worker does. -/
inductive WorkerPhase where
  | unborn
  | started
  | noted (supervisor : Int)
  | armed (supervisor : Int)
  | closingWrite
  | reading
  | closingRead (count : Int)
  | inside
  | ended (status : WaitStatus)
deriving DecidableEq, Repr

/-- Supervisor, worker and pipe. -/
structure Machine where
  host : Host
  config : SandboxConfig
  scope : CgroupScope := {}
  supervisor : SupervisorPhase := .creating
  worker : WorkerPhase := .unborn
  alive : Bool := true
  supervisorRead : Bool := false
  supervisorWrite : Bool := false
  workerRead : Bool := false
  workerWrite : Bool := false
  tokens : Nat := 0
  /-- `SIGKILL` is on its way to the worker. -/
  killed : Bool := false
  /-- The worker is to be killed when its parent dies. -/
  deathSignal : Bool := false
  /-- What `attach` has returned. -/
  attached : Option Bool := none
  /-- The token has been written. -/
  sent : Bool := false
  /-- The worker has entered `run_inside_namespaces`. -/
  entered : Bool := false
  errors : List ByteString := []

/-- An answer of `waitpid` for the worker. -/
inductive WaitAnswer where
  | interrupted
  | failed (reason : ByteString)
  | reaped
deriving DecidableEq, Repr

/-- An answer of `read`: an error, or what the pipe has to offer. -/
inductive ReadAnswer where
  | interrupted
  | failed
  | delivered
deriving DecidableEq, Repr

inductive Label where
  | create
  | pipe (error : Option ByteString)
  | fork (result : Except ByteString Int)
  | resetRead
  | attach
  | kill
  | resetWrite
  | send (succeeds : Bool)
  | wait (answer : WaitAnswer)
  | die
  | noteParent
  | prctl (succeeds : Bool)
  | checkParent
  | workerResetWrite
  | read (answer : ReadAnswer)
  | workerResetRead
  | finish (status : WaitStatus)
  | perish

namespace Machine

def report (machine : Machine) (text : ByteString) : Machine :=
  { machine with errors := machine.errors ++ [text] }

/-- A return, which destroys the descriptors and the cgroup.  A cgroup that is
killed takes the worker with it if the worker is in it. -/
def leave (machine : Machine) (status : Int) : Machine :=
  let scope := machine.scope.cleanup machine.host
  let accepted := fun (file : ControlFile) =>
    scope.writes.any fun write => write.file = file && write.accepted
  { machine with
    supervisor := .returned status
    scope := scope
    supervisorRead := false
    supervisorWrite := false
    killed := machine.killed || (accepted .kill && accepted .procs) }

/-- The end of the worker, which closes its descriptors. -/
def endWorker (machine : Machine) (status : WaitStatus) : Machine :=
  { machine with
    worker := .ended status
    workerRead := false
    workerWrite := false }

/-- `getppid` in the worker. -/
def parentPid (machine : Machine) : Int :=
  if machine.alive then machine.host.pid else machine.host.reaper

/-- No process can write into the pipe any more. -/
def WritersGone (machine : Machine) : Prop :=
  machine.supervisorWrite = false ∧ machine.workerWrite = false

instance (machine : Machine) : Decidable machine.WritersGone :=
  inferInstanceAs (Decidable (_ ∧ _))

/-- A read from the pipe waits. -/
def Blocked (machine : Machine) : Prop :=
  machine.tokens = 0 ∧ ¬ machine.WritersGone

instance (machine : Machine) : Decidable machine.Blocked :=
  inferInstanceAs (Decidable (_ ∧ _))

end Machine

/-! ## Steps -/

/-- The steps of the supervisor. -/
def supervisorStep (machine : Machine) (label : Label) : Option Machine :=
  match label, machine.supervisor with
  | .create, .creating =>
      match machine.scope.create machine.host machine.config with
      | (.ok (), scope) =>
          some { machine with scope := scope, supervisor := .piping }
      | (.error message, scope) =>
          some
            (({ machine with scope := scope }.report
              (literal "sandbox: " ++ message ++ literal "\n")).leave 1)
  | .pipe error, .piping =>
      match error with
      | some reason =>
          some
            ((machine.report
              (literal "sandbox: pipe: " ++ reason ++
                literal "\n")).leave 1)
      | none =>
          some
            { machine with
              supervisor := .forking
              supervisorRead := true
              supervisorWrite := true }
  | .fork result, .forking =>
      match result with
      | .error reason =>
          some
            ((machine.report
              (literal "sandbox: fork: " ++ reason ++
                literal "\n")).leave 1)
      | .ok pid =>
          some
            { machine with
              supervisor := .closingRead pid
              worker := .started
              workerRead := machine.supervisorRead
              workerWrite := machine.supervisorWrite }
  | .resetRead, .closingRead pid =>
      some
        { machine with
          supervisor := .attaching pid
          supervisorRead := false }
  | .attach, .attaching pid =>
      match machine.scope.attach machine.host pid with
      | (.ok (), scope) =>
          some
            { machine with
              scope := scope
              supervisor := .sending
              attached := some true }
      | (.error message, scope) =>
          some
            ({ machine with
              scope := scope
              supervisor := .killingUnattached
              attached := some false }.report
                (literal "sandbox: " ++ message ++ literal "\n"))
  | .kill, .killingUnattached =>
      some
        { machine with
          supervisor := .closingUnattached
          killed := true }
  | .resetWrite, .closingUnattached =>
      some
        { machine with
          supervisor := .waitingUnattached
          supervisorWrite := false }
  | .wait answer, .waitingUnattached =>
      -- The result of the call is ignored; it returns when the worker has
      -- ended, or with an error.
      match answer, machine.worker with
      | .reaped, .ended _ => some (machine.leave 1)
      | .reaped, _ => none
      | _, _ => some (machine.leave 1)
  | .send succeeds, .sending =>
      -- Without a reader the write fails, or `SIGPIPE` ends the supervisor.
      if succeeds ∧ machine.workerRead then
        some
          { machine with
            supervisor := .closing
            tokens := machine.tokens + 1
            sent := true }
      else
        some
          ({ machine with supervisor := .killingUnsent }.report
            (literal "sandbox: failed to release sandbox worker\n"))
  | .kill, .killingUnsent =>
      some { machine with supervisor := .closing, killed := true }
  | .resetWrite, .closing =>
      some { machine with supervisor := .waiting, supervisorWrite := false }
  | .wait answer, .waiting =>
      match answer, machine.worker with
      | .interrupted, _ => some machine
      | .failed reason, _ =>
          some
            ((machine.report
              (literal "sandbox: waitpid: " ++ reason ++
                literal "\n")).leave 1)
      | .reaped, .ended status =>
          some (machine.leave (waitStatusToExitCode status))
      | .reaped, _ => none
  | .die, _ =>
      some
        { machine with
          alive := false
          supervisorRead := false
          supervisorWrite := false
          killed := machine.killed || machine.deathSignal }
  | _, _ => none

/-- The steps of the worker. -/
def workerStep (machine : Machine) (label : Label) : Option Machine :=
  match label, machine.worker with
  | .noteParent, .started =>
      some { machine with worker := .noted machine.parentPid }
  | .prctl succeeds, .noted supervisor =>
      if succeeds then
        some
          { machine with
            worker := .armed supervisor
            deathSignal := true }
      else
        some (machine.endWorker exitedWithOne)
  | .checkParent, .armed supervisor =>
      if machine.parentPid ≠ supervisor then
        some (machine.endWorker exitedWithOne)
      else
        some { machine with worker := .closingWrite }
  | .workerResetWrite, .closingWrite =>
      some { machine with worker := .reading, workerWrite := false }
  | .read answer, .reading =>
      match answer with
      | .interrupted => some machine
      | .failed => some { machine with worker := .closingRead (-1) }
      | .delivered =>
          if machine.tokens ≠ 0 then
            some
              { machine with
                worker := .closingRead 1
                tokens := machine.tokens - 1 }
          else if machine.WritersGone then
            some { machine with worker := .closingRead 0 }
          else
            none
  | .workerResetRead, .closingRead count =>
      if count ≠ 1 then
        some (machine.endWorker exitedWithOne)
      else
        some
          { machine with
            worker := .inside
            workerRead := false
            entered := true }
  | .finish status, .inside =>
      if status.terminates then some (machine.endWorker status) else none
  | .perish, .unborn => none
  | .perish, .ended _ => none
  | .perish, _ =>
      if machine.killed then some (machine.endWorker endedBySigkill)
      else none
  | _, _ => none

/-- The label belongs to a step of the supervisor. -/
def Label.ofSupervisor : Label → Bool
  | .create | .pipe _ | .fork _ | .resetRead | .attach | .kill
  | .resetWrite | .send _ | .wait _ | .die => true
  | _ => false

/-- One step of either process. -/
def machineStep (machine : Machine) (label : Label) : Option Machine :=
  if label.ofSupervisor then
    if machine.alive then supervisorStep machine label else none
  else
    workerStep machine label

/-- The start of `execute_sandbox_child` for some configuration. -/
def IsStart (machine : Machine) : Prop :=
  ∃ host config, machine = { host := host, config := config }

def handshake : System Machine Label where
  initial := IsStart
  step := machineStep

/-! ## Everything a step can do -/

inductive SupervisorStep (machine : Machine) : Label → Machine → Prop where
  | create {scope : CgroupScope}
      (isCreating : machine.supervisor = .creating)
      (created :
        machine.scope.create machine.host machine.config = (.ok (), scope)) :
      SupervisorStep machine .create
        { machine with scope := scope, supervisor := .piping }
  | createFails {message : ByteString} {scope : CgroupScope}
      (isCreating : machine.supervisor = .creating)
      (failed :
        machine.scope.create machine.host machine.config =
          (.error message, scope)) :
      SupervisorStep machine .create
        (({ machine with scope := scope }.report
          (literal "sandbox: " ++ message ++ literal "\n")).leave 1)
  | pipe (isPiping : machine.supervisor = .piping) :
      SupervisorStep machine (.pipe none)
        { machine with
          supervisor := .forking
          supervisorRead := true
          supervisorWrite := true }
  | pipeFails {reason : ByteString}
      (isPiping : machine.supervisor = .piping) :
      SupervisorStep machine (.pipe (some reason))
        ((machine.report
          (literal "sandbox: pipe: " ++ reason ++ literal "\n")).leave 1)
  | fork {pid : Int} (isForking : machine.supervisor = .forking) :
      SupervisorStep machine (.fork (.ok pid))
        { machine with
          supervisor := .closingRead pid
          worker := .started
          workerRead := machine.supervisorRead
          workerWrite := machine.supervisorWrite }
  | forkFails {reason : ByteString}
      (isForking : machine.supervisor = .forking) :
      SupervisorStep machine (.fork (.error reason))
        ((machine.report
          (literal "sandbox: fork: " ++ reason ++ literal "\n")).leave 1)
  | resetRead {pid : Int}
      (isClosing : machine.supervisor = .closingRead pid) :
      SupervisorStep machine .resetRead
        { machine with
          supervisor := .attaching pid
          supervisorRead := false }
  | attach {pid : Int} {scope : CgroupScope}
      (isAttaching : machine.supervisor = .attaching pid)
      (attached :
        machine.scope.attach machine.host pid = (.ok (), scope)) :
      SupervisorStep machine .attach
        { machine with
          scope := scope
          supervisor := .sending
          attached := some true }
  | attachFails {pid : Int} {message : ByteString} {scope : CgroupScope}
      (isAttaching : machine.supervisor = .attaching pid)
      (failed :
        machine.scope.attach machine.host pid = (.error message, scope)) :
      SupervisorStep machine .attach
        ({ machine with
          scope := scope
          supervisor := .killingUnattached
          attached := some false }.report
            (literal "sandbox: " ++ message ++ literal "\n"))
  | killUnattached (isKilling : machine.supervisor = .killingUnattached) :
      SupervisorStep machine .kill
        { machine with
          supervisor := .closingUnattached
          killed := true }
  | closeUnattached (isClosing : machine.supervisor = .closingUnattached) :
      SupervisorStep machine .resetWrite
        { machine with
          supervisor := .waitingUnattached
          supervisorWrite := false }
  | waitUnattached {answer : WaitAnswer}
      (isWaiting : machine.supervisor = .waitingUnattached)
      (returns :
        answer = .reaped → ∃ status, machine.worker = .ended status) :
      SupervisorStep machine (.wait answer) (machine.leave 1)
  | send {succeeds : Bool} (isSending : machine.supervisor = .sending)
      (goesThrough : succeeds = true ∧ machine.workerRead = true) :
      SupervisorStep machine (.send succeeds)
        { machine with
          supervisor := .closing
          tokens := machine.tokens + 1
          sent := true }
  | sendFails {succeeds : Bool} (isSending : machine.supervisor = .sending)
      (failed : ¬ (succeeds = true ∧ machine.workerRead = true)) :
      SupervisorStep machine (.send succeeds)
        ({ machine with supervisor := .killingUnsent }.report
          (literal "sandbox: failed to release sandbox worker\n"))
  | killUnsent (isKilling : machine.supervisor = .killingUnsent) :
      SupervisorStep machine .kill
        { machine with supervisor := .closing, killed := true }
  | close (isClosing : machine.supervisor = .closing) :
      SupervisorStep machine .resetWrite
        { machine with supervisor := .waiting, supervisorWrite := false }
  | waitInterrupted (isWaiting : machine.supervisor = .waiting) :
      SupervisorStep machine (.wait .interrupted) machine
  | waitFails {reason : ByteString}
      (isWaiting : machine.supervisor = .waiting) :
      SupervisorStep machine (.wait (.failed reason))
        ((machine.report
          (literal "sandbox: waitpid: " ++ reason ++
            literal "\n")).leave 1)
  | wait {status : WaitStatus} (isWaiting : machine.supervisor = .waiting)
      (hasEnded : machine.worker = .ended status) :
      SupervisorStep machine (.wait .reaped)
        (machine.leave (waitStatusToExitCode status))
  | die :
      SupervisorStep machine .die
        { machine with
          alive := false
          supervisorRead := false
          supervisorWrite := false
          killed := machine.killed || machine.deathSignal }

inductive WorkerStep (machine : Machine) : Label → Machine → Prop where
  | noteParent (isStarted : machine.worker = .started) :
      WorkerStep machine .noteParent
        { machine with worker := .noted machine.parentPid }
  | prctl {supervisor : Int} (isNoted : machine.worker = .noted supervisor) :
      WorkerStep machine (.prctl true)
        { machine with worker := .armed supervisor, deathSignal := true }
  | prctlFails {supervisor : Int}
      (isNoted : machine.worker = .noted supervisor) :
      WorkerStep machine (.prctl false) (machine.endWorker exitedWithOne)
  | orphaned {supervisor : Int}
      (isArmed : machine.worker = .armed supervisor)
      (different : machine.parentPid ≠ supervisor) :
      WorkerStep machine .checkParent (machine.endWorker exitedWithOne)
  | checkParent {supervisor : Int}
      (isArmed : machine.worker = .armed supervisor)
      (same : machine.parentPid = supervisor) :
      WorkerStep machine .checkParent
        { machine with worker := .closingWrite }
  | resetWrite (isClosing : machine.worker = .closingWrite) :
      WorkerStep machine .workerResetWrite
        { machine with worker := .reading, workerWrite := false }
  | readInterrupted (isReading : machine.worker = .reading) :
      WorkerStep machine (.read .interrupted) machine
  | readFails (isReading : machine.worker = .reading) :
      WorkerStep machine (.read .failed)
        { machine with worker := .closingRead (-1) }
  | readToken (isReading : machine.worker = .reading)
      (available : machine.tokens ≠ 0) :
      WorkerStep machine (.read .delivered)
        { machine with
          worker := .closingRead 1
          tokens := machine.tokens - 1 }
  | readEnd (isReading : machine.worker = .reading)
      (empty : machine.tokens = 0) (writersGone : machine.WritersGone) :
      WorkerStep machine (.read .delivered)
        { machine with worker := .closingRead 0 }
  | refused {count : Int} (isClosing : machine.worker = .closingRead count)
      (noToken : count ≠ 1) :
      WorkerStep machine .workerResetRead (machine.endWorker exitedWithOne)
  | enter (isClosing : machine.worker = .closingRead 1) :
      WorkerStep machine .workerResetRead
        { machine with
          worker := .inside
          workerRead := false
          entered := true }
  | finish {status : WaitStatus} (isInside : machine.worker = .inside)
      (terminates : status.terminates = true) :
      WorkerStep machine (.finish status) (machine.endWorker status)
  | perish (isKilled : machine.killed = true)
      (born : machine.worker ≠ .unborn)
      (running : ∀ status, machine.worker ≠ .ended status) :
      WorkerStep machine .perish (machine.endWorker endedBySigkill)

section Steps

variable {machine next : Machine} {label : Label}

theorem supervisorStep_cases
    (stepped : supervisorStep machine label = some next) :
    SupervisorStep machine label next := by
  unfold supervisorStep at stepped
  split at stepped
  · split at stepped <;> cases stepped
    · exact .create ‹_› ‹_›
    · exact .createFails ‹_› ‹_›
  · split at stepped <;> cases stepped
    · exact .pipeFails ‹_›
    · exact .pipe ‹_›
  · split at stepped <;> cases stepped
    · exact .forkFails ‹_›
    · exact .fork ‹_›
  · cases stepped
    exact .resetRead ‹_›
  · split at stepped <;> cases stepped
    · exact .attach ‹_› ‹_›
    · exact .attachFails ‹_› ‹_›
  · cases stepped
    exact .killUnattached ‹_›
  · cases stepped
    exact .closeUnattached ‹_›
  · split at stepped
    · cases stepped
      exact .waitUnattached ‹_› fun _ => ⟨_, ‹_›⟩
    · cases stepped
    · rename_i notReaped _
      cases stepped
      exact .waitUnattached ‹_› fun isReaped => absurd isReaped notReaped
  · split_ifs at stepped with goesThrough <;> cases stepped
    · exact .send ‹_› goesThrough
    · exact .sendFails ‹_› goesThrough
  · cases stepped
    exact .killUnsent ‹_›
  · cases stepped
    exact .close ‹_›
  · split at stepped <;> cases stepped
    · exact .waitInterrupted ‹_›
    · exact .waitFails ‹_›
    · exact .wait ‹_› ‹_›
  · cases stepped
    exact .die
  · cases stepped

theorem workerStep_cases
    (stepped : workerStep machine label = some next) :
    WorkerStep machine label next := by
  unfold workerStep at stepped
  split at stepped
  · cases stepped
    exact .noteParent ‹_›
  · split_ifs at stepped with succeeds <;> cases stepped
    · subst succeeds
      exact .prctl ‹_›
    · rw [Bool.eq_false_iff.mpr succeeds]
      exact .prctlFails ‹_›
  · split_ifs at stepped with different <;> cases stepped
    · exact .orphaned ‹_› different
    · exact .checkParent ‹_› (not_not.mp different)
  · cases stepped
    exact .resetWrite ‹_›
  · split at stepped
    · cases stepped
      exact .readInterrupted ‹_›
    · cases stepped
      exact .readFails ‹_›
    · split_ifs at stepped with available writersGone <;> cases stepped
      · exact .readToken ‹_› available
      · exact .readEnd ‹_› (not_not.mp available) writersGone
  · split_ifs at stepped with noToken <;> cases stepped
    · exact .refused ‹_› noToken
    · rename_i isClosing
      rw [not_not.mp noToken] at isClosing
      exact .enter isClosing
  · split_ifs at stepped with terminates
    cases stepped
    exact .finish ‹_› terminates
  · cases stepped
  · cases stepped
  · rename_i born running
    split_ifs at stepped with isKilled
    cases stepped
    exact .perish isKilled born running
  · cases stepped

/-- A step of the machine is one of a living supervisor or of the worker. -/
theorem machineStep_cases
    (stepped : machineStep machine label = some next) :
    machine.alive = true ∧ SupervisorStep machine label next ∨
      WorkerStep machine label next := by
  unfold machineStep at stepped
  split_ifs at stepped with ofSupervisor alive
  · exact Or.inl ⟨alive, supervisorStep_cases stepped⟩
  · exact Or.inr (workerStep_cases stepped)

/-! ## What the phases say -/

/-- What is known of the handshake when the supervisor is in a phase. -/
def PhaseAgrees (phase : SupervisorPhase) (attached : Option Bool)
    (sent : Bool) : Prop :=
  match phase with
  | .creating | .piping | .forking | .closingRead _ | .attaching _ =>
      attached = none ∧ sent = false
  | .killingUnattached | .closingUnattached | .waitingUnattached =>
      attached = some false ∧ sent = false
  | .sending | .killingUnsent => attached = some true ∧ sent = false
  | .closing | .waiting => attached = some true
  | .returned _ => sent = true → attached = some true

theorem PhaseAgrees.attached_of_sent
    {phase : SupervisorPhase} {attached : Option Bool} {sent : Bool}
    (agrees : PhaseAgrees phase attached sent) (isSent : sent = true) :
    attached = some true := by
  subst isSent
  cases phase <;> simp_all [PhaseAgrees]

/-- The phases in which the supervisor has the write end open. -/
def SupervisorPhase.holdsWriteEnd : SupervisorPhase → Bool
  | .forking | .closingRead _ | .attaching _ | .killingUnattached
  | .closingUnattached | .sending | .killingUnsent | .closing => true
  | _ => false

/-- The supervisor's side: its phase goes with what it has done, and it has
the write end open in the phases in between only. -/
structure SupervisorInvariant (machine : Machine) : Prop where
  agrees : PhaseAgrees machine.supervisor machine.attached machine.sent
  writeEnd :
    machine.supervisorWrite = true →
      machine.alive = true ∧ machine.supervisor.holdsWriteEnd = true

theorem SupervisorInvariant.of_supervisorStep
    (holds : SupervisorInvariant machine) (alive : machine.alive = true)
    (stepped : SupervisorStep machine label next) :
    SupervisorInvariant next := by
  rcases holds with ⟨agrees, writeEnd⟩
  constructor
  · cases stepped <;>
      simp_all [PhaseAgrees, Machine.leave, Machine.report]
  · cases stepped <;>
      simp_all [SupervisorPhase.holdsWriteEnd, Machine.leave, Machine.report]

/-- A step of the worker leaves the supervisor's side alone. -/
theorem SupervisorInvariant.of_workerStep
    (holds : SupervisorInvariant machine)
    (stepped : WorkerStep machine label next) :
    SupervisorInvariant next := by
  rcases holds with ⟨agrees, writeEnd⟩
  cases stepped <;> exact ⟨agrees, writeEnd⟩

/-- The phases in which the worker has closed its write end. -/
def WorkerPhase.pastReset : WorkerPhase → Bool
  | .reading | .closingRead _ | .inside | .ended _ => true
  | _ => false

/-- The phases in which the supervisor has a worker. -/
def SupervisorPhase.hasWorker : SupervisorPhase → Bool
  | .creating | .piping | .forking | .returned _ => false
  | _ => true

/-- The worker's side: it closes its write end before it reads, and it is
there when the supervisor deals with it. -/
structure WorkerInvariant (machine : Machine) : Prop where
  writeEnd :
    machine.worker.pastReset = true → machine.workerWrite = false
  born :
    machine.supervisor.hasWorker = true → machine.worker ≠ .unborn

theorem WorkerInvariant.of_supervisorStep
    (holds : WorkerInvariant machine)
    (stepped : SupervisorStep machine label next) :
    WorkerInvariant next := by
  rcases holds with ⟨writeEnd, born⟩
  constructor
  · cases stepped with
    | fork isForking => exact nofun
    | _ => exact writeEnd
  · cases stepped <;>
      simp_all [SupervisorPhase.hasWorker, Machine.leave, Machine.report]

theorem WorkerInvariant.of_workerStep
    (holds : WorkerInvariant machine)
    (stepped : WorkerStep machine label next) :
    WorkerInvariant next := by
  rcases holds with ⟨writeEnd, born⟩
  constructor
  · cases stepped <;> simp_all [WorkerPhase.pastReset, Machine.endWorker]
  · cases stepped <;> simp_all [Machine.endWorker]

/-- The token goes from the supervisor through the pipe to the worker, which
does not enter without it; without the entry the worker fails. -/
structure TokenInvariant (machine : Machine) : Prop where
  inPipe : machine.tokens ≠ 0 → machine.sent = true
  received : machine.worker = .closingRead 1 → machine.sent = true
  entered : machine.entered = true → machine.sent = true
  inside : machine.worker = .inside → machine.entered = true
  ended :
    ∀ status, machine.worker = .ended status → machine.entered = false →
      status = exitedWithOne ∨ status = endedBySigkill
  returned : machine.supervisor = .returned 0 → machine.entered = true

theorem waitStatusToExitCode_ne_zero
    {status : WaitStatus}
    (failed : status = exitedWithOne ∨ status = endedBySigkill) :
    waitStatusToExitCode status ≠ 0 := by
  rcases failed with rfl | rfl <;> decide

theorem TokenInvariant.of_supervisorStep
    (holds : TokenInvariant machine)
    (stepped : SupervisorStep machine label next) :
    TokenInvariant next := by
  rcases holds with ⟨inPipe, received, entered, inside, ended, returned⟩
  cases stepped with
  | fork isForking =>
      exact ⟨inPipe, nofun, entered, nofun, nofun, nofun⟩
  | send isSending goesThrough =>
      exact ⟨fun _ => rfl, fun _ => rfl, fun _ => rfl, inside, ended, nofun⟩
  | wait isWaiting hasEnded =>
      refine ⟨inPipe, received, entered, inside, ended, ?_⟩
      intro returnsZero
      by_contra notEntered
      rw [Bool.not_eq_true] at notEntered
      exact waitStatusToExitCode_ne_zero
        (ended _ hasEnded notEntered)
        (SupervisorPhase.returned.inj returnsZero)
  | die => exact ⟨inPipe, received, entered, inside, ended, returned⟩
  | waitInterrupted _ =>
      exact ⟨inPipe, received, entered, inside, ended, returned⟩
  | _ => exact ⟨inPipe, received, entered, inside, ended, nofun⟩

theorem TokenInvariant.of_workerStep
    (holds : TokenInvariant machine)
    (stepped : WorkerStep machine label next) :
    TokenInvariant next := by
  rcases holds with ⟨inPipe, received, entered, inside, ended, returned⟩
  cases stepped with
  | readToken isReading available =>
      exact ⟨fun _ => inPipe available, fun _ => inPipe available, entered,
        nofun, nofun, returned⟩
  | enter isClosing =>
      exact ⟨inPipe, nofun, fun _ => received isClosing, fun _ => rfl,
        nofun, fun _ => rfl⟩
  | finish isInside terminates =>
      refine ⟨inPipe, nofun, entered, nofun, ?_, returned⟩
      intro status _ notEntered
      exact absurd (inside isInside) (Bool.eq_false_iff.mp notEntered)
  | prctlFails _ | orphaned _ _ | refused _ _ =>
      refine ⟨inPipe, nofun, entered, nofun, ?_, returned⟩
      intro status isStatus _
      exact Or.inl (WorkerPhase.ended.inj isStatus).symm
  | perish _ _ _ =>
      refine ⟨inPipe, nofun, entered, nofun, ?_, returned⟩
      intro status isStatus _
      exact Or.inr (WorkerPhase.ended.inj isStatus).symm
  | readInterrupted _ =>
      exact ⟨inPipe, received, entered, inside, ended, returned⟩
  | _ => exact ⟨inPipe, nofun, entered, nofun, nofun, returned⟩

/-- What holds of supervisor, worker and pipe in every state. -/
structure Invariant (machine : Machine) : Prop where
  supervisor : SupervisorInvariant machine
  worker : WorkerInvariant machine
  token : TokenInvariant machine

theorem IsStart.invariant
    (isStart : IsStart machine) :
    Invariant machine := by
  rcases isStart with ⟨host, config, rfl⟩
  constructor
  · exact ⟨⟨rfl, rfl⟩, nofun⟩
  · exact ⟨nofun, nofun⟩
  · exact ⟨fun nonempty => absurd rfl nonempty, nofun, nofun, nofun, nofun,
      nofun⟩

theorem Invariant.step
    (holds : Invariant machine)
    (stepped : machineStep machine label = some next) :
    Invariant next := by
  rcases holds with ⟨supervisor, worker, token⟩
  rcases machineStep_cases stepped with ⟨alive, step⟩ | step
  · exact ⟨supervisor.of_supervisorStep alive step,
      worker.of_supervisorStep step, token.of_supervisorStep step⟩
  · exact ⟨supervisor.of_workerStep step, worker.of_workerStep step,
      token.of_workerStep step⟩

theorem reachable_invariant
    (reachable : handshake.Reachable machine) :
    Invariant machine :=
  reachable.invariant Invariant IsStart.invariant Invariant.step

/-! ## How long the handshake takes -/

/-- The steps that the supervisor has left, with those of a worker that it has
not created yet. -/
def SupervisorPhase.rank : SupervisorPhase → Nat
  | .creating => 19
  | .piping => 18
  | .forking => 17
  | .closingRead _ => 8
  | .attaching _ => 7
  | .killingUnattached | .sending => 6
  | .closingUnattached | .killingUnsent => 5
  | .waitingUnattached | .closing => 4
  | .waiting => 3
  | .returned _ => 1

/-- The steps that the worker has left. -/
def WorkerPhase.rank : WorkerPhase → Nat
  | .unborn => 0
  | .started => 8
  | .noted _ => 7
  | .armed _ => 6
  | .closingWrite => 5
  | .reading => 4
  | .closingRead _ => 3
  | .inside => 2
  | .ended _ => 0

def Machine.rank (machine : Machine) : Nat :=
  (if machine.alive then machine.supervisor.rank else 0) +
    machine.worker.rank

/-- The call is broken off by a signal. -/
def Label.interrupted : Label → Bool
  | .read .interrupted | .wait .interrupted => true
  | _ => false

theorem SupervisorPhase.rank_pos (phase : SupervisorPhase) :
    0 < phase.rank := by
  cases phase <;> exact Nat.succ_pos _

theorem WorkerPhase.rank_pos
    {phase : WorkerPhase} (born : phase ≠ .unborn)
    (running : ∀ status, phase ≠ .ended status) :
    0 < phase.rank := by
  cases phase with
  | unborn => exact absurd rfl born
  | ended status => exact absurd rfl (running status)
  | _ => exact Nat.succ_pos _

theorem SupervisorStep.rank_lowered
    (alive : machine.alive = true)
    (stepped : SupervisorStep machine label next) :
    next.rank < machine.rank ∨
      label.interrupted = true ∧ next.rank ≤ machine.rank := by
  cases stepped with
  | die =>
      apply Or.inl
      have positive := machine.supervisor.rank_pos
      simpa [Machine.rank, alive] using positive
  | waitInterrupted _ => exact Or.inr ⟨rfl, Nat.le_refl _⟩
  | fork isForking =>
      apply Or.inl
      simp only [Machine.rank, alive, isForking, SupervisorPhase.rank,
        WorkerPhase.rank, if_true]
      omega
  | _ =>
      apply Or.inl
      simp_all [Machine.rank, SupervisorPhase.rank, Machine.leave,
        Machine.report]

theorem WorkerStep.rank_lowered
    (stepped : WorkerStep machine label next) :
    next.rank < machine.rank ∨
      label.interrupted = true ∧ next.rank ≤ machine.rank := by
  cases stepped with
  | perish isKilled born running =>
      apply Or.inl
      apply Nat.add_lt_add_left
      exact WorkerPhase.rank_pos born running
  | readInterrupted _ => exact Or.inr ⟨rfl, Nat.le_refl _⟩
  | _ =>
      apply Or.inl
      apply Nat.add_lt_add_left
      simp_all [WorkerPhase.rank, Machine.endWorker]

end Steps

/-- From the start, the two processes take nineteen steps at most, apart from
calls that are interrupted. -/
theorem uninterrupted_le
    {start machine : Machine} {labels : List Label}
    (isStart : IsStart start)
    (ran : handshake.run start labels = some machine) :
    labels.countP (fun label => !label.interrupted) ≤ 19 := by
  rcases isStart with ⟨host, config, rfl⟩
  apply System.countP_le_rank Machine.rank _ _ ran
  intro machine label next stepped
  have lowered :
      next.rank < machine.rank ∨
        label.interrupted = true ∧ next.rank ≤ machine.rank := by
    rcases machineStep_cases stepped with ⟨alive, step⟩ | step
    · exact step.rank_lowered alive
    · exact step.rank_lowered
  rcases lowered with lower | ⟨isInterrupted, same⟩
  · exact Or.inl lower
  · exact Or.inr ⟨by rw [isInterrupted]; rfl, same⟩

/-! ## Machines at rest -/

/-- A process takes the step by itself, and no call in it fails. -/
def Label.ordinary : Label → Bool
  | .create | .pipe none | .fork (.ok _) | .resetRead | .attach | .kill
  | .resetWrite | .send true | .wait .reaped | .noteParent | .prctl true
  | .checkParent | .workerResetWrite | .read .delivered
  | .workerResetRead | .perish => true
  | _ => false

/-- Nothing happens any more unless a call fails, the supervisor is killed or
the program inside ends. -/
def Machine.AtRest (machine : Machine) : Prop :=
  ∀ label : Label, label.ordinary = true →
    machineStep machine label = none

theorem Machine.AtRest.supervisorStep_eq_none
    {machine : Machine} (atRest : machine.AtRest)
    (alive : machine.alive = true) (label : Label)
    (isOrdinary : label.ordinary = true)
    (ofSupervisor : label.ofSupervisor = true) :
    supervisorStep machine label = none := by
  have rests := atRest label isOrdinary
  rwa [machineStep, if_pos ofSupervisor, if_pos alive] at rests

theorem Machine.AtRest.workerStep_eq_none
    {machine : Machine} (atRest : machine.AtRest) (label : Label)
    (isOrdinary : label.ordinary = true)
    (ofWorker : label.ofSupervisor = false) :
    workerStep machine label = none := by
  have rests := atRest label isOrdinary
  rwa [machineStep, if_neg (Bool.eq_false_iff.mp ofWorker)] at rests

/-- At rest, a living supervisor waits for the worker or has returned. -/
theorem Machine.AtRest.supervisor
    {machine : Machine} (atRest : machine.AtRest)
    (alive : machine.alive = true) :
    (machine.supervisor = .waitingUnattached ∨
        machine.supervisor = .waiting) ∧
        (∀ status, machine.worker ≠ .ended status) ∨
      ∃ status, machine.supervisor = .returned status := by
  have stuck := atRest.supervisorStep_eq_none alive
  cases isPhase : machine.supervisor with
  | returned status => exact Or.inr ⟨status, rfl⟩
  | waiting | waitingUnattached =>
      apply Or.inl
      refine ⟨by simp, fun status hasEnded => ?_⟩
      have rests := stuck (.wait .reaped) rfl rfl
      simp [supervisorStep, isPhase, hasEnded] at rests
  | creating =>
      have rests := stuck .create rfl rfl
      simp only [supervisorStep, isPhase] at rests
      split at rests <;> cases rests
  | piping =>
      have rests := stuck (.pipe none) rfl rfl
      simp [supervisorStep, isPhase] at rests
  | forking =>
      have rests := stuck (.fork (.ok 0)) rfl rfl
      simp [supervisorStep, isPhase] at rests
  | closingRead pid =>
      have rests := stuck .resetRead rfl rfl
      simp [supervisorStep, isPhase] at rests
  | attaching pid =>
      have rests := stuck .attach rfl rfl
      simp only [supervisorStep, isPhase] at rests
      split at rests <;> cases rests
  | killingUnattached | killingUnsent =>
      have rests := stuck .kill rfl rfl
      simp [supervisorStep, isPhase] at rests
  | closingUnattached | closing =>
      have rests := stuck .resetWrite rfl rfl
      simp [supervisorStep, isPhase] at rests
  | sending =>
      have rests := stuck (.send true) rfl rfl
      simp only [supervisorStep, isPhase] at rests
      split_ifs at rests

/-- At rest, a worker that was created is inside or has ended. -/
theorem Machine.AtRest.worker
    {machine : Machine} (atRest : machine.AtRest)
    (holds : Invariant machine) :
    machine.worker = .unborn ∨ machine.worker = .inside ∨
      ∃ status, machine.worker = .ended status := by
  cases isPhase : machine.worker with
  | unborn => exact Or.inl rfl
  | inside => exact Or.inr (Or.inl rfl)
  | ended status => exact Or.inr (Or.inr ⟨status, rfl⟩)
  | started =>
      have rests := atRest.workerStep_eq_none .noteParent rfl rfl
      simp [workerStep, isPhase] at rests
  | noted supervisor =>
      have rests := atRest.workerStep_eq_none (.prctl true) rfl rfl
      simp [workerStep, isPhase] at rests
  | armed supervisor =>
      have rests := atRest.workerStep_eq_none .checkParent rfl rfl
      simp only [workerStep, isPhase] at rests
      split_ifs at rests
  | closingWrite =>
      have rests := atRest.workerStep_eq_none .workerResetWrite rfl rfl
      simp [workerStep, isPhase] at rests
  | closingRead count =>
      have rests := atRest.workerStep_eq_none .workerResetRead rfl rfl
      simp only [workerStep, isPhase] at rests
      split_ifs at rests
  | reading =>
      have rests := atRest.workerStep_eq_none (.read .delivered) rfl rfl
      simp only [workerStep, isPhase] at rests
      split_ifs at rests with available writersGone
      -- The read waits, so the supervisor has the write end open.
      have workerWrite : machine.workerWrite = false :=
        holds.worker.writeEnd (by rw [isPhase]; rfl)
      have supervisorWrite : machine.supervisorWrite = true := by
        by_contra closed
        exact writersGone ⟨Bool.eq_false_iff.mpr closed, workerWrite⟩
      rcases holds.supervisor.writeEnd supervisorWrite with
        ⟨alive, holdsEnd⟩
      rcases atRest.supervisor alive with
        ⟨isWaiting | isWaiting, _⟩ | ⟨status, isReturned⟩
      all_goals simp_all [SupervisorPhase.holdsWriteEnd]

/-- A living supervisor comes to its return, unless the program inside goes
on. -/
theorem Machine.AtRest.returned
    {machine : Machine} (atRest : machine.AtRest)
    (holds : Invariant machine) (alive : machine.alive = true)
    (outside : machine.worker ≠ .inside) :
    ∃ status, machine.supervisor = .returned status := by
  rcases atRest.supervisor alive with ⟨isWaiting, running⟩ | isReturned
  · have hasWorker : machine.supervisor.hasWorker = true := by
      rcases isWaiting with isWaiting | isWaiting <;> rw [isWaiting] <;> rfl
    rcases atRest.worker holds with unborn | inside | ⟨status, hasEnded⟩
    · exact absurd unborn (holds.worker.born hasWorker)
    · exact absurd inside outside
    · exact absurd hasEnded (running status)
  · exact isReturned

/-! ## The handshake -/

/-- The supervisor is dead or has returned. -/
def Machine.Gone (machine : Machine) : Prop :=
  machine.alive = false ∨ ∃ status, machine.supervisor = .returned status

/-- A worker does not wait for a supervisor that is gone. -/
theorem Invariant.not_blocked
    {machine : Machine} (holds : Invariant machine)
    (gone : machine.Gone) (isReading : machine.worker = .reading) :
    ¬ machine.Blocked := by
  rintro ⟨_, someWriter⟩
  apply someWriter
  constructor
  · by_contra isOpen
    rw [Bool.not_eq_false] at isOpen
    rcases holds.supervisor.writeEnd isOpen with ⟨alive, holdsEnd⟩
    rcases gone with dead | ⟨status, hasReturned⟩
    · exact absurd alive (Bool.eq_false_iff.mp dead)
    · rw [hasReturned] at holdsEnd
      cases holdsEnd
  · exact holds.worker.writeEnd (by rw [isReading]; rfl)

theorem Invariant.attached_of_entered
    {machine : Machine} (holds : Invariant machine)
    (entered : machine.entered = true) :
    machine.attached = some true :=
  holds.supervisor.agrees.attached_of_sent (holds.token.entered entered)

/-- Whatever the order of the steps and whichever calls fail: the worker
enters only when it has been attached, it does not wait for a supervisor that
is gone, and without attachment or token it ends outside.  Between calls that
are interrupted, a run has nineteen steps at most. -/
theorem handshake_guards_entry
    {start machine : Machine} {labels : List Label}
    (isStart : IsStart start)
    (ran : handshake.run start labels = some machine) :
    (machine.entered = true → machine.attached = some true) ∧
      (machine.Gone → machine.worker = .reading → ¬ machine.Blocked) ∧
      (machine.attached = some false ∨ machine.sent = false →
        machine.entered = false ∧
          (machine.AtRest →
            machine.worker = .unborn ∨
              ∃ status, machine.worker = .ended status)) ∧
      labels.countP (fun label => !label.interrupted) ≤ 19 := by
  have holds : Invariant machine :=
    reachable_invariant ⟨start, labels, isStart, ran⟩
  refine ⟨holds.attached_of_entered, holds.not_blocked, ?_,
    uninterrupted_le isStart ran⟩
  intro withheld
  have outside : machine.entered = false := by
    by_contra entered
    rw [Bool.not_eq_false] at entered
    rcases withheld with refused | unsent
    · rw [holds.attached_of_entered entered] at refused
      cases refused
    · exact Bool.eq_false_iff.mp unsent (holds.token.entered entered)
  refine ⟨outside, fun atRest => ?_⟩
  rcases atRest.worker holds with unborn | inside | ended
  · exact Or.inl unborn
  · exact absurd (holds.token.inside inside) (Bool.eq_false_iff.mp outside)
  · exact Or.inr ended

/-- A host on which every call succeeds. -/
def sampleHost : Host where
  mounted := true
  currentCgroupPath := some (literal "/user.slice")
  pid := 40
  reaper := 1
  nonce := 5
  createError := none
  present := fun _ => true
  openError := fun _ => none
  acceptsWrite := fun _ => true

/-- A sandbox for `true` with a limit on the number of processes. -/
def sampleConfig : SandboxConfig :=
  { hasPidsMax := true, pidsMax := 8, programArgs := [literal "true"] }

/-- The supervisor dies between the attachment and the token, with the worker
at its read. -/
theorem handshake_guards_entry_orphan :
    ∃ machine,
      handshake.run { host := sampleHost, config := sampleConfig }
          [.create, .pipe none, .fork (.ok 41), .noteParent, .prctl true,
            .checkParent, .workerResetWrite, .read .interrupted, .resetRead,
            .attach, .die] = some machine ∧
        machine.attached = some true ∧ machine.worker = .reading ∧
        machine.entered = false ∧ ¬ machine.Blocked := by
  have ran :
      (handshake.run { host := sampleHost, config := sampleConfig }
        [.create, .pipe none, .fork (.ok 41), .noteParent, .prctl true,
          .checkParent, .workerResetWrite, .read .interrupted, .resetRead,
          .attach, .die]).map
        (fun machine =>
          (machine.attached, machine.worker, machine.alive, machine.sent)) =
        some (some true, .reading, false, false) := by
    decide +kernel
  rcases Option.map_eq_some_iff.mp ran with ⟨machine, arrived, seen⟩
  rcases Prod.mk.inj seen with ⟨attached, seen⟩
  rcases Prod.mk.inj seen with ⟨isReading, seen⟩
  rcases Prod.mk.inj seen with ⟨dead, unsent⟩
  rcases handshake_guards_entry ⟨_, _, rfl⟩ arrived with
    ⟨_, neverBlocks, withheld, _⟩
  exact ⟨machine, arrived, attached, isReading,
    (withheld (Or.inr unsent)).1, neverBlocks (Or.inl dead) isReading⟩

end Shell.Handshake
