import Shell.Executor.Descriptors
import Shell.Executor.Display
import Shell.JobControl.Operations

/-!
# Launching a pipeline, step by step

The fork path of `execute_pipeline` as a parent and its children that take
their steps in any order.  Each process has its own descriptor table, copied at
`fork`.  The parent creates the pipes, forks and groups one child after the
other, closes the pipes, adds the job and waits for it.  A child joins its
group, resets its signal handlers, configures its descriptors and then runs a
program or a built-in command; it may end at any time.  A process that has
ended stays a zombie of its group until the parent has waited for it.
-/

namespace Shell.LaunchMachine

open Shell.Syntax
open Shell.DescriptorTable
open Shell.Descriptors
open Shell.Display
open Shell.JobTable
open Shell.JobOperations
open Shell.TransitionSystem

/-! ## Which process runs a command -/

/-- `builtin_commands`. -/
def builtinCommands : List ByteString :=
  ["echo", "exit", "type", "pwd", "cd", "history", "jobs", "fg", "bg",
    "pinfo", "run", "limits", "sandbox", "trace"].map literal

/-- `is_builtin`. -/
def isBuiltin (name : ByteString) : Bool :=
  builtinCommands.contains name

/-- `is_job_builtin`. -/
def isJobBuiltin (name : ByteString) : Bool :=
  [literal "jobs", literal "fg", literal "bg"].contains name

/-- `requires_child_builtin_execution`. -/
def requiresChildBuiltinExecution (command : Command) : Bool :=
  match command.args with
  | [] => false
  | name :: _ =>
      if [literal "run", literal "sandbox", literal "trace"].contains name then
        true
      else if name ≠ literal "pinfo" then
        false
      else
        command.args.any fun arg =>
          arg = literal "--watch" || arg = literal "-w"

/-- The pipeline is run by `execute_parent_builtin`. -/
def runsInParent (pipeline : Pipeline) : Bool :=
  match pipeline.commands with
  | [command] =>
      match command.args with
      | [] => false
      | name :: _ =>
          !pipeline.background && isBuiltin name &&
            !requiresChildBuiltinExecution command
  | _ => false

/-- The pipeline is launched with `fork`. -/
def Forks (pipeline : Pipeline) : Prop :=
  pipeline.commands ≠ [] ∧ runsInParent pipeline = false

/-- What a configured child does. -/
inductive ChildAction where
  | jobBuiltin
  | run
  | sandbox
  | trace
  | builtin
  | external
deriving DecidableEq, Repr

def childAction (command : Command) : ChildAction :=
  let name := command.args.headD []
  if isJobBuiltin name then .jobBuiltin
  else if name = literal "run" then .run
  else if name = literal "sandbox" then .sandbox
  else if name = literal "trace" then .trace
  else if isBuiltin name then .builtin
  else .external

/-- The parts of the environment that decide whether a child calls `execv`:
`find_executable`, and the checks of `execute_resource_run_child`. -/
structure Environment where
  findExecutable : ByteString → ByteString
  resourceRunExecs : Command → Bool

/-- The child itself calls `execv`; `sandbox` and `trace` fork for it. -/
def reachesExec (environment : Environment) (command : Command) : Bool :=
  match childAction command with
  | .external =>
      !(environment.findExecutable (command.args.headD [])).isEmpty
  | .run => environment.resourceRunExecs command
  | _ => false

/-! ## Processes -/

/-- Where a child is. -/
inductive ChildPhase where
  | grouping
  | resetting
  | configuring
  | starting
  | running
  | zombie
  | reaped
deriving DecidableEq, Repr

def ChildPhase.alive : ChildPhase → Bool
  | .zombie => false
  | .reaped => false
  | _ => true

structure Child (σ : Type*) where
  pid : Int
  index : ℕ
  command : Command
  pgidAtFork : Int
  pgid : Int
  phase : ChildPhase
  execed : Bool
  pipes : List PipePair
  table : Table (Description σ)

variable {σ : Type*}

/-- The group that a child wants to join. -/
def Child.childPgid (child : Child σ) : Int :=
  if child.pgidAtFork = 0 then child.pid else child.pgidAtFork

/-- The end of a process closes all its descriptors. -/
def Child.exited (child : Child σ) : Child σ :=
  { child with phase := .zombie, table := ⟨fun _ => none, 0, fun _ _ => rfl⟩ }

/-- `ExecutionResult`. -/
structure ExecutionResult where
  exitRequested : Bool := false
  exitCode : Int := 0
  status : Int := 0
deriving DecidableEq, Repr

/-- Where the parent is in `execute_pipeline`. -/
inductive Phase where
  | creating
  | forking (index : ℕ)
  | grouping (index : ℕ) (pid : Int)
  | closing
  | adding
  | handing (id : Int)
  | waiting (id : Int)
  | returned (result : ExecutionResult)
deriving DecidableEq, Repr

/-- What is written while a pipeline is launched. -/
inductive Notice where
  | pipeFailed
  | forkFailed
  | groupFailed
  | started (id pgid : Int)
  | configureFailed (failure : ConfigureFailure)
deriving DecidableEq, Repr

def Notice.text : Notice → ByteString
  | .pipeFailed => literal "Failed to create pipe\n"
  | .forkFailed => literal "Failed to fork process\n"
  | .groupFailed => literal "Failed to assign process group\n"
  | .started id pgid =>
      literal "[" ++ decimal id ++ literal "] " ++ decimal pgid ++
        literal "\n"
  | .configureFailed failure => failure.text

structure Machine (σ : Type*) where
  shellGroup : Int
  phase : Phase
  pipes : List PipePair
  table : Table (Description σ)
  pgid : Int
  pids : List Int
  children : List (Child σ)
  session : Session
  notices : List Notice

/-- The steps of a child. -/
inductive ChildMove where
  | setGroup
  | resetSignals
  | configure (opens : OpenAnswers)
  | exec
  | exit
  | regroup (group : Int)
deriving DecidableEq, Repr

/-- The steps of the parent and of the child with a pid. -/
inductive Label where
  | pipe (succeeds : Bool)
  | fork (result : Option Int)
  | parent
  | handOver (answers : WaitAnswers)
  | wait (result : WaitResult)
  | finish (answers : WaitAnswers)
  | child (pid : Int) (move : ChildMove)
deriving DecidableEq, Repr

/-! ## The kernel -/

/-- The errors of `setpgid`. -/
inductive Errno where
  | eacces
  | eperm
  | esrch
deriving DecidableEq, Repr

/-- A process group with a member, zombies included. -/
def GroupExists (shellGroup : Int) (children : List (Child σ))
    (group : Int) : Prop :=
  group = shellGroup ∨
    ∃ child ∈ children, child.phase ≠ .reaped ∧ child.pgid = group

instance (shellGroup : Int) (children : List (Child σ)) (group : Int) :
    Decidable (GroupExists shellGroup children group) :=
  inferInstanceAs (Decidable (_ ∨ _))

/-- `setpgid` for a child, called by itself or by its parent. -/
def setpgid (byParent : Bool) (shellGroup : Int) (children : List (Child σ))
    (child : Child σ) (group : Int) : Except Errno (Child σ) :=
  if byParent ∧ child.execed then
    .error .eacces
  else if group = child.pid ∨ GroupExists shellGroup children group then
    .ok { child with pgid := group }
  else
    .error .eperm

/-- A pid that is in use neither for a process nor for a group. -/
def Unused (machine : Machine σ) (pid : Int) : Prop :=
  FreePid (machine.children.map Child.pid)
    (machine.shellGroup :: machine.session.terminal.foregroundGroup ::
      machine.children.map Child.pgid)
    pid

instance (machine : Machine σ) (pid : Int) :
    Decidable (Unused machine pid) :=
  inferInstanceAs (Decidable (FreePid _ _ _))

def findChild (children : List (Child σ)) (pid : Int) : Option (Child σ) :=
  children.find? fun child => child.pid = pid

/-- The children after the one with the pid has changed. -/
def replaceChild (children : List (Child σ)) (pid : Int)
    (changed : Child σ) : List (Child σ) :=
  children.map fun child => if child.pid = pid then changed else child

/-- `waitpid` may report this status for the child. -/
def Reports (child : Child σ) (status : WaitStatus) : Prop :=
  if status.terminates then child.phase = .zombie
  else child.phase.alive = true

instance (child : Child σ) (status : WaitStatus) :
    Decidable (Reports child status) := by
  unfold Reports
  infer_instance

/-! ## The steps of a child -/

/-- One step of a child, and what it writes. -/
def childMove (environment : Environment) (commandCount : ℕ)
    (shellGroup : Int) (children : List (Child σ)) (child : Child σ)
    (move : ChildMove) : Option (Child σ × List Notice) :=
  match move, child.phase with
  | .setGroup, .grouping =>
      match setpgid false shellGroup children child child.childPgid with
      | .ok moved => some ({ moved with phase := .resetting }, [])
      | .error _ => some (child.exited, [])
  | .resetSignals, .resetting =>
      some ({ child with phase := .configuring }, [])
  | .configure opens, .configuring =>
      match configureChildIo opens child.command child.index commandCount
          child.pipes child.table with
      | .ok (pipes, table) =>
          some
            ({ child with pipes := pipes, table := table, phase := .starting },
              [])
      | .error failure => some (child.exited, [.configureFailed failure])
  | .exec, .starting =>
      if reachesExec environment child.command then
        some ({ child with phase := .running, execed := true }, [])
      else
        none
  | .exit, phase => if phase.alive then some (child.exited, []) else none
  | .regroup group, .running =>
      match setpgid false shellGroup children child group with
      | .ok moved => some (moved, [])
      | .error _ => some (child, [])
  | _, _ => none

/-! ## The steps of the parent -/

/-- A return from `execute_pipeline`, which destroys the pipes. -/
def Machine.leave (machine : Machine σ) (result : ExecutionResult) :
    Machine σ :=
  { machine with
    phase := .returned result
    table := destroyPipes machine.pipes machine.table
    pipes := [] }

/-- `close_all_pipes` in the parent. -/
def Machine.closePipes (machine : Machine σ) : Machine σ :=
  { machine with
    pipes := (closeAllPipes machine.pipes machine.table).1
    table := (closeAllPipes machine.pipes machine.table).2 }

def Machine.notice (machine : Machine σ) (notice : Notice) : Machine σ :=
  { machine with notices := machine.notices ++ [notice] }

/-- The copy of the parent that `fork` creates. -/
def Machine.forked (machine : Machine σ) (pid : Int) (index : ℕ)
    (command : Command) : Child σ where
  pid := pid
  index := index
  command := command
  pgidAtFork := machine.pgid
  pgid := machine.shellGroup
  phase := .grouping
  execed := false
  pipes := machine.pipes
  table := machine.table

/-- The group of the pipeline behind the assignment in the fork loop. -/
def Machine.leader (machine : Machine σ) (pid : Int) : Int :=
  if machine.pgid = 0 then pid else machine.pgid

/-- The parent's call of `setpgid`; `EACCES` and `ESRCH` are tolerated. -/
def Machine.moveChild (machine : Machine σ) (pid group : Int) : Machine σ :=
  match findChild machine.children pid with
  | none => machine
  | some child =>
      match setpgid true machine.shellGroup machine.children child group with
      | .ok moved =>
          { machine with
            children := replaceChild machine.children pid moved }
      | .error .eperm => machine.notice .groupFailed
      | .error _ => machine

/-- The rest of the loop body in the parent. -/
def Machine.assignGroup (machine : Machine σ) (index : ℕ) (pid : Int) :
    Machine σ :=
  { machine.moveChild pid (machine.leader pid) with
    phase := .forking (index + 1)
    pgid := machine.leader pid
    pids := machine.pids ++ [pid] }

/-- `add_job` for the launched processes. -/
def Machine.addJob (machine : Machine σ) (pipeline : Pipeline) :
    Int × Machine σ :=
  let added :=
    machine.session.control.addJob machine.pgid machine.pids
      (machine.pids.getLastD 0) (formatPipeline pipeline)
  (added.1, { machine with session := machine.session.setControl added.2 })

/-- The steps of the parent that no answer of the kernel decides. -/
def parentStep (pipeline : Pipeline) (machine : Machine σ) :
    Option (Machine σ) :=
  match machine.phase with
  | .creating =>
      if machine.pipes.length + 1 < pipeline.commands.length then
        none
      else
        some { machine with phase := .forking 0 }
  | .forking index =>
      match pipeline.commands[index]? with
      | none => some { machine with phase := .closing }
      | some command =>
          if command.args = [] then
            some { machine with phase := .forking (index + 1) }
          else
            none
  | .grouping index pid => some (machine.assignGroup index pid)
  | .closing =>
      if machine.pids = [] then
        some (machine.closePipes.leave { status := 1 })
      else
        some { machine.closePipes with phase := .adding }
  | .adding =>
      let added := machine.addJob pipeline
      if pipeline.background then
        some ((added.2.notice (.started added.1 machine.pgid)).leave {})
      else
        some { added.2 with phase := .handing added.1 }
  | _ => none

/-- One answer to the calls of `waitpid` in `wait_foreground`. -/
def waitStep (machine : Machine σ) (id : Int) (result : WaitResult) :
    Option (Machine σ) :=
  match result, machine.session.control.findJob id with
  | .child pid status, some job =>
      match findChild machine.children pid with
      | none => none
      | some child =>
          if job.state = .running ∧ child.pgid = job.pgid ∧
              Reports child status then
            some
              { machine with
                session :=
                  machine.session.setControl
                    (machine.session.control.updateProcess pid status)
                children :=
                  if status.terminates then
                    replaceChild machine.children pid
                      { child with phase := .reaped }
                  else
                    machine.children }
          else
            none
  | .interrupted, some job =>
      if job.state = .running then some machine else none
  | _, _ => none

/-- The loop of `wait_foreground` ends. -/
def WaitEnds (machine : Machine σ) (id : Int) : Prop :=
  ∀ job ∈ machine.session.control.findJob id, job.state = .running →
    ∀ child ∈ machine.children,
      child.phase ≠ .reaped → child.pgid ≠ job.pgid

instance (machine : Machine σ) (id : Int) : Decidable (WaitEnds machine id) :=
  inferInstanceAs (Decidable (∀ job ∈ _, _))

/-- One step of the parent or of a child. -/
def machineStep (environment : Environment) (pipeline : Pipeline)
    (machine : Machine σ) (label : Label) : Option (Machine σ) :=
  match label, machine.phase with
  | .pipe succeeds, .creating =>
      if machine.pipes.length + 1 < pipeline.commands.length then
        if succeeds then
          let created := createPipe machine.pipes.length machine.table
          some
            { machine with
              pipes := machine.pipes ++ [created.1]
              table := created.2 }
        else
          some ((machine.notice .pipeFailed).leave { status := 1 })
      else
        none
  | .fork result, .forking index =>
      match pipeline.commands[index]? with
      | none => none
      | some command =>
          if command.args = [] then
            none
          else
            match result with
            | none =>
                -- `kill` with `SIGTERM` is one way for a child to end.
                some
                  ((machine.notice .forkFailed).closePipes.leave
                    { status := 1 })
            | some pid =>
                if Unused machine pid then
                  some
                    { machine with
                      phase := .grouping index pid
                      children :=
                        machine.children ++
                          [machine.forked pid index command] }
                else
                  none
  | .parent, _ => parentStep pipeline machine
  | .handOver answers, .handing id =>
      (machine.session.control.findJob id).map fun job =>
        { machine with
          phase := .waiting id
          session :=
            giveTerminalTo answers machine.session job.pgid
              (if job.hasTerminalModes then some job.terminalModes
              else none) }
  | .wait result, .waiting id => waitStep machine id result
  | .finish answers, .waiting id =>
      if WaitEnds machine id then
        (awaitJob { answers with waits := [.noChild] } id
            machine.session).map fun report =>
          { machine with session := report.2 }.leave { status := report.1 }
      else
        none
  | .child pid move, _ =>
      match findChild machine.children pid with
      | none => none
      | some child =>
          (childMove environment pipeline.commands.length machine.shellGroup
              machine.children child move).map fun moved =>
            { machine with
              children := replaceChild machine.children pid moved.1
              notices := machine.notices ++ moved.2 }
  | _, _ => none

/-! ## Everything a step can do -/

section Steps

variable (environment : Environment) (pipeline : Pipeline)

inductive ChildStep (shellGroup : Int) (children : List (Child σ))
    (child : Child σ) : ChildMove → Child σ → List Notice → Prop where
  | setGroup {moved : Child σ} (isGrouping : child.phase = .grouping)
      (succeeded :
        setpgid false shellGroup children child child.childPgid =
          .ok moved) :
      ChildStep shellGroup children child .setGroup
        { moved with phase := .resetting } []
  | setGroupFails {errno : Errno} (isGrouping : child.phase = .grouping)
      (failed :
        setpgid false shellGroup children child child.childPgid =
          .error errno) :
      ChildStep shellGroup children child .setGroup child.exited []
  | resetSignals (isResetting : child.phase = .resetting) :
      ChildStep shellGroup children child .resetSignals
        { child with phase := .configuring } []
  | configure {opens : OpenAnswers} {pipes : List PipePair}
      {table : Table (Description σ)}
      (isConfiguring : child.phase = .configuring)
      (configured :
        configureChildIo opens child.command child.index
          pipeline.commands.length child.pipes child.table =
            .ok (pipes, table)) :
      ChildStep shellGroup children child (.configure opens)
        { child with pipes := pipes, table := table, phase := .starting } []
  | configureFails {opens : OpenAnswers} {failure : ConfigureFailure}
      (isConfiguring : child.phase = .configuring)
      (failed :
        configureChildIo opens child.command child.index
          pipeline.commands.length child.pipes child.table =
            .error failure) :
      ChildStep shellGroup children child (.configure opens) child.exited
        [.configureFailed failure]
  | exec (isStarting : child.phase = .starting)
      (execs : reachesExec environment child.command = true) :
      ChildStep shellGroup children child .exec
        { child with phase := .running, execed := true } []
  | exit (isAlive : child.phase.alive = true) :
      ChildStep shellGroup children child .exit child.exited []
  | regroup {group : Int} {moved : Child σ}
      (isRunning : child.phase = .running)
      (succeeded :
        setpgid false shellGroup children child group = .ok moved) :
      ChildStep shellGroup children child (.regroup group) moved []
  | regroupFails {group : Int} {errno : Errno}
      (isRunning : child.phase = .running)
      (failed :
        setpgid false shellGroup children child group = .error errno) :
      ChildStep shellGroup children child (.regroup group) child []

inductive Step (machine : Machine σ) : Label → Machine σ → Prop where
  | createPipe (isCreating : machine.phase = .creating)
      (more : machine.pipes.length + 1 < pipeline.commands.length) :
      Step machine (.pipe true)
        { machine with
          pipes :=
            machine.pipes ++
              [(createPipe machine.pipes.length machine.table).1]
          table := (createPipe machine.pipes.length machine.table).2 }
  | pipeFails (isCreating : machine.phase = .creating)
      (more : machine.pipes.length + 1 < pipeline.commands.length) :
      Step machine (.pipe false)
        ((machine.notice .pipeFailed).leave { status := 1 })
  | beginForks (isCreating : machine.phase = .creating)
      (enough : ¬ machine.pipes.length + 1 < pipeline.commands.length) :
      Step machine .parent { machine with phase := .forking 0 }
  | skip {index : ℕ} {command : Command}
      (isForking : machine.phase = .forking index)
      (found : pipeline.commands[index]? = some command)
      (empty : command.args = []) :
      Step machine .parent { machine with phase := .forking (index + 1) }
  | forkFails {index : ℕ} {command : Command}
      (isForking : machine.phase = .forking index)
      (found : pipeline.commands[index]? = some command)
      (nonempty : command.args ≠ []) :
      Step machine (.fork none)
        ((machine.notice .forkFailed).closePipes.leave { status := 1 })
  | fork {index : ℕ} {command : Command} {pid : Int}
      (isForking : machine.phase = .forking index)
      (found : pipeline.commands[index]? = some command)
      (nonempty : command.args ≠ []) (unused : Unused machine pid) :
      Step machine (.fork (some pid))
        { machine with
          phase := .grouping index pid
          children :=
            machine.children ++ [machine.forked pid index command] }
  | endForks {index : ℕ} (isForking : machine.phase = .forking index)
      (past : pipeline.commands[index]? = none) :
      Step machine .parent { machine with phase := .closing }
  | assignGroup {index : ℕ} {pid : Int}
      (isGrouping : machine.phase = .grouping index pid) :
      Step machine .parent (machine.assignGroup index pid)
  | closeNone (isClosing : machine.phase = .closing)
      (nobody : machine.pids = []) :
      Step machine .parent (machine.closePipes.leave { status := 1 })
  | close (isClosing : machine.phase = .closing)
      (somebody : machine.pids ≠ []) :
      Step machine .parent { machine.closePipes with phase := .adding }
  | background (isAdding : machine.phase = .adding)
      (isBackground : pipeline.background = true) :
      Step machine .parent
        (((machine.addJob pipeline).2.notice
          (.started (machine.addJob pipeline).1 machine.pgid)).leave {})
  | foreground (isAdding : machine.phase = .adding)
      (isForeground : pipeline.background = false) :
      Step machine .parent
        { (machine.addJob pipeline).2 with
          phase := .handing (machine.addJob pipeline).1 }
  | handOver {id : Int} {job : Job} (answers : WaitAnswers)
      (isHanding : machine.phase = .handing id)
      (found : machine.session.control.findJob id = some job) :
      Step machine (.handOver answers)
        { machine with
          phase := .waiting id
          session :=
            giveTerminalTo answers machine.session job.pgid
              (if job.hasTerminalModes then some job.terminalModes
              else none) }
  | waitChild {id : Int} {job : Job} {child : Child σ}
      {status : WaitStatus}
      (isWaiting : machine.phase = .waiting id)
      (found : machine.session.control.findJob id = some job)
      (member : child ∈ machine.children)
      (inGroup : child.pgid = job.pgid)
      (reports : Reports child status) :
      Step machine (.wait (.child child.pid status))
        { machine with
          session :=
            machine.session.setControl
              (machine.session.control.updateProcess child.pid status)
          children :=
            if status.terminates then
              replaceChild machine.children child.pid
                { child with phase := .reaped }
            else
              machine.children }
  | waitInterrupted {id : Int} (isWaiting : machine.phase = .waiting id) :
      Step machine (.wait .interrupted) machine
  | finish {id : Int} {answers : WaitAnswers} {report : Int × Session}
      (isWaiting : machine.phase = .waiting id)
      (reported :
        awaitJob { answers with waits := [.noChild] } id machine.session =
          some report) :
      Step machine (.finish answers)
        ({ machine with session := report.2 }.leave { status := report.1 })
  | child {child moved : Child σ} {move : ChildMove} {notices : List Notice}
      (member : child ∈ machine.children)
      (stepped :
        ChildStep environment pipeline machine.shellGroup machine.children
          child move moved notices) :
      Step machine (.child child.pid move)
        { machine with
          children := replaceChild machine.children child.pid moved
          notices := machine.notices ++ notices }

variable {environment pipeline}

theorem findChild_mem {children : List (Child σ)} {pid : Int}
    {child : Child σ} (found : findChild children pid = some child) :
    child ∈ children ∧ child.pid = pid := by
  constructor
  · exact List.mem_of_find?_eq_some found
  · simpa using List.find?_some found

theorem childStep_of_childMove
    {shellGroup : Int} {children : List (Child σ)} {child moved : Child σ}
    {move : ChildMove} {notices : List Notice}
    (stepped :
      childMove environment pipeline.commands.length shellGroup children
        child move = some (moved, notices)) :
    ChildStep environment pipeline shellGroup children child move moved
      notices := by
  unfold childMove at stepped
  split at stepped
  · split at stepped
    · cases stepped
      exact .setGroup ‹_› ‹_›
    · cases stepped
      exact .setGroupFails ‹_› ‹_›
  · cases stepped
    exact .resetSignals ‹_›
  · split at stepped
    · cases stepped
      exact .configure ‹_› ‹_›
    · cases stepped
      exact .configureFails ‹_› ‹_›
  · split at stepped
    · cases stepped
      exact .exec ‹_› ‹_›
    · cases stepped
  · split at stepped
    · cases stepped
      exact .exit ‹_›
    · cases stepped
  · split at stepped
    · cases stepped
      exact .regroup ‹_› ‹_›
    · cases stepped
      exact .regroupFails ‹_› ‹_›
  · cases stepped

theorem step_of_parentStep
    {machine next : Machine σ}
    (stepped : parentStep pipeline machine = some next) :
    Step environment pipeline machine .parent next := by
  unfold parentStep at stepped
  split at stepped
  · split at stepped
    · cases stepped
    · cases stepped
      exact .beginForks ‹_› ‹_›
  · split at stepped
    · cases stepped
      exact .endForks ‹_› ‹_›
    · split at stepped
      · cases stepped
        exact .skip ‹_› ‹_› ‹_›
      · cases stepped
  · cases stepped
    exact .assignGroup ‹_›
  · split at stepped
    · cases stepped
      exact .closeNone ‹_› ‹_›
    · cases stepped
      exact .close ‹_› ‹_›
  · dsimp only at stepped
    split at stepped
    · cases stepped
      exact .background ‹_› ‹_›
    · rename_i isForeground
      cases stepped
      exact .foreground ‹_› (Bool.not_eq_true _ ▸ isForeground)
  · cases stepped

theorem step_of_waitStep
    {machine next : Machine σ} {id : Int} {result : WaitResult}
    (isWaiting : machine.phase = .waiting id)
    (stepped : waitStep machine id result = some next) :
    Step environment pipeline machine (.wait result) next := by
  unfold waitStep at stepped
  split at stepped
  · split at stepped
    · cases stepped
    · rename_i child found
      rcases findChild_mem found with ⟨member, rfl⟩
      split at stepped
      · rename_i allowed
        cases stepped
        exact .waitChild isWaiting ‹_› member allowed.2.1 allowed.2.2
      · cases stepped
  · split at stepped
    · cases stepped
      exact .waitInterrupted isWaiting
    · cases stepped
  · cases stepped

theorem step_of_launchStep
    {machine next : Machine σ} {label : Label}
    (stepped :
      machineStep environment pipeline machine label = some next) :
    Step environment pipeline machine label next := by
  unfold machineStep at stepped
  split at stepped
  · split at stepped
    · split at stepped
      · rename_i succeeds
        subst succeeds
        cases stepped
        exact .createPipe ‹_› ‹_›
      · rename_i fails
        rw [Bool.not_eq_true] at fails
        subst fails
        cases stepped
        exact .pipeFails ‹_› ‹_›
    · cases stepped
  · split at stepped
    · cases stepped
    · split at stepped
      · cases stepped
      · split at stepped
        · cases stepped
          exact .forkFails ‹_› ‹_› ‹_›
        · split at stepped
          · cases stepped
            exact .fork ‹_› ‹_› ‹_› ‹_›
          · cases stepped
  · exact step_of_parentStep stepped
  · rcases Option.map_eq_some_iff.mp stepped with ⟨job, found, rfl⟩
    exact .handOver _ ‹_› found
  · exact step_of_waitStep ‹_› stepped
  · split at stepped
    · rcases Option.map_eq_some_iff.mp stepped with ⟨report, reported, rfl⟩
      exact .finish ‹_› reported
    · cases stepped
  · split at stepped
    · cases stepped
    · rename_i child found
      rcases findChild_mem found with ⟨member, rfl⟩
      rcases Option.map_eq_some_iff.mp stepped with ⟨moved, isMove, rfl⟩
      exact .child member (childStep_of_childMove isMove)
  · cases stepped

/-! ## Where the children of the next state come from -/

theorem mem_replaceChild {children : List (Child σ)} {pid : Int}
    {changed child : Child σ}
    (member : child ∈ replaceChild children pid changed) :
    child = changed ∨ child ∈ children ∧ child.pid ≠ pid := by
  rcases List.mem_map.mp member with ⟨old, isOld, rfl⟩
  split
  · exact Or.inl rfl
  · exact Or.inr ⟨isOld, ‹_›⟩

theorem setpgid_ok {byParent : Bool} {shellGroup : Int}
    {children : List (Child σ)} {child moved : Child σ} {group : Int}
    (succeeded :
      setpgid byParent shellGroup children child group = .ok moved) :
    moved = { child with pgid := group } := by
  unfold setpgid at succeeded
  split at succeeded
  · cases succeeded
  · split at succeeded
    · cases succeeded
      rfl
    · cases succeeded

/-- What the parent's `setpgid` leaves alone, and what it may change. -/
theorem moveChild_cases (machine : Machine σ) (pid group : Int) :
    (∃ notices,
        machine.moveChild pid group = { machine with notices := notices }) ∨
      ∃ child ∈ machine.children,
        child.pid = pid ∧
          machine.moveChild pid group =
            { machine with
              children :=
                replaceChild machine.children pid
                  { child with pgid := group } } := by
  unfold Machine.moveChild
  split
  · exact Or.inl ⟨machine.notices, rfl⟩
  · rename_i child found
    rcases findChild_mem found with ⟨member, samePid⟩
    split
    · rename_i succeeded
      rw [setpgid_ok succeeded]
      exact Or.inr ⟨child, member, samePid, rfl⟩
    · exact Or.inl ⟨machine.notices ++ [.groupFailed], rfl⟩
    · exact Or.inl ⟨machine.notices, rfl⟩

/-- What grouping a child leaves alone. -/
theorem assignGroup_fields (machine : Machine σ) (index : ℕ) (pid : Int) :
    ∃ children notices,
      machine.assignGroup index pid =
        { machine with
          phase := .forking (index + 1)
          pgid := machine.leader pid
          pids := machine.pids ++ [pid]
          children := children
          notices := notices } := by
  unfold Machine.assignGroup
  rcases moveChild_cases machine pid (machine.leader pid) with
    ⟨notices, same⟩ | ⟨child, member, samePid, changed⟩
  · rw [same]
    exact ⟨machine.children, notices, rfl⟩
  · rw [changed]
    exact ⟨_, machine.notices, rfl⟩

variable (environment pipeline) in
/-- A child behind a step was there before, is new, or has changed. -/
inductive ChildSource (machine : Machine σ) (label : Label)
    (child : Child σ) : Prop where
  | kept (member : child ∈ machine.children)
  | forked {index : ℕ} {command : Command} {pid : Int}
      (isForking : machine.phase = .forking index)
      (found : pipeline.commands[index]? = some command)
      (nonempty : command.args ≠ []) (unused : Unused machine pid)
      (isNew : child = machine.forked pid index command)
  | moved {index : ℕ} {old : Child σ}
      (isGrouping : machine.phase = .grouping index old.pid)
      (member : old ∈ machine.children)
      (isMoved : child = { old with pgid := machine.leader old.pid })
  | stepped {old : Child σ} {move : ChildMove} {notices : List Notice}
      (isLabel : label = .child old.pid move)
      (member : old ∈ machine.children)
      (moves :
        ChildStep environment pipeline machine.shellGroup machine.children
          old move child notices)
  | reaped {id : Int} {old : Child σ}
      (isWaiting : machine.phase = .waiting id)
      (member : old ∈ machine.children) (isZombie : old.phase = .zombie)
      (isReaped : child = { old with phase := .reaped })

theorem Step.child_source
    {machine next : Machine σ} {label : Label}
    (stepped : Step environment pipeline machine label next)
    {child : Child σ} (member : child ∈ next.children) :
    ChildSource environment pipeline machine label child := by
  cases stepped with
  | fork isForking found nonempty unused =>
      rcases List.mem_append.mp member with old | new
      · exact .kept old
      · exact .forked isForking found nonempty unused
          (List.mem_singleton.mp new)
  | assignGroup isGrouping =>
      rename_i index pid
      change child ∈ (machine.moveChild pid (machine.leader pid)).children
        at member
      rcases moveChild_cases machine pid (machine.leader pid) with
        ⟨notices, same⟩ | ⟨old, isOld, rfl, changed⟩
      · rw [same] at member
        exact .kept member
      · rw [changed] at member
        rcases mem_replaceChild member with isMoved | unmoved
        · exact .moved isGrouping isOld isMoved
        · exact .kept unmoved.1
  | waitChild isWaiting found isOld inGroup reports =>
      dsimp only at member
      split at member
      · rename_i terminates
        rw [Reports, if_pos terminates] at reports
        rcases mem_replaceChild member with isReaped | unchanged
        · exact .reaped isWaiting isOld reports isReaped
        · exact .kept unchanged.1
      · exact .kept member
  | child isOld moves =>
      rcases mem_replaceChild member with rfl | unchanged
      · exact .stepped rfl isOld moves
      · exact .kept unchanged.1
  | _ => exact .kept member

end Steps

/-! ## The system -/

/-- The shell at the start of the fork path, with its own descriptors. -/
structure Started (shell : Table σ) (machine : Machine σ) : Prop where
  phase : machine.phase = .creating
  pipes : machine.pipes = []
  table : machine.table = shell.map .inherited
  pgid : machine.pgid = 0
  pids : machine.pids = []
  children : machine.children = []
  newId :
    ∀ job ∈ machine.session.control.jobs,
      job.id < machine.session.control.nextJobId

/-- Every launch of a pipeline from a shell with the given descriptors. -/
def launchSystem (environment : Environment) (pipeline : Pipeline)
    (shell : Table σ) : System (Machine σ) Label where
  initial machine := Forks pipeline ∧ Started shell machine
  step := machineStep environment pipeline

/-! The start of `cat < in | wc` in an interactive shell. -/

def sampleShell : Table ℕ where
  lookup fd := if fd < 3 then some fd else none
  bounded := ⟨3, fun _ above => if_neg (Nat.not_lt.mpr above)⟩

def samplePipeline : Pipeline where
  commands :=
    [{ args := [literal "cat"]
       inputFile := literal "in"
       hasInputRedirect := true },
     { args := [literal "wc"] }]

def sampleEnvironment : Environment where
  findExecutable name := literal "/usr/bin/" ++ name
  resourceRunExecs _ := true

def sampleStart : Machine ℕ where
  shellGroup := 7
  phase := .creating
  pipes := []
  table := sampleShell.map .inherited
  pgid := 0
  pids := []
  children := []
  session := ⟨{ interactive := true, shellPgid := 7 }, ⟨7, {}⟩, [], []⟩
  notices := []

theorem sampleStart_initial :
    (launchSystem sampleEnvironment samplePipeline sampleShell).initial
      sampleStart := by
  refine ⟨⟨by decide, by decide⟩, rfl, rfl, rfl, rfl, rfl, rfl, ?_⟩
  simp [sampleStart]

end Shell.LaunchMachine
