import Mathlib.Algebra.Order.BigOperators.Group.List
import Mathlib.Algebra.Order.Group.Nat
import Shell.Executor.ProcessGroups
import Shell.Executor.Wiring

/-!
# Who owns the terminal when a program starts

Only the parent hands the terminal over, in `wait_foreground`, when all
children have been forked.  A child does not wait for it: it may call `exec`
as soon as its own descriptors are configured.  A program therefore owns the
terminal when it starts if and only if the parent has reached the loop of
`wait_foreground` by then, and for every pipeline with a stage that calls
`exec` there is a schedule in which the program starts before that.
-/

namespace Shell.TerminalHandoff

open Shell.Syntax
open Shell.DescriptorTable
open Shell.Descriptors
open Shell.FirstMatch
open Shell.JobTable
open Shell.JobOperations
open Shell.LaunchMachine
open Shell.ProcessGroups
open Shell.TransitionSystem
open Shell.Wiring

variable {σ : Type*} {environment : Environment} {pipeline : Pipeline}

/-! ## The terminal in each phase -/

/-- The shell controls the terminal, and job control knows its group. -/
def Interactive (machine : Machine σ) : Prop :=
  machine.session.control.interactive = true ∧
    machine.session.control.shellPgid = machine.shellGroup

/-- No program changes its group and no call of `tcsetpgrp` fails. -/
def Ordinary : Label → Prop
  | .child _ (.regroup _) => False
  | .handOver answers => answers.givesGroup = true
  | .finish answers => answers.reclaimsGroup = true
  | _ => True

theorem Ordinary.keeps {label : Label} (ordinary : Ordinary label) :
    ¬ ChangesGroup label := by
  intro changes
  unfold ChangesGroup at changes
  split at changes
  · exact ordinary
  · exact changes

def foreground (machine : Machine σ) : Int :=
  machine.session.terminal.foregroundGroup

/-- The terminal belongs to the pipeline while the parent waits for it, and to
the shell otherwise. -/
def Owned (machine : Machine σ) : Prop :=
  match machine.phase with
  | .waiting _ =>
      Interactive machine ∧ foreground machine = machine.pgid
  | .returned _ => foreground machine = machine.shellGroup
  | _ => Interactive machine ∧ foreground machine = machine.shellGroup

theorem giveTerminalTo_foreground
    {answers : WaitAnswers} {session : Session}
    (interactive : session.control.interactive = true)
    (gives : answers.givesGroup = true) (pgid : Int)
    (modes : Option Termios) :
    (giveTerminalTo answers session pgid modes).terminal.foregroundGroup =
      pgid := by
  simp [giveTerminalTo, interactive, Terminal.set, gives]

theorem waitLoop_noChild (id : Int) (control : JobControl) :
    waitLoop id [.noChild] control = some control := by
  rw [waitLoop.eq_def]
  dsimp only
  split
  · rfl
  · split <;> rfl

theorem saveModes_terminal (answers : WaitAnswers) (id : Int)
    (session : Session) :
    (saveModes answers id session).terminal = session.terminal ∧
      (saveModes answers id session).control.interactive =
        session.control.interactive ∧
      (saveModes answers id session).control.shellPgid =
        session.control.shellPgid := by
  unfold saveModes
  split
  · exact ⟨rfl, rfl, rfl⟩
  · split <;> exact ⟨rfl, rfl, rfl⟩

theorem reportWait_terminal (id : Int) (session : Session) :
    (reportWait id session).2.terminal = session.terminal := by
  unfold reportWait
  split
  · rfl
  · split <;> rfl

/-- The end of `wait_foreground` gives the terminal back to the shell. -/
theorem awaitJob_foreground
    {answers : WaitAnswers} {id : Int} {session : Session}
    {report : Int × Session}
    (interactive : session.control.interactive = true)
    (reclaims : answers.reclaimsGroup = true)
    (reported :
      awaitJob { answers with waits := [.noChild] } id session =
        some report) :
    report.2.terminal.foregroundGroup = session.control.shellPgid := by
  rw [awaitJob, waitLoop_noChild, Option.map_some] at reported
  cases reported
  rw [reportWait_terminal]
  unfold reclaimTerminal
  rw [(saveModes_terminal _ _ _).2.1, if_pos interactive]
  simp [Terminal.set, reclaims, (saveModes_terminal _ _ _).2.2]

theorem step_owned
    {machine next : Machine σ} {label : Label}
    (registered : Registered machine) (holds : Owned machine)
    (ordinary : Ordinary label)
    (stepped : Step environment pipeline machine label next) :
    Owned next := by
  unfold Owned at holds
  cases stepped with
  | createPipe phase more =>
      rw [Owned, phase]
      rw [phase] at holds
      exact holds
  | pipeFails phase more | forkFails phase found nonempty
  | closeNone phase nobody | background phase isBackground =>
      rw [phase] at holds
      exact holds.2
  | beginForks phase enough | skip phase found empty
  | fork phase found nonempty unused | endForks phase past
  | close phase somebody | foreground phase isForeground =>
      rw [phase] at holds
      exact holds
  | assignGroup phase =>
      rename_i index pid
      rw [phase] at holds
      rcases assignGroup_fields machine index pid with
        ⟨children, notices, assigned⟩
      rw [assigned]
      exact holds
  | handOver answers phase found =>
      have samePgid := registered_pgid registered
        (by rw [phase]; rfl : awaited machine.phase = some _) found
      rw [phase] at holds
      constructor
      · rw [Interactive, giveTerminalTo_control]
        exact holds.1
      · exact (giveTerminalTo_foreground holds.1.1 ordinary _ _).trans
          samePgid
  | waitChild phase found member inGroup reports =>
      rw [phase] at holds
      rw [Owned, phase]
      exact holds
  | waitInterrupted phase => exact holds
  | finish phase reported =>
      rw [phase] at holds
      exact (awaitJob_foreground holds.1.1 ordinary reported).trans
        holds.1.2
  | child member moves => exact holds

/-! ## Where a child comes from -/

/-- A child runs a command of the pipeline under a pid of its own. -/
structure Origin (pipeline : Pipeline) (shellGroup : Int)
    (child : Child σ) : Prop where
  pid : child.pid ≠ shellGroup
  command : child.command ∈ pipeline.commands
  nonempty : child.command.args ≠ []

theorem step_shellGroup
    {machine next : Machine σ} {label : Label}
    (stepped : Step environment pipeline machine label next) :
    next.shellGroup = machine.shellGroup := by
  cases stepped with
  | assignGroup phase =>
      rename_i index pid
      rcases assignGroup_fields machine index pid with
        ⟨children, notices, assigned⟩
      rw [assigned]
  | _ => rfl

theorem step_origin
    {machine next : Machine σ} {label : Label}
    (holds :
      ∀ child ∈ machine.children,
        Origin pipeline machine.shellGroup child)
    (stepped : Step environment pipeline machine label next) :
    ∀ child ∈ next.children, Origin pipeline next.shellGroup child := by
  intro child member
  rw [step_shellGroup stepped]
  cases stepped.child_source member with
  | kept isOld => exact holds child isOld
  | forked isForking found nonempty unused isNew =>
      subst isNew
      refine ⟨?_, List.mem_of_getElem? found, nonempty⟩
      exact List.ne_of_not_mem_cons unused.noGroup
  | moved isGrouping isOld isMoved =>
      have origin := holds _ isOld
      subst isMoved
      exact ⟨origin.pid, origin.command, origin.nonempty⟩
  | stepped isLabel isOld moves =>
      have origin := holds _ isOld
      rcases childStep_fixed moves with ⟨samePid, sameCommand⟩
      refine ⟨?_, ?_, ?_⟩
      · rw [samePid]
        exact origin.pid
      · rw [sameCommand]
        exact origin.command
      · rw [sameCommand]
        exact origin.nonempty
  | reaped isWaiting isOld isZombie isReaped =>
      have origin := holds _ isOld
      subst isReaped
      exact ⟨origin.pid, origin.command, origin.nonempty⟩

/-! ## Runs of an interactive shell -/

/-- An interactive shell that owns the terminal, at the start of the fork path
and with its standard descriptors open. -/
structure AtPrompt (environment : Environment) (pipeline : Pipeline)
    (shell : Table σ) (start : Machine σ) : Prop where
  initial : (launchSystem environment pipeline shell).initial start
  standard : ∀ fd, fd < 3 → shell.lookup fd ≠ none
  interactive : Interactive start
  owns : foreground start = start.shellGroup

/-- A state of a run in which all labels are ordinary. -/
def Reached (environment : Environment) (pipeline : Pipeline)
    (shell : Table σ) (start machine : Machine σ) : Prop :=
  ∃ labels : List Label,
    (∀ label ∈ labels, Ordinary label) ∧
      (launchSystem environment pipeline shell).run start labels =
        some machine

section Runs

variable {shell : Table σ} {start machine : Machine σ}

theorem Reached.refl (start : Machine σ) :
    Reached environment pipeline shell start start :=
  ⟨[], fun _ member => absurd member List.not_mem_nil, rfl⟩

theorem Reached.step
    (reached : Reached environment pipeline shell start machine)
    (label : Label) (ordinary : Ordinary label) {next : Machine σ}
    (stepped :
      machineStep environment pipeline machine label = some next) :
    Reached environment pipeline shell start next := by
  rcases reached with ⟨labels, all, ran⟩
  refine ⟨labels ++ [label], ?_, ?_⟩
  · intro other member
    rcases List.mem_append.mp member with earlier | last
    · exact all other earlier
    · rw [List.mem_singleton.mp last]
      exact ordinary
  · exact System.run_append.mpr
      ⟨machine, ran, System.run_cons.mpr ⟨next, stepped, rfl⟩⟩

variable (atPrompt : AtPrompt environment pipeline shell start)
variable (reached : Reached environment pipeline shell start machine)

include atPrompt reached

theorem reached_reachable :
    (launchSystem environment pipeline shell).Reachable machine := by
  rcases reached with ⟨labels, _, ran⟩
  exact ⟨start, labels, atPrompt.initial, ran⟩

theorem reached_grouped : Grouped machine := by
  rcases reached with ⟨labels, all, ran⟩
  exact run_grouped atPrompt.initial ran fun label member =>
    (all label member).keeps

theorem reached_holds :
    LaunchHolds (shell.map .inherited) pipeline machine :=
  reachable_holds (standardOpen_inherited atPrompt.standard)
    (reached_reachable atPrompt reached)

theorem reached_origin :
    ∀ child ∈ machine.children,
      Origin pipeline machine.shellGroup child := by
  apply (reached_reachable atPrompt reached).invariant fun machine =>
    ∀ child ∈ machine.children, Origin pipeline machine.shellGroup child
  · rintro start ⟨forks, started⟩
    rw [started.children]
    exact fun _ member => absurd member List.not_mem_nil
  · intro machine label next holds stepped
    exact step_origin holds (step_of_launchStep stepped)

theorem reached_owned : Owned machine := by
  rcases reached with ⟨labels, all, ran⟩
  have started := atPrompt.initial.2
  have both :=
    System.run_preserves_allowed
      (fun machine => Registered machine ∧ Owned machine) Ordinary
      (fun holds ordinary stepped =>
        ⟨step_registered holds.1 (step_of_launchStep stepped),
          step_owned holds.1 holds.2 ordinary (step_of_launchStep stepped)⟩)
      (by
        rw [Registered, Owned, started.phase]
        exact ⟨started.newId, atPrompt.interactive, atPrompt.owns⟩)
      all ran
  exact both.2

/-- With a child in the pipeline, the terminal belongs to the group of the
pipeline exactly while the parent waits for it. -/
theorem reached_foreground_iff
    (somebody : machine.children ≠ []) :
    foreground machine = firstPid machine ↔
      ∃ id, machine.phase = .waiting id := by
  have owned := reached_owned atPrompt reached
  have grouped := reached_grouped atPrompt reached
  have origin := reached_origin atPrompt reached
  have registered :=
    (reachable_registered (reached_reachable atPrompt reached)).2
  have foreign : firstPid machine ≠ machine.shellGroup := by
    rcases List.exists_cons_of_ne_nil somebody with ⟨first, others, all⟩
    rw [firstPid, childPids, all]
    exact (origin first (all ▸ List.mem_cons_self)).pid
  unfold Owned at owned
  cases phase : machine.phase with
  | waiting id =>
      have attends : Attends machine.phase := by
        rw [phase]
        trivial
      have samePgid :=
        grouped.pgid_eq_firstPid (registered_somebody registered attends)
      rw [phase] at owned
      rw [owned.2, samePgid]
      exact ⟨fun _ => ⟨id, rfl⟩, fun _ => rfl⟩
  | creating | forking | grouping | closing | adding | handing =>
      rw [phase] at owned
      rw [owned.2]
      constructor
      · exact fun same => absurd same.symm foreign
      · rintro ⟨id, waits⟩
        cases waits
  | returned result =>
      rw [phase] at owned
      rw [owned]
      constructor
      · exact fun same => absurd same.symm foreign
      · rintro ⟨id, waits⟩
        cases waits

end Runs

/-! ## A schedule that starts a program early -/

/-- The kernel always has a pid left. -/
theorem exists_unused (machine : Machine σ) : ∃ pid, Unused machine pid := by
  let used : List Int :=
    machine.children.map Child.pid ++
      machine.shellGroup :: foreground machine ::
        machine.children.map Child.pgid
  have above :
      ∀ other ∈ used, other < ((used.map Int.natAbs).sum : Int) + 1 := by
    intro other member
    have bound : other.natAbs ≤ (used.map Int.natAbs).sum :=
      List.le_sum_of_mem (List.mem_map_of_mem member)
    omega
  have isNew : ((used.map Int.natAbs).sum : Int) + 1 ∉ used := by
    intro member
    exact lt_irrefl _ (above _ member)
  refine ⟨((used.map Int.natAbs).sum : Int) + 1, by omega, ?_, ?_⟩
  · intro isPid
    exact isNew (List.mem_append_left _ isPid)
  · intro isGroup
    exact isNew (List.mem_append_right _ isGroup)

/-- A child's own call succeeds if its group is there to be joined. -/
theorem setpgid_bySelf
    {shellGroup : Int} {children : List (Child σ)} {child : Child σ}
    {group : Int}
    (joinable :
      group = child.pid ∨ GroupExists shellGroup children group) :
    setpgid false shellGroup children child group =
      .ok { child with pgid := group } := by
  simp [setpgid, joinable]

/-- A move of a child is a step of the machine. -/
theorem child_steps
    {machine : Machine σ} (grouped : Grouped machine) {child moved : Child σ}
    (member : child ∈ machine.children) {move : ChildMove}
    {notices : List Notice}
    (moves :
      childMove environment pipeline.commands.length machine.shellGroup
        machine.children child move = some (moved, notices)) :
    ∃ next,
      machineStep environment pipeline machine (.child child.pid move) =
          some next ∧
        moved ∈ next.children ∧ next.phase = machine.phase := by
  have found : findChild machine.children child.pid = some child :=
    find?_key_of_mem grouped.distinct member
  refine ⟨{ machine with
    children := replaceChild machine.children child.pid moved
    notices := machine.notices ++ notices }, ?_, ?_, rfl⟩
  · simp only [machineStep, found, moves, Option.map_some]
  · exact List.mem_map.mpr ⟨child, member, if_pos rfl⟩

theorem fork_steps
    {machine : Machine σ} {index : ℕ}
    (isForking : machine.phase = .forking index) {command : Command}
    (found : pipeline.commands[index]? = some command)
    (nonempty : command.args ≠ []) {pid : Int}
    (unused : Unused machine pid) :
    machineStep environment pipeline machine (.fork (some pid)) =
      some
        { machine with
          phase := .grouping index pid
          children :=
            machine.children ++ [machine.forked pid index command] } := by
  simp only [machineStep, isForking, found]
  rw [if_neg nonempty, if_pos unused]

/-- A stage is forked and grouped, or has nothing to run. -/
theorem reach_next
    {shell : Table σ} {start machine : Machine σ}
    (reached : Reached environment pipeline shell start machine)
    {index : ℕ} (isForking : machine.phase = .forking index)
    {command : Command}
    (found : pipeline.commands[index]? = some command) :
    ∃ next,
      Reached environment pipeline shell start next ∧
        next.phase = .forking (index + 1) := by
  by_cases empty : command.args = []
  · refine ⟨{ machine with phase := .forking (index + 1) },
      reached.step .parent trivial ?_, rfl⟩
    simp only [machineStep, parentStep, isForking, found]
    rw [if_pos empty]
  · rcases exists_unused machine with ⟨pid, unused⟩
    have forked := reached.step (.fork (some pid)) trivial
      (fork_steps isForking found empty unused)
    exact ⟨_, forked.step .parent trivial rfl, rfl⟩

/-- Some child of the machine runs the command and is in the phase. -/
def HasChild (machine : Machine σ) (phase : ChildPhase)
    (command : Command) : Prop :=
  ∃ child ∈ machine.children,
    child.phase = phase ∧ child.command = command

section Schedule

variable {shell : Table σ} {start machine : Machine σ}
variable (atPrompt : AtPrompt environment pipeline shell start)

include atPrompt

/-- Some run has created any number of the pipes. -/
theorem reach_creating
    (count : ℕ) (atMost : count + 1 ≤ pipeline.commands.length) :
    ∃ machine,
      Reached environment pipeline shell start machine ∧
        machine.phase = .creating ∧ machine.pipes.length = count := by
  induction count with
  | zero =>
      have started := atPrompt.initial.2
      refine ⟨start, Reached.refl start, started.phase, ?_⟩
      rw [started.pipes, List.length_nil]
  | succ count induction =>
      rcases induction (by omega) with
        ⟨machine, reached, isCreating, created⟩
      refine ⟨{ machine with
        pipes :=
          machine.pipes ++
            [(createPipe machine.pipes.length machine.table).1]
        table := (createPipe machine.pipes.length machine.table).2 },
        reached.step (.pipe true) trivial ?_, isCreating, ?_⟩
      · simp only [machineStep, isCreating]
        rw [if_pos (by omega), if_pos trivial]
      · rw [List.length_append, created, List.length_singleton]

/-- Some run has reached any stage of the fork loop. -/
theorem reach_forking
    (index : ℕ) (inRange : index < pipeline.commands.length) :
    ∃ machine,
      Reached environment pipeline shell start machine ∧
        machine.phase = .forking index := by
  induction index with
  | zero =>
      rcases reach_creating atPrompt (pipeline.commands.length - 1)
        (by omega) with ⟨machine, reached, isCreating, created⟩
      refine ⟨{ machine with phase := .forking 0 },
        reached.step .parent trivial ?_, rfl⟩
      simp only [machineStep, parentStep, isCreating]
      rw [if_neg (by omega)]
  | succ index induction =>
      rcases induction (by omega) with ⟨machine, reached, isForking⟩
      exact reach_next reached isForking
        (List.getElem?_eq_getElem (by omega : index < _))

/-- A run goes on with a move of a child. -/
theorem reach_move
    (reached : Reached environment pipeline shell start machine)
    {child moved : Child σ} (member : child ∈ machine.children)
    {move : ChildMove} {notices : List Notice}
    (moves :
      childMove environment pipeline.commands.length machine.shellGroup
        machine.children child move = some (moved, notices))
    (ordinary : Ordinary (.child child.pid move)) :
    ∃ next,
      Reached environment pipeline shell start next ∧
        moved ∈ next.children ∧ next.phase = machine.phase := by
  rcases child_steps (reached_grouped atPrompt reached) member moves with
    ⟨next, stepped, isMember, samePhase⟩
  exact ⟨next, reached.step _ ordinary stepped, isMember, samePhase⟩

/-- A child that can join its group does so. -/
theorem reach_resetting
    (reached : Reached environment pipeline shell start machine)
    {child : Child σ} (member : child ∈ machine.children)
    (isGrouping : child.phase = .grouping) {index : ℕ}
    (isForked : machine.phase = .grouping index child.pid) :
    ∃ next,
      Reached environment pipeline shell start next ∧
        HasChild next .resetting child.command ∧
        next.phase = machine.phase := by
  have grouped := reached_grouped atPrompt reached
  have joined := setpgid_bySelf (grouped.joinable child isForked)
  rw [← (grouped.members child member).wanted] at joined
  have moves :
      childMove environment pipeline.commands.length machine.shellGroup
          machine.children child .setGroup =
        some
          ({ child with pgid := child.childPgid, phase := .resetting },
            []) := by
    simp only [childMove, isGrouping, joined]
  rcases reach_move atPrompt reached member moves trivial with
    ⟨next, further, isMember, samePhase⟩
  exact ⟨next, further, ⟨_, isMember, rfl, rfl⟩, samePhase⟩

theorem reach_configuring
    (reached : Reached environment pipeline shell start machine)
    {command : Command} (hasChild : HasChild machine .resetting command) :
    ∃ next,
      Reached environment pipeline shell start next ∧
        HasChild next .configuring command ∧
        next.phase = machine.phase := by
  rcases hasChild with ⟨child, member, isResetting, rfl⟩
  have moves :
      childMove environment pipeline.commands.length machine.shellGroup
          machine.children child .resetSignals =
        some ({ child with phase := .configuring }, []) := by
    simp only [childMove, isResetting]
  rcases reach_move atPrompt reached member moves trivial with
    ⟨next, further, isMember, samePhase⟩
  exact ⟨next, further, ⟨_, isMember, rfl, rfl⟩, samePhase⟩

/-- `configure_child_io` returns if all redirections can be opened. -/
theorem reach_configured
    (reached : Reached environment pipeline shell start machine)
    {command : Command} (hasChild : HasChild machine .configuring command) :
    ∃ next,
      Reached environment pipeline shell start next ∧
        HasChild next .starting command ∧ next.phase = machine.phase := by
  rcases hasChild with ⟨child, member, isConfiguring, rfl⟩
  have succeeds : OpenAnswers.Succeed {} child.command :=
    ⟨fun _ => rfl, fun _ => rfl, fun _ => rfl⟩
  have holds := (reached_holds atPrompt reached).2 child member
  rcases holds.configure (standardOpen_inherited atPrompt.standard)
    isConfiguring succeeds with
    ⟨pipes, table, configured, wired⟩
  have moves :
      childMove environment pipeline.commands.length machine.shellGroup
          machine.children child (.configure {}) =
        some
          ({ child with pipes := pipes, table := table, phase := .starting },
            []) := by
    simp only [childMove, isConfiguring, configured]
  rcases reach_move atPrompt reached member moves trivial with
    ⟨next, further, isMember, samePhase⟩
  exact ⟨next, further, ⟨_, isMember, rfl, rfl⟩, samePhase⟩

/-- Some run has a child of any stage ready to start while the parent is
still in the fork loop. -/
theorem reach_starting
    {index : ℕ} {command : Command}
    (found : pipeline.commands[index]? = some command)
    (nonempty : command.args ≠ []) :
    ∃ machine pid,
      Reached environment pipeline shell start machine ∧
        machine.phase = .grouping index pid ∧
        HasChild machine .starting command := by
  have inRange := (List.getElem?_eq_some_iff.mp found).1
  rcases reach_forking atPrompt index inRange with
    ⟨machine, reached, isForking⟩
  rcases exists_unused machine with ⟨pid, unused⟩
  have forked := reached.step (.fork (some pid)) trivial
    (fork_steps isForking found nonempty unused)
  have isMember :
      machine.forked pid index command ∈
        machine.children ++ [machine.forked pid index command] :=
    List.mem_append_right _ List.mem_cons_self
  rcases reach_resetting atPrompt forked isMember rfl rfl with
    ⟨second, reached₂, resetting, phase₂⟩
  rcases reach_configuring atPrompt reached₂ resetting with
    ⟨third, reached₃, configuring, phase₃⟩
  rcases reach_configured atPrompt reached₃ configuring with
    ⟨fourth, reached₄, starting, phase₄⟩
  exact ⟨fourth, pid, reached₄, phase₄.trans (phase₃.trans phase₂), starting⟩

end Schedule

/-! ## The terminal at `exec` -/

/-- The child with the pid calls `exec` in this state. -/
def Execs (environment : Environment) (pipeline : Pipeline)
    (machine : Machine σ) (pid : Int) : Prop :=
  (machineStep environment pipeline machine (.child pid .exec)).isSome

/-- Every program of every run starts with the terminal in its group. -/
def StartsWithTerminal (environment : Environment) (pipeline : Pipeline)
    (shell : Table σ) (start : Machine σ) : Prop :=
  ∀ machine pid, Reached environment pipeline shell start machine →
    Execs environment pipeline machine pid →
      foreground machine = firstPid machine

theorem Execs.child
    {machine : Machine σ} {pid : Int}
    (execs : Execs environment pipeline machine pid) :
    ∃ child ∈ machine.children,
      child.phase = .starting ∧
        reachesExec environment child.command = true := by
  rcases Option.isSome_iff_exists.mp execs with ⟨next, stepped⟩
  cases step_of_launchStep stepped with
  | child member moves =>
      cases moves with
      | exec isStarting reaches => exact ⟨_, member, isStarting, reaches⟩

theorem execs_of_starting
    {machine : Machine σ} (grouped : Grouped machine) {command : Command}
    (starting : HasChild machine .starting command)
    (reaches : reachesExec environment command = true) :
    ∃ pid, Execs environment pipeline machine pid := by
  rcases starting with ⟨child, member, isStarting, rfl⟩
  have moves :
      childMove environment pipeline.commands.length machine.shellGroup
          machine.children child .exec =
        some ({ child with phase := .running, execed := true }, []) := by
    simp only [childMove, isStarting, reaches, if_true]
  rcases child_steps grouped member moves with ⟨next, stepped, _, _⟩
  exact ⟨child.pid, Option.isSome_iff_exists.mpr ⟨next, stepped⟩⟩

/--
A program that starts owns the terminal if and only if the parent is in the
loop of `wait_foreground`; so it does in every run if and only if no stage of
the pipeline calls `exec`.
-/
theorem exec_owns_terminal_iff
    {shell : Table σ} {start : Machine σ}
    (atPrompt : AtPrompt environment pipeline shell start) :
    (∀ machine pid, Reached environment pipeline shell start machine →
      Execs environment pipeline machine pid →
        (foreground machine = firstPid machine ↔
          ∃ id, machine.phase = .waiting id)) ∧
    (StartsWithTerminal environment pipeline shell start ↔
      ∀ command ∈ pipeline.commands,
        command.args ≠ [] → reachesExec environment command = false) := by
  have atExec :
      ∀ machine pid, Reached environment pipeline shell start machine →
        Execs environment pipeline machine pid →
          (foreground machine = firstPid machine ↔
            ∃ id, machine.phase = .waiting id) := by
    intro machine pid reached execs
    rcases execs.child with ⟨child, member, _⟩
    exact reached_foreground_iff atPrompt reached
      (List.ne_nil_of_mem member)
  refine ⟨atExec, ?_, ?_⟩
  · intro always command isCommand nonempty
    by_contra reaches
    rw [Bool.not_eq_false] at reaches
    rcases List.getElem?_of_mem isCommand with ⟨index, found⟩
    rcases reach_starting atPrompt found nonempty with
      ⟨machine, pid, reached, phase, starting⟩
    rcases execs_of_starting (reached_grouped atPrompt reached) starting
      reaches with ⟨execing, execs⟩
    rcases (atExec machine execing reached execs).mp
      (always machine execing reached execs) with ⟨id, waits⟩
    rw [phase] at waits
    cases waits
  · intro never machine pid reached execs
    rcases execs.child with ⟨child, member, _, reaches⟩
    have origin := reached_origin atPrompt reached child member
    rw [never child.command origin.command origin.nonempty] at reaches
    cases reaches

/-! ## A program that starts without the terminal -/

/-- The foreground pipeline `cat`. -/
def catPipeline : Pipeline where
  commands := [{ args := [literal "cat"] }]

theorem sampleStart_atPrompt :
    AtPrompt sampleEnvironment catPipeline sampleShell sampleStart where
  initial := by
    refine ⟨⟨by decide, by decide⟩, sampleStart_initial.2⟩
  standard := by decide
  interactive := ⟨rfl, rfl⟩
  owns := rfl

theorem exec_owns_terminal_iff_cat :
    ¬ StartsWithTerminal sampleEnvironment catPipeline sampleShell
      sampleStart := by
  intro always
  have never :=
    (exec_owns_terminal_iff sampleStart_atPrompt).2.mp always
      { args := [literal "cat"] } List.mem_cons_self (by decide)
  revert never
  decide

/-- The child joins its group, resets its signal handlers and configures its
descriptors while the parent has only just returned from `fork`. -/
def earlyStart : List Label :=
  [.parent, .fork (some 10), .child 10 .setGroup, .child 10 .resetSignals,
    .child 10 (.configure {})]

/-- Process 10 calls `exec` in group 10 while the terminal belongs to group 7,
the shell. -/
theorem cat_starts_in_background :
    catPipeline.background = false ∧
      AtPrompt sampleEnvironment catPipeline sampleShell sampleStart ∧
      (∀ label ∈ earlyStart, Ordinary label) ∧
      ∃ machine,
        (launchSystem sampleEnvironment catPipeline sampleShell).run
            sampleStart earlyStart = some machine ∧
          Execs sampleEnvironment catPipeline machine 10 ∧
          machine.children.map Child.pgid = [10] ∧
          firstPid machine = 10 ∧ foreground machine = 7 := by
  have ran :
      ((launchSystem sampleEnvironment catPipeline sampleShell).run
        sampleStart earlyStart).map
          (fun machine =>
            ((machineStep sampleEnvironment catPipeline machine
                (.child 10 .exec)).isSome,
              machine.children.map Child.pgid, firstPid machine,
              foreground machine)) =
        some (true, [10], 10, 7) := by
    decide +kernel
  rcases Option.map_eq_some_iff.mp ran with ⟨machine, arrived, seen⟩
  rcases Prod.mk.inj seen with ⟨execs, seen⟩
  rcases Prod.mk.inj seen with ⟨groups, seen⟩
  rcases Prod.mk.inj seen with ⟨first, owner⟩
  have ordinary : ∀ label ∈ earlyStart, Ordinary label := by
    simp [earlyStart, Ordinary]
  exact ⟨rfl, sampleStart_atPrompt, ordinary, machine, arrived, execs,
    groups, first, owner⟩

end Shell.TerminalHandoff
