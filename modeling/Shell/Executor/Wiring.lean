import Shell.Executor.LaunchMachine

/-!
# Every pipe end is where it belongs

The descriptors of all processes of a launch, in every interleaving.  Until
they are configured, the children hold what the parent holds at `fork`: the
descriptors of the shell and all pipes.  Behind `configure_child_io` a child
has its three standard streams and otherwise only descriptors of the shell.
The parent has its own table back whenever it leaves the launch, whether all
processes were started or a call of `pipe` or `fork` failed.
-/

namespace Shell.Wiring

open Shell.Syntax
open Shell.DescriptorTable
open Shell.Descriptors
open Shell.LaunchMachine
open Shell.TransitionSystem

variable {σ : Type*} {environment : Environment} {pipeline : Pipeline}
variable {base : Table (Description σ)}

/-! ## The parent -/

/-- The parent is behind the launch of the processes. -/
def AfterLaunch : Phase → Prop
  | .creating => False
  | .forking _ => False
  | .grouping _ _ => False
  | .closing => False
  | .adding => True
  | .handing _ => True
  | .waiting _ => True
  | .returned _ => True

/-- The parent's descriptors in each phase. -/
def ParentHolds (base : Table (Description σ)) (commandCount : ℕ)
    (machine : Machine σ) : Prop :=
  match machine.phase with
  | .creating =>
      HoldsPipes base machine.table machine.pipes ∧
        machine.pipes.length + 1 ≤ commandCount
  | .forking _ | .grouping _ _ | .closing =>
      HoldsPipes base machine.table machine.pipes ∧
        machine.pipes.length + 1 = commandCount
  | .adding | .handing _ | .waiting _ | .returned _ =>
      machine.table = base ∧
        ∀ table : Table (Description σ),
          destroyPipes machine.pipes table = table

theorem ParentHolds.afterLaunch
    {commandCount : ℕ} {machine : Machine σ}
    (holds : ParentHolds base commandCount machine)
    (after : AfterLaunch machine.phase) :
    machine.table = base := by
  unfold ParentHolds at holds
  cases phase : machine.phase with
  | creating | forking | grouping | closing =>
      rw [phase] at after
      exact after.elim
  | adding | handing | waiting | returned =>
      rw [phase] at holds
      exact holds.1

/-- What the parent has while it forks. -/
theorem ParentHolds.forking
    {commandCount index : ℕ} {machine : Machine σ}
    (holds : ParentHolds base commandCount machine)
    (isForking : machine.phase = .forking index) :
    HoldsPipes base machine.table machine.pipes ∧
      machine.pipes.length + 1 = commandCount := by
  rw [ParentHolds, isForking] at holds
  exact holds

/-- A return gives the table back if the pipes are all it holds. -/
theorem parentHolds_leave
    {commandCount : ℕ} {machine : Machine σ}
    (restores : destroyPipes machine.pipes machine.table = base)
    (result : ExecutionResult) :
    ParentHolds base commandCount (machine.leave result) :=
  ⟨restores, fun _ => rfl⟩

theorem closePipes_table
    (machine : Machine σ)
    (holds : HoldsPipes base machine.table machine.pipes) :
    machine.closePipes.table = base ∧
      ∀ table : Table (Description σ),
        destroyPipes machine.closePipes.pipes table = table :=
  ⟨holds.closeAllPipes, destroyPipes_closed machine.pipes⟩

theorem step_parentHolds
    {machine next : Machine σ} {label : Label}
    (holds : ParentHolds base pipeline.commands.length machine)
    (stepped : Step environment pipeline machine label next) :
    ParentHolds base pipeline.commands.length next := by
  unfold ParentHolds at holds
  cases stepped with
  | createPipe isCreating more =>
      rw [isCreating] at holds
      rw [ParentHolds, isCreating]
      refine ⟨holds.1.create, ?_⟩
      rw [List.length_append, List.length_singleton]
      exact more
  | pipeFails isCreating more =>
      rw [isCreating] at holds
      apply parentHolds_leave
      exact holds.1.destroyPipes
  | beginForks isCreating enough =>
      rw [isCreating] at holds
      exact ⟨holds.1, Nat.le_antisymm holds.2 (Nat.not_lt.mp enough)⟩
  | skip isForking found empty =>
      rw [isForking] at holds
      exact holds
  | forkFails isForking found nonempty =>
      rw [isForking] at holds
      have closed := closePipes_table (machine.notice .forkFailed) holds.1
      apply parentHolds_leave
      rw [closed.2, closed.1]
  | fork isForking found nonempty unused =>
      rw [isForking] at holds
      exact holds
  | endForks isForking past =>
      rw [isForking] at holds
      exact holds
  | assignGroup isGrouping =>
      rename_i index pid
      rw [isGrouping] at holds
      rcases assignGroup_fields machine index pid with
        ⟨children, notices, assigned⟩
      rw [assigned]
      exact holds
  | closeNone isClosing nobody =>
      rw [isClosing] at holds
      have closed := closePipes_table machine holds.1
      apply parentHolds_leave
      rw [closed.2, closed.1]
  | close isClosing somebody =>
      rw [isClosing] at holds
      exact closePipes_table machine holds.1
  | background isAdding isBackground =>
      rw [isAdding] at holds
      apply parentHolds_leave
      exact (holds.2 _).trans holds.1
  | foreground isAdding isForeground =>
      rw [isAdding] at holds
      exact holds
  | handOver answers isHanding found =>
      rw [isHanding] at holds
      exact holds
  | waitChild isWaiting found member inGroup reports =>
      rw [isWaiting] at holds
      rw [ParentHolds, isWaiting]
      exact holds
  | waitInterrupted isWaiting => exact holds
  | finish isWaiting reported =>
      rw [isWaiting] at holds
      apply parentHolds_leave
      exact (holds.2 _).trans holds.1
  | child member moves => exact holds

/-! ## The children -/

/-- A child's descriptors in each phase. -/
def ChildHolds (base : Table (Description σ)) (pipeline : Pipeline)
    (child : Child σ) : Prop :=
  pipeline.commands[child.index]? = some child.command ∧
    match child.phase with
    | .grouping | .resetting | .configuring =>
        HoldsPipes base child.table child.pipes ∧
          child.pipes.length + 1 = pipeline.commands.length
    | .starting | .running =>
        Wired base child.command child.index pipeline.commands.length
          child.table
    | .zombie | .reaped => ∀ fd, child.table.lookup fd = none

theorem ChildHolds.exited
    {child : Child σ} (holds : ChildHolds base pipeline child) :
    ChildHolds base pipeline child.exited :=
  ⟨holds.1, fun _ => rfl⟩

/-- A child that is about to configure itself will be wired. -/
theorem ChildHolds.configure
    (standard : StandardOpen base) {child : Child σ}
    (holds : ChildHolds base pipeline child)
    (isConfiguring : child.phase = .configuring) {opens : OpenAnswers}
    (succeeds : opens.Succeed child.command) :
    ∃ pipes table,
      configureChildIo opens child.command child.index
          pipeline.commands.length child.pipes child.table =
            .ok (pipes, table) ∧
        Wired base child.command child.index pipeline.commands.length
          table := by
  rw [ChildHolds, isConfiguring] at holds
  have inRange := (List.getElem?_eq_some_iff.mp holds.1).1
  exact configureChildIo_wired standard holds.2.1 holds.2.2 inRange succeeds

theorem childStep_holds
    (standard : StandardOpen base)
    {shellGroup : Int} {children : List (Child σ)} {child moved : Child σ}
    {move : ChildMove} {notices : List Notice}
    (holds : ChildHolds base pipeline child)
    (moves :
      ChildStep environment pipeline shellGroup children child move moved
        notices) :
    ChildHolds base pipeline moved := by
  have atIndex := holds.1
  have tables := holds.2
  cases moves with
  | setGroup isGrouping succeeded =>
      rw [setpgid_ok succeeded]
      rw [isGrouping] at tables
      exact ⟨atIndex, tables⟩
  | setGroupFails isGrouping failed => exact holds.exited
  | resetSignals isResetting =>
      rw [isResetting] at tables
      exact ⟨atIndex, tables⟩
  | configure isConfiguring configured =>
      rcases holds.configure standard isConfiguring
        (configureChildIo_succeeds configured) with
        ⟨pipes, table, returned, wired⟩
      rw [configured] at returned
      cases returned
      exact ⟨atIndex, wired⟩
  | configureFails isConfiguring failed => exact holds.exited
  | exec isStarting execs =>
      rw [isStarting] at tables
      exact ⟨atIndex, tables⟩
  | exit isAlive => exact holds.exited
  | regroup isRunning succeeded =>
      rw [setpgid_ok succeeded]
      exact holds
  | regroupFails isRunning failed => exact holds

theorem step_childHolds
    (standard : StandardOpen base) {machine next : Machine σ} {label : Label}
    (parentHolds : ParentHolds base pipeline.commands.length machine)
    (holds : ∀ child ∈ machine.children, ChildHolds base pipeline child)
    (stepped : Step environment pipeline machine label next) :
    ∀ child ∈ next.children, ChildHolds base pipeline child := by
  intro child member
  cases stepped.child_source member with
  | kept isOld => exact holds child isOld
  | forked isForking found nonempty unused isNew =>
      subst isNew
      exact ⟨found, parentHolds.forking isForking⟩
  | moved isGrouping isOld isMoved =>
      have unmoved := holds _ isOld
      subst isMoved
      exact unmoved
  | stepped isLabel isOld moves =>
      exact childStep_holds standard (holds _ isOld) moves
  | reaped isWaiting isOld isZombie isReaped =>
      have ended := (holds _ isOld).2
      rw [isZombie] at ended
      subst isReaped
      exact ⟨(holds _ isOld).1, ended⟩

/-! ## The whole launch -/

/-- All processes of a launch have the descriptors they should have. -/
def LaunchHolds (base : Table (Description σ)) (pipeline : Pipeline)
    (machine : Machine σ) : Prop :=
  ParentHolds base pipeline.commands.length machine ∧
    ∀ child ∈ machine.children, ChildHolds base pipeline child

theorem started_holds
    {shell : Table σ} {machine : Machine σ} (forks : Forks pipeline)
    (started : Started shell machine) :
    LaunchHolds (shell.map .inherited) pipeline machine := by
  constructor
  · rw [ParentHolds, started.phase, started.pipes, started.table]
    exact ⟨HoldsPipes.nil _, List.length_pos_of_ne_nil forks.1⟩
  · rw [started.children]
    exact fun _ member => absurd member List.not_mem_nil

theorem standardOpen_inherited
    {shell : Table σ}
    (standard : ∀ fd, fd < 3 → shell.lookup fd ≠ none) :
    StandardOpen (shell.map Description.inherited) := by
  intro fd below closed
  rw [Table.lookup_map, Option.map_eq_none_iff] at closed
  exact standard fd below closed

theorem reachable_holds
    {shell : Table σ}
    (standard : StandardOpen (shell.map Description.inherited))
    {machine : Machine σ}
    (reachable :
      (launchSystem environment pipeline shell).Reachable machine) :
    LaunchHolds (shell.map .inherited) pipeline machine := by
  apply reachable.invariant
    (LaunchHolds (shell.map .inherited) pipeline)
  · rintro start ⟨forks, started⟩
    exact started_holds forks started
  · intro machine label next holds stepped
    have step := step_of_launchStep stepped
    exact ⟨step_parentHolds holds.1 step,
      step_childHolds standard holds.1 holds.2 step⟩

/-- The child is behind `configure_child_io`, or has ended. -/
def Configured (child : Child σ) : Prop :=
  child.phase ≠ .grouping ∧ child.phase ≠ .resetting ∧
    child.phase ≠ .configuring

/-- A descriptor of the shell refers to no pipe and to no redirection. -/
theorem inherited_of_lookup
    {shell : Table σ} {fd : ℕ} {description : Description σ}
    (found :
      (shell.map Description.inherited).lookup fd = some description) :
    ∃ entry, description = .inherited entry := by
  rw [Table.lookup_map] at found
  rcases Option.map_eq_some_iff.mp found with ⟨entry, _, same⟩
  exact ⟨entry, same.symm⟩

/-- A write end among the descriptors of a wired child. -/
theorem wired_writeEnd
    {shell : Table σ} {command : Command} {index commandCount : ℕ}
    {table : Table (Description σ)}
    (wired :
      Wired (shell.map .inherited) command index commandCount table)
    {fd pipe : ℕ} (found : table.lookup fd = some (.pipeEnd pipe .write)) :
    fd = 1 ∧ index = pipe ∧ command.hasOutputRedirect = false := by
  have notInherited :
      ∀ {fd}, (shell.map Description.inherited).lookup fd ≠
        some (.pipeEnd pipe .write) := by
    intro fd isInherited
    rcases inherited_of_lookup isInherited with ⟨entry, same⟩
    cases same
  match fd with
  | 0 =>
      rw [wired.input, inputTarget] at found
      split_ifs at found <;> simp_all [inputFile]
  | 1 =>
      rw [wired.output, outputTarget] at found
      split_ifs at found <;> simp_all [outputFile]
  | 2 =>
      rw [wired.error, errorTarget] at found
      split_ifs at found <;> simp_all [errorFile]
  | fd + 3 =>
      rw [wired.others (fd + 3) (by omega)] at found
      exact absurd found notInherited

/-- A process that holds the write end of a pipe, so that a reader of the
pipe does not see its end. -/
def HasWriter (machine : Machine σ) (pipe : ℕ) : Prop :=
  (∃ fd, machine.table.lookup fd = some (.pipeEnd pipe .write)) ∨
    ∃ child ∈ machine.children, ∃ fd,
      child.table.lookup fd = some (.pipeEnd pipe .write)

/-- The write end of a pipe is open in no other place than it should be. -/
def SoleWriter (machine : Machine σ) (pipe : ℕ) : Prop :=
  (∀ fd, machine.table.lookup fd ≠ some (.pipeEnd pipe .write)) ∧
    ∀ child ∈ machine.children, ∀ fd,
      child.table.lookup fd = some (.pipeEnd pipe .write) →
        fd = 1 ∧ child.index = pipe ∧
          child.command.hasOutputRedirect = false ∧
          child.phase.alive = true

theorem ChildHolds.writeEnd
    {shell : Table σ} {child : Child σ}
    (holds : ChildHolds (shell.map .inherited) pipeline child)
    (configured : Configured child) {fd pipe : ℕ}
    (found : child.table.lookup fd = some (.pipeEnd pipe .write)) :
    fd = 1 ∧ child.index = pipe ∧
      child.command.hasOutputRedirect = false ∧
      child.phase.alive = true := by
  have tables := holds.2
  cases phase : child.phase with
  | grouping => exact absurd phase configured.1
  | resetting => exact absurd phase configured.2.1
  | configuring => exact absurd phase configured.2.2
  | starting | running =>
      rw [phase] at tables
      rcases wired_writeEnd tables found with ⟨isOutput, atIndex, plain⟩
      exact ⟨isOutput, atIndex, plain, rfl⟩
  | zombie | reaped =>
      rw [phase] at tables
      rw [tables fd] at found
      cases found

theorem LaunchHolds.soleWriter
    {shell : Table σ} {machine : Machine σ}
    (holds : LaunchHolds (shell.map .inherited) pipeline machine)
    (after : AfterLaunch machine.phase)
    (configured : ∀ child ∈ machine.children, Configured child)
    (pipe : ℕ) :
    SoleWriter machine pipe := by
  constructor
  · intro fd found
    rw [holds.1.afterLaunch after] at found
    rcases inherited_of_lookup found with ⟨entry, same⟩
    cases same
  · intro child member fd found
    exact (holds.2 child member).writeEnd (configured child member) found

/--
The descriptors of every process in every run of a launch: the parent has its
table back, `configure_child_io` returns if the redirections can be opened,
the child is then wired and has no other descriptor of a pipe or of a
redirection, and once all children are configured the end of child `pipe`
leaves pipe number `pipe` without a writer.
-/
theorem pipeline_descriptors
    {shell : Table σ} (standard : ∀ fd, fd < 3 → shell.lookup fd ≠ none)
    {machine : Machine σ}
    (reachable :
      (launchSystem environment pipeline shell).Reachable machine) :
    (AfterLaunch machine.phase →
      machine.table = shell.map .inherited) ∧
    (∀ child ∈ machine.children, child.phase = .configuring →
      ∀ opens : OpenAnswers, opens.Succeed child.command →
        ∃ pipes table,
          configureChildIo opens child.command child.index
              pipeline.commands.length child.pipes child.table =
                .ok (pipes, table) ∧
            Wired (shell.map .inherited) child.command child.index
              pipeline.commands.length table) ∧
    (∀ child ∈ machine.children,
      child.phase = .starting ∨ child.phase = .running →
        Wired (shell.map .inherited) child.command child.index
            pipeline.commands.length child.table ∧
          ∀ fd description, 3 ≤ fd →
            child.table.lookup fd = some description →
              ∃ entry, description = .inherited entry) ∧
    (AfterLaunch machine.phase →
      (∀ child ∈ machine.children, Configured child) →
        ∀ pipe,
          SoleWriter machine pipe ∧
            ((∀ child ∈ machine.children,
                child.index = pipe → child.phase.alive = false) →
              ¬ HasWriter machine pipe)) := by
  have isStandard := standardOpen_inherited standard
  have holds := reachable_holds isStandard reachable
  refine ⟨holds.1.afterLaunch, ?_, ?_, ?_⟩
  · intro child member isConfiguring opens succeeds
    exact (holds.2 child member).configure isStandard isConfiguring succeeds
  · intro child member isConfigured
    have wired := (holds.2 child member).2
    have wired :
        Wired (shell.map .inherited) child.command child.index
          pipeline.commands.length child.table := by
      rcases isConfigured with phase | phase <;>
      · rw [phase] at wired
        exact wired
    refine ⟨wired, fun fd description above found => ?_⟩
    rw [wired.others fd above] at found
    exact inherited_of_lookup found
  · intro after configured pipe
    have sole := holds.soleWriter after configured pipe
    refine ⟨sole, fun ended => ?_⟩
    rintro (⟨fd, found⟩ | ⟨child, member, fd, found⟩)
    · exact sole.1 fd found
    · rcases sole.2 child member fd found with ⟨_, atIndex, _, alive⟩
      rw [ended child member atIndex] at alive
      cases alive

/-- A launch of the sample up to the point where the job is added. -/
def sampleLaunch : List Label :=
  [.pipe true, .parent, .fork (some 10), .child 10 .setGroup, .parent,
    .fork (some 11), .parent, .child 11 .setGroup, .child 10 .resetSignals,
    .child 10 (.configure {}), .parent, .child 11 .resetSignals, .parent,
    .child 11 (.configure {})]

theorem pipeline_descriptors_sample :
    ∃ machine,
      (launchSystem sampleEnvironment samplePipeline sampleShell).run
          sampleStart sampleLaunch = some machine ∧
        machine.phase = .adding ∧
        machine.table = sampleShell.map .inherited ∧
        SoleWriter machine 0 := by
  have ran :
      ((launchSystem sampleEnvironment samplePipeline sampleShell).run
        sampleStart sampleLaunch).map
          (fun machine =>
            (machine.phase, machine.children.map Child.phase)) =
        some (.adding, [.starting, .starting]) := by
    decide +kernel
  rcases Option.map_eq_some_iff.mp ran with ⟨machine, arrived, phases⟩
  rcases Prod.mk.inj phases with ⟨isAdding, childPhases⟩
  have reachable :
      (launchSystem sampleEnvironment samplePipeline sampleShell).Reachable
        machine :=
    ⟨sampleStart, sampleLaunch, sampleStart_initial, arrived⟩
  have after : AfterLaunch machine.phase := by
    rw [isAdding]
    trivial
  have standard : ∀ fd, fd < 3 → sampleShell.lookup fd ≠ none := by
    decide
  have configured : ∀ child ∈ machine.children, Configured child := by
    intro child member
    have starting : child.phase ∈ machine.children.map Child.phase :=
      List.mem_map_of_mem member
    rw [childPhases] at starting
    have phase : child.phase = .starting := by simpa using starting
    rw [Configured, phase]
    decide
  have result := pipeline_descriptors standard reachable
  exact ⟨machine, arrived, isAdding, result.1 after,
    (result.2.2.2 after configured 0).1⟩

end Shell.Wiring
