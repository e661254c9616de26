import Mathlib.Data.List.Nodup
import Shell.Executor.LaunchMachine

/-!
# One pipeline is one process group

Parent and child both call `setpgid`, and either may be first.  Whatever the
order, a child has joined the group of the first child before it runs anything,
and the parent does not go on to the next stage before the child it has just
forked is in that group: the parent's call can only be refused because the
child has called `exec`, and then the child's own call has been made.  The
group exists from the first call on, because its first member stays in it,
possibly as a zombie, until the parent waits for it.
-/

namespace Shell.ProcessGroups

open Shell.Syntax
open Shell.DescriptorTable
open Shell.LaunchMachine
open Shell.JobTable
open Shell.JobOperations
open Shell.TransitionSystem

variable {σ : Type*} {environment : Environment} {pipeline : Pipeline}

/-! ## The first child -/

def childPids (machine : Machine σ) : List Int :=
  machine.children.map Child.pid

/-- The pid of the first child; it is the id of the group. -/
def firstPid (machine : Machine σ) : Int :=
  (childPids machine).headD 0

/-- The child that the parent has forked and not yet grouped. -/
def ungrouped : Phase → List Int
  | .grouping _ pid => [pid]
  | _ => []

/-- The child is between its call of `setpgid` and its end. -/
def Joined (child : Child σ) : Prop :=
  child.execed = true ∨ child.phase = .resetting ∨
    child.phase = .configuring ∨ child.phase = .starting ∨
    child.phase = .running

/-- The parent has not begun to wait. -/
def Launching : Phase → Prop
  | .waiting _ => False
  | .returned _ => False
  | _ => True

/-- What holds about a child whose pipeline has the given leader, and whose
parent has grouped the children with the given pids. -/
structure Member (leader : Int) (pids : List Int) (child : Child σ) :
    Prop where
  positive : 0 < child.pid
  wanted : child.childPgid = leader
  settled : child.pid ∈ pids → child.pgid = leader
  joined : Joined child → child.pgid = leader

/-- What holds about processes and groups between any two steps. -/
structure Grouped (machine : Machine σ) : Prop where
  pids : childPids machine = machine.pids ++ ungrouped machine.phase
  distinct : (childPids machine).Nodup
  pgid : machine.pgid = machine.pids.headD 0
  members :
    ∀ child ∈ machine.children,
      Member (firstPid machine) machine.pids child
  unreaped :
    Launching machine.phase →
      ∀ child ∈ machine.children, child.phase ≠ .reaped

/-! ## Steps that keep the processes -/

/-- A step that forks nobody and lets nobody into the list of pids. -/
theorem Grouped.update
    {machine next : Machine σ} (holds : Grouped machine)
    (sameChildren : childPids next = childPids machine)
    (samePids : next.pids = machine.pids)
    (samePgid : next.pgid = machine.pgid)
    (samePhase : ungrouped next.phase = ungrouped machine.phase)
    (members :
      ∀ child ∈ next.children,
        Member (firstPid machine) machine.pids child)
    (unreaped :
      Launching next.phase →
        ∀ child ∈ next.children, child.phase ≠ .reaped) :
    Grouped next := by
  have sameFirst : firstPid next = firstPid machine := by
    rw [firstPid, sameChildren, firstPid]
  constructor
  · rw [sameChildren, samePids, samePhase]
    exact holds.pids
  · rw [sameChildren]
    exact holds.distinct
  · rw [samePgid, samePids]
    exact holds.pgid
  · rw [sameFirst, samePids]
    exact members
  · exact unreaped

/-- A step of the parent that only goes on. -/
theorem Grouped.advance
    {machine next : Machine σ} (holds : Grouped machine)
    (sameChildren : next.children = machine.children)
    (samePids : next.pids = machine.pids)
    (samePgid : next.pgid = machine.pgid)
    (samePhase : ungrouped next.phase = ungrouped machine.phase)
    (later : Launching next.phase → Launching machine.phase) :
    Grouped next := by
  apply holds.update
  · rw [childPids, sameChildren, childPids]
  · exact samePids
  · exact samePgid
  · exact samePhase
  · rw [sameChildren]
    exact holds.members
  · rw [sameChildren]
    exact fun launching => holds.unreaped (later launching)

theorem pids_replaceChild
    (children : List (Child σ)) {child changed : Child σ}
    (samePid : changed.pid = child.pid) :
    (replaceChild children child.pid changed).map Child.pid =
      children.map Child.pid := by
  rw [replaceChild, List.map_map]
  apply List.map_congr_left
  intro other _
  rw [Function.comp_apply]
  split
  · rename_i isChild
    rw [samePid, isChild]
  · rfl

/-! ## Steps of a child -/

/-- What no step of a child changes. -/
theorem childStep_fixed
    {shellGroup : Int} {children : List (Child σ)} {child moved : Child σ}
    {move : ChildMove} {notices : List Notice}
    (moves :
      ChildStep environment pipeline shellGroup children child move moved
        notices) :
    moved.pid = child.pid ∧ moved.command = child.command := by
  cases moves with
  | setGroup isGrouping succeeded =>
      rw [setpgid_ok succeeded]
      exact ⟨rfl, rfl⟩
  | regroup isRunning succeeded =>
      rw [setpgid_ok succeeded]
      exact ⟨rfl, rfl⟩
  | _ => exact ⟨rfl, rfl⟩

theorem childStep_unreaped
    {shellGroup : Int} {children : List (Child σ)} {child moved : Child σ}
    {move : ChildMove} {notices : List Notice}
    (unreaped : child.phase ≠ .reaped)
    (moves :
      ChildStep environment pipeline shellGroup children child move moved
        notices) :
    moved.phase ≠ .reaped := by
  cases moves with
  | regroup isRunning succeeded =>
      rw [setpgid_ok succeeded]
      exact unreaped
  | regroupFails isRunning failed => exact unreaped
  | _ => exact fun equal => ChildPhase.noConfusion equal

/-- A move by which a program changes its own group. -/
def ChangesGroup : Label → Prop
  | .child _ (.regroup _) => True
  | _ => False

theorem Member.exited
    {leader : Int} {pids : List Int} {child : Child σ}
    (holds : Member leader pids child) :
    Member leader pids child.exited where
  positive := holds.positive
  wanted := holds.wanted
  settled := holds.settled
  joined := by
    intro isJoined
    apply holds.joined
    rcases isJoined with execed | phase
    · exact Or.inl execed
    · simp [Child.exited] at phase

/-- A child changes its group once, to the one it wants. -/
theorem childStep_member
    {leader : Int} {pids : List Int}
    {shellGroup : Int} {children : List (Child σ)} {child moved : Child σ}
    {pid : Int} {move : ChildMove} {notices : List Notice}
    (holds : Member leader pids child)
    (keeps : ¬ ChangesGroup (.child pid move))
    (moves :
      ChildStep environment pipeline shellGroup children child move moved
        notices) :
    Member leader pids moved := by
  cases moves with
  | setGroup isGrouping succeeded =>
      rw [setpgid_ok succeeded]
      exact ⟨holds.positive, holds.wanted, fun _ => holds.wanted,
        fun _ => holds.wanted⟩
  | setGroupFails isGrouping failed => exact holds.exited
  | resetSignals isResetting =>
      have inGroup := holds.joined (Or.inr (Or.inl isResetting))
      exact ⟨holds.positive, holds.wanted, fun _ => inGroup,
        fun _ => inGroup⟩
  | configure isConfiguring configured =>
      have inGroup := holds.joined (Or.inr (Or.inr (Or.inl isConfiguring)))
      exact ⟨holds.positive, holds.wanted, fun _ => inGroup,
        fun _ => inGroup⟩
  | configureFails isConfiguring failed => exact holds.exited
  | exec isStarting execs =>
      have inGroup :=
        holds.joined (Or.inr (Or.inr (Or.inr (Or.inl isStarting))))
      exact ⟨holds.positive, holds.wanted, fun _ => inGroup,
        fun _ => inGroup⟩
  | exit isAlive => exact holds.exited
  | regroup isRunning succeeded => exact absurd trivial keeps
  | regroupFails isRunning failed => exact holds

/-! ## Steps of the parent -/

/-- The first child of a machine in which somebody has been grouped. -/
theorem Grouped.pgid_eq_firstPid
    {machine : Machine σ} (holds : Grouped machine)
    (somebody : machine.pids ≠ []) :
    machine.pgid = firstPid machine := by
  rw [holds.pgid, firstPid, holds.pids]
  cases pids : machine.pids with
  | nil => exact absurd pids somebody
  | cons first others => rfl

theorem Grouped.pgid_pos
    {machine : Machine σ} (holds : Grouped machine)
    (somebody : machine.pids ≠ []) :
    0 < machine.pgid := by
  cases pids : machine.pids with
  | nil => exact absurd pids somebody
  | cons first others =>
      have isChild : first ∈ childPids machine := by
        rw [holds.pids, pids]
        exact List.mem_cons_self
      rcases List.mem_map.mp isChild with ⟨child, member, samePid⟩
      rw [holds.pgid, pids, List.headD_cons, ← samePid]
      exact (holds.members child member).positive

/-- The group that the parent assigns is the one of the first child. -/
theorem Grouped.leader
    {machine : Machine σ} (holds : Grouped machine) {index : ℕ} {pid : Int}
    (isGrouping : machine.phase = .grouping index pid) :
    machine.leader pid = firstPid machine := by
  unfold Machine.leader
  by_cases nobody : machine.pids = []
  · rw [if_pos (by rw [holds.pgid, nobody]; rfl), firstPid, holds.pids,
      nobody, isGrouping]
    rfl
  · have positive := holds.pgid_pos nobody
    rw [if_neg (by omega)]
    exact holds.pgid_eq_firstPid nobody

/-- The group of the pipeline exists once its first child has been grouped. -/
theorem Grouped.groupExists
    {machine : Machine σ} (holds : Grouped machine)
    (somebody : machine.pids ≠ []) (launching : Launching machine.phase) :
    GroupExists machine.shellGroup machine.children (firstPid machine) := by
  cases pids : machine.pids with
  | nil => exact absurd pids somebody
  | cons first others =>
      have isChild : first ∈ childPids machine := by
        rw [holds.pids, pids]
        exact List.mem_cons_self
      rcases List.mem_map.mp isChild with ⟨child, member, rfl⟩
      have grouped : child.pid ∈ machine.pids := by
        rw [pids]
        exact List.mem_cons_self
      exact Or.inr ⟨child, member, holds.unreaped launching child member,
        (holds.members child member).settled grouped⟩

/-- The group is the child itself or exists, so `setpgid` may join it. -/
theorem Grouped.joinable
    {machine : Machine σ} (holds : Grouped machine) {index : ℕ}
    (child : Child σ)
    (isGrouping : machine.phase = .grouping index child.pid) :
    firstPid machine = child.pid ∨
      GroupExists machine.shellGroup machine.children
        (firstPid machine) := by
  by_cases nobody : machine.pids = []
  · left
    rw [firstPid, holds.pids, nobody, isGrouping]
    rfl
  · right
    apply holds.groupExists nobody
    rw [isGrouping]
    trivial

/-- The parent's call moves the child unless it has called `exec`. -/
theorem setpgid_byParent
    {shellGroup : Int} {children : List (Child σ)} {child : Child σ}
    {group : Int}
    (joinable :
      group = child.pid ∨ GroupExists shellGroup children group) :
    (child.execed = true ∧
        setpgid true shellGroup children child group = .error .eacces) ∨
      setpgid true shellGroup children child group =
        .ok { child with pgid := group } := by
  cases execed : child.execed with
  | true => exact Or.inl ⟨rfl, by simp [setpgid, execed]⟩
  | false => exact Or.inr (by simp [setpgid, execed, joinable])

/-- Everybody whom the parent has been told about is in the group. -/
theorem Member.extend
    {leader : Int} {pids : List Int} {child : Child σ}
    (holds : Member leader pids child) {pid : Int}
    (inGroup : child.pid = pid → child.pgid = leader) :
    Member leader (pids ++ [pid]) child where
  positive := holds.positive
  wanted := holds.wanted
  settled := by
    intro listed
    rcases List.mem_append.mp listed with earlier | new
    · exact holds.settled earlier
    · exact inGroup (List.mem_singleton.mp new)
  joined := holds.joined

/-- What the parent's `setpgid` achieves. -/
theorem Grouped.moveChild
    {machine : Machine σ} (holds : Grouped machine) {index : ℕ} {pid : Int}
    (isGrouping : machine.phase = .grouping index pid) :
    childPids (machine.moveChild pid (firstPid machine)) =
        childPids machine ∧
      ∀ child ∈ (machine.moveChild pid (firstPid machine)).children,
        Member (firstPid machine) (machine.pids ++ [pid]) child ∧
          child.phase ≠ .reaped := by
  have launching : Launching machine.phase := by
    rw [isGrouping]
    trivial
  have isChild : pid ∈ childPids machine := by
    rw [holds.pids, isGrouping]
    exact List.mem_append_right _ List.mem_cons_self
  have isFound : (findChild machine.children pid).isSome := by
    rcases List.mem_map.mp isChild with ⟨child, member, samePid⟩
    exact List.find?_isSome.mpr ⟨child, member, by simpa using samePid⟩
  rcases Option.isSome_iff_exists.mp isFound with ⟨child, found⟩
  rcases findChild_mem found with ⟨member, rfl⟩
  have isMember := holds.members child member
  rcases setpgid_byParent (holds.joinable child isGrouping) with
    ⟨execed, refused⟩ | moved
  · -- The child has called `exec`, so it had joined the group before.
    rw [Machine.moveChild, found]
    simp only [refused]
    refine ⟨trivial, fun other isOther => ?_⟩
    refine ⟨(holds.members other isOther).extend fun samePid => ?_,
      holds.unreaped launching other isOther⟩
    rw [List.inj_on_of_nodup_map holds.distinct isOther member samePid]
    exact isMember.joined (Or.inl execed)
  · rw [Machine.moveChild, found]
    simp only [moved]
    refine ⟨pids_replaceChild machine.children rfl, fun other isOther => ?_⟩
    rcases mem_replaceChild isOther with rfl | ⟨old, different⟩
    · exact ⟨⟨isMember.positive, isMember.wanted, fun _ => rfl,
        fun _ => rfl⟩, holds.unreaped launching child member⟩
    · exact ⟨(holds.members other old).extend fun samePid =>
        absurd samePid different, holds.unreaped launching other old⟩

theorem Grouped.assignGroup
    {machine : Machine σ} (holds : Grouped machine) {index : ℕ} {pid : Int}
    (isGrouping : machine.phase = .grouping index pid) :
    Grouped (machine.assignGroup index pid) := by
  have moved := holds.moveChild isGrouping
  rw [← holds.leader isGrouping] at moved
  have samePids :
      childPids (machine.assignGroup index pid) = childPids machine :=
    moved.1
  have sameFirst :
      firstPid (machine.assignGroup index pid) = firstPid machine := by
    rw [firstPid, samePids, firstPid]
  have listed : childPids machine = machine.pids ++ [pid] := by
    rw [holds.pids, isGrouping]
    rfl
  constructor
  · rw [samePids, listed]
    exact (List.append_nil _).symm
  · rw [samePids]
    exact holds.distinct
  · show machine.leader pid = (machine.pids ++ [pid]).headD 0
    rw [holds.leader isGrouping, firstPid, listed]
  · intro child member
    rw [sameFirst, ← holds.leader isGrouping]
    exact (moved.2 child member).1
  · intro _ child member
    exact (moved.2 child member).2

theorem Grouped.fork
    {machine : Machine σ} (holds : Grouped machine) {index : ℕ} {pid : Int}
    (isForking : machine.phase = .forking index)
    (unused : Unused machine pid) (command : Command) :
    Grouped
      { machine with
        phase := .grouping index pid
        children := machine.children ++ [machine.forked pid index command] }
    := by
  have listed : childPids machine = machine.pids := by
    rw [holds.pids, isForking]
    exact List.append_nil _
  have isNew : pid ∉ childPids machine := by
    intro isOld
    exact unused.noProcess isOld
  have extended :
      (machine.children ++ [machine.forked pid index command]).map
          Child.pid =
        machine.pids ++ [pid] := by
    rw [List.map_append, ← listed]
    rfl
  have first :
      ((machine.children ++ [machine.forked pid index command]).map
          Child.pid).headD 0 =
        machine.leader pid := by
    rw [extended, Machine.leader]
    by_cases nobody : machine.pids = []
    · rw [if_pos (by rw [holds.pgid, nobody]; rfl), nobody]
      rfl
    · have positive := holds.pgid_pos nobody
      rw [if_neg (by omega), holds.pgid]
      cases pids : machine.pids with
      | nil => exact absurd pids nobody
      | cons head others => rfl
  constructor
  · exact extended
  · show ((machine.children ++ _).map Child.pid).Nodup
    rw [extended, ← listed]
    exact List.Nodup.append holds.distinct (List.nodup_singleton pid)
      (List.disjoint_singleton.mpr isNew)
  · exact holds.pgid
  · intro child member
    rw [firstPid, childPids, first]
    rcases List.mem_append.mp member with old | new
    · have somebody : machine.pids ≠ [] := by
        rw [← listed]
        exact List.ne_nil_of_mem (List.mem_map_of_mem old)
      have positive := holds.pgid_pos somebody
      rw [Machine.leader, if_neg (by omega),
        holds.pgid_eq_firstPid somebody]
      exact holds.members child old
    · rw [List.mem_singleton.mp new]
      refine ⟨unused.positive, rfl, fun isListed => ?_, fun isJoined => ?_⟩
      · exact absurd (listed ▸ isListed) isNew
      · simp [Joined, Machine.forked] at isJoined
  · intro _ child member
    rcases List.mem_append.mp member with old | new
    · apply holds.unreaped _ child old
      rw [isForking]
      trivial
    · rw [List.mem_singleton.mp new]
      exact fun equal => ChildPhase.noConfusion equal

/-! ## All steps -/

theorem Grouped.child
    {machine : Machine σ} (holds : Grouped machine)
    {child moved : Child σ} (member : child ∈ machine.children)
    {move : ChildMove} {notices : List Notice}
    (keeps : ¬ ChangesGroup (.child child.pid move))
    (moves :
      ChildStep environment pipeline machine.shellGroup machine.children
        child move moved notices) :
    Grouped
      { machine with
        children := replaceChild machine.children child.pid moved
        notices := machine.notices ++ notices } := by
  apply holds.update
  · exact pids_replaceChild machine.children (childStep_fixed moves).1
  · rfl
  · rfl
  · rfl
  · intro other isOther
    rcases mem_replaceChild isOther with rfl | old
    · exact childStep_member (holds.members child member) keeps moves
    · exact holds.members other old.1
  · intro launching other isOther
    rcases mem_replaceChild isOther with rfl | old
    · exact childStep_unreaped (holds.unreaped launching child member) moves
    · exact holds.unreaped launching other old.1

theorem Grouped.reap
    {machine : Machine σ} (holds : Grouped machine)
    {child : Child σ} (member : child ∈ machine.children)
    (isZombie : child.phase = .zombie) {id : Int}
    (isWaiting : machine.phase = .waiting id) (session : Session) :
    Grouped
      { machine with
        session := session
        children :=
          replaceChild machine.children child.pid
            { child with phase := .reaped } } := by
  apply holds.update
  · exact pids_replaceChild machine.children rfl
  · rfl
  · rfl
  · rfl
  · intro other isOther
    rcases mem_replaceChild isOther with rfl | old
    · have isMember := holds.members child member
      refine ⟨isMember.positive, isMember.wanted, isMember.settled, ?_⟩
      intro isJoined
      apply isMember.joined
      simpa [Joined, isZombie] using isJoined
    · exact holds.members other old.1
  · intro launching
    rw [isWaiting] at launching
    exact launching.elim

theorem step_grouped
    {machine next : Machine σ} {label : Label} (holds : Grouped machine)
    (keeps : ¬ ChangesGroup label)
    (stepped : Step environment pipeline machine label next) :
    Grouped next := by
  cases stepped with
  | fork isForking found nonempty unused =>
      exact holds.fork isForking unused _
  | assignGroup isGrouping => exact holds.assignGroup isGrouping
  | child member moves => exact holds.child member keeps moves
  | waitChild isWaiting found member inGroup reports =>
      split
      · rename_i terminates
        rw [Reports, if_pos terminates] at reports
        exact holds.reap member reports isWaiting _
      · exact holds.advance rfl rfl rfl rfl id
  | createPipe isCreating more => exact holds.advance rfl rfl rfl rfl id
  | waitInterrupted isWaiting => exact holds
  | pipeFails phase more | beginForks phase enough
  | skip phase found empty | forkFails phase found nonempty
  | endForks phase past | closeNone phase nobody
  | close phase somebody | background phase isBackground
  | foreground phase isForeground | handOver answers phase found
  | finish phase reported =>
      refine holds.advance rfl rfl rfl ?_ ?_
      · rw [phase]
        rfl
      · rw [phase]
        intro launching
        first | exact trivial | exact launching

theorem started_grouped
    {shell : Table σ} {machine : Machine σ}
    (started : Started shell machine) :
    Grouped machine := by
  constructor
  · rw [childPids, started.children, started.pids, started.phase]
    rfl
  · rw [childPids, started.children]
    exact List.nodup_nil
  · rw [started.pgid, started.pids]
    rfl
  · rw [started.children]
    exact fun _ member => absurd member List.not_mem_nil
  · rw [started.children]
    exact fun _ _ member => absurd member List.not_mem_nil

/-! ## The number of children -/

/-- The commands that a process is forked for. -/
def stages (commands : List Command) : ℕ :=
  commands.countP fun command => command.args ≠ []

/-- The children that have been forked in each phase. -/
def Counted (pipeline : Pipeline) (machine : Machine σ) : Prop :=
  match machine.phase with
  | .creating => machine.children.length = 0
  | .forking index =>
      machine.children.length = stages (pipeline.commands.take index)
  | .grouping index _ =>
      machine.children.length = stages (pipeline.commands.take (index + 1))
  | .closing | .adding | .handing _ | .waiting _ =>
      machine.children.length = stages pipeline.commands
  | .returned _ => True

theorem stages_take
    {commands : List Command} {index : ℕ} {command : Command}
    (found : commands[index]? = some command) :
    stages (commands.take (index + 1)) =
      stages (commands.take index) + if command.args ≠ [] then 1 else 0 := by
  rw [stages, List.take_add_one, found, List.countP_append, stages]
  simp [List.countP_cons]

theorem stages_take_all
    {commands : List Command} {index : ℕ}
    (past : commands[index]? = none) :
    stages (commands.take index) = stages commands := by
  rw [List.take_of_length_le (List.getElem?_eq_none_iff.mp past)]

theorem length_replaceChild (children : List (Child σ)) (pid : Int)
    (changed : Child σ) :
    (replaceChild children pid changed).length = children.length :=
  List.length_map _

theorem length_moveChild (machine : Machine σ) (pid group : Int) :
    (machine.moveChild pid group).children.length =
      machine.children.length := by
  rcases moveChild_cases machine pid group with
    ⟨notices, same⟩ | ⟨child, member, samePid, changed⟩
  · rw [same]
  · rw [changed]
    exact length_replaceChild machine.children pid _

theorem step_counted
    {machine next : Machine σ} {label : Label}
    (holds : Counted pipeline machine)
    (stepped : Step environment pipeline machine label next) :
    Counted pipeline next := by
  unfold Counted at holds
  cases stepped with
  | createPipe phase more =>
      rw [Counted, phase]
      rw [phase] at holds
      exact holds
  | beginForks phase enough =>
      rw [phase] at holds
      exact holds
  | skip phase found empty =>
      rw [phase] at holds
      show machine.children.length = _
      rw [stages_take found, if_neg (not_not.mpr empty)]
      exact holds
  | fork phase found nonempty unused =>
      rw [phase] at holds
      show (machine.children ++ _).length = _
      rw [stages_take found, if_pos nonempty, List.length_append, holds]
      rfl
  | endForks phase past =>
      rw [phase] at holds
      show machine.children.length = _
      rw [← stages_take_all past]
      exact holds
  | assignGroup phase =>
      rw [phase] at holds
      exact (length_moveChild machine _ _).trans holds
  | close phase somebody | foreground phase isForeground
  | handOver answers phase found =>
      rw [phase] at holds
      exact holds
  | waitChild phase found member inGroup reports =>
      rw [Counted, phase]
      rw [phase] at holds
      dsimp only
      split
      · exact (length_replaceChild machine.children _ _).trans holds
      · exact holds
  | waitInterrupted phase => exact holds
  | child member moves =>
      rw [Counted, length_replaceChild]
      exact holds
  | pipeFails phase more | forkFails phase found nonempty
  | closeNone phase nobody | background phase isBackground
  | finish phase reported => trivial

/-! ## The job -/

/-- The table knows the job under the group of the pipeline. -/
def Registered (machine : Machine σ) : Prop :=
  match machine.phase with
  | .creating | .forking _ | .grouping _ _ | .closing =>
      ∀ job ∈ machine.session.control.jobs,
        job.id < machine.session.control.nextJobId
  | .adding =>
      machine.pids ≠ [] ∧
        ∀ job ∈ machine.session.control.jobs,
          job.id < machine.session.control.nextJobId
  | .handing id | .waiting id =>
      machine.pids ≠ [] ∧
        ∀ job ∈ machine.session.control.jobs,
          job.id = id → job.pgid = machine.pgid
  | .returned _ => True

theorem updateProcess_source
    {control : JobControl} {pid : Int} {status : WaitStatus} {job : Job}
    (member : job ∈ (control.updateProcess pid status).jobs) :
    ∃ old ∈ control.jobs, old.id = job.id ∧ old.pgid = job.pgid := by
  rcases JobControl.mem_updateProcess member with
    old | ⟨source, isSource, rfl⟩
  · exact ⟨job, old, rfl, rfl⟩
  · exact ⟨source, isSource, rfl, rfl⟩

theorem addJob_registers
    {control : JobControl}
    (newId : ∀ job ∈ control.jobs, job.id < control.nextJobId)
    (pgid : Int) (pids : List Int) (lastPid : Int) (command : ByteString) :
    ∀ job ∈ (control.addJob pgid pids lastPid command).2.jobs,
      job.id = (control.addJob pgid pids lastPid command).1 →
        job.pgid = pgid := by
  intro job member sameId
  rcases List.mem_append.mp member with old | new
  · exact absurd sameId (Int.ne_of_lt (newId job old))
  · rw [List.mem_singleton.mp new]

theorem step_registered
    {machine next : Machine σ} {label : Label}
    (holds : Registered machine)
    (stepped : Step environment pipeline machine label next) :
    Registered next := by
  unfold Registered at holds
  cases stepped with
  | createPipe phase more =>
      rw [Registered, phase]
      rw [phase] at holds
      exact holds
  | beginForks phase enough | skip phase found empty
  | fork phase found nonempty unused | endForks phase past =>
      rw [phase] at holds
      exact holds
  | assignGroup phase =>
      rename_i index pid
      rw [phase] at holds
      rcases assignGroup_fields machine index pid with
        ⟨children, notices, assigned⟩
      rw [assigned]
      exact holds
  | close phase somebody =>
      rw [phase] at holds
      exact ⟨somebody, holds⟩
  | foreground phase isForeground =>
      rw [phase] at holds
      exact ⟨holds.1, addJob_registers holds.2 _ _ _ _⟩
  | handOver answers phase found =>
      rw [phase] at holds
      rw [Registered]
      dsimp only
      rw [giveTerminalTo_control]
      exact holds
  | waitChild phase found member inGroup reports =>
      rw [phase] at holds
      rw [Registered, phase]
      refine ⟨holds.1, fun job isJob sameId => ?_⟩
      rcases updateProcess_source isJob with ⟨old, isOld, oldId, oldPgid⟩
      rw [← oldPgid]
      exact holds.2 old isOld (oldId.trans sameId)
  | waitInterrupted phase => exact holds
  | child member moves => exact holds
  | pipeFails phase more | forkFails phase found nonempty
  | closeNone phase nobody | background phase isBackground
  | finish phase reported => trivial

/-! ## Whole runs -/

theorem run_grouped
    {shell : Table σ} {start machine : Machine σ} {labels : List Label}
    (isInitial : (launchSystem environment pipeline shell).initial start)
    (ran :
      (launchSystem environment pipeline shell).run start labels =
        some machine)
    (keeps : ∀ label ∈ labels, ¬ ChangesGroup label) :
    Grouped machine :=
  System.run_preserves_allowed Grouped (fun label => ¬ ChangesGroup label)
    (fun holds keeps stepped =>
      step_grouped holds keeps (step_of_launchStep stepped))
    (started_grouped isInitial.2) keeps ran

theorem reachable_registered
    {shell : Table σ} {machine : Machine σ}
    (reachable :
      (launchSystem environment pipeline shell).Reachable machine) :
    Counted pipeline machine ∧ Registered machine := by
  apply reachable.invariant fun machine =>
    Counted pipeline machine ∧ Registered machine
  · rintro start ⟨forks, started⟩
    rw [Counted, Registered, started.phase, started.children]
    exact ⟨rfl, started.newId⟩
  · intro machine label next holds stepped
    have step := step_of_launchStep stepped
    exact ⟨step_counted holds.1 step, step_registered holds.2 step⟩

/-- The parent has launched everybody and has the job before it. -/
def Attends : Phase → Prop
  | .adding => True
  | .handing _ => True
  | .waiting _ => True
  | _ => False

/-- The job that `wait_foreground` is called for. -/
def awaited : Phase → Option Int
  | .handing id => some id
  | .waiting id => some id
  | _ => none

theorem Grouped.everybody
    {machine : Machine σ} (holds : Grouped machine)
    (attends : Attends machine.phase) :
    machine.pids = childPids machine ∧
      ∀ child ∈ machine.children, child.pgid = firstPid machine := by
  have nobodyLeft : ungrouped machine.phase = [] := by
    cases phase : machine.phase with
    | grouping index pid =>
        rw [phase] at attends
        exact attends.elim
    | _ => rfl
  have listed := holds.pids
  rw [nobodyLeft, List.append_nil] at listed
  refine ⟨listed.symm, fun child member => ?_⟩
  apply (holds.members child member).settled
  rw [← listed]
  exact List.mem_map_of_mem member

theorem registered_pgid
    {machine : Machine σ} (holds : Registered machine) {id : Int}
    (isAwaited : awaited machine.phase = some id) {job : Job}
    (found : machine.session.control.findJob id = some job) :
    job.pgid = machine.pgid := by
  have member := List.mem_of_find?_eq_some found
  have sameId : job.id = id := by simpa using List.find?_some found
  unfold Registered at holds
  cases phase : machine.phase with
  | handing other | waiting other =>
      rw [phase] at holds isAwaited
      cases isAwaited
      exact holds.2 job member sameId
  | creating | forking | grouping | closing | adding | returned =>
      rw [phase] at isAwaited
      cases isAwaited

theorem registered_somebody
    {machine : Machine σ} (holds : Registered machine)
    (attends : Attends machine.phase) :
    machine.pids ≠ [] := by
  unfold Registered at holds
  cases phase : machine.phase with
  | adding | handing | waiting =>
      rw [phase] at holds
      exact holds.1
  | creating | forking | grouping | closing | returned =>
      rw [phase] at attends
      exact attends.elim

theorem counted_stages
    {machine : Machine σ} (holds : Counted pipeline machine)
    (attends : Attends machine.phase) :
    machine.children.length = stages pipeline.commands := by
  unfold Counted at holds
  cases phase : machine.phase with
  | adding | handing | waiting =>
      rw [phase] at holds
      exact holds
  | creating | forking | grouping | closing | returned =>
      rw [phase] at attends
      exact attends.elim

/--
One pipeline is one process group, in every run in which no program changes
its own group.  A child that may call `exec` or has called it is in the group
of the first child.  When the parent adds the job and whenever it waits for
it, there is a child for every stage and all of them, ended or not, are in
that group, which is also the one that the parent waits for; nobody has been
reaped before the first `waitpid`.
-/
theorem pipeline_is_one_group
    {shell : Table σ} {start machine : Machine σ} {labels : List Label}
    (isInitial : (launchSystem environment pipeline shell).initial start)
    (ran :
      (launchSystem environment pipeline shell).run start labels =
        some machine)
    (keeps : ∀ label ∈ labels, ¬ ChangesGroup label) :
    (∀ child ∈ machine.children,
      child.phase = .starting ∨ child.execed = true →
        child.pgid = firstPid machine) ∧
    (Attends machine.phase →
      machine.children.length = stages pipeline.commands ∧
        machine.pids = childPids machine ∧
        machine.pgid = firstPid machine ∧
        (∀ child ∈ machine.children, child.pgid = firstPid machine) ∧
        (Launching machine.phase →
          ∀ child ∈ machine.children, child.phase ≠ .reaped) ∧
        ∀ id job, awaited machine.phase = some id →
          machine.session.control.findJob id = some job →
            job.pgid = firstPid machine) := by
  have holds := run_grouped isInitial ran keeps
  have launched : Counted pipeline machine ∧ Registered machine :=
    reachable_registered ⟨start, labels, isInitial, ran⟩
  constructor
  · intro child member isReady
    apply (holds.members child member).joined
    rcases isReady with starting | execed
    · exact Or.inr (Or.inr (Or.inr (Or.inl starting)))
    · exact Or.inl execed
  · intro attends
    have samePgid :=
      holds.pgid_eq_firstPid (registered_somebody launched.2 attends)
    rcases holds.everybody attends with ⟨listed, together⟩
    refine ⟨counted_stages launched.1 attends, listed, samePgid, together,
      holds.unreaped, ?_⟩
    intro id job isAwaited found
    rw [registered_pgid launched.2 isAwaited found, samePgid]

/-- The first child has ended before the parent's call of `setpgid`, which is
refused with `EACCES`. -/
def earlyEnd : List Label :=
  [.pipe true, .parent, .fork (some 10), .child 10 .setGroup,
    .child 10 .resetSignals, .child 10 (.configure {}), .child 10 .exec,
    .child 10 .exit, .parent, .fork (some 11), .child 11 .setGroup, .parent,
    .parent, .parent]

theorem pipeline_is_one_group_earlyEnd :
    ∃ machine,
      (launchSystem sampleEnvironment samplePipeline sampleShell).run
          sampleStart earlyEnd = some machine ∧
        machine.phase = .adding ∧
        machine.children.map Child.phase = [.zombie, .resetting] ∧
        ∀ child ∈ machine.children, child.pgid = 10 := by
  have ran :
      ((launchSystem sampleEnvironment samplePipeline sampleShell).run
        sampleStart earlyEnd).map
          (fun machine =>
            (machine.phase, machine.children.map Child.phase,
              firstPid machine)) =
        some (.adding, [.zombie, .resetting], 10) := by
    decide +kernel
  rcases Option.map_eq_some_iff.mp ran with ⟨machine, arrived, seen⟩
  rcases Prod.mk.inj seen with ⟨isAdding, seen⟩
  rcases Prod.mk.inj seen with ⟨phases, first⟩
  have keeps : ∀ label ∈ earlyEnd, ¬ ChangesGroup label := by
    simp [earlyEnd, ChangesGroup]
  have attends : Attends machine.phase := by
    rw [isAdding]
    trivial
  have result :=
    (pipeline_is_one_group sampleStart_initial arrived keeps).2 attends
  refine ⟨machine, arrived, isAdding, phases, fun child member => ?_⟩
  rw [result.2.2.2.1 child member, first]

end Shell.ProcessGroups
