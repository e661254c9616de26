import Mathlib.Data.Finset.Basic
import Shell.Sandbox.Handshake

/-!
# The directory of a cgroup

What `execute_sandbox_child` does to the directories of the cgroup file system.
`CgroupScope::create` makes a directory, and `cleanup` removes it: inside
`create` where a limit cannot be set, and in the destructor wherever the
supervisor returns.  The worker has a copy of the object, but `_exit` runs no
destructor.

The state of the handshake is extended by the directories.  Its steps are the
steps of the handshake.
-/

namespace Shell.CgroupLifetime

open Shell.Syntax
open Shell.JobOperations
open Shell.TransitionSystem
open Shell.SandboxOptions
open Shell.ControlFiles
open Shell.Handshake

/-! ## Directories -/

/-- The processes that hold a `CgroupScope`. -/
inductive Holder where
  | supervisor
  | worker
deriving DecidableEq, Repr

/--
The answers to one attempt of the loop in `cleanup`.  The directory is removed;
or it is not, and `exists` is asked, which fails if its status is unknown.
-/
inductive Attempt where
  | removed
  | refused
  | unknown
deriving DecidableEq, Repr

/-- The directories, the answers to come, and what has been done so far. -/
structure Directories where
  present : Finset ByteString
  attempts : Nat → Attempt
  created : List ByteString := []
  /-- The processes that have called `cleanup`. -/
  cleaners : List Holder := []

/-- The loop of `cleanup`, with the number of attempts that are left. -/
def removeLoop (attempts : Nat → Attempt) (path : ByteString) :
    Nat → Nat → Finset ByteString → Finset ByteString
  | 0, _, present => present
  | left + 1, attempt, present =>
      match attempts attempt with
      | .removed => present.erase path
      | .refused =>
          if path ∈ present then
            removeLoop attempts path left (attempt + 1) present
          else
            present
      | .unknown => present

/-- A `CgroupScope` with the directories around it. -/
structure Scene where
  scope : CgroupScope
  directories : Directories

namespace Scene

/-- `CgroupScope::cleanup`. -/
def cleanup (host : Host) (holder : Holder) (scene : Scene) : Scene :=
  let directories :=
    { scene.directories with
      cleaners := scene.directories.cleaners ++ [holder] }
  { scope := scene.scope.cleanup host
    directories :=
      if scene.scope.path = [] then
        directories
      else
        { directories with
          present :=
            removeLoop directories.attempts scene.scope.path 20 0
              directories.present } }

/-- The writes of the limits in `CgroupScope::create`. -/
def writeLimits (host : Host) :
    List Limit → Scene → Except ByteString Unit × Scene
  | [], scene => (.ok (), scene)
  | limit :: later, scene =>
      match writeTextFile host limit.file limit.data scene.scope with
      | (.error message, scope) =>
          (.error message,
            { scene with scope := scope }.cleanup host .supervisor)
      | (.ok (), scope) => writeLimits host later { scene with scope := scope }

/-- `std::filesystem::create_directory`, where it returns true. -/
def makeDirectory (path : ByteString) (scene : Scene) : Scene where
  scope := { scene.scope with path := path }
  directories :=
    { scene.directories with
      present := insert path scene.directories.present
      created := scene.directories.created ++ [path] }

/-- `CgroupScope::create`. -/
def create (host : Host) (config : SandboxConfig) (scene : Scene) :
    Except ByteString Unit × Scene :=
  if limits config = [] then
    (.ok (), scene)
  else if host.mounted = false then
    (.error (literal "cgroup v2 is not mounted"), scene)
  else
    match host.currentCgroupPath with
    | none => (.error (literal "could not determine current cgroup"), scene)
    | some base =>
        match host.createError with
        | some reason =>
            (.error
              (literal "create cgroup " ++
                CgroupScope.directory host base ++ literal ": " ++ reason),
              scene)
        | none =>
            let scene :=
              scene.makeDirectory (CgroupScope.directory host base)
            match CgroupScope.requireControllers host (limits config) with
            | .error message =>
                (.error message, scene.cleanup host .supervisor)
            | .ok () => writeLimits host (limits config) scene

end Scene

/-! ## The handshake with its directories -/

/-- The handshake, the directories, and the worker's copy of the object. -/
structure Lifetime where
  machine : Machine
  workerScope : CgroupScope := {}
  directories : Directories

/-- How a process leaves `execute_sandbox_child`. -/
inductive Departure where
  | returns
  | exits
  | killed
deriving DecidableEq, Repr

namespace Lifetime

def scene (state : Lifetime) : Scene :=
  ⟨state.machine.scope, state.directories⟩

/-- The destructor runs where a process returns, and nowhere else. -/
def depart (state : Lifetime) (holder : Holder) :
    Departure → Directories
  | .returns =>
      let scope :=
        match holder with
        | .supervisor => state.machine.scope
        | .worker => state.workerScope
      (Scene.cleanup state.machine.host holder
        ⟨scope, state.directories⟩).directories
  | .exits => state.directories
  | .killed => state.directories

/-- The directories behind a step of the supervisor. -/
def supervisorDirectories (state : Lifetime) (label : Label) : Directories :=
  match label, state.machine.supervisor with
  | .create, .creating =>
      match state.scene.create state.machine.host state.machine.config with
      | (.ok (), scene) => scene.directories
      | (.error _, scene) =>
          (scene.cleanup state.machine.host .supervisor).directories
  | .pipe (some _), .piping => state.depart .supervisor .returns
  | .fork (.error _), .forking => state.depart .supervisor .returns
  | .wait _, .waitingUnattached => state.depart .supervisor .returns
  | .wait (.failed _), .waiting => state.depart .supervisor .returns
  | .wait .reaped, .waiting => state.depart .supervisor .returns
  | .die, _ => state.depart .supervisor .killed
  | _, _ => state.directories

/-- The directories behind a step of the worker. -/
def workerDirectories (state : Lifetime) (label : Label) : Directories :=
  match label, state.machine.worker with
  | .prctl false, .noted _ => state.depart .worker .exits
  | .checkParent, .armed supervisor =>
      if state.machine.parentPid ≠ supervisor then
        state.depart .worker .exits
      else
        state.directories
  | .workerResetRead, .closingRead count =>
      if count ≠ 1 then state.depart .worker .exits else state.directories
  -- The result of `run_inside_namespaces` is the argument of `_exit`.
  | .finish _, .inside => state.depart .worker .exits
  | .perish, _ => state.depart .worker .killed
  | _, _ => state.directories

end Lifetime

/-- One step of either process. -/
def lifetimeStep (state : Lifetime) (label : Label) : Option Lifetime :=
  (machineStep state.machine label).map fun machine =>
    { machine := machine
      workerScope :=
        match label with
        | .fork (.ok _) => state.machine.scope
        | _ => state.workerScope
      directories :=
        if label.ofSupervisor then state.supervisorDirectories label
        else state.workerDirectories label }

/-- Some attempt removes the directory, and no earlier one ends the loop. -/
def RemovesInTime (attempts : Nat → Attempt) : Prop :=
  ∃ attempt < 20,
    attempts attempt = .removed ∧
      ∀ earlier < attempt, attempts earlier = .refused

/-- A directory that `create_directory` makes was not there before. -/
def CreatesNew (host : Host) (before : Finset ByteString) : Prop :=
  host.createError = none →
    ∀ base ∈ host.currentCgroupPath, CgroupScope.directory host base ∉ before

/-- The call of `execute_sandbox_child`. -/
def Lifetime.start (host : Host) (config : SandboxConfig)
    (before : Finset ByteString) (attempts : Nat → Attempt) : Lifetime where
  machine := { host := host, config := config }
  directories := { present := before, attempts := attempts }

def lifetime : System Lifetime Label where
  initial state :=
    ∃ host config before attempts,
      state = .start host config before attempts ∧
        CreatesNew host before ∧ RemovesInTime attempts
  step := lifetimeStep

/-- Without the directories, the runs are those of the handshake. -/
theorem machine_of_lifetime (state : Lifetime) (labels : List Label) :
    (lifetime.run state labels).map Lifetime.machine =
      handshake.run state.machine labels := by
  induction labels generalizing state with
  | nil => rfl
  | cons label labels induction =>
      rw [System.run, System.run, Option.map_bind]
      show ((lifetimeStep state label).bind _) =
        (machineStep state.machine label).bind _
      unfold lifetimeStep
      rw [Option.bind_map]
      exact congrArg _ (funext fun machine => induction _)

/-! ## The object without the directories -/

namespace Scene

theorem writeLimits_scope (host : Host) (chosen : List Limit) (scene : Scene) :
    (writeLimits host chosen scene).map id Scene.scope =
      CgroupScope.writeLimits host chosen scene.scope := by
  induction chosen generalizing scene with
  | nil => rfl
  | cons limit later induction =>
      rw [writeLimits, CgroupScope.writeLimits]
      rcases writeTextFile host limit.file limit.data scene.scope with
        ⟨message | ⟨⟩, scope⟩
      · rfl
      · exact induction _

/-- `create` does to the object what it does without the directories. -/
theorem create_scope (host : Host) (config : SandboxConfig) (scene : Scene) :
    (scene.create host config).map id Scene.scope =
      scene.scope.create host config := by
  unfold create CgroupScope.create
  split_ifs
  · rfl
  · rfl
  · cases host.currentCgroupPath with
    | none => rfl
    | some base =>
        cases host.createError with
        | some reason => rfl
        | none =>
            cases CgroupScope.requireControllers host (limits config) with
            | error message => rfl
            | ok => exact writeLimits_scope host _ _

end Scene

/-! ## Who owns the directory -/

theorem path_writeTextFile
    (host : Host) (file : ControlFile) (data : ByteString)
    (scope : CgroupScope) :
    (writeTextFile host file data scope).2.path = scope.path := by
  unfold writeTextFile OutputStream.destroy
  split
  · rfl
  · dsimp only
    split_ifs <;> rfl

theorem path_attach
    {host : Host} {pid : Int} {scope next : CgroupScope}
    {result : Except ByteString Unit}
    (attached : scope.attach host pid = (result, next)) :
    next.path = scope.path := by
  unfold CgroupScope.attach at attached
  split_ifs at attached
  · cases attached
    rfl
  · have samePath := path_writeTextFile host .procs (decimal pid) scope
    rw [attached] at samePath
    exact samePath

theorem path_cleanup (host : Host) (scope : CgroupScope) :
    (scope.cleanup host).path = [] := by
  unfold CgroupScope.cleanup
  split_ifs with noPath
  · exact noPath
  · rfl
  · rfl

/-- The loop removes the directory, if it is removed at all. -/
theorem removeLoop_eq_erase
    {attempts : Nat → Attempt} {path : ByteString}
    {present : Finset ByteString} {attempt : Nat}
    (removed : attempts attempt = .removed)
    (refused : ∀ earlier < attempt, attempts earlier = .refused)
    (isPresent : path ∈ present)
    {left first : Nat} (notYet : first ≤ attempt)
    (inTime : attempt < first + left) :
    removeLoop attempts path left first present = present.erase path := by
  induction left generalizing first with
  | zero => omega
  | succ left induction =>
      rw [removeLoop]
      rcases Nat.eq_or_lt_of_le notYet with rfl | earlier
      · rw [removed]
      · -- The directory is still there, so the loop goes on.
        rw [refused first earlier]
        simp only [if_pos isPresent]
        exact induction earlier (by omega)

/-- The directories are those of the beginning and the one that the object
owns. -/
structure Scene.Owns (before : Finset ByteString) (scene : Scene) : Prop where
  removable : RemovesInTime scene.directories.attempts
  present :
    scene.directories.present =
      if scene.scope.path = [] then before
      else insert scene.scope.path before
  new : scene.scope.path ≠ [] → scene.scope.path ∉ before
  once : scene.directories.created.length ≤ 1
  cleaners :
    ∀ cleaner ∈ scene.directories.cleaners, cleaner = .supervisor

namespace Scene.Owns

variable {before : Finset ByteString} {scene : Scene}

/-- Only the path of the object matters. -/
theorem of_path
    (owns : scene.Owns before) {scope : CgroupScope}
    (samePath : scope.path = scene.scope.path) :
    Scene.Owns before ⟨scope, scene.directories⟩ where
  removable := owns.removable
  present := by
    rw [samePath]
    exact owns.present
  new := by
    rw [samePath]
    exact owns.new
  once := owns.once
  cleaners := owns.cleaners

/-- `cleanup` removes what the object owns and nothing else. -/
theorem cleanup_directories (owns : scene.Owns before) (host : Host) :
    (scene.cleanup host .supervisor).directories =
      { scene.directories with
        present := before
        cleaners := scene.directories.cleaners ++ [.supervisor] } := by
  have present := owns.present
  by_cases empty : scene.scope.path = []
  · rw [if_pos empty] at present
    simp only [Scene.cleanup, if_pos empty, ← present]
  · rw [if_neg empty] at present
    rcases owns.removable with ⟨attempt, inTime, removed, refused⟩
    have gone :
        removeLoop scene.directories.attempts scene.scope.path 20 0
          scene.directories.present = before := by
      rw [present, removeLoop_eq_erase removed refused
        (Finset.mem_insert_self _ _) (Nat.zero_le _) (by omega)]
      exact Finset.erase_insert (owns.new empty)
    simp only [Scene.cleanup, if_neg empty, gone]

theorem cleanup (owns : scene.Owns before) (host : Host) :
    (scene.cleanup host .supervisor).Owns before := by
  have noPath : (scene.cleanup host .supervisor).scope.path = [] :=
    path_cleanup host scene.scope
  constructor
  · rw [owns.cleanup_directories host]
    exact owns.removable
  · rw [owns.cleanup_directories host, if_pos noPath]
  · exact fun hasPath => absurd noPath hasPath
  · rw [owns.cleanup_directories host]
    exact owns.once
  · rw [owns.cleanup_directories host]
    intro cleaner isCleaner
    rcases List.mem_append.mp isCleaner with earlier | last
    · exact owns.cleaners cleaner earlier
    · exact List.mem_singleton.mp last

theorem writeLimits
    (owns : scene.Owns before) (host : Host) (chosen : List Limit) :
    (Scene.writeLimits host chosen scene).2.Owns before := by
  induction chosen generalizing scene with
  | nil => exact owns
  | cons limit later induction =>
      have samePath :=
        path_writeTextFile host limit.file limit.data scene.scope
      rw [Scene.writeLimits]
      split
      · rename_i written
        rw [written] at samePath
        exact (owns.of_path samePath).cleanup host
      · rename_i written
        rw [written] at samePath
        exact induction (owns.of_path samePath)

theorem makeDirectory
    (owns : scene.Owns before) (empty : scene.scope.path = [])
    (first : scene.directories.created = [])
    {path : ByteString} (nonempty : path ≠ []) (new : path ∉ before) :
    (scene.makeDirectory path).Owns before where
  removable := owns.removable
  present := by
    have same := owns.present
    rw [if_pos empty] at same
    simp only [Scene.makeDirectory, if_neg nonempty, same]
  new _ := new
  once := by
    simp only [Scene.makeDirectory, first, List.nil_append,
      List.length_singleton, le_refl]
  cleaners := owns.cleaners

/-- Every way out of `create` leaves the object with what it has made. -/
theorem create
    (owns : scene.Owns before) (empty : scene.scope.path = [])
    (first : scene.directories.created = []) {host : Host}
    (createsNew : CreatesNew host before) (config : SandboxConfig) :
    (scene.create host config).2.Owns before := by
  unfold Scene.create
  split_ifs
  · exact owns
  · exact owns
  · split
    · exact owns
    · rename_i base isBase
      split
      · exact owns
      · rename_i noError
        have made :
            (scene.makeDirectory (CgroupScope.directory host base)).Owns
              before :=
          owns.makeDirectory empty first
            (CgroupScope.directory_ne_nil host base)
            (createsNew noError base isBase)
        dsimp only
        split
        · exact made.cleanup host
        · exact made.writeLimits host _

end Scene.Owns

/-! ## Everything a step can do -/

/-- The phases between `create` and the return. -/
def underWay : SupervisorPhase → Bool
  | .creating | .returned _ => false
  | _ => true

/-- What a step does to the object of the supervisor and the directories. -/
inductive LifetimeStep (state next : Lifetime) : Prop where
  | creates {scene : Scene}
      (isCreating : state.machine.supervisor = .creating)
      (created :
        state.scene.create state.machine.host state.machine.config =
          (.ok (), scene))
      (scope : next.machine.scope = scene.scope)
      (goesOn : underWay next.machine.supervisor = true)
      (directories : next.directories = scene.directories)
  | createFails {message : ByteString} {scene : Scene}
      (isCreating : state.machine.supervisor = .creating)
      (failed :
        state.scene.create state.machine.host state.machine.config =
          (.error message, scene))
      (scope :
        next.machine.scope =
          (scene.cleanup state.machine.host .supervisor).scope)
      (returned : next.machine.supervisor = .returned 1)
      (directories :
        next.directories =
          (scene.cleanup state.machine.host .supervisor).directories)
  | returns {status : Int}
      (scope :
        next.machine.scope =
          (state.scene.cleanup state.machine.host .supervisor).scope)
      (returned : next.machine.supervisor = .returned status)
      (directories :
        next.directories =
          (state.scene.cleanup state.machine.host .supervisor).directories)
  | stays
      (host : next.machine.host = state.machine.host)
      (samePath : next.machine.scope.path = state.machine.scope.path)
      (phase :
        next.machine.supervisor = state.machine.supervisor ∨
          underWay next.machine.supervisor = true)
      (directories : next.directories = state.directories)

/-- `create` with the directories, where it is known without them. -/
theorem Scene.create_eq
    {host : Host} {config : SandboxConfig} {scene : Scene}
    {result : Except ByteString Unit} {scope : CgroupScope}
    (created : scene.scope.create host config = (result, scope)) :
    ∃ directories,
      scene.create host config = (result, ⟨scope, directories⟩) := by
  have same := create_scope host config scene
  rw [created] at same
  rcases made : scene.create host config with ⟨answer, next, directories⟩
  rw [made] at same
  cases same
  exact ⟨directories, rfl⟩

theorem lifetimeStep_of_supervisorStep
    {state next : Lifetime} {label : Label}
    (stepped : SupervisorStep state.machine label next.machine)
    (directories : next.directories = state.supervisorDirectories label) :
    LifetimeStep state next := by
  rcases next with ⟨machine, workerScope, after⟩
  dsimp only at stepped directories
  subst directories
  cases stepped with
  | create isCreating created =>
      rcases Scene.create_eq
        (show state.scene.scope.create _ _ = _ from created) with
        ⟨made, same⟩
      refine .creates isCreating same rfl rfl ?_
      simp only [Lifetime.supervisorDirectories, isCreating, same]
  | createFails isCreating failed =>
      rcases Scene.create_eq
        (show state.scene.scope.create _ _ = _ from failed) with
        ⟨made, same⟩
      refine .createFails isCreating same rfl rfl ?_
      simp only [Lifetime.supervisorDirectories, isCreating, same]
  | pipeFails phase | forkFails phase | waitUnattached phase
  | waitFails phase | wait phase =>
      refine .returns rfl rfl ?_
      simp only [Lifetime.supervisorDirectories, phase]
      rfl
  | attach isAttaching attached | attachFails isAttaching attached =>
      exact .stays rfl (path_attach attached) (Or.inr rfl) rfl
  | waitInterrupted isWaiting =>
      refine .stays rfl rfl (Or.inl rfl) ?_
      simp only [Lifetime.supervisorDirectories, isWaiting]
  | die => exact .stays rfl rfl (Or.inl rfl) rfl
  | pipe | fork | resetRead | killUnattached | closeUnattached | send
  | sendFails | killUnsent | close =>
      exact .stays rfl rfl (Or.inr rfl) rfl

/-- Whatever the worker does, it leaves the directories alone. -/
theorem workerDirectories_eq (state : Lifetime) (label : Label) :
    state.workerDirectories label = state.directories := by
  unfold Lifetime.workerDirectories
  split
  · rfl
  · exact ite_self _
  · exact ite_self _
  · rfl
  · rfl
  · rfl

theorem lifetimeStep_of_workerStep
    {state next : Lifetime} {label : Label}
    (stepped : WorkerStep state.machine label next.machine)
    (directories : next.directories = state.directories) :
    LifetimeStep state next := by
  rcases next with ⟨machine, workerScope, after⟩
  cases stepped <;> exact .stays rfl rfl (Or.inl rfl) directories

theorem lifetimeStep_cases
    {state next : Lifetime} {label : Label}
    (stepped : lifetimeStep state label = some next) :
    LifetimeStep state next := by
  rcases Option.map_eq_some_iff.mp stepped with ⟨machine, moved, rfl⟩
  unfold machineStep at moved
  split_ifs at moved with ofSupervisor alive
  · exact lifetimeStep_of_supervisorStep (supervisorStep_cases moved)
      (if_pos ofSupervisor)
  · apply lifetimeStep_of_workerStep (workerStep_cases moved)
    exact (if_neg ofSupervisor).trans (workerDirectories_eq state label)

/-! ## No directory is left behind -/

/-- What holds of the object and the directories in every state. -/
structure Tidy (before : Finset ByteString) (state : Lifetime) : Prop where
  owns : state.scene.Owns before
  creating :
    state.machine.supervisor = .creating →
      state.machine.scope.path = [] ∧ state.directories.created = [] ∧
        CreatesNew state.machine.host before
  returned :
    ∀ status, state.machine.supervisor = .returned status →
      state.machine.scope.path = []

section Tidy

variable {before : Finset ByteString} {state next : Lifetime} {label : Label}

theorem Tidy.of_underWay
    (owns : state.scene.Owns before)
    (goesOn : underWay state.machine.supervisor = true) :
    Tidy before state where
  owns := owns
  creating creating := by
    rw [creating] at goesOn
    cases goesOn
  returned status returned := by
    rw [returned] at goesOn
    cases goesOn

theorem Tidy.of_returned
    (owns : state.scene.Owns before) {status : Int}
    (returned : state.machine.supervisor = .returned status)
    (empty : state.machine.scope.path = []) :
    Tidy before state where
  owns := owns
  creating creating := by
    rw [returned] at creating
    cases creating
  returned _ _ := empty

theorem Tidy.step
    (tidy : Tidy before state)
    (stepped : lifetimeStep state label = some next) :
    Tidy before next := by
  cases lifetimeStep_cases stepped with
  | creates isCreating created scope goesOn directories =>
      rcases tidy.creating isCreating with ⟨empty, first, createsNew⟩
      have owns := tidy.owns.create empty first createsNew
        state.machine.config
      rw [created] at owns
      apply Tidy.of_underWay _ goesOn
      rw [Lifetime.scene, scope, directories]
      exact owns
  | createFails isCreating failed scope returned directories =>
      rcases tidy.creating isCreating with ⟨empty, first, createsNew⟩
      have owns := tidy.owns.create empty first createsNew
        state.machine.config
      rw [failed] at owns
      apply Tidy.of_returned _ returned
      · rw [scope]
        exact path_cleanup _ _
      · rw [Lifetime.scene, scope, directories]
        exact owns.cleanup state.machine.host
  | returns scope returned directories =>
      apply Tidy.of_returned _ returned
      · rw [scope]
        exact path_cleanup _ _
      · rw [Lifetime.scene, scope, directories]
        exact tidy.owns.cleanup state.machine.host
  | stays host samePath phase directories =>
      have owns : next.scene.Owns before := by
        rw [Lifetime.scene, directories]
        exact tidy.owns.of_path samePath
      rcases phase with same | goesOn
      · refine ⟨owns, ?_, ?_⟩
        · rw [same, samePath, directories, host]
          exact tidy.creating
        · rw [same, samePath]
          exact tidy.returned
      · exact Tidy.of_underWay owns goesOn

end Tidy

theorem Tidy.start
    {host : Host} {before : Finset ByteString} {attempts : Nat → Attempt}
    (createsNew : CreatesNew host before)
    (removable : RemovesInTime attempts) (config : SandboxConfig) :
    Tidy before (.start host config before attempts) where
  owns :=
    { removable := removable
      present := rfl
      new := fun hasPath => absurd rfl hasPath
      once := Nat.zero_le 1
      cleaners := List.forall_mem_nil _ }
  creating _ := ⟨rfl, rfl, createsNew⟩
  returned _ returned := by cases returned

/--
However the calls of the two processes fail and in whatever order they come,
the directories behind a return of the supervisor are those before the call.
At most one was made, and the worker has not touched it.
-/
theorem no_directory_left
    {host : Host} {before : Finset ByteString} {attempts : Nat → Attempt}
    (createsNew : CreatesNew host before)
    (removable : RemovesInTime attempts) {config : SandboxConfig}
    {state : Lifetime} {labels : List Label}
    (ran :
      lifetime.run (.start host config before attempts) labels = some state) :
    (∀ status, state.machine.supervisor = .returned status →
        state.directories.present = before) ∧
      state.directories.created.length ≤ 1 ∧
      ∀ cleaner ∈ state.directories.cleaners, cleaner = .supervisor := by
  have tidy : Tidy before state :=
    System.run_preserves (Tidy before) Tidy.step
      (Tidy.start createsNew removable config) ran
  refine ⟨?_, tidy.owns.once, tidy.owns.cleaners⟩
  intro status returned
  exact tidy.owns.present.trans (if_pos (tidy.returned status returned))

/-- The first attempt fails. -/
def secondAttempt (attempt : Nat) : Attempt :=
  if attempt = 0 then .refused else .removed

/-- A run in which the directory is made and the worker cannot be created. -/
theorem no_directory_left_sample :
    ∃ state,
      lifetime.run
          (.start sampleHost sampleConfig {literal "/sys/fs/cgroup"}
            secondAttempt)
          [.create, .pipe none, .fork (.error (literal "EAGAIN"))] =
        some state ∧
      state.directories.created.length = 1 ∧
      state.directories.present = {literal "/sys/fs/cgroup"} := by
  have ran :
      (lifetime.run
          (.start sampleHost sampleConfig {literal "/sys/fs/cgroup"}
            secondAttempt)
          [.create, .pipe none, .fork (.error (literal "EAGAIN"))]).map
        (fun state =>
          (state.machine.supervisor, state.directories.created.length)) =
        some (.returned 1, 1) := by
    decide +kernel
  rcases Option.map_eq_some_iff.mp ran with ⟨state, arrived, seen⟩
  rcases Prod.mk.inj seen with ⟨returned, once⟩
  have createsNew :
      CreatesNew sampleHost {literal "/sys/fs/cgroup"} := by
    rintro - base ⟨⟩
    decide +kernel
  have removable : RemovesInTime secondAttempt := by
    refine ⟨1, by decide, by decide, ?_⟩
    decide
  exact ⟨state, arrived, once,
    (no_directory_left createsNew removable arrived).1 1 returned⟩

end Shell.CgroupLifetime
