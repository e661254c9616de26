import Mathlib.Data.Finset.Basic
import Shell.Executor.Descriptors
import Shell.Library.TransitionSystem

/-!
# The owners of descriptors

The class `UniqueFd` under every sequence of its operations.  The state has the
objects that are alive, the descriptor table of the process, and the descriptors
that the code around the objects has as plain numbers: those that `open` or
`pipe` has just returned, and those that were released.  An object may only be
given such a descriptor.
-/

namespace Shell.Ownership

open Shell.DescriptorTable
open Shell.Descriptors
open Shell.TransitionSystem

variable {σ Name : Type*} [DecidableEq Name]

/-! ## The operations -/

/-- Objects by their names, and descriptors without an object. -/
structure Ledger (σ Name : Type*) where
  table : Table (Description σ)
  objects : Name → Option UniqueFd := fun _ => none
  loose : Finset ℕ := ∅
  /-- The calls of `close` for a descriptor that is not open. -/
  badCloses : ℕ := 0

/-- The operations of the class, and what the code around it does. -/
inductive Operation (σ Name : Type*) where
  | open (entry : Description σ)
  | closeLoose (fd : ℕ)
  | construct (name : Name) (fd : UniqueFd)
  | moveConstruct (name other : Name)
  | moveAssign (name other : Name)
  | release (name : Name)
  | reset (name : Name) (newFd : UniqueFd)
  | destroy (name : Name)

namespace Ledger

/-- `close` if the descriptor is not negative. -/
def close (ledger : Ledger σ Name) (fd : UniqueFd) : Ledger σ Name :=
  { ledger with
    table := Descriptors.reset fd ledger.table
    badCloses :=
      ledger.badCloses +
        match fd with
        | none => 0
        | some fd => if ledger.table.lookup fd = none then 1 else 0 }

/-- The member `fd_` of an object, or the end of the object. -/
def assign (ledger : Ledger σ Name) (name : Name)
    (value : Option UniqueFd) : Ledger σ Name :=
  { ledger with objects := Function.update ledger.objects name value }

def deposit (ledger : Ledger σ Name) (fd : ℕ) : Ledger σ Name :=
  { ledger with loose := insert fd ledger.loose }

def withdraw (ledger : Ledger σ Name) (fd : UniqueFd) : Ledger σ Name :=
  { ledger with
    loose :=
      match fd with
      | none => ledger.loose
      | some fd => ledger.loose.erase fd }

/-- The number may be given to an object. -/
def Offers (ledger : Ledger σ Name) (fd : UniqueFd) : Prop :=
  ∀ number ∈ fd, number ∈ ledger.loose

instance (ledger : Ledger σ Name) (fd : UniqueFd) :
    Decidable (ledger.Offers fd) :=
  match fd with
  | none => isTrue nofun
  | some fd =>
      decidable_of_iff (fd ∈ ledger.loose)
        ⟨fun isLoose _ same => Option.some.inj same ▸ isLoose,
          fun offers => offers fd rfl⟩

/-- `UniqueFd::reset` of an object with the descriptor `fd`. -/
def resetObject (ledger : Ledger σ Name) (name : Name)
    (fd newFd : UniqueFd) : Ledger σ Name :=
  (ledger.close fd).assign name (some newFd)

end Ledger

/-- One operation.  It is not possible if its objects are not alive, if the name
of a new object is taken, or if a descriptor belongs to an object. -/
def ledgerStep (ledger : Ledger σ Name) :
    Operation σ Name → Option (Ledger σ Name)
  | .open entry =>
      let opened := ledger.table.allocate entry
      some ({ ledger with table := opened.2 }.deposit opened.1)
  | .closeLoose fd =>
      if fd ∈ ledger.loose then
        some ((ledger.close (some fd)).withdraw (some fd))
      else
        none
  | .construct name fd =>
      if ledger.objects name = none ∧ ledger.Offers fd then
        some ((ledger.withdraw fd).assign name (some fd))
      else
        none
  | .moveConstruct name other =>
      match ledger.objects name, ledger.objects other with
      | none, some fd =>
          some ((ledger.assign other (some none)).assign name (some fd))
      | _, _ => none
  | .moveAssign name other =>
      match ledger.objects name, ledger.objects other with
      | some mine, some fd =>
          if name = other then
            some ledger
          else
            some
              ((ledger.assign other (some none)).resetObject name mine fd)
      | _, _ => none
  | .release name =>
      match ledger.objects name with
      | none => none
      | some none => some ledger
      | some (some fd) =>
          some ((ledger.assign name (some none)).deposit fd)
  | .reset name newFd =>
      match ledger.objects name with
      | none => none
      | some fd =>
          if ledger.Offers newFd then
            some ((ledger.withdraw newFd).resetObject name fd newFd)
          else
            none
  | .destroy name =>
      match ledger.objects name with
      | none => none
      | some fd => some ((ledger.close fd).assign name none)

/-- The objects of a process that has the table `base` in the beginning. -/
def ledgers (base : Table (Description σ)) :
    System (Ledger σ Name) (Operation σ Name) where
  initial ledger := ledger = { table := base }
  step := ledgerStep

theorem Ledger.objects_assign_self (ledger : Ledger σ Name) (name : Name)
    (value : Option UniqueFd) :
    (ledger.assign name value).objects name = value := by
  show Function.update ledger.objects name value name = value
  exact Function.update_self ..

theorem Ledger.assign_assign (ledger : Ledger σ Name) (name : Name)
    (first second : Option UniqueFd) :
    (ledger.assign name first).assign name second =
      ledger.assign name second := by
  unfold Ledger.assign
  rw [Function.update_idem]

theorem Ledger.assign_comm (ledger : Ledger σ Name) {name other : Name}
    (different : name ≠ other) (first second : Option UniqueFd) :
    (ledger.assign name first).assign other second =
      (ledger.assign other second).assign name first := by
  unfold Ledger.assign
  rw [Function.update_comm different]

/-! ## Who holds a descriptor -/

inductive Holder (Name : Type*) where
  | object (name : Name)
  | loose (fd : ℕ)
deriving DecidableEq

namespace Ledger

def holds (ledger : Ledger σ Name) : Holder Name → Option ℕ
  | .object name => (ledger.objects name).join
  | .loose fd => if fd ∈ ledger.loose then some fd else none

theorem holds_assign (ledger : Ledger σ Name) (name : Name)
    (value : Option UniqueFd) :
    (ledger.assign name value).holds =
      Function.update ledger.holds (.object name) value.join := by
  funext holder
  cases holder with
  | loose fd => rfl
  | object other =>
      by_cases same : other = name
      · subst same
        rw [Function.update_self]
        exact congrArg Option.join (Function.update_self ..)
      · rw [Function.update_of_ne fun isName =>
          same (Holder.object.inj isName)]
        exact congrArg Option.join (Function.update_of_ne same ..)

theorem holds_deposit (ledger : Ledger σ Name) (fd : ℕ) :
    (ledger.deposit fd).holds =
      Function.update ledger.holds (.loose fd) (some fd) := by
  funext holder
  cases holder with
  | object name => rfl
  | loose other =>
      by_cases same : other = fd
      · subst same
        rw [Function.update_self]
        exact if_pos (Finset.mem_insert_self ..)
      · rw [Function.update_of_ne fun isLoose =>
          same (Holder.loose.inj isLoose)]
        exact if_congr
          ((Finset.mem_insert).trans (or_iff_right same)) rfl rfl

theorem holds_withdraw_some (ledger : Ledger σ Name) (fd : ℕ) :
    (ledger.withdraw (some fd)).holds =
      Function.update ledger.holds (.loose fd) none := by
  funext holder
  cases holder with
  | object name => rfl
  | loose other =>
      by_cases same : other = fd
      · subst same
        rw [Function.update_self]
        exact if_neg (Finset.notMem_erase other ledger.loose)
      · rw [Function.update_of_ne fun isLoose =>
          same (Holder.loose.inj isLoose)]
        exact if_congr
          ((Finset.mem_erase).trans (and_iff_right same)) rfl rfl

end Ledger

/-- Every descriptor that was opened has one holder, and nothing was closed
twice. -/
structure Sound (base : Table (Description σ)) (ledger : Ledger σ Name) :
    Prop where
  custody : Custody base ledger.table ledger.holds
  noBadCloses : ledger.badCloses = 0

namespace Sound

variable {base : Table (Description σ)} {ledger : Ledger σ Name}

theorem openLoose (sound : Sound base ledger) (entry : Description σ) :
    Sound base
      ({ ledger with table := (ledger.table.allocate entry).2 }.deposit
        (ledger.table.allocate entry).1) := by
  refine ⟨?_, sound.noBadCloses⟩
  rw [Ledger.holds_deposit]
  refine sound.custody.allocate ?_ entry
  -- A loose descriptor is open, so the new one is none of them.
  refine if_neg fun isLoose => ?_
  have isHeld :
      ledger.holds (.loose (ledger.table.allocate entry).1) =
        some ledger.table.firstFree :=
    if_pos isLoose
  exact sound.custody.isOpen isHeld ledger.table.lookup_firstFree

theorem closeHeld
    (sound : Sound base ledger) {holder : Holder Name} {fd : UniqueFd}
    (isHeld : ledger.holds holder = fd) :
    Custody base (ledger.close fd).table
        (Function.update ledger.holds holder none) ∧
      (ledger.close fd).badCloses = 0 := by
  cases fd with
  | none =>
      rw [Function.update_eq_self_iff.mpr isHeld.symm]
      exact ⟨sound.custody, sound.noBadCloses⟩
  | some fd =>
      refine ⟨sound.custody.close isHeld, ?_⟩
      show ledger.badCloses + (if _ then 1 else 0) = 0
      rw [if_neg (sound.custody.isOpen isHeld), sound.noBadCloses]

theorem closeLoose
    (sound : Sound base ledger) {fd : ℕ} (isLoose : fd ∈ ledger.loose) :
    Sound base ((ledger.close (some fd)).withdraw (some fd)) := by
  have isHeld : ledger.holds (.loose fd) = some fd := if_pos isLoose
  rcases sound.closeHeld isHeld with ⟨custody, noBadCloses⟩
  refine ⟨?_, noBadCloses⟩
  rw [Ledger.holds_withdraw_some]
  exact custody

/-- The object closes its descriptor, and is empty or has ended. -/
theorem closeObject
    (sound : Sound base ledger) {name : Name} {fd : UniqueFd}
    (isObject : ledger.objects name = some fd) {value : Option UniqueFd}
    (isEmpty : value.join = none) :
    Sound base ((ledger.close fd).assign name value) := by
  have isHeld : ledger.holds (.object name) = fd :=
    congrArg Option.join isObject
  rcases sound.closeHeld isHeld with ⟨custody, noBadCloses⟩
  refine ⟨?_, noBadCloses⟩
  rw [Ledger.holds_assign, isEmpty]
  exact custody

/-- An object without a descriptor gets a loose one. -/
theorem give
    (sound : Sound base ledger) {name : Name} {fd : UniqueFd}
    (isEmpty : (ledger.objects name).join = none)
    (offers : ledger.Offers fd) :
    Sound base ((ledger.withdraw fd).assign name (some fd)) := by
  cases fd with
  | none =>
      refine ⟨?_, sound.noBadCloses⟩
      rw [Ledger.holds_assign]
      have unchanged :
          Function.update ledger.holds (.object name) none = ledger.holds :=
        Function.update_eq_self_iff.mpr isEmpty.symm
      exact unchanged.symm ▸ sound.custody
  | some fd =>
      have isLoose : ledger.holds (.loose fd) = some fd :=
        if_pos (offers fd rfl)
      have nothing : ledger.holds (.object name) = none := isEmpty
      have moved := sound.custody.transfer (.loose fd) nothing
      rw [isLoose] at moved
      refine ⟨?_, sound.noBadCloses⟩
      rw [Ledger.holds_assign, Ledger.holds_withdraw_some]
      exact moved

/-- An object without a descriptor gets the one of another object. -/
theorem move
    (sound : Sound base ledger) {name other : Name} {fd : UniqueFd}
    (isEmpty : (ledger.objects name).join = none)
    (isOther : ledger.objects other = some fd) :
    Sound base ((ledger.assign other (some none)).assign name (some fd)) := by
  have isHeld : ledger.holds (.object other) = fd :=
    congrArg Option.join isOther
  have nothing : ledger.holds (.object name) = none := isEmpty
  have moved := sound.custody.transfer (.object other) nothing
  rw [isHeld] at moved
  refine ⟨?_, sound.noBadCloses⟩
  rw [Ledger.holds_assign, Ledger.holds_assign]
  exact moved

theorem release
    (sound : Sound base ledger) {name : Name} {fd : ℕ}
    (isObject : ledger.objects name = some (some fd)) :
    Sound base ((ledger.assign name (some none)).deposit fd) := by
  have isHeld : ledger.holds (.object name) = some fd :=
    congrArg Option.join isObject
  have notLoose : ledger.holds (.loose fd) = none := by
    refine if_neg fun isLoose => ?_
    have isOther : ledger.holds (.loose fd) = some fd := if_pos isLoose
    cases sound.custody.alone isHeld isOther
  have moved := sound.custody.transfer (.object name) notLoose
  rw [isHeld] at moved
  refine ⟨?_, sound.noBadCloses⟩
  rw [Ledger.holds_deposit, Ledger.holds_assign]
  exact moved

theorem resetObject
    (sound : Sound base ledger) {name : Name} {fd newFd : UniqueFd}
    (isObject : ledger.objects name = some fd)
    (offers : ledger.Offers newFd) :
    Sound base ((ledger.withdraw newFd).resetObject name fd newFd) := by
  have emptied :
      Sound base ((ledger.close fd).assign name (some none)) :=
    sound.closeObject isObject rfl
  have isEmpty :
      (((ledger.close fd).assign name (some none)).objects name).join =
        none :=
    congrArg Option.join (Ledger.objects_assign_self ..)
  have given := emptied.give isEmpty offers
  have same :
      (((ledger.close fd).assign name (some none)).withdraw newFd).assign name
          (some newFd) =
        (ledger.withdraw newFd).resetObject name fd newFd :=
    ((ledger.withdraw newFd).close fd).assign_assign name (some none)
      (some newFd)
  exact same ▸ given

theorem moveAssign
    (sound : Sound base ledger) {name other : Name} {mine fd : UniqueFd}
    (different : name ≠ other)
    (isObject : ledger.objects name = some mine)
    (isOther : ledger.objects other = some fd) :
    Sound base
      ((ledger.assign other (some none)).resetObject name mine fd) := by
  have emptied :
      Sound base ((ledger.close mine).assign name (some none)) :=
    sound.closeObject isObject rfl
  have isEmpty :
      (((ledger.close mine).assign name (some none)).objects name).join =
        none :=
    congrArg Option.join (Ledger.objects_assign_self ..)
  have stillOther :
      ((ledger.close mine).assign name (some none)).objects other =
        some fd :=
    (Function.update_of_ne different.symm ..).trans isOther
  have moved := emptied.move isEmpty stillOther
  have same :
      (((ledger.close mine).assign name (some none)).assign other
          (some none)).assign name (some fd) =
        (ledger.assign other (some none)).resetObject name mine fd := by
    rw [Ledger.assign_comm _ different, Ledger.assign_assign]
    rfl
  exact same ▸ moved

end Sound

theorem sound_of_step
    {base : Table (Description σ)} {ledger next : Ledger σ Name}
    {operation : Operation σ Name}
    (sound : Sound base ledger)
    (stepped : ledgerStep ledger operation = some next) :
    Sound base next := by
  cases operation with
  | «open» entry =>
      cases stepped
      exact sound.openLoose entry
  | closeLoose fd =>
      rcases Option.ite_none_right_eq_some.mp stepped with ⟨isLoose, ⟨⟩⟩
      exact sound.closeLoose isLoose
  | construct name fd =>
      rcases Option.ite_none_right_eq_some.mp stepped with
        ⟨⟨isNew, offers⟩, ⟨⟩⟩
      exact sound.give (congrArg Option.join isNew) offers
  | moveConstruct name other =>
      unfold ledgerStep at stepped
      dsimp only at stepped
      split at stepped
      next fd isNew isOther =>
        cases stepped
        exact sound.move (congrArg Option.join isNew) isOther
      next => cases stepped
  | moveAssign name other =>
      unfold ledgerStep at stepped
      dsimp only at stepped
      split at stepped
      next mine fd isObject isOther =>
        split at stepped
        next => exact Option.some.inj stepped ▸ sound
        next different =>
          cases stepped
          exact sound.moveAssign different isObject isOther
      next => cases stepped
  | release name =>
      unfold ledgerStep at stepped
      dsimp only at stepped
      split at stepped
      next => cases stepped
      next => exact Option.some.inj stepped ▸ sound
      next fd isObject =>
        cases stepped
        exact sound.release isObject
  | reset name newFd =>
      unfold ledgerStep at stepped
      dsimp only at stepped
      split at stepped
      next => cases stepped
      next fd isObject =>
        rcases Option.ite_none_right_eq_some.mp stepped with ⟨offers, ⟨⟩⟩
        exact sound.resetObject isObject offers
  | destroy name =>
      unfold ledgerStep at stepped
      dsimp only at stepped
      split at stepped
      next => cases stepped
      next fd isObject =>
        cases stepped
        exact sound.closeObject isObject rfl

theorem sound_of_reachable
    {base : Table (Description σ)} {ledger : Ledger σ Name}
    (reachable : (ledgers base).Reachable ledger) : Sound base ledger := by
  refine reachable.invariant (Sound base) ?_ sound_of_step
  rintro _ rfl
  have nothing :
      ({ table := base } : Ledger σ Name).holds = fun _ => none := by
    funext holder
    cases holder with
    | object name => rfl
    | loose fd =>
        show (if fd ∈ (∅ : Finset ℕ) then some fd else none) = none
        exact if_neg (Finset.notMem_empty fd)
  refine ⟨?_, rfl⟩
  rw [nothing]
  exact Custody.refl base

/--
However objects are constructed, moved, reset and destroyed: `close` is only
called for an open descriptor, an object that owns a descriptor is its only
owner, and once no object and nobody else has a descriptor, the process has the
descriptors that it had in the beginning.
-/
theorem unique_fd_closes_once
    {base : Table (Description σ)} {ledger : Ledger σ Name}
    (reachable : (ledgers base).Reachable ledger) :
    ledger.badCloses = 0 ∧
      (∀ name fd, ledger.objects name = some (some fd) →
        ledger.table.lookup fd ≠ none ∧ base.lookup fd = none ∧
          fd ∉ ledger.loose ∧
          ∀ other, ledger.objects other = some (some fd) → other = name) ∧
      ((∀ name fd, ledger.objects name ≠ some (some fd)) →
        ledger.loose = ∅ → ledger.table = base) := by
  have sound := sound_of_reachable reachable
  refine ⟨sound.noBadCloses, ?_, ?_⟩
  · intro name fd isObject
    have isHeld : ledger.holds (.object name) = some fd :=
      congrArg Option.join isObject
    refine ⟨sound.custody.isOpen isHeld, sound.custody.free isHeld, ?_, ?_⟩
    · intro isLoose
      have isOther : ledger.holds (.loose fd) = some fd := if_pos isLoose
      cases sound.custody.alone isHeld isOther
    · intro other isOther
      have alsoHeld : ledger.holds (.object other) = some fd :=
        congrArg Option.join isOther
      exact Holder.object.inj (sound.custody.alone alsoHeld isHeld)
  · intro noOwner noLoose
    refine sound.custody.eq_base fun holder => ?_
    cases holder with
    | object name =>
        rw [Option.eq_none_iff_forall_ne_some]
        exact fun fd isHeld =>
          noOwner name fd (Option.join_eq_some_iff.mp isHeld)
    | loose fd =>
        refine if_neg fun isLoose => ?_
        rw [noLoose] at isLoose
        exact Finset.notMem_empty fd isLoose

/-- An object that is moved back and forth, and a descriptor that is opened
while it is alive. -/
def sampleOperations : List (Operation Unit Bool) :=
  [.open (.inherited ()), .construct true (some 0), .moveConstruct false true,
    .open (.inherited ()), .reset true (some 1), .moveAssign true false,
    .moveAssign true true, .destroy false, .destroy true]

theorem unique_fd_closes_once_sample :
    ∃ ledger : Ledger Unit Bool,
      (ledgers ⟨fun _ => none, 0, fun _ _ => rfl⟩).run
          { table := ⟨fun _ => none, 0, fun _ _ => rfl⟩ } sampleOperations =
          some ledger ∧
        ledger.badCloses = 0 ∧
        ledger.table = ⟨fun _ => none, 0, fun _ _ => rfl⟩ := by
  have ends :
      ((ledgers ⟨fun _ => none, 0, fun _ _ => rfl⟩).run
          { table := ⟨fun _ => none, 0, fun _ _ => rfl⟩ }
          sampleOperations).map
        (fun ledger : Ledger Unit Bool =>
          (ledger.objects true, ledger.objects false, ledger.loose)) =
        some (none, none, ∅) := by
    decide +kernel
  rcases Option.map_eq_some_iff.mp ends with ⟨ledger, ran, isEnd⟩
  rcases Prod.mk.inj isEnd with ⟨noFirst, others⟩
  rcases Prod.mk.inj others with ⟨noSecond, noLoose⟩
  rcases unique_fd_closes_once ⟨_, _, rfl, ran⟩ with ⟨noBad, -, restored⟩
  refine ⟨ledger, ran, noBad, restored ?_ noLoose⟩
  intro name fd isObject
  cases name with
  | true => cases noFirst.symm.trans isObject
  | false => cases noSecond.symm.trans isObject

/-! ## The vector of pipes -/

section Pipes

/-- The end of a pipe that an object stands for. -/
def pipeFd (pipe : PipePair) : PipeEnd → UniqueFd
  | .read => pipe.readEnd
  | .write => pipe.writeEnd

/-- The objects of a vector of pipes, of which the first one has this index. -/
def HasPipes (ledger : Ledger σ (ℕ × PipeEnd)) (first : ℕ)
    (pipes : List PipePair) : Prop :=
  ∀ index pipe, pipes[index]? = some pipe →
    ∀ side, ledger.objects (first + index, side) = some (pipeFd pipe side)

/-- `pipe` and the construction of the two objects. -/
theorem createPipe_run
    (base : Table (Description σ)) {ledger : Ledger σ (ℕ × PipeEnd)}
    {index : ℕ} (unused : ∀ side, ledger.objects (index, side) = none) :
    ∃ next,
      (ledgers base).Leads ledger next ∧
        next.table = (createPipe index ledger.table).2 ∧
        HasPipes next index [(createPipe index ledger.table).1] := by
  let first := ledger.table.allocate (.pipeEnd index .read)
  let second := first.2.allocate (.pipeEnd index .write)
  let opened := { ledger with table := first.2 }.deposit first.1
  let both := { opened with table := second.2 }.deposit second.1
  let reading :=
    (both.withdraw (some first.1)).assign (index, .read) (some (some first.1))
  let writing :=
    (reading.withdraw (some second.1)).assign (index, .write)
      (some (some second.1))
  have distinct : second.1 ≠ first.1 := by
    intro same
    have isFree : first.2.lookup second.1 = none :=
      first.2.lookup_firstFree
    rw [same, ledger.table.lookup_allocate_self] at isFree
    cases isFree
  have offersFirst : both.Offers (some first.1) := by
    rintro _ ⟨⟩
    exact Finset.mem_insert_of_mem (Finset.mem_insert_self ..)
  have offersSecond : reading.Offers (some second.1) := by
    rintro _ ⟨⟩
    exact Finset.mem_erase.mpr ⟨distinct, Finset.mem_insert_self ..⟩
  have otherSide : (index, PipeEnd.write) ≠ (index, PipeEnd.read) := by
    simp
  have unusedWrite : reading.objects (index, .write) = none :=
    (Function.update_of_ne otherSide ..).trans (unused .write)
  have openFirst :
      (ledgers base).step ledger (.open (.pipeEnd index .read)) =
        some opened :=
    rfl
  have openSecond :
      (ledgers base).step opened (.open (.pipeEnd index .write)) =
        some both :=
    rfl
  have constructed (ledger : Ledger σ (ℕ × PipeEnd)) (name : ℕ × PipeEnd)
      (fd : UniqueFd) (isNew : ledger.objects name = none)
      (offers : ledger.Offers fd) :
      (ledgers base).step ledger (.construct name fd) =
        some ((ledger.withdraw fd).assign name (some fd)) :=
    if_pos (And.intro isNew offers)
  refine ⟨writing, ?_, rfl, ?_⟩
  · refine (System.Leads.step _ openFirst).trans ?_
    refine (System.Leads.step _ openSecond).trans ?_
    refine (System.Leads.step _
      (constructed both _ _ (unused .read) offersFirst)).trans ?_
    exact System.Leads.step _
      (constructed reading _ _ unusedWrite offersSecond)
  · intro offset pipe isPipe side
    rcases List.getElem?_eq_some_iff.mp isPipe with ⟨inRange, isAt⟩
    obtain rfl : offset = 0 := Nat.lt_one_iff.mp inRange
    obtain rfl : (createPipe index ledger.table).1 = pipe := isAt
    cases side with
    | read =>
        exact (Function.update_of_ne otherSide.symm ..).trans
          (Function.update_self ..)
    | write => exact Function.update_self ..

/-- One operation for each end of each pipe, `near` before `far`. -/
def sweep (operation : ℕ × PipeEnd → Operation σ (ℕ × PipeEnd))
    (near far : PipeEnd) : ℕ → List PipePair → List (Operation σ (ℕ × PipeEnd))
  | _, [] => []
  | first, _ :: pipes =>
      operation (first, near) :: operation (first, far) ::
        sweep operation near far (first + 1) pipes

/-- The operation closes what an object has and leaves `value` in its place. -/
def Clears (operation : ℕ × PipeEnd → Operation σ (ℕ × PipeEnd))
    (value : Option UniqueFd) : Prop :=
  ∀ (ledger : Ledger σ (ℕ × PipeEnd)) name fd,
    ledger.objects name = some fd →
      ledgerStep ledger (operation name) =
        some ((ledger.close fd).assign name value)

theorem run_sweep
    {operation : ℕ × PipeEnd → Operation σ (ℕ × PipeEnd)}
    {value : Option UniqueFd} (clears : Clears operation value)
    {near far : PipeEnd} (different : near ≠ far)
    (base : Table (Description σ)) {pipes : List PipePair} {first : ℕ}
    {ledger : Ledger σ (ℕ × PipeEnd)} (hasPipes : HasPipes ledger first pipes) :
    ∃ next,
      (ledgers base).run ledger (sweep operation near far first pipes) =
          some next ∧
        next.table =
          pipes.foldl
            (fun table pipe =>
              Descriptors.reset (pipeFd pipe far)
                (Descriptors.reset (pipeFd pipe near) table))
            ledger.table := by
  induction pipes generalizing first ledger with
  | nil => exact ⟨ledger, rfl, rfl⟩
  | cons pipe pipes induction =>
      have isNear := hasPipes 0 pipe rfl near
      have isFar := hasPipes 0 pipe rfl far
      let middle := (ledger.close (pipeFd pipe near)).assign (first, near) value
      let after := (middle.close (pipeFd pipe far)).assign (first, far) value
      have stillFar :
          middle.objects (first, far) = some (pipeFd pipe far) := by
        refine (Function.update_of_ne ?_ ..).trans isFar
        exact fun same => different (Prod.mk.inj same).2.symm
      have laterPipes : HasPipes after (first + 1) pipes := by
        intro index later isLater side
        have isObject := hasPipes (index + 1) later isLater side
        have other (part : PipeEnd) :
            (first + 1 + index, side) ≠ (first, part) := by
          intro same
          have := (Prod.mk.inj same).1
          omega
        rw [Nat.add_assoc, Nat.add_comm 1 index]
        rw [Nat.add_assoc, Nat.add_comm 1 index] at other
        refine (Function.update_of_ne (other far) ..).trans ?_
        exact (Function.update_of_ne (other near) ..).trans isObject
      rcases induction laterPipes with ⟨next, ran, isTable⟩
      refine ⟨next, ?_, isTable⟩
      refine System.run_cons.mpr ⟨middle, clears ledger _ _ isNear, ?_⟩
      exact System.run_cons.mpr ⟨after, clears middle _ _ stillFar, ran⟩

theorem clears_reset :
    Clears (fun name => (.reset name none : Operation σ (ℕ × PipeEnd)))
      (some none) := by
  intro ledger name fd isObject
  show (match ledger.objects name with | none => none | some fd => _) = _
  rw [isObject]
  exact if_pos nofun

theorem clears_destroy :
    Clears (.destroy : ℕ × PipeEnd → Operation σ (ℕ × PipeEnd)) none := by
  intro ledger name fd isObject
  show (match ledger.objects name with | none => none | some fd => _) = _
  rw [isObject]

/-- `close_all_pipes` and the destructor of the vector are runs of the
operations on the objects in it. -/
theorem pipes_run
    (base : Table (Description σ)) {pipes : List PipePair}
    {ledger : Ledger σ (ℕ × PipeEnd)} (hasPipes : HasPipes ledger 0 pipes) :
    (∃ next,
        (ledgers base).Leads ledger next ∧
          next.table = (closeAllPipes pipes ledger.table).2) ∧
      ∃ next,
        (ledgers base).Leads ledger next ∧
          next.table = destroyPipes pipes ledger.table := by
  have different : PipeEnd.read ≠ .write := nofun
  constructor
  · rcases run_sweep clears_reset different base hasPipes with
      ⟨next, ran, isTable⟩
    exact ⟨next, ⟨_, ran⟩, isTable⟩
  · rcases run_sweep clears_destroy different.symm base hasPipes with
      ⟨next, ran, isTable⟩
    exact ⟨next, ⟨_, ran⟩, isTable⟩

end Pipes

end Shell.Ownership
