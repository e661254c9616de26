import Mathlib.Data.List.Basic
import Mathlib.Data.Nat.Find
import Mathlib.Data.Set.Card
import Mathlib.Logic.Function.Basic

/-!
# Descriptor tables

A table maps finitely many numbers to entries; a new entry takes the lowest
number that is free.  `Lease base table held` says that `table` is `base` with
the entries `held` added: allocation extends a lease, and closing everything
that is held gives the base back.  `Custody base table holds` says in addition
that each of these entries has a single holder, which may hand it on.
-/

namespace Shell.DescriptorTable

/-- A finite partial map from descriptors to entries. -/
@[ext]
structure Table (α : Type*) where
  lookup : ℕ → Option α
  bounded : ∃ bound, ∀ fd, bound ≤ fd → lookup fd = none

namespace Table

variable {α β : Type*}

/-! ## Operations -/

def set (table : Table α) (fd : ℕ) (entry : Option α) : Table α where
  lookup := Function.update table.lookup fd entry
  bounded := by
    rcases table.bounded with ⟨bound, unused⟩
    refine ⟨max bound (fd + 1), fun other beyond => ?_⟩
    rw [Function.update_of_ne (by omega)]
    exact unused other (by omega)

def close (table : Table α) (fd : ℕ) : Table α :=
  table.set fd none

def closeAll (table : Table α) (fds : List ℕ) : Table α :=
  fds.foldl close table

def map (transform : α → β) (table : Table α) : Table β where
  lookup fd := (table.lookup fd).map transform
  bounded := by
    rcases table.bounded with ⟨bound, unused⟩
    refine ⟨bound, fun fd beyond => ?_⟩
    rw [unused fd beyond, Option.map_none]

theorem exists_free (table : Table α) : ∃ fd, (table.lookup fd).isNone := by
  rcases table.bounded with ⟨bound, unused⟩
  exact ⟨bound, by rw [unused bound le_rfl, Option.isNone_none]⟩

/-- The lowest descriptor that is not in use. -/
def firstFree (table : Table α) : ℕ :=
  Nat.find table.exists_free

/-- A new entry at the lowest free descriptor. -/
def allocate (table : Table α) (entry : α) : ℕ × Table α :=
  (table.firstFree, table.set table.firstFree (some entry))

/-- `dup2` with an open source; a closed source is `EBADF`. -/
def dup2 (table : Table α) (source target : ℕ) : Option (Table α) :=
  (table.lookup source).map fun entry => table.set target (some entry)

/-! ## Lookups -/

@[simp]
theorem lookup_set (table : Table α) (fd other : ℕ) (entry : Option α) :
    (table.set fd entry).lookup other =
      if other = fd then entry else table.lookup other :=
  Function.update_apply table.lookup fd entry other

@[simp]
theorem lookup_close (table : Table α) (fd other : ℕ) :
    (table.close fd).lookup other =
      if other = fd then none else table.lookup other :=
  table.lookup_set fd other none

@[simp]
theorem lookup_map (transform : α → β) (table : Table α) (fd : ℕ) :
    (table.map transform).lookup fd = (table.lookup fd).map transform :=
  rfl

theorem lookup_closeAll (table : Table α) (fds : List ℕ) (fd : ℕ) :
    (table.closeAll fds).lookup fd =
      if fd ∈ fds then none else table.lookup fd := by
  induction fds generalizing table with
  | nil => simp [closeAll]
  | cons first fds induction =>
      have later := induction (table.close first)
      rw [closeAll] at later
      rw [closeAll, List.foldl_cons, later, lookup_close]
      by_cases same : fd = first <;> simp [same]

theorem closeAll_append (table : Table α) (fds later : List ℕ) :
    table.closeAll (fds ++ later) = (table.closeAll fds).closeAll later :=
  List.foldl_append

theorem lookup_firstFree (table : Table α) :
    table.lookup table.firstFree = none :=
  Option.isNone_iff_eq_none.mp (Nat.find_spec table.exists_free)

/-- An allocation leaves every open descriptor as it is. -/
theorem lookup_allocate_of_open
    {table : Table α} {fd : ℕ} (isOpen : table.lookup fd ≠ none)
    (entry : α) :
    (table.allocate entry).2.lookup fd = table.lookup fd := by
  have different : fd ≠ table.firstFree := by
    intro same
    exact isOpen (same ▸ table.lookup_firstFree)
  rw [allocate, lookup_set, if_neg different]

theorem lookup_allocate_self (table : Table α) (entry : α) :
    (table.allocate entry).2.lookup (table.allocate entry).1 = some entry := by
  rw [allocate, lookup_set, if_pos rfl]

/-! ## Open descriptors -/

def openDescriptors (table : Table α) : Set ℕ :=
  {fd | table.lookup fd ≠ none}

theorem mem_openDescriptors {table : Table α} {fd : ℕ} :
    fd ∈ table.openDescriptors ↔ table.lookup fd ≠ none :=
  Iff.rfl

theorem finite_openDescriptors (table : Table α) :
    table.openDescriptors.Finite := by
  rcases table.bounded with ⟨bound, unused⟩
  refine (Set.finite_lt_nat bound).subset fun fd isOpen => ?_
  by_contra beyond
  exact isOpen (unused fd (Nat.le_of_not_lt beyond))

theorem openDescriptors_allocate (table : Table α) (entry : α) :
    (table.allocate entry).2.openDescriptors =
      insert table.firstFree table.openDescriptors := by
  ext fd
  by_cases same : fd = table.firstFree <;>
    simp [mem_openDescriptors, allocate, same]

theorem ncard_openDescriptors_allocate (table : Table α) (entry : α) :
    (table.allocate entry).2.openDescriptors.ncard =
      table.openDescriptors.ncard + 1 := by
  rw [openDescriptors_allocate]
  exact Set.ncard_insert_of_notMem
    (fun isOpen => isOpen table.lookup_firstFree)
    table.finite_openDescriptors

end Table

/-! ## Leases -/

variable {α : Type*}

/-- `table` is `base` with the entries `held` added. -/
structure Lease (base table : Table α) (held : List (ℕ × α)) : Prop where
  entries : ∀ slot ∈ held, table.lookup slot.1 = some slot.2
  elsewhere :
    ∀ fd, fd ∉ held.map Prod.fst → table.lookup fd = base.lookup fd
  free : ∀ fd ∈ held.map Prod.fst, base.lookup fd = none

namespace Lease

variable {base table : Table α} {held : List (ℕ × α)}

theorem refl (base : Table α) : Lease base base [] where
  entries _ member := absurd member List.not_mem_nil
  elsewhere _ _ := rfl
  free _ member := absurd member List.not_mem_nil

/-- What the base has open is not held, so it is still in place. -/
theorem lookup_of_open
    (lease : Lease base table held) {fd : ℕ}
    (isOpen : base.lookup fd ≠ none) :
    table.lookup fd = base.lookup fd :=
  lease.elsewhere fd fun member => isOpen (lease.free fd member)

theorem not_held
    (lease : Lease base table held) {fd : ℕ}
    (isOpen : base.lookup fd ≠ none) :
    fd ∉ held.map Prod.fst :=
  fun member => isOpen (lease.free fd member)

theorem open_of_held
    (lease : Lease base table held) {fd : ℕ}
    (isHeld : fd ∈ held.map Prod.fst) :
    table.lookup fd ≠ none := by
  rcases List.mem_map.mp isHeld with ⟨slot, member, rfl⟩
  rw [lease.entries slot member]
  exact Option.some_ne_none _

theorem firstFree_not_held (lease : Lease base table held) :
    table.firstFree ∉ held.map Prod.fst :=
  fun isHeld => lease.open_of_held isHeld table.lookup_firstFree

/-- An allocation adds its entry to what is held. -/
theorem allocate (lease : Lease base table held) (entry : α) :
    Lease base (table.allocate entry).2
      (held ++ [((table.allocate entry).1, entry)]) where
  entries := by
    intro slot member
    rcases List.mem_append.mp member with earlier | new
    · have entryAt := lease.entries slot earlier
      rw [Table.lookup_allocate_of_open (entryAt ▸ Option.some_ne_none _),
        entryAt]
    · rw [List.mem_singleton.mp new]
      exact table.lookup_allocate_self entry
  elsewhere := by
    intro fd notHeld
    simp only [List.map_append, List.map_cons, List.map_nil, List.mem_append,
      List.mem_singleton, not_or] at notHeld
    have different : fd ≠ table.firstFree := notHeld.2
    rw [Table.allocate, Table.lookup_set, if_neg different]
    exact lease.elsewhere fd notHeld.1
  free := by
    intro fd isHeld
    rw [List.map_append, List.mem_append] at isHeld
    rcases isHeld with earlier | new
    · exact lease.free fd earlier
    · have same : fd = table.firstFree := List.mem_singleton.mp new
      rw [same, ← lease.elsewhere _ lease.firstFree_not_held]
      exact table.lookup_firstFree

/-- Without the held descriptors a leased table reads like its base. -/
theorem lookup_without
    (lease : Lease base table held) (fd : ℕ) :
    (if fd ∈ held.map Prod.fst then none else table.lookup fd) =
      base.lookup fd := by
  split
  next isHeld => exact (lease.free fd isHeld).symm
  next notHeld => exact lease.elsewhere fd notHeld

/-- Closing everything that is held gives the base back. -/
theorem closeAll (lease : Lease base table held) :
    table.closeAll (held.map Prod.fst) = base :=
  Table.ext (funext fun fd =>
    (table.lookup_closeAll (held.map Prod.fst) fd).trans
      (lease.lookup_without fd))

/-- Closing a descriptor that has just been allocated. -/
theorem close_allocate (table : Table α) (entry : α) :
    (table.allocate entry).2.close (table.allocate entry).1 = table :=
  ((refl table).allocate entry).closeAll

end Lease

/-! ## Holders -/

variable {ι : Type*}

/-- `table` is `base` with added entries, each of which one holder has. -/
structure Custody (base table : Table α) (holds : ι → Option ℕ) : Prop where
  isOpen :
    ∀ {holder fd}, holds holder = some fd → table.lookup fd ≠ none
  free :
    ∀ {holder fd}, holds holder = some fd → base.lookup fd = none
  alone :
    ∀ {first second fd}, holds first = some fd → holds second = some fd →
      first = second
  elsewhere :
    ∀ fd, (∀ holder, holds holder ≠ some fd) →
      table.lookup fd = base.lookup fd

namespace Custody

variable {base table : Table α} {holds : ι → Option ℕ}

theorem refl (base : Table α) : Custody base base fun _ : ι => none where
  isOpen := nofun
  free := nofun
  alone := nofun
  elsewhere _ _ := rfl

theorem eq_base
    (custody : Custody base table holds)
    (nothing : ∀ holder, holds holder = none) : table = base := by
  refine Table.ext (funext fun fd => custody.elsewhere fd fun holder => ?_)
  rw [nothing holder]
  exact (Option.some_ne_none fd).symm

variable [DecidableEq ι]

/-- A new entry for a holder that has nothing. -/
theorem allocate
    (custody : Custody base table holds) {holder : ι}
    (nothing : holds holder = none) (entry : α) :
    Custody base (table.allocate entry).2
      (Function.update holds holder (some (table.allocate entry).1)) := by
  have unheld (other : ι) : holds other ≠ some table.firstFree :=
    fun isHeld => custody.isOpen isHeld table.lookup_firstFree
  constructor
  · intro other fd isHeld
    by_cases same : other = holder
    · subst same
      rw [Function.update_self] at isHeld
      rw [← Option.some.inj isHeld, table.lookup_allocate_self]
      exact Option.some_ne_none entry
    · rw [Function.update_of_ne same] at isHeld
      rw [Table.lookup_allocate_of_open (custody.isOpen isHeld)]
      exact custody.isOpen isHeld
  · intro other fd isHeld
    by_cases same : other = holder
    · subst same
      rw [Function.update_self] at isHeld
      have isNew : fd = table.firstFree := (Option.some.inj isHeld).symm
      rw [isNew, ← custody.elsewhere _ unheld]
      exact table.lookup_firstFree
    · rw [Function.update_of_ne same] at isHeld
      exact custody.free isHeld
  · intro first second fd isFirst isSecond
    by_cases sameFirst : first = holder <;>
      by_cases sameSecond : second = holder
    · rw [sameFirst, sameSecond]
    · rw [sameFirst, Function.update_self] at isFirst
      rw [Function.update_of_ne sameSecond] at isSecond
      exact absurd (isSecond.trans isFirst.symm) (unheld second)
    · rw [sameSecond, Function.update_self] at isSecond
      rw [Function.update_of_ne sameFirst] at isFirst
      exact absurd (isFirst.trans isSecond.symm) (unheld first)
    · rw [Function.update_of_ne sameFirst] at isFirst
      rw [Function.update_of_ne sameSecond] at isSecond
      exact custody.alone isFirst isSecond
  · intro fd isFree
    have different : fd ≠ table.firstFree := by
      rintro rfl
      exact isFree holder (Function.update_self ..)
    rw [Table.allocate, Table.lookup_set, if_neg different]
    refine custody.elsewhere fd fun other isHeld => isFree other ?_
    have other : other ≠ holder := by
      rintro rfl
      rw [nothing] at isHeld
      cases isHeld
    rw [Function.update_of_ne other]
    exact isHeld

/-- The holder of an entry closes it. -/
theorem close
    (custody : Custody base table holds) {holder : ι} {fd : ℕ}
    (isHeld : holds holder = some fd) :
    Custody base (table.close fd) (Function.update holds holder none) := by
  have kept {other : ι} {number : ℕ}
      (isOther : Function.update holds holder none other = some number) :
      holds other = some number ∧ number ≠ fd := by
    by_cases same : other = holder
    · subst same
      rw [Function.update_self] at isOther
      cases isOther
    · rw [Function.update_of_ne same] at isOther
      refine ⟨isOther, ?_⟩
      rintro rfl
      exact same (custody.alone isOther isHeld)
  constructor
  · intro other number isOther
    rw [Table.lookup_close, if_neg (kept isOther).2]
    exact custody.isOpen (kept isOther).1
  · intro other number isOther
    exact custody.free (kept isOther).1
  · intro first second number isFirst isSecond
    exact custody.alone (kept isFirst).1 (kept isSecond).1
  · intro number isFree
    rw [Table.lookup_close]
    split
    next same =>
      rw [same]
      exact (custody.free isHeld).symm
    next different =>
      refine custody.elsewhere number fun other isOther => ?_
      refine isFree other ?_
      have changed : other ≠ holder := by
        rintro rfl
        exact different (Option.some.inj (isOther.symm.trans isHeld))
      rw [Function.update_of_ne changed]
      exact isOther

/-- A holder hands on what it has to one that has nothing. -/
theorem transfer
    (custody : Custody base table holds) (giver : ι) {taker : ι}
    (nothing : holds taker = none) :
    Custody base table
      (Function.update (Function.update holds giver none) taker
        (holds giver)) := by
  -- The holder behind the transfer, in terms of the one in front of it.
  have before {other : ι} {fd : ℕ}
      (isHeld :
        Function.update (Function.update holds giver none) taker
          (holds giver) other = some fd) :
      if other = taker then holds giver = some fd
      else other ≠ giver ∧ holds other = some fd := by
    split
    next same =>
      rw [same, Function.update_self] at isHeld
      exact isHeld
    next different =>
      rw [Function.update_of_ne different] at isHeld
      by_cases same : other = giver
      · subst same
        rw [Function.update_self] at isHeld
        cases isHeld
      · rw [Function.update_of_ne same] at isHeld
        exact ⟨same, isHeld⟩
  have held {other : ι} {fd : ℕ}
      (isHeld :
        Function.update (Function.update holds giver none) taker
          (holds giver) other = some fd) :
      ∃ earlier, holds earlier = some fd := by
    have origin := before isHeld
    split at origin
    · exact ⟨giver, origin⟩
    · exact ⟨other, origin.2⟩
  constructor
  · intro other fd isHeld
    exact (held isHeld).elim fun _ isEarlier => custody.isOpen isEarlier
  · intro other fd isHeld
    exact (held isHeld).elim fun _ isEarlier => custody.free isEarlier
  · intro first second fd isFirst isSecond
    have firstly := before isFirst
    have secondly := before isSecond
    split at firstly <;> split at secondly
    next sameFirst sameSecond => rw [sameFirst, sameSecond]
    next =>
      exact absurd (custody.alone secondly.2 firstly) secondly.1
    next =>
      exact absurd (custody.alone firstly.2 secondly) firstly.1
    next => exact custody.alone firstly.2 secondly.2
  · intro fd isFree
    refine custody.elsewhere fd fun other isHeld => ?_
    by_cases same : other = giver
    · subst same
      exact isFree taker ((Function.update_self ..).trans isHeld)
    · refine isFree other ?_
      have different : other ≠ taker := by
        rintro rfl
        rw [nothing] at isHeld
        cases isHeld
      rw [Function.update_of_ne different, Function.update_of_ne same]
      exact isHeld

end Custody

end Shell.DescriptorTable
