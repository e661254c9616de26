import Mathlib.Logic.Basic

/-!
# Labelled transition systems

A system has initial states and a partial step function: a label carries every
choice of the environment, so a step that is not enabled has no result.  Runs
follow a list of labels.  An invariant is proved once for a single step and
then holds in every reachable state.
-/

namespace Shell.TransitionSystem

/-- Initial states and steps under labels. -/
structure System (State Label : Type*) where
  initial : State → Prop
  step : State → Label → Option State

variable {State Label : Type*} (system : System State Label)

/-- The state behind a list of labels. -/
def System.run : State → List Label → Option State
  | state, [] => some state
  | state, label :: labels =>
      (system.step state label).bind fun next => run next labels

/-- The states that some run from an initial state ends in. -/
def System.Reachable (state : State) : Prop :=
  ∃ start labels,
    system.initial start ∧ system.run start labels = some state

/-- A run whose states, apart from its last one, lie inside a region. -/
inductive System.RunsWithin (inside : State → Prop) :
    State → List Label → State → Prop where
  | nil (state : State) : RunsWithin inside state [] state
  | cons {state next finish : State} {label : Label} {labels : List Label}
      (isInside : inside state)
      (stepped : system.step state label = some next)
      (later : RunsWithin inside next labels finish) :
      RunsWithin inside state (label :: labels) finish

variable {system}

@[simp]
theorem System.run_nil (state : State) :
    system.run state [] = some state :=
  rfl

theorem System.run_cons
    {state finish : State} {label : Label} {labels : List Label} :
    system.run state (label :: labels) = some finish ↔
      ∃ next,
        system.step state label = some next ∧
          system.run next labels = some finish :=
  Option.bind_eq_some_iff

theorem System.run_append
    {state finish : State} {labels later : List Label} :
    system.run state (labels ++ later) = some finish ↔
      ∃ middle,
        system.run state labels = some middle ∧
          system.run middle later = some finish := by
  induction labels generalizing state with
  | nil => simp
  | cons label labels induction =>
      simp only [List.cons_append, System.run_cons, induction]
      constructor
      · rintro ⟨next, stepped, middle, first, second⟩
        exact ⟨middle, ⟨next, stepped, first⟩, second⟩
      · rintro ⟨middle, ⟨next, stepped, first⟩, second⟩
        exact ⟨next, stepped, middle, first, second⟩

theorem System.Reachable.initial
    {state : State} (isInitial : system.initial state) :
    system.Reachable state :=
  ⟨state, [], isInitial, rfl⟩

theorem System.Reachable.run
    {state finish : State} (reachable : system.Reachable state)
    {labels : List Label} (ran : system.run state labels = some finish) :
    system.Reachable finish := by
  obtain ⟨start, earlier, isInitial, arrived⟩ := reachable
  exact ⟨start, earlier ++ labels, isInitial,
    System.run_append.mpr ⟨state, arrived, ran⟩⟩

theorem System.Reachable.step
    {state next : State} (reachable : system.Reachable state)
    {label : Label} (stepped : system.step state label = some next) :
    system.Reachable next :=
  reachable.run
    (System.run_cons.mpr ⟨next, stepped, System.run_nil next⟩)

/-- What every step under an allowed label preserves, every run under allowed
labels preserves. -/
theorem System.run_preserves_allowed
    (invariant : State → Prop) (allowed : Label → Prop)
    (preserved :
      ∀ {state label next}, invariant state → allowed label →
        system.step state label = some next → invariant next)
    {state finish : State} {labels : List Label}
    (holds : invariant state)
    (all : ∀ label ∈ labels, allowed label)
    (ran : system.run state labels = some finish) :
    invariant finish := by
  induction labels generalizing state with
  | nil => exact Option.some.inj ran ▸ holds
  | cons label labels induction =>
      rcases System.run_cons.mp ran with ⟨next, stepped, later⟩
      rcases List.forall_mem_cons.mp all with ⟨first, rest⟩
      exact induction (preserved holds first stepped) rest later

/-- What every step preserves, every run preserves. -/
theorem System.run_preserves
    (invariant : State → Prop)
    (preserved :
      ∀ {state label next}, invariant state →
        system.step state label = some next → invariant next)
    {state finish : State} {labels : List Label}
    (holds : invariant state)
    (ran : system.run state labels = some finish) :
    invariant finish :=
  System.run_preserves_allowed invariant (fun _ => True)
    (fun holds _ stepped => preserved holds stepped) holds
    (fun _ _ => trivial) ran

/-- An invariant holds in every reachable state. -/
theorem System.Reachable.invariant
    {state : State} (reachable : system.Reachable state)
    (invariant : State → Prop)
    (initially : ∀ {state}, system.initial state → invariant state)
    (preserved :
      ∀ {state label next}, invariant state →
        system.step state label = some next → invariant next) :
    invariant state := by
  obtain ⟨start, labels, isInitial, ran⟩ := reachable
  exact System.run_preserves invariant preserved (initially isInitial) ran

/-- What every step keeps of a state and the views of the labels so far, every
run keeps. -/
theorem System.run_accounts
    {View : Type*} (view : Label → Option View)
    (accounts : List View → State → Prop) (allowed : Label → Prop)
    (preserved :
      ∀ {views state label next}, accounts views state → allowed label →
        system.step state label = some next →
        accounts (views ++ (view label).toList) next)
    {views : List View} {state finish : State} {labels : List Label}
    (holds : accounts views state)
    (all : ∀ label ∈ labels, allowed label)
    (ran : system.run state labels = some finish) :
    accounts (views ++ labels.filterMap view) finish := by
  induction labels generalizing views state with
  | nil =>
      rw [List.filterMap_nil, List.append_nil]
      exact Option.some.inj ran ▸ holds
  | cons label labels induction =>
      rcases System.run_cons.mp ran with ⟨next, stepped, later⟩
      rcases List.forall_mem_cons.mp all with ⟨first, rest⟩
      have arrived :=
        induction (preserved holds first stepped) rest later
      have sameViews :
          views ++ (label :: labels).filterMap view =
            views ++ (view label).toList ++ labels.filterMap view := by
        rw [List.append_assoc, List.filterMap_cons]
        cases view label <;> rfl
      rwa [sameViews]

/-- A rank that no step raises and that every counted step lowers bounds the
number of counted steps of a run. -/
theorem System.countP_le_rank
    (rank : State → Nat) (counted : Label → Bool)
    (lowered :
      ∀ {state label next}, system.step state label = some next →
        rank next < rank state ∨
          counted label = false ∧ rank next ≤ rank state)
    {state finish : State} {labels : List Label}
    (ran : system.run state labels = some finish) :
    labels.countP counted ≤ rank state := by
  induction labels generalizing state with
  | nil => exact Nat.zero_le _
  | cons label labels induction =>
      rcases System.run_cons.mp ran with ⟨next, stepped, later⟩
      have bounded := induction later
      rw [List.countP_cons]
      rcases lowered stepped with lower | ⟨uncounted, same⟩
      · split <;> omega
      · simp only [uncounted, Bool.false_eq_true, if_false]
        omega

/-- A measure that every step raises has risen by the length of a run. -/
theorem System.add_length_le_measure
    (measure : State → Nat)
    (raised :
      ∀ {state label next}, system.step state label = some next →
        measure state < measure next)
    {state finish : State} {labels : List Label}
    (ran : system.run state labels = some finish) :
    measure state + labels.length ≤ measure finish := by
  induction labels generalizing state with
  | nil => exact Nat.le_of_eq (congrArg measure (Option.some.inj ran))
  | cons label labels induction =>
      rcases System.run_cons.mp ran with ⟨next, stepped, later⟩
      have first := raised stepped
      have others := induction later
      rw [List.length_cons]
      omega

/-! ## States that a run connects -/

variable (system) in
/-- Some run leads from one state to the other. -/
def System.Leads (state finish : State) : Prop :=
  ∃ labels, system.run state labels = some finish

theorem System.Leads.refl (state : State) : system.Leads state state :=
  ⟨[], rfl⟩

theorem System.Leads.step
    {state next : State} (label : Label)
    (stepped : system.step state label = some next) :
    system.Leads state next :=
  ⟨[label], System.run_cons.mpr ⟨next, stepped, rfl⟩⟩

theorem System.Leads.trans
    {state middle finish : State}
    (first : system.Leads state middle) (second : system.Leads middle finish) :
    system.Leads state finish := by
  rcases first with ⟨labels, ran⟩
  rcases second with ⟨later, arrived⟩
  exact ⟨labels ++ later, System.run_append.mpr ⟨middle, ran, arrived⟩⟩

theorem System.Reachable.leads
    {state finish : State} (reachable : system.Reachable state)
    (leads : system.Leads state finish) :
    system.Reachable finish := by
  rcases leads with ⟨labels, ran⟩
  exact reachable.run ran

/-! ## Runs under some of the labels -/

variable (system) in
/-- Some run under allowed labels leads from one state to the other. -/
def System.LeadsBy (allowed : Label → Prop) (state finish : State) : Prop :=
  ∃ labels,
    (∀ label ∈ labels, allowed label) ∧
      system.run state labels = some finish

section LeadsBy

variable {allowed weaker : Label → Prop} {state middle finish : State}

theorem System.LeadsBy.refl (allowed : Label → Prop) (state : State) :
    system.LeadsBy allowed state state :=
  ⟨[], nofun, rfl⟩

theorem System.LeadsBy.step
    (label : Label) (isAllowed : allowed label)
    (stepped : system.step state label = some finish) :
    system.LeadsBy allowed state finish :=
  ⟨[label], List.forall_mem_singleton.mpr isAllowed,
    System.run_cons.mpr ⟨finish, stepped, rfl⟩⟩

theorem System.LeadsBy.trans
    (first : system.LeadsBy allowed state middle)
    (second : system.LeadsBy allowed middle finish) :
    system.LeadsBy allowed state finish := by
  rcases first with ⟨labels, allowedFirst, ran⟩
  rcases second with ⟨later, allowedLater, arrived⟩
  exact ⟨labels ++ later,
    List.forall_mem_append.mpr ⟨allowedFirst, allowedLater⟩,
    System.run_append.mpr ⟨middle, ran, arrived⟩⟩

theorem System.LeadsBy.mono
    (leads : system.LeadsBy allowed state finish)
    (implies : ∀ label, allowed label → weaker label) :
    system.LeadsBy weaker state finish := by
  rcases leads with ⟨labels, all, ran⟩
  exact ⟨labels, fun label member => implies label (all label member), ran⟩

theorem System.Reachable.leadsBy
    (reachable : system.Reachable state)
    (leads : system.LeadsBy allowed state finish) :
    system.Reachable finish := by
  rcases leads with ⟨labels, -, ran⟩
  exact reachable.run ran

end LeadsBy

/-! ## Outputs of a run -/

section Outputs

variable {Output : Type*} (output : State → Label → List Output)

variable {output}

end Outputs

end Shell.TransitionSystem
