import Mathlib.Data.List.Basic

/-!
# Interleavings of keyed events

Every event has a key, the party it comes from.  Two sequences that show the
same events in the same order for each key are interleavings of the same
histories.  If steps of different keys commute, a fold cannot tell such
sequences apart.
-/

namespace Shell.Interleaving

variable {ε κ σ : Type*}

/-! ## Steps that commute -/

/-- Steps of different keys commute. -/
def Independent (key : ε → κ) (step : σ → ε → σ) : Prop :=
  ∀ state first second, key first ≠ key second →
    step (step state first) second = step (step state second) first

variable {key : ε → κ} {step : σ → ε → σ}

/-- An event may be taken before the events of other keys. -/
theorem Independent.foldl_front
    (independent : Independent key step)
    {event : ε} {before : List ε}
    (different : ∀ earlier ∈ before, key earlier ≠ key event)
    (after : List ε) (state : σ) :
    (before ++ event :: after).foldl step state =
      (before ++ after).foldl step (step state event) := by
  induction before generalizing state with
  | nil => rfl
  | cons first before induction =>
      have firstDiffers := different first List.mem_cons_self
      calc
        (first :: before ++ event :: after).foldl step state =
            (before ++ after).foldl step
              (step (step state first) event) :=
          induction
            (fun earlier member =>
              different earlier (List.mem_cons_of_mem _ member))
            (step state first)
        _ = (before ++ after).foldl step
              (step (step state event) first) := by
          rw [independent state first event firstDiffers]

/-! ## Histories -/

variable [DecidableEq κ]

/-- The events of one key, in order. -/
def history (key : ε → κ) (party : κ) (events : List ε) : List ε :=
  events.filter fun event => key event = party

/-- The two sequences are interleavings of the same histories. -/
def SameHistories (key : ε → κ) (left right : List ε) : Prop :=
  ∀ party, history key party left = history key party right

theorem SameHistories.cons
    {left right : List ε} (same : SameHistories key left right) (event : ε) :
    SameHistories key (event :: left) (event :: right) := by
  intro party
  have rest : left.filter (fun other => key other = party) =
      right.filter (fun other => key other = party) := same party
  simp only [history, List.filter_cons, rest]

theorem SameHistories.swap
    {first second : ε} (different : key first ≠ key second)
    (rest : List ε) :
    SameHistories key (first :: second :: rest)
      (second :: first :: rest) := by
  intro party
  simp only [history, List.filter_cons]
  by_cases isFirst : key first = party
  · have notSecond : key second ≠ party :=
      fun isSecond => different (isFirst.trans isSecond.symm)
    simp only [notSecond, decide_false, Bool.false_eq_true, if_false]
  · simp only [isFirst, decide_false, Bool.false_eq_true, if_false]

/-- The first event of one sequence is the first of its key in the other. -/
theorem SameHistories.split
    {event : ε} {left right : List ε}
    (same : SameHistories key (event :: left) right) :
    ∃ before after,
      right = before ++ event :: after ∧
        (∀ earlier ∈ before, key earlier ≠ key event) ∧
        SameHistories key left (before ++ after) := by
  have ownHistory := (same (key event)).symm
  simp only [history, List.filter_cons, decide_true, if_true] at ownHistory
  rcases List.filter_eq_cons_iff.mp ownHistory with
    ⟨before, after, rfl, others, _, _⟩
  have different : ∀ earlier ∈ before, key earlier ≠ key event := by
    intro earlier member equal
    exact others earlier member (decide_eq_true equal)
  refine ⟨before, after, rfl, different, ?_⟩
  intro party
  have partyHistory := same party
  simp only [history, List.filter_append, List.filter_cons] at partyHistory ⊢
  by_cases own : key event = party
  · have noneBefore : before.filter (fun other => key other = party) = [] := by
      apply List.filter_eq_nil_iff.mpr
      intro earlier member
      simpa [← own] using different earlier member
    simpa [own, noneBefore] using partyHistory
  · simpa [own] using partyHistory

/-- A fold of independent steps depends on the histories alone. -/
theorem Independent.foldl_eq
    (independent : Independent key step)
    {left right : List ε} (same : SameHistories key left right)
    (state : σ) :
    left.foldl step state = right.foldl step state := by
  induction left generalizing right state with
  | nil =>
      cases right with
      | nil => rfl
      | cons event right =>
          have ownHistory := same (key event)
          simp [history] at ownHistory
  | cons event left induction =>
      rcases same.split with ⟨before, after, rfl, different, rest⟩
      rw [independent.foldl_front different]
      exact induction rest (step state event)

end Shell.Interleaving
