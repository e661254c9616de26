import Mathlib.Data.List.Basic

/-!
# Maximal concatenations of code words

A *piece* relation says which texts are code words and which value each of
them contributes.  When no two code words start the same input, a maximal
concatenation of code words at the front of an input is determined by that
input, together with its value.  Nothing here refers to a particular alphabet:
a scanner instantiates the relation with its own lexical rules.
-/

namespace Shell.MaximalMunch

variable {α β : Type*} (piece : List α → List β → Prop)

/-- Zero or more code words in a row, with their concatenated value. -/
inductive Concatenation : List α → List β → Prop where
  | nil : Concatenation [] []
  | cons {text : List α} {value : List β} {texts : List α} {values : List β}
      (first : piece text value)
      (later : Concatenation texts values) :
      Concatenation (text ++ texts) (value ++ values)

/-- Some code word stands at the front of the input. -/
def Starts (input : List α) : Prop :=
  ∃ text value rest, piece text value ∧ input = text ++ rest

/-- At most one code word, with one value, stands at the front of an input. -/
def PrefixCode : Prop :=
  ∀ {text text' : List α} {value value' : List β} {rest rest' : List α},
    piece text value → piece text' value' →
      text ++ rest = text' ++ rest' →
        text = text' ∧ value = value'

variable {piece}

theorem Starts.intro {text : List α} {value : List β}
    (first : piece text value) (rest : List α) :
    Starts piece (text ++ rest) :=
  ⟨text, value, rest, first, rfl⟩

theorem Concatenation.single {text : List α} {value : List β}
    (first : piece text value) :
    Concatenation piece text value := by
  simpa using Concatenation.cons first .nil

theorem Concatenation.append
    {text text' : List α} {value value' : List β}
    (left : Concatenation piece text value)
    (right : Concatenation piece text' value') :
    Concatenation piece (text ++ text') (value ++ value') := by
  induction left with
  | nil => exact right
  | cons first _ induction =>
      simpa only [List.append_assoc] using
        Concatenation.cons first induction

/-- A concatenation whose text is not empty starts with a code word. -/
theorem Concatenation.exists_first
    {text : List α} {value : List β}
    (words : Concatenation piece text value)
    (nonempty : text ≠ []) :
    ∃ first firstValue later laterValue,
      piece first firstValue ∧
        Concatenation piece later laterValue ∧
        text = first ++ later ∧
        value = firstValue ++ laterValue := by
  cases words with
  | nil => exact (nonempty rfl).elim
  | cons first later => exact ⟨_, _, _, _, first, later, rfl, rfl⟩

/--
A maximal concatenation takes the code word at the front of its input: what
follows that word is a maximal concatenation at the front of the rest.
-/
theorem Concatenation.take_first
    (code : PrefixCode piece)
    {first text : List α} {firstValue value : List β}
    {rest rest' : List α}
    (word : piece first firstValue)
    (words : Concatenation piece text value)
    (maximal : ¬ Starts piece rest')
    (equal : first ++ rest = text ++ rest') :
    ∃ later laterValue,
      Concatenation piece later laterValue ∧
        rest = later ++ rest' ∧
        text = first ++ later ∧
        value = firstValue ++ laterValue := by
  cases words with
  | nil =>
      have started : Starts piece (first ++ rest) :=
        Starts.intro word rest
      rw [equal] at started
      exact (maximal started).elim
  | cons other later =>
      rw [List.append_assoc] at equal
      obtain ⟨rfl, rfl⟩ := code word other equal
      exact ⟨_, _, later, List.append_cancel_left equal, rfl, rfl⟩

/-- Two maximal concatenations at the front of one input are equal. -/
theorem Concatenation.maximal_unique
    (code : PrefixCode piece)
    {text text' : List α} {value value' : List β}
    {rest rest' : List α}
    (left : Concatenation piece text value)
    (right : Concatenation piece text' value')
    (leftMaximal : ¬ Starts piece rest)
    (rightMaximal : ¬ Starts piece rest')
    (equal : text ++ rest = text' ++ rest') :
    text = text' ∧ value = value' := by
  induction left generalizing text' value' with
  | nil =>
      cases right with
      | nil => exact ⟨rfl, rfl⟩
      | cons first later =>
          rw [List.nil_append, List.append_assoc] at equal
          exact (leftMaximal (equal ▸ Starts.intro first _)).elim
  | cons first later induction =>
      rw [List.append_assoc] at equal
      obtain ⟨_, _, others, restEqual, rfl, rfl⟩ :=
        Concatenation.take_first code first right rightMaximal equal
      obtain ⟨rfl, rfl⟩ := induction others restEqual
      exact ⟨rfl, rfl⟩

/-- The text before the first occurrence of a delimiter is determined. -/
theorem before_delimiter_unique
    {delimiter : α} {left right rest rest' : List α}
    (leftFree : delimiter ∉ left)
    (rightFree : delimiter ∉ right)
    (equal : left ++ delimiter :: rest = right ++ delimiter :: rest') :
    left = right := by
  induction left generalizing right with
  | nil =>
      cases right with
      | nil => rfl
      | cons head tail =>
          obtain ⟨rfl, -⟩ := List.cons.inj equal
          simp at rightFree
  | cons head tail induction =>
      cases right with
      | nil =>
          obtain ⟨rfl, -⟩ := List.cons.inj equal
          simp at leftFree
      | cons otherHead otherTail =>
          obtain ⟨rfl, tailEqual⟩ := List.cons.inj equal
          rw [List.mem_cons, not_or] at leftFree rightFree
          rw [induction leftFree.2 rightFree.2 tailEqual]

end Shell.MaximalMunch
