import Mathlib.Data.List.Basic

/-!
# Options and their values

A list of words read from left to right as options.  An option that takes a
value takes the next word, whatever that is; every other option stands for
itself.  The reading ends at the first word in the place of an option that ends
it.  Options may be repeated, and then the last one counts.
-/

namespace Shell.OptionScan

variable {Word : Type*}

/-- An option with the word that it takes. -/
structure Use (Word : Type*) where
  option : Word
  value : Option Word
deriving DecidableEq, Repr

def Use.words (use : Use Word) : List Word :=
  use.option :: use.value.toList

/-- The options at the front of the words, and the words behind them. -/
def scan (valued ends : Word → Bool) :
    List Word → List (Use Word) × List Word
  | [] => ([], [])
  | word :: rest =>
      if ends word then
        ([], word :: rest)
      else if valued word then
        match rest with
        | [] => ([⟨word, none⟩], [])
        | value :: rest =>
            let (uses, tail) := scan valued ends rest
            (⟨word, some value⟩ :: uses, tail)
      else
        let (uses, tail) := scan valued ends rest
        (⟨word, none⟩ :: uses, tail)

variable {valued ends : Word → Bool}

theorem scan_end {word : Word} (isEnd : ends word = true) (rest : List Word) :
    scan valued ends (word :: rest) = ([], word :: rest) := by
  rw [scan.eq_def]
  exact if_pos isEnd

theorem scan_single
    {word : Word} (goesOn : ends word = false) (alone : valued word = false)
    (rest : List Word) :
    scan valued ends (word :: rest) =
      (⟨word, none⟩ :: (scan valued ends rest).1,
        (scan valued ends rest).2) := by
  rw [scan.eq_def]
  simp only [goesOn, alone, Bool.false_eq_true, if_false]

theorem scan_pair
    {word : Word} (goesOn : ends word = false) (takes : valued word = true)
    (value : Word) (rest : List Word) :
    scan valued ends (word :: value :: rest) =
      (⟨word, some value⟩ :: (scan valued ends rest).1,
        (scan valued ends rest).2) := by
  rw [scan, goesOn, takes]
  rfl

/-- The reading loses no word. -/
theorem words_scan (words : List Word) :
    (scan valued ends words).1.flatMap Use.words ++
      (scan valued ends words).2 = words := by
  fun_induction scan valued ends words with
  | case1 => rfl
  | case2 word rest isEnd => rfl
  | case3 word goesOn takes => rfl
  | case4 word goesOn takes value rest uses tail scanned induction =>
      rw [scanned] at induction
      rw [← induction]
      rfl
  | case5 word rest goesOn alone uses tail scanned induction =>
      rw [scanned] at induction
      rw [← induction]
      rfl

theorem scan_rest (words : List Word) :
    ∀ word ∈ (scan valued ends words).2.head?, ends word = true := by
  fun_induction scan valued ends words with
  | case1 => rintro _ ⟨⟩
  | case2 word rest isEnd =>
      rintro _ ⟨⟩
      exact isEnd
  | case3 word goesOn takes => rintro _ ⟨⟩
  | case4 word goesOn takes value rest uses tail scanned induction =>
      rw [scanned] at induction
      exact induction
  | case5 word rest goesOn alone uses tail scanned induction =>
      rw [scanned] at induction
      exact induction

/-- The value that an option takes where it occurs last. -/
def lastValue [DecidableEq Word] (option : Word) (uses : List (Use Word)) :
    Option Word :=
  uses.reverse.findSome? fun use =>
    if use.option = option then use.value else none

theorem lastValue_cons [DecidableEq Word]
    (option : Word) (use : Use Word) (uses : List (Use Word)) :
    lastValue option (use :: uses) =
      (lastValue option uses).or
        (if use.option = option then use.value else none) := by
  rw [lastValue, List.reverse_cons, List.findSome?_append]
  simp only [List.findSome?_singleton]
  rfl

theorem lastValue_ne_none [DecidableEq Word]
    {option : Word} {uses : List (Use Word)} {use : Use Word}
    (isUse : use ∈ uses) (named : use.option = option)
    (valued : use.value ≠ none) :
    lastValue option uses ≠ none := by
  intro absent
  have nowhere :=
    List.findSome?_eq_none_iff.mp absent use (List.mem_reverse.mpr isUse)
  rw [if_pos named] at nowhere
  exact valued nowhere

end Shell.OptionScan
