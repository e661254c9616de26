import Mathlib.Data.List.DropRight
import Mathlib.Data.List.Basic

/-!
# Searching in texts

The first and the last place of a symbol in a text, the words of a text, and a
text without the separators around it.
-/

namespace Shell.TextSearch

variable {Symbol : Type*}

/-! ## Places -/

section Places

variable [DecidableEq Symbol]

/-- The first place of the symbol. -/
def find (symbol : Symbol) (text : List Symbol) : Option Nat :=
  text.findIdx? fun other => other = symbol

/-- The last place of the symbol. -/
def rfind (symbol : Symbol) (text : List Symbol) : Option Nat :=
  (find symbol text.reverse).map fun place => text.length - 1 - place

theorem find_append
    {symbol : Symbol} {front : List Symbol} (absent : symbol ∉ front)
    (back : List Symbol) :
    find symbol (front ++ symbol :: back) = some front.length := by
  have notInFront :
      front.findIdx? (fun other => decide (other = symbol)) = none := by
    rw [List.findIdx?_eq_none_iff]
    intro other isOther
    exact decide_eq_false fun same => absent (same ▸ isOther)
  rw [find, List.findIdx?_append, notInFront, List.findIdx?_cons,
    if_pos (decide_eq_true rfl)]
  simp

theorem rfind_append
    {symbol : Symbol} {back : List Symbol} (absent : symbol ∉ back)
    (front : List Symbol) :
    rfind symbol (front ++ symbol :: back) = some front.length := by
  have reversed : symbol ∉ back.reverse := mt List.mem_reverse.mp absent
  have place := find_append reversed front.reverse
  rw [rfind, List.reverse_append, List.reverse_cons, List.append_assoc,
    List.singleton_append, place]
  simp only [Option.map_some, List.length_reverse, List.length_append,
    List.length_cons]
  congr 1
  omega

theorem find_lt
    {symbol : Symbol} {text : List Symbol} {place : Nat}
    (found : find symbol text = some place) :
    place < text.length :=
  (List.findIdx?_eq_some_iff_findIdx_eq.mp found).1

end Places

/-! ## Words -/

/-- The words of a text whose first symbols have been read already. -/
def wordsFrom (separates : Symbol → Bool) (word : List Symbol) :
    List Symbol → List (List Symbol)
  | [] => if word.isEmpty then [] else [word]
  | symbol :: rest =>
      if separates symbol then
        if word.isEmpty then wordsFrom separates [] rest
        else word :: wordsFrom separates [] rest
      else
        wordsFrom separates (word ++ [symbol]) rest

def words (separates : Symbol → Bool) (text : List Symbol) :
    List (List Symbol) :=
  wordsFrom separates [] text

/-- A word without separators. -/
structure IsWord (separates : Symbol → Bool) (word : List Symbol) : Prop where
  nonempty : word ≠ []
  whole : ∀ symbol ∈ word, separates symbol = false

variable {separates : Symbol → Bool}

theorem wordsFrom_append
    {symbols : List Symbol}
    (whole : ∀ symbol ∈ symbols, separates symbol = false)
    (word text : List Symbol) :
    wordsFrom separates word (symbols ++ text) =
      wordsFrom separates (word ++ symbols) text := by
  induction symbols generalizing word with
  | nil => rw [List.append_nil, List.nil_append]
  | cons symbol symbols induction =>
      rcases List.forall_mem_cons.mp whole with ⟨first, later⟩
      rw [List.cons_append, wordsFrom, first, if_neg Bool.false_ne_true,
        induction later, List.append_assoc, List.singleton_append]

theorem wordsFrom_separators
    {separators : List Symbol}
    (separating : ∀ symbol ∈ separators, separates symbol = true)
    (word : List Symbol) :
    wordsFrom separates word separators =
      if word.isEmpty then [] else [word] := by
  induction separators generalizing word with
  | nil => rfl
  | cons symbol separators induction =>
      rcases List.forall_mem_cons.mp separating with ⟨first, later⟩
      rw [wordsFrom, if_pos first, induction later]
      rfl

/-- The words of the text in front of which a word ends. -/
theorem words_append_separator
    {word : List Symbol} (isWord : IsWord separates word)
    {separator : Symbol} (separating : separates separator = true)
    (text : List Symbol) :
    words separates (word ++ separator :: text) =
      word :: words separates text := by
  have notEmpty : word.isEmpty = false := by
    simpa using isWord.nonempty
  rw [words, wordsFrom_append isWord.whole, List.nil_append, wordsFrom,
    if_pos separating, notEmpty, if_neg Bool.false_ne_true]
  rfl

/-- Words that are joined by single separators are read back. -/
theorem words_intercalate
    {list : List (List Symbol)}
    (areWords : ∀ word ∈ list, IsWord separates word)
    {separator : Symbol} (separating : separates separator = true)
    {trailing : List Symbol}
    (ends : ∀ symbol ∈ trailing, separates symbol = true) :
    words separates ([separator].intercalate list ++ trailing) = list := by
  induction list with
  | nil => exact wordsFrom_separators ends []
  | cons word list induction =>
      rcases List.forall_mem_cons.mp areWords with ⟨isWord, later⟩
      cases list with
      | nil =>
          rw [List.intercalate_singleton, words,
            wordsFrom_append isWord.whole, wordsFrom_separators ends,
            List.nil_append, if_neg]
          simpa using isWord.nonempty
      | cons next list =>
          rw [List.intercalate_cons_cons, List.append_assoc,
            List.append_assoc, List.singleton_append,
            words_append_separator isWord separating, induction later]

theorem mem_intercalate
    {symbol separator : Symbol} {list : List (List Symbol)}
    (isSymbol : symbol ∈ [separator].intercalate list) :
    symbol = separator ∨ ∃ word ∈ list, symbol ∈ word := by
  induction list with
  | nil => cases isSymbol
  | cons word list induction =>
      cases list with
      | nil =>
          rw [List.intercalate_singleton] at isSymbol
          exact Or.inr ⟨word, List.mem_cons_self, isSymbol⟩
      | cons next list =>
          rw [List.intercalate_cons_cons, List.append_assoc,
            List.singleton_append, List.mem_append, List.mem_cons] at isSymbol
          rcases isSymbol with inWord | isSeparator | later
          · exact Or.inr ⟨word, List.mem_cons_self, inWord⟩
          · exact Or.inl isSeparator
          · rcases induction later with isSeparator | ⟨other, isOther, inside⟩
            · exact Or.inl isSeparator
            · exact Or.inr ⟨other, List.mem_cons_of_mem _ isOther, inside⟩

/-! ## Without the separators around it -/

/-- The text without the separators at its ends. -/
def trim (separates : Symbol → Bool) (text : List Symbol) : List Symbol :=
  (text.dropWhile separates).rdropWhile separates

theorem trim_eq_nil_iff {text : List Symbol} :
    trim separates text = [] ↔
      ∀ symbol ∈ text, separates symbol = true := by
  rw [trim, List.rdropWhile_eq_nil_iff]
  constructor
  · intro rest symbol isSymbol
    rw [← List.takeWhile_append_dropWhile (p := separates) (l := text)]
      at isSymbol
    rcases List.mem_append.mp isSymbol with front | back
    · exact List.mem_takeWhile_imp front
    · exact rest symbol back
  · intro all symbol isSymbol
    exact all symbol ((List.dropWhile_suffix _).subset isSymbol)

theorem getLast?_trim {text : List Symbol} :
    ∀ symbol ∈ (trim separates text).getLast?, separates symbol = false := by
  intro symbol isLast
  have nonempty : trim separates text ≠ [] := by
    intro empty
    rw [empty] at isLast
    cases isLast
  have last := List.rdropWhile_last_not separates _ nonempty
  rw [List.getLast?_eq_some_getLast nonempty] at isLast
  cases isLast
  exact Bool.eq_false_iff.mpr last

theorem head?_trim {text : List Symbol} :
    ∀ symbol ∈ (trim separates text).head?, separates symbol = false := by
  intro symbol isHead
  have front : trim separates text <+: text.dropWhile separates :=
    List.rdropWhile_prefix separates _
  rcases front with ⟨back, whole⟩
  have first : (text.dropWhile separates).head? = some symbol := by
    rw [← whole, List.head?_append, isHead]
    rfl
  have solid := List.head?_dropWhile_not separates text
  rw [first] at solid
  exact solid

/-- A text that starts and ends with other symbols stays as it is, whatever
separators are put around it. -/
theorem trim_surrounded
    {front text back : List Symbol}
    (isFront : ∀ symbol ∈ front, separates symbol = true)
    (isBack : ∀ symbol ∈ back, separates symbol = true)
    (starts : ∀ symbol ∈ text.head?, separates symbol = false)
    (ends : ∀ symbol ∈ text.getLast?, separates symbol = false) :
    trim separates (front ++ (text ++ back)) = text := by
  cases text with
  | nil =>
      rw [trim_eq_nil_iff, List.nil_append]
      exact List.forall_mem_append.mpr ⟨isFront, isBack⟩
  | cons first rest =>
      have kept :
          ((first :: rest) ++ back).dropWhile separates =
            (first :: rest) ++ back := by
        rw [List.cons_append, List.dropWhile_cons_of_neg]
        rw [starts first rfl]
        exact Bool.false_ne_true
      have reversed : ∀ symbol ∈ back.reverse, separates symbol = true :=
        fun symbol isSymbol => isBack symbol (List.mem_reverse.mp isSymbol)
      rw [trim, List.dropWhile_append_of_pos isFront, kept, List.rdropWhile,
        List.reverse_append, List.dropWhile_append_of_pos reversed]
      show (first :: rest).rdropWhile separates = first :: rest
      rw [List.rdropWhile_eq_self_iff]
      intro nonempty
      rw [ends _ (List.getLast?_eq_some_getLast nonempty)]
      exact Bool.false_ne_true

end Shell.TextSearch
