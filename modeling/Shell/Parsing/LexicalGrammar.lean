import Shell.Library.MaximalMunch
import Shell.Parsing.Syntax

/-!
# The lexical grammar of the command language

This module states what the lexer is for, without reference to its loop.  An
input splits into white space, words and operators.  A word is a maximal
non-empty concatenation of fragments; an operator is the longest one that
matches where no word is open.  A digit form such as `2>` can only be met
there: directly after a word the digit would have been a fragment of it.
-/

namespace Shell.LexicalGrammar

open Shell.Syntax
open Shell.MaximalMunch

/-! ## Fragments -/

/-- Bytes that are not part of a word unless they are quoted or escaped. -/
def specialBytes : List UInt8 :=
  [backslash, singleQuote, doubleQuote, ampersand, verticalBar, semicolon,
    lessThan, greaterThan]

/-- The value of a backslash pair between double quotes. -/
def pairValue (character : UInt8) : ByteString :=
  if character ∈ [doubleQuote, backslash, dollar, backquote, newline] then
    [character]
  else
    [backslash, character]

/-- The text between two double quotes, with its value. -/
inductive DoubleQuoted : ByteString → ByteString → Prop where
  | nil : DoubleQuoted [] []
  | plain {body value : ByteString} (character : UInt8)
      (notBackslash : character ≠ backslash)
      (notQuote : character ≠ doubleQuote)
      (later : DoubleQuoted body value) :
      DoubleQuoted (character :: body) (character :: value)
  | pair {body value : ByteString} (character : UInt8)
      (later : DoubleQuoted body value) :
      DoubleQuoted (backslash :: character :: body)
        (pairValue character ++ value)

/-- One fragment of a word, with its value. -/
inductive Fragment : ByteString → ByteString → Prop where
  | plain (character : UInt8)
      (notSpace : isSpace character = false)
      (notSpecial : character ∉ specialBytes) :
      Fragment [character] [character]
  | escaped (character : UInt8) :
      Fragment [backslash, character] [character]
  | single (body : ByteString) (noQuote : singleQuote ∉ body) :
      Fragment (singleQuote :: (body ++ [singleQuote])) body
  | double {body value : ByteString} (quoted : DoubleQuoted body value) :
      Fragment (doubleQuote :: (body ++ [doubleQuote])) value

/-- Zero or more fragments in a row. -/
abbrev Fragments : ByteString → ByteString → Prop :=
  Concatenation Fragment

/-- Some fragment stands at the front of the input. -/
abbrev StartsFragment : ByteString → Prop :=
  Starts Fragment

/-! ## Operators -/

/-- The operators of the language and the token type of each. -/
def operators : List (TokenType × ByteString) :=
  [(.andIf, [ampersand, ampersand]),
    (.background, [ampersand]),
    (.orIf, [verticalBar, verticalBar]),
    (.pipe, [verticalBar]),
    (.semicolon, [semicolon]),
    (.redirectIn, [lessThan]),
    (.redirectAppend, [greaterThan, greaterThan]),
    (.redirectOut, [greaterThan]),
    (.redirectErrAppend, [digitTwo, greaterThan, greaterThan]),
    (.redirectErr, [digitTwo, greaterThan]),
    (.redirectAppend, [digitOne, greaterThan, greaterThan]),
    (.redirectOut, [digitOne, greaterThan])]

/-- Some operator stands at the front of the input. -/
def StartsOperator (input : ByteString) : Prop :=
  ∃ entry ∈ operators, entry.2 <+: input

instance (input : ByteString) : Decidable (StartsOperator input) :=
  inferInstanceAs (Decidable (∃ entry ∈ operators, entry.2 <+: input))

/-- The operator that matches the front of the input and is longest there. -/
def LongestOperator (type : TokenType) (text input : ByteString) : Prop :=
  (type, text) ∈ operators ∧ text <+: input ∧
    ∀ entry ∈ operators, entry.2 <+: input →
      entry.2.length ≤ text.length

/-! ## Splits -/

/-- One piece of a split input. -/
inductive Lexeme where
  | space (character : UInt8)
  | word (text value : ByteString)
  | operator (type : TokenType) (text : ByteString)
deriving DecidableEq, Repr

/-- The source text of a piece. -/
def Lexeme.text : Lexeme → ByteString
  | .space character => [character]
  | .word text _ => text
  | .operator _ text => text

/-- The splits of an input under the lexical rules. -/
inductive LexicalSplit : ByteString → List Lexeme → Prop where
  | nil : LexicalSplit [] []
  | space {rest : ByteString} {lexemes : List Lexeme} (character : UInt8)
      (isBlank : isSpace character = true)
      (later : LexicalSplit rest lexemes) :
      LexicalSplit (character :: rest) (.space character :: lexemes)
  | word {text value rest : ByteString} {lexemes : List Lexeme}
      (fragments : Fragments text value)
      (nonempty : text ≠ [])
      (maximal : ¬ StartsFragment rest)
      (noOperator : ¬ StartsOperator (text ++ rest))
      (later : LexicalSplit rest lexemes) :
      LexicalSplit (text ++ rest) (.word text value :: lexemes)
  | operator {type : TokenType} {text rest : ByteString}
      {lexemes : List Lexeme}
      (longest : LongestOperator type text (text ++ rest))
      (later : LexicalSplit rest lexemes) :
      LexicalSplit (text ++ rest) (.operator type text :: lexemes)

/-- The tokens of a split whose first piece starts at the given offset. -/
def lexemeTokens : Nat → List Lexeme → List Token
  | _, [] => []
  | position, .space _ :: lexemes => lexemeTokens (position + 1) lexemes
  | position, .word text value :: lexemes =>
      ⟨.word, value, position⟩ ::
        lexemeTokens (position + text.length) lexemes
  | position, .operator type text :: lexemes =>
      ⟨type, text, position⟩ ::
        lexemeTokens (position + text.length) lexemes

/-! ## Fragments are a prefix code -/

theorem DoubleQuoted.unique
    {body body' value value' rest rest' : ByteString}
    (left : DoubleQuoted body value)
    (right : DoubleQuoted body' value')
    (equal :
      body ++ doubleQuote :: rest = body' ++ doubleQuote :: rest') :
    body = body' ∧ value = value' := by
  induction left generalizing body' value' with
  | nil =>
      cases right with
      | nil => exact ⟨rfl, rfl⟩
      | plain character _ notQuote _ =>
          exact (notQuote (List.cons.inj equal).1.symm).elim
      | pair character _ => exact absurd (List.cons.inj equal).1 (by decide)
  | plain character notBackslash notQuote _ induction =>
      cases right with
      | nil => exact (notQuote (List.cons.inj equal).1).elim
      | plain other _ _ later =>
          obtain ⟨rfl, tailEqual⟩ := List.cons.inj equal
          obtain ⟨rfl, rfl⟩ := induction later tailEqual
          exact ⟨rfl, rfl⟩
      | pair other _ =>
          exact (notBackslash (List.cons.inj equal).1).elim
  | pair character _ induction =>
      cases right with
      | nil => exact absurd (List.cons.inj equal).1 (by decide)
      | plain other notBackslash _ _ =>
          exact (notBackslash (List.cons.inj equal).1.symm).elim
      | pair other later =>
          simp only [List.cons_append, List.cons.injEq, true_and] at equal
          obtain ⟨rfl, tailEqual⟩ := equal
          obtain ⟨rfl, rfl⟩ := induction later tailEqual
          exact ⟨rfl, rfl⟩

/-- The first byte of a fragment that is not a plain byte is special. -/
theorem fragment_prefixCode : PrefixCode Fragment := by
  intro text text' value value' rest rest' left right equal
  cases left with
  | plain character notSpace notSpecial =>
      cases right with
      | plain other _ _ =>
          obtain ⟨rfl, -⟩ := List.cons.inj equal
          exact ⟨rfl, rfl⟩
      | escaped other =>
          obtain ⟨rfl, -⟩ := List.cons.inj equal
          simp [specialBytes] at notSpecial
      | single body _ =>
          obtain ⟨rfl, -⟩ := List.cons.inj equal
          simp [specialBytes] at notSpecial
      | double _ =>
          obtain ⟨rfl, -⟩ := List.cons.inj equal
          simp [specialBytes] at notSpecial
  | escaped character =>
      cases right with
      | plain other _ notSpecial =>
          obtain ⟨rfl, -⟩ := List.cons.inj equal
          simp [specialBytes] at notSpecial
      | escaped other =>
          obtain ⟨-, tailEqual⟩ := List.cons.inj equal
          obtain ⟨rfl, -⟩ := List.cons.inj tailEqual
          exact ⟨rfl, rfl⟩
      | single body _ => exact absurd (List.cons.inj equal).1 (by decide)
      | double _ => exact absurd (List.cons.inj equal).1 (by decide)
  | single body noQuote =>
      cases right with
      | plain other _ notSpecial =>
          obtain ⟨rfl, -⟩ := List.cons.inj equal
          simp [specialBytes] at notSpecial
      | escaped other => exact absurd (List.cons.inj equal).1 (by decide)
      | single other otherNoQuote =>
          simp only [List.cons_append, List.append_assoc, List.nil_append,
            List.cons.injEq, true_and] at equal
          obtain rfl :=
            before_delimiter_unique noQuote otherNoQuote equal
          exact ⟨rfl, rfl⟩
      | double _ => exact absurd (List.cons.inj equal).1 (by decide)
  | double quoted =>
      cases right with
      | plain other _ notSpecial =>
          obtain ⟨rfl, -⟩ := List.cons.inj equal
          simp [specialBytes] at notSpecial
      | escaped other => exact absurd (List.cons.inj equal).1 (by decide)
      | single body _ => exact absurd (List.cons.inj equal).1 (by decide)
      | double otherQuoted =>
          simp only [List.cons_append, List.append_assoc, List.nil_append,
            List.cons.injEq, true_and] at equal
          obtain ⟨rfl, rfl⟩ := quoted.unique otherQuoted equal
          exact ⟨rfl, rfl⟩

theorem Fragment.text_ne_nil
    {text value : ByteString} (fragment : Fragment text value) :
    text ≠ [] := by
  cases fragment <;> simp

/-- A fragment never begins with white space. -/
theorem Fragment.not_space
    {value rest : ByteString} {character : UInt8}
    (fragment : Fragment (character :: rest) value) :
    isSpace character = false := by
  cases fragment with
  | plain _ notSpace _ => exact notSpace
  | escaped _ => decide
  | single _ _ => decide
  | double _ => decide

theorem not_startsFragment_nil : ¬ StartsFragment [] := by
  rintro ⟨text, value, rest, fragment, equal⟩
  exact fragment.text_ne_nil (List.append_eq_nil_iff.mp equal.symm).1

theorem not_startsFragment_space
    {character : UInt8} (isBlank : isSpace character = true)
    (rest : ByteString) :
    ¬ StartsFragment (character :: rest) := by
  rintro ⟨text, value, tail, fragment, equal⟩
  cases text with
  | nil => exact fragment.text_ne_nil rfl
  | cons first others =>
      obtain ⟨rfl, -⟩ := List.cons.inj equal
      simp [fragment.not_space] at isBlank

/-! ## Splits are unique -/

theorem LongestOperator.text_ne_nil
    {type : TokenType} {text input : ByteString}
    (longest : LongestOperator type text input) :
    text ≠ [] := by
  have nonempty : ∀ entry ∈ operators, entry.2 ≠ [] := by decide
  exact nonempty _ longest.1

theorem LongestOperator.startsOperator
    {type : TokenType} {text input : ByteString}
    (longest : LongestOperator type text input) :
    StartsOperator input :=
  ⟨(type, text), longest.1, longest.2.1⟩

/-- No two operators of the table have the same text. -/
theorem operators_text_injective :
    ∀ left ∈ operators, ∀ right ∈ operators,
      left.2 = right.2 → left = right := by
  decide

theorem LongestOperator.unique
    {type type' : TokenType} {text text' input : ByteString}
    (left : LongestOperator type text input)
    (right : LongestOperator type' text' input) :
    type = type' ∧ text = text' := by
  have lengthEqual : text.length = text'.length :=
    Nat.le_antisymm
      (right.2.2 _ left.1 left.2.1)
      (left.2.2 _ right.1 right.2.1)
  have textEqual : text = text' :=
    List.IsPrefix.eq_of_length
      (List.prefix_of_prefix_length_le left.2.1 right.2.1
        (Nat.le_of_eq lengthEqual))
      lengthEqual
  have entryEqual :=
    operators_text_injective _ left.1 _ right.1 textEqual
  exact ⟨congrArg Prod.fst entryEqual, textEqual⟩

/-- The bytes an operator can begin with. -/
def operatorHeads : List UInt8 :=
  [ampersand, verticalBar, semicolon, lessThan, greaterThan, digitTwo,
    digitOne]

theorem StartsOperator.head_mem
    {character : UInt8} {rest : ByteString}
    (started : StartsOperator (character :: rest)) :
    character ∈ operatorHeads := by
  have heads :
      ∀ entry ∈ operators,
        ∃ first ∈ operatorHeads, entry.2.head? = some first := by
    decide
  obtain ⟨⟨type, text⟩, member, isPrefix⟩ := started
  obtain ⟨first, firstMember, firstEqual⟩ := heads _ member
  cases text with
  | nil => simp at firstEqual
  | cons head others =>
      rw [List.cons_prefix_cons] at isPrefix
      obtain rfl := Option.some.inj firstEqual
      exact isPrefix.1 ▸ firstMember

/-- No operator begins with white space. -/
theorem not_startsOperator_space
    {character : UInt8} (isBlank : isSpace character = true)
    (rest : ByteString) :
    ¬ StartsOperator (character :: rest) := by
  have noSpaces :
      operatorHeads.all (fun head => !isSpace head) = true := by
    decide
  intro started
  have notSpace := List.all_eq_true.mp noSpaces _ started.head_mem
  rw [isBlank] at notSpace
  exact Bool.noConfusion notSpace

theorem not_startsOperator_nil : ¬ StartsOperator [] := by
  decide

/-- A word never begins with white space. -/
theorem Fragments.not_space
    {text value rest : ByteString} {character : UInt8}
    (fragments : Fragments text value)
    (nonempty : text ≠ [])
    {tail : ByteString}
    (equal : text ++ rest = character :: tail) :
    isSpace character = false := by
  obtain ⟨first, _, later, _, fragment, -, rfl, -⟩ :=
    fragments.exists_first nonempty
  cases first with
  | nil => exact (fragment.text_ne_nil rfl).elim
  | cons head others =>
      obtain ⟨rfl, -⟩ := List.cons.inj equal
      exact fragment.not_space

/-- White space is a piece of its own. -/
theorem LexicalSplit.space_inversion
    {character : UInt8} {rest : ByteString} {lexemes : List Lexeme}
    (isBlank : isSpace character = true)
    (split : LexicalSplit (character :: rest) lexemes) :
    ∃ later,
      lexemes = .space character :: later ∧ LexicalSplit rest later := by
  generalize equal : character :: rest = input at split
  cases split with
  | nil => cases equal
  | space other _ later =>
      obtain ⟨rfl, rfl⟩ := List.cons.inj equal
      exact ⟨_, rfl, later⟩
  | word fragments nonempty _ _ _ =>
      rw [fragments.not_space nonempty equal.symm] at isBlank
      exact Bool.noConfusion isBlank
  | operator longest _ =>
      have started := longest.startsOperator
      rw [← equal] at started
      exact (not_startsOperator_space isBlank _ started).elim

/-- Fragments that cannot be continued are the first piece. -/
theorem LexicalSplit.word_inversion
    {text value rest : ByteString} {lexemes : List Lexeme}
    (fragments : Fragments text value) (nonempty : text ≠ [])
    (maximal : ¬ StartsFragment rest)
    (noOperator : ¬ StartsOperator (text ++ rest))
    (split : LexicalSplit (text ++ rest) lexemes) :
    ∃ later,
      lexemes = .word text value :: later ∧ LexicalSplit rest later := by
  generalize equal : text ++ rest = input at split
  cases split with
  | nil => exact (nonempty (List.append_eq_nil_iff.mp equal).1).elim
  | space other isBlank _ =>
      rw [fragments.not_space nonempty equal] at isBlank
      exact Bool.noConfusion isBlank
  | word otherFragments _ otherMaximal _ later =>
      obtain ⟨rfl, rfl⟩ :=
        fragments.maximal_unique fragment_prefixCode otherFragments maximal
          otherMaximal equal
      obtain rfl := List.append_cancel_left equal
      exact ⟨_, rfl, later⟩
  | operator longest _ =>
      rw [equal] at noOperator
      exact (noOperator longest.startsOperator).elim

/-- The longest operator is the first piece. -/
theorem LexicalSplit.operator_inversion
    {type : TokenType} {text rest : ByteString} {lexemes : List Lexeme}
    (longest : LongestOperator type text (text ++ rest))
    (split : LexicalSplit (text ++ rest) lexemes) :
    ∃ later,
      lexemes = .operator type text :: later ∧ LexicalSplit rest later := by
  generalize equal : text ++ rest = input at split
  cases split with
  | nil =>
      exact (longest.text_ne_nil (List.append_eq_nil_iff.mp equal).1).elim
  | space other isBlank _ =>
      have started := longest.startsOperator
      rw [equal] at started
      exact (not_startsOperator_space isBlank _ started).elim
  | word _ _ _ noOperator _ =>
      rw [← equal] at noOperator
      exact (noOperator longest.startsOperator).elim
  | operator otherLongest later =>
      rw [← equal] at otherLongest
      obtain ⟨rfl, rfl⟩ := longest.unique otherLongest
      obtain rfl := List.append_cancel_left equal
      exact ⟨_, rfl, later⟩

theorem LexicalSplit.nil_inversion
    {lexemes : List Lexeme} (split : LexicalSplit [] lexemes) :
    lexemes = [] := by
  generalize equal : ([] : ByteString) = input at split
  cases split with
  | nil => rfl
  | space _ _ _ => cases equal
  | word _ nonempty _ _ _ =>
      exact (nonempty (List.append_eq_nil_iff.mp equal.symm).1).elim
  | operator longest _ =>
      exact
        (longest.text_ne_nil (List.append_eq_nil_iff.mp equal.symm).1).elim

/-- An input has at most one split under the lexical rules. -/
theorem LexicalSplit.unique
    {input : ByteString} {lexemes lexemes' : List Lexeme}
    (left : LexicalSplit input lexemes)
    (right : LexicalSplit input lexemes') :
    lexemes = lexemes' := by
  induction left generalizing lexemes' with
  | nil => exact right.nil_inversion.symm
  | space character isBlank _ induction =>
      obtain ⟨later, rfl, laterSplit⟩ := right.space_inversion isBlank
      rw [induction laterSplit]
  | word fragments nonempty maximal noOperator _ induction =>
      obtain ⟨later, rfl, laterSplit⟩ :=
        right.word_inversion fragments nonempty maximal noOperator
      rw [induction laterSplit]
  | operator longest _ induction =>
      obtain ⟨later, rfl, laterSplit⟩ := right.operator_inversion longest
      rw [induction laterSplit]

end Shell.LexicalGrammar
