import Shell.Parsing.Lexer
import Shell.Parsing.LexicalGrammar

/-!
# The lexer implements the lexical grammar

Every state of the loop of `lex` stands for a question about the rest of the
input: which token lists can still be split off, given that no word is open,
that a word is open, or that a quote is open inside a word.  `Remaining`
answers it in terms of the grammar alone.  One iteration of the loop moves
from a question to an equivalent one (`Advances`), so the loop returns exactly
the token list of the split when there is one and an error when there is none.
-/

namespace Shell.LexerCorrectness

open Shell.Syntax
open Shell.MaximalMunch
open Shell.LexicalGrammar
open Shell.Lexer

/-! ## What can still be split off -/

/-- The token list of a split of the input, which starts at the offset. -/
def SplitTokens (position : Nat) (input : ByteString)
    (tokens : List Token) : Prop :=
  ∃ lexemes,
    LexicalSplit input lexemes ∧
      tokens = lexemeTokens position lexemes

/--
The token list of an input that continues an open word, of which the value
so far and the offset of its first byte are given.
-/
def OpenWord (start : Nat) (value : ByteString) (position : Nat)
    (input : ByteString) (tokens : List Token) : Prop :=
  ∃ text more rest tail,
    input = text ++ rest ∧
      Fragments text more ∧
      ¬ StartsFragment rest ∧
      SplitTokens (position + text.length) rest tail ∧
      tokens = ⟨.word, value ++ more, start⟩ :: tail

/-- The same for an input that continues an open quotation of the word. -/
def OpenQuote (quote : UInt8) (quoted : ByteString → ByteString → Prop)
    (start : Nat) (value : ByteString) (position : Nat)
    (input : ByteString) (tokens : List Token) : Prop :=
  ∃ text more rest,
    input = text ++ quote :: rest ∧
      quoted text more ∧
      OpenWord start (value ++ more) (position + text.length + 1)
        rest tokens

/-- The text between two single quotes is its own value. -/
def SingleQuoted (text value : ByteString) : Prop :=
  singleQuote ∉ text ∧ value = text

/-! ## Inversion where no word is open -/

theorem splitTokens_nil (position : Nat) (tokens : List Token) :
    SplitTokens position [] tokens ↔ tokens = [] := by
  constructor
  · rintro ⟨lexemes, split, rfl⟩
    rw [split.unique .nil]
    rfl
  · rintro rfl
    exact ⟨[], .nil, rfl⟩

theorem splitTokens_space
    {character : UInt8} (isBlank : isSpace character = true)
    (position : Nat) (rest : ByteString) (tokens : List Token) :
    SplitTokens position (character :: rest) tokens ↔
      SplitTokens (position + 1) rest tokens := by
  constructor
  · rintro ⟨lexemes, split, rfl⟩
    generalize equal : character :: rest = input at split
    cases split with
    | nil => simp at equal
    | space other _ later =>
        obtain ⟨rfl, rfl⟩ := List.cons.inj equal
        exact ⟨_, later, rfl⟩
    | word fragments nonempty _ _ _ =>
        rw [fragments.not_space nonempty equal.symm] at isBlank
        exact Bool.noConfusion isBlank
    | operator longest _ =>
        have started := longest.startsOperator
        rw [← equal] at started
        exact (not_startsOperator_space isBlank _ started).elim
  · rintro ⟨lexemes, split, rfl⟩
    exact ⟨_, .space character isBlank split, rfl⟩

theorem splitTokens_operator
    {type : TokenType} {text rest : ByteString}
    (longest : LongestOperator type text (text ++ rest))
    (position : Nat) (tokens : List Token) :
    SplitTokens position (text ++ rest) tokens ↔
      ∃ tail,
        tokens = ⟨type, text, position⟩ :: tail ∧
          SplitTokens (position + text.length) rest tail := by
  constructor
  · rintro ⟨lexemes, split, rfl⟩
    generalize equal : text ++ rest = input at split longest
    cases split with
    | nil => exact (not_startsOperator_nil longest.startsOperator).elim
    | space other isBlank _ =>
        exact
          (not_startsOperator_space isBlank _
            longest.startsOperator).elim
    | word _ _ _ noOperator _ =>
        exact (noOperator longest.startsOperator).elim
    | operator otherLongest later =>
        obtain ⟨rfl, rfl⟩ := longest.unique otherLongest
        obtain rfl := List.append_cancel_left equal
        exact ⟨_, rfl, _, later, rfl⟩
  · rintro ⟨tail, rfl, lexemes, split, rfl⟩
    exact ⟨_, .operator longest split, rfl⟩

/-- Where neither white space nor an operator stands, a word is opened. -/
theorem splitTokens_openWord
    {character : UInt8} {rest : ByteString}
    (notSpace : isSpace character = false)
    (noOperator : ¬ StartsOperator (character :: rest))
    (position : Nat) (tokens : List Token) :
    SplitTokens position (character :: rest) tokens ↔
      ∃ text more tailInput tail,
        character :: rest = text ++ tailInput ∧
          Fragments text more ∧
          text ≠ [] ∧
          ¬ StartsFragment tailInput ∧
          SplitTokens (position + text.length) tailInput tail ∧
          tokens = ⟨.word, more, position⟩ :: tail := by
  constructor
  · rintro ⟨lexemes, split, rfl⟩
    generalize equal : character :: rest = input at split noOperator
    cases split with
    | nil => simp at equal
    | space other isBlank _ =>
        obtain ⟨rfl, -⟩ := List.cons.inj equal
        rw [notSpace] at isBlank
        exact Bool.noConfusion isBlank
    | word fragments nonempty maximal _ later =>
        exact
          ⟨_, _, _, _, rfl, fragments, nonempty, maximal,
            ⟨_, later, rfl⟩, rfl⟩
    | operator longest _ =>
        exact (noOperator longest.startsOperator).elim
  · rintro
      ⟨text, more, tailInput, tail, equal, fragments, nonempty, maximal,
        ⟨lexemes, split, rfl⟩, rfl⟩
    rw [equal] at noOperator ⊢
    exact ⟨_, .word fragments nonempty maximal noOperator split, rfl⟩

/-! ## Inversion inside a word -/

/-- An open word takes the fragment at the front of the input. -/
theorem openWord_fragment
    {text more : ByteString} (fragment : Fragment text more)
    (start : Nat) (value : ByteString) (position : Nat)
    (rest : ByteString) (tokens : List Token) :
    OpenWord start value position (text ++ rest) tokens ↔
      OpenWord start (value ++ more) (position + text.length)
        rest tokens := by
  constructor
  · rintro ⟨taken, takenValue, tailInput, tail, equal, fragments, maximal,
      split, rfl⟩
    obtain ⟨later, laterValue, laterFragments, rfl, rfl, rfl⟩ :=
      fragments.take_first fragment_prefixCode fragment maximal equal
    refine
      ⟨later, laterValue, tailInput, tail, rfl, laterFragments, maximal,
        ?_, ?_⟩
    · simpa [Nat.add_assoc] using split
    · simp
  · rintro ⟨later, laterValue, tailInput, tail, rfl, fragments, maximal,
      split, rfl⟩
    refine
      ⟨text ++ later, more ++ laterValue, tailInput, tail, by simp,
        .cons fragment fragments, maximal, ?_, ?_⟩
    · simpa [Nat.add_assoc] using split
    · simp

/-- An open word ends where no fragment stands. -/
theorem openWord_close
    {input : ByteString} (notStarted : ¬ StartsFragment input)
    (start : Nat) (value : ByteString) (position : Nat)
    (tokens : List Token) :
    OpenWord start value position input tokens ↔
      ∃ tail,
        tokens = ⟨.word, value, start⟩ :: tail ∧
          SplitTokens position input tail := by
  constructor
  · rintro ⟨text, more, rest, tail, rfl, fragments, -, split, rfl⟩
    cases fragments with
    | nil => exact ⟨tail, by simp, by simpa using split⟩
    | cons first later =>
        rw [List.append_assoc] at notStarted
        exact (notStarted (Starts.intro first _)).elim
  · rintro ⟨tail, rfl, split⟩
    exact ⟨[], [], input, tail, rfl, .nil, notStarted, by simpa using split,
      by simp⟩

/-- A byte that begins no piece at all leaves no split. -/
theorem not_splitTokens
    {character : UInt8} {rest : ByteString}
    (notSpace : isSpace character = false)
    (noOperator : ¬ StartsOperator (character :: rest))
    (notStarted : ¬ StartsFragment (character :: rest))
    (position : Nat) (tokens : List Token) :
    ¬ SplitTokens position (character :: rest) tokens := by
  intro split
  obtain ⟨text, more, tailInput, _, equal, fragments, nonempty, -⟩ :=
    (splitTokens_openWord notSpace noOperator position tokens).mp split
  obtain ⟨first, _, later, _, fragment, -, rfl, -⟩ :=
    fragments.exists_first nonempty
  apply notStarted
  rw [equal, List.append_assoc]
  exact Starts.intro fragment _

theorem not_openWord
    {character : UInt8} {rest : ByteString}
    (notSpace : isSpace character = false)
    (noOperator : ¬ StartsOperator (character :: rest))
    (notStarted : ¬ StartsFragment (character :: rest))
    (start : Nat) (value : ByteString) (position : Nat)
    (tokens : List Token) :
    ¬ OpenWord start value position (character :: rest) tokens := by
  rw [openWord_close notStarted]
  rintro ⟨tail, -, split⟩
  exact not_splitTokens notSpace noOperator notStarted position tail split

/-- A word opened here is an open word with nothing in it yet. -/
theorem splitTokens_iff_openWord
    {character : UInt8} {rest : ByteString}
    (notSpace : isSpace character = false)
    (noOperator : ¬ StartsOperator (character :: rest))
    (position : Nat) (tokens : List Token) :
    SplitTokens position (character :: rest) tokens ↔
      OpenWord position [] position (character :: rest) tokens := by
  by_cases started : StartsFragment (character :: rest)
  · rw [splitTokens_openWord notSpace noOperator]
    constructor
    · rintro ⟨text, more, tailInput, tail, equal, fragments, -, maximal,
        split, rfl⟩
      exact ⟨text, more, tailInput, tail, equal, fragments, maximal, split,
        rfl⟩
    · rintro ⟨text, more, tailInput, tail, equal, fragments, maximal,
        split, rfl⟩
      have nonempty : text ≠ [] := by
        rintro rfl
        rw [equal] at started
        exact maximal started
      exact ⟨text, more, tailInput, tail, equal, fragments, nonempty,
        maximal, split, rfl⟩
  · constructor
    · intro split
      exact
        (not_splitTokens notSpace noOperator started position tokens
          split).elim
    · intro word
      exact
        (not_openWord notSpace noOperator started position [] position
          tokens word).elim

/-! ## Escapes and quotations -/

/-- No operator of the table begins with a quoting byte. -/
theorem not_startsOperator_quoting
    {character : UInt8}
    (quoting : character ∈ [backslash, singleQuote, doubleQuote])
    (rest : ByteString) :
    ¬ StartsOperator (character :: rest) := by
  have disjoint :
      operatorHeads.all
        (fun head => head ∉ [backslash, singleQuote, doubleQuote]) =
          true := by
    decide
  intro started
  have notQuoting := List.all_eq_true.mp disjoint _ started.head_mem
  exact of_decide_eq_true notQuoting quoting

/-- A backslash at the end of the input escapes nothing. -/
theorem not_startsFragment_backslash :
    ¬ StartsFragment [backslash] := by
  rintro ⟨text, value, rest, fragment, equal⟩
  cases fragment with
  | plain character _ notSpecial =>
      obtain ⟨rfl, -⟩ := List.cons.inj equal
      simp [specialBytes] at notSpecial
  | escaped character => simp at equal
  | single _ _ => exact absurd (List.cons.inj equal).1 (by decide)
  | double _ => exact absurd (List.cons.inj equal).1 (by decide)

/-- The fragments that a quoting byte opens. -/
structure Quotes (quote : UInt8)
    (quoted : ByteString → ByteString → Prop) : Prop where
  quoting : quote ∈ [backslash, singleQuote, doubleQuote]
  notSpace : isSpace quote = false
  close {text more : ByteString} :
    quoted text more → Fragment (quote :: (text ++ [quote])) more
  inversion {tail more : ByteString} :
    Fragment (quote :: tail) more →
      ∃ text, tail = text ++ [quote] ∧ quoted text more

theorem singleQuote_quotes : Quotes singleQuote SingleQuoted where
  quoting := by decide
  notSpace := by decide
  close := by
    rintro text more ⟨noQuote, rfl⟩
    exact .single _ noQuote
  inversion := by
    intro tail more fragment
    generalize equal : singleQuote :: tail = source at fragment
    cases fragment with
    | plain character _ notSpecial =>
        obtain ⟨rfl, -⟩ := List.cons.inj equal
        simp [specialBytes] at notSpecial
    | escaped _ => exact absurd (List.cons.inj equal).1 (by decide)
    | single body noQuote =>
        exact ⟨_, (List.cons.inj equal).2, noQuote, rfl⟩
    | double _ => exact absurd (List.cons.inj equal).1 (by decide)

theorem doubleQuote_quotes : Quotes doubleQuote DoubleQuoted where
  quoting := by decide
  notSpace := by decide
  close := .double
  inversion := by
    intro tail more fragment
    generalize equal : doubleQuote :: tail = source at fragment
    cases fragment with
    | plain character _ notSpecial =>
        obtain ⟨rfl, -⟩ := List.cons.inj equal
        simp [specialBytes] at notSpecial
    | escaped _ => exact absurd (List.cons.inj equal).1 (by decide)
    | single _ _ => exact absurd (List.cons.inj equal).1 (by decide)
    | double quoted => exact ⟨_, (List.cons.inj equal).2, quoted⟩

/-- A quoting byte in an open word opens a quotation. -/
theorem openWord_quote
    {quote : UInt8} {quoted : ByteString → ByteString → Prop}
    (quotes : Quotes quote quoted)
    (start : Nat) (value : ByteString) (position : Nat)
    (rest : ByteString) (tokens : List Token) :
    OpenWord start value position (quote :: rest) tokens ↔
      OpenQuote quote quoted start value (position + 1) rest tokens := by
  have take :
      ∀ {text more tailInput : ByteString}, quoted text more →
        (OpenWord start value position
            (quote :: (text ++ quote :: tailInput)) tokens ↔
          OpenWord start (value ++ more)
            (position + 1 + text.length + 1) tailInput tokens) := by
    intro text more tailInput body
    have taken :=
      openWord_fragment (quotes.close body) start value position
        tailInput tokens
    have lengthEqual :
        position + (quote :: (text ++ [quote])).length =
          position + 1 + text.length + 1 := by
      simp
      omega
    rw [lengthEqual] at taken
    simpa using taken
  constructor
  · intro word
    by_cases started : StartsFragment (quote :: rest)
    · obtain ⟨source, more, tailInput, fragment, equal⟩ := started
      cases source with
      | nil => exact (fragment.text_ne_nil rfl).elim
      | cons first others =>
          obtain ⟨rfl, rfl⟩ := List.cons.inj equal
          obtain ⟨text, rfl, body⟩ := quotes.inversion fragment
          refine ⟨text, more, tailInput, by simp, body, ?_⟩
          rw [← take body]
          simpa using word
    · exact
        (not_openWord quotes.notSpace
          (not_startsOperator_quoting quotes.quoting rest)
          started start value position tokens word).elim
  · rintro ⟨text, more, tailInput, rfl, body, word⟩
    exact (take body).mpr word

theorem openWord_escape
    (next : UInt8) (start : Nat) (value : ByteString) (position : Nat)
    (rest : ByteString) (tokens : List Token) :
    OpenWord start value position (backslash :: next :: rest) tokens ↔
      OpenWord start (value ++ [next]) (position + 2) rest tokens :=
  openWord_fragment (.escaped next) start value position rest tokens

theorem not_openWord_backslash
    (start : Nat) (value : ByteString) (position : Nat)
    (tokens : List Token) :
    ¬ OpenWord start value position [backslash] tokens :=
  not_openWord (by decide)
    (not_startsOperator_quoting (by decide) [])
    not_startsFragment_backslash start value position tokens

/-! ## Inversion inside a quotation -/

theorem not_openQuote_nil
    (quote : UInt8) (quoted : ByteString → ByteString → Prop)
    (start : Nat) (value : ByteString) (position : Nat)
    (tokens : List Token) :
    ¬ OpenQuote quote quoted start value position [] tokens := by
  rintro ⟨text, more, rest, equal, -⟩
  simp at equal

theorem openSingle_quote
    (start : Nat) (value : ByteString) (position : Nat)
    (rest : ByteString) (tokens : List Token) :
    OpenQuote singleQuote SingleQuoted start value position
        (singleQuote :: rest) tokens ↔
      OpenWord start value (position + 1) rest tokens := by
  constructor
  · rintro ⟨text, more, tailInput, equal, ⟨noQuote, rfl⟩, word⟩
    cases more with
    | nil =>
        obtain ⟨-, rfl⟩ := List.cons.inj equal
        simpa using word
    | cons first others =>
        obtain ⟨rfl, -⟩ := List.cons.inj equal
        simp at noQuote
  · intro word
    exact ⟨[], [], rest, rfl, ⟨by simp, rfl⟩, by simpa using word⟩

theorem openSingle_plain
    {character : UInt8} (notQuote : character ≠ singleQuote)
    (start : Nat) (value : ByteString) (position : Nat)
    (rest : ByteString) (tokens : List Token) :
    OpenQuote singleQuote SingleQuoted start value position
        (character :: rest) tokens ↔
      OpenQuote singleQuote SingleQuoted start (value ++ [character])
        (position + 1) rest tokens := by
  constructor
  · rintro ⟨text, more, tailInput, equal, ⟨noQuote, rfl⟩, word⟩
    cases more with
    | nil => exact (notQuote (List.cons.inj equal).1).elim
    | cons first others =>
        obtain ⟨rfl, rfl⟩ := List.cons.inj equal
        rw [List.mem_cons, not_or] at noQuote
        refine ⟨others, others, tailInput, rfl, ⟨noQuote.2, rfl⟩, ?_⟩
        simpa [Nat.add_assoc, Nat.add_comm, Nat.add_left_comm] using word
  · rintro ⟨text, more, tailInput, rfl, ⟨noQuote, rfl⟩, word⟩
    refine
      ⟨character :: more, character :: more, tailInput, rfl,
        ⟨?_, rfl⟩, ?_⟩
    · rw [List.mem_cons, not_or]
      exact ⟨notQuote.symm, noQuote⟩
    · simpa [Nat.add_assoc, Nat.add_comm, Nat.add_left_comm] using word

theorem openDouble_quote
    (start : Nat) (value : ByteString) (position : Nat)
    (rest : ByteString) (tokens : List Token) :
    OpenQuote doubleQuote DoubleQuoted start value position
        (doubleQuote :: rest) tokens ↔
      OpenWord start value (position + 1) rest tokens := by
  constructor
  · rintro ⟨text, more, tailInput, equal, quoted, word⟩
    cases quoted with
    | nil =>
        obtain ⟨-, rfl⟩ := List.cons.inj equal
        simpa using word
    | plain character _ notQuote _ =>
        exact (notQuote (List.cons.inj equal).1.symm).elim
    | pair character _ =>
        exact absurd (List.cons.inj equal).1 (by decide)
  · intro word
    exact ⟨[], [], rest, rfl, .nil, by simpa using word⟩

theorem openDouble_plain
    {character : UInt8}
    (notBackslash : character ≠ backslash)
    (notQuote : character ≠ doubleQuote)
    (start : Nat) (value : ByteString) (position : Nat)
    (rest : ByteString) (tokens : List Token) :
    OpenQuote doubleQuote DoubleQuoted start value position
        (character :: rest) tokens ↔
      OpenQuote doubleQuote DoubleQuoted start (value ++ [character])
        (position + 1) rest tokens := by
  constructor
  · rintro ⟨text, more, tailInput, equal, quoted, word⟩
    cases quoted with
    | nil => exact (notQuote (List.cons.inj equal).1).elim
    | plain other _ _ later =>
        obtain ⟨rfl, rfl⟩ := List.cons.inj equal
        refine ⟨_, _, tailInput, rfl, later, ?_⟩
        simpa [Nat.add_assoc, Nat.add_comm, Nat.add_left_comm] using word
    | pair other _ => exact (notBackslash (List.cons.inj equal).1).elim
  · rintro ⟨text, more, tailInput, rfl, quoted, word⟩
    refine
      ⟨character :: text, character :: more, tailInput, rfl,
        .plain character notBackslash notQuote quoted, ?_⟩
    simpa [Nat.add_assoc, Nat.add_comm, Nat.add_left_comm] using word

theorem openDouble_pair
    (next : UInt8) (start : Nat) (value : ByteString) (position : Nat)
    (rest : ByteString) (tokens : List Token) :
    OpenQuote doubleQuote DoubleQuoted start value position
        (backslash :: next :: rest) tokens ↔
      OpenQuote doubleQuote DoubleQuoted start (value ++ pairValue next)
        (position + 2) rest tokens := by
  constructor
  · rintro ⟨text, more, tailInput, equal, quoted, word⟩
    cases quoted with
    | nil => exact absurd (List.cons.inj equal).1 (by decide)
    | plain other notBackslash _ _ =>
        exact (notBackslash (List.cons.inj equal).1.symm).elim
    | pair other later =>
        obtain ⟨-, tailEqual⟩ := List.cons.inj equal
        obtain ⟨rfl, rfl⟩ := List.cons.inj tailEqual
        refine ⟨_, _, tailInput, rfl, later, ?_⟩
        simpa [Nat.add_assoc, Nat.add_comm, Nat.add_left_comm] using word
  · rintro ⟨text, more, tailInput, rfl, quoted, word⟩
    refine
      ⟨backslash :: next :: text, pairValue next ++ more, tailInput, rfl,
        .pair next quoted, ?_⟩
    simpa [Nat.add_assoc, Nat.add_comm, Nat.add_left_comm] using word

theorem not_openDouble_backslash
    (start : Nat) (value : ByteString) (position : Nat)
    (tokens : List Token) :
    ¬ OpenQuote doubleQuote DoubleQuoted start value position
        [backslash] tokens := by
  rintro ⟨text, more, tailInput, equal, quoted, -⟩
  cases quoted with
  | nil => exact absurd (List.cons.inj equal).1 (by decide)
  | plain other notBackslash _ _ =>
      exact (notBackslash (List.cons.inj equal).1.symm).elim
  | pair other _ => simp at equal

/-! ## The operator tests choose the longest operator -/

theorem take_two {α : Type*} {first second : α} {rest : List α}
    (next : rest[0]? = some second) :
    (first :: rest).take 2 = [first, second] := by
  cases rest with
  | nil => simp at next
  | cons head tail => simpa using next

theorem take_three {α : Type*} {first second third : α} {rest : List α}
    (next : rest[0]? = some second) (afterNext : rest[1]? = some third) :
    (first :: rest).take 3 = [first, second, third] := by
  rcases rest with _ | ⟨head, _ | ⟨after, tail⟩⟩
  · simp at next
  · simp at afterNext
  · simp_all

theorem next_of_isPrefix_take {α : Type*} {second : α} {later rest : List α}
    (isPrefix : second :: later <+: rest) :
    rest[0]? = some second := by
  obtain ⟨tail, rfl⟩ := isPrefix
  rfl

theorem afterNext_of_isPrefix_take {α : Type*} {second third : α}
    {later rest : List α}
    (isPrefix : second :: third :: later <+: rest) :
    rest[1]? = some third := by
  obtain ⟨tail, rfl⟩ := isPrefix
  rfl

/-- Which operators can stand before given bytes, and how long they are. -/
theorem operator_cases
    {entry : TokenType × ByteString} (member : entry ∈ operators)
    {character : UInt8} {rest : ByteString}
    (isPrefix : entry.2 <+: character :: rest) :
    (character = ampersand ∧ entry.2.length ≤ 2 ∧
        (entry.2.length = 2 → rest[0]? = some ampersand)) ∨
      (character = verticalBar ∧ entry.2.length ≤ 2 ∧
        (entry.2.length = 2 → rest[0]? = some verticalBar)) ∨
      (character = semicolon ∧ entry.2.length = 1) ∨
      (character = lessThan ∧ entry.2.length = 1) ∨
      (character = greaterThan ∧ entry.2.length ≤ 2 ∧
        (entry.2.length = 2 → rest[0]? = some greaterThan)) ∨
      ((character = digitTwo ∨ character = digitOne) ∧
        rest[0]? = some greaterThan ∧ entry.2.length ≤ 3 ∧
        (entry.2.length = 3 → rest[1]? = some greaterThan)) := by
  simp only [operators, List.mem_cons, List.not_mem_nil, or_false]
    at member
  rcases member with rfl | rfl | rfl | rfl | rfl | rfl | rfl | rfl | rfl |
      rfl | rfl | rfl <;>
    obtain ⟨rfl, tailPrefix⟩ := List.cons_prefix_cons.mp isPrefix
  · simp [next_of_isPrefix_take tailPrefix]
  · simp
  · simp [next_of_isPrefix_take tailPrefix]
  · simp
  · simp
  · simp
  · simp [next_of_isPrefix_take tailPrefix]
  · simp
  · simp [next_of_isPrefix_take tailPrefix, afterNext_of_isPrefix_take tailPrefix]
  · simp [next_of_isPrefix_take tailPrefix]
  · simp [next_of_isPrefix_take tailPrefix, afterNext_of_isPrefix_take tailPrefix]
  · simp [next_of_isPrefix_take tailPrefix]

theorem operatorAt_mem
    {wordStarted : Bool} {character : UInt8} {rest : ByteString}
    {type : TokenType} {length : Nat}
    (found : operatorAt wordStarted character rest = some (type, length)) :
    (type, (character :: rest).take length) ∈ operators := by
  revert found
  fun_cases operatorAt wordStarted character rest with
  | case1 andIf =>
      rintro ⟨⟩
      rw [take_two andIf.2, andIf.1]
      decide
  | case2 _ background =>
      rintro ⟨⟩
      rw [List.take_succ_cons, List.take_zero, background]
      decide
  | case3 _ _ orIf =>
      rintro ⟨⟩
      rw [take_two orIf.2, orIf.1]
      decide
  | case4 _ _ _ pipe =>
      rintro ⟨⟩
      rw [List.take_succ_cons, List.take_zero, pipe]
      decide
  | case5 _ _ _ _ separator =>
      rintro ⟨⟩
      rw [List.take_succ_cons, List.take_zero, separator]
      decide
  | case6 _ _ _ _ _ less =>
      rintro ⟨⟩
      rw [List.take_succ_cons, List.take_zero, less]
      decide
  | case7 _ _ _ _ _ _ two append =>
      rintro ⟨⟩
      rw [take_three two.2.2 append, two.1]
      decide
  | case8 _ _ _ _ _ _ two _ =>
      rintro ⟨⟩
      rw [take_two two.2.2, two.1]
      decide
  | case9 _ _ _ _ _ _ _ one append =>
      rintro ⟨⟩
      rw [take_three one.2.2 append, one.1]
      decide
  | case10 _ _ _ _ _ _ _ one _ =>
      rintro ⟨⟩
      rw [take_two one.2.2, one.1]
      decide
  | case11 _ _ _ _ _ _ _ _ greater append =>
      rintro ⟨⟩
      rw [take_two append, greater]
      decide
  | case12 _ _ _ _ _ _ _ _ greater _ =>
      rintro ⟨⟩
      rw [List.take_succ_cons, List.take_zero, greater]
      decide
  | case13 => rintro ⟨⟩

/-- The operator tests never look past the end of the input. -/
theorem operatorAt_length
    {wordStarted : Bool} {character : UInt8} {rest : ByteString}
    {type : TokenType} {length : Nat}
    (found : operatorAt wordStarted character rest = some (type, length)) :
    0 < length ∧ length ≤ rest.length + 1 := by
  revert found
  fun_cases operatorAt wordStarted character rest
  all_goals
    intro found
    grind

theorem operatorAt_longest
    {character : UInt8} {rest : ByteString}
    {type : TokenType} {length : Nat}
    (found : operatorAt false character rest = some (type, length)) :
    LongestOperator type ((character :: rest).take length)
      (character :: rest) := by
  refine ⟨operatorAt_mem found, List.take_prefix _ _, ?_⟩
  intro entry member isPrefix
  have cases := operator_cases member isPrefix
  have fits : entry.2.length ≤ rest.length + 1 := isPrefix.length_le
  rw [List.length_take, List.length_cons]
  refine Nat.le_min.mpr ⟨?_, fits⟩
  revert found
  fun_cases operatorAt false character rest
  all_goals
    intro found
    grind [ampersand, verticalBar, semicolon, lessThan, greaterThan,
      digitOne, digitTwo]

theorem operatorAt_none
    {character : UInt8} {rest : ByteString}
    (missed : operatorAt false character rest = none) :
    ¬ StartsOperator (character :: rest) := by
  rintro ⟨entry, member, isPrefix⟩
  have cases := operator_cases member isPrefix
  revert missed
  fun_cases operatorAt false character rest
  all_goals grind

/-- Directly after a word only the operators without a digit are met. -/
theorem operatorAt_wordStarted
    {character : UInt8} {rest : ByteString}
    {type : TokenType} {length : Nat}
    (found : operatorAt true character rest = some (type, length)) :
    operatorAt false character rest = some (type, length) ∧
      character ∈
        [ampersand, verticalBar, semicolon, lessThan, greaterThan] := by
  revert found
  fun_cases operatorAt true character rest
  all_goals
    intro found
    grind [operatorAt, digitOne, digitTwo, greaterThan]

theorem operatorAt_none_not_mem
    {wordStarted : Bool} {character : UInt8} {rest : ByteString}
    (missed : operatorAt wordStarted character rest = none) :
    character ∉
      [ampersand, verticalBar, semicolon, lessThan, greaterThan] := by
  revert missed
  fun_cases operatorAt wordStarted character rest
  all_goals grind

theorem not_startsFragment_operator
    {character : UInt8}
    (operator :
      character ∈
        [ampersand, verticalBar, semicolon, lessThan, greaterThan])
    (rest : ByteString) :
    ¬ StartsFragment (character :: rest) := by
  have special :
      [ampersand, verticalBar, semicolon, lessThan, greaterThan].all
        (fun byte =>
          byte ∈ specialBytes ∧
            byte ∉ [backslash, singleQuote, doubleQuote]) = true := by
    decide
  rcases of_decide_eq_true (List.all_eq_true.mp special _ operator) with
    ⟨isSpecial, notQuoting⟩
  rintro ⟨text, value, tail, fragment, equal⟩
  cases fragment with
  | plain other _ notSpecial =>
      obtain ⟨rfl, -⟩ := List.cons.inj equal
      exact notSpecial isSpecial
  | escaped other =>
      obtain ⟨rfl, -⟩ := List.cons.inj equal
      simp at notQuoting
  | single body _ =>
      obtain ⟨rfl, -⟩ := List.cons.inj equal
      simp at notQuoting
  | double _ =>
      obtain ⟨rfl, -⟩ := List.cons.inj equal
      simp at notQuoting

/-! ## Loop states as questions -/

/-- What the loop keeps true of its local variables. -/
structure Valid (state : LexState) : Prop where
  oneQuote : state.inSingle = true → state.inDouble = false
  singleInWord : state.inSingle = true → state.wordStarted = true
  doubleInWord : state.inDouble = true → state.wordStarted = true
  closedEmpty : state.wordStarted = false → state.current = []

/-- The token lists that the rest of the input can still contribute. -/
def Remaining (state : LexState) (input : ByteString)
    (tokens : List Token) : Prop :=
  if state.inSingle then
    OpenQuote singleQuote SingleQuoted state.wordStart state.current
      state.index input tokens
  else if state.inDouble then
    OpenQuote doubleQuote DoubleQuoted state.wordStart state.current
      state.index input tokens
  else if state.wordStarted then
    OpenWord state.wordStart state.current state.index input tokens
  else
    SplitTokens state.index input tokens

/--
One iteration, from a state and the input before it to a state and the input
after it: the tokens it emits are exactly the ones every answer to the first
question begins with.
-/
structure Advances (state : LexState) (input : ByteString)
    (next : LexState) (rest : ByteString) : Prop where
  valid : Valid next
  index : next.index + rest.length = state.index + input.length
  emitted : ∃ added,
    next.tokens = state.tokens ++ added ∧
      ∀ tokens,
        Remaining state input tokens ↔
          ∃ tail, tokens = added ++ tail ∧ Remaining next rest tail

/-- An iteration that emits no token. -/
theorem Advances.silent
    {state next : LexState} {input rest : ByteString}
    (valid : Valid next)
    (index : next.index + rest.length = state.index + input.length)
    (tokens : next.tokens = state.tokens)
    (equivalent :
      ∀ tokens, Remaining state input tokens ↔ Remaining next rest tokens) :
    Advances state input next rest := by
  refine ⟨valid, index, [], by simp [tokens], ?_⟩
  intro answer
  rw [equivalent]
  simp

/-- The result the loop owes to the question of its state. -/
structure Settles (state : LexState) (input : ByteString)
    (result : LexResult) : Prop where
  sound : result.ok = true →
    ∃ tokens, Remaining state input tokens
  complete : ∀ tokens, Remaining state input tokens →
    result =
      ⟨state.tokens ++ tokens ++
        [⟨.endOfInput, [], state.index + input.length⟩], []⟩

theorem Settles.of_advances
    {state next : LexState} {input rest : ByteString} {result : LexResult}
    (step : Advances state input next rest)
    (settled : Settles next rest result) :
    Settles state input result := by
  obtain ⟨added, tokensEqual, equivalent⟩ := step.emitted
  constructor
  · intro succeeded
    obtain ⟨tail, remaining⟩ := settled.sound succeeded
    exact ⟨added ++ tail, (equivalent _).mpr ⟨tail, rfl, remaining⟩⟩
  · intro tokens remaining
    obtain ⟨tail, rfl, later⟩ := (equivalent tokens).mp remaining
    rw [settled.complete tail later, tokensEqual, step.index]
    simp

/-- An error settles a question that has no answer. -/
theorem Settles.of_error
    {state : LexState} {input : ByteString} {result : LexResult}
    (failed : result.ok = false)
    (unanswered : ∀ tokens, ¬ Remaining state input tokens) :
    Settles state input result := by
  constructor
  · intro succeeded
    rw [failed] at succeeded
    exact Bool.noConfusion succeeded
  · intro tokens remaining
    exact (unanswered tokens remaining).elim

/-- The code after the loop settles the question of the empty input. -/
theorem settles_lexFinish (state : LexState) :
    Settles state [] (lexFinish state) := by
  cases inSingle : state.inSingle with
  | true =>
      refine .of_error ?_ ?_
      · simp only [lexFinish, inSingle, if_true, LexResult.ok]
        decide
      · intro tokens
        simp only [Remaining, inSingle, if_true]
        exact not_openQuote_nil _ _ _ _ _ _
  | false =>
      cases inDouble : state.inDouble with
      | true =>
          refine .of_error ?_ ?_
          · simp only [lexFinish, inSingle, inDouble, if_true,
              Bool.false_eq_true, if_false, LexResult.ok]
            decide
          · intro tokens
            simp only [Remaining, inSingle, inDouble, if_true,
              Bool.false_eq_true, if_false]
            exact not_openQuote_nil _ _ _ _ _ _
      | false =>
          cases started : state.wordStarted with
          | true =>
              have answers :
                  ∀ tokens,
                    Remaining state [] tokens ↔
                      tokens =
                        [⟨.word, state.current, state.wordStart⟩] := by
                intro tokens
                simp only [Remaining, inSingle, inDouble, started, if_true,
                  Bool.false_eq_true, if_false]
                rw [openWord_close not_startsFragment_nil]
                simp [splitTokens_nil]
              constructor
              · intro _
                exact ⟨_, (answers _).mpr rfl⟩
              · intro tokens remaining
                rw [(answers tokens).mp remaining]
                simp [lexFinish, inSingle, inDouble, started, flushWord]
          | false =>
              have answers :
                  ∀ tokens, Remaining state [] tokens ↔ tokens = [] := by
                intro tokens
                simp only [Remaining, inSingle, inDouble, started,
                  Bool.false_eq_true, if_false]
                exact splitTokens_nil _ _
              constructor
              · intro _
                exact ⟨_, (answers _).mpr rfl⟩
              · intro tokens remaining
                rw [(answers tokens).mp remaining]
                simp [lexFinish, inSingle, inDouble, started, flushWord]

/-! ## The iterations -/

section Iterations

variable {state : LexState} (valid : Valid state)

include valid

/-- Starting a word if needed turns an open position into an open word. -/
theorem remaining_beginWord
    {character : UInt8} {rest : ByteString}
    (noSingle : state.inSingle = false)
    (noDouble : state.inDouble = false)
    (notSpace : isSpace character = false)
    (noOperator : state.wordStarted = false →
      ¬ StartsOperator (character :: rest))
    (tokens : List Token) :
    Remaining state (character :: rest) tokens ↔
      OpenWord (beginWordIfNeeded state).wordStart state.current
        state.index (character :: rest) tokens := by
  cases started : state.wordStarted with
  | true => simp [Remaining, beginWordIfNeeded, noSingle, noDouble, started]
  | false =>
      simp only [Remaining, beginWordIfNeeded, noSingle, noDouble, started,
        Bool.false_eq_true, if_false]
      rw [splitTokens_iff_openWord notSpace (noOperator started),
        valid.closedEmpty started]

theorem advances_escapedInSingle
    (inSingle : state.inSingle = true) (rest : ByteString) :
    Advances state (backslash :: rest)
      (skip (appendText (beginWordIfNeeded state) [backslash]) 1) rest := by
  have started := valid.singleInWord inSingle
  have begun : beginWordIfNeeded state = state := by
    simp [beginWordIfNeeded, started]
  rw [begun]
  refine .silent ?_ ?_ rfl ?_
  · exact
      ⟨valid.oneQuote, valid.singleInWord, valid.doubleInWord, by
        simp [skip, appendText, started]⟩
  · simp [skip, appendText]
    omega
  · intro tokens
    simp only [Remaining, skip, appendText, inSingle, if_true]
    exact openSingle_plain (by decide) _ _ _ _ _

theorem advances_escape
    (noSingle : state.inSingle = false)
    (next : UInt8) (rest : ByteString) :
    Advances state (backslash :: next :: rest)
      (skip
        (appendText (beginWordIfNeeded state)
          (if state.inDouble then escapedInDouble next else [next])) 2)
      rest := by
  refine .silent ?_ ?_ ?_ ?_
  · constructor <;> simp [skip, appendText, noSingle]
  · simp [skip, appendText]
    omega
  · simp [skip, appendText]
  · intro tokens
    cases inDouble : state.inDouble with
    | true =>
        have started := valid.doubleInWord inDouble
        have sameValue : escapedInDouble next = pairValue next := by
          simp [escapedInDouble, pairValue]
        simp only [Remaining, skip, appendText, beginWordIfNeeded, noSingle,
          inDouble, started, if_true, Bool.false_eq_true, if_false]
        rw [sameValue]
        exact openDouble_pair next _ _ _ _ _
    | false =>
        rw [remaining_beginWord valid noSingle inDouble (by decide)
          (fun _ => not_startsOperator_quoting (by decide) _)]
        rw [openWord_escape]
        simp [Remaining, skip, appendText, noSingle, inDouble]

theorem not_remaining_trailingEscape
    (noSingle : state.inSingle = false) (tokens : List Token) :
    ¬ Remaining state [backslash] tokens := by
  cases inDouble : state.inDouble with
  | true =>
      simp only [Remaining, noSingle, inDouble, if_true,
        Bool.false_eq_true, if_false]
      exact not_openDouble_backslash _ _ _ _
  | false =>
      rw [remaining_beginWord valid noSingle inDouble (by decide)
        (fun _ => not_startsOperator_quoting (by decide) _)]
      exact not_openWord_backslash _ _ _ _

theorem advances_singleQuote
    (noDouble : state.inDouble = false) (rest : ByteString) :
    Advances state (singleQuote :: rest)
      (skip
        { beginWordIfNeeded state with inSingle := !state.inSingle } 1)
      rest := by
  refine .silent ?_ ?_ ?_ ?_
  · constructor <;> simp [skip, noDouble]
  · simp [skip]
    omega
  · simp [skip]
  · intro tokens
    cases inSingle : state.inSingle with
    | true =>
        have started := valid.singleInWord inSingle
        simp only [Remaining, skip, beginWordIfNeeded, inSingle, noDouble,
          started, if_true, Bool.not_true, Bool.false_eq_true, if_false]
        exact openSingle_quote _ _ _ _ _
    | false =>
        rw [remaining_beginWord valid inSingle noDouble (by decide)
          (fun _ => not_startsOperator_quoting (by decide) _)]
        rw [openWord_quote singleQuote_quotes]
        simp [Remaining, skip]

theorem advances_doubleQuote
    (noSingle : state.inSingle = false) (rest : ByteString) :
    Advances state (doubleQuote :: rest)
      (skip
        { beginWordIfNeeded state with inDouble := !state.inDouble } 1)
      rest := by
  refine .silent ?_ ?_ ?_ ?_
  · constructor <;> simp [skip, noSingle]
  · simp [skip]
    omega
  · simp [skip]
  · intro tokens
    cases inDouble : state.inDouble with
    | true =>
        have started := valid.doubleInWord inDouble
        simp only [Remaining, skip, beginWordIfNeeded, inDouble, noSingle,
          started, if_true, Bool.not_true, Bool.false_eq_true, if_false]
        exact openDouble_quote _ _ _ _ _
    | false =>
        rw [remaining_beginWord valid noSingle inDouble (by decide)
          (fun _ => not_startsOperator_quoting (by decide) _)]
        rw [openWord_quote doubleQuote_quotes]
        simp [Remaining, skip, noSingle]

theorem advances_quoted
    {character : UInt8}
    (notBackslash : character ≠ backslash)
    (notSingle :
      ¬ (character = singleQuote ∧ state.inDouble = false))
    (notDouble :
      ¬ (character = doubleQuote ∧ state.inSingle = false))
    (quoted : (state.inSingle || state.inDouble) = true)
    (rest : ByteString) :
    Advances state (character :: rest)
      (skip (appendText state [character]) 1) rest := by
  have started : state.wordStarted = true := by
    rcases Bool.or_eq_true_iff.mp quoted with inSingle | inDouble
    · exact valid.singleInWord inSingle
    · exact valid.doubleInWord inDouble
  refine .silent ?_ ?_ rfl ?_
  · exact
      ⟨valid.oneQuote, valid.singleInWord, valid.doubleInWord, by
        simp [skip, appendText, started]⟩
  · simp [skip, appendText]
    omega
  · intro tokens
    cases inSingle : state.inSingle with
    | true =>
        have noDouble := valid.oneQuote inSingle
        simp only [Remaining, skip, appendText, inSingle, if_true]
        exact openSingle_plain
          (fun equal => notSingle ⟨equal, noDouble⟩) _ _ _ _ _
    | false =>
        have inDouble : state.inDouble = true := by
          simpa [inSingle] using quoted
        simp only [Remaining, skip, appendText, inSingle, inDouble, if_true,
          Bool.false_eq_true, if_false]
        exact openDouble_plain notBackslash
          (fun equal => notDouble ⟨equal, inSingle⟩) _ _ _ _ _

theorem advances_space
    {character : UInt8} (isBlank : isSpace character = true)
    (noSingle : state.inSingle = false)
    (noDouble : state.inDouble = false)
    (rest : ByteString) :
    Advances state (character :: rest) (skip (flushWord state) 1) rest := by
  cases started : state.wordStarted with
  | true =>
      refine
        ⟨?_, ?_, [⟨.word, state.current, state.wordStart⟩],
          by simp [skip, flushWord, started], ?_⟩
      · constructor <;> simp [skip, noSingle, noDouble, flushWord, started]
      · simp [skip]
        omega
      · intro tokens
        simp only [Remaining, noSingle, noDouble, started, skip, flushWord,
          if_true, Bool.false_eq_true, if_false]
        rw [openWord_close (not_startsFragment_space isBlank rest)]
        simp only [splitTokens_space isBlank, List.singleton_append]
  | false =>
      have flushed : flushWord state = state := by
        simp [flushWord, started]
      rw [flushed]
      refine .silent ?_ ?_ rfl ?_
      · exact ⟨valid.oneQuote, valid.singleInWord, valid.doubleInWord,
          valid.closedEmpty⟩
      · simp [skip]
        omega
      · intro tokens
        simp only [Remaining, skip, noSingle, noDouble, started,
          Bool.false_eq_true, if_false]
        exact splitTokens_space isBlank _ _ _

theorem advances_operator
    {character : UInt8} {rest : ByteString}
    {type : TokenType} {length : Nat}
    (noSingle : state.inSingle = false)
    (noDouble : state.inDouble = false)
    (found :
      operatorAt state.wordStarted character rest = some (type, length)) :
    Advances state (character :: rest)
      (emitOperator state type length (character :: rest))
      (rest.drop (length - 1)) := by
  obtain ⟨positive, fits⟩ := operatorAt_length found
  have dropEqual :
      rest.drop (length - 1) = (character :: rest).drop length := by
    rw [← List.drop_succ_cons, Nat.sub_add_cancel positive]
  have takeLength : ((character :: rest).take length).length = length := by
    rw [List.length_take, List.length_cons, Nat.min_eq_left fits]
  have indexEqual :
      state.index + length + (rest.drop (length - 1)).length =
        state.index + (character :: rest).length := by
    simp
    omega
  have split :
      ∀ {tokens},
        operatorAt false character rest = some (type, length) →
          (SplitTokens state.index (character :: rest) tokens ↔
            ∃ tail,
              tokens =
                  ⟨type, (character :: rest).take length, state.index⟩ ::
                    tail ∧
                SplitTokens (state.index + length)
                  (rest.drop (length - 1)) tail) := by
    intro tokens fresh
    have longest := operatorAt_longest fresh
    rw [← List.take_append_drop length (character :: rest)] at longest
    rw [List.take_left' takeLength] at longest
    have opened := splitTokens_operator longest state.index tokens
    rw [List.take_append_drop, takeLength, ← dropEqual] at opened
    exact opened
  cases started : state.wordStarted with
  | true =>
      rw [started] at found
      obtain ⟨fresh, operator⟩ := operatorAt_wordStarted found
      refine
        ⟨?_, by simpa [emitOperator, skip] using indexEqual,
          [⟨.word, state.current, state.wordStart⟩,
            ⟨type, (character :: rest).take length, state.index⟩],
          by simp [emitOperator, skip, flushWord, started], ?_⟩
      · constructor <;>
          simp [emitOperator, skip, noSingle, noDouble, flushWord, started]
      · intro tokens
        simp only [Remaining, noSingle, noDouble, started, emitOperator,
          skip, flushWord, if_true, Bool.false_eq_true, if_false]
        rw [openWord_close (not_startsFragment_operator operator rest)]
        constructor
        · rintro ⟨tail, rfl, later⟩
          obtain ⟨others, rfl, last⟩ := (split fresh).mp later
          exact ⟨others, rfl, last⟩
        · rintro ⟨others, rfl, last⟩
          exact ⟨_, rfl, (split fresh).mpr ⟨others, rfl, last⟩⟩
  | false =>
      rw [started] at found
      refine
        ⟨?_, by simpa [emitOperator, skip] using indexEqual,
          [⟨type, (character :: rest).take length, state.index⟩],
          by simp [emitOperator, skip, flushWord, started], ?_⟩
      · constructor <;>
          simp [emitOperator, skip, noSingle, noDouble, flushWord, started,
            valid.closedEmpty started]
      · intro tokens
        simp only [Remaining, noSingle, noDouble, started, emitOperator,
          skip, flushWord, Bool.false_eq_true, if_false,
          List.singleton_append]
        exact split found

theorem advances_plain
    {character : UInt8} {rest : ByteString}
    (notBackslash : character ≠ backslash)
    (notSingle :
      ¬ (character = singleQuote ∧ state.inDouble = false))
    (notDouble :
      ¬ (character = doubleQuote ∧ state.inSingle = false))
    (notSpace : isSpace character = false)
    (noSingle : state.inSingle = false)
    (noDouble : state.inDouble = false)
    (missed : operatorAt state.wordStarted character rest = none) :
    Advances state (character :: rest)
      (skip (appendText (beginWordIfNeeded state) [character]) 1)
      rest := by
  have notSpecial : character ∉ specialBytes := by
    have notOperator := operatorAt_none_not_mem missed
    simp only [noSingle, noDouble, and_true] at notSingle notDouble
    simp only [specialBytes, List.mem_cons, not_or] at notOperator ⊢
    exact ⟨notBackslash, notSingle, notDouble, notOperator⟩
  refine .silent ?_ ?_ ?_ ?_
  · constructor <;> simp [skip, appendText, noSingle, noDouble]
  · simp [skip, appendText]
    omega
  · simp [skip, appendText]
  · intro tokens
    rw [remaining_beginWord valid noSingle noDouble notSpace
      (fun started => operatorAt_none (started ▸ missed))]
    have taken :=
      openWord_fragment (.plain character notSpace notSpecial)
        (beginWordIfNeeded state).wordStart state.current state.index
        rest tokens
    simpa [Remaining, skip, appendText, noSingle, noDouble] using taken

/-- The loop settles the question of any state it can be in. -/
theorem settles_lexLoop (input : ByteString) :
    Settles state input (lexLoop state input) := by
  fun_induction lexLoop state input with
  | case1 state => exact settles_lexFinish state
  | case2 state rest begun inSingle induction =>
      have step := advances_escapedInSingle valid inSingle rest
      exact .of_advances step (induction step.valid)
  | case3 state noSingle =>
      refine .of_error (by simp only [LexResult.ok]; decide) ?_
      intro tokens
      exact not_remaining_trailingEscape valid
        (by simpa using noSingle) tokens
  | case4 state begun noSingle next rest value induction =>
      have step :=
        advances_escape valid (by simpa using noSingle) next rest
      exact .of_advances step (induction step.valid)
  | case5 state character rest notBackslash quote begun induction =>
      obtain ⟨rfl, noDouble⟩ := quote
      have step := advances_singleQuote valid noDouble rest
      exact .of_advances step (induction step.valid)
  | case6 state character rest notBackslash notSingle quote begun
      induction =>
      obtain ⟨rfl, noSingle⟩ := quote
      have step := advances_doubleQuote valid noSingle rest
      exact .of_advances step (induction step.valid)
  | case7 state character rest notBackslash notSingle notDouble quoted
      induction =>
      have step :=
        advances_quoted valid notBackslash notSingle notDouble quoted rest
      exact .of_advances step (induction step.valid)
  | case8 state character rest notBackslash notSingle notDouble unquoted
      isBlank induction =>
      obtain ⟨noSingle, noDouble⟩ :
          state.inSingle = false ∧ state.inDouble = false := by
        simpa using unquoted
      have step := advances_space valid isBlank noSingle noDouble rest
      exact .of_advances step (induction step.valid)
  | case9 state character rest notBackslash notSingle notDouble unquoted
      notSpace type length found induction =>
      obtain ⟨noSingle, noDouble⟩ :
          state.inSingle = false ∧ state.inDouble = false := by
        simpa using unquoted
      have step := advances_operator valid noSingle noDouble found
      exact .of_advances step (induction step.valid)
  | case10 state character rest notBackslash notSingle notDouble unquoted
      notSpace missed induction =>
      obtain ⟨noSingle, noDouble⟩ :
          state.inSingle = false ∧ state.inDouble = false := by
        simpa using unquoted
      have step :=
        advances_plain valid notBackslash notSingle notDouble
          (by simpa using notSpace) noSingle noDouble missed
      exact .of_advances step (induction step.valid)

end Iterations

/-! ## The lexer -/

theorem settles_lex (input : ByteString) : Settles {} input (lex input) := by
  have initial : Valid {} := by
    constructor <;> simp
  exact settles_lexLoop initial input

/-- A split determines the result of the lexer. -/
theorem lex_of_split
    {input : ByteString} {lexemes : List Lexeme}
    (split : LexicalSplit input lexemes) :
    lex input =
      ⟨lexemeTokens 0 lexemes ++ [⟨.endOfInput, [], input.length⟩],
        []⟩ := by
  have remaining : Remaining {} input (lexemeTokens 0 lexemes) := by
    simp only [Remaining, Bool.false_eq_true, if_false]
    exact ⟨lexemes, split, rfl⟩
  simpa using (settles_lex input).complete _ remaining

/-- A successful result comes from a split. -/
theorem split_of_lex
    {input : ByteString} (succeeded : (lex input).ok = true) :
    ∃ lexemes, LexicalSplit input lexemes := by
  obtain ⟨tokens, remaining⟩ := (settles_lex input).sound succeeded
  simp only [Remaining, Bool.false_eq_true, if_false] at remaining
  obtain ⟨lexemes, split, -⟩ := remaining
  exact ⟨lexemes, split⟩

/--
`lex` succeeds exactly on the inputs that split under the lexical rules.  The
split is unique, and the result is its token list followed by one end token
at the length of the input.
-/
theorem lex_implements_lexicalGrammar (input : ByteString) :
    ((lex input).ok = true ↔ ∃ lexemes, LexicalSplit input lexemes) ∧
      (∀ lexemes lexemes', LexicalSplit input lexemes →
        LexicalSplit input lexemes' → lexemes = lexemes') ∧
      ∀ lexemes, LexicalSplit input lexemes →
        (lex input).tokens =
          lexemeTokens 0 lexemes ++ [⟨.endOfInput, [], input.length⟩] := by
  refine ⟨⟨split_of_lex, ?_⟩, ?_, ?_⟩
  · rintro ⟨lexemes, split⟩
    rw [lex_of_split split]
    rfl
  · intro lexemes lexemes' left right
    exact left.unique right
  · intro lexemes split
    rw [lex_of_split split]

end Shell.LexerCorrectness
