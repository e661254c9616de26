import Shell.Executor.Display
import Shell.Parsing.Symbols

/-!
# The text of a job as a command line

`format_pipeline` writes a pipeline in the notation of the command language.
It puts a word into quotes if the word is empty or has white space or an
operator byte in it, and leaves every other word as it is.  A word with a
quote or a backslash and none of those bytes is therefore read back as another
word, or not at all, and the text is not parsed to the pipeline it was made
from.  Without such words it is.
-/

namespace Shell.JobText

open Shell.Syntax
open Shell.MaximalMunch
open Shell.Lexer
open Shell.LexicalGrammar
open Shell.LexerCorrectness
open Shell.CommandParser
open Shell.CommandGrammar
open Shell.ParserCorrectness
open Shell.PlanPrinter
open Shell.Composition
open Shell.Symbols
open Shell.Display

/-! ## Words -/

/-- The bytes that the lexer reads as quoting. -/
def quotingBytes : List UInt8 :=
  [singleQuote, doubleQuote, backslash]

/-- A word that goes into quotes, or one without quoting bytes. -/
def Legible (word : ByteString) : Prop :=
  word = [] ∨ word.any needsQuotes = true ∨
    ∀ character ∈ word, character ∉ quotingBytes

instance (word : ByteString) : Decidable (Legible word) :=
  inferInstanceAs (Decidable (_ ∨ _ ∨ _))

/-- A byte that is neither quoting nor a reason to quote. -/
def Plain (character : UInt8) : Prop :=
  needsQuotes character = false ∧ character ∉ quotingBytes

theorem Plain.fragment
    {character : UInt8} (plain : Plain character) :
    Fragment [character] [character] := by
  rcases plain with ⟨noReason, notQuoting⟩
  simp only [needsQuotes, Bool.or_eq_false_iff, decide_eq_false_iff_not]
    at noReason
  apply Fragment.plain
  · tauto
  · simp only [quotingBytes, List.mem_cons, List.not_mem_nil] at notQuoting
    simp only [specialBytes, List.mem_cons, List.not_mem_nil]
    tauto

theorem fragments_plain
    {word : ByteString} (plain : ∀ character ∈ word, Plain character) :
    Fragments word word := by
  induction word with
  | nil => exact .nil
  | cons character word induction =>
      exact .cons (plain character List.mem_cons_self).fragment
        (induction fun later member =>
          plain later (List.mem_cons_of_mem _ member))

/-- Every operator has a byte for which a word is put into quotes. -/
theorem not_startsOperator_plain
    {word rest : ByteString}
    (noReason : ∀ character ∈ word, needsQuotes character = false)
    (boundary : Boundary rest) :
    ¬ StartsOperator (word ++ rest) := by
  have table :
      operators.all
        (fun entry =>
          entry.2.any needsQuotes &&
            entry.2.all (fun byte => !isSpace byte)) = true := by
    decide
  rintro ⟨entry, member, isPrefix⟩
  have row := List.all_eq_true.mp table entry member
  rw [Bool.and_eq_true, List.any_eq_true, List.all_eq_true] at row
  rcases row with ⟨⟨byte, byteMember, isReason⟩, noSpace⟩
  by_cases fits : entry.2.length ≤ word.length
  · have inside : entry.2 <+: word :=
      List.prefix_of_prefix_length_le isPrefix (List.prefix_append _ _)
        fits
    rw [noReason byte (inside.subset byteMember)] at isReason
    exact Bool.noConfusion isReason
  · rcases List.prefix_of_prefix_length_le (List.prefix_append word rest)
      isPrefix (Nat.le_of_not_le fits) with ⟨more, split⟩
    rw [← split, List.prefix_append_right_inj] at isPrefix
    cases more with
    | nil => simp [← split] at fits
    | cons next more =>
        rcases isPrefix with ⟨tail, rfl⟩
        have notSpace := noSpace next (by simp [← split])
        rw [boundary next rfl] at notSpace
        exact Bool.noConfusion notSpace

theorem printWord_reads (word : ByteString) :
    Fragments (printWord word) word ∧
      ∀ rest, ¬ StartsOperator (printWord word ++ rest) := by
  refine ⟨fragments_quoted [] word List.not_mem_nil, fun rest started => ?_⟩
  exact absurd started.head_mem (by decide)

/-- What is written for a legible word is read as that word. -/
theorem quoteForDisplay_reads
    {word : ByteString} (legible : Legible word) :
    Fragments (quoteForDisplay word) word ∧
      ∀ rest, Boundary rest →
        ¬ StartsOperator (quoteForDisplay word ++ rest) := by
  rw [quoteForDisplay]
  split
  · rename_i isEmpty
    rw [isEmpty]
    exact ⟨(printWord_reads []).1, fun rest _ => (printWord_reads []).2 rest⟩
  · rename_i nonempty
    split
    · exact ⟨(printWord_reads word).1,
        fun rest _ => (printWord_reads word).2 rest⟩
    · rename_i noReason
      have unquoted : ∀ character ∈ word, needsQuotes character = false := by
        simpa using noReason
      refine ⟨fragments_plain fun character member =>
        ⟨unquoted character member, ?_⟩,
        fun rest => not_startsOperator_plain unquoted⟩
      rcases legible with isEmpty | isReason | noQuoting
      · exact absurd isEmpty nonempty
      · exact absurd isReason noReason
      · exact noQuoting character member

theorem quoteForDisplay_ne_nil (word : ByteString) :
    quoteForDisplay word ≠ [] := by
  rw [quoteForDisplay]
  split
  · simp
  · rename_i nonempty
    split
    · simp
    · exact nonempty

theorem spells_quoteForDisplay
    {word : ByteString} (legible : Legible word) :
    Spells (quoteForDisplay word) (IsWord word) := by
  rcases quoteForDisplay_reads legible with ⟨fragments, noOperator⟩
  refine ⟨[.word (quoteForDisplay word) word], ?_, ?_⟩
  · intro rest tail boundary tailSplit
    exact .word fragments (quoteForDisplay_ne_nil word)
      (boundary_not_startsFragment boundary) (noOperator rest boundary)
      tailSplit
  · intro position
    exact ⟨_, rfl, rfl, rfl⟩

/-! ## Commands and pipelines -/

theorem intercalate_blank (first : ByteString) (rest : List ByteString) :
    [blank].intercalate (first :: rest) =
      first ++ rest.flatMap (fun text => blank :: text) := by
  induction rest generalizing first with
  | nil => simp
  | cons next rest induction =>
      rw [List.intercalate_cons_cons, induction, List.flatMap_cons]
      simp

/-- The loop over the arguments, when something has been written already. -/
theorem foldl_arguments
    {text : ByteString} (nonempty : text ≠ []) (args : List ByteString) :
    args.foldl
        (fun text arg =>
          (if text = [] then text else text ++ [blank]) ++
            quoteForDisplay arg)
        text =
      text ++ (args.map quoteForDisplay).flatMap
        (fun text => blank :: text) := by
  induction args generalizing text with
  | nil => simp
  | cons arg args induction =>
      rw [List.foldl_cons, if_neg nonempty, induction (by simp)]
      simp

/-- A redirection is written as an item behind a blank. -/
theorem formatRedirect_eq
    {operator : ByteString} {redirection : Redirection}
    (written : operator = blank :: (printRedirection redirection ++ [blank]))
    (present : Bool) (path : ByteString) :
    formatRedirect present operator path =
      ((if present then [Item.redirect redirection path] else []).map
        (itemText quoteForDisplay)).flatMap (fun text => blank :: text) := by
  cases present with
  | false => rfl
  | true => simp [formatRedirect, itemText, written]

/-- `format_command` writes the canonical items with a blank between them. -/
theorem formatCommand_eq
    {command : Command} (named : command.args ≠ []) :
    formatCommand command =
      [blank].intercalate
        ((canonicalItems command).map (itemText quoteForDisplay)) := by
  have input : literal " < " =
      blank :: (printRedirection .input ++ [blank]) := by
    decide
  have output :
      literal (if command.appendOutput then " >> " else " > ") =
        blank ::
          (printRedirection (.output command.appendOutput) ++ [blank]) := by
    cases command.appendOutput <;> decide
  have error :
      literal (if command.appendError then " 2>> " else " 2> ") =
        blank ::
          (printRedirection (.error command.appendError) ++ [blank]) := by
    cases command.appendError <;> decide
  simp only [formatCommand, canonicalItems, formatRedirect_eq input,
    formatRedirect_eq output, formatRedirect_eq error]
  cases split : command.args with
  | nil => exact absurd split named
  | cons first args =>
      have mapWords :
          (args.map Item.word).map (itemText quoteForDisplay) =
            args.map quoteForDisplay := by
        rw [List.map_map]
        rfl
      rw [List.foldl_cons, if_pos rfl, List.nil_append,
        foldl_arguments (quoteForDisplay_ne_nil first), List.map_cons,
        List.cons_append, List.map_cons, intercalate_blank]
      simp only [List.map_append, List.flatMap_append, mapWords,
        List.append_assoc]
      rfl

/-- The words of a command: its arguments and the names of its files. -/
def commandWords (command : Command) : List ByteString :=
  (canonicalItems command).map Item.wordOf

/--
The text of a pipeline whose words are legible is parsed to that pipeline.
-/
theorem parseLine_formatPipeline
    {commands : List Command}
    (wellFormed : WellFormedPipeline ⟨commands, false⟩)
    (legible :
      ∀ command ∈ commands, ∀ word ∈ commandWords command,
        Legible word) :
    parseLine (formatPipeline ⟨commands, false⟩) =
      some ⟨⟨[⟨.always, ⟨commands, false⟩⟩]⟩, []⟩ := by
  have spellsCommand :
      ∀ command ∈ commands, ∀ named,
        Spells (formatCommand command)
          (fun tokens =>
            DerivesCommand tokens (canonicalTree command named)) := by
    intro command member named
    rw [formatCommand_eq named]
    apply spells_command
    intro item isItem
    exact spells_quoteForDisplay
      (legible command member _ (List.mem_map_of_mem isItem))
  rcases spells_pipeline commands wellFormed.nonempty wellFormed.commands
      spellsCommand with
    ⟨tree, denoted, spells⟩
  have line :
      Spells (formatPipeline ⟨commands, false⟩)
        (fun tokens =>
          ∀ final : Token, final.type = .endOfInput →
            DerivesLine (tokens ++ [final]) (some (.last tree))) :=
    spells.mono fun derivation final isEnd =>
      .sequence (.last derivation) isEnd
  rw [parseLine_of_spells line, denoteLine, SequenceTree.denote, denoted]

/-! ## Words that are not legible -/

theorem DoubleQuoted.length_le
    {body value : ByteString} (quoted : DoubleQuoted body value) :
    value.length ≤ body.length := by
  induction quoted with
  | nil => exact Nat.le_refl _
  | plain _ _ _ _ induction => exact Nat.succ_le_succ induction
  | pair character _ induction =>
      have pairLength : (pairValue character).length ≤ 2 := by
        rw [pairValue]
        split <;> simp
      simp only [List.length_append, List.length_cons]
      omega

/-- A fragment with a quoting byte is longer than its value. -/
theorem Fragment.length_le
    {text value : ByteString} (fragment : Fragment text value) :
    value.length ≤ text.length ∧
      (value.length = text.length →
        ∀ character ∈ text, character ∉ quotingBytes) := by
  cases fragment with
  | plain character _ notSpecial =>
      refine ⟨Nat.le_refl _, fun _ byte isByte => ?_⟩
      rw [List.mem_singleton.mp isByte]
      simp [specialBytes] at notSpecial
      simp [quotingBytes, notSpecial]
  | escaped character => simp
  | single body _ =>
      simp only [List.length_cons, List.length_append, List.length_nil]
      constructor
      · omega
      · intro same
        omega
  | double quoted =>
      have shorter := DoubleQuoted.length_le quoted
      simp only [List.length_cons, List.length_append, List.length_nil]
      constructor
      · omega
      · intro same
        omega

theorem fragments_length_le
    {text value : ByteString} (fragments : Fragments text value) :
    value.length ≤ text.length ∧
      (value.length = text.length →
        ∀ character ∈ text, character ∉ quotingBytes) := by
  induction fragments with
  | nil => simp
  | cons first _ induction =>
      have firstLength := Fragment.length_le first
      simp only [List.length_append]
      constructor
      · omega
      · intro same character member
        rcases List.mem_append.mp member with inFirst | inLater
        · exact firstLength.2 (by omega) character inFirst
        · exact induction.2 (by omega) character inLater

theorem doubleQuoted_mem
    {body value : ByteString} (quoted : DoubleQuoted body value)
    {character : UInt8} (notQuoting : character ∉ quotingBytes)
    (member : character ∈ body) : character ∈ value := by
  induction quoted with
  | nil => cases member
  | plain other _ _ _ induction =>
      rcases List.mem_cons.mp member with rfl | later
      · exact List.mem_cons_self
      · exact List.mem_cons_of_mem _ (induction later)
  | pair other _ induction =>
      have inPair : other ∈ pairValue other := by
        rw [pairValue]
        split <;> simp
      rcases List.mem_cons.mp member with rfl | behind
      · exact absurd (by decide) notQuoting
      · rcases List.mem_cons.mp behind with rfl | later
        · exact List.mem_append_left _ inPair
        · exact List.mem_append_right _ (induction later)

/-- Only quoting bytes get lost in a word. -/
theorem fragments_mem
    {text value : ByteString} (fragments : Fragments text value)
    {character : UInt8} (notQuoting : character ∉ quotingBytes)
    (member : character ∈ text) : character ∈ value := by
  have noSingle : character ≠ singleQuote := by
    rintro rfl
    exact notQuoting (by decide)
  have noDouble : character ≠ doubleQuote := by
    rintro rfl
    exact notQuoting (by decide)
  have noBackslash : character ≠ backslash := by
    rintro rfl
    exact notQuoting (by decide)
  induction fragments with
  | nil => cases member
  | cons first _ induction =>
      rcases List.mem_append.mp member with inFirst | inLater
      · apply List.mem_append_left
        cases first with
        | plain => exact inFirst
        | escaped other => simpa [noBackslash] using inFirst
        | single body _ => simpa [noSingle] using inFirst
        | double quoted =>
            apply doubleQuoted_mem quoted notQuoting
            simpa [noDouble] using inFirst
      · exact List.mem_append_right _ (induction inLater)

theorem illegible_unquoted
    {word : ByteString} (illegible : ¬ Legible word) :
    quoteForDisplay word = word := by
  simp only [Legible, not_or] at illegible
  rw [quoteForDisplay, if_neg illegible.1, if_neg illegible.2.1]

theorem not_mem_quotingBytes_of_isSpace
    {character : UInt8} (isBlank : isSpace character = true) :
    character ∉ quotingBytes := by
  intro isQuoting
  simp only [quotingBytes, List.mem_cons, List.not_mem_nil,
    or_false] at isQuoting
  rcases isQuoting with rfl | rfl | rfl <;>
    exact absurd isBlank (by decide)

/-- A word that is not legible is written as it is and read as another one. -/
theorem illegible_misread
    {word rest : ByteString} {lexemes : List Lexeme}
    (illegible : ¬ Legible word) (boundary : Boundary rest)
    (split : LexicalSplit (quoteForDisplay word ++ rest) lexemes) :
    ∃ text value later,
      lexemes = .word text value :: later ∧ value ≠ word := by
  rw [illegible_unquoted illegible] at split
  simp only [Legible, not_or, Bool.not_eq_true, List.any_eq_false]
    at illegible
  rcases illegible with ⟨nonempty, noReason, someQuoting⟩
  have noOperator := not_startsOperator_plain noReason boundary
  generalize equal : word ++ rest = input at split noOperator
  cases split with
  | nil => exact absurd (List.append_eq_nil_iff.mp equal).1 nonempty
  | space character isBlank _ =>
      rcases word with _ | ⟨head, word⟩
      · exact absurd rfl nonempty
      · have notSpace := noReason head List.mem_cons_self
        rw [(List.cons.inj equal).1] at notSpace
        simp [needsQuotes, isBlank] at notSpace
  | operator longest _ => exact absurd longest.startsOperator noOperator
  | @word text value tail _ fragments _ _ _ _ =>
      refine ⟨text, value, _, rfl, ?_⟩
      rintro rfl
      -- The text of the word is at least as long as its value, and what it
      -- takes from behind a boundary stays in the value.
      rcases List.append_eq_append_iff.mp equal with
        ⟨more, rfl, isRest⟩ | ⟨more, rfl, -⟩
      · rcases more with _ | ⟨character, more⟩
        · rw [List.append_nil] at fragments
          exact someQuoting ((fragments_length_le fragments).2 rfl)
        · have isBlank : isSpace character = true :=
            boundary character (by rw [isRest]; rfl)
          have inValue :=
            fragments_mem fragments (not_mem_quotingBytes_of_isSpace isBlank)
              (List.mem_append_right _ List.mem_cons_self)
          have notSpace := noReason character inValue
          simp [needsQuotes, isBlank] at notSpace
      · have shorter := (fragments_length_le fragments).1
        rw [List.length_append] at shorter
        have isNil : more = [] := List.length_eq_zero_iff.mp (by omega)
        rw [isNil, List.append_nil] at fragments someQuoting
        exact someQuoting ((fragments_length_le fragments).2 (by simp))

/-! ## The symbols of a text -/

/-- The text of an operator that stands for itself. -/
def operatorText (type : TokenType) : ByteString :=
  (operators.lookup type).getD []

def symbolText : Symbol → ByteString
  | .word value => quoteForDisplay value
  | .operator type => operatorText type

/-- Symbols with a blank in front of each. -/
def lead (symbols : List Symbol) : ByteString :=
  symbols.flatMap fun symbol => blank :: symbolText symbol

theorem boundary_lead (symbols : List Symbol) : Boundary (lead symbols) := by
  cases symbols with
  | nil => exact nofun
  | cons symbol symbols =>
      rintro character ⟨⟩
      decide

theorem lead_itemSymbols (item : Item) :
    lead (itemSymbols item) = blank :: itemText quoteForDisplay item := by
  cases item with
  | word text => exact List.append_nil _
  | redirect redirection target =>
      have isText :
          operatorText (operatorOf redirection) =
            printRedirection redirection := by
        rcases redirection with _ | (_ | _) | (_ | _) <;> decide
      simp [lead, itemSymbols, symbolText, itemText, isText]

theorem lead_commandSymbols
    {command : Command} (named : command.args ≠ []) :
    lead (commandSymbols (canonicalItems command)) =
      blank :: formatCommand command := by
  have leads (items : List Item) :
      lead (commandSymbols items) =
        (items.map (itemText quoteForDisplay)).flatMap
          (fun text => blank :: text) := by
    induction items with
    | nil => rfl
    | cons item items induction =>
        rw [commandSymbols_cons, lead, List.flatMap_append, ← lead, ← lead,
          lead_itemSymbols, induction]
        rfl
  rw [formatCommand_eq named, leads]
  cases texts : (canonicalItems command).map (itemText quoteForDisplay) with
  | nil =>
      have noArgs : command.args = [] := by
        have noItems := List.map_eq_nil_iff.mp texts
        simpa [canonicalItems] using (List.append_eq_nil_iff.mp noItems).1
      exact absurd noArgs named
  | cons first rest =>
      rw [intercalate_blank, List.flatMap_cons]
      rfl

theorem lead_pipelineSymbols
    {commands : List Command} (nonempty : commands ≠ [])
    (named : ∀ command ∈ commands, command.args ≠ []) :
    lead (pipelineSymbols (commands.map canonicalItems)) =
      blank :: formatPipeline ⟨commands, false⟩ := by
  induction commands with
  | nil => exact absurd rfl nonempty
  | cons command commands induction =>
      rcases List.forall_mem_cons.mp named with ⟨first, later⟩
      have leads := lead_commandSymbols first
      cases commands with
      | nil =>
          simpa [pipelineSymbols, formatPipeline] using leads
      | cons next commands =>
          have rest := induction (List.cons_ne_nil _ _) later
          have bar : symbolText (.operator .pipe) = [verticalBar] := by decide
          have between : literal " | " = [blank, verticalBar, blank] := by
            decide
          simp only [pipelineSymbols, formatPipeline, List.map_cons,
            List.intercalate_cons_cons, lead, List.flatMap_append,
            List.flatMap_cons, List.flatMap_nil, bar, between]
            at leads rest ⊢
          rw [leads, rest]
          simp

/-! ## Reading back -/

/-- The first word that is not legible is the first difference between what is
written and what is read. -/
theorem first_misread
    {symbols : List Symbol}
    (areOperators :
      ∀ type, .operator type ∈ symbols →
        (type, operatorText type) ∈ operators)
    {lexemes : List Lexeme} (split : LexicalSplit (lead symbols) lexemes)
    {word : ByteString} (member : .word word ∈ symbols)
    (illegible : ¬ Legible word) :
    ∃ front behind value other more,
      symbols = front ++ .word value :: behind ∧
        lexemeSymbols lexemes = front ++ .word other :: more ∧
        value ≠ other := by
  induction symbols generalizing lexemes with
  | nil => cases member
  | cons symbol symbols induction =>
      rcases split.space_inversion (by decide) with ⟨later, rfl, behind⟩
      change LexicalSplit (symbolText symbol ++ lead symbols) later at behind
      have boundary := boundary_lead symbols
      have goOn {rest : List Lexeme}
          (rested : LexicalSplit (lead symbols) rest)
          (same : lexemeSymbols later = symbol :: lexemeSymbols rest)
          (notHere : .word word ≠ symbol) :
          ∃ front behind value other more,
            symbol :: symbols = front ++ .word value :: behind ∧
              lexemeSymbols later = front ++ .word other :: more ∧
              value ≠ other := by
        have isLater : .word word ∈ symbols :=
          (List.mem_cons.mp member).resolve_left notHere
        rcases induction
            (fun type isOperator =>
              areOperators type (List.mem_cons_of_mem _ isOperator))
            rested isLater with
          ⟨front, back, value, other, more, rfl, read, different⟩
        refine ⟨symbol :: front, back, value, other, more, rfl, ?_,
          different⟩
        rw [same, read]
        rfl
      cases symbol with
      | operator type =>
          have isOperator := areOperators type List.mem_cons_self
          rcases behind.operator_inversion
              (longestOperator_boundary isOperator boundary) with
            ⟨rest, rfl, rested⟩
          exact goOn rested rfl nofun
      | word value =>
          by_cases legible : Legible value
          · rcases quoteForDisplay_reads legible with
              ⟨fragments, noOperator⟩
            rcases behind.word_inversion fragments
                (quoteForDisplay_ne_nil value)
                (boundary_not_startsFragment boundary)
                (noOperator _ boundary) with
              ⟨rest, rfl, rested⟩
            refine goOn rested rfl ?_
            intro same
            cases same
            exact illegible legible
          · rcases illegible_misread legible boundary behind with
              ⟨text, other, rest, rfl, different⟩
            exact ⟨[], symbols, value, other, lexemeSymbols rest, rfl, rfl,
              different.symm⟩

theorem operator_of_mem_pipelineSymbols
    {commands : List (List Item)} {type : TokenType}
    (member : .operator type ∈ pipelineSymbols commands) :
    (type, operatorText type) ∈ operators := by
  by_cases isPipe : type = .pipe
  · rw [isPipe]
    decide
  · have noPipe : Symbol.operator type ≠ .operator .pipe :=
      fun same => isPipe (Symbol.operator.inj same)
    rcases (mem_pipelineSymbols noPipe).mp member with
      ⟨items, -, item, -, inItem⟩
    cases item with
    | word text => simp [itemSymbols] at inItem
    | redirect redirection target =>
        have isType : type = operatorOf redirection := by
          simpa [itemSymbols] using inItem
        rw [isType]
        rcases redirection with _ | (_ | _) | (_ | _) <;> decide

theorem word_mem_pipelineSymbols
    {commands : List Command} {command : Command}
    (member : command ∈ commands) {word : ByteString}
    (isWord : word ∈ commandWords command) :
    .word word ∈ pipelineSymbols (commands.map canonicalItems) := by
  rcases List.mem_map.mp isWord with ⟨item, isItem, rfl⟩
  have noPipe : Symbol.word item.wordOf ≠ .operator .pipe := nofun
  refine (mem_pipelineSymbols noPipe).mpr
    ⟨_, List.mem_map_of_mem member, item, isItem, ?_⟩
  cases item <;> simp [itemSymbols, Item.wordOf]

theorem quoteForDisplay_angles (word : ByteString) :
    (quoteForDisplay word).countP isAngle = word.countP isAngle := by
  by_cases legible : Legible word
  · exact fragments_angles (quoteForDisplay_reads legible).1
  · rw [illegible_unquoted legible]

theorem lead_angles
    {symbols : List Symbol}
    (areOperators :
      ∀ type, .operator type ∈ symbols →
        (type, operatorText type) ∈ operators) :
    (lead symbols).countP isAngle = weight symbols := by
  induction symbols with
  | nil => rfl
  | cons symbol symbols induction =>
      have later :=
        induction fun type isOperator =>
          areOperators type (List.mem_cons_of_mem _ isOperator)
      have here : (symbolText symbol).countP isAngle = symbol.weight := by
        cases symbol with
        | word value => exact quoteForDisplay_angles value
        | operator type =>
            exact operator_angles (areOperators type List.mem_cons_self)
      rw [lead, List.flatMap_cons, List.countP_append,
        List.countP_cons_of_neg (by decide), here, ← lead, later]
      rfl

/-- The plan of a single pipeline in the foreground is that of a tree with
nothing behind the pipeline. -/
theorem eq_last_of_denote
    {tree : SequenceTree} {commands : List Command}
    (denoted :
      tree.denote .always = [⟨.always, ⟨commands, false⟩⟩]) :
    ∃ pipeline, tree = .last pipeline ∧ pipeline.denote = commands := by
  cases tree with
  | last pipeline =>
      refine ⟨pipeline, rfl, ?_⟩
      simpa [SequenceTree.denote] using denoted
  | lastBackground pipeline => simp [SequenceTree.denote] at denoted
  | background pipeline later => simp [SequenceTree.denote] at denoted
  | chain pipeline connector later =>
      cases later <;> simp [SequenceTree.denote] at denoted

theorem derivesPipeline_of_last
    {tokens : List Token} {pipeline : PipelineTree}
    (derivation : DerivesSequence tokens (.last pipeline)) :
    DerivesPipeline tokens pipeline := by
  generalize isLast : SequenceTree.last pipeline = tree at derivation
  cases derivation with
  | last derived =>
      cases isLast
      exact derived
  | lastBackground | background | chain => cases isLast

/-- If the text of a pipeline is parsed to that pipeline, its words are
legible. -/
theorem legible_of_parseLine
    {commands : List Command}
    (wellFormed : WellFormedPipeline ⟨commands, false⟩)
    (parsed :
      parseLine (formatPipeline ⟨commands, false⟩) =
        some ⟨⟨[⟨.always, ⟨commands, false⟩⟩]⟩, []⟩) :
    ∀ command ∈ commands, ∀ word ∈ commandWords command, Legible word := by
  intro command member word isWord
  by_contra illegible
  rcases parseLine_inversion parsed (by simp) with
    ⟨lexemes, tree, split, derivation, denoted⟩
  rcases eq_last_of_denote denoted with ⟨pipeline, rfl, rfl⟩
  have read :=
    symbols_of_derivesPipeline (derivesPipeline_of_last derivation)
  rw [symbols_lexemeTokens split] at read
  have written :
      lead (pipelineSymbols (pipeline.denote.map canonicalItems)) =
        blank :: formatPipeline ⟨pipeline.denote, false⟩ :=
    lead_pipelineSymbols wellFormed.nonempty fun command isCommand =>
      (wellFormed.commands command isCommand).named
  have whole := LexicalSplit.space blank (by decide) split
  rw [← written] at whole
  have areOperators :
      ∀ type,
        .operator type ∈
            pipelineSymbols (pipeline.denote.map canonicalItems) →
          (type, operatorText type) ∈ operators :=
    fun type => operator_of_mem_pipelineSymbols
  rcases first_misread areOperators whole
      (word_mem_pipelineSymbols member isWord) illegible with
    ⟨front, behind, value, other, more, first, second, different⟩
  -- The brackets of the text are those of what is read, so that nothing is
  -- overridden there.
  have sameWeight :=
    (lead_angles areOperators).symm.trans (split_angles whole)
  rw [lexemeSymbols, read] at sameWeight second
  have canonical :
      pipeline.denote.map canonicalItems =
        ((pipeline.first :: pipeline.others).map CommandTree.items).map
          (fun items => canonicalItems (denoteItems items)) := by
    rw [PipelineTree.denote, List.map_map, List.map_map]
    rfl
  rw [canonical] at first sameWeight
  exact different (first_word_of_weight sameWeight first second)

/-- The pipeline of a single command without redirections. -/
def simplePipeline (args : List ByteString) : Pipeline :=
  ⟨[{ args := args }], false⟩

/--
A pipeline of an accepted line that runs in the foreground is read back from
its text if all its words are legible, and only then.
-/
theorem job_text_faithful
    {input : ByteString} {result : ParseResult}
    (parsed : parseLine input = some result) (succeeded : result.ok = true)
    {step : PipelineStep} (member : step ∈ result.plan.steps)
    (foreground : step.pipeline.background = false) :
    parseLine (formatPipeline step.pipeline) =
        some ⟨⟨[⟨.always, step.pipeline⟩]⟩, []⟩ ↔
      ∀ command ∈ step.pipeline.commands,
        ∀ word ∈ commandWords command, Legible word := by
  rcases parseLine_outcome input with ⟨same, returned, wellFormed⟩
  rw [parsed] at returned
  cases returned
  have wellFormedPipeline := (wellFormed succeeded).pipelines step member
  rcases step with ⟨connector, commands, background⟩
  cases foreground
  exact ⟨legible_of_parseLine wellFormedPipeline,
    parseLine_formatPipeline wellFormedPipeline⟩

/-- The line `sort <'my file' | grep -v \# >> out`. -/
def sampleLine : ByteString :=
  literal "sort <'my file' | grep -v \\# >> out"

def sampleStep : PipelineStep :=
  { pipeline :=
      { commands :=
          [{ args := [literal "sort"]
             inputFile := literal "my file"
             hasInputRedirect := true },
            { args := [literal "grep", literal "-v", literal "#"]
              outputFile := literal "out"
              hasOutputRedirect := true
              appendOutput := true }] } }

theorem job_text_faithful_sample :
    parseLine sampleLine = some ⟨⟨[sampleStep]⟩, []⟩ ∧
      parseLine (formatPipeline sampleStep.pipeline) =
        some ⟨⟨[⟨.always, sampleStep.pipeline⟩]⟩, []⟩ := by
  have parsed : parseLine sampleLine = some ⟨⟨[sampleStep]⟩, []⟩ := by
    decide +kernel
  have legible :
      ∀ command ∈ sampleStep.pipeline.commands,
        ∀ word ∈ commandWords command, Legible word := by
    decide +kernel
  exact ⟨parsed,
    (job_text_faithful parsed rfl List.mem_cons_self rfl).mpr legible⟩

/--
`echo "it's"` is accepted; its text is `echo it's`, and that is a syntax error.
-/
theorem apostrophe_unreadable :
    parseLine (literal "echo \"it's\"") =
        some
          ⟨⟨[⟨.always,
              simplePipeline [literal "echo", literal "it's"]⟩]⟩, []⟩ ∧
      formatPipeline (simplePipeline [literal "echo", literal "it's"]) =
        literal "echo it's" ∧
      parseLine (literal "echo it's") =
        some ⟨⟨[]⟩, literal "syntax error: unmatched single quote"⟩ := by
  decide +kernel

end Shell.JobText
