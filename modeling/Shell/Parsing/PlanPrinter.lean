import Mathlib.Data.List.Chain
import Shell.Parsing.LexerCorrectness
import Shell.Parsing.ParserCorrectness

/-!
# Well-formed plans and their canonical text

`WellFormed` describes the plans that a command line can denote.  `printPlan`
writes such a plan with every word between single quotes, so that any byte
string can stand as an argument or a file name, and with operators that are
set off by blanks.  `parseLine` produces only well-formed plans and reads the
canonical text of each of them back to that plan.
-/

namespace Shell.PlanPrinter

open Shell.Syntax
open Shell.MaximalMunch
open Shell.Lexer
open Shell.LexicalGrammar
open Shell.LexerCorrectness
open Shell.CommandParser
open Shell.CommandGrammar
open Shell.ParserCorrectness

/-! ## Well-formed plans -/

/-- A command with an argument whose absent redirections carry no data. -/
structure WellFormedCommand (command : Command) : Prop where
  named : command.args ≠ []
  input : command.hasInputRedirect = false → command.inputFile = []
  output :
    command.hasOutputRedirect = false →
      command.outputFile = [] ∧ command.appendOutput = false
  error :
    command.hasErrorRedirect = false →
      command.errorFile = [] ∧ command.appendError = false

/-- A pipeline with at least one command, all of them well-formed. -/
structure WellFormedPipeline (pipeline : Pipeline) : Prop where
  nonempty : pipeline.commands ≠ []
  commands : ∀ command ∈ pipeline.commands, WellFormedCommand command

/-- A background step is followed by an unconditional one. -/
def Follows (step next : PipelineStep) : Prop :=
  step.pipeline.background = true → next.connector = .always

/-- The plans that some command line denotes. -/
structure WellFormed (plan : ExecutionPlan) : Prop where
  first : ∀ step ∈ plan.steps.head?, step.connector = .always
  follows : plan.steps.IsChain Follows
  pipelines : ∀ step ∈ plan.steps, WellFormedPipeline step.pipeline

/-! ## The canonical text -/

/-- A byte between single quotes; a quote closes them and opens them again. -/
def quoteByte (character : UInt8) : ByteString :=
  if character = singleQuote then
    [singleQuote, backslash, singleQuote, singleQuote]
  else
    [character]

def printWord (word : ByteString) : ByteString :=
  singleQuote :: (word.flatMap quoteByte ++ [singleQuote])

def printRedirection : Redirection → ByteString
  | .input => literal "<"
  | .output false => literal ">"
  | .output true => literal ">>"
  | .error false => literal "2>"
  | .error true => literal "2>>"

def printItem : Item → ByteString
  | .word text => printWord text
  | .redirect redirection target =>
      printRedirection redirection ++ blank :: printWord target

/-- The arguments of a command and one redirection for each stream. -/
def canonicalItems (command : Command) : List Item :=
  command.args.map .word ++
    ((if command.hasInputRedirect then
        [.redirect .input command.inputFile] else []) ++
      ((if command.hasOutputRedirect then
          [.redirect (.output command.appendOutput) command.outputFile]
        else []) ++
        (if command.hasErrorRedirect then
          [.redirect (.error command.appendError) command.errorFile]
        else [])))

def printCommand (command : Command) : ByteString :=
  [blank].intercalate ((canonicalItems command).map printItem)

def printPipeline (pipeline : Pipeline) : ByteString :=
  (literal " | ").intercalate (pipeline.commands.map printCommand)

def printConnector : ChainOperator → ByteString
  | .always => literal " ; "
  | .and => literal " && "
  | .or => literal " || "

def printBackground : ByteString := literal " & "

/-- The steps in order; what follows a background step is unconditional. -/
def printSteps : List PipelineStep → ByteString
  | [] => []
  | [step] =>
      printPipeline step.pipeline ++
        (if step.pipeline.background then printBackground else [])
  | step :: next :: later =>
      printPipeline step.pipeline ++
        ((if step.pipeline.background then printBackground
          else printConnector next.connector) ++
          printSteps (next :: later))

def printPlan (plan : ExecutionPlan) : ByteString :=
  printSteps plan.steps

/-! ## Parsed plans are well-formed -/

theorem lexemeTokens_ne_end
    {input : ByteString} {lexemes : List Lexeme}
    (split : LexicalSplit input lexemes) (position : Nat) :
    ∀ token ∈ lexemeTokens position lexemes,
      token.type ≠ .endOfInput := by
  induction split generalizing position with
  | nil => simp [lexemeTokens]
  | space _ _ _ induction => exact induction _
  | word _ _ _ _ _ induction =>
      rintro token (_ | ⟨_, member⟩)
      · simp
      · exact induction _ token member
  | operator longest _ induction =>
      have notEnd : ∀ entry ∈ operators, entry.1 ≠ .endOfInput := by decide
      rintro token (_ | ⟨_, member⟩)
      · exact notEnd _ longest.1
      · exact induction _ token member

/-- The token list of a split input is one the parser accepts or rejects. -/
theorem endTerminated_of_split
    {input : ByteString} {lexemes : List Lexeme}
    (split : LexicalSplit input lexemes) :
    EndTerminated (lex input).tokens := by
  rw [lex_of_split split]
  exact ⟨_, _, rfl, rfl, lexemeTokens_ne_end split 0⟩

theorem wellFormedCommand_denote (tree : CommandTree) :
    WellFormedCommand tree.denote where
  named := by
    obtain ⟨text, member⟩ := tree.hasWord
    exact List.ne_nil_of_mem
      (List.mem_filterMap.mpr ⟨.word text, member, rfl⟩)
  input := by
    simp only [CommandTree.denote, denoteItems, Option.isSome_eq_false_iff,
      Option.isNone_iff_eq_none]
    intro absent
    rw [absent]
    rfl
  output := by
    simp only [CommandTree.denote, denoteItems, Option.isSome_eq_false_iff,
      Option.isNone_iff_eq_none]
    intro absent
    rw [absent]
    exact ⟨rfl, rfl⟩
  error := by
    simp only [CommandTree.denote, denoteItems, Option.isSome_eq_false_iff,
      Option.isNone_iff_eq_none]
    intro absent
    rw [absent]
    exact ⟨rfl, rfl⟩

theorem wellFormedPipeline_denote (tree : PipelineTree) (background : Bool) :
    WellFormedPipeline ⟨tree.denote, background⟩ where
  nonempty := by simp [PipelineTree.denote]
  commands := by
    intro command member
    obtain ⟨tree, -, rfl⟩ := List.mem_map.mp member
    exact wellFormedCommand_denote tree

theorem head_denote (tree : SequenceTree) (connector : ChainOperator) :
    ∀ step ∈ (tree.denote connector).head?, step.connector = connector := by
  cases tree <;> simp [SequenceTree.denote]

theorem follows_denote (tree : SequenceTree) (connector : ChainOperator) :
    (tree.denote connector).IsChain Follows := by
  induction tree generalizing connector with
  | last _ => exact .singleton _
  | lastBackground _ => exact .singleton _
  | background _ later induction =>
      refine List.isChain_cons.mpr ⟨?_, induction _⟩
      intro step member _
      exact head_denote later .always step member
  | chain _ _ later induction =>
      refine List.isChain_cons.mpr ⟨?_, induction _⟩
      intro step _ isBackground
      exact Bool.noConfusion isBackground

theorem pipelines_denote (tree : SequenceTree) (connector : ChainOperator) :
    ∀ step ∈ tree.denote connector, WellFormedPipeline step.pipeline := by
  induction tree generalizing connector with
  | last pipeline =>
      simpa [SequenceTree.denote] using wellFormedPipeline_denote pipeline _
  | lastBackground pipeline =>
      simpa [SequenceTree.denote] using wellFormedPipeline_denote pipeline _
  | background pipeline _ induction =>
      rintro step (_ | ⟨_, member⟩)
      · exact wellFormedPipeline_denote pipeline true
      · exact induction _ step member
  | chain pipeline _ _ induction =>
      rintro step (_ | ⟨_, member⟩)
      · exact wellFormedPipeline_denote pipeline false
      · exact induction _ step member

theorem wellFormed_denoteLine (tree : Option SequenceTree) :
    WellFormed (denoteLine tree) := by
  cases tree with
  | none => exact ⟨by simp [denoteLine], .nil, by simp [denoteLine]⟩
  | some tree =>
      exact ⟨head_denote tree _, follows_denote tree _,
        pipelines_denote tree _⟩

/-- `parseLine` returns, and a plan it accepts is well-formed. -/
theorem parseLine_outcome (input : ByteString) :
    ∃ result,
      parseLine input = some result ∧
        (result.ok = true → WellFormed result.plan) := by
  rw [parseLine]
  by_cases lexed : (lex input).ok = true
  · obtain ⟨lexemes, split⟩ := split_of_lex lexed
    obtain ⟨result, returned, outcome⟩ :=
      parse_outcome (endTerminated_of_split split)
    refine ⟨result, by simp [lexed, returned], ?_⟩
    intro succeeded
    rcases outcome with failed | ⟨-, tree, -, plan⟩
    · have nonempty : ∀ message ∈ syntaxErrors, message ≠ [] := by decide
      exact (nonempty _ failed (List.isEmpty_iff.mp succeeded)).elim
    · rw [plan]
      exact wellFormed_denoteLine tree
  · refine ⟨⟨⟨[]⟩, (lex input).error⟩, by simp [lexed], ?_⟩
    intro succeeded
    exact (lexed succeeded).elim

/-! ## Texts that spell tokens -/

/-- The end of the input or white space, where every piece ends. -/
def Boundary (rest : ByteString) : Prop :=
  ∀ character ∈ rest.head?, isSpace character = true

/--
In front of every boundary the text splits into the same pieces, and their
tokens satisfy the predicate wherever the text stands.
-/
def Spells (text : ByteString) (accepts : List Token → Prop) : Prop :=
  ∃ lexemes,
    (∀ {rest tail}, Boundary rest → LexicalSplit rest tail →
      LexicalSplit (text ++ rest) (lexemes ++ tail)) ∧
    ∀ position, accepts (lexemeTokens position lexemes)

/-- The text keeps a boundary at its front. -/
def OpensBoundary (text : ByteString) : Prop :=
  ∀ {rest}, Boundary rest → Boundary (text ++ rest)

theorem opensBoundary_blank (text : ByteString) :
    OpensBoundary (blank :: text) := by
  intro rest _
  simp [Boundary, isSpace, blank]

theorem boundary_not_startsFragment
    {rest : ByteString} (boundary : Boundary rest) :
    ¬ StartsFragment rest := by
  cases rest with
  | nil => exact not_startsFragment_nil
  | cons character rest =>
      exact not_startsFragment_space (boundary _ rfl) rest

theorem lexemeTokens_append
    (position : Nat) (lexemes later : List Lexeme) :
    lexemeTokens position (lexemes ++ later) =
      lexemeTokens position lexemes ++
        lexemeTokens (position + (lexemes.flatMap Lexeme.text).length)
          later := by
  induction lexemes generalizing position with
  | nil => simp [lexemeTokens]
  | cons lexeme lexemes induction =>
      cases lexeme <;>
        rw [List.cons_append, lexemeTokens, lexemeTokens, induction,
          List.flatMap_cons, List.length_append, Nat.add_assoc] <;>
        rfl

theorem Spells.append
    {text later : ByteString}
    {accepts acceptsLater acceptsBoth : List Token → Prop}
    (first : Spells text accepts)
    (second : Spells later acceptsLater)
    (separate : OpensBoundary later)
    (combine :
      ∀ {tokens laterTokens}, accepts tokens → acceptsLater laterTokens →
        acceptsBoth (tokens ++ laterTokens)) :
    Spells (text ++ later) acceptsBoth := by
  obtain ⟨lexemes, split, accepted⟩ := first
  obtain ⟨laterLexemes, laterSplit, laterAccepted⟩ := second
  refine ⟨lexemes ++ laterLexemes, ?_, ?_⟩
  · intro rest tail boundary tailSplit
    rw [List.append_assoc, List.append_assoc]
    exact split (separate boundary) (laterSplit boundary tailSplit)
  · intro position
    rw [lexemeTokens_append]
    exact combine (accepted _) (laterAccepted _)

theorem Spells.mono
    {text : ByteString} {accepts weaker : List Token → Prop}
    (spells : Spells text accepts)
    (implies : ∀ {tokens}, accepts tokens → weaker tokens) :
    Spells text weaker := by
  obtain ⟨lexemes, split, accepted⟩ := spells
  exact ⟨lexemes, split, fun position => implies (accepted position)⟩

theorem Spells.blank
    {text : ByteString} {accepts : List Token → Prop}
    (spells : Spells text accepts) :
    Spells (blank :: text) accepts := by
  obtain ⟨lexemes, split, accepted⟩ := spells
  refine ⟨.space Syntax.blank :: lexemes, ?_, fun _ => accepted _⟩
  intro rest tail boundary tailSplit
  exact .space _ (by decide) (split boundary tailSplit)

theorem spells_nil : Spells [] (fun tokens => tokens = []) :=
  ⟨[], fun _ tailSplit => tailSplit, fun _ => rfl⟩

/-- The lexer turns a text that spells tokens into those tokens. -/
theorem Spells.lex
    {text : ByteString} {accepts : List Token → Prop}
    (spells : Spells text accepts) :
    ∃ tokens,
      accepts tokens ∧
        Lexer.lex text =
          ⟨tokens ++ [⟨.endOfInput, [], text.length⟩], []⟩ ∧
        EndTerminated (Lexer.lex text).tokens := by
  obtain ⟨lexemes, split, accepted⟩ := spells
  have whole := @split [] [] (by simp [Boundary]) .nil
  rw [List.append_nil, List.append_nil] at whole
  exact ⟨_, accepted 0, lex_of_split whole, endTerminated_of_split whole⟩

/-! ## Words and operators -/

/-- One token of the given type and text. -/
def IsWord (word : ByteString) (tokens : List Token) : Prop :=
  ∃ token, tokens = [token] ∧ token.type = .word ∧ token.text = word

/-- One token of the given type. -/
def IsOperator (type : TokenType) (tokens : List Token) : Prop :=
  ∃ token, tokens = [token] ∧ token.type = type

theorem fragments_quoted
    (opened word : ByteString) (noQuote : singleQuote ∉ opened) :
    Fragments
      (singleQuote ::
        (opened ++ (word.flatMap quoteByte ++ [singleQuote])))
      (opened ++ word) := by
  induction word generalizing opened with
  | nil =>
      rw [List.append_nil]
      exact .single (.single opened noQuote)
  | cons character word induction =>
      by_cases isQuote : character = singleQuote
      · subst isQuote
        have reopened := induction [] List.not_mem_nil
        have closed :=
          Concatenation.cons (.single opened noQuote)
            (.cons (.escaped singleQuote) reopened)
        simpa [quoteByte] using closed
      · have extended :=
          induction (opened ++ [character])
            (by simp [noQuote, Ne.symm isQuote])
        simpa [quoteByte, isQuote] using extended

/-- A quoted word is a word whose value is the text between the quotes. -/
theorem spells_word (word : ByteString) :
    Spells (printWord word) (IsWord word) := by
  refine ⟨[.word (printWord word) word], ?_, ?_⟩
  · intro rest tail boundary tailSplit
    refine .word (fragments_quoted [] word List.not_mem_nil)
      (List.cons_ne_nil _ _) (boundary_not_startsFragment boundary) ?_
      tailSplit
    intro started
    exact absurd started.head_mem (by decide)
  · intro position
    exact ⟨_, rfl, rfl, rfl⟩

/-- An operator is the longest one if the next byte continues no operator. -/
theorem longestOperator_of_next
    {type : TokenType} {text rest : ByteString}
    (member : (type, text) ∈ operators)
    (stops :
      ∀ character ∈ rest.head?, ∀ entry ∈ operators,
        ¬ text ++ [character] <+: entry.2) :
    LongestOperator type text (text ++ rest) := by
  refine ⟨member, List.prefix_append _ _, ?_⟩
  intro entry entryMember isPrefix
  by_contra longer
  rcases List.prefix_of_prefix_length_le (List.prefix_append text rest)
    isPrefix (Nat.le_of_not_le longer) with ⟨more, split⟩
  rw [← split, List.prefix_append_right_inj] at isPrefix
  cases more with
  | nil => simp [← split] at longer
  | cons character more =>
      rcases isPrefix with ⟨tail, rfl⟩
      refine stops character rfl entry entryMember ⟨more, ?_⟩
      rw [← split, List.append_assoc]
      rfl

/-- In front of a boundary no operator is longer than the one that stands
there. -/
theorem longestOperator_boundary
    {type : TokenType} {text rest : ByteString}
    (member : (type, text) ∈ operators) (boundary : Boundary rest) :
    LongestOperator type text (text ++ rest) := by
  have noSpace :
      operators.all
        (fun entry => entry.2.all fun character => !isSpace character) =
          true := by
    decide
  apply longestOperator_of_next member
  intro character isNext entry entryMember isPrefix
  have inOperator :=
    List.all_eq_true.mp (List.all_eq_true.mp noSpace _ entryMember)
      character (isPrefix.subset (by simp))
  rw [boundary character isNext] at inOperator
  exact Bool.noConfusion inOperator

theorem spells_operator
    {type : TokenType} {text : ByteString}
    (member : (type, text) ∈ operators) :
    Spells text (IsOperator type) := by
  refine ⟨[.operator type text], ?_, ?_⟩
  · intro rest tail boundary tailSplit
    exact .operator (longestOperator_boundary member boundary) tailSplit
  · intro position
    exact ⟨_, rfl, rfl⟩

/-- An operator between two blanks, in front of a text that spells tokens. -/
theorem spells_between
    {type : TokenType} {operator text : ByteString}
    {accepts : List Token → Prop}
    (member : (type, operator) ∈ operators)
    (spells : Spells text accepts) :
    Spells (blank :: (operator ++ blank :: text))
      (fun tokens =>
        ∃ token later,
          tokens = token :: later ∧ token.type = type ∧
            accepts later) := by
  refine ((spells_operator member).append spells.blank
    (opensBoundary_blank text) ?_).blank
  rintro _ later ⟨token, rfl, isType⟩ accepted
  exact ⟨token, later, rfl, isType, accepted⟩

/-! ## Items and commands -/

theorem printRedirection_operator (redirection : Redirection) :
    ∃ type,
      redirectionOf type = some redirection ∧
        (type, printRedirection redirection) ∈ operators := by
  match redirection with
  | .input => exact ⟨.redirectIn, rfl, by decide⟩
  | .output false => exact ⟨.redirectOut, rfl, by decide⟩
  | .output true => exact ⟨.redirectAppend, rfl, by decide⟩
  | .error false => exact ⟨.redirectErr, rfl, by decide⟩
  | .error true => exact ⟨.redirectErrAppend, rfl, by decide⟩

/-- The text of an item for a given way to write words. -/
def itemText (wordText : ByteString → ByteString) : Item → ByteString
  | .word text => wordText text
  | .redirect redirection target =>
      printRedirection redirection ++ blank :: wordText target

theorem printItem_eq : printItem = itemText printWord := by
  funext item
  cases item <;> rfl

theorem spells_item
    {wordText : ByteString → ByteString} (item : Item)
    (spells : Spells (wordText item.wordOf) (IsWord item.wordOf)) :
    Spells (itemText wordText item)
      (fun tokens => DerivesItem tokens [item]) := by
  cases item with
  | word text =>
      refine spells.mono ?_
      rintro _ ⟨token, rfl, isWord, rfl⟩
      exact .word isWord
  | redirect redirection target =>
      obtain ⟨type, isRedirection, member⟩ :=
        printRedirection_operator redirection
      refine (spells_operator member).append spells.blank
        (opensBoundary_blank _) ?_
      rintro _ _ ⟨operator, rfl, rfl⟩ ⟨token, rfl, isWord, rfl⟩
      exact .redirect isRedirection isWord

theorem spells_items
    {wordText : ByteString → ByteString}
    (items : List Item) (nonempty : items ≠ [])
    (spells :
      ∀ item ∈ items, Spells (wordText item.wordOf) (IsWord item.wordOf)) :
    Spells ([blank].intercalate (items.map (itemText wordText)))
      (fun tokens => DerivesItems tokens items) := by
  induction items with
  | nil => exact (nonempty rfl).elim
  | cons item items induction =>
      have first := spells_item item (spells item List.mem_cons_self)
      cases items with
      | nil =>
          rw [List.map_singleton, List.intercalate_singleton]
          exact first.mono fun derivation => .single derivation
      | cons next items =>
          rw [List.map_cons, List.map_cons, List.intercalate_cons_cons,
            List.append_assoc]
          refine first.append
            (induction (List.cons_ne_nil _ _)
              (fun item member =>
                spells item (List.mem_cons_of_mem _ member))).blank
            (opensBoundary_blank _) ?_
          intro tokens laterTokens first later
          exact .cons first later

/-- The canonical items of a command with an argument, as a tree. -/
def canonicalTree (command : Command) (named : command.args ≠ []) :
    CommandTree where
  items := canonicalItems command
  hasWord := by
    obtain ⟨text, member⟩ := List.exists_mem_of_ne_nil _ named
    exact ⟨text, List.mem_append_left _ (List.mem_map_of_mem member)⟩

theorem foldl_words (args : List ByteString) (command : Command) :
    (args.map Item.word).foldl applyItem command =
      { command with args := command.args ++ args } := by
  induction args generalizing command with
  | nil => simp
  | cons text args induction =>
      rw [List.map_cons, List.foldl_cons, induction]
      simp [applyItem]

/-- The canonical items of a well-formed command denote it. -/
theorem canonicalTree_denote
    {command : Command} (wellFormed : WellFormedCommand command) :
    (canonicalTree command wellFormed.named).denote = command := by
  obtain ⟨args, inputFile, outputFile, errorFile, hasInput, hasOutput,
    hasError, appendOutput, appendError⟩ := command
  obtain ⟨-, input, output, error⟩ := wellFormed
  rw [CommandTree.denote, ← foldl_applyItem]
  simp only [canonicalTree, canonicalItems, List.foldl_append, foldl_words]
  -- A stream without a redirection keeps the defaults of its fields.
  cases hasInput <;> cases hasOutput <;> cases hasError <;>
    simp_all [applyItem]

theorem spells_command
    {wordText : ByteString → ByteString}
    {command : Command} (named : command.args ≠ [])
    (spells :
      ∀ item ∈ canonicalItems command,
        Spells (wordText item.wordOf) (IsWord item.wordOf)) :
    Spells
      ([blank].intercalate
        ((canonicalItems command).map (itemText wordText)))
      (fun tokens =>
        DerivesCommand tokens (canonicalTree command named)) := by
  refine spells_items _ ?_ spells
  obtain ⟨text, member⟩ := (canonicalTree command named).hasWord
  exact List.ne_nil_of_mem member

/-! ## Pipelines and steps -/

theorem spells_pipeline
    {commandText : Command → ByteString}
    (commands : List Command) (nonempty : commands ≠ [])
    (wellFormed : ∀ command ∈ commands, WellFormedCommand command)
    (spells :
      ∀ command ∈ commands, ∀ named,
        Spells (commandText command)
          (fun tokens =>
            DerivesCommand tokens (canonicalTree command named))) :
    ∃ tree : PipelineTree,
      tree.denote = commands ∧
        Spells ((literal " | ").intercalate (commands.map commandText))
          (fun tokens => DerivesPipeline tokens tree) := by
  induction commands with
  | nil => exact (nonempty rfl).elim
  | cons command commands induction =>
      have first := wellFormed command List.mem_cons_self
      have firstSpells := spells command List.mem_cons_self first.named
      cases commands with
      | nil =>
          refine ⟨⟨canonicalTree command first.named, []⟩, ?_, ?_⟩
          · simp [PipelineTree.denote, canonicalTree_denote first]
          · rw [List.map_singleton, List.intercalate_singleton]
            exact firstSpells.mono fun derivation => .single derivation
      | cons next commands =>
          obtain ⟨⟨nextTree, others⟩, denoted, laterSpells⟩ :=
            induction (List.cons_ne_nil _ _)
              (fun command member =>
                wellFormed command (List.mem_cons_of_mem _ member))
              (fun command member =>
                spells command (List.mem_cons_of_mem _ member))
          refine
            ⟨⟨canonicalTree command first.named, nextTree :: others⟩,
              ?_, ?_⟩
          · rw [← denoted]
            simp [PipelineTree.denote, canonicalTree_denote first]
          · rw [List.map_cons, List.map_cons, List.intercalate_cons_cons,
            List.append_assoc]
            refine firstSpells.append
              (spells_between (show (.pipe, literal "|") ∈ operators by
                decide) laterSpells)
              (opensBoundary_blank _) ?_
            rintro tokens _ derivation ⟨bar, later, rfl, isPipe, derived⟩
            exact .pipe derivation isPipe derived

/-- The canonical text of a command, with every word in quotes. -/
theorem spells_printCommand (command : Command) (named : command.args ≠ []) :
    Spells (printCommand command)
      (fun tokens =>
        DerivesCommand tokens (canonicalTree command named)) := by
  rw [printCommand, printItem_eq]
  exact spells_command named fun item _ => spells_word item.wordOf

theorem printConnector_operator (connector : ChainOperator) :
    ∃ type operator,
      connectorOf type = some connector ∧
        (type, operator) ∈ operators ∧
        printConnector connector = blank :: (operator ++ [blank]) := by
  cases connector with
  | always => exact ⟨.semicolon, literal ";", rfl, by decide, by decide⟩
  | and => exact ⟨.andIf, literal "&&", rfl, by decide, by decide⟩
  | or => exact ⟨.orIf, literal "||", rfl, by decide, by decide⟩

/-- The canonical text of the steps spells a sequence that denotes them. -/
theorem spells_steps
    (step : PipelineStep) (steps : List PipelineStep)
    (follows : (step :: steps).IsChain Follows)
    (pipelines :
      ∀ member ∈ step :: steps, WellFormedPipeline member.pipeline) :
    ∃ tree : SequenceTree,
      tree.denote step.connector = step :: steps ∧
        Spells (printSteps (step :: steps))
          (fun tokens => DerivesSequence tokens tree) := by
  induction steps generalizing step with
  | nil =>
      obtain ⟨connector, commands, background⟩ := step
      have wellFormed := pipelines _ List.mem_cons_self
      obtain ⟨tree, rfl, spells⟩ :=
        spells_pipeline commands wellFormed.nonempty wellFormed.commands
          fun command _ => spells_printCommand command
      cases background with
      | false =>
          refine ⟨.last tree, rfl, ?_⟩
          rw [printSteps, if_neg Bool.false_ne_true, List.append_nil]
          exact spells.mono fun derivation => .last derivation
      | true =>
          refine ⟨.lastBackground tree, rfl, ?_⟩
          refine spells.append
            (spells_between (show (.background, literal "&") ∈ operators by
              decide) spells_nil)
            (opensBoundary_blank _) ?_
          rintro tokens _ derivation ⟨mark, _, rfl, isBackground, rfl⟩
          exact .lastBackground derivation isBackground
  | cons next steps induction =>
      obtain ⟨connector, commands, background⟩ := step
      obtain ⟨followed, later⟩ := List.isChain_cons_cons.mp follows
      have wellFormed := pipelines _ List.mem_cons_self
      obtain ⟨tree, rfl, spells⟩ :=
        spells_pipeline commands wellFormed.nonempty wellFormed.commands
          fun command _ => spells_printCommand command
      obtain ⟨sequence, denoted, laterSpells⟩ :=
        induction next later
          (fun step member => pipelines step (List.mem_cons_of_mem _ member))
      cases background with
      | false =>
          obtain ⟨type, operator, isConnector, member, printed⟩ :=
            printConnector_operator next.connector
          refine ⟨.chain tree next.connector sequence, ?_, ?_⟩
          · rw [SequenceTree.denote, denoted]
          · rw [printSteps, if_neg Bool.false_ne_true, printed]
            simp only [List.cons_append, List.append_assoc, List.nil_append]
            refine spells.append (spells_between member laterSpells)
              (opensBoundary_blank _) ?_
            rintro tokens _ derivation ⟨token, _, rfl, rfl, derived⟩
            exact .chain derivation isConnector derived
      | true =>
          refine ⟨.background tree sequence, ?_, ?_⟩
          · rw [SequenceTree.denote, ← followed rfl, denoted]
          · refine spells.append
              (spells_between
                (show (.background, literal "&") ∈ operators by decide)
                laterSpells)
              (opensBoundary_blank _) ?_
            rintro tokens _ derivation ⟨mark, _, rfl, isBackground, derived⟩
            exact .background derivation isBackground derived

/-- The canonical text of a well-formed plan spells a line that denotes it. -/
theorem spells_plan
    {plan : ExecutionPlan} (wellFormed : WellFormed plan) :
    ∃ tree,
      denoteLine tree = plan ∧
        Spells (printPlan plan)
          (fun tokens =>
            ∀ final : Token, final.type = .endOfInput →
              DerivesLine (tokens ++ [final]) tree) := by
  obtain ⟨steps⟩ := plan
  obtain ⟨first, follows, pipelines⟩ := wellFormed
  cases steps with
  | nil =>
      refine ⟨none, rfl, spells_nil.mono ?_⟩
      rintro _ rfl final isEnd
      exact .empty isEnd
  | cons step steps =>
      obtain ⟨tree, denoted, spells⟩ :=
        spells_steps step steps follows pipelines
      refine ⟨some tree, ?_, spells.mono ?_⟩
      · rw [denoteLine, ← first step rfl, denoted]
      · intro tokens derivation final isEnd
        exact .sequence derivation isEnd

/-- A text that spells a line is parsed to what the line denotes. -/
theorem parseLine_of_spells
    {text : ByteString} {tree : Option SequenceTree}
    (spells :
      Spells text
        (fun tokens =>
          ∀ final : Token, final.type = .endOfInput →
            DerivesLine (tokens ++ [final]) tree)) :
    parseLine text = some ⟨denoteLine tree, []⟩ := by
  obtain ⟨tokens, derived, lexed, terminated⟩ := spells.lex
  have derivation : DerivesLine (lex text).tokens tree := by
    rw [lexed]
    exact derived _ rfl
  rw [parseLine, if_pos (by rw [lexed]; rfl),
    parse_complete terminated derivation]

theorem parseLine_printPlan
    {plan : ExecutionPlan} (wellFormed : WellFormed plan) :
    parseLine (printPlan plan) = some ⟨plan, []⟩ := by
  obtain ⟨tree, rfl, spells⟩ := spells_plan wellFormed
  exact parseLine_of_spells spells

/--
Every line that `parseLine` accepts has a well-formed plan, and the canonical
text of every well-formed plan is parsed back to exactly that plan.
-/
theorem parseLine_image_wellFormed :
    (∀ input, ∃ result,
      parseLine input = some result ∧
        (result.ok = true → WellFormed result.plan)) ∧
      ∀ plan, WellFormed plan →
        parseLine (printPlan plan) = some ⟨plan, []⟩ :=
  ⟨parseLine_outcome, fun _ wellFormed => parseLine_printPlan wellFormed⟩

end Shell.PlanPrinter
