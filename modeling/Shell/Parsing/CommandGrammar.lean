import Mathlib.Data.List.Induction
import Shell.Library.MaximalMunch
import Shell.Parsing.Syntax

/-!
# The command grammar and its denotation

A line is empty or a sequence of pipelines; a pipeline is a chain of commands;
a command is a run of items, of which at least one is a word that is not the
target of a redirection.  Derivation trees carry that side condition as a
field, and a pipeline tree cannot be empty.  `Derives…` relates a token list
to the trees it spells, whatever the positions of its tokens and the texts of
its operators are.  The plan of a tree is computed from the tree alone.
-/

namespace Shell.CommandGrammar

open Shell.Syntax
open Shell.MaximalMunch

/-! ## Items -/

/-- The stream a redirection replaces, and how its file is opened. -/
inductive Redirection where
  | input
  | output (append : Bool)
  | error (append : Bool)
deriving DecidableEq, Repr

/-- The redirection operators. -/
def redirectionOf : TokenType → Option Redirection
  | .redirectIn => some .input
  | .redirectOut => some (.output false)
  | .redirectAppend => some (.output true)
  | .redirectErr => some (.error false)
  | .redirectErrAppend => some (.error true)
  | _ => none

/-- One item of a command. -/
inductive Item where
  | word (text : ByteString)
  | redirect (redirection : Redirection) (target : ByteString)
deriving DecidableEq, Repr

/-- A word, or a redirection operator followed by a word. -/
inductive DerivesItem : List Token → List Item → Prop where
  | word {token : Token} (isWord : token.type = .word) :
      DerivesItem [token] [.word token.text]
  | redirect {operator target : Token} {redirection : Redirection}
      (isOperator : redirectionOf operator.type = some redirection)
      (isWord : target.type = .word) :
      DerivesItem [operator, target] [.redirect redirection target.text]

/-- Zero or more items in a row. -/
abbrev DerivesItems : List Token → List Item → Prop :=
  Concatenation DerivesItem

/-- A token type that an item can begin with. -/
def StartsItem (type : TokenType) : Prop :=
  type = .word ∨ (redirectionOf type).isSome

instance (type : TokenType) : Decidable (StartsItem type) :=
  inferInstanceAs (Decidable (_ ∨ _))

/-! ## Trees -/

/-- The items of a command; one of them is a word of its own. -/
structure CommandTree where
  items : List Item
  hasWord : ∃ text, Item.word text ∈ items

/-- A first command and the commands behind the pipe signs. -/
structure PipelineTree where
  first : CommandTree
  others : List CommandTree

/-- A sequence of pipelines. -/
inductive SequenceTree where
  | last (pipeline : PipelineTree)
  | lastBackground (pipeline : PipelineTree)
  | background (pipeline : PipelineTree) (later : SequenceTree)
  | chain (pipeline : PipelineTree) (connector : ChainOperator)
      (later : SequenceTree)

/-- The list operators and the connector each gives to the next step. -/
def connectorOf : TokenType → Option ChainOperator
  | .andIf => some .and
  | .orIf => some .or
  | .semicolon => some .always
  | _ => none

/-! ## Derivations -/

/-- `cmd`. -/
def DerivesCommand (tokens : List Token) (tree : CommandTree) : Prop :=
  DerivesItems tokens tree.items

/-- `pl ::= cmd ('|' cmd)*`. -/
inductive DerivesPipeline : List Token → PipelineTree → Prop where
  | single {tokens : List Token} {command : CommandTree}
      (first : DerivesCommand tokens command) :
      DerivesPipeline tokens ⟨command, []⟩
  | pipe {tokens laterTokens : List Token} {bar : Token}
      {command next : CommandTree} {others : List CommandTree}
      (first : DerivesCommand tokens command)
      (isPipe : bar.type = .pipe)
      (later : DerivesPipeline laterTokens ⟨next, others⟩) :
      DerivesPipeline (tokens ++ bar :: laterTokens)
        ⟨command, next :: others⟩

/-- `seq ::= pl | pl '&' | pl '&' seq | pl ('&&' | '||' | ';') seq`. -/
inductive DerivesSequence : List Token → SequenceTree → Prop where
  | last {tokens : List Token} {pipeline : PipelineTree}
      (first : DerivesPipeline tokens pipeline) :
      DerivesSequence tokens (.last pipeline)
  | lastBackground {tokens : List Token} {mark : Token}
      {pipeline : PipelineTree}
      (first : DerivesPipeline tokens pipeline)
      (isBackground : mark.type = .background) :
      DerivesSequence (tokens ++ [mark]) (.lastBackground pipeline)
  | background {tokens laterTokens : List Token} {mark : Token}
      {pipeline : PipelineTree} {sequence : SequenceTree}
      (first : DerivesPipeline tokens pipeline)
      (isBackground : mark.type = .background)
      (later : DerivesSequence laterTokens sequence) :
      DerivesSequence (tokens ++ mark :: laterTokens)
        (.background pipeline sequence)
  | chain {tokens laterTokens : List Token} {operator : Token}
      {pipeline : PipelineTree} {connector : ChainOperator}
      {sequence : SequenceTree}
      (first : DerivesPipeline tokens pipeline)
      (isOperator : connectorOf operator.type = some connector)
      (later : DerivesSequence laterTokens sequence) :
      DerivesSequence (tokens ++ operator :: laterTokens)
        (.chain pipeline connector sequence)

/-- `line ::= End | seq End`; no tree stands for the empty line. -/
inductive DerivesLine : List Token → Option SequenceTree → Prop where
  | empty {final : Token} (isEnd : final.type = .endOfInput) :
      DerivesLine [final] none
  | sequence {tokens : List Token} {final : Token} {tree : SequenceTree}
      (derivation : DerivesSequence tokens tree)
      (isEnd : final.type = .endOfInput) :
      DerivesLine (tokens ++ [final]) (some tree)

/-! ## Denotation -/

/-- The argument an item contributes. -/
def Item.argument : Item → Option ByteString
  | .word text => some text
  | .redirect _ _ => none

/-- The word of an item: an argument or the name of a file. -/
def Item.wordOf : Item → ByteString
  | .word text => text
  | .redirect _ target => target

/-- The file an item gives to standard input. -/
def Item.inputTarget : Item → Option ByteString
  | .redirect .input target => some target
  | _ => none

/-- The file an item gives to standard output, and its append flag. -/
def Item.outputTarget : Item → Option (ByteString × Bool)
  | .redirect (.output append) target => some (target, append)
  | _ => none

/-- The file an item gives to standard error, and its append flag. -/
def Item.errorTarget : Item → Option (ByteString × Bool)
  | .redirect (.error append) target => some (target, append)
  | _ => none

/-- Arguments in order, and the last redirection of each stream. -/
def denoteItems (items : List Item) : Command :=
  let input := (items.filterMap Item.inputTarget).getLast?
  let output := (items.filterMap Item.outputTarget).getLast?
  let error := (items.filterMap Item.errorTarget).getLast?
  { args := items.filterMap Item.argument
    inputFile := input.getD []
    outputFile := (output.map Prod.fst).getD []
    errorFile := (error.map Prod.fst).getD []
    hasInputRedirect := input.isSome
    hasOutputRedirect := output.isSome
    hasErrorRedirect := error.isSome
    appendOutput := (output.map Prod.snd).getD false
    appendError := (error.map Prod.snd).getD false }

def CommandTree.denote (tree : CommandTree) : Command :=
  denoteItems tree.items

/-- The commands of a pipeline. -/
def PipelineTree.denote (tree : PipelineTree) : List Command :=
  (tree.first :: tree.others).map CommandTree.denote

/-- The steps of a sequence whose first step has the given connector. -/
def SequenceTree.denote : ChainOperator → SequenceTree → List PipelineStep
  | connector, .last pipeline => [⟨connector, ⟨pipeline.denote, false⟩⟩]
  | connector, .lastBackground pipeline =>
      [⟨connector, ⟨pipeline.denote, true⟩⟩]
  | connector, .background pipeline later =>
      ⟨connector, ⟨pipeline.denote, true⟩⟩ :: later.denote .always
  | connector, .chain pipeline next later =>
      ⟨connector, ⟨pipeline.denote, false⟩⟩ :: later.denote next

/-- The plan of a line. -/
def denoteLine : Option SequenceTree → ExecutionPlan
  | none => ⟨[]⟩
  | some tree => ⟨tree.denote .always⟩

/-! ## Left-to-right evaluation of the items -/

/-- What one more item does to the command built so far. -/
def applyItem (command : Command) : Item → Command
  | .word text => { command with args := command.args ++ [text] }
  | .redirect .input target =>
      { command with hasInputRedirect := true, inputFile := target }
  | .redirect (.output append) target =>
      { command with
        hasOutputRedirect := true
        appendOutput := append
        outputFile := target }
  | .redirect (.error append) target =>
      { command with
        hasErrorRedirect := true
        appendError := append
        errorFile := target }

/-- Taking the last redirection of a stream is letting later ones win. -/
theorem foldl_applyItem (items : List Item) :
    items.foldl applyItem {} = denoteItems items := by
  induction items using List.reverseRecOn with
  | nil => rfl
  | append_singleton items item induction =>
      rw [List.foldl_append, induction]
      cases item with
      | word text =>
          simp [applyItem, denoteItems, Item.argument, Item.inputTarget,
            Item.outputTarget, Item.errorTarget]
      | redirect redirection target =>
          cases redirection <;>
            simp [applyItem, denoteItems, Item.argument, Item.inputTarget,
              Item.outputTarget, Item.errorTarget]

/-! ## The front of a command and the tail of a pipeline -/

/-- A command takes at least one token. -/
theorem DerivesCommand.ne_nil
    {tokens : List Token} {tree : CommandTree}
    (derivation : DerivesCommand tokens tree) :
    tokens ≠ [] := by
  rintro rfl
  obtain ⟨text, member⟩ := tree.hasWord
  generalize equal : ([] : List Token) = source at derivation
  cases tree with
  | mk items hasWord =>
      change DerivesItems source items at derivation
      cases derivation with
      | nil => simp at member
      | cons first later =>
          cases first <;> simp at equal

theorem DerivesCommand.head_startsItem
    {tokens : List Token} {tree : CommandTree}
    (derivation : DerivesCommand tokens tree) :
    ∃ token others, tokens = token :: others ∧ StartsItem token.type := by
  obtain ⟨first, _, later, _, item, -, rfl, -⟩ :=
    Concatenation.exists_first derivation (DerivesCommand.ne_nil derivation)
  cases item with
  | word isWord => exact ⟨_, later, rfl, Or.inl isWord⟩
  | redirect isOperator _ =>
      exact ⟨_, _, rfl, Or.inr (by simp [isOperator])⟩

/-- `('|' cmd)*`, the part of a pipeline behind its first command. -/
inductive DerivesPipeTail : List Token → List CommandTree → Prop where
  | nil : DerivesPipeTail [] []
  | cons {bar : Token} {tokens laterTokens : List Token}
      {command : CommandTree} {others : List CommandTree}
      (isPipe : bar.type = .pipe)
      (next : DerivesCommand tokens command)
      (later : DerivesPipeTail laterTokens others) :
      DerivesPipeTail (bar :: (tokens ++ laterTokens)) (command :: others)

theorem derivesPipeline_of_tail
    {tokens tailTokens : List Token} {command : CommandTree}
    {others : List CommandTree}
    (first : DerivesCommand tokens command)
    (later : DerivesPipeTail tailTokens others) :
    DerivesPipeline (tokens ++ tailTokens) ⟨command, others⟩ := by
  induction later generalizing tokens command with
  | nil => simpa using DerivesPipeline.single first
  | cons isPipe next _ induction =>
      exact .pipe first isPipe (induction next)

theorem DerivesPipeline.exists_tail
    {tokens : List Token} {tree : PipelineTree}
    (derivation : DerivesPipeline tokens tree) :
    ∃ firstTokens tailTokens,
      tokens = firstTokens ++ tailTokens ∧
        DerivesCommand firstTokens tree.first ∧
        DerivesPipeTail tailTokens tree.others := by
  induction derivation with
  | single first => exact ⟨_, [], by simp, first, .nil⟩
  | pipe first isPipe _ induction =>
      obtain ⟨nextTokens, tailTokens, rfl, next, later⟩ := induction
      exact ⟨_, _, rfl, first, .cons isPipe next later⟩

/-- No item stands behind the first command of a pipeline. -/
theorem DerivesPipeTail.not_startsItem
    {tokens rest : List Token} {others : List CommandTree}
    (derivation : DerivesPipeTail tokens others)
    (stops : ∀ token ∈ rest.head?, ¬ StartsItem token.type) :
    ∀ token ∈ (tokens ++ rest).head?, ¬ StartsItem token.type := by
  intro token member
  cases derivation with
  | nil => exact stops token member
  | cons isPipe _ _ =>
      obtain rfl := Option.some.inj member
      rw [isPipe]
      decide

theorem startsItem_ne_end
    {type : TokenType} (starts : StartsItem type) :
    type ≠ .endOfInput := by
  rintro rfl
  revert starts
  decide

theorem DerivesPipeline.head_startsItem
    {tokens : List Token} {tree : PipelineTree}
    (derivation : DerivesPipeline tokens tree) :
    ∃ token others, tokens = token :: others ∧ StartsItem token.type := by
  obtain ⟨firstTokens, _, rfl, command, -⟩ := derivation.exists_tail
  obtain ⟨token, others, rfl, starts⟩ := command.head_startsItem
  exact ⟨token, _, rfl, starts⟩

/-- A separator token ends a pipeline. -/
theorem separator_stops
    {token : Token} {rest : List Token}
    (separator :
      token.type = .background ∨ (connectorOf token.type).isSome ∨
        token.type = .endOfInput) :
    ∀ head ∈ (token :: rest).head?,
      ¬ StartsItem head.type ∧ head.type ≠ .pipe := by
  intro head member
  obtain rfl := Option.some.inj member
  generalize token.type = type at separator
  revert separator
  cases type <;> decide

/-- A derived sequence does not begin with the end token. -/
theorem DerivesSequence.head_startsItem
    {tokens : List Token} {tree : SequenceTree}
    (derivation : DerivesSequence tokens tree) :
    ∃ token others, tokens = token :: others ∧ StartsItem token.type := by
  cases derivation with
  | last pipeline => exact pipeline.head_startsItem
  | lastBackground pipeline _ =>
      obtain ⟨token, others, rfl, starts⟩ := pipeline.head_startsItem
      exact ⟨token, _, rfl, starts⟩
  | background pipeline _ _ =>
      obtain ⟨token, others, rfl, starts⟩ := pipeline.head_startsItem
      exact ⟨token, _, rfl, starts⟩
  | chain pipeline _ _ =>
      obtain ⟨token, others, rfl, starts⟩ := pipeline.head_startsItem
      exact ⟨token, _, rfl, starts⟩

end Shell.CommandGrammar
