import Mathlib.Data.List.Count
import Mathlib.Data.List.Perm.Basic
import Shell.Parsing.Composition

/-!
# Words and operators in order

A line without the positions of its tokens and the spellings of its operators
is a list of symbols.  This module says which symbols a split and a derivation
have, and compares the symbols of a pipeline with those of its canonical form.

Redirections that are overridden later in a command are what is lost on the way
to the canonical form.  They can be counted: no quoting removes an angle bracket
from a line, so that the brackets of the words and of the redirections add up
to those of the text.
-/

namespace Shell.Symbols

open Shell.Syntax
open Shell.MaximalMunch
open Shell.LexicalGrammar
open Shell.CommandGrammar
open Shell.PlanPrinter

/-! ## Symbols -/

inductive Symbol where
  | word (value : ByteString)
  | operator (type : TokenType)
deriving DecidableEq, Repr

def lexemeSymbols : List Lexeme → List Symbol
  | [] => []
  | .space _ :: lexemes => lexemeSymbols lexemes
  | .word _ value :: lexemes => .word value :: lexemeSymbols lexemes
  | .operator type _ :: lexemes => .operator type :: lexemeSymbols lexemes

def tokenSymbol (token : Token) : Symbol :=
  if token.type = .word then .word token.text else .operator token.type

theorem symbols_lexemeTokens
    {input : ByteString} {lexemes : List Lexeme}
    (split : LexicalSplit input lexemes) (position : Nat) :
    (lexemeTokens position lexemes).map tokenSymbol =
      lexemeSymbols lexemes := by
  induction split generalizing position with
  | nil => rfl
  | space _ _ _ induction => exact induction _
  | word _ _ _ _ _ induction => exact congrArg (List.cons _) (induction _)
  | @operator type text rest lexemes longest _ induction =>
      have notWord : ∀ entry ∈ operators, entry.1 ≠ .word := by decide
      rw [lexemeTokens, List.map_cons, induction, lexemeSymbols, tokenSymbol,
        if_neg (notWord _ longest.1)]

/-- The operator of a redirection. -/
def operatorOf : Redirection → TokenType
  | .input => .redirectIn
  | .output false => .redirectOut
  | .output true => .redirectAppend
  | .error false => .redirectErr
  | .error true => .redirectErrAppend

theorem eq_operatorOf
    {type : TokenType} {redirection : Redirection}
    (isOperator : redirectionOf type = some redirection) :
    type = operatorOf redirection := by
  cases type <;> cases isOperator <;> rfl

theorem operatorOf_injective
    {redirection other : Redirection}
    (same : operatorOf redirection = operatorOf other) :
    redirection = other := by
  have readBack (redirection : Redirection) :
      redirectionOf (operatorOf redirection) = some redirection := by
    rcases redirection with _ | (_ | _) | (_ | _) <;> rfl
  have found := readBack redirection
  rw [same, readBack other] at found
  exact (Option.some.inj found).symm

def itemSymbols : Item → List Symbol
  | .word text => [.word text]
  | .redirect redirection target =>
      [.operator (operatorOf redirection), .word target]

def commandSymbols (items : List Item) : List Symbol :=
  items.flatMap itemSymbols

theorem commandSymbols_cons (item : Item) (items : List Item) :
    commandSymbols (item :: items) = itemSymbols item ++ commandSymbols items :=
  rfl

/-- The symbols of commands with pipe signs between them. -/
def pipelineSymbols (commands : List (List Item)) : List Symbol :=
  [.operator .pipe].intercalate (commands.map commandSymbols)

theorem symbols_of_derivesCommand
    {tokens : List Token} {tree : CommandTree}
    (derivation : DerivesCommand tokens tree) :
    tokens.map tokenSymbol = commandSymbols tree.items := by
  rcases tree with ⟨items, hasWord⟩
  change DerivesItems tokens items at derivation
  show tokens.map tokenSymbol = commandSymbols items
  clear hasWord
  induction derivation with
  | nil => rfl
  | cons first _ induction =>
      rw [List.map_append, induction, commandSymbols, commandSymbols,
        List.flatMap_append]
      congr 1
      cases first with
      | word isWord => simp [tokenSymbol, isWord, itemSymbols]
      | redirect isOperator isWord =>
          have isType := eq_operatorOf isOperator
          have notWord (redirection : Redirection) :
              operatorOf redirection ≠ .word := by
            rcases redirection with _ | (_ | _) | (_ | _) <;> nofun
          simp [tokenSymbol, isType, isWord, itemSymbols, notWord]

theorem symbols_of_derivesPipeline
    {tokens : List Token} {tree : PipelineTree}
    (derivation : DerivesPipeline tokens tree) :
    tokens.map tokenSymbol =
      pipelineSymbols ((tree.first :: tree.others).map CommandTree.items) := by
  induction derivation with
  | single first =>
      rw [symbols_of_derivesCommand first]
      exact (List.intercalate_singleton ..).symm
  | pipe first isPipe _ induction =>
      rw [List.map_append, List.map_cons, symbols_of_derivesCommand first,
        induction, tokenSymbol, if_neg (by rw [isPipe]; decide), isPipe]
      simp [pipelineSymbols, List.intercalate_cons_cons]

/-! ## Angle brackets -/

def isAngle (character : UInt8) : Bool :=
  character = lessThan || character = greaterThan

/-- The angle brackets of an operator. -/
def angles : TokenType → Nat
  | .redirectIn | .redirectOut | .redirectErr => 1
  | .redirectAppend | .redirectErrAppend => 2
  | _ => 0

def Symbol.weight : Symbol → Nat
  | .word value => value.countP isAngle
  | .operator type => angles type

def weight : List Symbol → Nat
  | [] => 0
  | symbol :: symbols => symbol.weight + weight symbols

theorem weight_append (symbols later : List Symbol) :
    weight (symbols ++ later) = weight symbols + weight later := by
  induction symbols with
  | nil => exact (Nat.zero_add _).symm
  | cons symbol symbols induction =>
      rw [List.cons_append, weight, induction, weight, Nat.add_assoc]

theorem doubleQuoted_angles
    {body value : ByteString} (quoted : DoubleQuoted body value) :
    body.countP isAngle = value.countP isAngle := by
  induction quoted with
  | nil => rfl
  | plain _ _ _ _ induction =>
      rw [List.countP_cons, List.countP_cons, induction]
  | pair character _ induction =>
      have noAngle : isAngle backslash = false := by decide
      have pair :
          (pairValue character).countP isAngle =
            [character].countP isAngle := by
        rw [pairValue]
        split <;> simp [List.countP_cons, noAngle]
      rw [List.countP_append, pair, ← induction]
      simp [List.countP_cons, noAngle, Nat.add_comm]

/-- Quoting takes no angle bracket away. -/
theorem fragments_angles
    {text value : ByteString} (fragments : Fragments text value) :
    text.countP isAngle = value.countP isAngle := by
  induction fragments with
  | nil => rfl
  | cons first _ induction =>
      rw [List.countP_append, List.countP_append, induction]
      congr 1
      cases first with
      | plain => rfl
      | escaped character =>
          rw [List.countP_cons_of_neg (by decide)]
      | single body _ =>
          rw [List.countP_cons_of_neg (by decide), List.countP_append]
          rfl
      | double quoted =>
          rw [List.countP_cons_of_neg (by decide), List.countP_append,
            doubleQuoted_angles quoted]
          rfl

theorem operator_angles
    {type : TokenType} {text : ByteString}
    (member : (type, text) ∈ operators) :
    text.countP isAngle = angles type := by
  have table :
      operators.all (fun entry =>
        entry.2.countP isAngle = angles entry.1) = true := by
    decide
  exact of_decide_eq_true (List.all_eq_true.mp table _ member)

theorem split_angles
    {input : ByteString} {lexemes : List Lexeme}
    (split : LexicalSplit input lexemes) :
    input.countP isAngle = weight (lexemeSymbols lexemes) := by
  induction split with
  | nil => rfl
  | space character isBlank _ induction =>
      have noAngle : ¬ isAngle character = true := by
        intro isBracket
        simp only [isAngle, Bool.or_eq_true, decide_eq_true_eq] at isBracket
        rcases isBracket with rfl | rfl <;> exact absurd isBlank (by decide)
      rw [List.countP_cons_of_neg noAngle]
      exact induction
  | word fragments _ _ _ _ induction =>
      rw [List.countP_append, fragments_angles fragments, induction]
      rfl
  | operator longest _ induction =>
      rw [List.countP_append, operator_angles longest.1, induction]
      rfl

/-! ## Overridden redirections -/

theorem weight_perm
    {items others : List Item} (permuted : items.Perm others) :
    weight (commandSymbols items) = weight (commandSymbols others) := by
  induction permuted with
  | nil => rfl
  | cons item _ induction =>
      simp only [commandSymbols, List.flatMap_cons, weight_append]
        at induction ⊢
      rw [induction]
  | swap item other items =>
      simp only [commandSymbols, List.flatMap_cons, weight_append]
      omega
  | trans _ _ first second => exact first.trans second

/-- The redirection of a stream, if there is one. -/
def streamItems (present : Bool) (redirection : Redirection)
    (target : ByteString) : List Item :=
  if present then [.redirect redirection target] else []

theorem streamItems_present (redirection : Redirection) (target : ByteString) :
    streamItems true redirection target = [.redirect redirection target] :=
  rfl

theorem canonicalItems_eq (command : Command) :
    canonicalItems command =
      command.args.map .word ++
        (streamItems command.hasInputRedirect .input command.inputFile ++
          (streamItems command.hasOutputRedirect
              (.output command.appendOutput) command.outputFile ++
            streamItems command.hasErrorRedirect (.error command.appendError)
              command.errorFile)) :=
  rfl

theorem mem_streamItems
    {present : Bool} {redirection : Redirection} {target : ByteString}
    {item : Item} (member : item ∈ streamItems present redirection target) :
    item = .redirect redirection target := by
  rw [streamItems] at member
  split at member
  · exact List.mem_singleton.mp member
  · cases member

/-- One more item replaces the redirection of its stream, if there is one. -/
theorem canonicalItems_applyItem (command : Command) (item : Item) :
    ∃ lost,
      (lost ++ canonicalItems (applyItem command item)).Perm
          (canonicalItems command ++ [item]) ∧
        ∀ old ∈ lost, old.argument = none := by
  have redirections {present redirection target} :
      ∀ old ∈ streamItems present redirection target,
        old.argument = none := by
    intro old member
    rw [mem_streamItems member]
    rfl
  simp only [canonicalItems_eq, List.perm_iff_count, List.count_append]
  rcases item with text | ⟨_ | append | append, target⟩
  · refine ⟨[], fun other => ?_, List.forall_mem_nil _⟩
    simp only [applyItem, List.map_append, List.map_singleton,
      List.count_append, List.count_nil]
    omega
  · refine ⟨streamItems command.hasInputRedirect .input command.inputFile,
      fun other => ?_, redirections⟩
    simp only [applyItem, streamItems_present]
    omega
  · refine ⟨streamItems command.hasOutputRedirect
      (.output command.appendOutput) command.outputFile,
      fun other => ?_, redirections⟩
    simp only [applyItem, streamItems_present]
    omega
  · refine ⟨streamItems command.hasErrorRedirect (.error command.appendError)
      command.errorFile, fun other => ?_, redirections⟩
    simp only [applyItem, streamItems_present]
    omega

/-- The items of a command are its canonical ones and the redirections that
are overridden. -/
theorem overridden (items : List Item) :
    ∃ lost,
      (lost ++ canonicalItems (denoteItems items)).Perm items ∧
        ∀ old ∈ lost, old.argument = none := by
  induction items using List.reverseRecOn with
  | nil => exact ⟨[], .nil, List.forall_mem_nil _⟩
  | append_singleton items item induction =>
      rcases induction with ⟨lost, permuted, redirections⟩
      rcases canonicalItems_applyItem (denoteItems items) item with
        ⟨more, stepPermuted, moreRedirections⟩
      refine ⟨lost ++ more, ?_,
        List.forall_mem_append.mpr ⟨redirections, moreRedirections⟩⟩
      rw [← foldl_applyItem, List.foldl_append, foldl_applyItem,
        List.append_assoc]
      refine (stepPermuted.append_left lost).trans ?_
      rw [← List.append_assoc]
      exact permuted.append_right [item]

theorem weight_redirection_pos
    {item : Item} (isRedirection : item.argument = none) :
    0 < weight (itemSymbols item) := by
  have positive (redirection : Redirection) :
      0 < angles (operatorOf redirection) := by
    rcases redirection with _ | (_ | _) | (_ | _) <;> decide
  cases item with
  | word text => cases isRedirection
  | redirect redirection target =>
      exact Nat.add_pos_left (positive redirection) _

/-- The canonical items weigh no more than the items, and as much only if
nothing is overridden. -/
theorem weight_canonicalItems (items : List Item) :
    weight (commandSymbols (canonicalItems (denoteItems items))) ≤
        weight (commandSymbols items) ∧
      (weight (commandSymbols (canonicalItems (denoteItems items))) =
          weight (commandSymbols items) →
        (canonicalItems (denoteItems items)).Perm items) := by
  rcases overridden items with ⟨lost, permuted, redirections⟩
  have total := weight_perm permuted
  rw [commandSymbols, List.flatMap_append, weight_append] at total
  constructor
  · simp only [commandSymbols] at total ⊢
    omega
  · intro same
    cases lost with
    | nil => exact permuted
    | cons old lost =>
        have positive :=
          weight_redirection_pos (redirections old List.mem_cons_self)
        rw [List.flatMap_cons, weight_append] at total
        simp only [commandSymbols] at total same
        omega

/-- The symbols of a pipeline with a pipe sign behind each command. -/
theorem pipelineSymbols_closed
    {commands : List (List Item)} (nonempty : commands ≠ []) :
    pipelineSymbols commands ++ [.operator .pipe] =
      commands.flatMap
        (fun items => commandSymbols items ++ [.operator .pipe]) := by
  induction commands with
  | nil => exact absurd rfl nonempty
  | cons items commands induction =>
      cases commands with
      | nil => simp [pipelineSymbols]
      | cons next commands =>
          rw [List.flatMap_cons, ← induction (List.cons_ne_nil _ _)]
          simp [pipelineSymbols, List.intercalate_cons_cons]

theorem mem_pipelineSymbols
    {commands : List (List Item)} {symbol : Symbol}
    (noPipe : symbol ≠ .operator .pipe) :
    symbol ∈ pipelineSymbols commands ↔
      ∃ items ∈ commands, ∃ item ∈ items, symbol ∈ itemSymbols item := by
  cases commands with
  | nil => simp [pipelineSymbols]
  | cons items commands =>
      have closed := pipelineSymbols_closed (List.cons_ne_nil items commands)
      have inClosed :
          symbol ∈ pipelineSymbols (items :: commands) ↔
            symbol ∈
              pipelineSymbols (items :: commands) ++ [.operator .pipe] := by
        simp [noPipe]
      rw [inClosed, closed]
      simp [commandSymbols, noPipe]

/-- If the symbols of a pipeline weigh as much as its canonical form, nothing
is overridden in any command. -/
theorem perm_of_weight
    {commands : List (List Item)}
    (same :
      weight (commands.flatMap fun items =>
        commandSymbols (canonicalItems (denoteItems items)) ++
          [.operator .pipe]) =
      weight (commands.flatMap fun items =>
        commandSymbols items ++ [.operator .pipe])) :
    ∀ items ∈ commands,
      (canonicalItems (denoteItems items)).Perm items := by
  have lighter (commands : List (List Item)) :
      weight (commands.flatMap fun items =>
        commandSymbols (canonicalItems (denoteItems items)) ++
          [.operator .pipe]) ≤
      weight (commands.flatMap fun items =>
        commandSymbols items ++ [.operator .pipe]) := by
    induction commands with
    | nil => exact Nat.le_refl _
    | cons items commands induction =>
        have first := (weight_canonicalItems items).1
        simp only [List.flatMap_cons, weight_append]
        omega
  induction commands with
  | nil => exact List.forall_mem_nil _
  | cons items commands induction =>
      have first := weight_canonicalItems items
      have later := lighter commands
      simp only [List.flatMap_cons, weight_append] at same
      exact List.forall_mem_cons.mpr
        ⟨first.2 (by omega), induction (by omega)⟩

/-! ## The first difference -/

/-- Items in another order than the canonical ones, with the same
arguments. -/
structure Rearranged (canonical items : List Item) : Prop where
  permuted : canonical.Perm items
  arguments :
    canonical.filterMap Item.argument = items.filterMap Item.argument
  single :
    ∀ redirection target other,
      .redirect redirection target ∈ canonical →
        .redirect redirection other ∈ canonical → target = other

/-- The file that a redirection of the command names. -/
def targetOf (command : Command) : Redirection → ByteString
  | .input => command.inputFile
  | .output _ => command.outputFile
  | .error _ => command.errorFile

theorem redirect_mem_canonicalItems
    {command : Command} {redirection : Redirection} {target : ByteString}
    (member : .redirect redirection target ∈ canonicalItems command) :
    target = targetOf command redirection := by
  simp only [canonicalItems_eq, List.mem_append] at member
  rcases member with isWord | isInput | isOutput | isError
  · rcases List.mem_map.mp isWord with ⟨_, _, same⟩
    cases same
  · cases mem_streamItems isInput
    rfl
  · cases mem_streamItems isOutput
    rfl
  · cases mem_streamItems isError
    rfl

theorem arguments_canonicalItems (command : Command) :
    (canonicalItems command).filterMap Item.argument = command.args := by
  have none {present redirection target} :
      (streamItems present redirection target).filterMap Item.argument =
        [] := by
    rw [List.filterMap_eq_nil_iff]
    intro item member
    rw [mem_streamItems member]
    rfl
  simp only [canonicalItems_eq, List.filterMap_append, none, List.append_nil]
  rw [List.filterMap_map]
  exact List.filterMap_some

theorem rearranged_canonicalItems
    {items : List Item}
    (permuted : (canonicalItems (denoteItems items)).Perm items) :
    Rearranged (canonicalItems (denoteItems items)) items where
  permuted := permuted
  arguments := arguments_canonicalItems _
  single := by
    intro redirection target other isTarget isOther
    rw [redirect_mem_canonicalItems isTarget,
      redirect_mem_canonicalItems isOther]

theorem Rearranged.tail
    {item : Item} {canonical items : List Item}
    (rearranged : Rearranged (item :: canonical) (item :: items)) :
    Rearranged canonical items where
  permuted := rearranged.permuted.cons_inv
  arguments := by
    have arguments := rearranged.arguments
    rw [List.filterMap_cons, List.filterMap_cons] at arguments
    cases item <;> simpa [Item.argument] using arguments
  single := fun redirection target other isTarget isOther =>
    rearranged.single redirection target other
      (List.mem_cons_of_mem _ isTarget) (List.mem_cons_of_mem _ isOther)

/-- Rearranged items do not differ first in the value of a word. -/
theorem Rearranged.first_word
    {canonical items : List Item} (rearranged : Rearranged canonical items)
    {front behind more : List Symbol} {value other : ByteString}
    (first : commandSymbols canonical = front ++ .word value :: behind)
    (second : commandSymbols items = front ++ .word other :: more) :
    value = other := by
  induction canonical generalizing items front with
  | nil => simp [commandSymbols] at first
  | cons item canonical induction =>
      cases items with
      | nil => simp [commandSymbols] at second
      | cons found items =>
          -- The first items are equal, or the words of the first items are
          -- what differs.
          have goOn {rest : List Symbol} (same : item = found)
              (later :
                commandSymbols canonical = rest ++ .word value :: behind)
              (laterFound :
                commandSymbols items = rest ++ .word other :: more) :
              value = other := by
            subst same
            exact induction rearranged.tail later laterFound
          rw [commandSymbols_cons] at first second
          rcases item with text | ⟨redirection, target⟩ <;>
            rcases found with foundText | ⟨foundRedirection, foundTarget⟩
          · rcases front with _ | ⟨symbol, front⟩
            · cases first
              cases second
              exact (List.cons.inj rearranged.arguments).1
            · rcases List.cons.inj first with ⟨rfl, later⟩
              rcases List.cons.inj second with ⟨same, laterFound⟩
              cases same
              exact goOn rfl later laterFound
          · rcases front with _ | ⟨symbol, front⟩
            · cases second
            · rcases List.cons.inj first with ⟨rfl, -⟩
              cases second
          · rcases front with _ | ⟨symbol, front⟩
            · cases first
            · rcases List.cons.inj first with ⟨rfl, -⟩
              cases second
          · rcases front with _ | ⟨symbol, _ | ⟨next, front⟩⟩
            · cases first
            · rcases List.cons.inj first with ⟨rfl, word⟩
              rcases List.cons.inj second with ⟨sameOperator, foundWord⟩
              cases word
              cases foundWord
              cases operatorOf_injective (Symbol.operator.inj sameOperator)
              exact rearranged.single _ _ _ List.mem_cons_self
                (rearranged.permuted.mem_iff.mpr List.mem_cons_self)
            · rcases List.cons.inj first with ⟨rfl, restFirst⟩
              rcases List.cons.inj restFirst with ⟨rfl, later⟩
              rcases List.cons.inj second with ⟨sameOperator, restSecond⟩
              rcases List.cons.inj restSecond with ⟨sameTarget, laterFound⟩
              cases operatorOf_injective (Symbol.operator.inj sameOperator)
              cases sameTarget
              exact goOn rfl later laterFound

theorem Rearranged.length_eq
    {canonical items : List Item} (rearranged : Rearranged canonical items) :
    (commandSymbols canonical).length = (commandSymbols items).length :=
  (rearranged.permuted.flatMap_right itemSymbols).length_eq

/-- The same for the commands of a pipeline. -/
theorem first_word_pipeline
    {commands : List (List Item)}
    (rearranged :
      ∀ items ∈ commands,
        Rearranged (canonicalItems (denoteItems items)) items)
    {front behind more : List Symbol} {value other : ByteString}
    (first :
      (commands.flatMap fun items =>
        commandSymbols (canonicalItems (denoteItems items)) ++
          [.operator .pipe]) = front ++ .word value :: behind)
    (second :
      (commands.flatMap fun items =>
        commandSymbols items ++ [.operator .pipe]) =
          front ++ .word other :: more) :
    value = other := by
  induction commands generalizing front with
  | nil => simp at first
  | cons items commands induction =>
      rcases List.forall_mem_cons.mp rearranged with ⟨here, later⟩
      rw [List.flatMap_cons, List.append_assoc] at first second
      rcases List.append_eq_append_iff.mp first with
        ⟨rest, rfl, behindFirst⟩ | ⟨rest, inside, behindFirst⟩
      · -- The first command is part of what the two have in common.
        rw [List.append_assoc] at second
        rcases List.append_inj second here.length_eq.symm with
          ⟨-, behindSecond⟩
        rcases rest with _ | ⟨bar, rest⟩
        · cases behindFirst
        · exact induction later (List.cons.inj behindFirst).2
            (List.cons.inj behindSecond).2
      · rcases rest with _ | ⟨word, rest⟩
        · cases behindFirst
        cases behindFirst
        have longer : front.length < (commandSymbols items).length := by
          rw [← here.length_eq, inside, List.length_append]
          exact Nat.lt_add_of_pos_right (Nat.succ_pos _)
        rcases List.append_eq_append_iff.mp second with
          ⟨more, rfl, -⟩ | ⟨more, insideSecond, behindSecond⟩
        · rw [List.length_append] at longer
          omega
        · rcases more with _ | ⟨word, more⟩
          · rw [insideSecond, List.append_nil] at longer
            exact absurd longer (Nat.lt_irrefl _)
          · cases behindSecond
            exact here.first_word inside insideSecond

/-- A pipeline that weighs as much as its canonical form does not differ from
it first in the value of a word. -/
theorem first_word_of_weight
    {commands : List (List Item)}
    (same :
      weight (pipelineSymbols
        (commands.map fun items => canonicalItems (denoteItems items))) =
      weight (pipelineSymbols commands))
    {front behind more : List Symbol} {value other : ByteString}
    (first :
      pipelineSymbols
          (commands.map fun items => canonicalItems (denoteItems items)) =
        front ++ .word value :: behind)
    (second : pipelineSymbols commands = front ++ .word other :: more) :
    value = other := by
  have nonempty : commands ≠ [] := by
    rintro rfl
    simp [pipelineSymbols] at second
  have closed := pipelineSymbols_closed nonempty
  have canonicalClosed :=
    pipelineSymbols_closed
      (mt List.map_eq_nil_iff.mp nonempty :
        commands.map (fun items => canonicalItems (denoteItems items)) ≠ [])
  rw [List.flatMap_map] at canonicalClosed
  have closedWeight :=
    congrArg (fun total => total + weight [.operator .pipe]) same
  simp only [← weight_append, closed, canonicalClosed] at closedWeight
  rw [first, List.append_assoc] at canonicalClosed
  rw [second, List.append_assoc] at closed
  exact first_word_pipeline
    (fun items isCommand =>
      rearranged_canonicalItems (perm_of_weight closedWeight items isCommand))
    canonicalClosed.symm closed.symm

end Shell.Symbols
