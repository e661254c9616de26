import Shell.Parsing.PlanPrinter

/-!
# Joining command lines

Two lines that parse may be joined by a list operator or a pipe sign without
any blank between them.  The last byte of the first line belongs to a word or
is white space, since its last step is not in the background, and the first
byte of the second one belongs to a word, is white space or opens a
redirection.  Therefore the lexer cuts the joined text at the seam, and the
parser puts the two sequences together there.
-/

namespace Shell.Composition

open Shell.Syntax
open Shell.MaximalMunch
open Shell.Lexer
open Shell.LexicalGrammar
open Shell.LexerCorrectness
open Shell.CommandParser
open Shell.CommandGrammar
open Shell.ParserCorrectness
open Shell.PlanPrinter

/-! ## Splits side by side -/

/-- The first bytes of the operators that may stand at a seam. -/
def seamBytes : List UInt8 :=
  [ampersand, verticalBar, semicolon]

/-- A word or white space is the last piece, if there is one. -/
def EndsInText (lexemes : List Lexeme) : Prop :=
  ∀ earlier type text, lexemes ≠ earlier ++ [.operator type text]

theorem EndsInText.tail
    {lexeme : Lexeme} {lexemes : List Lexeme}
    (ends : EndsInText (lexeme :: lexemes)) :
    EndsInText lexemes := by
  rintro earlier type text rfl
  exact ends (lexeme :: earlier) type text rfl

/-- A digit that opens an operator also opens a word. -/
theorem operatorHead_cases
    {character : UInt8} (isHead : character ∈ operatorHeads) :
    character ∈
        [ampersand, verticalBar, semicolon, lessThan, greaterThan] ∨
      isSpace character = false ∧ character ∉ specialBytes := by
  have table :
      operatorHeads.all
        (fun head =>
          head ∈
              [ampersand, verticalBar, semicolon, lessThan,
                greaterThan] ∨
            isSpace head = false ∧ head ∉ specialBytes) = true := by
    decide
  exact of_decide_eq_true (List.all_eq_true.mp table _ isHead)

/-- What stands behind a maximal word cannot be continued to a fragment. -/
theorem not_startsFragment_append
    {rest : ByteString} {lexemes : List Lexeme}
    (split : LexicalSplit rest lexemes)
    (notStarted : ¬ StartsFragment rest)
    {character : UInt8} (atSeam : character ∈ seamBytes)
    (behind : ByteString) :
    ¬ StartsFragment (rest ++ character :: behind) := by
  cases split with
  | nil =>
      have isOperator :
          seamBytes ⊆
            [ampersand, verticalBar, semicolon, lessThan, greaterThan] := by
        simp [seamBytes]
      exact not_startsFragment_operator (isOperator atSeam) behind
  | space _ isBlank _ => exact not_startsFragment_space isBlank _
  | word fragments nonempty _ _ _ =>
      rcases fragments.exists_first nonempty with
        ⟨first, value, later, _, fragment, _, rfl, _⟩
      exact absurd ⟨first, value, _, fragment, List.append_assoc _ _ _⟩
        notStarted
  | @operator type text rest lexemes longest _ =>
      have nonempty := longest.text_ne_nil
      cases text with
      | nil => exact absurd rfl nonempty
      | cons head text =>
          rcases operatorHead_cases longest.startsOperator.head_mem with
            isOperator | ⟨notSpace, notSpecial⟩
          · exact not_startsFragment_operator isOperator _
          · exact absurd
              (Starts.intro (Fragment.plain head notSpace notSpecial) _)
              notStarted

/-- No operator begins in front of a seam and ends behind it. -/
theorem not_startsOperator_append
    {front : ByteString} (nonempty : front ≠ [])
    (notStarted : ¬ StartsOperator front)
    {character : UInt8} (atSeam : character ∈ seamBytes)
    (behind : ByteString) :
    ¬ StartsOperator (front ++ character :: behind) := by
  have table :
      ∀ entry ∈ operators, ∀ cut < entry.2.length, cut ≠ 0 →
        StartsOperator (entry.2.take cut) ∨
          entry.2[cut]?.all (fun byte => byte ∉ seamBytes) = true := by
    decide
  rintro ⟨entry, member, isPrefix⟩
  by_cases fits : entry.2.length ≤ front.length
  · exact notStarted
      ⟨entry, member,
        List.prefix_of_prefix_length_le isPrefix
          (List.prefix_append front _) fits⟩
  · rcases List.prefix_of_prefix_length_le (List.prefix_append front _)
      isPrefix (Nat.le_of_not_le fits) with ⟨more, split⟩
    rcases table entry member front.length (Nat.lt_of_not_le fits)
        (fun zero => nonempty (List.length_eq_zero_iff.mp zero)) with
      started | notSeam
    · rw [← split, List.take_left] at started
      exact notStarted started
    · rw [← split, List.prefix_append_right_inj] at isPrefix
      cases more with
      | nil => simp [← split] at fits
      | cons head more =>
          rcases isPrefix with ⟨tail, equal⟩
          have isHead : head = character := (List.cons.inj equal).1
          simp [← split, isHead, atSeam] at notSeam

/-- An operator is not continued by what stands behind the next byte. -/
theorem LongestOperator.append
    {type : TokenType} {text rest : ByteString}
    (longest : LongestOperator type text (text ++ rest))
    (nonempty : rest ≠ []) (behind : ByteString) :
    LongestOperator type text (text ++ (rest ++ behind)) := by
  have table :
      ∀ entry ∈ operators, ∀ other ∈ operators, entry.2 <+: other.2 →
        other.2.length ≤ entry.2.length + 1 := by
    decide
  rcases longest with ⟨member, _, maximal⟩
  refine ⟨member, List.prefix_append _ _, ?_⟩
  intro other otherMember isPrefix
  by_contra longer
  have continued : text <+: other.2 :=
    List.prefix_of_prefix_length_le (List.prefix_append _ _) isPrefix
      (Nat.le_of_not_le longer)
  have bound : other.2.length ≤ text.length + 1 :=
    table (type, text) member other otherMember continued
  have restLength : 0 < rest.length := List.length_pos_iff.mpr nonempty
  rw [← List.append_assoc] at isPrefix
  have inside : other.2 <+: text ++ rest := by
    apply List.prefix_of_prefix_length_le isPrefix (List.prefix_append _ _)
    rw [List.length_append]
    omega
  exact longer (maximal other otherMember inside)

/-- Splits may be put side by side at a seam. -/
theorem LexicalSplit.append
    {text behind : ByteString} {lexemes later : List Lexeme}
    {character : UInt8}
    (split : LexicalSplit text lexemes) (ends : EndsInText lexemes)
    (atSeam : character ∈ seamBytes)
    (laterSplit : LexicalSplit (character :: behind) later) :
    LexicalSplit (text ++ character :: behind) (lexemes ++ later) := by
  induction split with
  | nil => exact laterSplit
  | space blank isBlank _ induction =>
      exact .space blank isBlank (induction ends.tail)
  | word fragments nonempty maximal noOperator restSplit induction =>
      rw [List.append_assoc]
      refine .word fragments nonempty
        (not_startsFragment_append restSplit maximal atSeam behind) ?_
        (induction ends.tail)
      rw [← List.append_assoc]
      apply not_startsOperator_append _ noOperator atSeam
      simp [nonempty]
  | @operator type text rest lexemes longest restSplit induction =>
      rw [List.append_assoc]
      refine .operator (LongestOperator.append longest ?_ _)
        (induction ends.tail)
      rintro rfl
      rw [restSplit.unique .nil] at ends
      exact ends [] type text rfl

/-! ## Positions do not matter -/

/-- The part of a token that the parser reads. -/
def shape (token : Token) : TokenType × ByteString :=
  (token.type, token.text)

theorem shape_lexemeTokens
    (position other : Nat) (lexemes : List Lexeme) :
    (lexemeTokens position lexemes).map shape =
      (lexemeTokens other lexemes).map shape := by
  induction lexemes generalizing position other with
  | nil => rfl
  | cons lexeme lexemes induction =>
      cases lexeme with
      | space character => exact induction _ _
      | word text value =>
          exact congrArg (List.cons _) (induction _ _)
      | operator type text =>
          exact congrArg (List.cons _) (induction _ _)

theorem DerivesItem.of_shape
    {tokens others : List Token} {items : List Item}
    (derivation : DerivesItem tokens items)
    (same : others.map shape = tokens.map shape) :
    DerivesItem others items := by
  cases derivation with
  | word isWord =>
      rcases List.map_eq_singleton_iff.mp same with ⟨token, rfl, equal⟩
      rcases Prod.mk.inj equal with ⟨sameType, sameText⟩
      rw [← sameText]
      exact .word (sameType.trans isWord)
  | redirect isOperator isWord =>
      rcases List.map_eq_cons_iff.mp same with
        ⟨operator, rest, rfl, sameOperator, sameRest⟩
      rcases List.map_eq_singleton_iff.mp sameRest with
        ⟨target, rfl, sameTarget⟩
      rcases Prod.mk.inj sameOperator with ⟨operatorType, _⟩
      rcases Prod.mk.inj sameTarget with ⟨targetType, targetText⟩
      rw [← targetText]
      exact .redirect (operatorType ▸ isOperator)
        (targetType.trans isWord)

theorem DerivesCommand.of_shape
    {tokens others : List Token} {tree : CommandTree}
    (derivation : DerivesCommand tokens tree)
    (same : others.map shape = tokens.map shape) :
    DerivesCommand others tree := by
  rcases tree with ⟨items, hasWord⟩
  change DerivesItems tokens items at derivation
  show DerivesItems others items
  clear hasWord
  induction derivation generalizing others with
  | nil =>
      rw [List.map_eq_nil_iff.mp same]
      exact .nil
  | cons first _ induction =>
      rw [List.map_append] at same
      rcases List.map_eq_append_iff.mp same with
        ⟨front, rest, rfl, sameFront, sameRest⟩
      exact .cons (DerivesItem.of_shape first sameFront)
        (induction sameRest)

/-- Two parts with a token between them, seen from another token list. -/
theorem shape_split
    {others tokens later : List Token} {token : Token}
    (same : others.map shape = (tokens ++ token :: later).map shape) :
    ∃ front middle rest,
      others = front ++ middle :: rest ∧
        front.map shape = tokens.map shape ∧
        middle.type = token.type ∧
        rest.map shape = later.map shape := by
  rw [List.map_append] at same
  rcases List.map_eq_append_iff.mp same with
    ⟨front, back, rfl, sameFront, sameBack⟩
  rcases List.map_eq_cons_iff.mp sameBack with
    ⟨middle, rest, rfl, sameMiddle, sameRest⟩
  exact ⟨front, middle, rest, rfl, sameFront,
    congrArg Prod.fst sameMiddle, sameRest⟩

theorem DerivesPipeline.of_shape
    {tokens others : List Token} {tree : PipelineTree}
    (derivation : DerivesPipeline tokens tree)
    (same : others.map shape = tokens.map shape) :
    DerivesPipeline others tree := by
  induction derivation generalizing others with
  | single first => exact .single (DerivesCommand.of_shape first same)
  | pipe first isPipe _ induction =>
      rcases shape_split same with
        ⟨front, bar, rest, rfl, sameFront, sameType, sameRest⟩
      exact .pipe (DerivesCommand.of_shape first sameFront)
        (sameType.trans isPipe) (induction sameRest)

theorem DerivesSequence.of_shape
    {tokens others : List Token} {tree : SequenceTree}
    (derivation : DerivesSequence tokens tree)
    (same : others.map shape = tokens.map shape) :
    DerivesSequence others tree := by
  induction derivation generalizing others with
  | last first => exact .last (DerivesPipeline.of_shape first same)
  | lastBackground first isBackground =>
      rcases shape_split same with
        ⟨front, mark, rest, rfl, sameFront, sameType, sameRest⟩
      rw [List.map_eq_nil_iff.mp sameRest]
      exact .lastBackground (DerivesPipeline.of_shape first sameFront)
        (sameType.trans isBackground)
  | background first isBackground _ induction =>
      rcases shape_split same with
        ⟨front, mark, rest, rfl, sameFront, sameType, sameRest⟩
      exact .background (DerivesPipeline.of_shape first sameFront)
        (sameType.trans isBackground) (induction sameRest)
  | chain first isOperator _ induction =>
      rcases shape_split same with
        ⟨front, operator, rest, rfl, sameFront, sameType, sameRest⟩
      exact .chain (DerivesPipeline.of_shape first sameFront)
        (sameType ▸ isOperator) (induction sameRest)

/-! ## The ends of a line -/

/-- The last token is a word. -/
def EndsInWord (tokens : List Token) : Prop :=
  ∃ earlier word, tokens = earlier ++ [word] ∧ word.type = .word

theorem EndsInWord.append
    {tokens : List Token} (ends : EndsInWord tokens)
    (earlier : List Token) :
    EndsInWord (earlier ++ tokens) := by
  rcases ends with ⟨front, word, rfl, isWord⟩
  exact ⟨earlier ++ front, word, (List.append_assoc _ _ _).symm, isWord⟩

theorem DerivesCommand.endsInWord
    {tokens : List Token} {tree : CommandTree}
    (derivation : DerivesCommand tokens tree) :
    EndsInWord tokens := by
  have nonempty := derivation.ne_nil
  rcases tree with ⟨items, hasWord⟩
  change DerivesItems tokens items at derivation
  clear hasWord
  induction derivation with
  | nil => exact absurd rfl nonempty
  | @cons text value texts values first later induction =>
      by_cases isLast : texts = []
      · subst isLast
        rw [List.append_nil]
        cases first with
        | word isWord => exact ⟨[], _, rfl, isWord⟩
        | redirect _ isWord => exact ⟨[_], _, rfl, isWord⟩
      · exact (induction isLast).append text

theorem DerivesPipeline.endsInWord
    {tokens : List Token} {tree : PipelineTree}
    (derivation : DerivesPipeline tokens tree) :
    EndsInWord tokens := by
  induction derivation with
  | single first => exact DerivesCommand.endsInWord first
  | @pipe tokens laterTokens bar _ _ _ _ _ _ induction =>
      rw [← List.singleton_append, ← List.append_assoc]
      exact induction.append _

/-! ## Sequences side by side -/

/-- The last step is not in the background. -/
def EndsInForeground (steps : List PipelineStep) : Prop :=
  ∀ earlier last, steps = earlier ++ [last] →
    last.pipeline.background = false

theorem EndsInForeground.tail
    {step : PipelineStep} {steps : List PipelineStep}
    (ends : EndsInForeground (step :: steps)) :
    EndsInForeground steps := by
  rintro earlier last rfl
  exact ends (step :: earlier) last rfl

/--
The last pipeline of a sequence: where it stands in the plan, and what a
continuation of it makes of the whole sequence.
-/
theorem DerivesSequence.last_pipeline
    {tokens : List Token} {tree : SequenceTree}
    (derivation : DerivesSequence tokens tree) (connector : ChainOperator)
    (ends : EndsInForeground (tree.denote connector)) :
    EndsInWord tokens ∧
      ∃ initial last pipeline,
        tree.denote connector =
            initial ++ [⟨last, ⟨PipelineTree.denote pipeline, false⟩⟩] ∧
          ∀ suffix following,
            (∀ front, DerivesPipeline front pipeline →
              DerivesSequence (front ++ suffix) following) →
            ∃ whole,
              DerivesSequence (tokens ++ suffix) whole ∧
                whole.denote connector =
                  initial ++ following.denote last := by
  induction derivation generalizing connector with
  | last first =>
      refine ⟨DerivesPipeline.endsInWord first, [], connector, _, rfl, ?_⟩
      intro suffix following continued
      exact ⟨following, continued _ first, rfl⟩
  | lastBackground first _ => cases ends [] _ rfl
  | @background tokens later mark pipeline _ first isBackground _
      induction =>
      rcases induction .always (EndsInForeground.tail ends) with
        ⟨endsInWord, initial, last, lastPipeline, steps, extension⟩
      refine ⟨?_, ⟨connector, ⟨pipeline.denote, true⟩⟩ :: initial, last,
        lastPipeline, congrArg (List.cons _) steps, ?_⟩
      · rw [← List.singleton_append, ← List.append_assoc]
        exact endsInWord.append _
      · intro suffix following continued
        rcases extension suffix following continued with
          ⟨whole, derived, denoted⟩
        refine ⟨.background pipeline whole, ?_,
          congrArg (List.cons _) denoted⟩
        rw [List.append_assoc]
        exact .background first isBackground derived
  | @chain tokens later operator pipeline next _ first isOperator _
      induction =>
      rcases induction next (EndsInForeground.tail ends) with
        ⟨endsInWord, initial, last, lastPipeline, steps, extension⟩
      refine ⟨?_, ⟨connector, ⟨pipeline.denote, false⟩⟩ :: initial, last,
        lastPipeline, congrArg (List.cons _) steps, ?_⟩
      · rw [← List.singleton_append, ← List.append_assoc]
        exact endsInWord.append _
      · intro suffix following continued
        rcases extension suffix following continued with
          ⟨whole, derived, denoted⟩
        refine ⟨.chain pipeline next whole, ?_,
          congrArg (List.cons _) denoted⟩
        rw [List.append_assoc]
        exact .chain first isOperator derived

/-- The connector shows in the first step alone. -/
theorem denote_connector
    {tree : SequenceTree} {first : PipelineStep}
    {later : List PipelineStep} {connector : ChainOperator}
    (denoted : tree.denote connector = first :: later)
    (other : ChainOperator) :
    tree.denote other = { first with connector := other } :: later := by
  cases tree <;>
    · rcases List.cons.inj denoted with ⟨rfl, rfl⟩
      rfl

/-- One pipeline behind the other. -/
def joinPipes (front later : PipelineTree) : PipelineTree :=
  ⟨front.first, front.others ++ later.first :: later.others⟩

theorem denote_joinPipes (front later : PipelineTree) :
    (joinPipes front later).denote = front.denote ++ later.denote := by
  simp [joinPipes, PipelineTree.denote]

theorem derivesPipeline_joinPipes
    {tokens laterTokens : List Token} {bar : Token}
    {front later : PipelineTree}
    (derivation : DerivesPipeline tokens front)
    (isPipe : bar.type = .pipe)
    (laterDerivation : DerivesPipeline laterTokens later) :
    DerivesPipeline (tokens ++ bar :: laterTokens)
      (joinPipes front later) := by
  induction derivation with
  | single first => exact .pipe first isPipe laterDerivation
  | pipe first isBar _ induction =>
      rw [List.append_assoc]
      exact .pipe first isBar induction

/-- The pipeline goes on with the first pipeline of the sequence. -/
def pipeInto (front : PipelineTree) : SequenceTree → SequenceTree
  | .last pipeline => .last (joinPipes front pipeline)
  | .lastBackground pipeline => .lastBackground (joinPipes front pipeline)
  | .background pipeline later =>
      .background (joinPipes front pipeline) later
  | .chain pipeline connector later =>
      .chain (joinPipes front pipeline) connector later

theorem derivesSequence_pipeInto
    {tokens laterTokens : List Token} {bar : Token} {front : PipelineTree}
    {later : SequenceTree}
    (derivation : DerivesPipeline tokens front)
    (isPipe : bar.type = .pipe)
    (laterDerivation : DerivesSequence laterTokens later) :
    DerivesSequence (tokens ++ bar :: laterTokens)
      (pipeInto front later) := by
  cases laterDerivation with
  | last pipeline =>
      exact .last (derivesPipeline_joinPipes derivation isPipe pipeline)
  | lastBackground pipeline isBackground =>
      rw [← List.cons_append, ← List.append_assoc]
      exact .lastBackground
        (derivesPipeline_joinPipes derivation isPipe pipeline) isBackground
  | background pipeline isBackground rest =>
      rw [← List.cons_append, ← List.append_assoc]
      exact .background
        (derivesPipeline_joinPipes derivation isPipe pipeline) isBackground
        rest
  | chain pipeline isOperator rest =>
      rw [← List.cons_append, ← List.append_assoc]
      exact .chain
        (derivesPipeline_joinPipes derivation isPipe pipeline) isOperator
        rest

theorem denote_pipeInto
    {front : PipelineTree} {tree : SequenceTree} {first : PipelineStep}
    {later : List PipelineStep} {connector : ChainOperator}
    (denoted : tree.denote connector = first :: later)
    (other : ChainOperator) :
    (pipeInto front tree).denote other =
      ⟨other, ⟨front.denote ++ first.pipeline.commands,
        first.pipeline.background⟩⟩ :: later := by
  cases tree <;>
    · rcases List.cons.inj denoted with ⟨rfl, rfl⟩
      simp only [pipeInto, SequenceTree.denote, denote_joinPipes]

/-! ## Lines -/

/-- A line with a plan that is not empty, as a split and a derivation. -/
theorem parseLine_inversion
    {input : ByteString} {steps : List PipelineStep}
    (parsed : parseLine input = some ⟨⟨steps⟩, []⟩)
    (nonempty : steps ≠ []) :
    ∃ lexemes tree,
      LexicalSplit input lexemes ∧
        DerivesSequence (lexemeTokens 0 lexemes) tree ∧
        tree.denote .always = steps := by
  rw [parseLine] at parsed
  by_cases lexed : (lex input).ok = true
  · rcases split_of_lex lexed with ⟨lexemes, split⟩
    rcases parse_outcome (endTerminated_of_split split) with
      ⟨result, returned, outcome⟩
    simp only [lexed, if_true, returned, Option.some.injEq] at parsed
    subst parsed
    rcases outcome with failed | ⟨_, tree, derivation, plan⟩
    · have noEmpty : [] ∉ syntaxErrors := by decide
      exact absurd failed noEmpty
    · have isSteps : (denoteLine tree).steps = steps := by rw [← plan]
      generalize source : (lex input).tokens = tokens at derivation
      rw [lex_of_split split] at source
      cases derivation with
      | empty isEnd => exact absurd isSteps.symm nonempty
      | @sequence consumed final sequence derived isEnd =>
          rcases List.append_inj' source rfl with ⟨rfl, _⟩
          exact ⟨lexemes, sequence, split, derived, isSteps⟩
  · simp only [lexed, Bool.false_eq_true, if_false, Option.some.injEq,
      ParseResult.mk.injEq, ExecutionPlan.mk.injEq] at parsed
    exact absurd parsed.1.symm nonempty

theorem operator_mem_of_split
    {input : ByteString} {lexemes : List Lexeme}
    (split : LexicalSplit input lexemes)
    {type : TokenType} {text : ByteString}
    (member : Lexeme.operator type text ∈ lexemes) :
    (type, text) ∈ operators := by
  induction split with
  | nil => simp at member
  | space _ _ _ induction =>
      exact induction (by simpa using member)
  | word _ _ _ _ _ induction =>
      exact induction (by simpa using member)
  | operator longest _ induction =>
      rcases List.mem_cons.mp member with isFirst | later
      · cases isFirst
        exact longest.1
      · exact induction later

/-- A line whose last token is a word does not end in an operator. -/
theorem endsInText_of_endsInWord
    {input : ByteString} {lexemes : List Lexeme}
    (split : LexicalSplit input lexemes)
    (ends : EndsInWord (lexemeTokens 0 lexemes)) :
    EndsInText lexemes := by
  have notWord : ∀ entry ∈ operators, entry.1 ≠ .word := by decide
  rintro earlier type text rfl
  rcases ends with ⟨front, word, tokens, isWord⟩
  rw [lexemeTokens_append] at tokens
  have isLast := (List.append_inj' tokens rfl).2
  rcases List.cons.inj isLast with ⟨rfl, _⟩
  exact notWord (type, text) (operator_mem_of_split split (by simp)) isWord

/-- A derived line does not open with a list operator or a pipe sign. -/
theorem head_not_seam
    {input : ByteString} {lexemes : List Lexeme} {position : Nat}
    {tree : SequenceTree}
    (split : LexicalSplit input lexemes)
    (derivation : DerivesSequence (lexemeTokens position lexemes) tree) :
    ∀ character ∈ input.head?, character ∉ seamBytes := by
  have isOperator :
      seamBytes ⊆
        [ampersand, verticalBar, semicolon, lessThan, greaterThan] := by
    simp [seamBytes]
  intro character isHead atSeam
  cases split with
  | nil => simp at isHead
  | space blank isBlank _ =>
      have notBlank :
          seamBytes.all (fun byte => !isSpace byte) = true := by
        decide
      have notSpace := List.all_eq_true.mp notBlank character atSeam
      cases isHead
      simp [isBlank] at notSpace
  | @word text value rest _ fragments nonempty _ _ _ =>
      rcases fragments.exists_first nonempty with
        ⟨first, firstValue, later, _, fragment, _, rfl, _⟩
      have notStarted :=
        not_startsFragment_operator (isOperator atSeam)
          ((first ++ later ++ rest).tail)
      rw [List.cons_head?_tail isHead, List.append_assoc] at notStarted
      exact notStarted (Starts.intro fragment _)
  | @operator type text rest _ longest _ =>
      have table :
          ∀ entry ∈ operators, StartsItem entry.1 →
            entry.2.head?.all (fun byte => byte ∉ seamBytes) = true := by
        decide
      rcases derivation.head_startsItem with ⟨token, others, tokens, starts⟩
      rcases List.cons.inj tokens with ⟨rfl, _⟩
      have notSeam := table (type, text) longest.1 starts
      have textHead : text.head? = some character := by
        rw [List.head?_append_of_ne_nil _ longest.text_ne_nil] at isHead
        exact isHead
      simp [textHead, atSeam] at notSeam

/-- An operator at a seam is not continued by the line behind it. -/
theorem longestOperator_seam
    {type : TokenType} {operator rest : ByteString} {character : UInt8}
    {more : ByteString}
    (member : (type, operator) ∈ operators)
    (opens : operator = character :: more)
    (atSeam : character ∈ seamBytes)
    (stops : ∀ byte ∈ rest.head?, byte ∉ seamBytes) :
    LongestOperator type operator (operator ++ rest) := by
  have table :
      operators.all
        (fun entry =>
          entry.2.head?.any (fun byte => byte ∉ seamBytes) ||
            entry.2.all (fun byte => byte ∈ seamBytes)) = true := by
    decide
  apply longestOperator_of_next member
  intro next isNext entry entryMember isPrefix
  rcases isPrefix with ⟨tail, equal⟩
  have row := List.all_eq_true.mp table entry entryMember
  have isSeam : next ∈ seamBytes := by
    rw [← equal, opens] at row
    simp only [List.cons_append, List.head?_cons, Option.any_some, atSeam,
      not_true_eq_false, decide_false, Bool.false_or,
      List.all_eq_true] at row
    exact of_decide_eq_true (row next (by simp))
  exact stops next isNext isSeam

/--
The law of a seam for one operator: if the operator joins a pipeline and a
sequence to a sequence, it joins the two lines in the same way.
-/
theorem parseLine_seam
    {left right : ByteString} {initial later : List PipelineStep}
    {last first : PipelineStep}
    (parsedLeft : parseLine left = some ⟨⟨initial ++ [last]⟩, []⟩)
    (parsedRight : parseLine right = some ⟨⟨first :: later⟩, []⟩)
    (foreground : last.pipeline.background = false)
    {type : TokenType} {operator : ByteString}
    (member : (type, operator) ∈ operators)
    (atSeam : operator.head?.any (fun byte => byte ∈ seamBytes) = true)
    (join : PipelineTree → SequenceTree → SequenceTree)
    (joins :
      ∀ {tokens laterTokens token pipeline sequence},
        DerivesPipeline tokens pipeline → token.type = type →
        DerivesSequence laterTokens sequence →
        DerivesSequence (tokens ++ token :: laterTokens)
          (join pipeline sequence)) :
    ∃ pipeline sequence,
      last.pipeline = ⟨PipelineTree.denote pipeline, false⟩ ∧
        SequenceTree.denote .always sequence = first :: later ∧
        parseLine (left ++ operator ++ right) =
          some
            ⟨⟨initial ++ (join pipeline sequence).denote last.connector⟩,
              []⟩ := by
  rcases parseLine_inversion parsedLeft (by simp) with
    ⟨leftLexemes, leftTree, leftSplit, leftDerivation, leftDenoted⟩
  rcases parseLine_inversion parsedRight (by simp) with
    ⟨rightLexemes, rightTree, rightSplit, rightDerivation, rightDenoted⟩
  have ends : EndsInForeground (leftTree.denote .always) := by
    rw [leftDenoted]
    intro earlier step equal
    rcases List.append_inj' equal rfl with ⟨_, isLast⟩
    cases isLast
    exact foreground
  rcases DerivesSequence.last_pipeline leftDerivation .always ends with
    ⟨endsInWord, start, connector, pipeline, leftSteps, extension⟩
  rw [leftDenoted] at leftSteps
  rcases List.append_inj' leftSteps rfl with ⟨rfl, isLast⟩
  cases isLast
  refine ⟨pipeline, rightTree, rfl, rightDenoted, ?_⟩
  -- The lexer cuts the text in front of the operator and behind it.
  have split :
      LexicalSplit (left ++ operator ++ right)
        (leftLexemes ++ .operator type operator :: rightLexemes) := by
    cases operator with
    | nil => simp at atSeam
    | cons character more =>
        have atSeam : character ∈ seamBytes := by simpa using atSeam
        rw [List.append_assoc]
        exact LexicalSplit.append leftSplit
          (endsInText_of_endsInWord leftSplit endsInWord) atSeam
          (.operator
            (longestOperator_seam member rfl atSeam
              (head_not_seam rightSplit rightDerivation))
            rightSplit)
  -- The parser joins what it derives from the two sides.
  have derivedAt : ∀ token position, token.type = type →
      ∃ whole,
        DerivesSequence
            (lexemeTokens 0 leftLexemes ++
              token :: lexemeTokens position rightLexemes)
            whole ∧
          whole.denote .always =
            initial ++ (join pipeline rightTree).denote connector := by
    intro token position isType
    apply extension
    intro front derived
    apply joins derived isType
    exact DerivesSequence.of_shape rightDerivation
      (shape_lexemeTokens position 0 rightLexemes)
  have tokens := lexemeTokens_append 0 leftLexemes
    (.operator type operator :: rightLexemes)
  rw [lexemeTokens] at tokens
  rcases derivedAt ⟨type, operator, _⟩ _ rfl with ⟨whole, derived, denoted⟩
  rw [← tokens] at derived
  have lexed := lex_of_split split
  have terminated := endTerminated_of_split split
  rw [parseLine, if_pos (by rw [lexed]; rfl)]
  rw [lexed] at terminated ⊢
  rw [parse_complete terminated (.sequence derived rfl), denoteLine,
    denoted]

/--
Joining two lines by an operator joins their plans, with no blank needed at
the seam.
-/
theorem parseLine_compositional
    {left right : ByteString} {initial later : List PipelineStep}
    {last first : PipelineStep}
    (parsedLeft : parseLine left = some ⟨⟨initial ++ [last]⟩, []⟩)
    (parsedRight : parseLine right = some ⟨⟨first :: later⟩, []⟩)
    (foreground : last.pipeline.background = false) :
    parseLine (left ++ literal ";" ++ right) =
        some ⟨⟨initial ++ last :: first :: later⟩, []⟩ ∧
      parseLine (left ++ literal "&&" ++ right) =
        some
          ⟨⟨initial ++ last :: { first with connector := .and } :: later⟩,
            []⟩ ∧
      parseLine (left ++ literal "||" ++ right) =
        some
          ⟨⟨initial ++ last :: { first with connector := .or } :: later⟩,
            []⟩ ∧
      parseLine (left ++ literal "&" ++ right) =
        some
          ⟨⟨initial ++
              ⟨last.connector, ⟨last.pipeline.commands, true⟩⟩ ::
                first :: later⟩,
            []⟩ ∧
      parseLine (left ++ literal "|" ++ right) =
        some
          ⟨⟨initial ++
              ⟨last.connector,
                ⟨last.pipeline.commands ++ first.pipeline.commands,
                  first.pipeline.background⟩⟩ :: later⟩,
            []⟩ := by
  have chained : ∀ (type : TokenType) (operator : ByteString)
      (connector : ChainOperator),
      (type, operator) ∈ operators →
      operator.head?.any (fun byte => byte ∈ seamBytes) = true →
      connectorOf type = some connector →
      parseLine (left ++ operator ++ right) =
        some
          ⟨⟨initial ++ last :: { first with connector := connector } ::
              later⟩,
            []⟩ := by
    intro type operator connector member atSeam isConnector
    rcases parseLine_seam parsedLeft parsedRight foreground member atSeam
        (fun pipeline sequence => .chain pipeline connector sequence)
        (fun derived isType laterDerived =>
          .chain derived (isType ▸ isConnector) laterDerived) with
      ⟨pipeline, sequence, isLast, denoted, parsed⟩
    rw [parsed, SequenceTree.denote, denote_connector denoted, ← isLast]
  have opensAlways : { first with connector := .always } = first := by
    rcases parseLine_inversion parsedRight (by simp) with
      ⟨_, tree, _, _, denoted⟩
    have again := denote_connector denoted .always
    rw [denoted] at again
    exact (List.cons.inj again).1.symm
  refine ⟨?_, ?_, ?_, ?_, ?_⟩
  · have parsed :=
      chained .semicolon (literal ";") .always (by decide) (by decide) rfl
    rwa [opensAlways] at parsed
  · exact chained .andIf (literal "&&") .and (by decide) (by decide) rfl
  · exact chained .orIf (literal "||") .or (by decide) (by decide) rfl
  · rcases parseLine_seam parsedLeft parsedRight foreground
        (show (TokenType.background, literal "&") ∈ operators by decide)
        (by decide) .background .background with
      ⟨pipeline, sequence, isLast, denoted, parsed⟩
    rw [parsed, SequenceTree.denote, denoted, isLast]
  · rcases parseLine_seam parsedLeft parsedRight foreground
        (show (TokenType.pipe, literal "|") ∈ operators by decide)
        (by decide) pipeInto derivesSequence_pipeInto with
      ⟨pipeline, sequence, isLast, denoted, parsed⟩
    rw [parsed, denote_pipeInto denoted, isLast]

/-- A digit in front of the pipe sign and a redirection behind it. -/
theorem parseLine_compositional_sample :
    parseLine (literal "echo 2" ++ literal "|" ++ literal "2>f cat&ls") =
      some
        ⟨⟨[⟨.always,
              ⟨[{ args := [literal "echo", literal "2"] },
                { args := [literal "cat"]
                  errorFile := literal "f"
                  hasErrorRedirect := true }],
                true⟩⟩,
            ⟨.always, ⟨[{ args := [literal "ls"] }], false⟩⟩]⟩,
          []⟩ := by
  have parsedLeft :
      parseLine (literal "echo 2") =
        some
          ⟨⟨[] ++
              [⟨.always,
                ⟨[{ args := [literal "echo", literal "2"] }], false⟩⟩]⟩,
            []⟩ := by
    decide +kernel
  have parsedRight :
      parseLine (literal "2>f cat&ls") =
        some
          ⟨⟨[⟨.always,
                ⟨[{ args := [literal "cat"]
                    errorFile := literal "f"
                    hasErrorRedirect := true }],
                  true⟩⟩,
              ⟨.always, ⟨[{ args := [literal "ls"] }], false⟩⟩]⟩,
            []⟩ := by
    decide +kernel
  exact (parseLine_compositional parsedLeft parsedRight rfl).2.2.2.2

end Shell.Composition
