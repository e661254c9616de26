import Shell.Parsing.CommandGrammar
import Shell.Parsing.CommandParser

/-!
# The parser accepts the command grammar

The cursor of the parser is read as the list of tokens from it on.  On a
vector whose only end token is its last one, the cursor moves exactly one
token at a time until it stands on the end token.  Each member function is
then shown to return (the bound on its loop is never reached), to consume a
derivation of its nonterminal when it succeeds, and to succeed with the
denotation of the derivation whenever there is one.
-/

namespace Shell.ParserCorrectness

open Shell.Syntax
open Shell.MaximalMunch
open Shell.CommandGrammar
open Shell.CommandParser

/-! ## The cursor -/

/-- The last token is an end token and no other token is. -/
def EndTerminated (tokens : List Token) : Prop :=
  ∃ body final,
    tokens = body ++ [final] ∧
      final.type = .endOfInput ∧
      ∀ token ∈ body, token.type ≠ .endOfInput

/-- The tokens from the cursor on. -/
def remaining (parser : Parser) : List Token :=
  parser.tokens.drop parser.index

theorem remaining_eq_cons (parser : Parser) :
    remaining parser =
      parser.peek :: parser.tokens.drop (parser.index + 1) := by
  simp only [remaining, Parser.peek, List.get_eq_getElem]
  exact List.drop_eq_getElem_cons parser.inBounds

theorem peek_eq_head
    {parser : Parser} {token : Token} {rest : List Token}
    (equal : remaining parser = token :: rest) :
    parser.peek = token := by
  rw [remaining_eq_cons] at equal
  exact (List.cons.inj equal).1

/-- There is always a token left, so a bound on their number is positive. -/
theorem exists_fuel
    {fuel : Nat} {parser : Parser}
    (enough : (remaining parser).length ≤ fuel) :
    ∃ less, fuel = less + 1 := by
  apply Nat.exists_eq_add_one_of_ne_zero
  rintro rfl
  rw [remaining_eq_cons, List.length_cons] at enough
  exact Nat.not_succ_le_zero _ enough

/-- The head of an end-terminated list is not its end token iff more follows. -/
theorem EndTerminated.cons
    {token : Token} {rest : List Token}
    (terminated : EndTerminated (token :: rest)) :
    (token.type = .endOfInput ∧ rest = []) ∨
      (token.type ≠ .endOfInput ∧ EndTerminated rest) := by
  obtain ⟨body, final, equal, isEnd, noEnd⟩ := terminated
  cases body with
  | nil =>
      obtain ⟨rfl, rfl⟩ := List.cons.inj equal
      exact Or.inl ⟨isEnd, rfl⟩
  | cons first others =>
      obtain ⟨rfl, rfl⟩ := List.cons.inj equal
      refine Or.inr ⟨noEnd _ (by simp), others, final, rfl, isEnd, ?_⟩
      intro other member
      exact noEnd other (by simp [member])

theorem EndTerminated.ne_nil
    {tokens : List Token} (terminated : EndTerminated tokens) :
    tokens ≠ [] := by
  obtain ⟨body, final, rfl, -⟩ := terminated
  simp

theorem EndTerminated.suffix
    {consumed : List Token} {parser : Parser}
    (terminated : EndTerminated (consumed ++ remaining parser)) :
    EndTerminated (remaining parser) := by
  induction consumed with
  | nil => exact terminated
  | cons token others induction =>
      rcases terminated.cons with ⟨-, isNil⟩ | ⟨-, later⟩
      · simp [remaining_eq_cons] at isNil
      · exact induction later

theorem advance_remaining
    {parser : Parser}
    (terminated : EndTerminated (remaining parser))
    (notEnd : parser.peek.type ≠ .endOfInput) :
    remaining parser = parser.peek :: remaining parser.advance ∧
      EndTerminated (remaining parser.advance) := by
  rw [remaining_eq_cons] at terminated
  rcases terminated.cons with ⟨isEnd, -⟩ | ⟨-, later⟩
  · exact (notEnd isEnd).elim
  · have within : parser.index + 1 < parser.tokens.length := by
      have nonempty := later.ne_nil
      rw [Ne, List.drop_eq_nil_iff] at nonempty
      omega
    have moved :
        remaining parser.advance =
          parser.tokens.drop (parser.index + 1) := by
      simp [remaining, Parser.advance, within]
    rw [moved]
    exact ⟨remaining_eq_cons parser, later⟩

/-! ## Commands -/

theorem isRedirection_iff (type : TokenType) :
    isRedirection type = (redirectionOf type).isSome := by
  cases type <;> rfl

theorem not_startsItem_iff (type : TokenType) :
    ¬ StartsItem type ↔ type ≠ .word ∧ isRedirection type = false := by
  cases type <;> decide

/-- The switch of `parse_command` evaluates a redirection item. -/
theorem applyRedirection_eq
    {type : TokenType} {redirection : Redirection}
    (isOperator : redirectionOf type = some redirection)
    (command : Command) (target : ByteString) :
    applyRedirection command type target =
      applyItem command (.redirect redirection target) := by
  cases type <;> simp only [redirectionOf] at isOperator <;>
    cases isOperator <;> rfl

/-- The error texts of the parser other than the one of its default branch. -/
def syntaxErrors : List ByteString :=
  [failure (literal "expected filename after redirection"),
    failure (literal "expected command"),
    failure (literal "expected command after pipe"),
    failure (literal "expected command after operator")]

/-- What a call of the loop of `parse_command` may return. -/
def CommandOutcome (parser : Parser) (command : Command) (sawWord : Bool) :
    Except ByteString (Command × Parser) → Prop
  | .error message => message ∈ syntaxErrors
  | .ok (result, next) =>
      ∃ consumed items,
        remaining parser = consumed ++ remaining next ∧
          EndTerminated (remaining next) ∧
          DerivesItems consumed items ∧
          result = items.foldl applyItem command ∧
          (sawWord = true ∨ ∃ text, Item.word text ∈ items) ∧
          ¬ StartsItem next.peek.type

/-- An item in front of a run of the loop. -/
theorem CommandOutcome.cons
    {parser next : Parser} {command : Command} {sawWord sawWord' : Bool}
    {tokens : List Token} {item : Item}
    {outcome : Except ByteString (Command × Parser)}
    (first : DerivesItem tokens [item])
    (moved : remaining parser = tokens ++ remaining next)
    (seen : sawWord' = true → sawWord = true ∨ ∃ text, item = .word text)
    (correct :
      CommandOutcome next (applyItem command item) sawWord' outcome) :
    CommandOutcome parser command sawWord outcome := by
  cases outcome with
  | error message => exact correct
  | ok value =>
      obtain ⟨consumed, items, rest, final, derivation, equal, named,
        stopped⟩ := correct
      refine
        ⟨tokens ++ consumed, item :: items, by simp [moved, rest], final,
          .cons first derivation, equal, ?_, stopped⟩
      rcases named with already | ⟨text, member⟩
      · rcases seen already with before | ⟨text, rfl⟩
        · exact Or.inl before
        · exact Or.inr ⟨text, List.mem_cons_self⟩
      · exact Or.inr ⟨text, List.mem_cons_of_mem _ member⟩

/-! ### One iteration of the loop -/

theorem parseCommandLoop_word
    {parser : Parser} (isWord : parser.peek.type = .word)
    (fuel : Nat) (command : Command) (sawWord : Bool) :
    parseCommandLoop (fuel + 1) parser command sawWord =
      parseCommandLoop fuel parser.advance
        (applyItem command (.word parser.peek.text)) true := by
  simp [parseCommandLoop, isWord, applyItem]

theorem parseCommandLoop_redirect
    {parser : Parser} {redirection : Redirection}
    (isOperator : redirectionOf parser.peek.type = some redirection)
    (isWord : parser.advance.peek.type = .word)
    (fuel : Nat) (command : Command) (sawWord : Bool) :
    parseCommandLoop (fuel + 1) parser command sawWord =
      parseCommandLoop fuel parser.advance.advance
        (applyItem command
          (.redirect redirection parser.advance.peek.text)) sawWord := by
  have notWord : parser.peek.type ≠ .word := by
    intro equal
    simp [equal, redirectionOf] at isOperator
  have redirects : isRedirection parser.peek.type = true := by
    simp [isRedirection_iff, isOperator]
  rw [parseCommandLoop]
  simp [notWord, redirects, isWord, applyRedirection_eq isOperator]

theorem parseCommandLoop_stop
    {parser : Parser} (stops : ¬ StartsItem parser.peek.type)
    (fuel : Nat) (command : Command) (sawWord : Bool) :
    parseCommandLoop (fuel + 1) parser command sawWord =
      some
        (if sawWord then .ok (command, parser)
        else .error (failure (literal "expected command"))) := by
  rw [not_startsItem_iff] at stops
  rw [parseCommandLoop]
  cases sawWord <;> simp [stops]

/-- The loop of `parse_command` returns, with an outcome it may return. -/
theorem parseCommandLoop_outcome
    {fuel : Nat} {parser : Parser} (command : Command) (sawWord : Bool)
    (terminated : EndTerminated (remaining parser))
    (enough : (remaining parser).length ≤ fuel) :
    ∃ outcome,
      parseCommandLoop fuel parser command sawWord = some outcome ∧
        CommandOutcome parser command sawWord outcome := by
  induction fuel generalizing parser command sawWord with
  | zero =>
      exact (terminated.ne_nil
        (List.eq_nil_of_length_eq_zero (Nat.le_zero.mp enough))).elim
  | succ fuel induction =>
      by_cases starts : StartsItem parser.peek.type
      · have notEnd : parser.peek.type ≠ .endOfInput := by
          intro isEnd
          rw [isEnd] at starts
          revert starts
          decide
        obtain ⟨moved, later⟩ := advance_remaining terminated notEnd
        rw [moved, List.length_cons] at enough
        rcases starts with isWord | isOperator
        · obtain ⟨outcome, returned, correct⟩ :=
            induction (applyItem command (.word parser.peek.text)) true
              later (by omega)
          refine
            ⟨outcome, (parseCommandLoop_word isWord ..).trans returned, ?_⟩
          exact correct.cons (.word isWord) moved
            (fun _ => Or.inr ⟨_, rfl⟩)
        · obtain ⟨redirection, isOperator⟩ :=
            Option.isSome_iff_exists.mp isOperator
          by_cases isWord : parser.advance.peek.type = .word
          · obtain ⟨movedAgain, last⟩ :=
              advance_remaining later (by simp [isWord])
            rw [movedAgain, List.length_cons] at enough
            obtain ⟨outcome, returned, correct⟩ :=
              induction
                (applyItem command
                  (.redirect redirection parser.advance.peek.text))
                sawWord last (by omega)
            refine
              ⟨outcome,
                (parseCommandLoop_redirect isOperator isWord ..).trans
                  returned, ?_⟩
            exact correct.cons (.redirect isOperator isWord)
              (by rw [moved, movedAgain]; rfl) Or.inl
          · have notWord : parser.peek.type ≠ .word := by
              intro equal
              simp [equal, redirectionOf] at isOperator
            have redirects : isRedirection parser.peek.type = true := by
              simp [isRedirection_iff, isOperator]
            refine
              ⟨.error
                (failure (literal "expected filename after redirection")),
                ?_, by simp [CommandOutcome, syntaxErrors]⟩
            rw [parseCommandLoop]
            simp [notWord, redirects, isWord]
      · refine ⟨_, parseCommandLoop_stop starts .., ?_⟩
        cases sawWord with
        | false => simp [CommandOutcome, syntaxErrors]
        | true =>
            exact ⟨[], [], rfl, terminated, .nil, rfl, Or.inl rfl, starts⟩

/-- The loop of `parse_command` takes every item in front of the cursor. -/
theorem parseCommandLoop_complete
    {consumed : List Token} {items : List Item}
    (derivation : DerivesItems consumed items)
    {fuel : Nat} {parser : Parser} {rest : List Token}
    (command : Command) (sawWord : Bool)
    (terminated : EndTerminated (remaining parser))
    (split : remaining parser = consumed ++ rest)
    (enough : (remaining parser).length ≤ fuel)
    (stops : ∀ token ∈ rest.head?, ¬ StartsItem token.type)
    (named : sawWord = true ∨ ∃ text, Item.word text ∈ items) :
    ∃ next,
      parseCommandLoop fuel parser command sawWord =
          some (.ok (items.foldl applyItem command, next)) ∧
        remaining next = rest := by
  induction derivation generalizing fuel parser command sawWord with
  | nil =>
      obtain ⟨fuel, rfl⟩ := exists_fuel enough
      rw [remaining_eq_cons] at split
      have stopped : ¬ StartsItem parser.peek.type :=
        stops _ (by rw [← List.nil_append rest, ← split]; rfl)
      have seen : sawWord = true := by simpa using named
      refine ⟨parser, ?_, (remaining_eq_cons parser).trans split⟩
      rw [parseCommandLoop_stop stopped, seen]
      rfl
  | cons first later induction =>
      cases first with
      | word isWord =>
          obtain rfl := peek_eq_head split
          obtain ⟨fuel, rfl⟩ := exists_fuel enough
          obtain ⟨moved, last⟩ :=
            advance_remaining terminated (by simp [isWord])
          rw [moved, List.length_cons] at enough
          rw [parseCommandLoop_word isWord]
          rw [moved] at split
          exact induction _ _ last (List.cons.inj split).2 (by omega)
            (Or.inl rfl)
      | @redirect operator target redirection isOperator isWord =>
          obtain rfl := peek_eq_head split
          have notEnd : parser.peek.type ≠ .endOfInput := by
            intro isEnd
            simp [isEnd, redirectionOf] at isOperator
          obtain ⟨moved, last⟩ := advance_remaining terminated notEnd
          rw [moved] at split
          have tailSplit := (List.cons.inj split).2
          obtain rfl := peek_eq_head tailSplit
          obtain ⟨movedAgain, final⟩ :=
            advance_remaining last (by simp [isWord])
          obtain ⟨fuel, rfl⟩ := exists_fuel enough
          rw [moved, movedAgain, List.length_cons, List.length_cons]
            at enough
          rw [parseCommandLoop_redirect isOperator isWord]
          rw [movedAgain] at tailSplit
          refine induction _ _ final (List.cons.inj tailSplit).2
            (by omega) ?_
          simpa using named

/-! ### The function -/

theorem parseCommand_outcome
    {fuel : Nat} {parser : Parser}
    (terminated : EndTerminated (remaining parser))
    (enough : (remaining parser).length ≤ fuel) :
    (∃ message ∈ syntaxErrors,
        parseCommand fuel parser = some (.error message)) ∨
      ∃ consumed tree next,
        parseCommand fuel parser = some (.ok (tree.denote, next)) ∧
          remaining parser = consumed ++ remaining next ∧
          EndTerminated (remaining next) ∧
          DerivesCommand consumed tree ∧
          ¬ StartsItem next.peek.type := by
  obtain ⟨outcome, returned, correct⟩ :=
    parseCommandLoop_outcome {} false terminated enough
  cases outcome with
  | error message => exact Or.inl ⟨message, correct, returned⟩
  | ok value =>
      obtain ⟨consumed, items, split, final, derivation, equal, named,
        stopped⟩ := correct
      have hasWord : ∃ text, Item.word text ∈ items := by simpa using named
      refine Or.inr ⟨consumed, ⟨items, hasWord⟩, value.2, ?_, split, final,
        derivation, stopped⟩
      rw [parseCommand, returned, CommandTree.denote, ← foldl_applyItem,
        ← equal]

theorem parseCommand_complete
    {consumed : List Token} {tree : CommandTree}
    (derivation : DerivesCommand consumed tree)
    {fuel : Nat} {parser : Parser} {rest : List Token}
    (terminated : EndTerminated (remaining parser))
    (split : remaining parser = consumed ++ rest)
    (enough : (remaining parser).length ≤ fuel)
    (stops : ∀ token ∈ rest.head?, ¬ StartsItem token.type) :
    ∃ next,
      parseCommand fuel parser = some (.ok (tree.denote, next)) ∧
        remaining next = rest := by
  obtain ⟨next, returned, equal⟩ :=
    parseCommandLoop_complete derivation {} false terminated split enough
      stops (Or.inr tree.hasWord)
  refine ⟨next, ?_, equal⟩
  rw [parseCommand, returned, foldl_applyItem]
  rfl

/-! ## Pipelines -/

theorem not_endsCommand_of_startsItem
    {type : TokenType} (starts : StartsItem type) :
    endsCommand type = false := by
  revert starts
  cases type <;> decide

/-- The loop of `parse_pipeline` returns, with an outcome it may return. -/
theorem parsePipelineLoop_outcome
    {fuel : Nat} {parser : Parser} (pipeline : Pipeline)
    (terminated : EndTerminated (remaining parser))
    (enough : (remaining parser).length ≤ fuel)
    (stops : ¬ StartsItem parser.peek.type) :
    (∃ message ∈ syntaxErrors,
        parsePipelineLoop fuel parser pipeline = some (.error message)) ∨
      ∃ consumed others next,
        parsePipelineLoop fuel parser pipeline =
            some (.ok
              ({ pipeline with
                commands :=
                  pipeline.commands ++ others.map CommandTree.denote },
                next)) ∧
          remaining parser = consumed ++ remaining next ∧
          EndTerminated (remaining next) ∧
          DerivesPipeTail consumed others ∧
          ¬ StartsItem next.peek.type ∧
          next.peek.type ≠ .pipe := by
  induction fuel generalizing parser pipeline with
  | zero =>
      exact (terminated.ne_nil
        (List.eq_nil_of_length_eq_zero (Nat.le_zero.mp enough))).elim
  | succ fuel induction =>
      rw [parsePipelineLoop]
      by_cases isPipe : parser.peek.type = .pipe
      · obtain ⟨moved, later⟩ :=
          advance_remaining terminated (by simp [isPipe])
        rw [moved, List.length_cons] at enough
        by_cases ends : endsCommand parser.advance.peek.type = true
        · refine
            Or.inl
              ⟨failure (literal "expected command after pipe"),
                by simp [syntaxErrors], ?_⟩
          simp [isPipe, ends]
        · rcases parseCommand_outcome later
              (Nat.le_of_succ_le enough) with
            ⟨message, member, failed⟩ |
              ⟨consumed, tree, next, returned, split, final, derivation,
                stopped⟩
          · exact Or.inl ⟨message, member, by simp [isPipe, ends, failed]⟩
          · have shorter : (remaining next).length ≤ fuel := by
              rw [split, List.length_append] at enough
              omega
            rcases induction
                { pipeline with
                  commands := pipeline.commands ++ [tree.denote] }
                final shorter stopped with
              ⟨message, member, failed⟩ |
                ⟨tailTokens, others, last, continued, lastSplit, lastFinal,
                  tailDerivation, lastStopped, notPipe⟩
            · exact Or.inl
                ⟨message, member,
                  by simp [isPipe, ends, returned, failed]⟩
            · refine Or.inr
                ⟨parser.peek :: (consumed ++ tailTokens), tree :: others,
                  last, ?_, by simp [moved, split, lastSplit], lastFinal,
                  .cons isPipe derivation tailDerivation, lastStopped,
                  notPipe⟩
              simp [isPipe, ends, returned, continued]
      · exact Or.inr
          ⟨[], [], parser, by simp [isPipe], rfl, terminated, .nil, stops,
            isPipe⟩

/-- The loop of `parse_pipeline` takes every command behind a pipe sign. -/
theorem parsePipelineLoop_complete
    {consumed : List Token} {others : List CommandTree}
    (derivation : DerivesPipeTail consumed others)
    {fuel : Nat} {parser : Parser} (pipeline : Pipeline)
    {rest : List Token}
    (terminated : EndTerminated (remaining parser))
    (split : remaining parser = consumed ++ rest)
    (enough : (remaining parser).length ≤ fuel)
    (stops : ∀ token ∈ rest.head?,
      ¬ StartsItem token.type ∧ token.type ≠ .pipe) :
    ∃ next,
      parsePipelineLoop fuel parser pipeline =
          some (.ok
            ({ pipeline with
              commands :=
                pipeline.commands ++ others.map CommandTree.denote },
              next)) ∧
        remaining next = rest := by
  induction derivation generalizing fuel parser pipeline with
  | nil =>
      have nonempty := split ▸ remaining_eq_cons parser
      obtain ⟨fuel, rfl⟩ := exists_fuel enough
      have notPipe : parser.peek.type ≠ .pipe :=
        (stops _ (by rw [← List.nil_append rest, nonempty]; rfl)).2
      exact ⟨parser, by simp [parsePipelineLoop, notPipe], split⟩
  | @cons bar tokens laterTokens command others isPipe next later
      induction =>
      obtain rfl := peek_eq_head split
      obtain ⟨fuel, rfl⟩ := exists_fuel enough
      obtain ⟨moved, last⟩ :=
        advance_remaining terminated (by simp [isPipe])
      rw [moved, List.length_cons] at enough
      rw [moved] at split
      rw [List.cons_append, List.append_assoc] at split
      have tailSplit := (List.cons.inj split).2
      obtain ⟨head, _, headEqual, starts⟩ := next.head_startsItem
      have ends : endsCommand parser.advance.peek.type = false := by
        rw [headEqual, List.cons_append] at tailSplit
        rw [peek_eq_head tailSplit]
        exact not_endsCommand_of_startsItem starts
      have commandStops :=
        later.not_startsItem (fun token member => (stops token member).1)
      obtain ⟨afterCommand, returned, commandSplit⟩ :=
        parseCommand_complete next last tailSplit
          (Nat.le_of_succ_le enough) commandStops
      have final : EndTerminated (remaining afterCommand) := by
        rw [tailSplit, ← commandSplit] at last
        exact last.suffix
      have shorter : (remaining afterCommand).length ≤ fuel := by
        rw [tailSplit, List.length_append, ← commandSplit] at enough
        omega
      obtain ⟨finish, continued, finishSplit⟩ :=
        induction
          { pipeline with
            commands := pipeline.commands ++ [command.denote] }
          final commandSplit shorter
      refine ⟨finish, ?_, finishSplit⟩
      rw [parsePipelineLoop]
      simp [isPipe, ends, returned, continued]

theorem parsePipeline_outcome
    {fuel : Nat} {parser : Parser}
    (terminated : EndTerminated (remaining parser))
    (enough : (remaining parser).length ≤ fuel) :
    (∃ message ∈ syntaxErrors,
        parsePipeline fuel parser = some (.error message)) ∨
      ∃ consumed tree next,
        parsePipeline fuel parser =
            some (.ok (⟨tree.denote, false⟩, next)) ∧
          remaining parser = consumed ++ remaining next ∧
          EndTerminated (remaining next) ∧
          DerivesPipeline consumed tree ∧
          ¬ StartsItem next.peek.type ∧
          next.peek.type ≠ .pipe := by
  rcases parseCommand_outcome terminated enough with
    ⟨message, member, failed⟩ |
      ⟨firstTokens, command, afterFirst, returned, split, final, derivation,
        stopped⟩
  · exact Or.inl ⟨message, member, by simp [parsePipeline, failed]⟩
  · have shorter : (remaining afterFirst).length ≤ fuel := by
      rw [split, List.length_append] at enough
      omega
    rcases parsePipelineLoop_outcome
        { commands := [command.denote] }
        final shorter stopped with
      ⟨message, member, failed⟩ |
        ⟨tailTokens, others, next, continued, lastSplit, lastFinal,
          tailDerivation, lastStopped, notPipe⟩
    · exact Or.inl
        ⟨message, member, by simp [parsePipeline, returned, failed]⟩
    · refine Or.inr
        ⟨firstTokens ++ tailTokens, ⟨command, others⟩, next, ?_,
          by simp [split, lastSplit], lastFinal,
          derivesPipeline_of_tail derivation tailDerivation, lastStopped,
          notPipe⟩
      simp [parsePipeline, returned, continued, PipelineTree.denote]

theorem parsePipeline_complete
    {consumed : List Token} {tree : PipelineTree}
    (derivation : DerivesPipeline consumed tree)
    {fuel : Nat} {parser : Parser} {rest : List Token}
    (terminated : EndTerminated (remaining parser))
    (split : remaining parser = consumed ++ rest)
    (enough : (remaining parser).length ≤ fuel)
    (stops : ∀ token ∈ rest.head?,
      ¬ StartsItem token.type ∧ token.type ≠ .pipe) :
    ∃ next,
      parsePipeline fuel parser =
          some (.ok (⟨tree.denote, false⟩, next)) ∧
        remaining next = rest ∧
        EndTerminated (remaining next) := by
  obtain ⟨firstTokens, tailTokens, rfl, first, later⟩ :=
    derivation.exists_tail
  rw [List.append_assoc] at split
  have commandStops :=
    later.not_startsItem (fun token member => (stops token member).1)
  obtain ⟨afterFirst, returned, commandSplit⟩ :=
    parseCommand_complete first terminated split enough commandStops
  have final : EndTerminated (remaining afterFirst) := by
    rw [split, ← commandSplit] at terminated
    exact terminated.suffix
  have shorter : (remaining afterFirst).length ≤ fuel := by
    rw [split, List.length_append, ← commandSplit] at enough
    omega
  obtain ⟨next, continued, lastSplit⟩ :=
    parsePipelineLoop_complete later
      { commands := [tree.first.denote] }
      final commandSplit shorter stops
  refine ⟨next, ?_, lastSplit, ?_⟩
  · simp [parsePipeline, returned, continued, PipelineTree.denote]
  · rw [commandSplit, ← lastSplit] at final
    exact final.suffix

/-! ## Sequences -/

theorem nextConnector_eq (type : TokenType) :
    nextConnector type = connectorOf type := by
  cases type <;> rfl

/-- What can stand behind a pipeline that the parser has accepted. -/
theorem after_pipeline
    {type : TokenType}
    (notItem : ¬ StartsItem type) (notPipe : type ≠ .pipe) :
    type = .background ∨ (connectorOf type).isSome ∨
      type = .endOfInput := by
  revert notItem notPipe
  cases type <;> decide

/-- What a call of the loop of `run` may return. -/
def SequenceOutcome (parser : Parser) (connector : ChainOperator)
    (steps : List PipelineStep) (result : ParseResult) : Prop :=
  result.error ∈ syntaxErrors ∨
    result.error = [] ∧
      ∃ consumed final tree,
        remaining parser = consumed ++ [final] ∧
          final.type = .endOfInput ∧
          DerivesSequence consumed tree ∧
          result.plan.steps = steps ++ tree.denote connector

/-! ### One iteration of the loop -/

section Iteration

variable {fuel : Nat} {parser next : Parser} {connector : ChainOperator}
  {steps : List PipelineStep} {commands : List Command}

theorem runLoop_error
    {message : ByteString}
    (notEnd : parser.peek.type ≠ .endOfInput)
    (failed :
      parsePipeline (fuel + 1) parser = some (.error message)) :
    runLoop (fuel + 1) parser connector steps =
      some ⟨⟨steps⟩, message⟩ := by
  simp [runLoop, notEnd, failed]

/-- A pipeline that is the last of the line. -/
theorem runLoop_last
    (notEnd : parser.peek.type ≠ .endOfInput)
    (returned :
      parsePipeline (fuel + 1) parser =
        some (.ok (⟨commands, false⟩, next)))
    (isEnd : next.peek.type = .endOfInput) :
    runLoop (fuel + 1) parser connector steps =
      some ⟨⟨steps ++ [⟨connector, ⟨commands, false⟩⟩]⟩, []⟩ := by
  simp [runLoop, notEnd, returned, isEnd, nextConnector]

/-- A pipeline closed by `&`. -/
theorem runLoop_background
    (notEnd : parser.peek.type ≠ .endOfInput)
    (returned :
      parsePipeline (fuel + 1) parser =
        some (.ok (⟨commands, false⟩, next)))
    (isBackground : next.peek.type = .background) :
    runLoop (fuel + 1) parser connector steps =
      if next.advance.peek.type = .endOfInput then
        some ⟨⟨steps ++ [⟨connector, ⟨commands, true⟩⟩]⟩, []⟩
      else
        runLoop fuel next.advance .always
          (steps ++ [⟨connector, ⟨commands, true⟩⟩]) := by
  rw [runLoop]
  simp [notEnd, returned, isBackground]

/-- A pipeline followed by a list operator. -/
theorem runLoop_chain
    {nextOperator : ChainOperator}
    (notEnd : parser.peek.type ≠ .endOfInput)
    (returned :
      parsePipeline (fuel + 1) parser =
        some (.ok (⟨commands, false⟩, next)))
    (isOperator : connectorOf next.peek.type = some nextOperator) :
    runLoop (fuel + 1) parser connector steps =
      if next.advance.peek.type = .endOfInput then
        some ⟨⟨steps ++ [⟨connector, ⟨commands, false⟩⟩]⟩,
          failure (literal "expected command after operator")⟩
      else
        runLoop fuel next.advance nextOperator
          (steps ++ [⟨connector, ⟨commands, false⟩⟩]) := by
  have notBackground : next.peek.type ≠ .background := by
    intro equal
    simp [equal, connectorOf] at isOperator
  rw [runLoop]
  simp [notEnd, returned, notBackground, nextConnector_eq, isOperator]

end Iteration

/-- The loop of `run` returns, with an outcome it may return. -/
theorem runLoop_outcome
    {fuel : Nat} {parser : Parser} (connector : ChainOperator)
    (steps : List PipelineStep)
    (terminated : EndTerminated (remaining parser))
    (enough : (remaining parser).length ≤ fuel)
    (notEnd : parser.peek.type ≠ .endOfInput) :
    ∃ result,
      runLoop fuel parser connector steps = some result ∧
        SequenceOutcome parser connector steps result := by
  induction fuel generalizing parser connector steps with
  | zero =>
      exact (terminated.ne_nil
        (List.eq_nil_of_length_eq_zero (Nat.le_zero.mp enough))).elim
  | succ fuel induction =>
      rcases parsePipeline_outcome terminated enough with
        ⟨message, member, failed⟩ |
          ⟨consumed, tree, next, returned, split, final, derivation,
            notItem, notPipe⟩
      · exact ⟨_, runLoop_error notEnd failed, Or.inl member⟩
      · rcases after_pipeline notItem notPipe with
          isBackground | isOperator | isEnd
        · obtain ⟨moved, later⟩ :=
            advance_remaining final (by simp [isBackground])
          rw [runLoop_background notEnd returned isBackground]
          by_cases isEnd : next.advance.peek.type = .endOfInput
          · rw [if_pos isEnd]
            refine ⟨_, rfl, Or.inr ⟨rfl, ?_⟩⟩
            rw [remaining_eq_cons] at later
            rcases later.cons with ⟨-, isNil⟩ | ⟨different, -⟩
            · refine
                ⟨consumed ++ [next.peek], next.advance.peek,
                  .lastBackground tree, ?_, isEnd,
                  .lastBackground derivation isBackground, rfl⟩
              rw [split, moved, remaining_eq_cons next.advance, isNil]
              simp
            · exact (different isEnd).elim
          · rw [if_neg isEnd]
            have shorter : (remaining next.advance).length ≤ fuel := by
              rw [split, moved, List.length_append, List.length_cons]
                at enough
              omega
            obtain ⟨result, continued, correct⟩ :=
              induction .always
                (steps ++ [⟨connector, ⟨tree.denote, true⟩⟩])
                later shorter isEnd
            refine ⟨result, continued, ?_⟩
            rcases correct with failed |
              ⟨succeeded, tokens, last, sequence, tokensSplit, lastIsEnd,
                tailDerivation, plan⟩
            · exact Or.inl failed
            · refine Or.inr
                ⟨succeeded, consumed ++ next.peek :: tokens, last,
                  .background tree sequence, ?_, lastIsEnd,
                  .background derivation isBackground tailDerivation, ?_⟩
              · simp [split, moved, tokensSplit]
              · simp [plan, SequenceTree.denote]
        · obtain ⟨nextOperator, isOperator⟩ :=
            Option.isSome_iff_exists.mp isOperator
          have nextNotEnd : next.peek.type ≠ .endOfInput := by
            intro equal
            simp [equal, connectorOf] at isOperator
          obtain ⟨moved, later⟩ := advance_remaining final nextNotEnd
          rw [runLoop_chain notEnd returned isOperator]
          by_cases isEnd : next.advance.peek.type = .endOfInput
          · rw [if_pos isEnd]
            exact ⟨_, rfl, Or.inl (by simp [syntaxErrors])⟩
          · rw [if_neg isEnd]
            have shorter : (remaining next.advance).length ≤ fuel := by
              rw [split, moved, List.length_append, List.length_cons]
                at enough
              omega
            obtain ⟨result, continued, correct⟩ :=
              induction nextOperator
                (steps ++ [⟨connector, ⟨tree.denote, false⟩⟩])
                later shorter isEnd
            refine ⟨result, continued, ?_⟩
            rcases correct with failed |
              ⟨succeeded, tokens, last, sequence, tokensSplit, lastIsEnd,
                tailDerivation, plan⟩
            · exact Or.inl failed
            · refine Or.inr
                ⟨succeeded, consumed ++ next.peek :: tokens, last,
                  .chain tree nextOperator sequence, ?_, lastIsEnd,
                  .chain derivation isOperator tailDerivation, ?_⟩
              · simp [split, moved, tokensSplit]
              · simp [plan, SequenceTree.denote]
        · refine
            ⟨_, runLoop_last notEnd returned isEnd, Or.inr ⟨rfl, ?_⟩⟩
          rw [remaining_eq_cons] at final
          rcases final.cons with ⟨-, isNil⟩ | ⟨different, -⟩
          · refine ⟨consumed, next.peek, .last tree, ?_, isEnd,
              .last derivation, rfl⟩
            rw [split, remaining_eq_cons next, isNil]
          · exact (different isEnd).elim

/-- A derived pipeline in front of a separator is taken by one iteration. -/
theorem parsePipeline_before_separator
    {tokens rest : List Token} {tree : PipelineTree} {token : Token}
    (derivation : DerivesPipeline tokens tree)
    {fuel : Nat} {parser : Parser}
    (terminated : EndTerminated (remaining parser))
    (split : remaining parser = tokens ++ token :: rest)
    (enough : (remaining parser).length ≤ fuel)
    (separator :
      token.type = .background ∨ (connectorOf token.type).isSome ∨
        token.type = .endOfInput) :
    ∃ less next,
      fuel = less + 1 ∧
        parser.peek.type ≠ .endOfInput ∧
        parsePipeline (less + 1) parser =
          some (.ok (⟨tree.denote, false⟩, next)) ∧
        next.peek = token ∧
        remaining next = token :: rest ∧
        EndTerminated (remaining next) ∧
        (token :: rest).length ≤ less := by
  obtain ⟨head, others, rfl, starts⟩ := derivation.head_startsItem
  have headEqual : parser.peek = head := peek_eq_head split
  obtain ⟨next, returned, nextSplit, final⟩ :=
    parsePipeline_complete derivation terminated split enough
      (separator_stops separator)
  obtain ⟨less, rfl⟩ := exists_fuel enough
  rw [split] at enough
  simp only [List.cons_append, List.length_cons, List.length_append]
    at enough
  refine ⟨less, next, rfl, ?_, returned, peek_eq_head nextSplit, nextSplit,
    final, ?_⟩
  · rw [headEqual]
    exact startsItem_ne_end starts
  · rw [List.length_cons]
    omega

/-- The loop of `run` takes a derived sequence up to the end token. -/
theorem runLoop_complete
    {consumed : List Token} {tree : SequenceTree}
    (derivation : DerivesSequence consumed tree)
    {fuel : Nat} {parser : Parser} {final : Token}
    {connector : ChainOperator} {steps : List PipelineStep}
    (terminated : EndTerminated (remaining parser))
    (split : remaining parser = consumed ++ [final])
    (isEnd : final.type = .endOfInput)
    (enough : (remaining parser).length ≤ fuel) :
    runLoop fuel parser connector steps =
      some ⟨⟨steps ++ tree.denote connector⟩, []⟩ := by
  induction derivation generalizing fuel parser connector steps with
  | last first =>
      obtain ⟨less, next, rfl, notEnd, returned, rfl, -⟩ :=
        parsePipeline_before_separator first terminated split enough
          (Or.inr (Or.inr isEnd))
      exact runLoop_last notEnd returned isEnd
  | lastBackground first isBackground =>
      rw [List.append_assoc] at split
      obtain ⟨less, next, rfl, notEnd, returned, rfl, nextSplit, ended, -⟩ :=
        parsePipeline_before_separator first terminated split enough
          (Or.inl isBackground)
      obtain ⟨moved, -⟩ := advance_remaining ended (by simp [isBackground])
      rw [moved] at nextSplit
      have finalEqual := peek_eq_head (List.cons.inj nextSplit).2
      rw [runLoop_background notEnd returned isBackground,
        if_pos (by rw [finalEqual, isEnd])]
      rfl
  | background first isBackground later induction =>
      rw [List.append_assoc, List.cons_append] at split
      obtain ⟨less, next, rfl, notEnd, returned, rfl, nextSplit, ended,
        fits⟩ :=
        parsePipeline_before_separator first terminated split enough
          (Or.inl isBackground)
      obtain ⟨moved, lastEnded⟩ :=
        advance_remaining ended (by simp [isBackground])
      rw [moved] at nextSplit
      have tailSplit := (List.cons.inj nextSplit).2
      obtain ⟨head, others, headEqual, starts⟩ := later.head_startsItem
      have nextNotEnd : next.advance.peek.type ≠ .endOfInput := by
        rw [headEqual] at tailSplit
        rw [peek_eq_head tailSplit]
        exact startsItem_ne_end starts
      rw [runLoop_background notEnd returned isBackground,
        if_neg nextNotEnd]
      rw [induction lastEnded tailSplit (by
        rw [tailSplit]
        exact Nat.le_of_succ_le fits)]
      simp [SequenceTree.denote]
  | chain first isOperator later induction =>
      rw [List.append_assoc, List.cons_append] at split
      obtain ⟨less, next, rfl, notEnd, returned, rfl, nextSplit, ended,
        fits⟩ :=
        parsePipeline_before_separator first terminated split enough
          (Or.inr (Or.inl (by simp [isOperator])))
      have operatorNotEnd : next.peek.type ≠ .endOfInput := by
        intro equal
        simp [equal, connectorOf] at isOperator
      obtain ⟨moved, lastEnded⟩ := advance_remaining ended operatorNotEnd
      rw [moved] at nextSplit
      have tailSplit := (List.cons.inj nextSplit).2
      obtain ⟨head, others, headEqual, starts⟩ := later.head_startsItem
      have nextNotEnd : next.advance.peek.type ≠ .endOfInput := by
        rw [headEqual] at tailSplit
        rw [peek_eq_head tailSplit]
        exact startsItem_ne_end starts
      rw [runLoop_chain notEnd returned isOperator, if_neg nextNotEnd]
      rw [induction lastEnded tailSplit (by
        rw [tailSplit]
        exact Nat.le_of_succ_le fits)]
      simp [SequenceTree.denote]

/-! ## Lines -/

/-- The parser returns on every end-terminated vector. -/
theorem parse_outcome
    {tokens : List Token} (terminated : EndTerminated tokens) :
    ∃ result,
      parse tokens = some result ∧
        (result.error ∈ syntaxErrors ∨
          result.error = [] ∧
            ∃ tree, DerivesLine tokens tree ∧
              result.plan = denoteLine tree) := by
  have nonempty : 0 < tokens.length :=
    List.length_pos_iff.mpr terminated.ne_nil
  have start : remaining ⟨tokens, 0, nonempty⟩ = tokens := rfl
  rw [← start] at terminated
  rw [parse, parseWithin, dif_pos nonempty, run]
  by_cases isEnd : (Parser.mk tokens 0 nonempty).peek.type = .endOfInput
  · rw [if_pos isEnd]
    refine ⟨_, rfl, Or.inr ⟨rfl, none, ?_, rfl⟩⟩
    rw [remaining_eq_cons] at terminated
    rcases terminated.cons with ⟨-, isNil⟩ | ⟨different, -⟩
    · rw [← start, remaining_eq_cons, isNil]
      exact .empty isEnd
    · exact (different isEnd).elim
  · rw [if_neg isEnd]
    obtain ⟨result, returned, correct⟩ :=
      runLoop_outcome .always [] terminated
        (Nat.le_succ tokens.length) isEnd
    refine ⟨result, returned, ?_⟩
    rcases correct with failed |
      ⟨succeeded, consumed, final, tree, split, finalIsEnd, derivation,
        plan⟩
    · exact Or.inl failed
    · refine Or.inr ⟨succeeded, some tree, ?_, ?_⟩
      · rw [← start, split]
        exact .sequence derivation finalIsEnd
      · exact congrArg ExecutionPlan.mk (plan.trans (List.nil_append _))

/-- The parser succeeds with the plan of a derivation. -/
theorem parse_complete
    {tokens : List Token} {tree : Option SequenceTree}
    (terminated : EndTerminated tokens)
    (derivation : DerivesLine tokens tree) :
    parse tokens = some ⟨denoteLine tree, []⟩ := by
  have nonempty : 0 < tokens.length :=
    List.length_pos_iff.mpr terminated.ne_nil
  rw [parse, parseWithin, dif_pos nonempty, run]
  cases derivation with
  | empty isEnd =>
      rw [if_pos (by exact isEnd)]
      rfl
  | @sequence consumed final sequence derivation isEnd =>
      obtain ⟨head, others, rfl, starts⟩ := derivation.head_startsItem
      have notEnd :
          (Parser.mk _ 0 nonempty).peek.type ≠ .endOfInput :=
        startsItem_ne_end starts
      rw [if_neg notEnd]
      exact runLoop_complete derivation terminated rfl isEnd
        (Nat.le_succ _)

/-- The default branch of `run` reports none of the other errors. -/
theorem syntaxErrors_ne_unexpected
    {message : ByteString} (member : message ∈ syntaxErrors)
    (text : ByteString) :
    message ≠
      failure
        (literal "unexpected token '" ++ text ++ literal "'") := by
  have heads : ∀ message ∈ syntaxErrors, message[14]? = some 0x65 := by
    decide
  rintro rfl
  have head := heads _ member
  simp [CommandParser.failure, literal] at head

/--
On every vector whose only end token is its last token the parser returns.  It
succeeds exactly when the vector derives a line, its plan is then the
denotation of every derivation, and its error is never the one of the default
branch of `run`.
-/
theorem parse_accepts_commandGrammar
    (tokens : List Token) (terminated : EndTerminated tokens) :
    ∃ result,
      parse tokens = some result ∧
        (result.ok = true ↔ ∃ tree, DerivesLine tokens tree) ∧
        (∀ tree, DerivesLine tokens tree →
          result.plan = denoteLine tree) ∧
        ∀ text,
          result.error ≠
            failure
              (literal "unexpected token '" ++ text ++ literal "'") := by
  obtain ⟨result, returned, outcome⟩ := parse_outcome terminated
  have complete :
      ∀ tree, DerivesLine tokens tree →
        result = ⟨denoteLine tree, []⟩ := by
    intro tree derivation
    rw [parse_complete terminated derivation] at returned
    exact (Option.some.inj returned).symm
  refine ⟨result, returned, ⟨?_, ?_⟩, ?_, ?_⟩
  · intro succeeded
    rcases outcome with failed | ⟨-, tree, derivation, -⟩
    · have nonempty : ∀ message ∈ syntaxErrors, message ≠ [] := by decide
      have empty : result.error = [] := by
        simpa [ParseResult.ok] using succeeded
      exact (nonempty _ failed empty).elim
    · exact ⟨tree, derivation⟩
  · rintro ⟨tree, derivation⟩
    rw [complete tree derivation]
    rfl
  · intro tree derivation
    rw [complete tree derivation]
  · intro text
    rcases outcome with failed | ⟨succeeded, -⟩
    · exact syntaxErrors_ne_unexpected failed text
    · rw [succeeded]
      simp [CommandParser.failure, literal]

/-- The tokens of the line `ls >o &`. -/
def sampleTokens : List Token :=
  [⟨.word, literal "ls", 0⟩, ⟨.redirectOut, literal ">", 3⟩,
    ⟨.word, literal "o", 4⟩, ⟨.background, literal "&", 6⟩,
    ⟨.endOfInput, [], 7⟩]

theorem sampleTokens_endTerminated : EndTerminated sampleTokens :=
  ⟨sampleTokens.dropLast, ⟨.endOfInput, [], 7⟩, rfl, rfl, by decide⟩

theorem parse_accepts_sampleTokens :
    ∃ result,
      parse sampleTokens = some result ∧
        (result.ok = true ↔ ∃ tree, DerivesLine sampleTokens tree) ∧
        (∀ tree, DerivesLine sampleTokens tree →
          result.plan = denoteLine tree) ∧
        ∀ text,
          result.error ≠
            failure
              (literal "unexpected token '" ++ text ++ literal "'") :=
  parse_accepts_commandGrammar sampleTokens sampleTokens_endTerminated

end Shell.ParserCorrectness
