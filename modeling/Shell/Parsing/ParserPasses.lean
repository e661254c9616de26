import Shell.Library.TransitionSystem
import Shell.Parsing.PlanPrinter

/-!
# The passes of the parser

The three loops of the parser, nested in each other, have no bound of their
own, and `advance` silently stays on the last token.  Here the parser is a
machine that goes from the head of one loop to the head of the next, with an
index that is a mere number: a pass that reads outside of the token vector has
no result.

One fact about a pass carries all others.  The tokens that a pass takes are
none of them an end token, and a pass that takes no token enters a later part
of the code.  If the last token is an end token, `advance` therefore always
moves, the index stays in front of the first end token, and no loop comes back
to its head without having taken a token.  The functions of `CommandParser`,
which have a bound on the passes of each loop, follow the machine.
-/

namespace Shell.ParserPasses

open Shell.Syntax
open Shell.TransitionSystem
open Shell.Lexer
open Shell.LexerCorrectness
open Shell.CommandParser
open Shell.ParserCorrectness
open Shell.PlanPrinter

/-! ## The machine -/

/-- The points of the code between two passes, with the local variables of
the calls that are active there. -/
inductive Control where
  /-- The test in front of the loop of `run`. -/
  | start
  /-- The head of the loop of `run`. -/
  | run
  /-- The head of the loop of `parse_command`. -/
  | command (pipeline : Pipeline) (command : Command) (sawWord : Bool)
  /-- The head of the loop of `parse_pipeline`. -/
  | pipeline (pipeline : Pipeline)
  /-- Behind the call of `parse_pipeline` in `run`. -/
  | behind (pipeline : Pipeline)
  | returned (error : ByteString)
deriving DecidableEq, Repr

/-- `index_`, the local variables of `run` and the point of the code. -/
structure State where
  index : Nat := 0
  connector : ChainOperator := .always
  steps : List PipelineStep := []
  control : Control := .start
deriving DecidableEq, Repr

/-- `Parser::peek`; nothing is read outside of the vector. -/
def peekAt (tokens : List Token) (index : Nat) : Option Token :=
  tokens[index]?

/-- `Parser::advance`. -/
def advanceFrom (tokens : List Token) (index : Nat) : Nat :=
  if index + 1 < tokens.length then index + 1 else index

section Passes

variable (tokens : List Token) (state : State)

def startPass : Option State := do
  let token ← peekAt tokens state.index
  if token.type = .endOfInput then
    some { state with control := .returned [] }
  else
    some { state with control := .run }

/-- The loop of `run` up to the first pass of `parse_command`. -/
def runPass : Option State := do
  let token ← peekAt tokens state.index
  if token.type = .endOfInput then
    some { state with control := .returned [] }
  else
    some { state with control := .command {} {} false }

def commandPass (pipeline : Pipeline) (command : Command) (sawWord : Bool) :
    Option State := do
  let token ← peekAt tokens state.index
  if token.type = .word then
    some
      { state with
        index := advanceFrom tokens state.index
        control :=
          .command pipeline
            { command with args := command.args ++ [token.text] } true }
  else if isRedirection token.type then
    let index := advanceFrom tokens state.index
    let target ← peekAt tokens index
    if target.type ≠ .word then
      some
        { state with
          index
          control :=
            .returned
              (failure (literal "expected filename after redirection")) }
    else
      some
        { state with
          index := advanceFrom tokens index
          control :=
            .command pipeline
              (applyRedirection command token.type target.text) sawWord }
  else if !sawWord then
    some
      { state with
        control := .returned (failure (literal "expected command")) }
  else
    some
      { state with
        control :=
          .pipeline
            { pipeline with commands := pipeline.commands ++ [command] } }

def pipelinePass (pipeline : Pipeline) : Option State := do
  let token ← peekAt tokens state.index
  if token.type = .pipe then
    let index := advanceFrom tokens state.index
    let next ← peekAt tokens index
    if endsCommand next.type then
      some
        { state with
          index
          control :=
            .returned (failure (literal "expected command after pipe")) }
    else
      some { state with index, control := .command pipeline {} false }
  else
    some { state with control := .behind pipeline }

/-- The rest of a pass through the loop of `run`. -/
def behindPass (pipeline : Pipeline) : Option State := do
  let token ← peekAt tokens state.index
  if token.type = .background then
    let index := advanceFrom tokens state.index
    let steps :=
      state.steps ++ [⟨state.connector, { pipeline with background := true }⟩]
    let next ← peekAt tokens index
    if next.type = .endOfInput then
      some ⟨index, .always, steps, .returned []⟩
    else
      some ⟨index, .always, steps, .run⟩
  else
    let steps := state.steps ++ [⟨state.connector, pipeline⟩]
    match nextConnector token.type with
    | some connector =>
      let index := advanceFrom tokens state.index
      let next ← peekAt tokens index
      if next.type = .endOfInput then
        some
          ⟨index, connector, steps,
            .returned (failure (literal "expected command after operator"))⟩
      else
        some ⟨index, connector, steps, .run⟩
    | none =>
      if token.type = .endOfInput then
        some ⟨state.index, state.connector, steps, .returned []⟩
      else
        some
          ⟨state.index, state.connector, steps,
            .returned
              (failure
                (literal "unexpected token '" ++ token.text ++
                  literal "'"))⟩

/-- One pass; a parser that has returned makes no more passes. -/
def step : Option State :=
  match state.control with
  | .start => startPass tokens state
  | .run => runPass tokens state
  | .command pipeline command sawWord =>
      commandPass tokens state pipeline command sawWord
  | .pipeline pipeline => pipelinePass tokens state pipeline
  | .behind pipeline => behindPass tokens state pipeline
  | .returned _ => none

end Passes

/-- The parser on a token vector. -/
def machine (tokens : List Token) : System State Unit where
  initial state := state = {}
  step state _ := step tokens state

/-- The order in which the points of the code are met at one index. -/
def Control.phase : Control → Nat
  | .start => 0
  | .run => 1
  | .command .. => 2
  | .pipeline _ => 3
  | .behind _ => 4
  | .returned _ => 5

/-- What `run` returns. -/
def State.result (state : State) : Option ParseResult :=
  match state.control with
  | .returned error => some ⟨⟨state.steps⟩, error⟩
  | _ => none

/-! ## What is read and what is counted -/

/-- The last token is an end token. -/
def EndsInEnd (tokens : List Token) : Prop :=
  ∃ final, tokens.getLast? = some final ∧ final.type = .endOfInput

/-- The index of the first end token. -/
def firstEnd (tokens : List Token) : Nat :=
  tokens.findIdx fun token => token.type = .endOfInput

/-- The number of word tokens. -/
def wordCount (tokens : List Token) : Nat :=
  tokens.countP fun token => token.type = .word

def commandArgs (commands : List Command) : Nat :=
  (commands.flatMap Command.args).length

/-- The number of arguments of a plan. -/
def argCount (steps : List PipelineStep) : Nat :=
  commandArgs (steps.flatMap fun step => step.pipeline.commands)

/-- The arguments in the local variables. -/
def Control.args : Control → Nat
  | .command earlier current _ =>
      commandArgs earlier.commands + current.args.length
  | .pipeline earlier | .behind earlier => commandArgs earlier.commands
  | .start | .run | .returned _ => 0

def State.args (state : State) : Nat :=
  argCount state.steps + state.control.args

@[simp]
theorem commandArgs_append (commands later : List Command) :
    commandArgs (commands ++ later) =
      commandArgs commands + commandArgs later := by
  simp [commandArgs]

@[simp]
theorem commandArgs_singleton (command : Command) :
    commandArgs [command] = command.args.length := by
  simp [commandArgs]

@[simp]
theorem argCount_append (steps : List PipelineStep) (step : PipelineStep) :
    argCount (steps ++ [step]) =
      argCount steps + commandArgs step.pipeline.commands := by
  simp [argCount]

@[simp]
theorem args_applyRedirection
    (command : Command) (redirect : TokenType) (filename : ByteString) :
    (applyRedirection command redirect filename).args = command.args := by
  cases redirect <;> rfl

section Reading

variable {tokens : List Token} {index : Nat} {token : Token}

theorem peekAt_lt (read : peekAt tokens index = some token) :
    index < tokens.length :=
  (List.getElem?_eq_some_iff.mp read).1

theorem take_succ_of_peekAt (read : peekAt tokens index = some token) :
    tokens.take (index + 1) = tokens.take index ++ [token] := by
  rw [List.take_add_one, show tokens[index]? = some token from read]
  rfl

theorem exists_peekAt (within : index < tokens.length) :
    ∃ token, peekAt tokens index = some token :=
  ⟨tokens[index], List.getElem?_eq_getElem within⟩

theorem advanceFrom_lt (within : index < tokens.length) :
    advanceFrom tokens index < tokens.length := by
  unfold advanceFrom
  split
  · assumption
  · exact within

/-- `advance` moves from every token but an end token. -/
theorem advanceFrom_eq
    (ends : EndsInEnd tokens) (read : peekAt tokens index = some token)
    (notEnd : token.type ≠ .endOfInput) :
    advanceFrom tokens index = index + 1 := by
  apply if_pos
  by_contra isLast
  have within := peekAt_lt read
  have atLast : index = tokens.length - 1 := by omega
  rcases ends with ⟨final, isFinal, isEnd⟩
  rw [List.getLast?_eq_getElem?, ← atLast] at isFinal
  cases isFinal.symm.trans read
  exact notEnd isEnd

end Reading

/-! ## What a pass does -/

/-- A pass takes some tokens, none of them an end token.  The arguments it
adds are words that it takes, and if it takes nothing it gets further in the
code. -/
structure Moves (tokens consumed : List Token) (state next : State) :
    Prop where
  within : next.index < tokens.length
  index : next.index = state.index + consumed.length
  taken : tokens.take next.index = tokens.take state.index ++ consumed
  notEnd : ∀ token ∈ consumed, token.type ≠ .endOfInput
  further : consumed = [] → state.control.phase < next.control.phase
  args : next.args ≤ state.args + wordCount consumed

section Moving

variable {tokens : List Token} {state next : State} {token : Token}

theorem Moves.stay
    (read : peekAt tokens state.index = some token)
    (index : next.index = state.index)
    (further : state.control.phase < next.control.phase)
    (args : next.args ≤ state.args) :
    Moves tokens [] state next where
  within := index ▸ peekAt_lt read
  index := index
  taken := by rw [index, List.append_nil]
  notEnd := nofun
  further _ := further
  args := args

theorem Moves.one
    (ends : EndsInEnd tokens) (read : peekAt tokens state.index = some token)
    (notEnd : token.type ≠ .endOfInput)
    (index : next.index = advanceFrom tokens state.index)
    (args : next.args ≤ state.args + wordCount [token]) :
    Moves tokens [token] state next where
  within := index ▸ advanceFrom_lt (peekAt_lt read)
  index := index.trans (advanceFrom_eq ends read notEnd)
  taken := by
    rw [index, advanceFrom_eq ends read notEnd, take_succ_of_peekAt read]
  notEnd := List.forall_mem_singleton.mpr notEnd
  further := nofun
  args := args

theorem Moves.two
    (ends : EndsInEnd tokens) (read : peekAt tokens state.index = some token)
    (notEnd : token.type ≠ .endOfInput)
    {target : Token}
    (readTarget :
      peekAt tokens (advanceFrom tokens state.index) = some target)
    (targetNotEnd : target.type ≠ .endOfInput)
    (index :
      next.index = advanceFrom tokens (advanceFrom tokens state.index))
    (args : next.args ≤ state.args + wordCount [token, target]) :
    Moves tokens [token, target] state next where
  within := index ▸ advanceFrom_lt (peekAt_lt readTarget)
  index := by
    rw [index, advanceFrom_eq ends readTarget targetNotEnd,
      advanceFrom_eq ends read notEnd]
    rfl
  taken := by
    rw [index, advanceFrom_eq ends readTarget targetNotEnd,
      take_succ_of_peekAt readTarget, advanceFrom_eq ends read notEnd,
      take_succ_of_peekAt read, List.append_assoc]
    rfl
  notEnd := List.forall_mem_cons.mpr
    ⟨notEnd, List.forall_mem_singleton.mpr targetNotEnd⟩
  further := nofun
  args := args

end Moving

theorem isRedirection_ne_end
    {type : TokenType} (redirects : isRedirection type = true) :
    type ≠ .endOfInput := by
  rintro rfl
  cases redirects

theorem nextConnector_ne_end
    {type : TokenType} {connector : ChainOperator}
    (connects : nextConnector type = some connector) :
    type ≠ .endOfInput := by
  rintro rfl
  cases connects

section Step

variable {tokens : List Token} {state next : State}

theorem startPass_moves
    (atStart : state.control = .start)
    (passed : startPass tokens state = some next) :
    ∃ consumed, Moves tokens consumed state next := by
  rcases Option.bind_eq_some_iff.mp passed with ⟨token, read, passed⟩
  split_ifs at passed <;> cases passed <;>
    exact ⟨[], .stay read rfl (by simp [atStart, Control.phase])
      (by simp [State.args, Control.args])⟩

theorem runPass_moves
    (atRun : state.control = .run)
    (passed : runPass tokens state = some next) :
    ∃ consumed, Moves tokens consumed state next := by
  rcases Option.bind_eq_some_iff.mp passed with ⟨token, read, passed⟩
  split_ifs at passed <;> cases passed <;>
    exact ⟨[], .stay read rfl (by simp [atRun, Control.phase])
      (by simp [State.args, Control.args, commandArgs])⟩

theorem commandPass_moves
    (ends : EndsInEnd tokens)
    {pipeline : Pipeline} {command : Command} {sawWord : Bool}
    (atCommand : state.control = .command pipeline command sawWord)
    (passed : commandPass tokens state pipeline command sawWord = some next) :
    ∃ consumed, Moves tokens consumed state next := by
  rcases Option.bind_eq_some_iff.mp passed with ⟨token, read, passed⟩
  split_ifs at passed with isWord redirects unnamed
  · cases passed
    have counted : wordCount [token] = 1 := by simp [wordCount, isWord]
    refine ⟨[token], .one ends read (by simp [isWord]) rfl ?_⟩
    simp only [State.args, Control.args, atCommand, List.length_append,
      List.length_singleton, counted]
    omega
  · have notEnd := isRedirection_ne_end redirects
    rcases Option.bind_eq_some_iff.mp passed with ⟨target, readTarget, passed⟩
    split_ifs at passed with noFile <;> cases passed
    · refine ⟨[token], .one ends read notEnd rfl ?_⟩
      simp only [State.args, Control.args]
      omega
    · have isWord : target.type = .word := not_not.mp noFile
      refine ⟨[token, target],
        .two ends read notEnd readTarget (by simp [isWord]) rfl ?_⟩
      simp only [State.args, Control.args, atCommand, args_applyRedirection]
      omega
  · cases passed
    exact ⟨[], .stay read rfl (by simp [atCommand, Control.phase])
      (by simp [State.args, Control.args])⟩
  · cases passed
    exact ⟨[], .stay read rfl (by simp [atCommand, Control.phase])
      (by simp [State.args, Control.args, atCommand])⟩

theorem pipelinePass_moves
    (ends : EndsInEnd tokens) {pipeline : Pipeline}
    (atPipeline : state.control = .pipeline pipeline)
    (passed : pipelinePass tokens state pipeline = some next) :
    ∃ consumed, Moves tokens consumed state next := by
  rcases Option.bind_eq_some_iff.mp passed with ⟨token, read, passed⟩
  split_ifs at passed with isPipe
  · rcases Option.bind_eq_some_iff.mp passed with ⟨second, -, passed⟩
    split_ifs at passed <;> cases passed
    · refine ⟨[token], .one ends read (by simp [isPipe]) rfl ?_⟩
      simp only [State.args, Control.args]
      omega
    · exact ⟨[token], .one ends read (by simp [isPipe]) rfl
        (by simp [State.args, Control.args, atPipeline])⟩
  · cases passed
    exact ⟨[], .stay read rfl (by simp [atPipeline, Control.phase])
      (by simp [State.args, Control.args, atPipeline])⟩

theorem behindPass_moves
    (ends : EndsInEnd tokens) {pipeline : Pipeline}
    (atBehind : state.control = .behind pipeline)
    (passed : behindPass tokens state pipeline = some next) :
    ∃ consumed, Moves tokens consumed state next := by
  rcases Option.bind_eq_some_iff.mp passed with ⟨token, read, passed⟩
  split at passed
  · rename_i isBackground
    rcases Option.bind_eq_some_iff.mp passed with ⟨second, -, passed⟩
    split_ifs at passed <;> cases passed <;>
      exact ⟨[token], .one ends read (by simp [isBackground]) rfl
        (by simp [State.args, Control.args, atBehind])⟩
  · split at passed
    · rename_i connector connects
      rcases Option.bind_eq_some_iff.mp passed with ⟨second, -, passed⟩
      split_ifs at passed <;> cases passed <;>
        exact ⟨[token], .one ends read (nextConnector_ne_end connects) rfl
          (by simp [State.args, Control.args, atBehind])⟩
    · split_ifs at passed <;> cases passed <;>
        exact ⟨[], .stay read rfl (by simp [atBehind, Control.phase])
          (by simp [State.args, Control.args, atBehind])⟩

/-- Every pass moves. -/
theorem step_moves
    (ends : EndsInEnd tokens) (stepped : step tokens state = some next) :
    ∃ consumed, Moves tokens consumed state next := by
  unfold step at stepped
  split at stepped
  · exact startPass_moves ‹_› stepped
  · exact runPass_moves ‹_› stepped
  · exact commandPass_moves ends ‹_› stepped
  · exact pipelinePass_moves ends ‹_› stepped
  · exact behindPass_moves ends ‹_› stepped
  · cases stepped

/-- A parser whose index is in bounds reads within bounds. -/
theorem exists_step
    (within : state.index < tokens.length)
    (active : state.result = none) :
    ∃ next, step tokens state = some next := by
  rcases exists_peekAt within with ⟨token, read⟩
  -- No pass reads more than the token it starts at and the one behind it.
  rcases exists_peekAt (advanceFrom_lt within) with ⟨second, readSecond⟩
  rw [← Option.isSome_iff_exists]
  unfold step
  split
  · simp only [startPass, read, Option.bind_eq_bind, Option.bind_some]
    split <;> rfl
  · simp only [runPass, read, Option.bind_eq_bind, Option.bind_some]
    split <;> rfl
  · simp only [commandPass, read, readSecond, Option.bind_eq_bind,
      Option.bind_some]
    split_ifs <;> rfl
  · simp only [pipelinePass, read, readSecond, Option.bind_eq_bind,
      Option.bind_some]
    split_ifs <;> rfl
  · simp only [behindPass, read, readSecond, Option.bind_eq_bind,
      Option.bind_some]
    split
    · split <;> rfl
    · split <;> split <;> rfl
  · rename_i isReturned
    simp [State.result, isReturned] at active

end Step

/-! ## Whole runs -/

/-- Where a pass leads: to a larger index, or further in the code. -/
def State.measure (state : State) : Nat :=
  6 * state.index + state.control.phase

theorem phase_le (control : Control) : control.phase ≤ 5 := by
  cases control <;> simp [Control.phase]

/-- The parser has read no end token, and its arguments are words it has
read. -/
structure Behaves (tokens : List Token) (state : State) : Prop where
  within : state.index < tokens.length
  notEnd : ∀ token ∈ tokens.take state.index, token.type ≠ .endOfInput
  args : state.args ≤ wordCount (tokens.take state.index)

section Runs

variable {tokens : List Token} (ends : EndsInEnd tokens)

include ends

theorem step_raises
    {state next : State} (stepped : step tokens state = some next) :
    state.measure < next.measure := by
  rcases step_moves ends stepped with ⟨consumed, moves⟩
  have index := moves.index
  have phase := phase_le state.control
  unfold State.measure
  cases consumed with
  | nil =>
      have further := moves.further rfl
      rw [List.length_nil] at index
      omega
  | cons token others =>
      rw [List.length_cons] at index
      omega

theorem leads_index_le
    {state finish : State} (leads : (machine tokens).Leads state finish) :
    state.index ≤ finish.index := by
  rcases leads with ⟨labels, ran⟩
  refine System.run_preserves (fun later => state.index ≤ later.index) ?_
    (Nat.le_refl _) ran
  intro middle _ next reached stepped
  rcases step_moves ends stepped with ⟨consumed, moves⟩
  have index := moves.index
  omega

/-- A parser that is at a point of the code again has a larger index. -/
theorem index_lt_of_run
    {state finish : State} {labels : List Unit}
    (ran : (machine tokens).run state labels = some finish)
    (nonempty : labels ≠ [])
    (again : finish.control.phase = state.control.phase) :
    state.index < finish.index := by
  have raised :=
    System.add_length_le_measure State.measure (step_raises ends) ran
  have positive := List.length_pos_iff.mpr nonempty
  unfold State.measure at raised
  omega

theorem endsInEnd_length_pos : 0 < tokens.length := by
  rcases ends with ⟨final, isFinal, -⟩
  exact List.length_pos_iff.mpr (List.ne_nil_of_mem
    (List.mem_of_getLast? isFinal))

theorem behaves_initial : Behaves tokens {} where
  within := endsInEnd_length_pos ends
  notEnd := nofun
  args := Nat.le_refl 0

theorem Behaves.step
    {state next : State} (behaves : Behaves tokens state)
    (stepped : step tokens state = some next) :
    Behaves tokens next := by
  rcases step_moves ends stepped with ⟨consumed, moves⟩
  refine ⟨moves.within, ?_, ?_⟩
  · rw [moves.taken]
    exact List.forall_mem_append.mpr ⟨behaves.notEnd, moves.notEnd⟩
  · calc
      next.args ≤ state.args + wordCount consumed := moves.args
      _ ≤ wordCount (tokens.take state.index) + wordCount consumed :=
        Nat.add_le_add_right behaves.args _
      _ = wordCount (tokens.take next.index) := by
        rw [moves.taken, wordCount, wordCount, wordCount, List.countP_append]

theorem reachable_behaves
    {state : State} (reachable : (machine tokens).Reachable state) :
    Behaves tokens state := by
  refine reachable.invariant (Behaves tokens) ?_ (Behaves.step ends)
  rintro _ rfl
  exact behaves_initial ends

omit ends in
theorem Behaves.index_le_firstEnd
    {state : State} (behaves : Behaves tokens state) :
    state.index ≤ firstEnd tokens := by
  by_contra beyond
  have before : firstEnd tokens < state.index := Nat.lt_of_not_le beyond
  have within : firstEnd tokens < tokens.length :=
    before.trans behaves.within
  apply behaves.notEnd tokens[firstEnd tokens]
  · rw [List.mem_take_iff_getElem]
    exact ⟨firstEnd tokens, lt_min before within, rfl⟩
  · exact of_decide_eq_true (List.findIdx_getElem (w := within))

omit ends in
theorem Behaves.argCount_le
    {state : State} (behaves : Behaves tokens state) :
    argCount state.steps ≤ wordCount tokens :=
  calc
    argCount state.steps ≤ state.args := Nat.le_add_right _ _
    _ ≤ wordCount (tokens.take state.index) := behaves.args
    _ ≤ wordCount tokens := (List.take_sublist _ _).countP_le

/-- There are fewer than six passes for each token. -/
theorem length_lt_of_run
    {state : State} {labels : List Unit}
    (ran : (machine tokens).run {} labels = some state) :
    labels.length < 6 * tokens.length := by
  have raised :=
    System.add_length_le_measure State.measure (step_raises ends) ran
  have within := (reachable_behaves ends ⟨{}, labels, rfl, ran⟩).within
  have phase := phase_le state.control
  have fromStart : State.measure {} = 0 := rfl
  rw [fromStart, State.measure] at raised
  omega

end Runs

/-! ## The functions follow the machine -/

/-- A function that returns has led the machine to where it returns.  One that
has used up its bound has led it past as many tokens. -/
def Follows (tokens : List Token) (fuel : Nat) (start : State)
    {Value : Type} (returns : Value → State → Prop) : Option Value → Prop
  | none =>
      ∃ finish,
        (machine tokens).Leads start finish ∧
          start.index + fuel ≤ finish.index
  | some value =>
      ∃ finish, (machine tokens).Leads start finish ∧ returns value finish

/-- Where a member function returns that reports errors to its caller. -/
def Returns (tokens : List Token) (connector : ChainOperator)
    (steps : List PipelineStep) {Value : Type} (control : Value → Control) :
    Except ByteString (Value × Parser) → State → Prop
  | .error message, finish => finish.result = some ⟨⟨steps⟩, message⟩
  | .ok (value, next), finish =>
      next.tokens = tokens ∧
        finish = ⟨next.index, connector, steps, control value⟩

section Following

variable {tokens : List Token} {parser : Parser}

theorem Follows.after
    {fuel more : Nat} {start middle : State} {Value : Type}
    {returns : Value → State → Prop} {outcome : Option Value}
    (leads : (machine tokens).Leads start middle)
    (enough : start.index + more ≤ middle.index + fuel)
    (follows : Follows tokens fuel middle returns outcome) :
    Follows tokens more start returns outcome := by
  cases outcome with
  | none =>
      rcases follows with ⟨finish, later, passed⟩
      exact ⟨finish, leads.trans later, enough.trans passed⟩
  | some value =>
      rcases follows with ⟨finish, later, returned⟩
      exact ⟨finish, leads.trans later, returned⟩

theorem leads_of_step
    {state next : State} (stepped : step tokens state = some next) :
    (machine tokens).Leads state next :=
  System.Leads.step () stepped

/-- A pass behind which the function returns. -/
theorem Follows.of_step
    {fuel : Nat} {start : State} {Value : Type}
    {returns : Value → State → Prop} {value : Value}
    (finish : State) (stepped : step tokens start = some finish)
    (returned : returns value finish) :
    Follows tokens fuel start returns (some value) :=
  ⟨finish, leads_of_step stepped, returned⟩

theorem peekAt_index (on : parser.tokens = tokens) :
    peekAt tokens parser.index = some parser.peek := by
  subst on
  exact List.getElem?_eq_getElem parser.inBounds

theorem advance_tokens (on : parser.tokens = tokens) :
    parser.advance.tokens = tokens := by
  subst on
  unfold Parser.advance
  split <;> rfl

theorem advance_index (on : parser.tokens = tokens) :
    parser.advance.index = advanceFrom tokens parser.index := by
  subst on
  unfold Parser.advance advanceFrom
  split <;> rfl

theorem peekAt_advance (on : parser.tokens = tokens) :
    peekAt tokens (advanceFrom tokens parser.index) =
      some parser.advance.peek := by
  rw [← advance_index on]
  exact peekAt_index (advance_tokens on)

variable (ends : EndsInEnd tokens)

include ends

theorem advance_index_succ
    (on : parser.tokens = tokens)
    (notEnd : parser.peek.type ≠ .endOfInput) :
    parser.advance.index = parser.index + 1 :=
  (advance_index on).trans (advanceFrom_eq ends (peekAt_index on) notEnd)

/-- Moving on from a token pays for one iteration. -/
theorem index_add_le_advance
    (on : parser.tokens = tokens)
    (notEnd : parser.peek.type ≠ .endOfInput) (fuel : Nat) :
    parser.index + (fuel + 1) ≤ parser.advance.index + fuel := by
  rw [advance_index_succ ends on notEnd]
  omega

/-- The three ways in which a member function can end for its caller. -/
theorem Follows.cases
    {fuel : Nat} {start : State} {connector : ChainOperator}
    {steps : List PipelineStep} {Value : Type} {control : Value → Control}
    {outcome : Option (Except ByteString (Value × Parser))}
    (follows :
      Follows tokens fuel start (Returns tokens connector steps control)
        outcome) :
    (outcome = none ∧
        ∃ finish,
          (machine tokens).Leads start finish ∧
            start.index + fuel ≤ finish.index) ∨
      (∃ message,
        outcome = some (.error message) ∧
          ∃ finish,
            (machine tokens).Leads start finish ∧
              finish.result = some ⟨⟨steps⟩, message⟩) ∨
      ∃ value next,
        outcome = some (.ok (value, next)) ∧
          next.tokens = tokens ∧
          (machine tokens).Leads start
            ⟨next.index, connector, steps, control value⟩ ∧
          start.index ≤ next.index := by
  cases outcome with
  | none => exact Or.inl ⟨rfl, follows⟩
  | some returned =>
      right
      rcases follows with ⟨finish, leads, returns⟩
      cases returned with
      | error message => exact Or.inl ⟨message, rfl, finish, leads, returns⟩
      | ok result =>
          rcases result with ⟨value, next⟩
          rcases returns with ⟨onward, rfl⟩
          exact Or.inr
            ⟨value, next, rfl, onward, leads, leads_index_le ends leads⟩

theorem parseCommandLoop_follows
    (on : parser.tokens = tokens) (fuel : Nat) (pipeline : Pipeline)
    (command : Command) (sawWord : Bool) (connector : ChainOperator)
    (steps : List PipelineStep) :
    Follows tokens fuel
      ⟨parser.index, connector, steps, .command pipeline command sawWord⟩
      (Returns tokens connector steps fun command =>
        .pipeline
          { pipeline with commands := pipeline.commands ++ [command] })
      (parseCommandLoop fuel parser command sawWord) := by
  induction fuel generalizing parser command sawWord with
  | zero => exact ⟨_, .refl _, Nat.le_refl _⟩
  | succ fuel induction =>
      have read := peekAt_index on
      have readTarget := peekAt_advance on
      have onTarget := advance_tokens on
      rw [parseCommandLoop]
      dsimp only
      split_ifs with isWord redirects noFile unnamed
      · refine (induction onTarget _ true).after (leads_of_step ?_)
          (index_add_le_advance ends on (by simp [isWord]) fuel)
        simp [step, commandPass, read, isWord, advance_index on]
      · refine .of_step
          ⟨parser.advance.index, connector, steps, .returned _⟩ ?_ rfl
        simp [step, commandPass, read, isWord, redirects, readTarget, noFile,
          advance_index on]
      · have isFile : parser.advance.peek.type = .word := not_not.mp noFile
        have paid :=
          index_add_le_advance ends on (isRedirection_ne_end redirects) fuel
        have moved := advance_index_succ ends onTarget (by simp [isFile])
        refine
          (induction (advance_tokens onTarget) _ sawWord).after
            (leads_of_step ?_) ?_
        · simp [step, commandPass, read, isWord, redirects, readTarget, isFile,
            advance_index onTarget, advance_index on]
        · simp only [moved]
          omega
      · refine .of_step ⟨parser.index, connector, steps, .returned _⟩ ?_ rfl
        simp [step, commandPass, read, isWord, redirects, unnamed]
      · refine .of_step ⟨parser.index, connector, steps, .pipeline _⟩ ?_
          ⟨on, rfl⟩
        simp [step, commandPass, read, isWord, redirects, unnamed]

theorem parsePipelineLoop_follows
    (on : parser.tokens = tokens) (fuel : Nat) (pipeline : Pipeline)
    (connector : ChainOperator) (steps : List PipelineStep) :
    Follows tokens fuel ⟨parser.index, connector, steps, .pipeline pipeline⟩
      (Returns tokens connector steps .behind)
      (parsePipelineLoop fuel parser pipeline) := by
  induction fuel generalizing parser pipeline with
  | zero => exact ⟨_, .refl _, Nat.le_refl _⟩
  | succ fuel induction =>
      have read := peekAt_index on
      have readNext := peekAt_advance on
      have onNext := advance_tokens on
      rw [parsePipelineLoop]
      dsimp only
      split_ifs with isPipe isMissing
      · refine .of_step
          ⟨parser.advance.index, connector, steps, .returned _⟩ ?_ rfl
        simp [step, pipelinePass, read, isPipe, readNext, isMissing,
          advance_index on]
      · have moved := advance_index_succ ends on (by simp [isPipe])
        have called :
            (machine tokens).Leads
              ⟨parser.index, connector, steps, .pipeline pipeline⟩
              ⟨parser.advance.index, connector, steps,
                .command pipeline {} false⟩ := by
          apply leads_of_step
          simp [step, pipelinePass, read, isPipe, readNext, isMissing,
            advance_index on]
        have follows :=
          parseCommandLoop_follows ends onNext (fuel + 1) pipeline {} false
            connector steps
        rw [← parseCommand] at follows
        rcases follows.cases ends with
          ⟨outcome, finish, leads, passed⟩ |
          ⟨message, outcome, finish, leads, returned⟩ |
          ⟨command, next, outcome, onward, leads, further⟩
        · rw [outcome]
          refine ⟨finish, called.trans leads, ?_⟩
          simp only [moved] at passed ⊢
          omega
        · rw [outcome]
          exact ⟨finish, called.trans leads, returned⟩
        · rw [outcome]
          refine (induction onward _).after (called.trans leads) ?_
          simp only [moved] at further ⊢
          omega
      · refine .of_step ⟨parser.index, connector, steps, .behind pipeline⟩ ?_
          ⟨on, rfl⟩
        simp [step, pipelinePass, read, isPipe]

theorem parsePipeline_follows
    (on : parser.tokens = tokens) (fuel : Nat)
    (connector : ChainOperator) (steps : List PipelineStep) :
    Follows tokens fuel ⟨parser.index, connector, steps, .command {} {} false⟩
      (Returns tokens connector steps .behind)
      (parsePipeline fuel parser) := by
  have follows :=
    parseCommandLoop_follows ends on fuel {} {} false connector steps
  rw [← parseCommand] at follows
  rw [parsePipeline]
  rcases follows.cases ends with
    ⟨outcome, finish, leads, passed⟩ |
    ⟨message, outcome, finish, leads, returned⟩ |
    ⟨command, next, outcome, onward, leads, further⟩
  · rw [outcome]
    exact ⟨finish, leads, passed⟩
  · rw [outcome]
    exact ⟨finish, leads, returned⟩
  · rw [outcome]
    exact (parsePipelineLoop_follows ends onward fuel _ connector steps).after
      leads (Nat.add_le_add_right further fuel)

theorem runLoop_follows
    (on : parser.tokens = tokens) (fuel : Nat)
    (connector : ChainOperator) (steps : List PipelineStep) :
    Follows tokens fuel ⟨parser.index, connector, steps, .run⟩
      (fun result finish => finish.result = some result)
      (runLoop fuel parser connector steps) := by
  induction fuel generalizing parser connector steps with
  | zero => exact ⟨_, .refl _, Nat.le_refl _⟩
  | succ fuel induction =>
      rw [runLoop]
      split_ifs with isEnd
      · refine .of_step ⟨parser.index, connector, steps, .returned []⟩ ?_ rfl
        simp [step, runPass, peekAt_index on, isEnd]
      have called :
          (machine tokens).Leads ⟨parser.index, connector, steps, .run⟩
            ⟨parser.index, connector, steps, .command {} {} false⟩ := by
        apply leads_of_step
        simp [step, runPass, peekAt_index on, isEnd]
      rcases (parsePipeline_follows ends on (fuel + 1) connector steps).cases
          ends with
        ⟨outcome, finish, leads, passed⟩ |
        ⟨message, outcome, finish, leads, returned⟩ |
        ⟨pipeline, next, outcome, onward, leads, further⟩
      · rw [outcome]
        exact ⟨finish, called.trans leads, passed⟩
      · rw [outcome]
        exact ⟨finish, called.trans leads, returned⟩
      · rw [outcome]
        have read := peekAt_index onward
        have readNext := peekAt_advance onward
        have onNext := advance_tokens onward
        refine .after (called.trans leads)
          (Nat.add_le_add_right further (fuel + 1)) ?_
        dsimp only
        split
        · rename_i isBackground
          split
          · rename_i nextIsEnd
            refine .of_step ⟨next.advance.index, .always, _, .returned []⟩ ?_
              rfl
            simp [step, behindPass, read, isBackground, readNext, nextIsEnd,
              advance_index onward]
          · rename_i nextNotEnd
            refine (induction onNext .always _).after (leads_of_step ?_)
              (index_add_le_advance ends onward (by simp [isBackground]) fuel)
            simp [step, behindPass, read, isBackground, readNext, nextNotEnd,
              advance_index onward]
        · rename_i notBackground
          split
          · rename_i operator connects
            split
            · rename_i nextIsEnd
              refine .of_step
                ⟨next.advance.index, operator, _, .returned _⟩ ?_ rfl
              simp [step, behindPass, read, notBackground, connects, readNext,
                nextIsEnd, advance_index onward]
            · rename_i nextNotEnd
              refine (induction onNext operator _).after (leads_of_step ?_)
                (index_add_le_advance ends onward
                  (nextConnector_ne_end connects) fuel)
              simp [step, behindPass, read, notBackground, connects, readNext,
                nextNotEnd, advance_index onward]
          · rename_i noConnector
            split
            · rename_i isEnd
              refine .of_step ⟨next.index, connector, _, .returned []⟩ ?_ rfl
              simp [step, behindPass, read, isEnd, nextConnector]
            · rename_i notEnd
              refine .of_step ⟨next.index, connector, _, .returned _⟩ ?_ rfl
              simp [step, behindPass, read, notBackground, noConnector, notEnd]

/-- The bound of `parse` is never used up, and it returns what the machine
returns. -/
theorem parse_follows :
    ∃ result state,
      parse tokens = some result ∧
        (machine tokens).Reachable state ∧
        state.result = some result := by
  have nonempty := endsInEnd_length_pos ends
  have begun : (machine tokens).Reachable {} := .initial rfl
  have on : (Parser.mk tokens 0 nonempty).tokens = tokens := rfl
  have read :
      peekAt tokens 0 = some (Parser.mk tokens 0 nonempty).peek :=
    peekAt_index on
  rw [parse, parseWithin, dif_pos nonempty, CommandParser.run]
  split_ifs with isEnd
  · refine ⟨_, ⟨0, .always, [], .returned []⟩, rfl, ?_, rfl⟩
    apply begun.leads
    apply leads_of_step
    simp [step, startPass, read, isEnd]
  · have entered :
        (machine tokens).Leads {} ⟨0, .always, [], .run⟩ := by
      apply leads_of_step
      simp [step, startPass, read, isEnd]
    have follows := runLoop_follows ends on (tokens.length + 1) .always []
    cases outcome :
        runLoop (tokens.length + 1) ⟨tokens, 0, nonempty⟩ .always [] with
    | none =>
        rw [outcome] at follows
        rcases follows with ⟨finish, leads, passed⟩
        have within :=
          (reachable_behaves ends (begun.leads (entered.trans leads))).within
        -- The index would be behind the last token.
        simp only at passed
        omega
    | some result =>
        rw [outcome] at follows
        rcases follows with ⟨finish, leads, returned⟩
        exact ⟨result, finish, rfl, begun.leads (entered.trans leads),
          returned⟩

end Following

theorem steps_of_result
    {state : State} {result : ParseResult}
    (returned : state.result = some result) :
    result.plan.steps = state.steps := by
  unfold State.result at returned
  split at returned <;> cases returned
  rfl

/--
On every token vector that ends in an end token, the index of the parser stays
in front of the first end token, every read is within bounds, and a loop that
comes back to its head has increased the index.  The parser therefore returns,
after fewer than six passes for each token and as `parse` does, with at most
one argument for each word token.  The vectors that `lex` makes are of this
kind, with no other end token.
-/
theorem parser_passes_bounded :
    (∀ tokens, EndsInEnd tokens →
      (∀ state, (machine tokens).Reachable state →
        state.index ≤ firstEnd tokens ∧
          (state.result = none → ∃ next, step tokens state = some next) ∧
          ∀ labels later,
            labels ≠ [] → (machine tokens).run state labels = some later →
              later.control.phase = state.control.phase →
                state.index < later.index) ∧
        (∀ labels state,
          (machine tokens).run {} labels = some state →
            labels.length < 6 * tokens.length) ∧
        ∃ result state,
          parse tokens = some result ∧
            (machine tokens).Reachable state ∧
            state.result = some result ∧
            argCount result.plan.steps ≤ wordCount tokens) ∧
      ∀ input, (lex input).ok = true → EndTerminated (lex input).tokens := by
  refine ⟨?_, ?_⟩
  · intro tokens ends
    refine ⟨?_, ?_, ?_⟩
    · intro state reachable
      have behaves := reachable_behaves ends reachable
      refine ⟨behaves.index_le_firstEnd, exists_step behaves.within, ?_⟩
      intro labels later nonempty ran again
      exact index_lt_of_run ends ran nonempty again
    · intro labels state ran
      exact length_lt_of_run ends ran
    · rcases parse_follows ends with
        ⟨result, state, parsed, reachable, returned⟩
      refine ⟨result, state, parsed, reachable, returned, ?_⟩
      rw [steps_of_result returned]
      exact (reachable_behaves ends reachable).argCount_le
  · intro input succeeded
    rcases split_of_lex succeeded with ⟨lexemes, split⟩
    exact endTerminated_of_split split

/-- A line with a second one behind its end token. -/
def repeatedEnd : List Token :=
  [⟨.word, literal "ls", 0⟩, ⟨.endOfInput, [], 2⟩, ⟨.pipe, literal "|", 3⟩,
    ⟨.endOfInput, [], 4⟩]

theorem parser_passes_bounded_sample :
    (firstEnd repeatedEnd = 1 ∧
      ∃ result state,
        parse repeatedEnd = some result ∧
          (machine repeatedEnd).Reachable state ∧
          state.result = some result ∧
          argCount result.plan.steps ≤ wordCount repeatedEnd) ∧
      EndTerminated (lex (literal "ls >o &")).tokens :=
  ⟨⟨by decide,
      (parser_passes_bounded.1 repeatedEnd
        ⟨⟨.endOfInput, [], 4⟩, rfl, rfl⟩).2.2⟩,
    parser_passes_bounded.2 (literal "ls >o &") (by decide +kernel)⟩

end Shell.ParserPasses
