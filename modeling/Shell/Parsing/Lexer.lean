import Shell.Parsing.Syntax

/-!
# The lexer

`lex` walks the input once with four pieces of state: the text of the word
being built, where that word started, whether a word has been started at all
and which quote, if any, is open.  The loop index of the source is the number
of bytes already consumed; the bytes from that index on are the argument the
loop recurses on, so a lookahead `input[i + 1]` is the head of the remaining
bytes.
-/

namespace Shell.Lexer

open Shell.Syntax

/-- The local variables of `lex`, with the loop index. -/
structure LexState where
  tokens : List Token := []
  current : ByteString := []
  wordStart : Nat := 0
  inSingle : Bool := false
  inDouble : Bool := false
  wordStarted : Bool := false
  index : Nat := 0
deriving DecidableEq, Repr

/-- `flush_word`. -/
def flushWord (state : LexState) : LexState :=
  if state.wordStarted then
    { state with
      tokens := state.tokens ++ [⟨.word, state.current, state.wordStart⟩]
      current := []
      wordStarted := false }
  else
    state

/-- The closure `begin_word_if_needed`, called at the current index. -/
def beginWordIfNeeded (state : LexState) : LexState :=
  if state.wordStarted then
    state
  else
    { state with wordStart := state.index, wordStarted := true }

/-- `current += text`. -/
def appendText (state : LexState) (text : ByteString) : LexState :=
  { state with current := state.current ++ text }

/-- The loop index moves past `count` bytes. -/
def skip (state : LexState) (count : Nat) : LexState :=
  { state with index := state.index + count }

@[simp]
theorem beginWordIfNeeded_fields (state : LexState) :
    (beginWordIfNeeded state).tokens = state.tokens ∧
      (beginWordIfNeeded state).current = state.current ∧
      (beginWordIfNeeded state).inSingle = state.inSingle ∧
      (beginWordIfNeeded state).inDouble = state.inDouble ∧
      (beginWordIfNeeded state).wordStarted = true ∧
      (beginWordIfNeeded state).index = state.index := by
  cases started : state.wordStarted <;> simp [beginWordIfNeeded, started]

@[simp]
theorem flushWord_fields (state : LexState) :
    (flushWord state).inSingle = state.inSingle ∧
      (flushWord state).inDouble = state.inDouble ∧
      (flushWord state).wordStarted = false ∧
      (flushWord state).index = state.index := by
  cases started : state.wordStarted <;> simp [flushWord, started]

/-- What a backslash pair stands for between double quotes. -/
def escapedInDouble (next : UInt8) : ByteString :=
  if next = doubleQuote ∨ next = backslash ∨ next = dollar ∨
      next = backquote ∨ next = newline then
    [next]
  else
    [backslash, next]

/--
The chain of operator tests at an unquoted byte: the token type and the length
that are passed to `emit_operator`, or nothing when the byte goes to a word.
-/
def operatorAt (wordStarted : Bool) (character : UInt8)
    (rest : ByteString) : Option (TokenType × Nat) :=
  if character = ampersand ∧ rest[0]? = some ampersand then
    some (.andIf, 2)
  else if character = ampersand then
    some (.background, 1)
  else if character = verticalBar ∧ rest[0]? = some verticalBar then
    some (.orIf, 2)
  else if character = verticalBar then
    some (.pipe, 1)
  else if character = semicolon then
    some (.semicolon, 1)
  else if character = lessThan then
    some (.redirectIn, 1)
  else if character = digitTwo ∧ wordStarted = false ∧
      rest[0]? = some greaterThan then
    if rest[1]? = some greaterThan then
      some (.redirectErrAppend, 3)
    else
      some (.redirectErr, 2)
  else if character = digitOne ∧ wordStarted = false ∧
      rest[0]? = some greaterThan then
    if rest[1]? = some greaterThan then
      some (.redirectAppend, 3)
    else
      some (.redirectOut, 2)
  else if character = greaterThan then
    if rest[0]? = some greaterThan then
      some (.redirectAppend, 2)
    else
      some (.redirectOut, 1)
  else
    none

/-- The closure `emit_operator`; `source` is the input from the index on. -/
def emitOperator (state : LexState) (type : TokenType) (length : Nat)
    (source : ByteString) : LexState :=
  let flushed := flushWord state
  skip
    { flushed with
      tokens :=
        flushed.tokens ++ [⟨type, source.take length, state.index⟩] }
    length

/-- The code after the loop. -/
def lexFinish (state : LexState) : LexResult :=
  if state.inSingle then
    ⟨state.tokens, literal "syntax error: unmatched single quote"⟩
  else if state.inDouble then
    ⟨state.tokens, literal "syntax error: unmatched double quote"⟩
  else
    ⟨(flushWord state).tokens ++ [⟨.endOfInput, [], state.index⟩], []⟩

/-- The loop of `lex`, one call for each iteration. -/
def lexLoop (state : LexState) : ByteString → LexResult
  | [] => lexFinish state
  | character :: rest =>
    if character = backslash then
      let begun := beginWordIfNeeded state
      if state.inSingle then
        lexLoop (skip (appendText begun [character]) 1) rest
      else
        match rest with
        | [] => ⟨state.tokens, literal "syntax error: trailing escape"⟩
        | next :: rest =>
          let value :=
            if state.inDouble then escapedInDouble next else [next]
          lexLoop (skip (appendText begun value) 2) rest
    else if character = singleQuote ∧ state.inDouble = false then
      let begun := beginWordIfNeeded state
      lexLoop (skip { begun with inSingle := !state.inSingle } 1) rest
    else if character = doubleQuote ∧ state.inSingle = false then
      let begun := beginWordIfNeeded state
      lexLoop (skip { begun with inDouble := !state.inDouble } 1) rest
    else if state.inSingle || state.inDouble then
      lexLoop (skip (appendText state [character]) 1) rest
    else if isSpace character then
      lexLoop (skip (flushWord state) 1) rest
    else
      match operatorAt state.wordStarted character rest with
      | some (type, length) =>
        lexLoop
          (emitOperator state type length (character :: rest))
          (rest.drop (length - 1))
      | none =>
        lexLoop
          (skip (appendText (beginWordIfNeeded state) [character]) 1) rest
termination_by input => input.length
decreasing_by
  all_goals
    simp only [List.length_cons, List.length_drop]
    omega

/-- `lex`. -/
def lex (input : ByteString) : LexResult :=
  lexLoop {} input

example :
    (lex (literal "a2>b 2>>c")).tokens.map (·.type) =
      [.word, .redirectOut, .word, .redirectErrAppend, .word,
        .endOfInput] := by
  decide +kernel

end Shell.Lexer
