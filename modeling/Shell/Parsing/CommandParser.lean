import Shell.Parsing.Lexer

/-!
# The parser

`Parser` is a token vector with a cursor that never leaves it: `advance`
saturates at the last token.  Its three member functions are loops, which are
modelled with a bound on the number of iterations; no result means that the
bound was too small.  The bound of `parse` is large enough for every vector
that ends in an end token (`ParserPasses.parse_follows`); on a vector without
an end token the saturating cursor can keep a loop from ever returning.
-/

namespace Shell.CommandParser

open Shell.Syntax
open Shell.Lexer

/-- `Parser`: `tokens_`, `index_` and the fact that the index is in range. -/
structure Parser where
  tokens : List Token
  index : Nat
  inBounds : index < tokens.length

/-- `Parser::peek`. -/
def Parser.peek (parser : Parser) : Token :=
  parser.tokens.get ⟨parser.index, parser.inBounds⟩

/-- `Parser::advance`. -/
def Parser.advance (parser : Parser) : Parser :=
  if within : parser.index + 1 < parser.tokens.length then
    { parser with index := parser.index + 1, inBounds := within }
  else
    parser

/-- The text `Parser::fail` leaves in `error_`. -/
def failure (message : ByteString) : ByteString :=
  literal "syntax error: " ++ message

/-- `Parser::is_redirection`. -/
def isRedirection (type : TokenType) : Bool :=
  type = .redirectIn || type = .redirectOut || type = .redirectAppend ||
    type = .redirectErr || type = .redirectErrAppend

/-- The switch over the redirection operator in `Parser::parse_command`. -/
def applyRedirection (command : Command) (redirect : TokenType)
    (filename : ByteString) : Command :=
  match redirect with
  | .redirectIn =>
      { command with hasInputRedirect := true, inputFile := filename }
  | .redirectOut =>
      { command with
        hasOutputRedirect := true
        appendOutput := false
        outputFile := filename }
  | .redirectAppend =>
      { command with
        hasOutputRedirect := true
        appendOutput := true
        outputFile := filename }
  | .redirectErr =>
      { command with
        hasErrorRedirect := true
        appendError := false
        errorFile := filename }
  | .redirectErrAppend =>
      { command with
        hasErrorRedirect := true
        appendError := true
        errorFile := filename }
  | _ => command

/-- The loop of `Parser::parse_command` and the check after it. -/
def parseCommandLoop (fuel : Nat) (parser : Parser) (command : Command)
    (sawWord : Bool) : Option (Except ByteString (Command × Parser)) :=
  match fuel with
  | 0 => none
  | fuel + 1 =>
    let token := parser.peek
    if token.type = .word then
      parseCommandLoop fuel parser.advance
        { command with args := command.args ++ [token.text] } true
    else if isRedirection token.type then
      let target := parser.advance
      if target.peek.type ≠ .word then
        some (.error (failure (literal "expected filename after redirection")))
      else
        parseCommandLoop fuel target.advance
          (applyRedirection command token.type target.peek.text) sawWord
    else if !sawWord then
      some (.error (failure (literal "expected command")))
    else
      some (.ok (command, parser))

/-- `Parser::parse_command`. -/
def parseCommand (fuel : Nat) (parser : Parser) :
    Option (Except ByteString (Command × Parser)) :=
  parseCommandLoop fuel parser {} false

/-- The tokens after `|` for which `parse_pipeline` reports a missing command. -/
def endsCommand (type : TokenType) : Bool :=
  type = .pipe || type = .andIf || type = .orIf || type = .semicolon ||
    type = .background || type = .endOfInput

/-- The loop of `Parser::parse_pipeline`. -/
def parsePipelineLoop (fuel : Nat) (parser : Parser) (pipeline : Pipeline) :
    Option (Except ByteString (Pipeline × Parser)) :=
  match fuel with
  | 0 => none
  | fuel + 1 =>
    if parser.peek.type = .pipe then
      let afterPipe := parser.advance
      if endsCommand afterPipe.peek.type then
        some (.error (failure (literal "expected command after pipe")))
      else
        match parseCommand (fuel + 1) afterPipe with
        | none => none
        | some (.error message) => some (.error message)
        | some (.ok (next, parser)) =>
          parsePipelineLoop fuel parser
            { pipeline with commands := pipeline.commands ++ [next] }
    else
      some (.ok (pipeline, parser))

/-- `Parser::parse_pipeline`. -/
def parsePipeline (fuel : Nat) (parser : Parser) :
    Option (Except ByteString (Pipeline × Parser)) :=
  match parseCommand fuel parser with
  | none => none
  | some (.error message) => some (.error message)
  | some (.ok (command, parser)) =>
    parsePipelineLoop fuel parser { commands := [command] }

/-- The connectors that the switch in `Parser::run` assigns. -/
def nextConnector : TokenType → Option ChainOperator
  | .andIf => some .and
  | .orIf => some .or
  | .semicolon => some .always
  | _ => none

/-- The loop of `Parser::run`. -/
def runLoop (fuel : Nat) (parser : Parser) (connector : ChainOperator)
    (steps : List PipelineStep) : Option ParseResult :=
  match fuel with
  | 0 => none
  | fuel + 1 =>
    if parser.peek.type = .endOfInput then
      some ⟨⟨steps⟩, []⟩
    else
      match parsePipeline (fuel + 1) parser with
      | none => none
      | some (.error message) => some ⟨⟨steps⟩, message⟩
      | some (.ok (pipeline, parser)) =>
        if parser.peek.type = .background then
          let steps :=
            steps ++ [⟨connector, { pipeline with background := true }⟩]
          let parser := parser.advance
          if parser.peek.type = .endOfInput then
            some ⟨⟨steps⟩, []⟩
          else
            runLoop fuel parser .always steps
        else
          let steps := steps ++ [⟨connector, pipeline⟩]
          match nextConnector parser.peek.type with
          | some connector =>
            let parser := parser.advance
            if parser.peek.type = .endOfInput then
              some ⟨⟨steps⟩,
                failure (literal "expected command after operator")⟩
            else
              runLoop fuel parser connector steps
          | none =>
            if parser.peek.type = .endOfInput then
              some ⟨⟨steps⟩, []⟩
            else
              some ⟨⟨steps⟩,
                failure
                  (literal "unexpected token '" ++ parser.peek.text ++
                    literal "'")⟩

/-- `Parser::run`. -/
def run (fuel : Nat) (parser : Parser) : Option ParseResult :=
  if parser.peek.type = .endOfInput then
    some ⟨⟨[]⟩, []⟩
  else
    runLoop fuel parser .always []

/-- `parse` with a bound on the iterations of each loop. -/
def parseWithin (fuel : Nat) (tokens : List Token) : Option ParseResult :=
  if nonempty : 0 < tokens.length then
    run fuel ⟨tokens, 0, nonempty⟩
  else
    some ⟨⟨[]⟩, literal "syntax error: empty token stream"⟩

/-- `parse`; no result stands for a call that does not return. -/
def parse (tokens : List Token) : Option ParseResult :=
  parseWithin (tokens.length + 1) tokens

/-- `parse_line`. -/
def parseLine (input : ByteString) : Option ParseResult :=
  let lexed := lex input
  if lexed.ok then
    parse lexed.tokens
  else
    some ⟨⟨[]⟩, lexed.error⟩

example :
    (parseLine (literal "cat<in|grep foo>out&&echo ok;pwd&")).map
        (fun result => result.plan.steps.map (fun step =>
          (step.connector, step.pipeline.commands.length,
            step.pipeline.background))) =
      some [(.always, 2, false), (.and, 1, false), (.always, 1, true)] := by
  decide +kernel

end Shell.CommandParser
