import Shell.Parsing.Syntax

/-!
# The text of a job

`quote_for_display`, `format_command` and `format_pipeline`: the command line
that the job table shows for a pipeline.
-/

namespace Shell.Display

open Shell.Syntax

/-- The bytes for which `quote_for_display` puts a word into quotes. -/
def needsQuotes (character : UInt8) : Bool :=
  isSpace character || character = verticalBar || character = ampersand ||
    character = semicolon || character = lessThan || character = greaterThan

/-- `quote_for_display`. -/
def quoteForDisplay (value : ByteString) : ByteString :=
  if value = [] then
    [singleQuote, singleQuote]
  else if value.any needsQuotes then
    singleQuote ::
      (value.flatMap fun character =>
        if character = singleQuote then
          [singleQuote, backslash, singleQuote, singleQuote]
        else
          [character]) ++
      [singleQuote]
  else
    value

/-- A redirection behind its operator, if the command has it. -/
def formatRedirect (present : Bool) (operator path : ByteString) :
    ByteString :=
  if present then operator ++ quoteForDisplay path else []

/-- `format_command`. -/
def formatCommand (command : Command) : ByteString :=
  let words :=
    command.args.foldl
      (fun text arg =>
        (if text = [] then text else text ++ [blank]) ++
          quoteForDisplay arg)
      []
  words ++
    formatRedirect command.hasInputRedirect (literal " < ")
      command.inputFile ++
    formatRedirect command.hasOutputRedirect
      (literal (if command.appendOutput then " >> " else " > "))
      command.outputFile ++
    formatRedirect command.hasErrorRedirect
      (literal (if command.appendError then " 2>> " else " 2> "))
      command.errorFile

/-- `format_pipeline`. -/
def formatPipeline (pipeline : Pipeline) : ByteString :=
  (literal " | ").intercalate (pipeline.commands.map formatCommand)

end Shell.Display
