import Mathlib.Data.List.Basic

/-!
# Byte strings, tokens and execution plans

The data model shared by the lexer, the parser and the executor.  A
`std::string` is an arbitrary byte sequence, embedded NUL bytes included, so
it is modelled as a list of bytes and never as decoded text.  The record types
follow `lexer.hpp`, `parser.hpp` and `command.hpp` field by field.
-/

namespace Shell.Syntax

/-! ## Byte strings -/

/-- The contents of a `std::string`. -/
abbrev ByteString := List UInt8

/-- An ASCII string literal of the source. -/
def literal (text : String) : ByteString :=
  text.toList.map fun character => UInt8.ofNat character.toNat

def backslash : UInt8 := 0x5c
def singleQuote : UInt8 := 0x27
def doubleQuote : UInt8 := 0x22
def ampersand : UInt8 := 0x26
def verticalBar : UInt8 := 0x7c
def semicolon : UInt8 := 0x3b
def lessThan : UInt8 := 0x3c
def greaterThan : UInt8 := 0x3e
def dollar : UInt8 := 0x24
def backquote : UInt8 := 0x60
def newline : UInt8 := 0x0a
def blank : UInt8 := 0x20
def digitOne : UInt8 := 0x31
def digitTwo : UInt8 := 0x32

/--
`std::isspace` in the C locale: the blank and the five control characters
from horizontal tab to carriage return.
-/
def isSpace (character : UInt8) : Bool :=
  character = 0x20 ||
    (0x09 ≤ character && character ≤ 0x0d)

/-! ## Tokens -/

/-- `TokenType`. -/
inductive TokenType where
  | word
  | pipe
  | andIf
  | background
  | orIf
  | semicolon
  | redirectIn
  | redirectOut
  | redirectAppend
  | redirectErr
  | redirectErrAppend
  | endOfInput
deriving DecidableEq, Repr

/-- `Token`: the type, the text and the byte offset it starts at. -/
structure Token where
  type : TokenType
  text : ByteString
  position : Nat
deriving DecidableEq, Repr

/-- `LexResult`; an empty error text means success. -/
structure LexResult where
  tokens : List Token
  error : ByteString
deriving DecidableEq, Repr

def LexResult.ok (result : LexResult) : Bool :=
  result.error.isEmpty

/-! ## Plans -/

/-- `Command`, with the default member initialisers of the source. -/
structure Command where
  args : List ByteString := []
  inputFile : ByteString := []
  outputFile : ByteString := []
  errorFile : ByteString := []
  hasInputRedirect : Bool := false
  hasOutputRedirect : Bool := false
  hasErrorRedirect : Bool := false
  appendOutput : Bool := false
  appendError : Bool := false
deriving DecidableEq, Repr

/-- `Pipeline`. -/
structure Pipeline where
  commands : List Command := []
  background : Bool := false
deriving DecidableEq, Repr

/-- `ChainOperator`. -/
inductive ChainOperator where
  | always
  | and
  | or
deriving DecidableEq, Repr

/-- `PipelineStep`. -/
structure PipelineStep where
  connector : ChainOperator := .always
  pipeline : Pipeline
deriving DecidableEq, Repr

/-- `ExecutionPlan`. -/
structure ExecutionPlan where
  steps : List PipelineStep := []
deriving DecidableEq, Repr

/-- `ParseResult`; an empty error text means success. -/
structure ParseResult where
  plan : ExecutionPlan
  error : ByteString
deriving DecidableEq, Repr

def ParseResult.ok (result : ParseResult) : Bool :=
  result.error.isEmpty

end Shell.Syntax
