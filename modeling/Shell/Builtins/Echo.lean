import Shell.Executor.JobText

/-!
# The texts that `echo` can print

`builtin_echo` and `process_echo_escapes`.  A text goes through two decoders on
its way to the output: the lexer takes away the quotes, and `echo` the escapes.
Single quotes protect a backslash from the first, so a text that is escaped
for `echo` and then put between them is printed as it was.
-/

namespace Shell.Echo

open Shell.Syntax
open Shell.CommandGrammar
open Shell.CommandParser
open Shell.PlanPrinter
open Shell.Composition
open Shell.Display
open Shell.JobText

def tab : UInt8 := 0x09

/-- `process_echo_escapes`. -/
def processEchoEscapes : ByteString → ByteString
  | [] => []
  | character :: rest =>
      if character = backslash then
        match rest with
        | [] => [backslash]
        | next :: later =>
            if next = 0x6e then newline :: processEchoEscapes later
            else if next = 0x74 then tab :: processEchoEscapes later
            else if next = backslash then
              backslash :: processEchoEscapes later
            else
              backslash :: processEchoEscapes (next :: later)
      else
        character :: processEchoEscapes rest

/-- `builtin_echo`: what it writes. -/
def builtinEcho (command : Command) : ByteString :=
  [blank].intercalate (command.args.tail.map processEchoEscapes) ++ [newline]

/-! ## Escapes -/

/-- A byte that `echo` prints as it is, or the escape for it. -/
def escapeByte (byte : UInt8) : ByteString :=
  if byte = backslash then [backslash, backslash]
  else if byte = newline then [backslash, 0x6e]
  else if byte = tab then [backslash, 0x74]
  else [byte]

def escapeText (text : ByteString) : ByteString :=
  text.flatMap escapeByte

theorem processEchoEscapes_escapeByte (byte : UInt8) (rest : ByteString) :
    processEchoEscapes (escapeByte byte ++ rest) =
      byte :: processEchoEscapes rest := by
  unfold escapeByte
  split_ifs with isBackslash isNewline isTab
  · rw [isBackslash]
    rfl
  · rw [isNewline]
    rfl
  · rw [isTab]
    rfl
  · rw [List.singleton_append, processEchoEscapes.eq_def]
    exact if_neg isBackslash

/-- `echo` takes away the escapes, whatever stands behind them. -/
theorem processEchoEscapes_escapeText (text : ByteString) :
    processEchoEscapes (escapeText text) = text := by
  induction text with
  | nil => rfl
  | cons byte text induction =>
      rw [escapeText, List.flatMap_cons, processEchoEscapes_escapeByte]
      exact congrArg (byte :: ·) induction

/-! ## The command line -/

/-- The command with one argument. -/
def echoCommand (argument : ByteString) : Command where
  args := [literal "echo", argument]

theorem echoCommand_wellFormed (argument : ByteString) :
    WellFormedCommand (echoCommand argument) where
  named := List.cons_ne_nil _ _
  input _ := rfl
  output _ := ⟨rfl, rfl⟩
  error _ := ⟨rfl, rfl⟩

theorem spells_echo (argument : ByteString) :
    Spells (literal "echo " ++ printWord argument)
      (fun tokens =>
        DerivesCommand tokens
          (canonicalTree (echoCommand argument)
            (echoCommand_wellFormed argument).named)) := by
  have name : Spells (literal "echo") (IsWord (literal "echo")) := by
    have spelled :=
      spells_quoteForDisplay (show Legible (literal "echo") by decide +kernel)
    have unquoted : quoteForDisplay (literal "echo") = literal "echo" := by
      decide
    rwa [unquoted] at spelled
  refine name.append (spells_word argument).blank (opensBoundary_blank _) ?_
  rintro _ _ ⟨first, rfl, firstIsWord, firstText⟩
    ⟨second, rfl, secondIsWord, secondText⟩
  show DerivesItems ([first] ++ [second])
    [.word (literal "echo"), .word argument]
  rw [← firstText, ← secondText]
  exact .cons (DerivesItem.word firstIsWord)
    (.single (DerivesItem.word secondIsWord))

theorem parseLine_echo (argument : ByteString) :
    parseLine (literal "echo " ++ printWord argument) =
      some ⟨⟨[⟨.always, ⟨[echoCommand argument], false⟩⟩]⟩, []⟩ := by
  have wellFormed := echoCommand_wellFormed argument
  have line :
      Spells (literal "echo " ++ printWord argument)
        (fun tokens =>
          ∀ final : Token, final.type = .endOfInput →
            DerivesLine (tokens ++ [final])
              (some
                (.last
                  ⟨canonicalTree (echoCommand argument) wellFormed.named,
                    []⟩))) :=
    (spells_echo argument).mono fun derivation final isEnd =>
      .sequence (.last (.single derivation)) isEnd
  rw [parseLine_of_spells line, denoteLine, SequenceTree.denote,
    PipelineTree.denote, List.map_singleton, canonicalTree_denote wellFormed]

/--
Every text can be printed: escaped for `echo` and put between single quotes,
it makes a command line with one command, which writes the text.
-/
theorem echo_prints_every_text (text : ByteString) :
    parseLine (literal "echo " ++ printWord (escapeText text)) =
        some
          ⟨⟨[⟨.always, ⟨[echoCommand (escapeText text)], false⟩⟩]⟩, []⟩ ∧
      builtinEcho (echoCommand (escapeText text)) = text ++ [newline] := by
  refine ⟨parseLine_echo (escapeText text), ?_⟩
  show [blank].intercalate [processEchoEscapes (escapeText text)] ++
    [newline] = _
  rw [List.intercalate_singleton, processEchoEscapes_escapeText]

/-- A backslash in front of an `n` is not taken for a line break. -/
example :
    escapeText (literal "a\\nb'\n") = literal "a\\\\nb'\\n" := by
  decide

end Shell.Echo
