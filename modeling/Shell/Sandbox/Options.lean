import Shell.JobControl.Table

/-!
# The options of `sandbox`

`SandboxConfig` and `parse_sandbox` with the functions it calls.  The index of
the loop over the arguments is represented by the arguments behind it; the
tests of the index against their number become tests for an empty list.
-/

namespace Shell.SandboxOptions

open Shell.Syntax
open Shell.JobTable

/-- `SandboxConfig`, with the default member initialisers of the source. -/
structure SandboxConfig where
  showHelp : Bool := false
  showStatus : Bool := false
  userNamespace : Bool := false
  pidNamespace : Bool := false
  mountNamespace : Bool := false
  networkNamespace : Bool := false
  utsNamespace : Bool := false
  mountProc : Bool := false
  hostname : ByteString := []
  hasMemoryMax : Bool := false
  memoryMaxBytes : Nat := 0
  hasPidsMax : Bool := false
  pidsMax : Nat := 0
  hasCpuPercent : Bool := false
  cpuPercent : Nat := 0
  programArgs : List ByteString := []
deriving DecidableEq, Repr

/-- `SandboxParseResult`; an empty error text means success. -/
structure SandboxParseResult where
  config : SandboxConfig := {}
  error : ByteString := []
deriving DecidableEq, Repr

def SandboxParseResult.ok (result : SandboxParseResult) : Bool :=
  result.error.isEmpty

/-! ## Numbers -/

/--
`std::stoull` with base ten: the value and the text behind the numeral, or
nothing when it throws.  A minus sign behind white space negates the value
modulo the size of the type.
-/
def stoull (text : ByteString) : Option (Nat × ByteString) :=
  let text := text.dropWhile isSpace
  let (negative, text) :=
    match text with
    | 0x2d :: rest => (true, rest)
    | 0x2b :: rest => (false, rest)
    | _ => (false, text)
  match scanDigits 0 text with
  | (_, 0, _) => none
  | (value, _, rest) =>
      if 0xffffffffffffffff < value then
        none
      else if negative then
        some ((0x10000000000000000 - value) % 0x10000000000000000, rest)
      else
        some (value, rest)

/-- `parse_unsigned`. -/
def parseUnsigned (text : ByteString) (allowZero : Bool) : Option Nat :=
  if text.head? = none ∨ text.head? = some 0x2d then
    none
  else
    match stoull text with
    | some (parsed, []) =>
        if !allowZero && parsed = 0 then none else some parsed
    | _ => none

/-- The suffixes that `parse_size` tries in turn, and their factors. -/
def sizeSuffixes : List (ByteString × Nat) :=
  [(literal "KiB", 1024), (literal "MiB", 1048576),
    (literal "GiB", 1073741824),
    (literal "K", 1024), (literal "k", 1024),
    (literal "M", 1048576), (literal "m", 1048576),
    (literal "G", 1073741824), (literal "g", 1073741824),
    (literal "B", 1), (literal "b", 1)]

/-- `parse_size`. -/
def parseSize (text : ByteString) : Option Nat :=
  if text.head? = none ∨ text.head? = some 0x2d then
    none
  else
    let (digits, multiplier) :=
      match sizeSuffixes.find? fun entry => entry.1.isSuffixOf text with
      | some (suffix, multiplier) =>
          (text.take (text.length - suffix.length), multiplier)
      | none => (text, 1)
    match parseUnsigned digits true with
    | none => none
    | some base =>
        if base > 0xffffffffffffffff / multiplier then none
        else some (base * multiplier)

example : parseSize (literal "64MiB") = some 67108864 := by decide

/-! ## The loop over the options -/

/-- The options without a value. -/
def applyFlag (config : SandboxConfig) (arg : ByteString) :
    Option SandboxConfig :=
  if arg = literal "--user" then
    some { config with userNamespace := true }
  else if arg = literal "--pid" then
    some { config with pidNamespace := true }
  else if arg = literal "--mount" then
    some { config with mountNamespace := true }
  else if arg = literal "--net" ∨ arg = literal "--no-network" then
    some { config with networkNamespace := true }
  else if arg = literal "--uts" then
    some { config with utsNamespace := true }
  else if arg = literal "--proc" then
    some { config with mountProc := true }
  else if arg = literal "--all" then
    some
      { config with
        userNamespace := true
        pidNamespace := true
        mountNamespace := true
        networkNamespace := true
        utsNamespace := true
        mountProc := true }
  else
    none

/-- The options that take a value. -/
def takesValue (arg : ByteString) : Bool :=
  arg = literal "--hostname" || arg = literal "--memory" ||
    arg = literal "--pids" || arg = literal "--cpu-percent"

/-- `HOST_NAME_MAX` on Linux. -/
def hostNameMax : Nat := 64

/-- What an option does with its value. -/
def applyValue (config : SandboxConfig) (arg value : ByteString) :
    Except ByteString SandboxConfig :=
  if arg = literal "--hostname" then
    if value = [] ∨ value.length > hostNameMax then
      .error (literal "sandbox: invalid hostname")
    else
      .ok { config with hostname := value, utsNamespace := true }
  else if arg = literal "--memory" then
    match parseSize value with
    | none => .error (literal "sandbox: invalid --memory value: " ++ value)
    | some bytes =>
        .ok { config with memoryMaxBytes := bytes, hasMemoryMax := true }
  else if arg = literal "--pids" then
    match parseUnsigned value false with
    | none => .error (literal "sandbox: invalid --pids value: " ++ value)
    | some count =>
        .ok { config with pidsMax := count, hasPidsMax := true }
  else
    match parseUnsigned value false with
    | none => .error (literal "sandbox: --cpu-percent expects 1..1000")
    | some parsed =>
        if parsed > 1000 then
          .error (literal "sandbox: --cpu-percent expects 1..1000")
        else
          .ok { config with cpuPercent := parsed, hasCpuPercent := true }

/-- How the loop over the options is left. -/
structure OptionsEnd where
  config : SandboxConfig
  explicitSeparator : Bool
  rest : List ByteString
deriving DecidableEq, Repr

/-- The loop of `parse_sandbox`. -/
def parseOptions (config : SandboxConfig) :
    List ByteString → Except SandboxParseResult OptionsEnd
  | [] => .ok ⟨config, false, []⟩
  | arg :: rest =>
      if arg = literal "--" then
        .ok ⟨config, true, rest⟩
      else if arg = literal "-h" ∨ arg = literal "--help" then
        .ok ⟨{ config with showHelp := true }, false, rest⟩
      else if arg = literal "--status" then
        -- The index is advanced here and again by the loop.
        match rest with
        | [] => .ok ⟨{ config with showStatus := true }, false, []⟩
        | _ :: rest => parseOptions { config with showStatus := true } rest
      else if arg.head? ≠ some 0x2d then
        .ok ⟨config, false, arg :: rest⟩
      else
        match applyFlag config arg with
        | some config => parseOptions config rest
        | none =>
            if takesValue arg then
              match rest with
              | [] =>
                  .error
                    ⟨config,
                      literal "sandbox: " ++ arg ++
                        literal " requires a value"⟩
              | value :: rest =>
                  match applyValue config arg value with
                  | .error message => .error ⟨config, message⟩
                  | .ok config => parseOptions config rest
            else
              .error ⟨config, literal "sandbox: unknown option: " ++ arg⟩

/-- The checks behind the loop of `parse_sandbox`. -/
def finishOptions : OptionsEnd → SandboxParseResult
  | ⟨config, explicitSeparator, rest⟩ =>
      if config.showHelp then
        if rest ≠ [] then
          ⟨config, literal "sandbox: --help does not accept a program"⟩
        else
          ⟨config, []⟩
      else if config.showStatus then
        if rest ≠ [] then
          ⟨config, literal "sandbox: --status does not accept a program"⟩
        else
          ⟨config, []⟩
      else if config.mountProc ∧
          (config.pidNamespace = false ∨ config.mountNamespace = false) then
        ⟨config, literal "sandbox: --proc requires both --pid and --mount"⟩
      else if explicitSeparator ∧ rest = [] then
        ⟨config, literal "sandbox: missing program after --"⟩
      else if rest = [] then
        ⟨config, literal "sandbox: missing program"⟩
      else
        ⟨{ config with programArgs := rest }, []⟩

/-- `parse_sandbox`. -/
def parseSandbox (command : Command) : SandboxParseResult :=
  match command.args with
  | [] => { error := literal "sandbox: internal parse error" }
  | name :: args =>
      if name ≠ literal "sandbox" then
        { error := literal "sandbox: internal parse error" }
      else
        match parseOptions {} args with
        | .error result => result
        | .ok ending => finishOptions ending

/-! ## What an accepted command asks for -/

/-- A configuration that `parse_sandbox` accepts for running a program. -/
structure Runnable (config : SandboxConfig) : Prop where
  program : config.programArgs ≠ []
  proc :
    config.mountProc = true →
      config.pidNamespace = true ∧ config.mountNamespace = true
  hostname : config.hostname ≠ [] → config.utsNamespace = true

/-- `parse_sandbox` accepts the command and asks for a program to be run. -/
def Accepts (command : Command) (config : SandboxConfig) : Prop :=
  parseSandbox command = ⟨config, []⟩ ∧
    config.showHelp = false ∧ config.showStatus = false

/-- What every option keeps, the loop over the options keeps. -/
theorem parseOptions_invariant
    (invariant : SandboxConfig → Prop)
    (help : ∀ {config}, invariant config →
      invariant { config with showHelp := true })
    (status : ∀ {config}, invariant config →
      invariant { config with showStatus := true })
    (flag : ∀ {config next arg}, invariant config →
      applyFlag config arg = some next → invariant next)
    (value : ∀ {config next arg text}, invariant config →
      applyValue config arg text = .ok next → invariant next)
    {config : SandboxConfig} {args : List ByteString} {ending : OptionsEnd}
    (holds : invariant config)
    (parsed : parseOptions config args = .ok ending) :
    invariant ending.config := by
  fun_induction parseOptions config args with
  | case1 config => cases parsed; exact holds
  | case2 config rest => cases parsed; exact holds
  | case3 config arg rest => cases parsed; exact help holds
  | case4 config => cases parsed; exact status holds
  | case5 config word rest _ _ induction =>
      exact induction (status holds) parsed
  | case6 config arg rest => cases parsed; exact holds
  | case7 config arg rest _ _ _ _ next applied induction =>
      exact induction (flag holds applied) parsed
  | case8 | case9 | case11 => cases parsed
  | case10 config arg _ _ _ _ _ _ text rest next applied induction =>
      exact induction (value holds applied) parsed

/-- The flags change what is isolated and nothing else. -/
theorem applyFlag_frame
    {config next : SandboxConfig} {arg : ByteString}
    (applied : applyFlag config arg = some next) :
    next =
      { config with
        userNamespace := next.userNamespace
        pidNamespace := next.pidNamespace
        mountNamespace := next.mountNamespace
        networkNamespace := next.networkNamespace
        utsNamespace := next.utsNamespace
        mountProc := next.mountProc } := by
  unfold applyFlag at applied
  split_ifs at applied <;> cases applied <;> rfl

/-- What an option does with a value that it accepts. -/
inductive ValueStep (config : SandboxConfig) (arg value : ByteString) :
    SandboxConfig → Prop
  | hostname
      (named : arg = literal "--hostname") (nonempty : value ≠ [])
      (short : value.length ≤ hostNameMax) :
      ValueStep config arg value
        { config with hostname := value, utsNamespace := true }
  | memory
      (named : arg = literal "--memory") {bytes : Nat}
      (read : parseSize value = some bytes) :
      ValueStep config arg value
        { config with memoryMaxBytes := bytes, hasMemoryMax := true }
  | pids
      (named : arg = literal "--pids") {count : Nat}
      (read : parseUnsigned value false = some count) :
      ValueStep config arg value
        { config with pidsMax := count, hasPidsMax := true }
  | cpuPercent
      (noHostname : arg ≠ literal "--hostname")
      (noMemory : arg ≠ literal "--memory") (noPids : arg ≠ literal "--pids")
      {parsed : Nat} (read : parseUnsigned value false = some parsed)
      (bounded : parsed ≤ 1000) :
      ValueStep config arg value
        { config with cpuPercent := parsed, hasCpuPercent := true }

theorem applyValue_cases
    {config next : SandboxConfig} {arg value : ByteString}
    (applied : applyValue config arg value = .ok next) :
    ValueStep config arg value next := by
  unfold applyValue at applied
  split_ifs at applied with hostname invalid memory pids
  · cases applied
    rw [not_or, Nat.not_lt] at invalid
    exact .hostname hostname invalid.1 invalid.2
  · split at applied
    · cases applied
    · cases applied
      exact .memory memory ‹_›
  · split at applied
    · cases applied
    · cases applied
      exact .pids pids ‹_›
  · split at applied
    · cases applied
    · split_ifs at applied with large
      cases applied
      exact .cpuPercent hostname memory pids ‹_› (Nat.le_of_not_lt large)

/-- A host name comes with a request for its namespace. -/
def NamesUts (config : SandboxConfig) : Prop :=
  config.hostname ≠ [] → config.utsNamespace = true

theorem applyFlag_namesUts
    {config next : SandboxConfig} {arg : ByteString}
    (holds : NamesUts config)
    (applied : applyFlag config arg = some next) :
    NamesUts next := by
  unfold applyFlag at applied
  split_ifs at applied <;> cases applied
  all_goals first | exact holds | exact fun _ => rfl

theorem applyValue_namesUts
    {config next : SandboxConfig} {arg value : ByteString}
    (holds : NamesUts config)
    (applied : applyValue config arg value = .ok next) :
    NamesUts next := by
  cases applyValue_cases applied with
  | hostname => exact fun _ => rfl
  | memory | pids | cpuPercent => exact holds

theorem literal_append_ne_nil
    {text : String} (nonempty : literal text ≠ []) (rest : ByteString) :
    literal text ++ rest ≠ [] :=
  fun isNil => nonempty (List.append_eq_nil_iff.mp isNil).1

theorem applyValue_error
    {config : SandboxConfig} {arg value message : ByteString}
    (applied : applyValue config arg value = .error message) :
    message ≠ [] := by
  unfold applyValue at applied
  split_ifs at applied
  · cases applied
    decide
  · split at applied <;> cases applied
    exact literal_append_ne_nil (by decide) value
  · split at applied <;> cases applied
    exact literal_append_ne_nil (by decide) value
  · split at applied
    · cases applied
      decide
    · split_ifs at applied
      cases applied
      decide

/-- A rejected option leaves a text that says so. -/
theorem parseOptions_error
    {config : SandboxConfig} {args : List ByteString}
    {result : SandboxParseResult}
    (parsed : parseOptions config args = .error result) :
    result.error ≠ [] := by
  fun_induction parseOptions config args with
  | case1 | case2 | case3 | case4 | case6 => cases parsed
  | case5 config word rest _ _ induction => exact induction parsed
  | case7 config arg rest _ _ _ _ next applied induction =>
      exact induction parsed
  | case8 =>
      cases parsed
      rw [List.append_assoc]
      exact literal_append_ne_nil (by decide) _
  | case9 config arg _ _ _ _ _ _ text rest message applied =>
      cases parsed
      exact applyValue_error applied
  | case10 config arg _ _ _ _ _ _ text rest next applied induction =>
      exact induction parsed
  | case11 =>
      cases parsed
      exact literal_append_ne_nil (by decide) _

/-- How the checks behind the loop are passed. -/
theorem finishOptions_ok
    {ending : OptionsEnd} {config : SandboxConfig}
    (finished : finishOptions ending = ⟨config, []⟩) :
    ((ending.config.showHelp = true ∨ ending.config.showStatus = true) ∧
        ending.rest = [] ∧ config = ending.config) ∨
      (ending.config.showHelp = false ∧ ending.config.showStatus = false ∧
        (ending.config.mountProc = true →
          ending.config.pidNamespace = true ∧
            ending.config.mountNamespace = true) ∧
        ending.rest ≠ [] ∧
        config = { ending.config with programArgs := ending.rest }) := by
  rcases ending with ⟨options, explicitSeparator, rest⟩
  have rejected : ∀ {text : String}, literal text ≠ [] →
      (⟨options, literal text⟩ : SandboxParseResult) ≠ ⟨config, []⟩ :=
    fun nonempty same => nonempty (congrArg SandboxParseResult.error same)
  simp only [finishOptions] at finished
  split_ifs at finished with help helpRest status statusRest proc separator
    missing
  · exact absurd finished (rejected (by decide))
  · cases finished
    exact Or.inl ⟨Or.inl help, not_not.mp helpRest, rfl⟩
  · exact absurd finished (rejected (by decide))
  · cases finished
    exact Or.inl ⟨Or.inr status, not_not.mp statusRest, rfl⟩
  · exact absurd finished (rejected (by decide))
  · exact absurd finished (rejected (by decide))
  · exact absurd finished (rejected (by decide))
  · cases finished
    refine Or.inr ⟨Bool.eq_false_iff.mpr help, Bool.eq_false_iff.mpr status,
      ?_, missing, rfl⟩
    intro mountProc
    simpa [show options.mountProc = true from mountProc] using proc

/-- An accepted command has passed the loop and the checks behind it. -/
theorem parseSandbox_ok
    {command : Command} {config : SandboxConfig}
    (parsed : parseSandbox command = ⟨config, []⟩) :
    ∃ args ending,
      command.args = literal "sandbox" :: args ∧
        parseOptions {} args = .ok ending ∧
        finishOptions ending = ⟨config, []⟩ := by
  unfold parseSandbox at parsed
  split at parsed
  · cases parsed
  · rename_i name args words
    split_ifs at parsed with isSandbox
    · cases parsed
    · rw [not_not.mp isSandbox] at words
      split at parsed
      · rename_i result options
        have failed := parseOptions_error options
        rw [parsed] at failed
        exact absurd rfl failed
      · rename_i ending options
        exact ⟨args, ending, words, options, parsed⟩

/-- A command that runs a program has left the loop in front of it. -/
theorem accepts_ending
    {command : Command} {config : SandboxConfig}
    (accepts : Accepts command config) :
    ∃ args ending,
      command.args = literal "sandbox" :: args ∧
        parseOptions {} args = .ok ending ∧
        ending.config.showHelp = false ∧
        ending.config.showStatus = false ∧
        (ending.config.mountProc = true →
          ending.config.pidNamespace = true ∧
            ending.config.mountNamespace = true) ∧
        ending.rest ≠ [] ∧
        config = { ending.config with programArgs := ending.rest } := by
  rcases accepts with ⟨parsed, noHelp, noStatus⟩
  rcases parseSandbox_ok parsed with ⟨args, ending, words, options, finished⟩
  rcases finishOptions_ok finished with
    ⟨help | status, -, rfl⟩ | ⟨noHelp, noStatus, proc, program, same⟩
  · rw [help] at noHelp
    cases noHelp
  · rw [status] at noStatus
    cases noStatus
  · exact ⟨args, ending, words, options, noHelp, noStatus, proc, program,
      same⟩

theorem accepts_runnable
    {command : Command} {config : SandboxConfig}
    (accepts : Accepts command config) :
    Runnable config := by
  rcases accepts_ending accepts with
    ⟨args, ending, -, options, -, -, proc, program, rfl⟩
  refine ⟨program, proc, ?_⟩
  exact parseOptions_invariant NamesUts id id applyFlag_namesUts
    applyValue_namesUts (fun absent => absurd rfl absent) options

end Shell.SandboxOptions
