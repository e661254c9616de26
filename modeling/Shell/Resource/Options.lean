import Shell.Parsing.Numerals

/-!
# The options of `run`

`ResourceRunConfig` and `parse_resource_run` with the functions it calls.  As
in the options of `sandbox`, the index of the loop over the arguments is
represented by the arguments behind it.  A function of the source that returns
`bool` and writes to a reference gets the value of the reference as an argument
and returns it together with its result.

The second half says which arguments are accepted and what is read from them:
a list of options with their values, and the program behind it.
-/

namespace Shell.ResourceOptions

open Shell.Syntax
open Shell.Numerals
open Shell.SandboxOptions (stoull)

/-- `ResourceRunConfig`, with the default member initialisers of the source. -/
structure ResourceRunConfig where
  showHelp : Bool := false
  hasMaxMemory : Bool := false
  maxMemoryBytes : Nat := 0
  hasMaxFds : Bool := false
  maxFds : Nat := 0
  hasCpuTime : Bool := false
  cpuTimeSeconds : Nat := 0
  hasMaxProcs : Bool := false
  maxProcs : Nat := 0
  hasCoreSize : Bool := false
  coreSizeBytes : Nat := 0
  hasNice : Bool := false
  niceValue : Int := 0
  programArgs : List ByteString := []
deriving DecidableEq, Repr

/-- `ResourceRunParseResult`; an empty error text means success. -/
structure ResourceRunParseResult where
  config : ResourceRunConfig := {}
  error : ByteString := []
deriving DecidableEq, Repr

/-! ## Values -/

/-- `parse_unsigned`. -/
def parseUnsigned (text : ByteString) (value : Nat) (allowZero : Bool) :
    Bool × Nat :=
  if text.head? = none ∨ text.head? = some 0x2d then
    (false, value)
  else
    match stoull text with
    | some (parsed, []) =>
        if !allowZero && parsed = 0 then (false, value) else (true, parsed)
    | _ => (false, value)

/-- The capital of a small letter. -/
def upcase (character : UInt8) : UInt8 :=
  if 0x61 ≤ character ∧ character ≤ 0x7a then
    character - 0x61 + 0x41
  else
    character

/-- The comparisons of `parse_size` with the suffixes it knows. -/
def sizeMultiplier (suffix : ByteString) : Option Nat :=
  if suffix = [] ∨ suffix = literal "B" then
    some 1
  else if suffix = literal "K" ∨ suffix = literal "KB" ∨
      suffix = literal "KIB" then
    some 1024
  else if suffix = literal "M" ∨ suffix = literal "MB" ∨
      suffix = literal "MIB" then
    some (1024 * 1024)
  else if suffix = literal "G" ∨ suffix = literal "GB" ∨
      suffix = literal "GIB" then
    some (1024 * 1024 * 1024)
  else
    none

/-- `parse_size`. -/
def parseSize (text : ByteString) (bytes : Nat) : Bool × Nat :=
  if text.head? = none ∨ text.head? = some 0x2d then
    (false, bytes)
  else
    let digits := text.takeWhile isDigit
    if digits = [] then
      (false, bytes)
    else
      match parseUnsigned digits 0 true with
      | (false, _) => (false, bytes)
      | (true, value) =>
          let suffix := (text.dropWhile isDigit).map upcase
          match sizeMultiplier suffix with
          | none => (false, bytes)
          | some multiplier =>
              if value > 0xffffffffffffffff / multiplier then
                (false, bytes)
              else
                (true, value * multiplier % 0x10000000000000000)

/-- `parse_nice_value`. -/
def parseNiceValue (text : ByteString) (value : Int) : Bool × Int :=
  match stol text with
  | none => (false, value)
  | some (parsed, rest) =>
      if rest ≠ [] ∨ parsed < -20 ∨ parsed > 19 then (false, value)
      else (true, parsed)

/-! ## The loop over the options -/

/-- The options that take a value. -/
inductive RunOption where
  | maxMemory
  | maxFds
  | cpuTime
  | maxProcs
  | coreSize
  | nice
deriving DecidableEq, Repr

namespace RunOption

def name : RunOption → ByteString
  | .maxMemory => literal "--max-memory"
  | .maxFds => literal "--max-fds"
  | .cpuTime => literal "--cpu-time"
  | .maxProcs => literal "--max-procs"
  | .coreSize => literal "--core-size"
  | .nice => literal "--nice"

/-- What the option does with its value, and whether it accepts it. -/
def store (config : ResourceRunConfig) (value : ByteString) :
    RunOption → Bool × ResourceRunConfig
  | .maxMemory =>
      let (accepted, bytes) := parseSize value config.maxMemoryBytes
      (accepted,
        { config with
          maxMemoryBytes := bytes
          hasMaxMemory := config.hasMaxMemory || accepted })
  | .maxFds =>
      let (accepted, count) := parseUnsigned value config.maxFds false
      (accepted,
        { config with
          maxFds := count
          hasMaxFds := config.hasMaxFds || accepted })
  | .cpuTime =>
      let (accepted, seconds) :=
        parseUnsigned value config.cpuTimeSeconds false
      (accepted,
        { config with
          cpuTimeSeconds := seconds
          hasCpuTime := config.hasCpuTime || accepted })
  | .maxProcs =>
      let (accepted, count) := parseUnsigned value config.maxProcs false
      (accepted,
        { config with
          maxProcs := count
          hasMaxProcs := config.hasMaxProcs || accepted })
  | .coreSize =>
      let (accepted, bytes) := parseSize value config.coreSizeBytes
      (accepted,
        { config with
          coreSizeBytes := bytes
          hasCoreSize := config.hasCoreSize || accepted })
  | .nice =>
      let (accepted, value) := parseNiceValue value config.niceValue
      (accepted,
        { config with
          niceValue := value
          hasNice := config.hasNice || accepted })

/-- The error text for a value that is not accepted. -/
def invalid (value : ByteString) : RunOption → ByteString
  | .nice => literal "run: --nice expects an integer from -20 to 19"
  | option =>
      literal "run: invalid " ++ option.name ++ literal " value: " ++ value

end RunOption

/-- The comparisons of an argument with the names of the options. -/
def optionNamed (arg : ByteString) : Option RunOption :=
  [RunOption.maxMemory, .maxFds, .cpuTime, .maxProcs, .coreSize, .nice].find?
    fun option => arg = option.name

/-- How the loop over the options is left. -/
structure OptionsEnd where
  config : ResourceRunConfig
  explicitSeparator : Bool
  rest : List ByteString
deriving DecidableEq, Repr

/-- The loop of `parse_resource_run`. -/
def parseOptions (config : ResourceRunConfig) :
    List ByteString → Except ResourceRunParseResult OptionsEnd
  | [] => .ok ⟨config, false, []⟩
  | arg :: rest =>
      if arg = literal "--" then
        .ok ⟨config, true, rest⟩
      else if arg = literal "-h" ∨ arg = literal "--help" then
        .ok ⟨{ config with showHelp := true }, false, rest⟩
      else if arg.head? ≠ some 0x2d then
        .ok ⟨config, false, arg :: rest⟩
      else
        match optionNamed arg with
        | none => .error ⟨config, literal "run: unknown option: " ++ arg⟩
        | some option =>
            match rest with
            | [] =>
                .error
                  ⟨config,
                    literal "run: " ++ arg ++ literal " requires a value"⟩
            | value :: rest =>
                match option.store config value with
                | (false, config) => .error ⟨config, option.invalid value⟩
                | (true, config) => parseOptions config rest

/-- The checks behind the loop of `parse_resource_run`. -/
def finishOptions : OptionsEnd → ResourceRunParseResult
  | ⟨config, explicitSeparator, rest⟩ =>
      if config.showHelp then
        if rest ≠ [] then
          ⟨config, literal "run: --help does not accept a program"⟩
        else
          ⟨config, []⟩
      else if explicitSeparator ∧ rest = [] then
        ⟨config, literal "run: missing program after --"⟩
      else if rest = [] then
        ⟨config, literal "run: missing program"⟩
      else
        ⟨{ config with programArgs := rest }, []⟩

/-- `parse_resource_run`. -/
def parseResourceRun (command : Command) : ResourceRunParseResult :=
  match command.args with
  | [] => { error := literal "run: internal parse error" }
  | name :: args =>
      if name ≠ literal "run" then
        { error := literal "run: internal parse error" }
      else
        match parseOptions {} args with
        | .error result => result
        | .ok ending => finishOptions ending

/-! ## What the values denote -/

/-- A function that writes to its reference only if it succeeds. -/
def assign {α : Type} (old : α) : Option α → Bool × α
  | none => (false, old)
  | some new => (true, new)

theorem assign_eq_true {α : Type} {old new : α} {result : Option α} :
    assign old result = (true, new) ↔ result = some new := by
  cases result <;> simp [assign]

/-- `run` and `sandbox` read numbers in the same way. -/
theorem parseUnsigned_eq
    (text : ByteString) (value : Nat) (allowZero : Bool) :
    parseUnsigned text value allowZero =
      assign value (SandboxOptions.parseUnsigned text allowZero) := by
  rw [parseUnsigned, SandboxOptions.parseUnsigned]
  split_ifs
  · rfl
  · generalize stoull text = result
    rcases result with - | ⟨parsed, - | ⟨head, rest⟩⟩
    · rfl
    · simp only
      split_ifs <;> rfl
    · rfl

/-- The number of bytes that a text of digits and a suffix denotes, if there is
one and it fits. -/
def sizeValue (text : ByteString) : Option Nat :=
  if text.takeWhile isDigit = [] then
    none
  else
    (sizeMultiplier ((text.dropWhile isDigit).map upcase)).bind
      fun multiplier =>
        let size := decimalValue (text.takeWhile isDigit) * multiplier
        if size ≤ 0xffffffffffffffff then some size else none

theorem sizeMultiplier_pos
    {suffix : ByteString} {multiplier : Nat}
    (known : sizeMultiplier suffix = some multiplier) :
    0 < multiplier := by
  rw [sizeMultiplier] at known
  split_ifs at known <;> cases known <;> decide

theorem takeWhile_isDigit_of_refused
    {text : ByteString}
    (refused : text.head? = none ∨ text.head? = some 0x2d) :
    text.takeWhile isDigit = [] := by
  rcases text with - | ⟨head, rest⟩
  · rfl
  · rcases refused with isNil | isMinus
    · cases isNil
    · cases isMinus
      rfl

/-- The digits, the suffix and the guard against overflow together leave the
sizes that fit. -/
theorem parseSize_eq (text : ByteString) (bytes : Nat) :
    parseSize text bytes = assign bytes (sizeValue text) := by
  have areDigits : ∀ character ∈ text.takeWhile isDigit,
      isDigit character = true :=
    fun _ => List.mem_takeWhile_imp
  rw [parseSize, sizeValue]
  by_cases refused : text.head? = none ∨ text.head? = some 0x2d
  · rw [if_pos refused, if_pos (takeWhile_isDigit_of_refused refused)]
    rfl
  rw [if_neg refused]
  by_cases noDigits : text.takeWhile isDigit = []
  · simp only [noDigits, if_true]
    rfl
  simp only [noDigits, if_false, parseUnsigned_eq,
    parseUnsigned_digits noDigits areDigits]
  generalize decimalValue (text.takeWhile isDigit) = value
  cases known : sizeMultiplier ((text.dropWhile isDigit).map upcase) with
  | none =>
      by_cases fits : value ≤ 0xffffffffffffffff
      · simp [fits, assign]
      · simp [fits, assign]
  | some multiplier =>
      have positive := sizeMultiplier_pos known
      have guard_iff :
          value ≤ 0xffffffffffffffff / multiplier ↔
            value * multiplier ≤ 0xffffffffffffffff :=
        Nat.le_div_iff_mul_le positive
      by_cases fits : value * multiplier ≤ 0xffffffffffffffff
      · have small : value ≤ 0xffffffffffffffff :=
          Nat.le_trans (Nat.le_mul_of_pos_right value positive) fits
        have exact : value * multiplier % 0x10000000000000000 =
            value * multiplier :=
          Nat.mod_eq_of_lt (Nat.lt_succ_of_le fits)
        simp only [small, if_true, assign, Option.bind_some, if_pos fits,
          if_neg (Nat.not_lt.mpr (guard_iff.mpr fits)), exact]
      · have above : value > 0xffffffffffffffff / multiplier :=
          Nat.lt_of_not_le (mt guard_iff.mp fits)
        by_cases small : value ≤ 0xffffffffffffffff
        · simp only [small, if_true, assign, Option.bind_some, if_neg fits,
            if_pos above]
        · simp only [small, if_false, assign, Option.bind_some, if_neg fits]

/-- The suffixes of sizes, written in capitals, and their multipliers. -/
def sizeUnits : List (ByteString × Nat) :=
  [([], 1), (literal "B", 1),
    (literal "K", 1024), (literal "KB", 1024), (literal "KIB", 1024),
    (literal "M", 1048576), (literal "MB", 1048576),
    (literal "MIB", 1048576),
    (literal "G", 1073741824), (literal "GB", 1073741824),
    (literal "GIB", 1073741824)]

/-- The suffix is one of them if the case of its letters is ignored. -/
def SizeSuffix (suffix : ByteString) (multiplier : Nat) : Prop :=
  (suffix.map upcase, multiplier) ∈ sizeUnits

theorem sizeMultiplier_eq_some
    {suffix : ByteString} {multiplier : Nat} :
    sizeMultiplier suffix = some multiplier ↔
      (suffix, multiplier) ∈ sizeUnits := by
  constructor
  · intro known
    rw [sizeMultiplier] at known
    split_ifs at known with bytes kilo mega giga
    · cases known
      rcases bytes with rfl | rfl <;> decide
    · cases known
      rcases kilo with rfl | rfl | rfl <;> decide
    · cases known
      rcases mega with rfl | rfl | rfl <;> decide
    · cases known
      rcases giga with rfl | rfl | rfl <;> decide
  · intro listed
    have inverse :
        sizeUnits.all (fun entry => sizeMultiplier entry.1 = some entry.2) =
          true := by
      decide +kernel
    exact of_decide_eq_true (List.all_eq_true.mp inverse _ listed)

theorem upcase_of_isDigit
    {character : UInt8} (digit : isDigit character = true) :
    upcase character = character := by
  apply if_neg
  rintro ⟨above, -⟩
  exact absurd (UInt8.le_trans above (isDigit_bounds digit).2) (by decide)

/-- No suffix starts with a digit. -/
theorem takeWhile_isDigit_suffix
    {suffix : ByteString} {multiplier : Nat}
    (known : SizeSuffix suffix multiplier) :
    suffix.takeWhile isDigit = [] := by
  have noDigit :
      sizeUnits.all (fun entry => !(entry.1.head?.any isDigit)) = true := by
    decide +kernel
  rcases suffix with - | ⟨head, rest⟩
  · rfl
  · have starts := List.all_eq_true.mp noDigit _ known
    cases digit : isDigit head with
    | false => simp [digit]
    | true => simp [upcase_of_isDigit digit, digit] at starts

/-- The digits and the suffix of a text are determined. -/
theorem span_size
    {digits suffix : ByteString} {multiplier : Nat}
    (areDigits : ∀ character ∈ digits, isDigit character = true)
    (known : SizeSuffix suffix multiplier) :
    (digits ++ suffix).takeWhile isDigit = digits ∧
      (digits ++ suffix).dropWhile isDigit = suffix := by
  have noDigits := takeWhile_isDigit_suffix known
  constructor
  · rw [List.takeWhile_append_of_pos areDigits, noDigits, List.append_nil]
  · have split := List.takeWhile_append_dropWhile (p := isDigit) (l := suffix)
    rw [noDigits, List.nil_append] at split
    rw [List.dropWhile_append_of_pos areDigits, split]

theorem sizeValue_eq_some {text : ByteString} {size : Nat} :
    sizeValue text = some size ↔
      ∃ digits suffix multiplier,
        text = digits ++ suffix ∧ digits ≠ [] ∧
          (∀ character ∈ digits, isDigit character = true) ∧
          SizeSuffix suffix multiplier ∧
          decimalValue digits * multiplier ≤ 0xffffffffffffffff ∧
          size = decimalValue digits * multiplier := by
  rw [sizeValue, Option.ite_none_left_eq_some]
  constructor
  · rintro ⟨nonempty, read⟩
    rcases Option.bind_eq_some_iff.mp read with ⟨multiplier, known, fitting⟩
    rcases Option.ite_none_right_eq_some.mp fitting with ⟨fits, same⟩
    cases same
    exact ⟨_, _, multiplier, List.takeWhile_append_dropWhile.symm, nonempty,
      fun _ => List.mem_takeWhile_imp, sizeMultiplier_eq_some.mp known, fits,
      rfl⟩
  · rintro ⟨digits, suffix, multiplier, rfl, nonempty, areDigits, known,
      fits, rfl⟩
    rcases span_size areDigits known with ⟨digitsOnly, suffixOnly⟩
    rw [digitsOnly, suffixOnly, sizeMultiplier_eq_some.mpr known]
    exact ⟨nonempty, if_pos fits⟩

/--
A size is accepted if it is a word of digits with a known suffix, in capitals
or not, and the number of bytes fits into 64 bits; it is then exactly that
number.  A text that is not accepted leaves the variable alone.
-/
theorem size_exact (text : ByteString) (bytes : Nat) :
    (∀ size,
      parseSize text bytes = (true, size) ↔
        ∃ digits suffix multiplier,
          text = digits ++ suffix ∧ digits ≠ [] ∧
            (∀ character ∈ digits, isDigit character = true) ∧
            SizeSuffix suffix multiplier ∧
            decimalValue digits * multiplier ≤ 0xffffffffffffffff ∧
            size = decimalValue digits * multiplier) ∧
    ((parseSize text bytes).1 = false → (parseSize text bytes).2 = bytes) := by
  rw [parseSize_eq]
  constructor
  · intro size
    rw [assign_eq_true]
    exact sizeValue_eq_some
  · cases sizeValue text with
    | none => exact fun _ => rfl
    | some size => exact nofun

/-! ## What an option stores -/

/-- What a value parser has written, if it has accepted its text. -/
def taken {α : Type} : Bool × α → Option α
  | (true, value) => some value
  | (false, _) => none

theorem assign_taken {α : Type} (old : α) (result : Option α) :
    taken (assign old result) = result := by
  cases result <;> rfl

theorem parseNiceValue_eq (text : ByteString) (value : Int) :
    parseNiceValue text value =
      assign value (taken (parseNiceValue text 0)) := by
  rw [parseNiceValue, parseNiceValue]
  generalize stol text = result
  rcases result with - | ⟨parsed, rest⟩
  · rfl
  · simp only
    split_ifs <;> rfl

namespace RunOption

/-- The number that the value parser of the option reads. -/
def number (value : ByteString) : RunOption → Option Int
  | .maxMemory | .coreSize => (taken (parseSize value 0)).map Int.ofNat
  | .maxFds | .cpuTime | .maxProcs =>
      (taken (parseUnsigned value 0 false)).map Int.ofNat
  | .nice => taken (parseNiceValue value 0)

/-- The number that a configuration has for the option, if it has one. -/
def requested (config : ResourceRunConfig) : RunOption → Option Int
  | .maxMemory =>
      if config.hasMaxMemory then some config.maxMemoryBytes else none
  | .maxFds => if config.hasMaxFds then some config.maxFds else none
  | .cpuTime =>
      if config.hasCpuTime then some config.cpuTimeSeconds else none
  | .maxProcs => if config.hasMaxProcs then some config.maxProcs else none
  | .coreSize =>
      if config.hasCoreSize then some config.coreSizeBytes else none
  | .nice => if config.hasNice then some config.niceValue else none

/-- The configuration with a number for the option. -/
def put (config : ResourceRunConfig) (number : Int) :
    RunOption → ResourceRunConfig
  | .maxMemory =>
      { config with
        hasMaxMemory := true
        maxMemoryBytes := number.toNat }
  | .maxFds => { config with hasMaxFds := true, maxFds := number.toNat }
  | .cpuTime =>
      { config with hasCpuTime := true, cpuTimeSeconds := number.toNat }
  | .maxProcs =>
      { config with hasMaxProcs := true, maxProcs := number.toNat }
  | .coreSize =>
      { config with hasCoreSize := true, coreSizeBytes := number.toNat }
  | .nice => { config with hasNice := true, niceValue := number }

/-- An option accepts the values that its parser reads. -/
theorem store_eq
    (option : RunOption) (config : ResourceRunConfig) (value : ByteString) :
    option.store config value =
      match option.number value with
      | none => (false, config)
      | some number => (true, option.put config number) := by
  cases option with
  | maxMemory | coreSize =>
      simp only [number, store, parseSize_eq, assign_taken]
      cases sizeValue value <;> simp [assign, put]
  | maxFds | cpuTime | maxProcs =>
      simp only [number, store, parseUnsigned_eq, assign_taken]
      cases SandboxOptions.parseUnsigned value false <;> simp [assign, put]
  | nice =>
      simp only [number, store]
      rw [parseNiceValue_eq]
      cases taken (parseNiceValue value 0) <;> simp [assign, put]

theorem requested_put_self
    {option : RunOption} {value : ByteString} {read : Int}
    (accepted : option.number value = some read)
    (config : ResourceRunConfig) :
    option.requested (option.put config read) = some read := by
  cases option with
  | nice => rfl
  | maxMemory | coreSize | maxFds | cpuTime | maxProcs =>
      rcases Option.map_eq_some_iff.mp accepted with ⟨natural, -, rfl⟩
      rfl

theorem requested_put_of_ne
    {option other : RunOption} (different : other ≠ option)
    (config : ResourceRunConfig) (read : Int) :
    other.requested (option.put config read) = other.requested config := by
  cases option <;> cases other <;> first
    | rfl
    | exact absurd rfl different

theorem put_showHelp
    (option : RunOption) (config : ResourceRunConfig) (read : Int) :
    (option.put config read).showHelp = config.showHelp := by
  cases option <;> rfl

theorem name_starts (option : RunOption) :
    option.name.head? = some 0x2d ∧ option.name ≠ literal "--" ∧
      option.name ≠ literal "-h" ∧ option.name ≠ literal "--help" := by
  cases option <;> decide

theorem optionNamed_name (option : RunOption) :
    optionNamed option.name = some option := by
  cases option <;> decide

theorem name_of_optionNamed
    {arg : ByteString} {option : RunOption}
    (named : optionNamed arg = some option) :
    arg = option.name := by
  simpa using List.find?_some named

end RunOption

/-! ## The arguments that are accepted -/

/--
The arguments behind the name of the command: options, each with a value that
its parser accepts, and then the program with its arguments, either behind
`--` or starting with a word that is not an option.
-/
inductive Invocation :
    List ByteString → List (RunOption × ByteString) → List ByteString →
      Prop where
  | separated {program : List ByteString} (nonempty : program ≠ []) :
      Invocation (literal "--" :: program) [] program
  | direct {word : ByteString} (plain : word.head? ≠ some 0x2d)
      (rest : List ByteString) :
      Invocation (word :: rest) [] (word :: rest)
  | option (option : RunOption) {value : ByteString} {number : Int}
      (accepted : option.number value = some number)
      {args : List ByteString} {pairs : List (RunOption × ByteString)}
      {program : List ByteString}
      (later : Invocation args pairs program) :
      Invocation (option.name :: value :: args) ((option, value) :: pairs)
        program

/-- The value with which an option occurs last. -/
def lastValue (option : RunOption) (pairs : List (RunOption × ByteString)) :
    Option ByteString :=
  (pairs.reverse.find? fun pair => pair.1 = option).map Prod.snd

/-- The configuration after the options, if their values are accepted. -/
def configured (config : ResourceRunConfig) :
    List (RunOption × ByteString) → ResourceRunConfig
  | [] => config
  | (option, value) :: pairs =>
      configured
        (match option.number value with
          | none => config
          | some number => option.put config number)
        pairs

theorem parseOptions_option
    {option : RunOption} {value : ByteString} {number : Int}
    (accepted : option.number value = some number)
    (config : ResourceRunConfig) (args : List ByteString) :
    parseOptions config (option.name :: value :: args) =
      parseOptions (option.put config number) args := by
  rcases option.name_starts with ⟨isOption, notSeparator, notShort, notHelp⟩
  rw [parseOptions, if_neg notSeparator,
    if_neg (not_or.mpr ⟨notShort, notHelp⟩), if_neg (not_not.mpr isOption),
    option.optionNamed_name]
  simp only [option.store_eq, accepted]

theorem parseOptions_direct
    {word : ByteString} (plain : word.head? ≠ some 0x2d)
    (config : ResourceRunConfig) (rest : List ByteString) :
    parseOptions config (word :: rest) =
      .ok ⟨config, false, word :: rest⟩ := by
  have different (text : String) (isOption : (literal text).head? = some 0x2d) :
      word ≠ literal text := by
    rintro rfl
    exact plain isOption
  rw [parseOptions, if_neg (different "--" rfl),
    if_neg (not_or.mpr ⟨different "-h" rfl, different "--help" rfl⟩),
    if_pos plain]

/-- The loop takes the options one by one and leaves the program. -/
theorem parseOptions_of_invocation
    {args : List ByteString} {pairs : List (RunOption × ByteString)}
    {program : List ByteString} (invocation : Invocation args pairs program)
    (config : ResourceRunConfig) :
    ∃ separator,
      parseOptions config args =
        .ok ⟨configured config pairs, separator, program⟩ := by
  induction invocation generalizing config with
  | separated _ => exact ⟨true, rfl⟩
  | direct plain rest => exact ⟨false, parseOptions_direct plain config rest⟩
  | @option option value number accepted _ _ _ _ induction =>
      rcases induction (option.put config number) with ⟨separator, parsed⟩
      refine ⟨separator, ?_⟩
      rw [parseOptions_option accepted, parsed, configured, accepted]

/-- Whatever the loop leaves as a program is one, unless help was asked for. -/
theorem invocation_of_parseOptions
    {config next : ResourceRunConfig} {args : List ByteString}
    {separator : Bool} {program : List ByteString}
    (parsed : parseOptions config args = .ok ⟨next, separator, program⟩)
    (noHelp : next.showHelp = false) (nonempty : program ≠ []) :
    ∃ pairs, Invocation args pairs program := by
  fun_induction parseOptions config args with
  | case1 config =>
      cases parsed
      exact absurd rfl nonempty
  | case2 config rest =>
      cases parsed
      exact ⟨[], .separated nonempty⟩
  | case3 config arg rest =>
      cases parsed
      cases noHelp
  | case4 config arg rest _ _ plain =>
      cases parsed
      exact ⟨[], .direct plain rest⟩
  | case5 | case6 | case7 => cases parsed
  | case8 config arg _ _ _ option named value rest next stored induction =>
      rcases induction parsed with ⟨pairs, invocation⟩
      rw [option.store_eq] at stored
      cases accepted : option.number value with
      | none =>
          rw [accepted] at stored
          cases stored
      | some number =>
          rw [RunOption.name_of_optionNamed named]
          exact ⟨_, .option option accepted invocation⟩

theorem RunOption.invalid_ne_nil (option : RunOption) (value : ByteString) :
    option.invalid value ≠ [] := by
  cases option <;> exact List.cons_ne_nil _ _

/-- A rejected argument leaves a text that says so. -/
theorem parseOptions_error
    {config : ResourceRunConfig} {args : List ByteString}
    {result : ResourceRunParseResult}
    (parsed : parseOptions config args = .error result) :
    result.error ≠ [] := by
  fun_induction parseOptions config args with
  | case1 | case2 | case3 | case4 => cases parsed
  | case5 | case6 =>
      cases parsed
      exact List.cons_ne_nil _ _
  | case7 config arg _ _ _ option _ value =>
      cases parsed
      exact option.invalid_ne_nil value
  | case8 config arg _ _ _ option named value rest next stored induction =>
      exact induction parsed

/-- The checks behind the loop leave the program alone. -/
theorem finishOptions_accepts
    {ending : OptionsEnd} {config : ResourceRunConfig} :
    finishOptions ending = ⟨config, []⟩ ∧ config.showHelp = false ↔
      ending.config.showHelp = false ∧ ending.rest ≠ [] ∧
        config = { ending.config with programArgs := ending.rest } := by
  rcases ending with ⟨options, separator, rest⟩
  simp only [finishOptions]
  have failed {text : String} (nonempty : literal text ≠ [])
      (finished :
        (⟨options, literal text⟩ : ResourceRunParseResult) = ⟨config, []⟩) :
      False :=
    nonempty (congrArg ResourceRunParseResult.error finished)
  constructor
  · rintro ⟨finished, noHelp⟩
    split_ifs at finished with help hasRest separated missing
    · exact (failed (by decide) finished).elim
    · cases finished
      rw [help] at noHelp
      cases noHelp
    · exact (failed (by decide) finished).elim
    · exact (failed (by decide) finished).elim
    · cases finished
      exact ⟨Bool.eq_false_iff.mpr help, missing, rfl⟩
  · rintro ⟨noHelp, nonempty, rfl⟩
    rw [if_neg (Bool.eq_false_iff.mp noHelp),
      if_neg fun both => nonempty both.2, if_neg nonempty]
    exact ⟨rfl, noHelp⟩

theorem configured_showHelp
    (config : ResourceRunConfig) (pairs : List (RunOption × ByteString)) :
    (configured config pairs).showHelp = config.showHelp := by
  induction pairs generalizing config with
  | nil => rfl
  | cons pair pairs induction =>
      rw [configured, induction]
      split
      · rfl
      · exact RunOption.put_showHelp _ _ _

theorem lastValue_cons
    (option : RunOption) (pair : RunOption × ByteString)
    (pairs : List (RunOption × ByteString)) :
    lastValue option (pair :: pairs) =
      (lastValue option pairs).or
        (if pair.1 = option then some pair.2 else none) := by
  rw [lastValue, lastValue, List.reverse_cons, List.find?_append]
  cases pairs.reverse.find? fun pair => pair.1 = option with
  | none => by_cases same : pair.1 = option <;> simp [same]
  | some later => rfl

theorem Invocation.accepted
    {args : List ByteString} {pairs : List (RunOption × ByteString)}
    {program : List ByteString} (invocation : Invocation args pairs program) :
    ∀ pair ∈ pairs, ∃ number, pair.1.number pair.2 = some number := by
  induction invocation with
  | separated _ | direct _ _ => exact nofun
  | option option accepted _ induction =>
      exact List.forall_mem_cons.mpr ⟨⟨_, accepted⟩, induction⟩

theorem Invocation.lastValue_accepted
    {args : List ByteString} {pairs : List (RunOption × ByteString)}
    {program : List ByteString} (invocation : Invocation args pairs program)
    {option : RunOption} {value : ByteString}
    (isLast : lastValue option pairs = some value) :
    ∃ number, option.number value = some number := by
  rcases Option.map_eq_some_iff.mp isLast with ⟨pair, found, rfl⟩
  have same : pair.1 = option := by simpa using List.find?_some found
  rw [← same]
  exact invocation.accepted pair
    (List.mem_reverse.mp (List.mem_of_find?_eq_some found))

/-- The last occurrence of an option decides, and the old value stays if there
is none. -/
theorem requested_configured
    {args : List ByteString} {pairs : List (RunOption × ByteString)}
    {program : List ByteString} (invocation : Invocation args pairs program)
    (config : ResourceRunConfig) (option : RunOption) :
    option.requested (configured config pairs) =
      ((lastValue option pairs).bind fun value => option.number value).or
        (option.requested config) := by
  induction invocation generalizing config with
  | separated _ => rfl
  | direct _ _ => rfl
  | @option other value number accepted _ pairs _ later induction =>
      rw [configured, accepted, induction, lastValue_cons]
      cases isLast : lastValue option pairs with
      | some last =>
          rcases later.lastValue_accepted isLast with ⟨read, isRead⟩
          simp [isRead]
      | none =>
          by_cases same : other = option
          · subst same
            simp [accepted, RunOption.requested_put_self accepted]
          · simp [same, RunOption.requested_put_of_ne (Ne.symm same)]

theorem Invocation.program_ne_nil
    {args : List ByteString} {pairs : List (RunOption × ByteString)}
    {program : List ByteString} (invocation : Invocation args pairs program) :
    program ≠ [] := by
  induction invocation with
  | separated nonempty => exact nonempty
  | direct _ rest => exact List.cons_ne_nil _ rest
  | option _ _ _ induction => exact induction

section Run

variable {command : Command} {args : List ByteString}

theorem parseResourceRun_run
    (isRun : command.args = literal "run" :: args) :
    parseResourceRun command =
      match parseOptions {} args with
      | .error result => result
      | .ok ending => finishOptions ending := by
  rw [parseResourceRun, isRun]
  rfl

theorem parseResourceRun_of_invocation
    (isRun : command.args = literal "run" :: args)
    {pairs : List (RunOption × ByteString)} {program : List ByteString}
    (invocation : Invocation args pairs program) :
    ∃ config,
      parseResourceRun command = ⟨config, []⟩ ∧
        config.showHelp = false ∧ config.programArgs = program ∧
        ∀ option : RunOption,
          option.requested config =
            (lastValue option pairs).bind fun value =>
              option.number value := by
  rcases parseOptions_of_invocation invocation {} with ⟨separator, parsed⟩
  have noHelp : (configured {} pairs).showHelp = false :=
    configured_showHelp {} pairs
  have finished :
      finishOptions ⟨configured {} pairs, separator, program⟩ =
          ⟨{ configured {} pairs with programArgs := program }, []⟩ ∧
        (configured {} pairs).showHelp = false :=
    finishOptions_accepts.mpr ⟨noHelp, invocation.program_ne_nil, rfl⟩
  refine ⟨{ configured {} pairs with programArgs := program }, ?_,
    finished.2, rfl, ?_⟩
  · rw [parseResourceRun_run isRun, parsed]
    exact finished.1
  · intro option
    have decided := requested_configured invocation {} option
    have nothingAtFirst : option.requested {} = none := by
      cases option <;> rfl
    rw [nothingAtFirst, Option.or_none] at decided
    rw [← decided]
    cases option <;> rfl

/--
`run` accepts exactly the arguments that are options with values, followed by a
program, and decodes them: the program is left as it is, and for each option
there is a number if it occurs, namely that of its last value.
-/
theorem run_arguments_decoded
    (isRun : command.args = literal "run" :: args) :
    ((∃ config,
        parseResourceRun command = ⟨config, []⟩ ∧
          config.showHelp = false) ↔
      ∃ pairs program, Invocation args pairs program) ∧
    ∀ pairs program, Invocation args pairs program →
      ∃ config,
        parseResourceRun command = ⟨config, []⟩ ∧
          config.showHelp = false ∧ config.programArgs = program ∧
          ∀ option : RunOption,
            option.requested config =
              (lastValue option pairs).bind fun value =>
                option.number value := by
  refine ⟨⟨?_, ?_⟩, fun _ _ => parseResourceRun_of_invocation isRun⟩
  · rintro ⟨config, parsed, noHelp⟩
    rw [parseResourceRun_run isRun] at parsed
    cases options : parseOptions {} args with
    | error result =>
        rw [options] at parsed
        exact absurd (congrArg ResourceRunParseResult.error parsed)
          (parseOptions_error options)
    | ok ending =>
        rw [options] at parsed
        rcases finishOptions_accepts.mp ⟨parsed, noHelp⟩ with
          ⟨endNoHelp, nonempty, -⟩
        rcases invocation_of_parseOptions options endNoHelp nonempty with
          ⟨pairs, invocation⟩
        exact ⟨pairs, _, invocation⟩
  · rintro ⟨pairs, program, invocation⟩
    rcases parseResourceRun_of_invocation isRun invocation with
      ⟨config, accepted, noHelp, -⟩
    exact ⟨config, accepted, noHelp⟩

end Run

/-- An option that occurs twice, and options of the program itself. -/
def sampleArgs : List ByteString :=
  [literal "--max-fds", literal "64", literal "--nice", literal "-5",
    literal "--max-fds", literal "32", literal "--", literal "env",
    literal "-h", literal "--"]

theorem run_arguments_decoded_sample :
    ∃ config,
      parseResourceRun { args := literal "run" :: sampleArgs } =
          ⟨config, []⟩ ∧
        config.programArgs = [literal "env", literal "-h", literal "--"] ∧
        RunOption.maxFds.requested config = some 32 ∧
        RunOption.nice.requested config = some (-5) ∧
        RunOption.cpuTime.requested config = none := by
  have invocation :
      Invocation sampleArgs
        [(.maxFds, literal "64"), (.nice, literal "-5"),
          (.maxFds, literal "32")]
        [literal "env", literal "-h", literal "--"] := by
    apply Invocation.option .maxFds (show _ = some 64 by decide +kernel)
    apply Invocation.option .nice (show _ = some (-5) by decide +kernel)
    apply Invocation.option .maxFds (show _ = some 32 by decide +kernel)
    exact .separated (by decide)
  have isRun :
      ({ args := literal "run" :: sampleArgs } : Command).args =
        literal "run" :: sampleArgs :=
    rfl
  rcases (run_arguments_decoded isRun).2 _ _ invocation with
    ⟨config, parsed, -, program, requests⟩
  refine ⟨config, parsed, program, ?_, ?_, ?_⟩
  · rw [requests]
    decide +kernel
  · rw [requests]
    decide +kernel
  · rw [requests]
    decide +kernel

end Shell.ResourceOptions
