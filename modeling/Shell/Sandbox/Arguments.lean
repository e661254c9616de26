import Shell.Library.OptionScan
import Shell.Sandbox.Options

/-!
# The arguments of `sandbox`

The words behind the name of the command, read as the usage text describes
them: options, some of which take the next word as their value, up to `--` or
up to the first word of a program.  `parse_sandbox` is compared with this
reading.

It reads the same words, with one exception.  The branch for `--status` moves
the index of the loop by hand, and the loop moves it again; so the word behind
`--status` is looked at by nobody.
-/

namespace Shell.SandboxArguments

open Shell.Syntax
open Shell.OptionScan
open Shell.SandboxOptions

/-! ## The reading -/

/-- `--` or the first word of a program. -/
def endsOptions (word : ByteString) : Bool :=
  word = literal "--" || word.head? ≠ some 0x2d

/-- The options of the words, and what follows them. -/
def scanned (args : List ByteString) :
    List (Use ByteString) × List ByteString :=
  scan takesValue endsOptions args

/-- The options that `applyFlag` knows. -/
def flagNames : List ByteString :=
  ["--user", "--pid", "--mount", "--net", "--no-network", "--uts", "--proc",
    "--all"].map literal

/-- The options that `takesValue` knows. -/
def valuedNames : List ByteString :=
  ["--hostname", "--memory", "--pids", "--cpu-percent"].map literal

/-- The options that ask for a text instead of a program. -/
def queryNames : List ByteString :=
  ["--status", "-h", "--help"].map literal

/-- A recognised option, with the value that it takes. -/
structure Recognised (use : Use ByteString) : Prop where
  known : use.option ∈ flagNames ++ valuedNames ++ queryNames
  complete : takesValue use.option = true → use.value ≠ none

/-- The options with a number. -/
inductive Quantity where
  | memory
  | pids
  | cpuPercent
deriving DecidableEq, Repr

/-- The option that sets the quantity. -/
def Quantity.option : Quantity → ByteString
  | memory => literal "--memory"
  | pids => literal "--pids"
  | cpuPercent => literal "--cpu-percent"

/-- The number that a value of the option stands for. -/
def Quantity.read : Quantity → ByteString → Option Nat
  | memory, value => parseSize value
  | pids, value => parseUnsigned value false
  | cpuPercent, value =>
      (parseUnsigned value false).filter fun parsed => parsed ≤ 1000

/-- The number in a configuration, with the flag that says it is there. -/
def Quantity.requested : Quantity → SandboxConfig → Option Nat
  | memory, config =>
      if config.hasMemoryMax then some config.memoryMaxBytes else none
  | pids, config => if config.hasPidsMax then some config.pidsMax else none
  | cpuPercent, config =>
      if config.hasCpuPercent then some config.cpuPercent else none

theorem requested_applyFlag
    {config next : SandboxConfig} {arg : ByteString}
    (applied : applyFlag config arg = some next) (quantity : Quantity) :
    quantity.requested next = quantity.requested config := by
  rw [applyFlag_frame applied]
  cases quantity <;> rfl

/-- What an accepted value does to the numbers. -/
inductive QuantityStep (config next : SandboxConfig) (arg value : ByteString) :
    Prop
  | sets (quantity : Quantity) (named : arg = quantity.option)
      (number : Nat) (read : quantity.read value = some number)
      (set : quantity.requested next = some number)
      (others : ∀ other, other ≠ quantity →
        other.requested next = other.requested config)
  | keeps (named : arg = literal "--hostname") (nonempty : value ≠ [])
      (short : value.length ≤ hostNameMax)
      (kept : ∀ quantity : Quantity,
        quantity.requested next = quantity.requested config)

theorem quantityStep_of_applyValue
    {config next : SandboxConfig} {arg value : ByteString}
    (takes : takesValue arg = true)
    (applied : applyValue config arg value = .ok next) :
    QuantityStep config next arg value := by
  cases applyValue_cases applied with
  | hostname named nonempty short =>
      refine .keeps named nonempty short fun quantity => ?_
      cases quantity <;> rfl
  | memory named read =>
      refine .sets .memory named _ read rfl fun other different => ?_
      cases other with
      | memory => exact absurd rfl different
      | pids | cpuPercent => rfl
  | pids named read =>
      refine .sets .pids named _ read rfl fun other different => ?_
      cases other with
      | pids => exact absurd rfl different
      | memory | cpuPercent => rfl
  | cpuPercent noHostname noMemory noPids read bounded =>
      have named : arg = literal "--cpu-percent" := by
        simpa [takesValue, noHostname, noMemory, noPids] using takes
      refine .sets .cpuPercent named _
        (Option.filter_eq_some_iff.mpr ⟨read, decide_eq_true bounded⟩) rfl ?_
      intro other different
      cases other with
      | cpuPercent => exact absurd rfl different
      | memory | pids => rfl

theorem mem_flagNames
    {config next : SandboxConfig} {arg : ByteString}
    (applied : applyFlag config arg = some next) :
    arg ∈ flagNames := by
  unfold applyFlag at applied
  split_ifs at applied with user pid mount network uts proc all
  · rw [user]
    decide
  · rw [pid]
    decide
  · rw [mount]
    decide
  · rcases network with rfl | rfl <;> decide
  · rw [uts]
    decide
  · rw [proc]
    decide
  · rw [all]
    decide

/-- Flags and queries stand for themselves. -/
theorem flag_alone
    {arg : ByteString} (isFlag : arg ∈ flagNames ++ queryNames) :
    endsOptions arg = false ∧ takesValue arg = false := by
  have table :
      (flagNames ++ queryNames).all
        (fun name => !endsOptions name && !takesValue name) = true := by
    decide +kernel
  have row := List.all_eq_true.mp table arg isFlag
  simpa using row

theorem scanned_flag
    {arg : ByteString} (isFlag : arg ∈ flagNames ++ queryNames)
    (rest : List ByteString) :
    scanned (arg :: rest) =
      (⟨arg, none⟩ :: (scanned rest).1, (scanned rest).2) :=
  scan_single (flag_alone isFlag).1 (flag_alone isFlag).2 rest

theorem takesValue_iff {arg : ByteString} :
    takesValue arg = true ↔ arg ∈ valuedNames := by
  simp [takesValue, valuedNames, or_assoc]

theorem valued_goesOn {arg : ByteString} (takes : takesValue arg = true) :
    endsOptions arg = false := by
  have table : valuedNames.all (fun name => !endsOptions name) = true := by
    decide +kernel
  simpa using List.all_eq_true.mp table arg (takesValue_iff.mp takes)

theorem scanned_valued
    {arg : ByteString} (takes : takesValue arg = true) (value : ByteString)
    (rest : List ByteString) :
    scanned (arg :: value :: rest) =
      (⟨arg, some value⟩ :: (scanned rest).1, (scanned rest).2) :=
  scan_pair (valued_goesOn takes) takes value rest

/-! ## The options that are taken -/

/-- An option of its own, or an option with a value that it accepts. -/
inductive Taken : Use ByteString → Prop
  | flag {name : ByteString} (isFlag : name ∈ flagNames) : Taken ⟨name, none⟩
  | hostname {value : ByteString} (nonempty : value ≠ [])
      (short : value.length ≤ hostNameMax) :
      Taken ⟨literal "--hostname", some value⟩
  | quantity (quantity : Quantity) {value : ByteString} {number : Nat}
      (read : quantity.read value = some number) :
      Taken ⟨quantity.option, some value⟩

theorem taken_of_applyValue
    {config next : SandboxConfig} {arg value : ByteString}
    (takes : takesValue arg = true)
    (applied : applyValue config arg value = .ok next) :
    Taken ⟨arg, some value⟩ := by
  cases quantityStep_of_applyValue takes applied with
  | sets quantity named number read set others =>
      rw [named]
      exact .quantity quantity read
  | keeps named nonempty short kept =>
      rw [named]
      exact .hostname nonempty short

theorem scanned_taken
    {use : Use ByteString} (taken : Taken use) (rest : List ByteString) :
    scanned (use.words ++ rest) =
      (use :: (scanned rest).1, (scanned rest).2) := by
  cases taken with
  | flag isFlag => exact scanned_flag (List.mem_append_left _ isFlag) rest
  | hostname nonempty short =>
      have takes : takesValue (literal "--hostname") = true := by decide
      exact scanned_valued takes _ rest
  | quantity quantity read =>
      have takes : takesValue quantity.option = true := by
        cases quantity <;> decide
      exact scanned_valued takes _ rest

theorem scanned_front
    {front : List (Use ByteString)} (taken : ∀ use ∈ front, Taken use)
    (rest : List ByteString) :
    scanned (front.flatMap Use.words ++ rest) =
      (front ++ (scanned rest).1, (scanned rest).2) := by
  induction front with
  | nil => rfl
  | cons use front induction =>
      rcases List.forall_mem_cons.mp taken with ⟨first, later⟩
      rw [List.flatMap_cons, List.append_assoc, scanned_taken first,
        induction later]
      rfl

theorem applyFlag_of_mem
    {name : ByteString} (isFlag : name ∈ flagNames) (config : SandboxConfig) :
    ∃ next, applyFlag config name = some next := by
  simp only [flagNames, List.map_cons, List.map_nil, List.mem_cons,
    List.not_mem_nil, or_false] at isFlag
  rcases isFlag with rfl | rfl | rfl | rfl | rfl | rfl | rfl | rfl <;>
    exact ⟨_, rfl⟩

theorem applyValue_of_taken
    {arg value : ByteString} (taken : Taken ⟨arg, some value⟩)
    (config : SandboxConfig) :
    ∃ next, applyValue config arg value = .ok next := by
  cases taken with
  | hostname nonempty short =>
      rw [applyValue, if_pos rfl, if_neg]
      · exact ⟨_, rfl⟩
      · rw [not_or, Nat.not_lt]
        exact ⟨nonempty, short⟩
  | quantity quantity read =>
      cases quantity with
      | memory =>
          rw [Quantity.option, applyValue, if_neg (by decide), if_pos rfl,
            show parseSize value = some _ from read]
          exact ⟨_, rfl⟩
      | pids =>
          rw [Quantity.option, applyValue, if_neg (by decide),
            if_neg (by decide), if_pos rfl,
            show parseUnsigned value false = some _ from read]
          exact ⟨_, rfl⟩
      | cpuPercent =>
          rcases Option.filter_eq_some_iff.mp read with ⟨parsed, bounded⟩
          rw [Quantity.option, applyValue, if_neg (by decide),
            if_neg (by decide), if_neg (by decide), parsed]
          exact ⟨_, if_neg (Nat.not_lt.mpr (of_decide_eq_true bounded))⟩

/-- Neither flags nor options with a value have a branch of their own. -/
theorem option_plain
    {arg : ByteString} (isOption : arg ∈ flagNames ++ valuedNames) :
    arg ≠ literal "--" ∧ ¬ (arg = literal "-h" ∨ arg = literal "--help") ∧
      arg ≠ literal "--status" ∧ arg.head? = some 0x2d := by
  have table :
      (flagNames ++ valuedNames).all
        (fun name =>
          name ≠ literal "--" &&
            !(name = literal "-h" || name = literal "--help") &&
            name ≠ literal "--status" && name.head? = some 0x2d) = true := by
    decide +kernel
  have row := List.all_eq_true.mp table arg isOption
  simpa [and_assoc] using row

theorem parseOptions_flag
    {config next : SandboxConfig} {arg : ByteString}
    (applied : applyFlag config arg = some next) (rest : List ByteString) :
    parseOptions config (arg :: rest) = parseOptions next rest := by
  rcases option_plain (List.mem_append_left _ (mem_flagNames applied)) with
    ⟨noSeparator, noHelp, noStatus, isDash⟩
  rw [parseOptions.eq_def]
  simp only [noSeparator, noHelp, noStatus, isDash, applied, if_false, ne_eq,
    not_true]

theorem parseOptions_valued
    {config next : SandboxConfig} {arg value : ByteString}
    (takes : takesValue arg = true)
    (applied : applyValue config arg value = .ok next)
    (rest : List ByteString) :
    parseOptions config (arg :: value :: rest) = parseOptions next rest := by
  have isValued := takesValue_iff.mp takes
  rcases option_plain (List.mem_append_right _ isValued) with
    ⟨noSeparator, noHelp, noStatus, isDash⟩
  have noFlag : applyFlag config arg = none := by
    simp only [valuedNames, List.map_cons, List.map_nil, List.mem_cons,
      List.not_mem_nil, or_false] at isValued
    rcases isValued with rfl | rfl | rfl | rfl <;> rfl
  rw [parseOptions.eq_def]
  simp only [noSeparator, noHelp, noStatus, isDash, noFlag, takes, applied,
    if_false, if_true, ne_eq, not_true]

/-- The loop goes on behind an option that is taken. -/
theorem parseOptions_taken
    {use : Use ByteString} (taken : Taken use) (config : SandboxConfig)
    (rest : List ByteString) :
    ∃ next,
      parseOptions config (use.words ++ rest) = parseOptions next rest := by
  cases taken with
  | flag isFlag =>
      rcases applyFlag_of_mem isFlag config with ⟨next, applied⟩
      exact ⟨next, parseOptions_flag applied rest⟩
  | hostname nonempty short =>
      rcases applyValue_of_taken (.hostname nonempty short) config with
        ⟨next, applied⟩
      have takes : takesValue (literal "--hostname") = true := by decide
      exact ⟨next, parseOptions_valued takes applied rest⟩
  | quantity quantity read =>
      rcases applyValue_of_taken (.quantity quantity read) config with
        ⟨next, applied⟩
      have takes : takesValue quantity.option = true := by
        cases quantity <;> decide
      exact ⟨next, parseOptions_valued takes applied rest⟩

theorem parseOptions_front
    {front : List (Use ByteString)} (taken : ∀ use ∈ front, Taken use)
    (config : SandboxConfig) (rest : List ByteString) :
    ∃ next,
      parseOptions config (front.flatMap Use.words ++ rest) =
        parseOptions next rest := by
  induction front generalizing config with
  | nil => exact ⟨config, rfl⟩
  | cons use front induction =>
      rcases List.forall_mem_cons.mp taken with ⟨first, later⟩
      rcases parseOptions_taken first config
          (front.flatMap Use.words ++ rest) with
        ⟨next, same⟩
      rw [List.flatMap_cons, List.append_assoc, same]
      exact induction later next

/-! ## The words behind `--status` -/

/-- The words that get through the loop without a program.  The word behind a
`--status` may be any. -/
inductive Passes : List ByteString → Prop
  | none : Passes []
  | separator : Passes [literal "--"]
  | help {arg : ByteString}
      (isHelp : arg = literal "-h" ∨ arg = literal "--help") : Passes [arg]
  | status : Passes [literal "--status"]
  | skipped (word : ByteString) {rest : List ByteString}
      (passes : Passes rest) :
      Passes (literal "--status" :: word :: rest)
  | option {use : Use ByteString} (taken : Taken use)
      {rest : List ByteString} (passes : Passes rest) :
      Passes (use.words ++ rest)

theorem passes_iff {config : SandboxConfig} {args : List ByteString} :
    Passes args ↔
      ∃ ending, parseOptions config args = .ok ending ∧ ending.rest = [] := by
  constructor
  · intro passes
    induction passes generalizing config with
    | none | separator | status => exact ⟨_, rfl, rfl⟩
    | help isHelp => rcases isHelp with rfl | rfl <;> exact ⟨_, rfl, rfl⟩
    | skipped word _ induction => exact induction
    | option taken _ induction =>
        rename_i rest _
        rcases parseOptions_taken taken config rest with ⟨next, same⟩
        rw [same]
        exact induction
  · rintro ⟨ending, parsed, noRest⟩
    fun_induction parseOptions config args with
    | case1 config => exact .none
    | case2 config rest =>
        cases parsed
        cases noRest
        exact .separator
    | case3 config arg rest _ isHelp =>
        cases parsed
        cases noRest
        exact .help isHelp
    | case4 config => exact .status
    | case5 config word rest _ _ induction =>
        exact .skipped word (induction parsed)
    | case6 =>
        cases parsed
        cases noRest
    | case7 config arg rest _ _ _ _ next applied induction =>
        exact .option (.flag (mem_flagNames applied)) (induction parsed)
    | case8 | case9 | case11 => cases parsed
    | case10 config arg _ _ _ _ _ takes text rest next applied induction =>
        exact .option (taken_of_applyValue takes applied) (induction parsed)

/-- Nothing but recognised options. -/
def AllRecognised (args : List ByteString) : Prop :=
  (∀ use ∈ (scanned args).1, Recognised use) ∧ (scanned args).2 = []

/-- If all that stands in front of a `--status` and behind the word that it
skips passes, the skipped word and what follows it are recognised as they
stand. -/
def SkipsHarmless (args : List ByteString) : Prop :=
  ∀ (front : List (Use ByteString)) (word : ByteString)
      (back : List ByteString),
    args = front.flatMap Use.words ++ literal "--status" :: word :: back →
      (∀ use ∈ front, Taken use) → Passes back →
        AllRecognised (word :: back)

theorem SkipsHarmless.later
    {use : Use ByteString} (taken : Taken use) {rest : List ByteString}
    (harmless : SkipsHarmless (use.words ++ rest)) :
    SkipsHarmless rest := by
  rintro front word back rfl frontTaken passes
  refine harmless (use :: front) word back ?_ ?_ passes
  · rw [List.flatMap_cons, List.append_assoc]
  · exact List.forall_mem_cons.mpr ⟨taken, frontTaken⟩

/-! ## The loop -/

/-- What is known about the reading of words that the loop has accepted. -/
structure Examined (args : List ByteString) (config : SandboxConfig) :
    Prop where
  recognised : ∀ use ∈ (scanned args).1, Recognised use
  queries :
    (∃ use ∈ (scanned args).1, use.option ∈ queryNames) →
      (scanned args).2 = [] ∧
        (config.showHelp = true ∨ config.showStatus = true)

theorem recognised_alone
    {arg : ByteString} (isFlag : arg ∈ flagNames ++ queryNames) :
    Recognised ⟨arg, none⟩ where
  known := by
    rcases List.mem_append.mp isFlag with flag | query
    · exact List.mem_append_left _ (List.mem_append_left _ flag)
    · exact List.mem_append_right _ query
  complete takes := by
    rw [(flag_alone isFlag).2] at takes
    cases takes

theorem recognised_valued
    {arg : ByteString} (takes : takesValue arg = true) (value : ByteString) :
    Recognised ⟨arg, some value⟩ where
  known :=
    List.mem_append_left _ (List.mem_append_right _ (takesValue_iff.mp takes))
  complete _ := Option.some_ne_none value

/-- One more option in front of words that have been examined. -/
theorem Examined.cons
    {args rest : List ByteString} {config : SandboxConfig}
    {use : Use ByteString} (later : Examined rest config)
    (same : scanned args = (use :: (scanned rest).1, (scanned rest).2))
    (recognised : Recognised use) (noQuery : use.option ∉ queryNames) :
    Examined args config where
  recognised := by
    rw [same]
    exact List.forall_mem_cons.mpr ⟨recognised, later.recognised⟩
  queries := by
    rw [same]
    rintro ⟨other, member, isQuery⟩
    rcases List.mem_cons.mp member with rfl | isLater
    · exact absurd isQuery noQuery
    · exact later.queries ⟨other, isLater, isQuery⟩

/-- Words that are not options at all. -/
theorem Examined.none
    {args : List ByteString} (noUses : (scanned args).1 = [])
    (config : SandboxConfig) : Examined args config where
  recognised := by
    rw [noUses]
    exact List.forall_mem_nil _
  queries := by
    rw [noUses]
    rintro ⟨use, ⟨⟩, -⟩

/-- A query at the end of the words. -/
theorem Examined.query
    {arg : ByteString} (isQuery : arg ∈ queryNames)
    {config : SandboxConfig}
    (shown : config.showHelp = true ∨ config.showStatus = true) :
    Examined [arg] config where
  recognised := by
    rw [scanned_flag (List.mem_append_right _ isQuery)]
    exact List.forall_mem_cons.mpr
      ⟨recognised_alone (List.mem_append_right _ isQuery),
        List.forall_mem_nil _⟩
  queries := by
    rw [scanned_flag (List.mem_append_right _ isQuery)]
    exact fun _ => ⟨rfl, shown⟩

/-- A `--status` in front of words that are all recognised. -/
theorem Examined.skipped
    {word : ByteString} {rest : List ByteString}
    (recognised : AllRecognised (word :: rest)) {config : SandboxConfig}
    (shown : config.showStatus = true) :
    Examined (literal "--status" :: word :: rest) config := by
  have isQuery : literal "--status" ∈ flagNames ++ queryNames := by decide
  have same := scanned_flag isQuery (word :: rest)
  constructor
  · rw [same]
    exact List.forall_mem_cons.mpr ⟨recognised_alone isQuery, recognised.1⟩
  · rw [same]
    exact fun _ => ⟨recognised.2, Or.inr shown⟩

theorem flag_not_query
    {arg : ByteString} (isFlag : arg ∈ flagNames ++ valuedNames) :
    arg ∉ queryNames := by
  have table :
      (flagNames ++ valuedNames).all
        (fun name => !queryNames.contains name) = true := by
    decide +kernel
  simpa using List.all_eq_true.mp table arg isFlag

theorem showStatus_parseOptions
    {config : SandboxConfig} {args : List ByteString} {ending : OptionsEnd}
    (shown : config.showStatus = true)
    (parsed : parseOptions config args = .ok ending) :
    ending.config.showStatus = true := by
  refine parseOptions_invariant (fun config => config.showStatus = true)
    id (fun _ => rfl) ?_ ?_ shown parsed
  · intro config next arg holds applied
    rw [applyFlag_frame applied]
    exact holds
  · intro config next arg text holds applied
    cases applyValue_cases applied <;> exact holds

/-- The loop looks at every word that matters, if the skips do no harm. -/
theorem examined_of_parseOptions
    {config : SandboxConfig} {args : List ByteString} {ending : OptionsEnd}
    (parsed : parseOptions config args = .ok ending)
    (queryLast :
      ending.config.showHelp = true ∨ ending.config.showStatus = true →
        ending.rest = [])
    (harmless : SkipsHarmless args) :
    Examined args ending.config := by
  fun_induction parseOptions config args with
  | case1 config => exact .none rfl _
  | case2 config rest =>
      exact .none (congrArg Prod.fst (scan_end rfl rest)) _
  | case3 config arg rest _ isHelp =>
      cases parsed
      cases queryLast (Or.inl rfl)
      apply Examined.query ?_ (Or.inl rfl)
      rcases isHelp with rfl | rfl <;> decide
  | case4 config =>
      cases parsed
      exact .query (by decide) (Or.inr rfl)
  | case5 config word rest _ _ induction =>
      -- Here the loop skips a word.
      have shown := showStatus_parseOptions rfl parsed
      have passes := passes_iff.mpr ⟨ending, parsed, queryLast (Or.inr shown)⟩
      exact .skipped
        (harmless [] word rest rfl (List.forall_mem_nil _) passes) shown
  | case6 config arg rest _ _ _ isProgram =>
      apply Examined.none
      exact congrArg Prod.fst (scan_end (by simp [endsOptions, isProgram]) rest)
  | case7 config arg rest _ _ _ _ next applied induction =>
      have isFlag := mem_flagNames applied
      have same := scanned_flag (List.mem_append_left _ isFlag) rest
      have later := SkipsHarmless.later (.flag isFlag) harmless
      exact (induction parsed later).cons same
        (recognised_alone (List.mem_append_left _ isFlag))
        (flag_not_query (List.mem_append_left _ isFlag))
  | case8 | case9 | case11 => cases parsed
  | case10 config arg _ _ _ _ _ takes text rest next applied induction =>
      have same := scanned_valued takes text rest
      have later :=
        SkipsHarmless.later (taken_of_applyValue takes applied) harmless
      exact (induction parsed later).cons same
        (recognised_valued takes text)
        (flag_not_query
          (List.mem_append_right _ (takesValue_iff.mp takes)))

/-! ## The words of an accepted command -/

theorem programArgs_parseOptions
    {args : List ByteString} {ending : OptionsEnd}
    (parsed : parseOptions {} args = .ok ending) :
    ending.config.programArgs = [] := by
  refine parseOptions_invariant (fun config => config.programArgs = [])
    id id ?_ ?_ rfl parsed
  · intro config next arg holds applied
    rw [applyFlag_frame applied]
    exact holds
  · intro config next arg text holds applied
    cases applyValue_cases applied <;> exact holds

section Words

variable {command : Command} {args : List ByteString}

theorem examined_of_parseSandbox
    (isSandbox : command.args = literal "sandbox" :: args)
    (harmless : SkipsHarmless args) {config : SandboxConfig}
    (parsed : parseSandbox command = ⟨config, []⟩) :
    (∀ use ∈ (scanned args).1, Recognised use) ∧
      ((∃ use ∈ (scanned args).1, use.option ∈ queryNames) →
        (scanned args).2 = [] ∧ config.programArgs = []) := by
  rcases parseSandbox_ok parsed with ⟨words, ending, same, options, finished⟩
  cases (List.cons.inj (isSandbox.symm.trans same)).2
  rcases finishOptions_ok finished with
    ⟨-, noRest, rfl⟩ | ⟨noHelp, noStatus, -⟩
  · have examined :=
      examined_of_parseOptions options (fun _ => noRest) harmless
    refine ⟨examined.recognised, fun query => ?_⟩
    exact ⟨(examined.queries query).1, programArgs_parseOptions options⟩
  · -- No query was read, since it would be remembered.
    have queryLast :
        ending.config.showHelp = true ∨ ending.config.showStatus = true →
          ending.rest = [] := by
      rintro (help | status)
      · exact absurd help (Bool.eq_false_iff.mp noHelp)
      · exact absurd status (Bool.eq_false_iff.mp noStatus)
    have examined := examined_of_parseOptions options queryLast harmless
    refine ⟨examined.recognised, fun query => ?_⟩
    rcases (examined.queries query).2 with help | status
    · exact absurd help (Bool.eq_false_iff.mp noHelp)
    · exact absurd status (Bool.eq_false_iff.mp noStatus)

/-- A command with a skip is accepted if everything else passes. -/
theorem parseSandbox_skip
    {front : List (Use ByteString)} {word : ByteString}
    {back : List ByteString}
    (isSandbox :
      command.args =
        literal "sandbox" ::
          (front.flatMap Use.words ++ literal "--status" :: word :: back))
    (taken : ∀ use ∈ front, Taken use) (passes : Passes back) :
    ∃ config, parseSandbox command = ⟨config, []⟩ := by
  rcases parseOptions_front taken {} (literal "--status" :: word :: back) with
    ⟨next, atStatus⟩
  have skip :
      parseOptions next (literal "--status" :: word :: back) =
        parseOptions { next with showStatus := true } back :=
    rfl
  have behind :
      ∃ ending,
        parseOptions { next with showStatus := true } back = .ok ending ∧
          ending.rest = [] :=
    passes_iff.mp passes
  rcases behind with ⟨ending, parsed, noRest⟩
  have shown := showStatus_parseOptions rfl parsed
  refine ⟨ending.config, ?_⟩
  rw [parseSandbox, isSandbox]
  simp only [ne_eq, not_true, if_false]
  rw [atStatus, skip, parsed]
  rcases ending with ⟨config, explicitSeparator, rest⟩
  cases noRest
  simp only [finishOptions, ne_eq, not_true, if_false]
  rw [if_pos shown]
  exact ite_self _

/--
Every word of an accepted command is an option that is recognised or the value
of the option in front of it, up to the program or `--`; a command with
`--status` or `--help` has nothing else, and one with an unknown option is
rejected.  All of this holds exactly if the words skipped behind `--status` do
no harm: each of them is recognised where it stands, or something else is
refused.
-/
theorem sandbox_words_examined
    (isSandbox : command.args = literal "sandbox" :: args) :
    ((∀ config, parseSandbox command = ⟨config, []⟩ →
      args = (scanned args).1.flatMap Use.words ++ (scanned args).2 ∧
        (∀ word ∈ (scanned args).2.head?, endsOptions word = true) ∧
        (∀ use ∈ (scanned args).1, Recognised use) ∧
        ((∃ use ∈ (scanned args).1, use.option ∈ queryNames) →
          (scanned args).2 = [] ∧ config.programArgs = [])) ∧
    ((∃ use ∈ (scanned args).1,
        use.option ∉ flagNames ++ valuedNames ++ queryNames) →
      (parseSandbox command).error ≠ [])) ↔
    SkipsHarmless args := by
  constructor
  · rintro ⟨examined, -⟩ front word back rfl taken passes
    rcases parseSandbox_skip isSandbox taken passes with ⟨config, parsed⟩
    rcases examined config parsed with ⟨-, -, recognised, queries⟩
    have isQuery : literal "--status" ∈ flagNames ++ queryNames := by decide
    rw [scanned_front taken, scanned_flag isQuery] at recognised queries
    constructor
    · intro use member
      apply recognised
      exact List.mem_append_right front (List.mem_cons_of_mem _ member)
    · refine (queries ⟨⟨literal "--status", none⟩, ?_, by decide⟩).1
      exact List.mem_append_right front List.mem_cons_self
  · intro harmless
    constructor
    · intro config parsed
      exact ⟨(words_scan args).symm, scan_rest args,
        examined_of_parseSandbox isSandbox harmless parsed⟩
    · rintro ⟨use, member, unknown⟩ noError
      have parsed :
          parseSandbox command = ⟨(parseSandbox command).config, []⟩ := by
        rw [← noError]
      have examined := examined_of_parseSandbox isSandbox harmless parsed
      exact unknown (examined.1 use member).known

end Words

/-- `sandbox --status --net`: the word that is skipped is an option. -/
def netBehindStatus : List ByteString :=
  ["--status", "--net"].map literal

theorem sandbox_words_examined_sample :
    (parseSandbox { args := literal "sandbox" :: netBehindStatus }).ok = true ∧
      SkipsHarmless netBehindStatus := by
  have accepted :
      parseSandbox { args := literal "sandbox" :: netBehindStatus } =
        ⟨{ showStatus := true }, []⟩ := by
    decide +kernel
  have uses :
      scanned netBehindStatus =
        ([⟨literal "--status", none⟩, ⟨literal "--net", none⟩], []) := by
    decide +kernel
  have recognised : ∀ use ∈ (scanned netBehindStatus).1, Recognised use := by
    rw [uses]
    refine List.forall_mem_cons.mpr ⟨recognised_alone (by decide), ?_⟩
    exact List.forall_mem_singleton.mpr (recognised_alone (by decide))
  refine ⟨by rw [accepted]; rfl, ?_⟩
  apply (sandbox_words_examined
    (show Command.args { args := literal "sandbox" :: netBehindStatus } =
      literal "sandbox" :: netBehindStatus from rfl)).mp
  constructor
  · intro config parsed
    cases accepted.symm.trans parsed
    exact ⟨(words_scan _).symm, scan_rest _, recognised,
      fun _ => ⟨congrArg Prod.snd uses, rfl⟩⟩
  · rintro ⟨use, member, unknown⟩
    exact absurd (recognised use member).known unknown

/-- An option that nobody knows and a program, both behind `--status`. -/
theorem word_behind_status_skipped :
    parseSandbox
        { args := ["sandbox", "--status", "--bogus"].map literal } =
        ⟨{ showStatus := true }, []⟩ ∧
      literal "--bogus" ∉ flagNames ++ valuedNames ++ queryNames ∧
      parseSandbox { args := ["sandbox", "--status", "ls"].map literal } =
        ⟨{ showStatus := true }, []⟩ ∧
      (scanned (["--status", "ls"].map literal)).2 = [literal "ls"] := by
  decide +kernel

/-! ## The values of an accepted command -/

theorem Quantity.option_injective {quantity other : Quantity}
    (same : quantity.option = other.option) : quantity = other := by
  cases quantity <;> cases other <;> first | rfl | cases same

/-- The number of a quantity is kept, or it is the number of a value. -/
def Quantity.Follows (quantity : Quantity) (config next : SandboxConfig) :
    Option ByteString → Prop
  | none => quantity.requested next = quantity.requested config
  | some value =>
      ∃ number,
        quantity.read value = some number ∧
          quantity.requested next = some number

theorem Quantity.Follows.trans
    {quantity : Quantity} {config next final : SandboxConfig}
    {value later : Option ByteString}
    (first : quantity.Follows config next value)
    (second : quantity.Follows next final later) :
    quantity.Follows config final (later.or value) := by
  cases later with
  | some text => exact second
  | none =>
      cases value with
      | none => exact Eq.trans second first
      | some text =>
          rcases first with ⟨number, read, set⟩
          exact ⟨number, read, Eq.trans second set⟩

theorem follows_applyValue
    {config next : SandboxConfig} {arg value : ByteString}
    (takes : takesValue arg = true)
    (applied : applyValue config arg value = .ok next)
    (quantity : Quantity) :
    quantity.Follows config next
      (if arg = quantity.option then some value else none) := by
  cases quantityStep_of_applyValue takes applied with
  | keeps named nonempty short kept =>
      rw [if_neg]
      · exact kept quantity
      · rw [named]
        cases quantity <;> decide
  | sets changed named number read set others =>
      by_cases same : quantity = changed
      · rw [same, if_pos named]
        exact ⟨number, read, set⟩
      · rw [if_neg]
        · exact others quantity same
        · rw [named]
          exact fun equal => same (Quantity.option_injective equal).symm

/-- The loop leaves the number of the last value of every option. -/
theorem follows_parseOptions
    {config : SandboxConfig} {args : List ByteString} {ending : OptionsEnd}
    (parsed : parseOptions config args = .ok ending)
    (noHelp : ending.config.showHelp = false)
    (noStatus : ending.config.showStatus = false) (quantity : Quantity) :
    quantity.Follows config ending.config
      (lastValue quantity.option (scanned args).1) := by
  fun_induction parseOptions config args with
  | case1 config =>
      cases parsed
      rfl
  | case2 config rest =>
      cases parsed
      rw [scanned, scan_end rfl]
      rfl
  | case3 =>
      cases parsed
      cases noHelp
  | case4 =>
      cases parsed
      cases noStatus
  | case5 config word rest _ _ induction =>
      -- The skipped word may be an option, but then no program is run.
      rw [showStatus_parseOptions rfl parsed] at noStatus
      cases noStatus
  | case6 config arg rest _ _ _ isProgram =>
      cases parsed
      rw [scanned, scan_end (by simp [endsOptions, isProgram])]
      rfl
  | case7 config arg rest _ _ _ _ next applied induction =>
      have isFlag := List.mem_append_left queryNames (mem_flagNames applied)
      rw [scanned_flag isFlag, lastValue_cons, ite_self]
      exact (show quantity.Follows config next none from
        requested_applyFlag applied quantity).trans (induction parsed)
  | case8 | case9 | case11 => cases parsed
  | case10 config arg _ _ _ _ _ takes text rest next applied induction =>
      rw [scanned_valued takes, lastValue_cons]
      exact (follows_applyValue takes applied quantity).trans
        (induction parsed)

/-- What is left is the end of the words. -/
theorem rest_parseOptions
    {config : SandboxConfig} {args : List ByteString} {ending : OptionsEnd}
    (parsed : parseOptions config args = .ok ending) :
    ending.rest <:+ args := by
  fun_induction parseOptions config args with
  | case1 config => cases parsed; exact List.suffix_rfl
  | case2 config rest => cases parsed; exact List.suffix_cons _ rest
  | case3 config arg rest => cases parsed; exact List.suffix_cons arg rest
  | case4 config => cases parsed; exact List.nil_suffix
  | case5 config word rest _ _ induction =>
      exact ((induction parsed).trans (List.suffix_cons word rest)).trans
        (List.suffix_cons _ _)
  | case6 config arg rest => cases parsed; exact List.suffix_rfl
  | case7 config arg rest _ _ _ _ next applied induction =>
      exact (induction parsed).trans (List.suffix_cons arg rest)
  | case8 | case9 | case11 => cases parsed
  | case10 config arg _ _ _ _ _ _ text rest next applied induction =>
      exact ((induction parsed).trans (List.suffix_cons text rest)).trans
        (List.suffix_cons arg _)

theorem hostname_parseOptions
    {args : List ByteString} {ending : OptionsEnd}
    (parsed : parseOptions {} args = .ok ending) :
    ending.config.hostname.length ≤ hostNameMax := by
  refine parseOptions_invariant
    (fun config => config.hostname.length ≤ hostNameMax) id id ?_ ?_
    (Nat.zero_le _) parsed
  · intro config next arg holds applied
    rw [applyFlag_frame applied]
    exact holds
  · intro config next arg text holds applied
    cases applyValue_cases applied with
    | hostname named nonempty short => exact short
    | memory | pids | cpuPercent => exact holds

theorem parseUnsigned_positive
    {text : ByteString} {number : Nat}
    (parsed : parseUnsigned text false = some number) :
    1 ≤ number := by
  unfold parseUnsigned at parsed
  split_ifs at parsed
  split at parsed
  · split_ifs at parsed with zero
    cases parsed
    simp only [Bool.not_false, Bool.true_and, decide_eq_true_eq] at zero
    omega
  · cases parsed

/-- The bounds of the numbers that are accepted. -/
theorem Quantity.read_bounds
    {quantity : Quantity} {value : ByteString} {number : Nat}
    (read : quantity.read value = some number) :
    (quantity = .pids → 1 ≤ number) ∧
      (quantity = .cpuPercent → 1 ≤ number ∧ number ≤ 1000) := by
  cases quantity with
  | memory => exact ⟨nofun, nofun⟩
  | pids => exact ⟨fun _ => parseUnsigned_positive read, nofun⟩
  | cpuPercent =>
      rcases Option.filter_eq_some_iff.mp read with ⟨parsed, bounded⟩
      refine ⟨nofun, fun _ => ⟨parseUnsigned_positive parsed, ?_⟩⟩
      exact of_decide_eq_true bounded

/-- A configuration that the program can be run with. -/
structure Valid (args : List ByteString) (config : SandboxConfig) : Prop
    extends Runnable config where
  suffix : config.programArgs <:+ args
  shortHostname : config.hostname.length ≤ hostNameMax
  pids : config.hasPidsMax = true → 1 ≤ config.pidsMax
  cpuPercent :
    config.hasCpuPercent = true →
      1 ≤ config.cpuPercent ∧ config.cpuPercent ≤ 1000
  /-- The product behind the quota does not wrap around. -/
  quota :
    config.hasCpuPercent = true →
      100000 * config.cpuPercent < 0x10000000000000000
  lastCounts :
    ∀ quantity : Quantity,
      quantity.requested config =
        (lastValue quantity.option (scanned args.tail).1).bind quantity.read

/-- A number that is there is the number of a value. -/
theorem read_of_requested
    {args : List ByteString} {config : SandboxConfig} {quantity : Quantity}
    (lastCounts :
      quantity.requested config =
        (lastValue quantity.option (scanned args).1).bind quantity.read)
    {number : Nat} (set : quantity.requested config = some number) :
    ∃ value, quantity.read value = some number := by
  rw [lastCounts] at set
  rcases Option.bind_eq_some_iff.mp set with ⟨value, -, read⟩
  exact ⟨value, read⟩

/--
Whatever the number, the order and the repetition of the options, a command
that runs a program has a valid configuration, in which the last value of every
option counts.
-/
theorem accepted_config_valid
    {command : Command} {config : SandboxConfig}
    (accepts : Accepts command config) :
    Valid command.args config := by
  have runnable := accepts_runnable accepts
  rcases accepts_ending accepts with
    ⟨args, ending, words, options, noHelp, noStatus, -, -, rfl⟩
  rw [words]
  have lastCounts : ∀ quantity : Quantity,
      quantity.requested ending.config =
        (lastValue quantity.option (scanned args).1).bind quantity.read := by
    intro quantity
    have follows := follows_parseOptions options noHelp noStatus quantity
    cases last : lastValue quantity.option (scanned args).1 with
    | none =>
        rw [last] at follows
        exact Eq.trans follows (by cases quantity <;> rfl)
    | some value =>
        rw [last] at follows
        rcases follows with ⟨number, read, set⟩
        exact set.trans read.symm
  have pids : ending.config.hasPidsMax = true → 1 ≤ ending.config.pidsMax := by
    intro has
    rcases read_of_requested (lastCounts .pids) (if_pos has) with ⟨value, read⟩
    exact (Quantity.read_bounds read).1 rfl
  have cpuPercent :
      ending.config.hasCpuPercent = true →
        1 ≤ ending.config.cpuPercent ∧ ending.config.cpuPercent ≤ 1000 := by
    intro has
    rcases read_of_requested (lastCounts .cpuPercent) (if_pos has) with
      ⟨value, read⟩
    exact (Quantity.read_bounds read).2 rfl
  exact
    { toRunnable := runnable
      suffix := (rest_parseOptions options).trans (List.suffix_cons _ args)
      shortHostname := hostname_parseOptions options
      pids := pids
      cpuPercent := cpuPercent
      quota := fun has => by
        have bounds := cpuPercent has
        show 100000 * ending.config.cpuPercent < 0x10000000000000000
        omega
      lastCounts := fun quantity => by
        rw [List.tail_cons, ← lastCounts quantity]
        cases quantity <;> rfl }

/-- Options in an unusual order, one of them given twice. -/
def repeatedOptions : Command where
  args :=
    ["sandbox", "--pids", "4", "--all", "--hostname", "box", "--pids", "9",
      "--cpu-percent", "50", "--", "ls", "-l"].map literal

theorem accepted_config_valid_sample :
    (parseSandbox repeatedOptions).config.pidsMax = 9 ∧
      Valid repeatedOptions.args (parseSandbox repeatedOptions).config := by
  refine ⟨by decide +kernel, accepted_config_valid ?_⟩
  show parseSandbox repeatedOptions = _ ∧ _ ∧ _
  decide +kernel

end Shell.SandboxArguments
