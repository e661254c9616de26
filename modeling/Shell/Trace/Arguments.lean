import Shell.Trace.Tracer

/-!
# The arguments of `trace`

`parse_trace` and `execute_trace_child`.  The options stand in front of a
separator that may only be left out together with the program, for the usage.
Everything behind the separator is the program with its arguments, whatever it
looks like.
-/

namespace Shell.TraceArguments

open Shell.Syntax
open Shell.JobTable

/-- `TraceConfig`. -/
structure TraceConfig where
  showHelp : Bool := false
  summary : Bool := false
  programArgs : List ByteString := []
deriving DecidableEq, Repr

/-- `TraceParseResult`. -/
structure TraceParseResult where
  config : TraceConfig := {}
  error : ByteString := []
deriving DecidableEq, Repr

def TraceParseResult.ok (result : TraceParseResult) : Bool :=
  result.error.isEmpty

def isHelp (arg : ByteString) : Bool :=
  arg = literal "--help" || arg = literal "-h"

def isSummary (arg : ByteString) : Bool :=
  arg = literal "--summary" || arg = literal "-c"

def separatorWord : ByteString :=
  literal "--"

/-- The loop of `parse_trace`, with the variable `separator`; an error leaves it
with what has been read so far. -/
def parseTraceLoop (separator : Bool) (config : TraceConfig) :
    List ByteString →
      Except TraceParseResult (Bool × TraceConfig)
  | [] => .ok (separator, config)
  | arg :: args =>
      if separator then
        parseTraceLoop true
          { config with programArgs := config.programArgs ++ [arg] } args
      else if isHelp arg then
        parseTraceLoop false { config with showHelp := true } args
      else if isSummary arg then
        parseTraceLoop false { config with summary := true } args
      else if arg = separatorWord then
        parseTraceLoop true config args
      else
        .error
          ⟨config, literal "trace: unknown option or missing '--': " ++ arg⟩

/-- `parse_trace`. -/
def parseTrace (command : Command) : TraceParseResult :=
  if command.args.head? ≠ some (literal "trace") then
    { error := literal "trace: internal parse error" }
  else
    match parseTraceLoop false {} command.args.tail with
    | .error result => result
    | .ok (separator, config) =>
        if config.showHelp ∧ config.programArgs = [] then
          { config := config }
        else if ¬ separator then
          ⟨config, literal "trace: expected '--' before program"⟩
        else if config.programArgs = [] then
          ⟨config, literal "trace: missing program after '--'"⟩
        else
          { config := config }

/-- `trace_usage`. -/
def traceUsage : ByteString :=
  literal "usage: trace [--summary|-c] -- PROGRAM [ARGS...]\n" ++
    literal "       trace --help\n" ++
    literal "\n" ++
    literal
      "Trace PROGRAM system calls with Linux ptrace. Live traces are written\n" ++
    literal
      "to stderr so PROGRAM stdout remains usable in pipelines. --summary\n" ++
    literal "prints per-syscall call/error counts when the program exits.\n"

/-- How `execute_trace_child` goes on. -/
inductive TraceStart where
  | returned (status : Int) (output error : ByteString)
  | traces (config : TraceConfig)
deriving DecidableEq, Repr

/-- `execute_trace_child`, up to the call of `trace_process`. -/
def executeTraceChild (command : Command) : TraceStart :=
  let parsed := parseTrace command
  if ¬ parsed.ok then
    .returned 2 [] (parsed.error ++ literal "\n" ++ traceUsage)
  else if parsed.config.showHelp then
    .returned 0 traceUsage []
  else
    .traces parsed.config

/-! ## The accepted arguments -/

/-- What the words in front of the program ask for. -/
def configured (options program : List ByteString) : TraceConfig where
  showHelp := options.any isHelp
  summary := options.any isSummary
  programArgs := program

/-- The loop behind the separator. -/
theorem parseTraceLoop_separated
    (config : TraceConfig) (args : List ByteString) :
    parseTraceLoop true config args =
      .ok (true,
        { config with programArgs := config.programArgs ++ args }) := by
  induction args generalizing config with
  | nil =>
      rw [List.append_nil]
      rfl
  | cons arg args induction =>
      rw [parseTraceLoop, if_pos rfl, induction]
      simp only [List.append_assoc, List.singleton_append]

/-- The options and what is behind them. -/
structure Reads (args options program : List ByteString) (separator : Bool) :
    Prop where
  areOptions :
    ∀ option ∈ options, isHelp option = true ∨ isSummary option = true
  split :
    args = options ++ if separator then separatorWord :: program else []
  noProgram : separator = false → program = []

theorem reads_cons
    {arg : ByteString} {args options program : List ByteString}
    {separator : Bool} :
    Reads (arg :: args) options program separator ↔
      (options = [] ∧ separator = true ∧ arg = separatorWord ∧
          program = args) ∨
        ∃ later,
          options = arg :: later ∧
            (isHelp arg = true ∨ isSummary arg = true) ∧
            Reads args later program separator := by
  constructor
  · rintro ⟨areOptions, split, noProgram⟩
    cases options with
    | nil =>
        cases separator with
        | true =>
            rcases List.cons.inj split with ⟨isSeparator, rest⟩
            exact Or.inl ⟨rfl, rfl, isSeparator, rest.symm⟩
        | false => cases split
    | cons option later =>
        rcases List.cons.inj split with ⟨rfl, rest⟩
        rcases List.forall_mem_cons.mp areOptions with ⟨first, others⟩
        exact Or.inr ⟨later, rfl, first, others, rest, noProgram⟩
  · rintro (⟨rfl, rfl, rfl, rfl⟩ | ⟨later, rfl, isOption, reads⟩)
    · exact ⟨List.forall_mem_nil _, rfl, nofun⟩
    · exact ⟨List.forall_mem_cons.mpr ⟨isOption, reads.areOptions⟩,
        congrArg (arg :: ·) reads.split, reads.noProgram⟩

/-- The words are different from each other. -/
theorem isHelp_words {arg : ByteString} (help : isHelp arg = true) :
    isSummary arg = false ∧ arg ≠ separatorWord := by
  rw [isHelp, Bool.or_eq_true, decide_eq_true_iff, decide_eq_true_iff]
    at help
  rcases help with rfl | rfl <;> decide +kernel

theorem isSummary_words {arg : ByteString} (summary : isSummary arg = true) :
    isHelp arg = false ∧ arg ≠ separatorWord := by
  rw [isSummary, Bool.or_eq_true, decide_eq_true_iff, decide_eq_true_iff]
    at summary
  rcases summary with rfl | rfl <;> decide +kernel

theorem configured_concat
    (before : List ByteString) (arg : ByteString)
    (program : List ByteString) :
    configured (before ++ [arg]) program =
      ⟨(before.any isHelp || isHelp arg),
        (before.any isSummary || isSummary arg), program⟩ := by
  simp [configured]

/-- The loop in front of the separator, from a configuration that some options
have made. -/
theorem parseTraceLoop_eq_ok
    (before : List ByteString) {args : List ByteString} {separator : Bool}
    {config : TraceConfig} :
    parseTraceLoop false (configured before []) args =
        .ok (separator, config) ↔
      ∃ options program,
        Reads args options program separator ∧
          config = configured (before ++ options) program := by
  induction args generalizing before with
  | nil =>
      constructor
      · intro ended
        cases ended
        refine ⟨[], [], ⟨nofun, rfl, fun _ => rfl⟩, ?_⟩
        rw [List.append_nil]
      · rintro ⟨options, program, reads, rfl⟩
        have noWords := List.append_eq_nil_iff.mp reads.split.symm
        cases separator with
        | true => cases noWords.2
        | false =>
            rw [noWords.1, reads.noProgram rfl, List.append_nil]
            rfl
  | cons arg args induction =>
      -- An option joins those before it, and the loop goes on.
      have option :
          isHelp arg = true ∨ isSummary arg = true → arg ≠ separatorWord →
            (parseTraceLoop false (configured (before ++ [arg]) []) args =
                .ok (separator, config) ↔
              ∃ options program,
                Reads (arg :: args) options program separator ∧
                  config = configured (before ++ options) program) := by
        intro isOption noSeparator
        rw [induction]
        constructor
        · rintro ⟨later, program, reads, rfl⟩
          refine ⟨arg :: later, program,
            reads_cons.mpr (Or.inr ⟨later, rfl, isOption, reads⟩), ?_⟩
          rw [List.append_assoc, List.singleton_append]
        · rintro ⟨options, program, reads, rfl⟩
          rcases reads_cons.mp reads with
            ⟨-, -, isSeparator, -⟩ | ⟨later, rfl, -, others⟩
          · exact absurd isSeparator noSeparator
          · refine ⟨later, program, others, ?_⟩
            rw [List.append_assoc, List.singleton_append]
      rw [parseTraceLoop, if_neg Bool.false_ne_true]
      by_cases help : isHelp arg = true
      · rcases isHelp_words help with ⟨noSummary, noSeparator⟩
        rw [if_pos help, ← option (Or.inl help) noSeparator,
          configured_concat, help, noSummary, Bool.or_true, Bool.or_false]
        rfl
      · rw [if_neg help]
        by_cases summary : isSummary arg = true
        · rcases isSummary_words summary with ⟨noHelp, noSeparator⟩
          rw [if_pos summary, ← option (Or.inr summary) noSeparator,
            configured_concat, summary, noHelp, Bool.or_true, Bool.or_false]
          rfl
        · rw [if_neg summary]
          by_cases isSeparator : arg = separatorWord
          · rw [if_pos isSeparator, parseTraceLoop_separated]
            constructor
            · intro ended
              cases ended
              refine ⟨[], args,
                reads_cons.mpr (Or.inl ⟨rfl, rfl, isSeparator, rfl⟩), ?_⟩
              rw [List.append_nil]
              rfl
            · rintro ⟨options, program, reads, rfl⟩
              rcases reads_cons.mp reads with
                ⟨rfl, rfl, -, rfl⟩ | ⟨-, -, isOption, -⟩
              · rw [List.append_nil]
                rfl
              · exact absurd isOption (not_or.mpr ⟨help, summary⟩)
          · rw [if_neg isSeparator]
            constructor
            · intro failed
              cases failed
            · rintro ⟨options, program, reads, rfl⟩
              rcases reads_cons.mp reads with
                ⟨-, -, isWord, -⟩ | ⟨-, -, isOption, -⟩
              · exact absurd isWord isSeparator
              · exact absurd isOption (not_or.mpr ⟨help, summary⟩)

/-- An error of the loop is not empty. -/
theorem parseTraceLoop_error
    {args : List ByteString} {separator : Bool} {config : TraceConfig}
    {result : TraceParseResult}
    (failed : parseTraceLoop separator config args = .error result) :
    result.error ≠ [] := by
  induction args generalizing separator config with
  | nil => cases failed
  | cons arg args induction =>
      rw [parseTraceLoop] at failed
      split_ifs at failed with separated help summary isSeparator
      · exact induction failed
      · exact induction failed
      · exact induction failed
      · exact induction failed
      · cases failed
        simp [literal]

/-- What `parse_trace` checks behind its loop. -/
theorem parseTrace_eq
    {command : Command} {args : List ByteString}
    (words : command.args = literal "trace" :: args) (config : TraceConfig) :
    parseTrace command = { config := config } ↔
      ∃ separator,
        parseTraceLoop false {} args = .ok (separator, config) ∧
          (config.showHelp = true ∧ config.programArgs = [] ∨
            separator = true ∧ config.programArgs ≠ []) := by
  have isTrace : ¬ command.args.head? ≠ some (literal "trace") := by
    rw [words]
    exact fun differs => differs rfl
  rw [parseTrace, if_neg isTrace, words, List.tail_cons]
  cases looped : parseTraceLoop false {} args with
  | error result =>
      constructor
      · intro same
        exact absurd (congrArg TraceParseResult.error same)
          (parseTraceLoop_error looped)
      · rintro ⟨separator, ⟨⟩, -⟩
  | ok read =>
      rcases read with ⟨separator, found⟩
      dsimp only
      split_ifs with usage separated noProgram
      · constructor
        · intro same
          cases same
          exact ⟨separator, rfl, Or.inl usage⟩
        · rintro ⟨_, ⟨⟩, -⟩
          rfl
      · constructor
        · intro same
          cases same
        · rintro ⟨_, ⟨⟩, isUsage | ⟨-, isProgram⟩⟩
          · exact absurd isUsage usage
          · exact absurd noProgram isProgram
      · constructor
        · intro same
          cases same
          exact ⟨separator, rfl, Or.inr ⟨separated, noProgram⟩⟩
        · rintro ⟨_, ⟨⟩, -⟩
          rfl
      · constructor
        · intro same
          cases same
        · rintro ⟨_, ⟨⟩, isUsage | ⟨isSeparated, -⟩⟩
          · exact absurd isUsage usage
          · exact absurd isSeparated separated

/--
`parse_trace` accepts exactly options, a separator and a program, or options
that ask for the usage and no program.  The program and its arguments are taken
as they are, also if they look like options or separators.
-/
theorem trace_arguments_exact
    {command : Command} {args : List ByteString}
    (words : command.args = literal "trace" :: args) (config : TraceConfig) :
    parseTrace command = { config := config } ↔
      ∃ options program,
        (∀ option ∈ options,
          isHelp option = true ∨ isSummary option = true) ∧
          config = configured options program ∧
          (args = options ++ separatorWord :: program ∧
              (program ≠ [] ∨ ∃ option ∈ options, isHelp option = true) ∨
            args = options ∧ program = [] ∧
              ∃ option ∈ options, isHelp option = true) := by
  rw [parseTrace_eq words]
  constructor
  · rintro ⟨separator, looped, accepted⟩
    rcases (parseTraceLoop_eq_ok []).mp looped with
      ⟨options, program, ⟨areOptions, split, noProgram⟩, rfl⟩
    refine ⟨options, program, areOptions, rfl, ?_⟩
    cases separator with
    | true =>
        refine Or.inl ⟨split, ?_⟩
        rcases accepted with ⟨usage, -⟩ | ⟨-, isProgram⟩
        · exact Or.inr (List.any_eq_true.mp usage)
        · exact Or.inl isProgram
    | false =>
        rcases accepted with ⟨usage, -⟩ | ⟨⟨⟩, -⟩
        exact Or.inr ⟨split.trans (List.append_nil _), noProgram rfl,
          List.any_eq_true.mp usage⟩
  · rintro ⟨options, program, areOptions, rfl, split⟩
    rcases split with ⟨split, accepted⟩ | ⟨split, rfl, usage⟩
    · refine ⟨true, (parseTraceLoop_eq_ok []).mpr
        ⟨options, program, ⟨areOptions, split, nofun⟩, rfl⟩, ?_⟩
      by_cases noProgram : program = []
      · refine Or.inl ⟨List.any_eq_true.mpr ?_, noProgram⟩
        exact accepted.resolve_left fun isProgram => isProgram noProgram
      · exact Or.inr ⟨rfl, noProgram⟩
    · refine ⟨false, (parseTraceLoop_eq_ok []).mpr
        ⟨options, [], ⟨areOptions, ?_, fun _ => rfl⟩, rfl⟩, ?_⟩
      · rw [if_neg Bool.false_ne_true, List.append_nil]
        exact split
      · exact Or.inl ⟨List.any_eq_true.mpr usage, rfl⟩

/-- A program with the name of an option. -/
theorem trace_arguments_exact_sample :
    parseTrace
        { args :=
            [literal "trace", literal "-c", separatorWord,
              literal "--help"] } =
      { config := { summary := true, programArgs := [literal "--help"] } } := by
  refine (trace_arguments_exact rfl _).mpr
    ⟨[literal "-c"], [literal "--help"], ?_, by decide +kernel,
      Or.inl ⟨rfl, Or.inl (by decide)⟩⟩
  intro option isOption
  rw [List.mem_singleton.mp isOption]
  exact Or.inr (by decide +kernel)

end Shell.TraceArguments
