import Shell.Executor.LaunchMachine
import Shell.Library.OptionScan
import Shell.Parsing.Numerals
import Shell.Process.Information

/-!
# The samples of `pinfo`

`builtin_pinfo`: the loop over its arguments and the loop that takes the
samples.  The answers of `inspect_process` are given, one for each sample; how
a record is rendered plays no role and is given as well.

The loop over the samples need not end.  It is run for a number of rounds, and
has no status if it is still running behind them.
-/

namespace Shell.ProcessSampling

open Shell.Syntax
open Shell.JobTable
open Shell.JobOperations
open Shell.Numerals
open Shell.OptionScan
open Shell.LaunchMachine
open Shell.ProcessInformation

/-! ## The arguments -/

/-- `parse_positive_long`. -/
def parsePositiveLong (text : ByteString) : Option Int :=
  if text = [] then
    none
  else
    match stol text with
    | some (parsed, []) => if parsed ≤ 0 then none else some parsed
    | _ => none

/-- The variables of `builtin_pinfo`; no process id stands for the shell. -/
structure Settings where
  pid : Option Int := none
  watch : Bool := false
  pidExplicit : Bool := false
  intervalMs : Int := 1000
  count : Int := 1
  countExplicit : Bool := false
deriving DecidableEq, Repr

/-- How the loop over the arguments is left. -/
inductive ArgumentsEnd where
  | help
  | rejected (message : ByteString)
  | accepted
deriving DecidableEq, Repr

def isHelp (arg : ByteString) : Bool :=
  arg = literal "--help" || arg = literal "-h"

def isWatch (arg : ByteString) : Bool :=
  arg = literal "--watch" || arg = literal "-w"

/-- The argument that is not an option, with the text of an error if any. -/
def readPid (settings : Settings) (arg : ByteString) :
    Settings × Option ByteString :=
  if settings.pidExplicit then
    (settings, some (literal "pinfo: multiple PIDs are not supported\n"))
  else
    let settings := { settings with pidExplicit := true }
    let invalid := literal "pinfo: invalid PID: " ++ arg ++ literal "\n"
    if arg = literal "self" then
      ({ settings with pid := none }, none)
    else
      match parsePositiveLong arg with
      | none => (settings, some invalid)
      | some parsed =>
          if parsed > 0x7fffffff then (settings, some invalid)
          else ({ settings with pid := some parsed }, none)

def intervalMessage : ByteString :=
  literal "pinfo: --interval expects 1..60000 milliseconds\n"

def countMessage : ByteString :=
  literal "pinfo: --count expects a positive integer\n"

/-- The loop over the arguments, with the variables as it leaves them. -/
def readArguments (settings : Settings) :
    List ByteString → Settings × ArgumentsEnd
  | [] => (settings, .accepted)
  | arg :: rest =>
      if isHelp arg then
        (settings, .help)
      else if isWatch arg then
        readArguments
          { settings with
            watch := true
            count := if settings.countExplicit then settings.count else 0 }
          rest
      else if arg = literal "--interval" then
        match rest with
        | [] => (settings, .rejected intervalMessage)
        | value :: rest =>
            match parsePositiveLong value with
            | none => (settings, .rejected intervalMessage)
            | some interval =>
                let settings := { settings with intervalMs := interval }
                if interval > 60000 then
                  (settings, .rejected intervalMessage)
                else
                  readArguments settings rest
      else if arg = literal "--count" then
        match rest with
        | [] => (settings, .rejected countMessage)
        | value :: rest =>
            match parsePositiveLong value with
            | none => (settings, .rejected countMessage)
            | some count =>
                readArguments
                  { settings with count := count, countExplicit := true } rest
      else if arg.head? = some 0x2d then
        (settings,
          .rejected
            (literal "pinfo: unknown option: " ++ arg ++ literal "\n"))
      else
        match readPid settings arg with
        | (settings, some message) => (settings, .rejected message)
        | (settings, none) => readArguments settings rest

/-! ## The samples -/

/-- What `builtin_pinfo` does. -/
inductive Event where
  | write (text : ByteString)
  | report (text : ByteString)
  | inspect (pid : Int)
  | sleep (milliseconds : Int)
deriving DecidableEq, Repr

def Event.isInspection : Event → Bool
  | .inspect _ => true
  | _ => false

def Event.isSleep : Event → Bool
  | .sleep _ => true
  | _ => false

/-- What `builtin_pinfo` finds around it. -/
structure World where
  self : Int
  /-- The answers of `inspect_process`, by the number of the sample. -/
  inspection : Nat → ProcessInfoResult
  render : ProcessInfo → ByteString

/-- The events so far, and the status if the function has returned. -/
structure Sampling where
  events : List Event
  status : Option Int
deriving DecidableEq, Repr

def Settings.process (settings : Settings) (world : World) : Int :=
  settings.pid.getD world.self

/-- What is written for a sample. -/
def sampleText (settings : Settings) (world : World) (sample : Nat)
    (info : ProcessInfo) : List Event :=
  (if settings.watch then
      [.write
        (literal "=== sample " ++ decimal (sample + 1) ++ literal " ===\n")]
    else []) ++
    [.write (world.render info)]

/-- The loop over the samples, for a number of rounds. -/
def takeSamples (settings : Settings) (world : World) :
    Nat → Nat → Sampling
  | rounds, sample =>
      if settings.count ≠ 0 ∧ settings.count ≤ sample then
        ⟨[], some 0⟩
      else
        match rounds with
        | 0 => ⟨[], none⟩
        | rounds + 1 =>
            let inspected := world.inspection sample
            match inspected.info with
            | none =>
                ⟨[.inspect (settings.process world),
                    .report
                      (literal "pinfo: " ++ inspected.error ++
                        literal "\n")],
                  some 1⟩
            | some info =>
                let shown :=
                  .inspect (settings.process world) ::
                    sampleText settings world sample info
                if settings.count ≠ 0 ∧ settings.count ≤ sample + 1 then
                  ⟨shown, some 0⟩
                else
                  let later :=
                    takeSamples settings world rounds (sample + 1)
                  ⟨shown ++
                      (.sleep settings.intervalMs ::
                        (if settings.watch then [.write (literal "\n")]
                          else [])) ++
                      later.events,
                    later.status⟩

/-- The checks between the two loops. -/
def checkSettings (settings : Settings) : Option ByteString :=
  if settings.watch = false ∧ settings.countExplicit = true then
    some (literal "pinfo: --count requires --watch\n")
  else if settings.watch = false ∧ settings.intervalMs ≠ 1000 then
    some (literal "pinfo: --interval requires --watch\n")
  else
    none

def usage : ByteString :=
  literal "usage: pinfo [PID|self]\n" ++
    literal
      "       pinfo --watch [PID|self] [--interval MS] [--count N]\n"

/-- `builtin_pinfo` on the words behind its name. -/
def builtinPinfo (world : World) (args : List ByteString) (rounds : Nat) :
    Sampling :=
  match readArguments {} args with
  | (_, .help) => ⟨[.write usage], some 0⟩
  | (_, .rejected message) => ⟨[.report message], some 2⟩
  | (settings, .accepted) =>
      match checkSettings settings with
      | some message => ⟨[.report message], some 2⟩
      | none => takeSamples settings world rounds 0

/-! ## The arguments as options -/

def takesValue (arg : ByteString) : Bool :=
  arg = literal "--interval" || arg = literal "--count"

/-- The arguments, with the values of the options that take one.  A process id
counts as an option without a value. -/
def scanned (args : List ByteString) : List (Use ByteString) :=
  (scan takesValue (fun _ => false) args).1

theorem scanned_pair
    {arg : ByteString} (takes : takesValue arg = true) (value : ByteString)
    (rest : List ByteString) :
    scanned (arg :: value :: rest) = ⟨arg, some value⟩ :: scanned rest := by
  rw [scanned, scan_pair rfl takes]
  rfl

theorem scanned_alone
    {arg : ByteString} (alone : takesValue arg = false)
    (rest : List ByteString) :
    scanned (arg :: rest) = ⟨arg, none⟩ :: scanned rest := by
  rw [scanned, scan_single rfl alone]
  rfl

theorem takesValue_of_isWatch
    {arg : ByteString} (watches : isWatch arg = true) :
    takesValue arg = false := by
  simp only [isWatch, Bool.or_eq_true, decide_eq_true_eq] at watches
  rcases watches with rfl | rfl <;> decide

theorem head_of_isWatch
    {arg : ByteString} (watches : isWatch arg = true) :
    arg.head? = some 0x2d := by
  simp only [isWatch, Bool.or_eq_true, decide_eq_true_eq] at watches
  rcases watches with rfl | rfl <;> rfl

theorem takesValue_of_isHelp
    {arg : ByteString} (helps : isHelp arg = true) :
    takesValue arg = false := by
  simp only [isHelp, Bool.or_eq_true, decide_eq_true_eq] at helps
  rcases helps with rfl | rfl <;> decide

theorem takesValue_of_ne
    {arg : ByteString} (notInterval : arg ≠ literal "--interval")
    (notCount : arg ≠ literal "--count") :
    takesValue arg = false := by
  simp [takesValue, notInterval, notCount]

/-- What no option is, no option further on is. -/
theorem later_of_scanned
    {holds : ByteString → Bool} {args rest : List ByteString}
    {use : Use ByteString}
    (none : ∀ use ∈ scanned args, holds use.option = false)
    (same : scanned args = use :: scanned rest) :
    ∀ use ∈ scanned rest, holds use.option = false := by
  rw [same] at none
  exact (List.forall_mem_cons.mp none).2

/-- An option stands among the arguments. -/
theorem option_mem
    {args : List ByteString} {use : Use ByteString}
    (isUse : use ∈ scanned args) : use.option ∈ args := by
  have words :
      (scanned args).flatMap Use.words ++
        (scan takesValue (fun _ => false) args).2 = args :=
    words_scan args
  rw [← words]
  apply List.mem_append_left
  exact List.mem_flatMap.mpr ⟨use, isUse, List.mem_cons_self⟩

/-- The process is all that an argument without a minus sign changes. -/
theorem readPid_frame
    {settings next : Settings} {arg : ByteString}
    {message : Option ByteString}
    (read : readPid settings arg = (next, message)) :
    next =
      { settings with pid := next.pid, pidExplicit := next.pidExplicit } := by
  simp only [readPid] at read
  split_ifs at read
  · cases read
    rfl
  · cases read
    rfl
  · split at read
    · cases read
      rfl
    · split_ifs at read <;> cases read <;> rfl

/-! ## Without `--watch` -/

/-- What the loop over the arguments leaves if it does not meet `--watch`. -/
structure Unwatched (settings : Settings) : Prop where
  watch : settings.watch = false
  count : settings.countExplicit = false → settings.count = 1

theorem Unwatched.of_readPid
    {settings next : Settings} {arg : ByteString}
    {message : Option ByteString} (unwatched : Unwatched settings)
    (read : readPid settings arg = (next, message)) :
    Unwatched next := by
  rw [readPid_frame read]
  exact ⟨unwatched.watch, unwatched.count⟩

theorem unwatched_readArguments
    {settings : Settings} {args : List ByteString}
    (unwatched : Unwatched settings)
    (noWatch : ∀ use ∈ scanned args, isWatch use.option = false) :
    Unwatched (readArguments settings args).1 := by
  fun_induction readArguments settings args with
  | case1 | case2 | case4 | case5 | case8 | case9 | case11 => exact unwatched
  | case3 settings arg rest _ watches =>
      rw [scanned_alone (takesValue_of_isWatch watches)] at noWatch
      rw [(List.forall_mem_cons.mp noWatch).1] at watches
      cases watches
  | case6 => exact ⟨unwatched.watch, unwatched.count⟩
  | case7 settings value rest interval _ next _ _ _ induction =>
      exact induction ⟨unwatched.watch, unwatched.count⟩
        (later_of_scanned noWatch (scanned_pair rfl value rest))
  | case10 settings value rest count _ _ _ _ induction =>
      -- An explicit count is not bounded here; it is an error later on.
      exact induction ⟨unwatched.watch, nofun⟩
        (later_of_scanned noWatch (scanned_pair rfl value rest))
  | case12 settings arg rest _ _ _ _ _ next message read =>
      exact unwatched.of_readPid read
  | case13 settings arg rest _ _ notInterval notCount _ next read
      induction =>
      exact induction (unwatched.of_readPid read)
        (later_of_scanned noWatch
          (scanned_alone (takesValue_of_ne notInterval notCount) rest))

/-- A run that ends soon: at most one inspection, and no sleep. -/
structure Brief (sampling : Sampling) : Prop where
  ends : ∃ status, sampling.status = some status
  inspections : sampling.events.countP Event.isInspection ≤ 1
  sleepless : ∀ event ∈ sampling.events, event.isSleep = false

/-- A run that has only reported or written something. -/
theorem Brief.of_single
    {event : Event} (quiet : event.isInspection = false)
    (awake : event.isSleep = false) (status : Int) :
    Brief ⟨[event], some status⟩ where
  ends := ⟨status, rfl⟩
  inspections := by
    rw [List.countP_singleton, quiet]
    exact Nat.zero_le 1
  sleepless := List.forall_mem_singleton.mpr awake

/-- One sample is taken in one round. -/
theorem brief_takeSamples
    {settings : Settings} (unwatched : settings.watch = false)
    (once : settings.count = 1) (world : World) (rounds : Nat) :
    Brief (takeSamples settings world (rounds + 1) 0) := by
  have goesOn : ¬ (settings.count ≠ 0 ∧ settings.count ≤ (0 : Nat)) := by
    rw [once]
    decide
  have enough : settings.count ≠ 0 ∧ settings.count ≤ (0 : Nat) + 1 := by
    rw [once]
    decide
  rw [takeSamples, if_neg goesOn]
  dsimp only
  cases (world.inspection 0).info with
  | none =>
      refine ⟨⟨1, rfl⟩, Nat.le_refl 1, ?_⟩
      exact List.forall_mem_cons.mpr
        ⟨rfl, List.forall_mem_singleton.mpr rfl⟩
  | some info =>
      simp only [if_pos enough, sampleText, unwatched]
      refine ⟨⟨0, rfl⟩, Nat.le_refl 1, ?_⟩
      exact List.forall_mem_cons.mpr
        ⟨rfl, List.forall_mem_singleton.mpr rfl⟩

theorem brief_builtinPinfo
    {args : List ByteString}
    (noWatch : ∀ use ∈ scanned args, isWatch use.option = false)
    (world : World) (rounds : Nat) :
    Brief (builtinPinfo world args (rounds + 1)) := by
  have start : Unwatched {} := ⟨rfl, fun _ => rfl⟩
  have unwatched := unwatched_readArguments start noWatch
  unfold builtinPinfo
  generalize readArguments {} args = result at unwatched ⊢
  rcases result with ⟨settings, help | message | accepted⟩
  · exact .of_single rfl rfl 0
  · exact .of_single rfl rfl 2
  · dsimp only
    cases checked : checkSettings settings with
    | some message => exact .of_single rfl rfl 2
    | none =>
        have implicit : settings.countExplicit = false := by
          unfold checkSettings at checked
          split_ifs at checked with counted
          exact Bool.eq_false_iff.mpr fun isCounted =>
            counted ⟨unwatched.watch, isCounted⟩
        exact brief_takeSamples unwatched.watch (unwatched.count implicit)
          world rounds

/-! ## What the shell runs itself -/

/-- The names of the commands that confine or trace a program. -/
def confiningNames : List ByteString :=
  [literal "run", literal "sandbox", literal "trace"]

theorem runsInParent_cases
    {pipeline : Pipeline} (inParent : runsInParent pipeline = true) :
    ∃ command name args,
      pipeline.commands = [command] ∧ command.args = name :: args ∧
        requiresChildBuiltinExecution command = false := by
  unfold runsInParent at inParent
  split at inParent
  · rename_i command single
    split at inParent
    · cases inParent
    · rename_i name args words
      simp only [Bool.and_eq_true, Bool.not_eq_true'] at inParent
      exact ⟨command, name, args, single, words, inParent.2⟩
  · cases inParent

theorem requiresChild_cases
    {command : Command} {name : ByteString} {args : List ByteString}
    (words : command.args = name :: args)
    (inShell : requiresChildBuiltinExecution command = false) :
    name ∉ confiningNames ∧
      (name = literal "pinfo" → ∀ arg ∈ args, isWatch arg = false) := by
  simp only [requiresChildBuiltinExecution, words] at inShell
  split_ifs at inShell with confining other
  · refine ⟨by simpa [confiningNames] using confining, ?_⟩
    exact fun same => absurd same other
  · refine ⟨by simpa [confiningNames] using confining, fun _ => ?_⟩
    intro arg isArg
    have noArg := List.any_eq_false.mp inShell arg
      (List.mem_cons_of_mem name isArg)
    exact Bool.eq_false_iff.mpr noArg

/--
A pipeline that the shell runs itself is neither `run` nor `sandbox` nor
`trace`, and if it is `pinfo`, it ends behind one inspection at most, without
a sleep, whatever the inspection says.  Where `pinfo` would watch, the shell
runs it in a child.
-/
theorem parent_builtins_brief :
    (∀ pipeline, runsInParent pipeline = true →
      ∃ command name args,
        pipeline.commands = [command] ∧ command.args = name :: args ∧
          name ∉ confiningNames ∧
          (name = literal "pinfo" →
            ∀ world rounds, Brief (builtinPinfo world args (rounds + 1)))) ∧
      ∀ command args, command.args = literal "pinfo" :: args →
        (readArguments {} args).1.watch = true →
          requiresChildBuiltinExecution command = true := by
  constructor
  · intro pipeline inParent
    rcases runsInParent_cases inParent with
      ⟨command, name, args, single, words, inShell⟩
    rcases requiresChild_cases words inShell with ⟨unconfined, noWatch⟩
    refine ⟨command, name, args, single, words, unconfined, ?_⟩
    intro isPinfo world rounds
    apply brief_builtinPinfo
    exact fun use isUse => noWatch isPinfo use.option (option_mem isUse)
  · intro command args words watches
    by_contra inShell
    have noWatch :=
      (requiresChild_cases words (Bool.eq_false_iff.mpr inShell)).2 rfl
    have start : Unwatched {} := ⟨rfl, fun _ => rfl⟩
    have unwatched :=
      unwatched_readArguments start
        (fun use isUse => noWatch use.option (option_mem isUse))
    rw [unwatched.watch] at watches
    cases watches

/-- `pinfo 7 --interval 1000` is run by the shell. -/
def pinfoOnce : Pipeline where
  commands := [{ args := ["pinfo", "7", "--interval", "1000"].map literal }]

theorem parent_builtins_brief_sample :
    runsInParent pinfoOnce = true ∧
      ∃ command name args,
        pinfoOnce.commands = [command] ∧ command.args = name :: args ∧
          name ∉ confiningNames ∧
          (name = literal "pinfo" →
            ∀ world rounds, Brief (builtinPinfo world args (rounds + 1))) := by
  have inParent : runsInParent pinfoOnce = true := by decide +kernel
  exact ⟨inParent, parent_builtins_brief.1 pinfoOnce inParent⟩

/-! ## The options of a watch -/

/-- The interval is kept, or it is the number of a value. -/
def IntervalFollows (settings final : Settings) : Option ByteString → Prop
  | none => final.intervalMs = settings.intervalMs
  | some value => parsePositiveLong value = some final.intervalMs

theorem IntervalFollows.or
    {settings next final : Settings} {value later : Option ByteString}
    (first : IntervalFollows settings next value)
    (second : IntervalFollows next final later) :
    IntervalFollows settings final (later.or value) := by
  cases later with
  | some text => exact second
  | none =>
      have same : final.intervalMs = next.intervalMs := second
      cases value with
      | none => exact same.trans first
      | some text =>
          show parsePositiveLong text = some final.intervalMs
          rw [same]
          exact first

/-- What the loop over the arguments leaves if it accepts them. -/
structure Follows (settings final : Settings) (uses : List (Use ByteString)) :
    Prop where
  counted :
    final.countExplicit = true ↔
      settings.countExplicit = true ∨
        ∃ use ∈ uses, use.option = literal "--count"
  interval :
    IntervalFollows settings final (lastValue (literal "--interval") uses)
  valued :
    ∀ use ∈ uses, use.option = literal "--interval" → use.value ≠ none

theorem Follows.nil (settings : Settings) : Follows settings settings [] where
  counted := by
    constructor
    · exact Or.inl
    · rintro (before | ⟨use, ⟨⟩, -⟩)
      exact before
  interval := rfl
  valued := List.forall_mem_nil _

/-- One more option in front. -/
theorem Follows.cons
    {settings next final : Settings} {uses : List (Use ByteString)}
    {use : Use ByteString} (later : Follows next final uses)
    (counted :
      next.countExplicit = true ↔
        settings.countExplicit = true ∨ use.option = literal "--count")
    (interval :
      IntervalFollows settings next
        (if use.option = literal "--interval" then use.value else none))
    (valued : use.option = literal "--interval" → use.value ≠ none) :
    Follows settings final (use :: uses) where
  counted := by
    rw [later.counted, counted, or_assoc]
    simp only [List.mem_cons, exists_eq_or_imp]
  interval := by
    rw [lastValue_cons]
    exact interval.or later.interval
  valued := List.forall_mem_cons.mpr ⟨valued, later.valued⟩

theorem follows_readArguments
    {settings : Settings} {args : List ByteString}
    (accepted : (readArguments settings args).2 = .accepted) :
    Follows settings (readArguments settings args).1 (scanned args) := by
  fun_induction readArguments settings args with
  | case1 settings => exact .nil settings
  | case2 | case4 | case5 | case6 | case8 | case9 | case11 | case12 =>
      cases accepted
  | case3 settings arg rest _ watches induction =>
      rw [scanned_alone (takesValue_of_isWatch watches)]
      refine (induction accepted).cons (or_iff_left ?_).symm ?_ ?_
      · intro counts
        rw [show arg = literal "--count" from counts] at watches
        cases watches
      · rw [ite_self]
        rfl
      · intro isInterval
        rw [show arg = literal "--interval" from isInterval] at watches
        cases watches
  | case7 settings value rest interval read next _ _ _ induction =>
      rw [scanned_pair rfl]
      refine (induction accepted).cons (or_iff_left ?_).symm ?_
        (fun _ => Option.some_ne_none _)
      · exact fun counts => nomatch counts
      · rw [if_pos rfl]
        exact read
  | case10 settings value rest count _ _ _ notInterval induction =>
      rw [scanned_pair rfl]
      refine (induction accepted).cons (iff_of_true rfl (Or.inr rfl)) ?_
        (fun _ => Option.some_ne_none _)
      rw [if_neg notInterval]
      rfl
  | case13 settings arg rest _ _ notInterval notCount _ next read
      induction =>
      rw [scanned_alone (takesValue_of_ne notInterval notCount)]
      refine (induction accepted).cons ?_ ?_
        (fun isInterval => absurd isInterval notInterval)
      · rw [readPid_frame read]
        exact (or_iff_left notCount).symm
      · rw [ite_self, readPid_frame read]
        rfl

theorem not_help_readArguments
    {settings : Settings} {args : List ByteString}
    (noHelp : ∀ use ∈ scanned args, isHelp use.option = false) :
    (readArguments settings args).2 ≠ .help := by
  fun_induction readArguments settings args with
  | case1 | case4 | case5 | case6 | case8 | case9 | case11 | case12 =>
      exact ArgumentsEnd.noConfusion
  | case2 settings arg rest helps =>
      rw [scanned_alone (takesValue_of_isHelp helps)] at noHelp
      rw [(List.forall_mem_cons.mp noHelp).1] at helps
      cases helps
  | case3 settings arg rest _ watches induction =>
      exact induction
        (later_of_scanned noHelp
          (scanned_alone (takesValue_of_isWatch watches) rest))
  | case7 settings value rest interval _ next _ _ _ induction =>
      exact induction (later_of_scanned noHelp (scanned_pair rfl value rest))
  | case10 settings value rest count _ _ _ _ induction =>
      exact induction (later_of_scanned noHelp (scanned_pair rfl value rest))
  | case13 settings arg rest _ _ notInterval notCount _ next read
      induction =>
      exact induction
        (later_of_scanned noHelp
          (scanned_alone (takesValue_of_ne notInterval notCount) rest))

/-! ## The words that are accepted -/

/-- A word that names a process. -/
def NamesProcess (word : ByteString) : Prop :=
  word = literal "self" ∨
    ∃ number, parsePositiveLong word = some number ∧ number ≤ 0x7fffffff

/-- A word in the place of an option, with its value, that is no error by
itself. -/
def Fits (use : Use ByteString) : Prop :=
  if use.option = literal "--interval" then
    ∃ number,
      use.value.bind parsePositiveLong = some number ∧ number ≤ 60000
  else if use.option = literal "--count" then
    ∃ number, use.value.bind parsePositiveLong = some number
  else
    isWatch use.option = true ∨
      use.option.head? ≠ some 0x2d ∧ NamesProcess use.option

theorem fits_alone {arg : ByteString} (alone : takesValue arg = false) :
    Fits ⟨arg, none⟩ ↔
      isWatch arg = true ∨ arg.head? ≠ some 0x2d ∧ NamesProcess arg := by
  simp only [takesValue, Bool.or_eq_false_iff,
    decide_eq_false_iff_not] at alone
  rw [Fits, if_neg alone.1, if_neg alone.2]

def isOperand (use : Use ByteString) : Bool :=
  use.option.head? ≠ some 0x2d

/-- Each word is right, and there is one process at most. -/
def Acceptable (pidExplicit : Bool) (uses : List (Use ByteString)) : Prop :=
  (∀ use ∈ uses, Fits use) ∧
    uses.countP isOperand + pidExplicit.toNat ≤ 1

theorem not_acceptable
    {use : Use ByteString} (unfit : ¬ Fits use) {pidExplicit : Bool}
    {uses : List (Use ByteString)} :
    ¬ Acceptable pidExplicit (use :: uses) :=
  fun acceptable => unfit (acceptable.1 use List.mem_cons_self)

theorem acceptable_option
    {use : Use ByteString} (isOption : use.option.head? = some 0x2d)
    (pidExplicit : Bool) (uses : List (Use ByteString)) :
    Acceptable pidExplicit (use :: uses) ↔
      Fits use ∧ Acceptable pidExplicit uses := by
  have noOperand : ¬ isOperand use = true := by
    simp [isOperand, isOption]
  rw [Acceptable, Acceptable, List.forall_mem_cons,
    List.countP_cons_of_neg noOperand, and_assoc]

theorem acceptable_operand
    {use : Use ByteString} (operand : use.option.head? ≠ some 0x2d)
    (pidExplicit : Bool) (uses : List (Use ByteString)) :
    Acceptable pidExplicit (use :: uses) ↔
      (pidExplicit = false ∧ Fits use) ∧ Acceptable true uses := by
  have isOne : isOperand use = true := decide_eq_true operand
  rw [Acceptable, Acceptable, List.forall_mem_cons,
    List.countP_cons_of_pos isOne]
  cases pidExplicit with
  | false => simp only [Bool.toNat_false, Bool.toNat_true, true_and,
      Nat.add_zero, and_assoc]
  | true =>
      refine iff_of_false ?_ ?_
      · rintro ⟨-, tooMany⟩
        rw [Bool.toNat_true] at tooMany
        omega
      · rintro ⟨⟨⟨⟩, -⟩, -⟩

/-- What a word without a minus sign has to be. -/
theorem readPid_message_eq_none_iff (settings : Settings) (arg : ByteString) :
    (readPid settings arg).2 = none ↔
      settings.pidExplicit = false ∧ NamesProcess arg := by
  unfold readPid NamesProcess
  cases settings.pidExplicit with
  | true => exact iff_of_false (Option.some_ne_none _) nofun
  | false =>
      simp only [Bool.false_eq_true, if_false, true_and]
      by_cases isSelf : arg = literal "self"
      · simp only [isSelf, if_true, true_or]
      · simp only [isSelf, if_false, false_or]
        cases parsed : parsePositiveLong arg with
        | none => simp
        | some number =>
            by_cases large : number > 0x7fffffff
            · simp [large]
            · simp [large, Int.not_lt.mp large]

/-- A word without a minus sign is acceptable if it is read as a process. -/
theorem acceptable_process
    {arg : ByteString} (noWatch : ¬ isWatch arg = true)
    (alone : takesValue arg = false) (operand : arg.head? ≠ some 0x2d)
    {settings : Settings} {rest : List ByteString} :
    Acceptable settings.pidExplicit (scanned (arg :: rest)) ↔
      (readPid settings arg).2 = none ∧ Acceptable true (scanned rest) := by
  rw [scanned_alone alone, acceptable_operand operand, fits_alone alone,
    or_iff_right noWatch, and_iff_right operand,
    readPid_message_eq_none_iff]

theorem readPid_pidExplicit (settings : Settings) (arg : ByteString) :
    (readPid settings arg).1.pidExplicit = true := by
  unfold readPid
  split_ifs with explicit isSelf
  · exact explicit
  · rfl
  · dsimp only
    split
    · rfl
    · split_ifs <;> rfl

/-- The loop over the arguments refuses nothing else. -/
theorem accepted_iff
    {settings : Settings} {args : List ByteString}
    (noHelp : ∀ use ∈ scanned args, isHelp use.option = false) :
    (readArguments settings args).2 = .accepted ↔
      Acceptable settings.pidExplicit (scanned args) := by
  fun_induction readArguments settings args with
  | case1 settings =>
      refine iff_of_true rfl ⟨List.forall_mem_nil _, ?_⟩
      cases settings.pidExplicit <;> decide
  | case2 settings arg rest helps =>
      rw [scanned_alone (takesValue_of_isHelp helps)] at noHelp
      rw [(List.forall_mem_cons.mp noHelp).1] at helps
      cases helps
  | case3 settings arg rest _ watches induction =>
      have alone := takesValue_of_isWatch watches
      have fits : Fits ⟨arg, none⟩ := (fits_alone alone).mpr (Or.inl watches)
      rw [scanned_alone alone, acceptable_option (head_of_isWatch watches),
        and_iff_right fits]
      exact induction (later_of_scanned noHelp (scanned_alone alone rest))
  | case4 settings =>
      refine iff_of_false nofun (not_acceptable ?_)
      rintro ⟨number, read, -⟩
      cases read
  | case5 settings value rest unread =>
      rw [scanned_pair rfl]
      refine iff_of_false nofun (not_acceptable ?_)
      rintro ⟨number, read, -⟩
      cases unread.symm.trans read
  | case6 settings value rest interval read next large =>
      rw [scanned_pair rfl]
      refine iff_of_false nofun (not_acceptable ?_)
      rintro ⟨number, same, small⟩
      cases read.symm.trans same
      exact absurd small (Int.not_le.mpr large)
  | case7 settings value rest interval read next small _ _ induction =>
      have fits : Fits ⟨literal "--interval", some value⟩ :=
        ⟨interval, read, Int.not_lt.mp small⟩
      rw [scanned_pair rfl, acceptable_option rfl, and_iff_right fits]
      exact induction (later_of_scanned noHelp (scanned_pair rfl value rest))
  | case8 settings =>
      refine iff_of_false nofun (not_acceptable ?_)
      rintro ⟨number, read⟩
      cases read
  | case9 settings value rest unread =>
      rw [scanned_pair rfl]
      refine iff_of_false nofun (not_acceptable ?_)
      rintro ⟨number, read⟩
      cases unread.symm.trans read
  | case10 settings value rest count read _ _ _ induction =>
      have fits : Fits ⟨literal "--count", some value⟩ := ⟨count, read⟩
      rw [scanned_pair rfl, acceptable_option rfl, and_iff_right fits]
      exact induction (later_of_scanned noHelp (scanned_pair rfl value rest))
  | case11 settings arg rest _ noWatch notInterval notCount isOption =>
      have alone := takesValue_of_ne notInterval notCount
      rw [scanned_alone alone]
      refine iff_of_false nofun (not_acceptable fun fits => ?_)
      exact ((fits_alone alone).mp fits).elim noWatch
        fun operand => operand.1 isOption
  | case12 settings arg rest _ noWatch notInterval notCount operand next
      message read =>
      rw [acceptable_process noWatch
        (takesValue_of_ne notInterval notCount) operand, read]
      refine iff_of_false nofun fun accepted => ?_
      cases accepted.1
  | case13 settings arg rest _ noWatch notInterval notCount operand next read
      induction =>
      have alone := takesValue_of_ne notInterval notCount
      have explicit := readPid_pidExplicit settings arg
      rw [read] at explicit
      rw [acceptable_process noWatch alone operand, read, and_iff_right rfl,
        ← explicit]
      exact induction (later_of_scanned noHelp (scanned_alone alone rest))

/-- Sampling options that are accepted are seen behind the loop, apart from
the default interval. -/
theorem Follows.checkSettings_eq_none_iff
    {final : Settings} {uses : List (Use ByteString)}
    (follows : Follows {} final uses) (unwatched : final.watch = false)
    (occurs :
      ∃ use ∈ uses,
        use.option = literal "--interval" ∨ use.option = literal "--count") :
    checkSettings final = none ↔
      (∀ use ∈ uses, use.option ≠ literal "--count") ∧
        (lastValue (literal "--interval") uses).bind parsePositiveLong =
          some 1000 := by
  have counted :
      final.countExplicit = true ↔
        ∃ use ∈ uses, use.option = literal "--count" :=
    follows.counted.trans (or_iff_right Bool.false_ne_true)
  have silent :
      checkSettings final = none ↔
        final.countExplicit = false ∧ final.intervalMs = 1000 := by
    unfold ProcessSampling.checkSettings
    cases final.countExplicit <;> simp [unwatched]
  have uncounted :
      final.countExplicit = false ↔
        ∀ use ∈ uses, use.option ≠ literal "--count" := by
    rw [← Bool.not_eq_true, counted]
    push Not
    rfl
  rw [silent, uncounted]
  refine and_congr_right fun noCount => ?_
  rcases occurs with ⟨use, isUse, isInterval | isCount⟩
  · have given :=
      lastValue_ne_none isUse isInterval
        (follows.valued use isUse isInterval)
    rcases Option.ne_none_iff_exists'.mp given with ⟨value, last⟩
    have interval := follows.interval
    rw [last] at interval ⊢
    show _ ↔ parsePositiveLong value = some 1000
    rw [show parsePositiveLong value = some final.intervalMs from interval,
      Option.some_inj]
  · exact absurd isCount (noCount use isUse)

/-- A run of samples ends with 0 or 1, if it ends. -/
theorem takeSamples_status_ne_two
    (settings : Settings) (world : World) (rounds sample : Nat) :
    (takeSamples settings world rounds sample).status ≠ some 2 := by
  have zero : (some 0 : Option Int) ≠ some 2 := by
    decide
  have one : (some 1 : Option Int) ≠ some 2 := by
    decide
  fun_induction takeSamples settings world rounds sample with
  | case1 | case4 => exact zero
  | case2 => exact (Option.some_ne_none 2).symm
  | case3 => exact one
  | case5 _ _ _ _ _ _ _ _ _ induction => exact induction

/--
The options of a watch without `--watch` are an error, and nothing is
inspected, exactly if one of them is a count, or the last interval is not the
default, or a word is an error by itself.
-/
theorem sampling_options_need_watch
    {args : List ByteString}
    (noHelp : ∀ use ∈ scanned args, isHelp use.option = false)
    (noWatch : ∀ use ∈ scanned args, isWatch use.option = false)
    (occurs :
      ∃ use ∈ scanned args,
        use.option = literal "--interval" ∨ use.option = literal "--count")
    (world : World) (rounds : Nat) :
    (builtinPinfo world args rounds).status = some 2 ∧
        (builtinPinfo world args rounds).events.countP Event.isInspection =
          0 ↔
      (∃ use ∈ scanned args, use.option = literal "--count") ∨
        (lastValue (literal "--interval") (scanned args)).bind
            parsePositiveLong ≠ some 1000 ∨
        ¬ Acceptable false (scanned args) := by
  have start : Unwatched {} := ⟨rfl, fun _ => rfl⟩
  have unwatched := unwatched_readArguments start noWatch
  have noUsage : (readArguments {} args).2 ≠ .help :=
    not_help_readArguments noHelp
  have follows :
      (readArguments {} args).2 = .accepted →
        Follows {} (readArguments {} args).1 (scanned args) :=
    follows_readArguments
  have accepts :
      (readArguments {} args).2 = .accepted ↔
        Acceptable false (scanned args) :=
    accepted_iff noHelp
  unfold builtinPinfo
  generalize readArguments {} args = result at *
  rcases result with ⟨settings, help | message | accepted⟩
  · exact absurd rfl noUsage
  · exact iff_of_true ⟨rfl, rfl⟩
      (Or.inr (Or.inr fun acceptable => nomatch accepts.mpr acceptable))
  · have silent :=
      (follows rfl).checkSettings_eq_none_iff unwatched.watch occurs
    dsimp only
    cases checked : checkSettings settings with
    | some message =>
        refine iff_of_true ⟨rfl, rfl⟩ ?_
        by_contra quiet
        push Not at quiet
        have passes := silent.mpr ⟨quiet.1, quiet.2.1⟩
        cases checked.symm.trans passes
    | none =>
        refine iff_of_false
          (fun refused => takeSamples_status_ne_two _ _ _ _ refused.1) ?_
        rcases silent.mp checked with ⟨noCount, isDefault⟩
        rintro (⟨use, isUse, isCount⟩ | other | unacceptable)
        · exact noCount use isUse isCount
        · exact other isDefault
        · exact unacceptable (accepts.mp rfl)

/-- `pinfo --interval 1000 self --interval 500`. -/
def unwatchedInterval : List ByteString :=
  ["--interval", "1000", "self", "--interval", "500"].map literal

/-- A process that can always be inspected. -/
def sampleWorld : World where
  self := 7
  inspection _ := ⟨some { pid := 7 }, []⟩
  render _ := literal "Process 7"

theorem sampling_options_need_watch_sample :
    (builtinPinfo sampleWorld unwatchedInterval 1).status = some 2 := by
  have same :
      scanned unwatchedInterval =
        [⟨literal "--interval", some (literal "1000")⟩,
          ⟨literal "self", none⟩,
          ⟨literal "--interval", some (literal "500")⟩] := by
    decide +kernel
  have noHelp :
      (scanned unwatchedInterval).all (fun use => !isHelp use.option) =
        true := by
    decide +kernel
  have noWatch :
      (scanned unwatchedInterval).all (fun use => !isWatch use.option) =
        true := by
    decide +kernel
  have notDefault :
      (lastValue (literal "--interval") (scanned unwatchedInterval)).bind
        parsePositiveLong ≠ some 1000 := by
    decide +kernel
  refine ((sampling_options_need_watch ?_ ?_ ?_ sampleWorld 1).mpr
    (Or.inr (Or.inl notDefault))).1
  · intro use isUse
    simpa using List.all_eq_true.mp noHelp use isUse
  · intro use isUse
    simpa using List.all_eq_true.mp noWatch use isUse
  · rw [same]
    exact ⟨_, List.mem_cons_self, Or.inl rfl⟩

/-- The default interval is accepted, and a sample is taken. -/
theorem default_interval_accepted :
    scanned (["--interval", "1000"].map literal) =
        [⟨literal "--interval", some (literal "1000")⟩] ∧
      builtinPinfo sampleWorld (["--interval", "1000"].map literal) 1 =
        ⟨[.inspect 7, .write (literal "Process 7")], some 0⟩ := by
  decide +kernel

end Shell.ProcessSampling
