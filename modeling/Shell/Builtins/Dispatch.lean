import Shell.Builtins.Echo
import Shell.Builtins.ProcessSampling
import Shell.History.Persistence
import Shell.Resource.Execution

/-!
# The built-in commands

`execute_builtin` and the commands of `builtins.cpp` that it calls.  A command
reads its surroundings, writes texts to an output and an error descriptor, and
may change two things of the process that runs it: the working directory and
the history.  `run`, `sandbox` and `trace` return a status only in a child;
what they do there is modelled elsewhere and given here.

The names of the built-in commands stand in two other places, in
`builtin_commands` and in the tests of the executor.  The last section says
that the three agree.
-/

namespace Shell.BuiltinDispatch

open Shell.Syntax
open Shell.JobOperations (decimal)
open Shell.LaunchMachine
open Shell.ShellHistory
open Shell.HistoryPersistence
open Shell.ResourceExecution

/-! ## Results and texts -/

/-- `BuiltinContext`. -/
inductive BuiltinContext where
  | parentShell
  | childProcess
deriving DecidableEq, Repr

/-- `BuiltinResult`. -/
structure BuiltinResult where
  handled : Bool := false
  exitRequested : Bool := false
  exitCode : Int := 0
  status : Int := 0
deriving DecidableEq, Repr

/-- The two descriptors that a command is given. -/
inductive Stream where
  | output
  | error
deriving DecidableEq, Repr

/-- A text, and which of the descriptors it was written to. -/
structure Written where
  stream : Stream
  text : ByteString
deriving DecidableEq, Repr

/-- What the commands change in the process. -/
structure Process (δ : Type*) where
  directory : δ
  history : History

/-- What the commands find around them. -/
structure Surroundings (δ : Type*) where
  home : Option ByteString
  search : PathSearch.Environment
  /-- Whether a path names a directory, if `stat` succeeds. -/
  stat : ByteString → Option Bool
  /-- `access` with `X_OK` succeeds. -/
  searchable : ByteString → Bool
  /-- The directory that `chdir` enters, if it succeeds. -/
  chdir : ByteString → Option δ
  /-- The files, as their names lead to them from a directory. -/
  seenFrom : δ → Disk → Disk
  /-- The absolute path of a directory, if it has one. -/
  pathOf : δ → Option ByteString
  processes : ProcessSampling.World
  /-- The answers of `getrlimit` and `getpriority`, if they succeed. -/
  limits : Resource → Option Rlimit
  priority : Option Int
  /-- The statuses of the commands that only a child runs, and their texts. -/
  resourceRun : Command → Int × List Written
  sandbox : Command → Int × List Written
  trace : Command → Int × List Written

/-- How a command ends. -/
structure Reply (δ : Type*) where
  result : BuiltinResult
  written : List Written
  process : Process δ

variable {δ : Type*}

/-- `result` with a status. -/
def Process.reply (process : Process δ) (status : Int)
    (written : List Written) : Reply δ where
  result := { handled := true, status := status }
  written := written
  process := process

/-! ## The commands -/

/-- `builtin_type`. -/
def builtinType (surroundings : Surroundings δ) (command : Command)
    (process : Process δ) : Reply δ :=
  match command.args with
  | _ :: target :: _ =>
      let path := PathSearch.findExecutable surroundings.search target
      if isBuiltin target then
        process.reply 0 [⟨.output, target ++ literal " is a shell builtin\n"⟩]
      else if path ≠ [] then
        process.reply 0
          [⟨.output, target ++ literal " is " ++ path ++ literal "\n"⟩]
      else
        process.reply 1 [⟨.output, target ++ literal ": not found\n"⟩]
  | _ => process.reply 2 [⟨.output, literal "type: missing argument\n"⟩]

/-- `PATH_MAX` on Linux. -/
def pathMax : Nat := 4096

/-- `getcwd`, with a buffer that also holds a NUL byte. -/
def getcwd (surroundings : Surroundings δ) (process : Process δ) :
    Option ByteString :=
  (surroundings.pathOf process.directory).filter fun path =>
    path.length < pathMax

/-- `builtin_pwd`. -/
def builtinPwd (surroundings : Surroundings δ) (process : Process δ) :
    Reply δ :=
  match getcwd surroundings process with
  | none =>
      process.reply 1
        [⟨.error, literal "pwd: error getting current directory\n"⟩]
  | some path => process.reply 0 [⟨.output, path ++ literal "\n"⟩]

/-- The message of `cd` and of `expand_home` without a home. -/
def noHome : Written :=
  ⟨.error, literal "cd: HOME environment variable not set\n"⟩

/-- The home directory stands for the tilde at the front of a path. -/
def isHomePath (path : ByteString) : Bool :=
  path = literal "~" || (literal "~/").isPrefixOf path

/-- `expand_home`; no result is a home that is not set. -/
def expandHome (home : Option ByteString) (path : ByteString) :
    Option ByteString :=
  if isHomePath path then
    home.map fun home =>
      if path = literal "~" then home else home ++ path.drop 1
  else
    some path

/-- The error messages of `cd` about a path. -/
def cdMessage (requested : ByteString) (reason : String) : List Written :=
  [⟨.error,
    literal "cd: " ++ requested ++ literal ": " ++ literal reason ++
      literal "\n"⟩]

/-- The directory that `cd` is asked for. -/
def cdRequest (surroundings : Surroundings δ) (command : Command) :
    Option ByteString :=
  match command.args with
  | _ :: requested :: _ => some requested
  | _ => surroundings.home

/-- A successful `chdir`. -/
def Process.enter (surroundings : Surroundings δ) (process : Process δ)
    (directory : δ) : Process δ where
  directory := directory
  history :=
    { process.history with
      disk := surroundings.seenFrom directory process.history.disk }

/-- `builtin_cd`. -/
def builtinCd (surroundings : Surroundings δ) (command : Command)
    (process : Process δ) : Reply δ :=
  match cdRequest surroundings command with
  | none => process.reply 1 [noHome]
  | some requested =>
      match expandHome surroundings.home requested with
      | none => process.reply 1 [noHome]
      | some resolved =>
          match surroundings.stat resolved with
          | none =>
              process.reply 1
                (cdMessage requested "No such file or directory")
          | some false =>
              process.reply 1 (cdMessage requested "Not a directory")
          | some true =>
              if surroundings.searchable resolved then
                match surroundings.chdir resolved with
                | none =>
                    process.reply 1
                      (cdMessage requested "Failed to change directory")
                | some directory =>
                    (process.enter surroundings directory).reply 0 []
              else
                process.reply 1 (cdMessage requested "Permission denied")

/-- `builtin_exit`; the context makes no difference. -/
def builtinExit (command : Command) (process : Process δ) : Reply δ :=
  let exits (code : Int) (written : List Written) : Reply δ :=
    ⟨{ handled := true, exitRequested := true, exitCode := code }, written,
      process⟩
  match command.args with
  | _ :: code :: _ =>
      match stoi code with
      | some code => exits code []
      | none =>
          exits 2 [⟨.error, literal "exit: numeric argument required\n"⟩]
  | _ => exits 0 []

/-- `limit_value`. -/
def limitValue (value : Nat) : ByteString :=
  if value = rlimInfinity then literal "unlimited" else decimal value

/-- `format_limit_line`. -/
def formatLimitLine (limits : Resource → Option Rlimit) (name : String)
    (resource : Resource) (unit : String) : ByteString :=
  match limits resource with
  | none => literal name ++ literal ": unavailable\n"
  | some limit =>
      literal name ++ literal ": soft=" ++ limitValue limit.soft ++
        literal " hard=" ++ limitValue limit.hard ++ literal " " ++
        literal unit ++ literal "\n"

/-- `render_current_limits`. -/
def renderCurrentLimits (surroundings : Surroundings δ) : ByteString :=
  let line := formatLimitLine surroundings.limits
  literal "Current process resource limits\n" ++
    line "address-space" .addressSpace "bytes" ++
    line "open-files" .nofile "fds" ++
    line "cpu-time" .cpu "seconds" ++
    line "processes" .nproc "processes" ++
    line "core-size" .core "bytes" ++
    match surroundings.priority with
    | none => literal "nice: unavailable\n"
    | some priority => literal "nice: " ++ decimal priority ++ literal "\n"

/-- The texts among the events of `pinfo`. -/
def eventText : ProcessSampling.Event → Option Written
  | .write text => some ⟨.output, text⟩
  | .report text => some ⟨.error, text⟩
  | _ => none

/-- What `execute_builtin` answers in the shell to a command for a child. -/
def childOnly (context : BuiltinContext) (process : Process δ)
    (name reason : String) (inChild : Int × List Written) : Reply δ :=
  match context with
  | .parentShell =>
      process.reply 1
        [⟨.error,
          literal name ++ literal ": internal error: " ++ literal reason ++
            literal " must execute in child context\n"⟩]
  | .childProcess => process.reply inChild.1 inChild.2

/-- `execute_builtin`; there is no reply while `pinfo` is still sampling behind
the given number of rounds. -/
def executeBuiltin (surroundings : Surroundings δ) (rounds : Nat)
    (command : Command) (context : BuiltinContext) (process : Process δ) :
    Option (Reply δ) :=
  match command.args with
  | [] => some ⟨{}, [], process⟩
  | name :: args =>
      if name = literal "echo" then
        some (process.reply 0 [⟨.output, Echo.builtinEcho command⟩])
      else if name = literal "type" then
        some (builtinType surroundings command process)
      else if name = literal "pwd" then
        some (builtinPwd surroundings process)
      else if name = literal "cd" then
        some (builtinCd surroundings command process)
      else if name = literal "history" then
        let done := builtinHistory process.history command
        -- `write_all` of an empty text writes nothing.
        some
          ({ process with history := done.1 }.reply 0 [⟨.output, done.2⟩])
      else if name = literal "pinfo" then
        let sampling :=
          ProcessSampling.builtinPinfo surroundings.processes args rounds
        sampling.status.map fun status =>
          process.reply status (sampling.events.filterMap eventText)
      else if name = literal "limits" then
        some (process.reply 0 [⟨.output, renderCurrentLimits surroundings⟩])
      else if name = literal "run" then
        some
          (childOnly context process "run" "resource command"
            (surroundings.resourceRun command))
      else if name = literal "sandbox" then
        some
          (childOnly context process "sandbox" "isolation command"
            (surroundings.sandbox command))
      else if name = literal "trace" then
        some
          (childOnly context process "trace" "tracer"
            (surroundings.trace command))
      else if name = literal "exit" then
        some (builtinExit command process)
      else
        some ⟨{}, [], process⟩

/-! ## Everything a command can do -/

/-- The operation on a file that the arguments of `history` ask for. -/
def fileOperations (command : Command) : List Operation :=
  match command.args with
  | _ :: option :: filename :: _ =>
      if option = literal "-r" then [.load filename]
      else if option = literal "-w" then [.write filename]
      else if option = literal "-a" then [.append filename]
      else []
  | _ => []

/-- What a command leaves behind: the process as it was, another directory, or
the history behind an operation on a file. -/
inductive Leaves (surroundings : Surroundings δ) (command : Command)
    (process : Process δ) : ByteString → Process δ → Prop where
  | same (name : ByteString) : Leaves surroundings command process name process
  | moved {resolved : ByteString} {directory : δ}
      (entered : surroundings.chdir resolved = some directory) :
      Leaves surroundings command process (literal "cd")
        (process.enter surroundings directory)
  | recorded :
      Leaves surroundings command process (literal "history")
        { process with
          history := performAll process.history (fileOperations command) }

/-- The names that `execute_builtin` knows. -/
def Dispatched (name : ByteString) : Prop :=
  isBuiltin name = true ∧ isJobBuiltin name = false

instance (name : ByteString) : Decidable (Dispatched name) :=
  inferInstanceAs (Decidable (_ ∧ _))

/-- Everything a reply to a command with a name can be. -/
structure Replied (surroundings : Surroundings δ) (command : Command)
    (process : Process δ) (name : ByteString) (reply : Reply δ) :
    Prop where
  leaves : Leaves surroundings command process name reply.process
  handled : reply.result.handled = true ↔ Dispatched name
  exits : reply.result.exitRequested = true ↔ name = literal "exit"

section Replies

variable {surroundings : Surroundings δ} {process next : Process δ}
  {name : ByteString} {command : Command}

theorem replied_reply
    (dispatched : Dispatched name) (stays : name ≠ literal "exit")
    (leaves : Leaves surroundings command process name next) (status : Int)
    (written : List Written) :
    Replied surroundings command process name (next.reply status written) where
  leaves := leaves
  handled := ⟨fun _ => dispatched, fun _ => rfl⟩
  exits := ⟨nofun, fun isExit => absurd isExit stays⟩

theorem builtinType_replied (surroundings : Surroundings δ)
    (command : Command) (process : Process δ) :
    Replied surroundings command process (literal "type")
      (builtinType surroundings command process) := by
  have same :
      Leaves surroundings command process (literal "type") process :=
    .same _
  have replies := replied_reply (by decide +kernel) (by decide) same
  unfold builtinType
  split
  · dsimp only
    split_ifs <;> exact replies _ _
  · exact replies _ _

theorem builtinPwd_replied (surroundings : Surroundings δ)
    (command : Command) (process : Process δ) :
    Replied surroundings command process (literal "pwd")
      (builtinPwd surroundings process) := by
  have same :
      Leaves surroundings command process (literal "pwd") process :=
    .same _
  have replies := replied_reply (by decide +kernel) (by decide) same
  unfold builtinPwd
  split <;> exact replies _ _

theorem builtinCd_replied (surroundings : Surroundings δ)
    (command : Command) (process : Process δ) :
    Replied surroundings command process (literal "cd")
      (builtinCd surroundings command process) := by
  have replies :
      ∀ next, Leaves surroundings command process (literal "cd") next →
        ∀ status written,
          Replied surroundings command process (literal "cd")
            (next.reply status written) :=
    fun next => replied_reply (by decide +kernel) (by decide)
  have fails := replies process (.same _)
  unfold builtinCd
  split
  · exact fails _ _
  · split
    · exact fails _ _
    · split
      · exact fails _ _
      · exact fails _ _
      · split
        · split
          · exact fails _ _
          · exact replies _ (.moved ‹_›) _ _
        · exact fails _ _

/-- `history` performs an operation on a file, or lists the entries. -/
theorem builtinHistory_operations (history : History) (command : Command) :
    (builtinHistory history command).1 =
      performAll history (fileOperations command) := by
  unfold builtinHistory fileOperations
  generalize command.args = args
  rcases args with _ | ⟨name, _ | ⟨option, _ | ⟨filename, rest⟩⟩⟩
  · rfl
  · rfl
  · rfl
  · dsimp only
    split_ifs <;> rfl

theorem childOnly_replied (surroundings : Surroundings δ)
    (command : Command) (dispatched : Dispatched name)
    (stays : name ≠ literal "exit")
    (context : BuiltinContext) (process : Process δ) (label reason : String)
    (inChild : Int × List Written) :
    Replied surroundings command process name
      (childOnly context process label reason inChild) := by
  have same : Leaves surroundings command process name process := .same _
  cases context with
  | parentShell => exact replied_reply dispatched stays same _ _
  | childProcess => exact replied_reply dispatched stays same _ _

theorem builtinExit_replied {surroundings : Surroundings δ}
    (command : Command) (process : Process δ) :
    Replied surroundings command process (literal "exit")
      (builtinExit command process) := by
  have dispatched : Dispatched (literal "exit") := by decide +kernel
  unfold builtinExit
  split
  · split <;> exact ⟨.same _, ⟨fun _ => dispatched, fun _ => rfl⟩,
      fun _ => rfl, fun _ => rfl⟩
  · exact ⟨.same _, ⟨fun _ => dispatched, fun _ => rfl⟩, fun _ => rfl,
      fun _ => rfl⟩

/-- The names that `execute_builtin` compares with, in its order. -/
def comparedNames : List ByteString :=
  ["echo", "type", "pwd", "cd", "history", "pinfo", "limits", "run",
    "sandbox", "trace", "exit"].map literal

theorem mem_comparedNames (dispatched : Dispatched name) :
    name ∈ comparedNames := by
  have covered :
      ∀ known ∈ builtinCommands,
        isJobBuiltin known = true ∨ known ∈ comparedNames := by
    decide +kernel
  rcases dispatched with ⟨isName, noJob⟩
  apply (covered name (List.contains_iff_mem.mp isName)).resolve_left
  rw [noJob]
  exact Bool.false_ne_true

/-- One comparison of `execute_builtin`. -/
theorem replied_ite
    {known : ByteString} {found rest : Option (Reply δ)} {reply : Reply δ}
    (here :
      found = some reply → Replied surroundings command process known reply)
    (later :
      name ≠ known → rest = some reply →
        Replied surroundings command process name reply) :
    (if name = known then found else rest) = some reply →
      Replied surroundings command process name reply := by
  intro replied
  by_cases isKnown : name = known
  · rw [if_pos isKnown] at replied
    exact isKnown ▸ here replied
  · rw [if_neg isKnown] at replied
    exact later isKnown replied

/-- The cases of `execute_builtin`. -/
theorem executeBuiltin_replied
    {rounds : Nat} {context : BuiltinContext} {args : List ByteString}
    {reply : Reply δ} (words : command.args = name :: args)
    (replied :
      executeBuiltin surroundings rounds command context process =
        some reply) :
    Replied surroundings command process name reply := by
  unfold executeBuiltin at replied
  rw [words] at replied
  revert replied
  refine replied_ite ?_ fun notEcho => ?_
  · rintro ⟨⟩
    exact replied_reply (by decide +kernel) (by decide) (.same _) _ _
  refine replied_ite ?_ fun notType => ?_
  · rintro ⟨⟩
    exact builtinType_replied surroundings command process
  refine replied_ite ?_ fun notPwd => ?_
  · rintro ⟨⟩
    exact builtinPwd_replied surroundings command process
  refine replied_ite ?_ fun notCd => ?_
  · rintro ⟨⟩
    exact builtinCd_replied surroundings command process
  refine replied_ite ?_ fun notHistory => ?_
  · rintro ⟨⟩
    rw [builtinHistory_operations]
    exact replied_reply (by decide +kernel) (by decide) .recorded _ _
  refine replied_ite ?_ fun notPinfo => ?_
  · intro sampled
    rcases Option.map_eq_some_iff.mp sampled with ⟨status, -, rfl⟩
    exact replied_reply (by decide +kernel) (by decide) (.same _) _ _
  refine replied_ite ?_ fun notLimits => ?_
  · rintro ⟨⟩
    exact replied_reply (by decide +kernel) (by decide) (.same _) _ _
  refine replied_ite ?_ fun notRun => ?_
  · rintro ⟨⟩
    exact childOnly_replied surroundings command (by decide +kernel)
      (by decide) context process _ _ _
  refine replied_ite ?_ fun notSandbox => ?_
  · rintro ⟨⟩
    exact childOnly_replied surroundings command (by decide +kernel)
      (by decide) context process _ _ _
  refine replied_ite ?_ fun notTrace => ?_
  · rintro ⟨⟩
    exact childOnly_replied surroundings command (by decide +kernel)
      (by decide) context process _ _ _
  refine replied_ite ?_ fun notExit => ?_
  · rintro ⟨⟩
    exact builtinExit_replied command process
  rintro ⟨⟩
  have unknown : name ∉ comparedNames := by
    simp only [comparedNames, List.map_cons, List.map_nil, List.mem_cons,
      List.not_mem_nil, or_false, not_or]
    exact ⟨notEcho, notType, notPwd, notCd, notHistory, notPinfo, notLimits,
      notRun, notSandbox, notTrace, notExit⟩
  exact ⟨.same _,
    ⟨nofun, fun known => absurd (mem_comparedNames known) unknown⟩,
    nofun, fun isName => absurd isName notExit⟩

end Replies

/-! ## The shell and its children -/

/-- Only the commands for a child look at the context. -/
theorem executeBuiltin_context
    (surroundings : Surroundings δ) (rounds : Nat) {command : Command}
    (process : Process δ) {name : ByteString} {args : List ByteString}
    (words : command.args = name :: args)
    (unconfined : name ∉ ProcessSampling.confiningNames)
    (context : BuiltinContext) :
    executeBuiltin surroundings rounds command context process =
      executeBuiltin surroundings rounds command .childProcess process := by
  have others : name ≠ literal "run" ∧ name ≠ literal "sandbox" ∧
      name ≠ literal "trace" := by
    simpa only [ProcessSampling.confiningNames, List.mem_cons,
      List.not_mem_nil, or_false, not_or] using unconfined
  unfold executeBuiltin
  rw [words]
  dsimp only
  iterate 7 refine if_congr Iff.rfl rfl ?_
  rw [if_neg others.1, if_neg others.2.1, if_neg others.2.2,
    if_neg others.1, if_neg others.2.1, if_neg others.2.2]

/-- Without a watch there is a reply. -/
theorem executeBuiltin_returns
    (surroundings : Surroundings δ) (rounds : Nat) {command : Command}
    (context : BuiltinContext) (process : Process δ) {name : ByteString}
    {args : List ByteString} (words : command.args = name :: args)
    (inShell : requiresChildBuiltinExecution command = false) :
    ∃ reply,
      executeBuiltin surroundings (rounds + 1) command context process =
        some reply := by
  unfold executeBuiltin
  rw [words]
  dsimp only
  by_cases isPinfo : name = literal "pinfo"
  · have noWatch :=
      (ProcessSampling.requiresChild_cases words inShell).2 isPinfo
    rcases (ProcessSampling.brief_builtinPinfo
      (fun use isUse => noWatch use.option (ProcessSampling.option_mem isUse))
      surroundings.processes rounds).ends with ⟨status, ended⟩
    rw [ended, isPinfo]
    exact ⟨_, rfl⟩
  · rw [if_neg isPinfo]
    iterate 10
      refine (Decidable.em _).elim (fun same => ⟨_, if_pos same⟩)
        fun other => ?_
      rw [if_neg other]
    exact ⟨_, rfl⟩

/-- What a child runs with `execute_builtin`, and what it executes. -/
theorem childAction_cases
    {command : Command} {name : ByteString} {args : List ByteString}
    (words : command.args = name :: args) :
    (childAction command = .jobBuiltin ↔ isJobBuiltin name = true) ∧
      (childAction command = .builtin ↔
        Dispatched name ∧ name ∉ ProcessSampling.confiningNames) ∧
      (childAction command = .external ↔ isBuiltin name = false) := by
  have jobsKnown :
      ∀ known ∈ [literal "jobs", literal "fg", literal "bg"],
        isBuiltin known = true := by
    decide +kernel
  have confiningKnown :
      ∀ known ∈ ProcessSampling.confiningNames, isBuiltin known = true := by
    decide +kernel
  have confining :
      name ∈ ProcessSampling.confiningNames ↔
        name = literal "run" ∨ name = literal "sandbox" ∨
          name = literal "trace" := by
    simp only [ProcessSampling.confiningNames, List.mem_cons,
      List.not_mem_nil, or_false]
  rw [childAction, words, List.headD_cons]
  cases isJob : isJobBuiltin name with
  | true =>
      have known := jobsKnown name (List.contains_iff_mem.mp isJob)
      simp [Dispatched, isJob, known]
  | false =>
      rw [if_neg Bool.false_ne_true]
      by_cases isConfining : name ∈ ProcessSampling.confiningNames
      · have known := confiningKnown name isConfining
        rcases confining.mp isConfining with rfl | rfl | rfl <;>
          decide +kernel
      · rcases not_or.mp (mt confining.mpr isConfining) with
          ⟨notRun, others⟩
        rcases not_or.mp others with ⟨notSandbox, notTrace⟩
        rw [if_neg notRun, if_neg notSandbox, if_neg notTrace]
        cases known : isBuiltin name with
        | true => simp [Dispatched, isJob, known, isConfining]
        | false => simp [Dispatched, known]

/-- Directories that are given by their paths, and two of them. -/
def sampleSurroundings : Surroundings ByteString where
  home := some (literal "/home")
  search := ⟨some (literal "/bin"), fun path => path = literal "/bin/ls"⟩
  stat path := if path = literal "/bin/ls" then some false else some true
  searchable _ := true
  chdir path := some path
  seenFrom _ disk := disk
  pathOf directory := some directory
  processes := ProcessSampling.sampleWorld
  limits _ := some ⟨1024, rlimInfinity⟩
  priority := some 0
  resourceRun _ := (0, [])
  sandbox _ := (0, [])
  trace _ := (0, [])

def sampleProcess : Process ByteString where
  directory := literal "/"
  history := { disk := sampleDisk }

end Shell.BuiltinDispatch
