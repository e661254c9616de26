import Shell.Executor.ParentBuiltins

/-!
# Built-in commands in a child

The branches of `execute_pipeline` behind `fork` for the commands that need no
program.  A child starts as a copy of the shell, and what it changes in itself
is lost with it.  Apart from that a command does the same there as in the
shell.
-/

namespace Shell.ChildBuiltins

open Shell.Syntax
open Shell.DescriptorTable
open Shell.Descriptors
open Shell.JobOperations
open Shell.LaunchMachine
open Shell.BuiltinDispatch
open Shell.ParentBuiltins

variable {σ δ : Type*}

/-! ## The child -/

/-- A built-in command behind `configure_child_io`: the code for `_exit`, and
the child then. -/
def runChildBuiltin (answers : ParentAnswers δ) (command : Command)
    (child : ShellState σ δ) : Option (Int × ShellState σ δ) :=
  let name := command.args.headD []
  if isJobBuiltin name then
    if name = literal "jobs" then
      some (0, child.write (some 1) (renderJobs child.session.control))
    else
      some (1,
        child.write (some 2)
          (name ++ literal ": job control unavailable in child context\n"))
  else
    (executeBuiltin answers.surroundings answers.rounds command .childProcess
        child.process).map fun reply =>
      (if reply.result.exitRequested then reply.result.exitCode
        else reply.result.status,
        { child with process := reply.process }.deliver (some 1) (some 2)
          reply.written)

/-- The child for the only command of a pipeline, from `configure_child_io` to
`_exit`. -/
def executeChildBuiltin (answers : ParentAnswers δ) (command : Command)
    (shell : ShellState σ δ) : Option (Int × ShellState σ δ) :=
  let child := shell.touchOpened answers.opens command
  match configureChildIo answers.opens command 0 1 [] shell.table with
  | .error failure => some (1, child.write (some 2) failure.text)
  | .ok (_, table) =>
      runChildBuiltin answers command { child with table := table }

/-! ## Texts and their targets -/

/-- The opened files leave everything but the process alone. -/
theorem touchOpened_unmoved (opens : OpenAnswers) (command : Command)
    (shell : ShellState σ δ) :
    (shell.touchOpened opens command).table = shell.table ∧
      (shell.touchOpened opens command).written = shell.written := by
  have touches :
      ∀ (state : ShellState σ δ) (redirected : Bool) (file : Description σ),
        (state.touchIf redirected file).table = state.table := by
    intro state redirected file
    cases redirected with
    | true => exact touch_table state file
    | false => rfl
  unfold ShellState.touchOpened
  dsimp only
  split_ifs <;> simp [touches]

section Targets

variable {shell child : ShellState σ δ}

/-- A text to the same target does the same to two processes. -/
theorem write_process_alike
    (same : child.process = shell.process) {fd otherFd : UniqueFd}
    (target : otherFd.bind child.table.lookup = fd.bind shell.table.lookup)
    (text : ByteString) :
    (child.write otherFd text).process = (shell.write fd text).process := by
  unfold ShellState.write ShellState.setHistory
  dsimp only
  rw [target]
  split
  · rw [same]
  · exact same

/-- What is written depends on where the two descriptors lead, not on their
numbers. -/
theorem deliver_alike
    {outputFd errorFd childOutput childError : UniqueFd}
    (texts : List Written)
    (process : child.process = shell.process)
    (written : child.written = shell.written)
    (output :
      childOutput.bind child.table.lookup =
        outputFd.bind shell.table.lookup)
    (error :
      childError.bind child.table.lookup = errorFd.bind shell.table.lookup) :
    (child.deliver childOutput childError texts).process =
        (shell.deliver outputFd errorFd texts).process ∧
      (child.deliver childOutput childError texts).written =
        (shell.deliver outputFd errorFd texts).written := by
  induction texts generalizing shell child with
  | nil => exact ⟨process, written⟩
  | cons head texts induction =>
      rcases head with ⟨stream, text⟩
      have later :
          ∀ fd otherFd : UniqueFd,
            otherFd.bind child.table.lookup = fd.bind shell.table.lookup →
              ((child.write otherFd text).deliver childOutput childError
                    texts).process =
                  ((shell.write fd text).deliver outputFd errorFd
                    texts).process ∧
                ((child.write otherFd text).deliver childOutput childError
                    texts).written =
                  ((shell.write fd text).deliver outputFd errorFd
                    texts).written := by
        intro fd otherFd target
        apply induction
        · exact write_process_alike process target text
        · rw [write_written, write_written, written, target]
        · rw [write_table, write_table]
          exact output
        · rw [write_table, write_table]
          exact error
      cases stream with
      | output => exact later outputFd childOutput output
      | error => exact later errorFd childError error

end Targets

/-! ## The same command in both -/

/-- Only `pinfo` looks at processes. -/
theorem executeBuiltin_processes
    (surroundings : Surroundings δ) (rounds : Nat) {command : Command}
    (context : BuiltinContext) (process : Process δ) {name : ByteString}
    {args : List ByteString} (words : command.args = name :: args)
    {seen : ProcessSampling.World}
    (sees : name = literal "pinfo" → seen = surroundings.processes) :
    executeBuiltin { surroundings with processes := seen } rounds command
        context process =
      executeBuiltin surroundings rounds command context process := by
  by_cases isPinfo : name = literal "pinfo"
  · rw [sees isPinfo]
  · unfold executeBuiltin
    rw [words]
    dsimp only
    iterate 5 refine if_congr Iff.rfl rfl ?_
    rw [if_neg isPinfo, if_neg isPinfo]
    rfl

theorem executeChildBuiltin_processes
    (answers : ParentAnswers δ) {command : Command} (shell : ShellState σ δ)
    {name : ByteString} {args : List ByteString}
    (words : command.args = name :: args) {seen : ProcessSampling.World}
    (sees :
      name = literal "pinfo" → seen = answers.surroundings.processes) :
    executeChildBuiltin
        { answers with
          surroundings := { answers.surroundings with processes := seen } }
        command shell =
      executeChildBuiltin answers command shell := by
  simp only [executeChildBuiltin, runChildBuiltin,
    executeBuiltin_processes answers.surroundings answers.rounds
      .childProcess _ words sees]

/-- A command ends in the shell and in a child and does the same in both: it
writes the same texts to the same targets and leaves the same process behind,
and the code of the child is the status, or the code that `exit` asks for. -/
structure Alike (answers : ParentAnswers δ) (command : Command)
    (shell : ShellState σ δ) (result : ExecutionResult)
    (next : ShellState σ δ) (code : Int) (child : ShellState σ δ) :
    Prop where
  inShell : executeParentBuiltin answers command shell = some (result, next)
  inChild : executeChildBuiltin answers command shell = some (code, child)
  code :
    code = if result.exitRequested then result.exitCode else result.status
  written : child.written = next.written
  process : child.process = next.process
  table : next.table = shell.table
  session : next.session = shell.session

section Comparison

variable {answers : ParentAnswers δ} {command : Command}
  {shell : ShellState σ δ}

theorem alike_of_failsAlike
    {base : Table σ} (inherited : shell.table = base.map .inherited)
    (fails : FailsAlike answers command shell) :
    ∃ result next code child,
      Alike answers command shell result next code child := by
  rcases fails with ⟨failure, next, failed, executed, gaveUp⟩
  rcases touchOpened_unmoved answers.opens command shell with
    ⟨sameTable, sameWritten⟩
  refine ⟨{ status := 1 }, next, 1,
    (shell.touchOpened answers.opens command).write (some 2) failure.text,
    executed, ?_, rfl, ?_, ?_, gaveUp.table, gaveUp.unmoved.session⟩
  · simp only [executeChildBuiltin, failed]
  · rw [write_written, gaveUp.written, sameWritten, sameTable]
    rfl
  · rw [gaveUp.process]
    exact write_process (sameTable.trans inherited) _ _

variable {name : ByteString} {args : List ByteString} {reply : Reply δ}

theorem runParentBuiltin_of_reply
    (words : command.args = name :: args)
    (noJob : isJobBuiltin name = false)
    (replied :
      executeBuiltin answers.surroundings answers.rounds command .parentShell
        shell.process = some reply)
    (outputFd errorFd : UniqueFd) :
    runParentBuiltin answers command outputFd errorFd shell =
      some (⟨reply.result.exitRequested, reply.result.exitCode,
          reply.result.status⟩,
        { shell with process := reply.process }.deliver outputFd errorFd
          reply.written) := by
  simp only [runParentBuiltin, words, List.headD_cons, noJob,
    Bool.false_eq_true, if_false, replied, Option.map_some]

theorem runChildBuiltin_of_reply
    (words : command.args = name :: args)
    (noJob : isJobBuiltin name = false)
    (replied :
      executeBuiltin answers.surroundings answers.rounds command
        .childProcess shell.process = some reply) :
    runChildBuiltin answers command shell =
      some (if reply.result.exitRequested then reply.result.exitCode
          else reply.result.status,
        { shell with process := reply.process }.deliver (some 1) (some 2)
          reply.written) := by
  simp only [runChildBuiltin, words, List.headD_cons, noJob,
    Bool.false_eq_true, if_false, replied, Option.map_some]

theorem alike_of_runsAlike
    (words : command.args = name :: args)
    (noJob : isJobBuiltin name = false)
    (unconfined : name ∉ ProcessSampling.confiningNames)
    (replies :
      ∀ process, ∃ reply,
        executeBuiltin answers.surroundings answers.rounds command
          .parentShell process = some reply)
    (runs : RunsAlike answers command shell) :
    ∃ result next code child,
      Alike answers command shell result next code child := by
  rcases runs with
    ⟨closed, childTable, outputFd, errorFd, ready, configured, -, prepared,
      executed⟩
  rcases replies ready.process with ⟨reply, replied⟩
  -- The shell and the child behind the command, but for its texts.
  let ran : ShellState σ δ := { ready with process := reply.process }
  let child : ShellState σ δ :=
    { shell.touchOpened answers.opens command with
      table := childTable
      process := reply.process }
  have inChild :
      executeBuiltin answers.surroundings answers.rounds command
          .childProcess (shell.touchOpened answers.opens command).process =
        some reply := by
    rw [← prepared.process, ← executeBuiltin_context answers.surroundings
      answers.rounds ready.process words unconfined .parentShell]
    exact replied
  have kept :
      Unmoved (fun _ => True) ran
        (ran.deliver (some outputFd) (some errorFd) reply.written) :=
    deliver_unmoved ran (fun _ _ _ _ _ => trivial) _
  have sameWritten : child.written = ran.written :=
    (touchOpened_unmoved answers.opens command shell).2.trans
      prepared.written.symm
  have sameOutput :
      (some 1 : UniqueFd).bind child.table.lookup =
        (some outputFd : UniqueFd).bind ran.table.lookup :=
    prepared.output.symm
  have sameError :
      (some 2 : UniqueFd).bind child.table.lookup =
        (some errorFd : UniqueFd).bind ran.table.lookup :=
    prepared.error.symm
  have sameProcess : child.process = ran.process := rfl
  rcases deliver_alike reply.written sameProcess sameWritten sameOutput
      sameError with
    ⟨process, written⟩
  rw [runParentBuiltin_of_reply words noJob replied] at executed
  refine ⟨_, _, _, child.deliver (some 1) (some 2) reply.written, executed,
    ?_, rfl, written, process, rfl,
    kept.session.trans prepared.unmoved.session⟩
  simp only [executeChildBuiltin, configured]
  exact runChildBuiltin_of_reply words noJob inChild

end Comparison

/--
A built-in command other than `jobs`, `fg` and `bg` that the shell runs itself
is known to `execute_builtin`, ends, and would do the same in a child: the same
texts go to the same targets, the same directory, history and files are left
behind, and the child would exit with the status that the shell goes on with,
or with the code that `exit` asks for.  This includes the commands whose
redirections fail.  The shell has its three standard descriptors open, and
keeps its descriptors and jobs.  What `/proc` answers may differ between the
two unless the command is `pinfo`, which asks about its own process if it gets
no PID.
-/
theorem builtin_same_in_child
    {base : Table σ} {shell : ShellState σ δ}
    (inherited : shell.table = base.map .inherited)
    (standard : ∀ fd, fd < 3 → base.lookup fd ≠ none)
    {pipeline : Pipeline} {command : Command} {name : ByteString}
    {args : List ByteString} (single : pipeline.commands = [command])
    (words : command.args = name :: args)
    (inParent : runsInParent pipeline = true)
    (noJob : isJobBuiltin name = false)
    {answers : ParentAnswers δ} (samples : 0 < answers.rounds)
    {seen : ProcessSampling.World}
    (sees :
      name = literal "pinfo" → seen = answers.surroundings.processes) :
    childAction command = .builtin ∧
      (∀ surroundings rounds context (process : Process δ) reply,
        executeBuiltin surroundings rounds command context process =
            some reply →
          reply.result.handled = true) ∧
      ∃ result next code child,
        executeParentBuiltin answers command shell = some (result, next) ∧
          executeChildBuiltin
              { answers with
                surroundings :=
                  { answers.surroundings with processes := seen } }
              command shell = some (code, child) ∧
          code =
            (if result.exitRequested then result.exitCode
              else result.status) ∧
          child.written = next.written ∧ child.process = next.process ∧
          next.table = shell.table ∧ next.session = shell.session := by
  have known : isBuiltin name = true := by
    rw [runsInParent, single] at inParent
    simp only [words, Bool.and_eq_true] at inParent
    exact inParent.1.2
  rcases ProcessSampling.runsInParent_cases inParent with
    ⟨found, _, _, isFound, foundWords, inShell⟩
  cases List.singleton_inj.mp (single.symm.trans isFound)
  rcases ProcessSampling.requiresChild_cases words inShell with
    ⟨unconfined, -⟩
  rcases childAction_cases words with ⟨-, builtins, -⟩
  have dispatched : Dispatched name := ⟨known, noJob⟩
  refine ⟨builtins.mpr ⟨dispatched, unconfined⟩, ?_, ?_⟩
  · intro surroundings rounds context process reply replied
    exact (executeBuiltin_replied words replied).handled.mpr dispatched
  have replies :
      ∀ process, ∃ reply,
        executeBuiltin answers.surroundings answers.rounds command
          .parentShell process = some reply := by
    intro process
    rw [← Nat.sub_add_cancel samples]
    exact executeBuiltin_returns answers.surroundings _ .parentShell process
      words inShell
  have alike :
      ∃ result next code child,
        Alike answers command shell result next code child := by
    rcases executeParentBuiltin_cases inherited standard answers
        command with
      fails | runs
    · exact alike_of_failsAlike inherited fails
    · exact alike_of_runsAlike words noJob unconfined replies runs
  rcases alike with ⟨result, next, code, child, same⟩
  rw [executeChildBuiltin_processes answers shell words sees]
  exact ⟨result, next, code, child, same.inShell, same.inChild, same.code,
    same.written, same.process, same.table, same.session⟩

theorem builtin_same_in_child_sample :
    ∃ result code,
      ∃ next child : ShellState ℕ ByteString,
        executeParentBuiltin sampleAnswers sampleRedirected sampleState =
            some (result, next) ∧
          executeChildBuiltin sampleAnswers sampleRedirected sampleState =
            some (code, child) ∧
          code = 0 ∧
          child.written =
            [(some (.file (literal "out") .truncate), literal "/\n")] ∧
          child.process = next.process := by
  have standard : ∀ fd, fd < 3 → sampleShell.lookup fd ≠ none := by
    intro fd below
    simp [sampleShell, below]
  have inherited : sampleState.table = sampleShell.map .inherited := rfl
  have single :
      ({ commands := [sampleRedirected] } : Pipeline).commands =
        [sampleRedirected] :=
    rfl
  have words : sampleRedirected.args = literal "pwd" :: [] := rfl
  have returned :
      (executeParentBuiltin sampleAnswers sampleRedirected sampleState).map
          Prod.fst = some {} := by
    decide +kernel
  have wrote :
      (executeParentBuiltin sampleAnswers sampleRedirected sampleState).map
          (fun done => done.2.written) =
        some
          [(some (.file (literal "out") .truncate), literal "/\n")] := by
    decide +kernel
  rcases builtin_same_in_child inherited standard single words
      (by decide +kernel) (by decide +kernel) (by decide)
      (fun _ => rfl : literal "pwd" = literal "pinfo" →
        sampleAnswers.surroundings.processes =
          sampleAnswers.surroundings.processes) with
    ⟨-, -, result, next, code, child, inShell, inChild, isCode, written,
      process, -, -⟩
  rw [inShell] at returned wrote
  cases Option.some.inj returned
  exact ⟨_, code, next, child, inShell, inChild, isCode,
    written.trans (Option.some.inj wrote), process⟩

end Shell.ChildBuiltins
