import Shell.Executor.Pipelines
import Shell.JobControl.Resumption
import Shell.Main.Completion

/-!
# The main loop

`main` with the handler of SIGINT and the event hook of readline, as a system:
the events are the answers of the kernel and of readline, and the signals that
arrive.  A signal can arrive before every step.  The shell reads the flag of
the handler and resets it in two steps, between which a signal has no effect.

The loop adds no other calls of job control to those of the executor, and it
hands every pipeline the descriptors that the shell was started with.  So what
has been proved about job control and about a launch holds in every run of the
shell.
-/

namespace Shell.MainLoop

open Shell.Syntax
open Shell.CommandParser
open Shell.DescriptorTable
open Shell.Descriptors
open Shell.JobTable
open Shell.JobOperations
open Shell.TableInvariant
open Shell.LaunchMachine
open Shell.TransitionSystem
open Shell.ShellHistory
open Shell.BuiltinDispatch
open Shell.ParentBuiltins
open Shell.Pipelines
open Shell.TabCompletion

/-! ## States and events -/

/-- Where `main` is. -/
inductive Phase where
  | top
  /-- In `readline`.  Only readline looks at the `rl_done` and the empty line
  that the event hook sets after an interrupt, and it may return any line. -/
  | reading
  /-- Behind `readline`, with the line that it has returned. -/
  | entered (input : ByteString)
  /-- Before `prompt_interrupted` is read. -/
  | settled (input : ByteString)
  /-- Between the read of `prompt_interrupted` and its reset. -/
  | tested (input : ByteString) (interrupted : Bool)
  | cleared (input : ByteString) (interrupted : Bool)
  | executing (plan : ExecutionPlan)
  | finished (code : Int)
deriving DecidableEq, Repr

def Phase.running : Phase → Bool
  | .finished _ => false
  | _ => true

/-- The variables of `main.cpp`, and the executor with everything around it. -/
structure MainState (σ δ : Type) where
  phase : Phase
  promptInterrupted : Bool
  memory : Memory
  shell : ShellState σ δ

inductive Event (δ : Type) where
  /-- SIGINT arrives. -/
  | sigint
  /-- Other processes change files. -/
  | files (change : Disk → Disk)
  /-- The answers to `reap_background_jobs(true)`. -/
  | reap (answers : ReapAnswers)
  /-- Readline asks for completions of a text that starts at a column. -/
  | tab (environment : PathSearch.Environment) (listing : Listing)
      (text : ByteString) (start : Nat)
  /-- Readline calls the event hook. -/
  | hook (answers : ReapAnswers)
  /-- `readline` returns a line, or finds the end of the input. -/
  | line (input : Option ByteString)
  | test
  | clear
  | handle
  | execute (script : List (PipelineAnswers δ))

variable {σ δ : Type}

/-! ## The steps -/

/-- `handle_prompt_sigint`. -/
def MainState.interrupt (state : MainState σ δ) : MainState σ δ :=
  { state with
    promptInterrupted := true
    shell := state.shell.write (some 1) (literal "\n") }

/-- `Executor::reap_background_jobs`. -/
def reapJobs (answers : ReapAnswers) (notify : Bool)
    (shell : ShellState σ δ) : Option (ShellState σ δ) :=
  (reapBackground answers notify shell.session).map fun session =>
    { shell with session := session }

/-- `save_session`, and the return of `main`. -/
def MainState.leave (state : MainState σ δ) (code : Int) :
    MainState σ δ :=
  { state with
    phase := .finished code
    shell := state.shell.setHistory state.shell.process.history.saveSession }

/-- What `main` does with a line up to `execute`. -/
def handleLine (input : ByteString) (interrupted : Bool)
    (shell : ShellState σ δ) : Option (Phase × ShellState σ δ) :=
  if interrupted || input.isEmpty then
    some (.top, shell)
  else
    let shell := shell.setHistory (shell.process.history.addHistory input)
    (parseLine input).map fun parsed =>
      if parsed.ok then
        if parsed.plan.steps.isEmpty then (.top, shell)
        else (.executing parsed.plan, shell)
      else
        (.top,
          (shell.write (some 2) parsed.error).write (some 2)
            (literal "\n"))

def mainStep (state : MainState σ δ) :
    Event δ → Option (MainState σ δ)
  | .sigint => if state.phase.running then some state.interrupt else none
  | .files change =>
      if state.phase.running then
        some { state with shell := changeFiles change state.shell }
      else
        none
  | .reap answers =>
      match state.phase with
      | .top =>
          (reapJobs answers true state.shell).map fun shell =>
            { state with
              phase := .reading
              memory := { state.memory with firstTabPressed := false }
              shell := shell }
      | .entered input =>
          (reapJobs answers true state.shell).map fun shell =>
            { state with phase := .settled input, shell := shell }
      | _ => none
  | .tab environment listing text start =>
      match state.phase with
      | .reading =>
          (shellCompletion (allCommands environment listing) text start
              state.memory).map fun done =>
            { state with
              memory := done.2
              shell := state.shell.write (some 1) done.1.printed }
      | _ => none
  | .hook answers =>
      match state.phase with
      | .reading =>
          (reapJobs answers false state.shell).map fun shell =>
            { state with shell := shell }
      | _ => none
  | .line (some input) =>
      match state.phase with
      | .reading => some { state with phase := .entered input }
      | _ => none
  | .line none =>
      match state.phase with
      | .reading =>
          some
            (MainState.leave
              { state with
                shell := state.shell.write (some 1) (literal "\n") } 0)
      | _ => none
  | .test =>
      match state.phase with
      | .settled input =>
          some { state with phase := .tested input state.promptInterrupted }
      | _ => none
  | .clear =>
      match state.phase with
      | .tested input interrupted =>
          some
            { state with
              phase := .cleared input interrupted
              promptInterrupted := false }
      | _ => none
  | .handle =>
      match state.phase with
      | .cleared input interrupted =>
          (handleLine input interrupted state.shell).map fun done =>
            { state with phase := done.1, shell := done.2 }
      | _ => none
  | .execute script =>
      match state.phase with
      | .executing plan =>
          (executePlan plan script state.shell).map fun done =>
            if done.1.exitRequested then
              MainState.leave { state with shell := done.2 } done.1.exitCode
            else
              { state with phase := .top, shell := done.2 }
      | _ => none

/-- The shell when it prints its first prompt. -/
structure Begun (base : Table σ) (history : History)
    (state : MainState σ δ) : Prop where
  phase : state.phase = .top
  calm : state.promptInterrupted = false
  memory : state.memory = {}
  table : state.shell.table = base.map .inherited
  session : Fresh state.shell.session
  history : state.shell.process.history = history

/-- The shell with the descriptors and the history of its start. -/
def mainSystem (base : Table σ) (history : History) :
    System (MainState σ δ) (Event δ) where
  initial := Begun base history
  step := mainStep

/-! ## Everything a step can do -/

inductive Stepped (state : MainState σ δ) :
    Event δ → MainState σ δ → Prop where
  | sigint (isRunning : state.phase.running = true) :
      Stepped state .sigint state.interrupt
  | files (change : Disk → Disk) (isRunning : state.phase.running = true) :
      Stepped state (.files change)
        { state with shell := changeFiles change state.shell }
  | prompt {answers : ReapAnswers} {shell : ShellState σ δ}
      (isTop : state.phase = .top)
      (reaped : reapJobs answers true state.shell = some shell) :
      Stepped state (.reap answers)
        { state with
          phase := .reading
          memory := { state.memory with firstTabPressed := false }
          shell := shell }
  | settle {answers : ReapAnswers} {input : ByteString}
      {shell : ShellState σ δ} (isEntered : state.phase = .entered input)
      (reaped : reapJobs answers true state.shell = some shell) :
      Stepped state (.reap answers)
        { state with phase := .settled input, shell := shell }
  | tab {environment : PathSearch.Environment} {listing : Listing}
      {text : ByteString} {start : Nat} {reaction : Reaction}
      {memory : Memory} (isReading : state.phase = .reading)
      (reacted :
        shellCompletion (allCommands environment listing) text start
          state.memory = some (reaction, memory)) :
      Stepped state (.tab environment listing text start)
        { state with
          memory := memory
          shell := state.shell.write (some 1) reaction.printed }
  | hook {answers : ReapAnswers} {shell : ShellState σ δ}
      (isReading : state.phase = .reading)
      (reaped : reapJobs answers false state.shell = some shell) :
      Stepped state (.hook answers) { state with shell := shell }
  | line {input : ByteString} (isReading : state.phase = .reading) :
      Stepped state (.line (some input))
        { state with phase := .entered input }
  | endOfInput (isReading : state.phase = .reading) :
      Stepped state (.line none)
        (MainState.leave
          { state with
            shell := state.shell.write (some 1) (literal "\n") } 0)
  | test {input : ByteString} (isSettled : state.phase = .settled input) :
      Stepped state .test
        { state with phase := .tested input state.promptInterrupted }
  | clear {input : ByteString} {interrupted : Bool}
      (isTested : state.phase = .tested input interrupted) :
      Stepped state .clear
        { state with
          phase := .cleared input interrupted
          promptInterrupted := false }
  | handle {input : ByteString} {interrupted : Bool} {phase : Phase}
      {shell : ShellState σ δ}
      (isCleared : state.phase = .cleared input interrupted)
      (handled :
        handleLine input interrupted state.shell = some (phase, shell)) :
      Stepped state .handle { state with phase := phase, shell := shell }
  | execute {plan : ExecutionPlan} {script : List (PipelineAnswers δ)}
      {result : ExecutionResult} {shell : ShellState σ δ}
      (isExecuting : state.phase = .executing plan)
      (executed :
        executePlan plan script state.shell = some (result, shell))
      (stays : result.exitRequested = false) :
      Stepped state (.execute script)
        { state with phase := .top, shell := shell }
  | exit {plan : ExecutionPlan} {script : List (PipelineAnswers δ)}
      {result : ExecutionResult} {shell : ShellState σ δ}
      (isExecuting : state.phase = .executing plan)
      (executed :
        executePlan plan script state.shell = some (result, shell))
      (exits : result.exitRequested = true) :
      Stepped state (.execute script)
        (MainState.leave { state with shell := shell } result.exitCode)

theorem stepped_of_mainStep
    {state next : MainState σ δ} {event : Event δ}
    (stepped : mainStep state event = some next) :
    Stepped state event next := by
  cases event with
  | sigint =>
      simp only [mainStep, Option.ite_none_right_eq_some] at stepped
      rcases stepped with ⟨isRunning, ⟨⟩⟩
      exact .sigint isRunning
  | files change =>
      simp only [mainStep, Option.ite_none_right_eq_some] at stepped
      rcases stepped with ⟨isRunning, ⟨⟩⟩
      exact .files change isRunning
  | reap answers =>
      simp only [mainStep] at stepped
      split at stepped
      · rename_i isTop
        rcases Option.map_eq_some_iff.mp stepped with ⟨shell, reaped, rfl⟩
        exact .prompt isTop reaped
      · rename_i input isEntered
        rcases Option.map_eq_some_iff.mp stepped with ⟨shell, reaped, rfl⟩
        exact .settle isEntered reaped
      · cases stepped
  | tab environment listing text start =>
      simp only [mainStep] at stepped
      split at stepped
      · rename_i isReading
        rcases Option.map_eq_some_iff.mp stepped with
          ⟨⟨reaction, memory⟩, reacted, rfl⟩
        exact .tab isReading reacted
      · cases stepped
  | hook answers =>
      simp only [mainStep] at stepped
      split at stepped
      · rename_i isReading
        rcases Option.map_eq_some_iff.mp stepped with ⟨shell, reaped, rfl⟩
        exact .hook isReading reaped
      · cases stepped
  | line input =>
      cases input with
      | none =>
          simp only [mainStep] at stepped
          split at stepped
          · rename_i isReading
            cases stepped
            exact .endOfInput isReading
          · cases stepped
      | some input =>
          simp only [mainStep] at stepped
          split at stepped
          · rename_i isReading
            cases stepped
            exact .line isReading
          · cases stepped
  | test =>
      simp only [mainStep] at stepped
      split at stepped
      · rename_i input isSettled
        cases stepped
        exact .test isSettled
      · cases stepped
  | clear =>
      simp only [mainStep] at stepped
      split at stepped
      · rename_i input interrupted isTested
        cases stepped
        exact .clear isTested
      · cases stepped
  | handle =>
      simp only [mainStep] at stepped
      split at stepped
      · rename_i input interrupted isCleared
        rcases Option.map_eq_some_iff.mp stepped with
          ⟨⟨phase, shell⟩, handled, rfl⟩
        exact .handle isCleared handled
      · cases stepped
  | execute script =>
      simp only [mainStep] at stepped
      split at stepped
      · rename_i plan isExecuting
        rcases Option.map_eq_some_iff.mp stepped with
          ⟨⟨result, shell⟩, executed, rfl⟩
        cases exits : result.exitRequested with
        | true =>
            rw [if_pos rfl]
            exact .exit isExecuting executed exits
        | false =>
            rw [if_neg Bool.false_ne_true]
            exact .execute isExecuting executed exits
      · cases stepped

/-! ## The shell around a step -/

section Carried

variable {handed finished : WaitAnswers → Prop}

theorem write_carried (shell : ShellState σ δ) (fd : UniqueFd)
    (text : ByteString) :
    Carried handed finished shell (shell.write fd text) := by
  unfold ShellState.write
  dsimp only
  split <;> exact ⟨rfl, rfl, .refl _ _⟩

theorem reapJobs_carried
    {answers : ReapAnswers} {notify : Bool} {shell next : ShellState σ δ}
    (reaped : reapJobs answers notify shell = some next) :
    Carried handed finished shell next := by
  rcases Option.map_eq_some_iff.mp reaped with ⟨session, collected, rfl⟩
  exact ⟨rfl, rfl,
    leads_perform (.reapBackground answers notify) collected trivial⟩

/-- A line is left alone, recorded, or recorded and handed to the executor. -/
inductive Handled (input : ByteString) (interrupted : Bool)
    (shell : ShellState σ δ) : Phase → ShellState σ δ → Prop where
  | discarded (isDiscarded : interrupted = true ∨ input = []) :
      Handled input interrupted shell .top shell
  | rejected {parsed : ParseResult} (isKept : interrupted = false)
      (isNonempty : input ≠ []) (isParsed : parseLine input = some parsed)
      (fails : parsed.ok = false) :
      Handled input interrupted shell .top
        (((shell.setHistory (shell.process.history.addHistory input)).write
          (some 2) parsed.error).write (some 2) (literal "\n"))
  | blank {parsed : ParseResult} (isKept : interrupted = false)
      (isNonempty : input ≠ []) (isParsed : parseLine input = some parsed)
      (succeeds : parsed.ok = true) (isBlank : parsed.plan.steps = []) :
      Handled input interrupted shell .top
        (shell.setHistory (shell.process.history.addHistory input))
  | accepted {parsed : ParseResult} (isKept : interrupted = false)
      (isNonempty : input ≠ []) (isParsed : parseLine input = some parsed)
      (succeeds : parsed.ok = true) (hasSteps : parsed.plan.steps ≠ []) :
      Handled input interrupted shell (.executing parsed.plan)
        (shell.setHistory (shell.process.history.addHistory input))

theorem handled_of_handleLine
    {input : ByteString} {interrupted : Bool} {shell next : ShellState σ δ}
    {phase : Phase}
    (handled : handleLine input interrupted shell = some (phase, next)) :
    Handled input interrupted shell phase next := by
  unfold handleLine at handled
  by_cases isDiscarded : (interrupted || input.isEmpty) = true
  · rw [if_pos isDiscarded] at handled
    cases handled
    rw [Bool.or_eq_true, List.isEmpty_iff] at isDiscarded
    exact .discarded isDiscarded
  · rw [if_neg isDiscarded] at handled
    rw [Bool.or_eq_true, List.isEmpty_iff, not_or,
      Bool.not_eq_true] at isDiscarded
    rcases isDiscarded with ⟨isKept, isNonempty⟩
    rcases Option.map_eq_some_iff.mp handled with
      ⟨parsed, isParsed, outcome⟩
    cases succeeds : parsed.ok with
    | false =>
        rw [succeeds, if_neg Bool.false_ne_true] at outcome
        cases outcome
        exact .rejected isKept isNonempty isParsed succeeds
    | true =>
        rw [succeeds, if_pos rfl] at outcome
        by_cases isBlank : parsed.plan.steps.isEmpty = true
        · rw [if_pos isBlank] at outcome
          cases outcome
          exact .blank isKept isNonempty isParsed succeeds
            (List.isEmpty_iff.mp isBlank)
        · rw [if_neg isBlank] at outcome
          cases outcome
          exact .accepted isKept isNonempty isParsed succeeds
            (mt List.isEmpty_iff.mpr isBlank)

theorem Handled.carried
    {input : ByteString} {interrupted : Bool} {shell next : ShellState σ δ}
    {phase : Phase} (handled : Handled input interrupted shell phase next) :
    Carried handed finished shell next := by
  have recorded :
      Carried handed finished shell
        (shell.setHistory (shell.process.history.addHistory input)) :=
    ⟨rfl, rfl, .refl _ _⟩
  cases handled with
  | discarded => exact .refl shell
  | rejected =>
      exact recorded.trans
        ((write_carried _ _ _).trans (write_carried _ _ _))
  | blank => exact recorded
  | accepted => exact recorded

variable (handed finished) in
/-- The answers about the terminal are such answers. -/
def Event.Admitted : Event δ → Prop
  | .execute script =>
      ∀ answers ∈ script, answers.Admitted handed finished
  | _ => True

/-- A step of `main` carries the shell on. -/
theorem Stepped.carried
    {base : Table σ}
    (standard : ∀ fd, fd < 3 → base.lookup fd ≠ none)
    {state next : MainState σ δ}
    (inherited : state.shell.table = base.map .inherited)
    {event : Event δ} (admitted : event.Admitted handed finished)
    (stepped : Stepped state event next) :
    Carried handed finished state.shell next.shell := by
  have executes :
      ∀ {plan script result shell},
        (∀ answers ∈ script,
          PipelineAnswers.Admitted handed finished answers) →
        executePlan plan script state.shell = some (result, shell) →
          Carried handed finished state.shell shell := by
    intro plan script result shell admitted executed
    rcases executePlan_executed executed with ⟨done, ran, -⟩
    exact ran.carried standard admitted inherited
  cases stepped with
  | sigint => exact write_carried _ _ _
  | files change => exact ⟨rfl, rfl, .refl _ _⟩
  | prompt isTop reaped => exact reapJobs_carried reaped
  | settle isEntered reaped => exact reapJobs_carried reaped
  | tab isReading reacted => exact write_carried _ _ _
  | hook isReading reaped => exact reapJobs_carried reaped
  | line => exact .refl _
  | endOfInput isReading =>
      have written :
          Carried handed finished state.shell
            (state.shell.write (some 1) (literal "\n")) :=
        write_carried _ _ _
      exact ⟨written.table, written.group, written.session⟩
  | test => exact .refl _
  | clear => exact .refl _
  | handle isCleared handled =>
      exact (handled_of_handleLine handled).carried
  | execute isExecuting executed => exact executes admitted executed
  | exit isExecuting executed =>
      have carried := executes admitted executed
      exact ⟨carried.table, carried.group, carried.session⟩

/-- A run of `main` carries the shell on. -/
theorem run_carried
    {base : Table σ} {history : History}
    (standard : ∀ fd, fd < 3 → base.lookup fd ≠ none)
    {start state : MainState σ δ} {events : List (Event δ)}
    (inherited : start.shell.table = base.map .inherited)
    (admitted : ∀ event ∈ events, event.Admitted handed finished)
    (ran : (mainSystem base history).run start events = some state) :
    Carried handed finished start.shell state.shell :=
  System.run_preserves_allowed
    (fun state => Carried handed finished start.shell state.shell)
    (Event.Admitted handed finished)
    (fun carried admitted stepped =>
      carried.trans
        ((stepped_of_mainStep stepped).carried standard
          (carried.table.trans inherited) admitted))
    (.refl start.shell) admitted ran

end Carried

/-! ## Every run is a run of job control -/

theorem Event.admitted_true (event : Event δ) :
    event.Admitted (fun _ => True) (fun _ => True) := by
  cases event with
  | execute script => exact fun answers _ => answers.admitted_true
  | _ => trivial

/-- The session and the descriptors in every state of the shell. -/
theorem reachable_session
    {base : Table σ} {history : History}
    (standard : ∀ fd, fd < 3 → base.lookup fd ≠ none)
    {state : MainState σ δ}
    (reachable : (mainSystem base history).Reachable state) :
    jobSystem.Reachable state.shell.session ∧
      state.shell.table = base.map .inherited := by
  rcases reachable with ⟨start, events, begun, ran⟩
  have carried :=
    run_carried standard begun.table (fun event _ => event.admitted_true) ran
  exact ⟨(System.Reachable.initial begun.session).leadsBy carried.session,
    carried.table.trans begun.table⟩

/--
In every state that a shell with three open standard descriptors can be in, the
calls of job control so far are a run of the job table, which is therefore
valid, and the shell has exactly the descriptors that it was started with.
Both also hold behind any part of a plan that is being executed, and every
pipeline that is launched there starts in an initial state of the launch.
-/
theorem main_refines_job_control
    {base : Table σ} {history : History}
    (standard : ∀ fd, fd < 3 → base.lookup fd ≠ none)
    {state : MainState σ δ}
    (reachable : (mainSystem base history).Reachable state)
    {script left : List (PipelineAnswers δ)} {shell : ShellState σ δ}
    {done : List (Pipeline × ExecutionResult)}
    (executed : Executed scripted (state.shell, script) done (shell, left)) :
    jobSystem.Reachable shell.session ∧ TableValid shell.session.control ∧
      shell.table = base.map .inherited ∧
      ∀ environment pipeline, Forks pipeline →
        (launchSystem environment pipeline base).initial
          (launching shell) := by
  rcases reachable_session standard reachable with ⟨session, table⟩
  have carried :=
    executed.carried standard (fun answers _ => answers.admitted_true) table
  have reached := session.leadsBy carried.session
  have valid := reachable_tableValid reached
  have same := carried.table.trans table
  refine ⟨reached, valid, same, fun environment pipeline forks => ?_⟩
  exact ⟨forks, rfl, rfl, same, rfl, rfl, rfl, valid.below⟩

/-- An interactive shell with an empty history file. -/
def sampleHistory : History :=
  History.initializeHistory HistoryPersistence.sampleDisk
    (some (literal "histfile"))

def sampleMain : MainState ℕ ByteString where
  phase := .top
  promptInterrupted := false
  memory := {}
  shell :=
    { group := 7
      table := sampleShell.map .inherited
      session := Resumption.opened 7 {}
      process := ⟨literal "/", sampleHistory⟩ }

theorem sampleMain_begun : Begun sampleShell sampleHistory sampleMain :=
  ⟨rfl, rfl, rfl, rfl, ⟨rfl, rfl, rfl⟩, rfl⟩

theorem sampleShell_standard :
    ∀ fd, fd < 3 → sampleShell.lookup fd ≠ none := by
  intro fd below
  simp [sampleShell, below]

/-- A line is entered and handled. -/
def sampleLine (input : String) : List (Event ByteString) :=
  [.reap ⟨false, []⟩, .line (some (literal input)), .reap ⟨false, []⟩,
    .test, .clear, .handle]

/-- `exit 3 ; pwd` is being executed. -/
theorem sampleExit_executing :
    ∃ state plan,
      (mainSystem sampleShell sampleHistory).run sampleMain
          (sampleLine "exit 3 ; pwd") = some state ∧
        state.phase = .executing plan ∧ plan.steps.length = 2 := by
  have executing :
      ((mainSystem sampleShell sampleHistory).run sampleMain
          (sampleLine "exit 3 ; pwd")).map
        (fun state =>
          match state.phase with
          | .executing plan => some plan.steps.length
          | _ => none) = some (some 2) := by
    decide +kernel
  rcases Option.map_eq_some_iff.mp executing with ⟨state, ran, isPhase⟩
  split at isPhase
  · rename_i plan isExecuting
    exact ⟨state, plan, ran, isExecuting, Option.some.inj isPhase⟩
  · cases isPhase

theorem main_refines_job_control_sample :
    ∃ state : MainState ℕ ByteString,
      (∃ plan, state.phase = .executing plan) ∧
        TableValid state.shell.session.control ∧
        (launchSystem sampleEnvironment samplePipeline sampleShell).initial
          (launching state.shell) := by
  rcases sampleExit_executing with ⟨state, plan, ran, isExecuting, -⟩
  have reachable :
      (mainSystem sampleShell sampleHistory).Reachable state :=
    ⟨sampleMain, _, sampleMain_begun, ran⟩
  rcases main_refines_job_control sampleShell_standard reachable
    (.nil (state.shell, [])) with ⟨-, valid, -, launches⟩
  exact ⟨state, ⟨plan, isExecuting⟩, valid,
    launches sampleEnvironment samplePipeline sampleStart_initial.1⟩

/-! ## The terminal at the prompt -/

/--
`main` returns at the end of the input, with code 0, or behind a plan in which
a foreground `exit` has run, with the code of that command.  Nothing of the
plan runs behind the `exit`, and the session is saved as the last thing.  The
three standard descriptors of the shell are open.
-/
theorem main_returns_at_exit
    {base : Table σ} {history : History}
    (standard : ∀ fd, fd < 3 → base.lookup fd ≠ none)
    {state next : MainState σ δ}
    (reachable : (mainSystem base history).Reachable state)
    {event : Event δ} {code : Int}
    (stepped : mainStep state event = some next)
    (ends : next.phase = .finished code) :
    (event = .line none ∧ code = 0 ∧
        next.shell.process.history =
          state.shell.process.history.saveSession) ∨
      ∃ plan script earlier pipeline result shell,
        state.phase = .executing plan ∧ event = .execute script ∧
          Executed scripted (state.shell, script)
            (earlier ++ [(pipeline, result)]) (shell, []) ∧
          ((earlier ++ [(pipeline, result)]).map Prod.fst).Sublist
            (plan.steps.map PipelineStep.pipeline) ∧
          (∀ other ∈ earlier, other.2.exitRequested = false) ∧
          IsExit pipeline code ∧
          next.shell.process.history = shell.process.history.saveSession := by
  rcases reachable_session standard reachable with ⟨-, inherited⟩
  have running :
      ∀ {phase : Phase}, phase.running = true → phase = .finished code →
        False := by
    rintro _ isRunning rfl
    cases isRunning
  cases stepped_of_mainStep stepped with
  | sigint isRunning => exact (running isRunning ends).elim
  | files change isRunning => exact (running isRunning ends).elim
  | tab isReading | hook isReading =>
      exact absurd (isReading.symm.trans ends) nofun
  | prompt | settle | line | test | clear | execute => cases ends
  | endOfInput isReading =>
      cases ends
      refine Or.inl ⟨rfl, rfl, ?_⟩
      exact congrArg (fun process => process.history.saveSession)
        (write_process inherited (some 1) (literal "\n"))
  | handle isCleared handled =>
      have cases := handled_of_handleLine handled
      change _ = Phase.finished code at ends
      subst ends
      cases cases
  | exit isExecuting executed exits =>
      rename_i plan script result shell
      cases ends
      rcases executePlan_executed executed with
        ⟨done, ran, order, isLast, goesOn⟩
      -- The result that requests the exit is that of the last pipeline.
      rcases List.eq_nil_or_concat done with rfl | ⟨earlier, last, rfl⟩
      · cases isLast
        cases exits
      · rcases last with ⟨pipeline, reported⟩
        rw [List.concat_eq_append] at ran order isLast goesOn
        rw [List.getLast?_concat] at isLast
        rw [List.dropLast_concat] at goesOn
        cases isLast
        have isDone :
            (pipeline, reported) ∈ earlier ++ [(pipeline, reported)] :=
          List.mem_append_right _ List.mem_cons_self
        exact Or.inr ⟨plan, script, earlier, pipeline, reported, shell,
          isExecuting, rfl, ran, order, goesOn,
          executed_exit standard inherited ran isDone exits, rfl⟩

/-- `exit 3 ; pwd` ends the shell, and `pwd` does not run. -/
theorem main_returns_at_exit_sample :
    ∃ state : MainState ℕ ByteString, ∃ plan earlier pipeline result shell,
      state.phase = .executing plan ∧ plan.steps.length = 2 ∧
        Executed scripted (state.shell, [.parent sampleAnswers])
          (earlier ++ [(pipeline, result)]) (shell, []) ∧
        IsExit pipeline 3 := by
  rcases sampleExit_executing with
    ⟨state, plan, ran, isExecuting, twoSteps⟩
  have ends :
      ((mainSystem sampleShell sampleHistory).run sampleMain
          (sampleLine "exit 3 ; pwd" ++
            [.execute [.parent sampleAnswers]])).map MainState.phase =
        some (.finished 3) := by
    decide +kernel
  rcases Option.map_eq_some_iff.mp ends with ⟨next, ranOn, isFinished⟩
  rcases System.run_append.mp ranOn with ⟨middle, ranFirst, last⟩
  cases ran.symm.trans ranFirst
  rcases System.run_cons.mp last with ⟨_, stepped, ⟨⟩⟩
  have steps :
      mainStep state (.execute [.parent sampleAnswers]) = some next :=
    stepped
  have reachable :
      (mainSystem sampleShell sampleHistory).Reachable state :=
    ⟨sampleMain, _, sampleMain_begun, ran⟩
  rcases main_returns_at_exit sampleShell_standard reachable steps
    isFinished with
    ⟨⟨⟩, -⟩ |
      ⟨_, _, earlier, pipeline, result, shell, isPlan, ⟨⟩, executed, -, -,
        isExit, -⟩
  cases isExecuting.symm.trans isPlan
  exact ⟨state, plan, earlier, pipeline, result, shell, isExecuting,
    twoSteps, executed, isExit⟩

/-! ## Interrupted lines -/

section Interrupts

variable {events : List (Event δ)} {event : Event δ} {input : ByteString}
  {phase : Phase}

/-- SIGINT has arrived since the flag was last reset. -/
def SigintSince (events : List (Event δ)) : Prop :=
  ∃ before after, events = before ++ .sigint :: after ∧ .clear ∉ after

/-- The last line that readline has returned. -/
def LastLine (input : ByteString) (events : List (Event δ)) : Prop :=
  ∃ before after,
    events = before ++ .line (some input) :: after ∧
      ∀ other, .line other ∉ after

/-- The last test of the flag was made for the line, and what it found is
whether SIGINT had arrived. -/
def LastTest (input : ByteString) (interrupted : Bool)
    (events : List (Event δ)) : Prop :=
  ∃ before after,
    events = before ++ .test :: after ∧
      (.test ∉ after ∧ ∀ other, .line other ∉ after) ∧
      LastLine input before ∧
      (interrupted = true ↔ SigintSince before)

/-- What the phases between `readline` and `execute` tell about the events. -/
def Remembers (events : List (Event δ)) : Phase → Prop
  | .entered input | .settled input => LastLine input events
  | .tested input interrupted | .cleared input interrupted =>
      LastTest input interrupted events
  | _ => True

theorem sigintSince_concat :
    SigintSince (events ++ [event]) ↔
      event = .sigint ∨ event ≠ .clear ∧ SigintSince events := by
  constructor
  · rintro ⟨before, after, split, noClear⟩
    rcases List.eq_nil_or_concat after with rfl | ⟨after, last, rfl⟩
    · exact Or.inl (List.append_inj_right' split rfl |> List.singleton_inj.mp)
    · rw [List.concat_eq_append] at split noClear
      rw [← List.cons_append, ← List.append_assoc] at split
      rcases List.append_inj' split rfl with ⟨rfl, same⟩
      cases List.singleton_inj.mp same
      refine Or.inr ⟨?_, before, after, rfl, ?_⟩
      · rintro rfl
        exact noClear (List.mem_append_right _ List.mem_cons_self)
      · exact fun isClear => noClear (List.mem_append_left _ isClear)
  · rintro (rfl | ⟨noClear, before, after, rfl, earlier⟩)
    · exact ⟨events, [], rfl, List.not_mem_nil⟩
    · refine ⟨before, after ++ [event], ?_, ?_⟩
      · rw [List.append_assoc, List.cons_append]
      · rw [List.mem_append, List.mem_singleton, not_or]
        exact ⟨earlier, Ne.symm noClear⟩

theorem lastLine_line (events : List (Event δ)) (input : ByteString) :
    LastLine input (events ++ [.line (some input)]) :=
  ⟨events, [], rfl, fun _ => List.not_mem_nil⟩

theorem LastLine.concat
    (last : LastLine input events) (noLine : ∀ other, event ≠ .line other) :
    LastLine input (events ++ [event]) := by
  rcases last with ⟨before, after, rfl, later⟩
  refine ⟨before, after ++ [event], ?_, fun other => ?_⟩
  · rw [List.append_assoc, List.cons_append]
  · rw [List.mem_append, List.mem_singleton, not_or]
    exact ⟨later other, (noLine other).symm⟩

theorem LastTest.concat {interrupted : Bool}
    (last : LastTest input interrupted events) (noTest : event ≠ .test)
    (noLine : ∀ other, event ≠ .line other) :
    LastTest input interrupted (events ++ [event]) := by
  rcases last with ⟨before, after, rfl, ⟨noTests, noLines⟩, isLine, found⟩
  refine ⟨before, after ++ [event], ?_, ⟨?_, fun other => ?_⟩, isLine,
    found⟩
  · rw [List.append_assoc, List.cons_append]
  · rw [List.mem_append, List.mem_singleton, not_or]
    exact ⟨noTests, noTest.symm⟩
  · rw [List.mem_append, List.mem_singleton, not_or]
    exact ⟨noLines other, (noLine other).symm⟩

theorem Remembers.concat
    (remembers : Remembers events phase)
    (noLine : ∀ other, event ≠ .line other) (noTest : event ≠ .test) :
    Remembers (events ++ [event]) phase := by
  cases phase with
  | entered | settled => exact LastLine.concat remembers noLine
  | tested | cleared => exact LastTest.concat remembers noTest noLine
  | top | reading | executing | finished => trivial

/-- The flag says whether SIGINT has arrived since it was reset. -/
structure Hears (events : List (Event δ)) (state : MainState σ δ) :
    Prop where
  flag : state.promptInterrupted = true ↔ SigintSince events
  phase : Remembers events state.phase

theorem hears_step
    {state next : MainState σ δ} (hears : Hears events state)
    (stepped : Stepped state event next) :
    Hears (events ++ [event]) next := by
  have flag :
      ∀ {event}, event ≠ .sigint → event ≠ .clear →
        (state.promptInterrupted = true ↔
          SigintSince (events ++ [event])) := by
    intro event noSigint noClear
    rw [sigintSince_concat, hears.flag]
    exact ⟨fun since => Or.inr ⟨noClear, since⟩,
      fun since => (since.resolve_left noSigint).2⟩
  have remembers := hears.phase
  cases stepped with
  | sigint isRunning =>
      exact ⟨⟨fun _ => sigintSince_concat.mpr (Or.inl rfl), fun _ => rfl⟩,
        remembers.concat nofun nofun⟩
  | files change isRunning =>
      exact ⟨flag nofun nofun, remembers.concat nofun nofun⟩
  | prompt isTop reaped => exact ⟨flag nofun nofun, trivial⟩
  | settle isEntered reaped =>
      rw [isEntered] at remembers
      exact ⟨flag nofun nofun, LastLine.concat remembers nofun⟩
  | tab isReading | hook isReading =>
      exact ⟨flag nofun nofun, remembers.concat nofun nofun⟩
  | line isReading =>
      exact ⟨flag nofun nofun, lastLine_line events _⟩
  | endOfInput isReading => exact ⟨flag nofun nofun, trivial⟩
  | test isSettled =>
      rw [isSettled] at remembers
      exact ⟨flag nofun nofun, events, [], rfl,
        ⟨List.not_mem_nil, fun _ => List.not_mem_nil⟩, remembers, hears.flag⟩
  | clear isTested =>
      rw [isTested] at remembers
      refine ⟨⟨nofun, fun since => ?_⟩,
        LastTest.concat remembers nofun nofun⟩
      rcases sigintSince_concat.mp since with isSigint | ⟨noClear, -⟩
      · cases isSigint
      · exact absurd rfl noClear
  | handle isCleared handled =>
      refine ⟨flag nofun nofun, ?_⟩
      cases handled_of_handleLine handled <;> trivial
  | execute isExecuting executed stays => exact ⟨flag nofun nofun, trivial⟩
  | exit isExecuting executed exits => exact ⟨flag nofun nofun, trivial⟩

theorem run_hears
    {base : Table σ} {history : History} {start state : MainState σ δ}
    (begun : Begun base history start)
    (ran : (mainSystem base history).run start events = some state) :
    Hears events state := by
  have initially : Hears [] start := by
    constructor
    · rw [begun.calm]
      refine ⟨nofun, ?_⟩
      rintro ⟨before, after, split, -⟩
      exact absurd split.symm (List.append_ne_nil_of_right_ne_nil _
        (List.cons_ne_nil _ _))
    · rw [begun.phase]
      trivial
  have heard :=
    System.run_accounts some Hears (fun _ => True)
      (fun hears _ stepped =>
        hears_step hears (stepped_of_mainStep stepped))
      initially (fun _ _ => trivial) ran
  rwa [List.nil_append, List.filterMap_some] at heard

end Interrupts

/--
A line is handled after exactly one test of the flag, which was made behind the
return of readline.  If SIGINT has arrived between the reset of the flag for
the line before and this test, nothing is done with the line, however often it
has arrived; a SIGINT between the test and the reset has no effect.  Otherwise
a line that is not empty is recorded, and its plan is executed if it is
accepted by the parser.
-/
theorem line_discarded_iff_interrupted
    {base : Table σ} {history : History}
    {start state next : MainState σ δ} {events : List (Event δ)}
    (begun : Begun base history start)
    (ran : (mainSystem base history).run start events = some state)
    (stepped : mainStep state .handle = some next) :
    ∃ input before after,
      events = before ++ .test :: after ∧
        (.test ∉ after ∧ ∀ other, .line other ∉ after) ∧
        LastLine input before ∧
        ((SigintSince before ∨ input = []) ∧ next.phase = .top ∧
            next.shell = state.shell ∨
          ¬ SigintSince before ∧ input ≠ [] ∧
            next.shell.process.history.entries =
              state.shell.process.history.entries ++ [input] ∧
            ∃ parsed,
              parseLine input = some parsed ∧
                next.phase =
                  if parsed.ok = true ∧ parsed.plan.steps ≠ [] then
                    .executing parsed.plan
                  else
                    .top) := by
  have remembers := (run_hears begun ran).phase
  cases stepped_of_mainStep stepped with
  | handle isCleared handled =>
      rename_i input interrupted phase shell
      rw [isCleared] at remembers
      rcases remembers with ⟨before, after, split, last, isLine, found⟩
      have uninterrupted :
          interrupted = false → ¬ SigintSince before := by
        intro isKept
        rw [← found, isKept]
        exact Bool.false_ne_true
      refine ⟨input, before, after, split, last, isLine, ?_⟩
      cases handled_of_handleLine handled with
      | discarded isDiscarded =>
          exact Or.inl ⟨isDiscarded.imp_left found.mp, rfl, rfl⟩
      | rejected isKept isNonempty isParsed fails =>
          refine Or.inr ⟨uninterrupted isKept, isNonempty, ?_, _, isParsed,
            ?_⟩
          · rw [write_entries, write_entries]
            rfl
          · exact (if_neg fun accepted =>
              Bool.false_ne_true (fails.symm.trans accepted.1)).symm
      | blank isKept isNonempty isParsed succeeds isBlank =>
          exact Or.inr ⟨uninterrupted isKept, isNonempty, rfl, _, isParsed,
            (if_neg fun accepted => accepted.2 isBlank).symm⟩
      | accepted isKept isNonempty isParsed succeeds hasSteps =>
          exact Or.inr ⟨uninterrupted isKept, isNonempty, rfl, _, isParsed,
            (if_pos ⟨succeeds, hasSteps⟩).symm⟩

/-- SIGINT arrives while `pwd` is typed, and once more behind the test. -/
def sampleInterrupted : List (Event ByteString) :=
  [.reap ⟨false, []⟩, .sigint, .line (some (literal "pwd")),
    .reap ⟨false, []⟩, .test, .sigint, .clear]

theorem line_discarded_iff_interrupted_sample :
    ∃ state next : MainState ℕ ByteString,
      (mainSystem sampleShell sampleHistory).run sampleMain
          sampleInterrupted = some state ∧
        mainStep state .handle = some next ∧ next.phase = .top ∧
        next.shell = state.shell := by
  have handled :
      ((mainSystem sampleShell sampleHistory).run sampleMain
          (sampleInterrupted ++ [.handle])).map
          (fun state => state.shell.process.history.entries) =
        some [] := by
    decide +kernel
  rcases Option.map_eq_some_iff.mp handled with ⟨next, ranOn, noEntries⟩
  rcases System.run_append.mp ranOn with ⟨state, ran, last⟩
  rcases System.run_cons.mp last with ⟨_, stepped, ⟨⟩⟩
  have steps : mainStep state .handle = some next := stepped
  rcases line_discarded_iff_interrupted sampleMain_begun ran steps with
    ⟨input, before, after, -, -, -,
      ⟨-, isTop, same⟩ | ⟨-, -, isRecorded, -⟩⟩
  · exact ⟨state, next, ran, steps, isTop, same⟩
  · rw [noEntries] at isRecorded
    exact absurd isRecorded.symm (List.append_ne_nil_of_right_ne_nil _
      (List.cons_ne_nil _ _))

end Shell.MainLoop
