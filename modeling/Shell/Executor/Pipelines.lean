import Shell.Executor.AndOrLists
import Shell.Executor.ParentBuiltins
import Shell.Executor.Wiring

/-!
# Executing a plan

`execute_pipeline` as a whole, and `Executor::execute` over it.  A pipeline is
run by the shell itself or launched with `fork`; in the second case the
schedule of the parent and the children is one of the answers.  What the
children do to files is given as well.

Job control is only ever entered through its operations: what happens between
the first `fork` and the return of `execute_pipeline`, in whatever order, comes
down to an `add_job` and a `wait_foreground`.
-/

namespace Shell.Pipelines

open Shell.Syntax
open Shell.DescriptorTable
open Shell.Descriptors
open Shell.JobTable
open Shell.JobOperations
open Shell.LaunchMachine
open Shell.TransitionSystem
open Shell.ShellHistory
open Shell.BuiltinDispatch
open Shell.ParentBuiltins
open Shell.AndOrLists
open Shell.Wiring

variable {σ δ : Type}

/-! ## The fork path -/

/-- The shell at the start of the fork path. -/
def launching (shell : ShellState σ δ) : Machine σ where
  shellGroup := shell.group
  phase := .creating
  pipes := []
  table := shell.table
  pgid := 0
  pids := []
  children := []
  session := shell.session
  notices := shell.notices

/-- Every launch of a pipeline, whatever descriptors the shell has. -/
def forkSystem (environment : Environment) (pipeline : Pipeline) :
    System (Machine σ) Label where
  initial machine :=
    ∃ shell : Table σ,
      (launchSystem environment pipeline shell).initial machine
  step := machineStep environment pipeline

/-- The shell behind a launch. -/
def landed (shell : ShellState σ δ) (machine : Machine σ) :
    ShellState σ δ :=
  { shell with
    table := machine.table
    session := machine.session
    notices := machine.notices }

/-- The fork path of `execute_pipeline`, under a schedule. -/
def launchPipeline (environment : Environment) (schedule : List Label)
    (pipeline : Pipeline) (shell : ShellState σ δ) :
    Option (ExecutionResult × ShellState σ δ) :=
  ((forkSystem environment pipeline).run (launching shell) schedule).bind
    fun machine =>
      match machine.phase with
      | .returned result => some (result, landed shell machine)
      | _ => none

/-- Other processes have changed files. -/
def changeFiles (files : Disk → Disk) (shell : ShellState σ δ) :
    ShellState σ δ :=
  shell.setHistory
    { shell.process.history with disk := files shell.process.history.disk }

/-! ## Pipelines and plans -/

/-- The answers to the calls of one `execute_pipeline`. -/
inductive PipelineAnswers (δ : Type) where
  | parent (answers : ParentAnswers δ)
  | launch (environment : Environment) (schedule : List Label)
      (files : Disk → Disk)

/-- `execute_pipeline`. -/
def executePipeline (answers : PipelineAnswers δ) (pipeline : Pipeline)
    (shell : ShellState σ δ) : Option (ExecutionResult × ShellState σ δ) :=
  match pipeline.commands with
  | [] => some ({}, shell)
  | command :: _ =>
      match runsInParent pipeline, answers with
      | true, .parent answers => executeParentBuiltin answers command shell
      | false, .launch environment schedule files =>
          (launchPipeline environment schedule pipeline shell).map
            fun done => (done.1, changeFiles files done.2)
      | _, _ => none

/-- `execute_pipeline` with the next answers of a script. -/
def scripted (pipeline : Pipeline) :
    StateT (ShellState σ δ × List (PipelineAnswers δ)) Option
      ExecutionResult :=
  fun state =>
    match state.2 with
    | [] => none
    | answers :: later =>
        (executePipeline answers pipeline state.1).map fun done =>
          (done.1, done.2, later)

/-- `Executor::execute`, with answers for exactly the pipelines that run. -/
def executePlan (plan : ExecutionPlan) (script : List (PipelineAnswers δ))
    (shell : ShellState σ δ) : Option (ExecutionResult × ShellState σ δ) :=
  (execute scripted plan (shell, script)).bind fun done =>
    if done.2.2.isEmpty then some (done.1, done.2.1) else none

/-! ## What a plan executes -/

section Plans

variable {S : Type} (step : Pipeline → StateT S Option ExecutionResult)

/-- Pipelines that run one after the other, with their results. -/
inductive Executed : S → List (Pipeline × ExecutionResult) → S → Prop where
  | nil (state : S) : Executed state [] state
  | cons {state middle next : S} {pipeline : Pipeline}
      {result : ExecutionResult} {later : List (Pipeline × ExecutionResult)}
      (ran : step pipeline state = some (result, middle))
      (rest : Executed middle later next) :
      Executed state ((pipeline, result) :: later) next

variable {step}

/-- The scan runs some of the pipelines in their order, keeps the result of the
last one, and does not go on behind a request to exit. -/
theorem executeLoop_executed
    {last result : ExecutionResult} {haveStatus : Bool}
    {steps : List PipelineStep} {state next : S}
    (ran :
      executeLoop step last haveStatus steps state = some (result, next)) :
    ∃ done,
      Executed step state done next ∧
        (done.map Prod.fst).Sublist (steps.map PipelineStep.pipeline) ∧
        result = (done.getLast?.map Prod.snd).getD last ∧
        ∀ earlier ∈ done.dropLast, earlier.2.exitRequested = false := by
  induction steps generalizing last haveStatus state with
  | nil =>
      cases ran
      exact ⟨[], .nil _, .slnil, rfl, List.forall_mem_nil _⟩
  | cons first steps induction =>
      rw [executeLoop] at ran
      by_cases skipped :
          (haveStatus && !shouldExecute first.connector last.status) = true
      · rw [if_pos skipped] at ran
        rcases induction ran with ⟨done, executed, order, isLast, goesOn⟩
        exact ⟨done, executed, order.cons _, isLast, goesOn⟩
      · rw [if_neg skipped] at ran
        rcases Option.bind_eq_some_iff.mp ran with
          ⟨⟨reported, middle⟩, executedFirst, rest⟩
        dsimp only at rest
        by_cases exits : reported.exitRequested = true
        · -- A request to exit ends the scan.
          rw [if_pos exits] at rest
          cases rest
          exact ⟨[(first.pipeline, result)],
            .cons executedFirst (.nil next),
            (List.nil_sublist _).cons_cons _, rfl, List.forall_mem_nil _⟩
        · rw [if_neg exits] at rest
          rcases induction rest with
            ⟨done, executed, order, isLast, goesOn⟩
          refine ⟨(first.pipeline, reported) :: done,
            .cons executedFirst executed, order.cons_cons _, ?_, ?_⟩
          · cases done with
            | nil => exact isLast
            | cons next done =>
                rw [List.getLast?_cons_cons]
                exact isLast
          · cases done with
            | nil => exact List.forall_mem_nil _
            | cons next done =>
                rw [List.dropLast_cons_cons]
                exact List.forall_mem_cons.mpr
                  ⟨Bool.eq_false_iff.mpr exits, goesOn⟩

theorem Executed.split
    {state next : S} {front later : List (Pipeline × ExecutionResult)}
    (executed : Executed step state (front ++ later) next) :
    ∃ middle,
      Executed step state front middle ∧
        Executed step middle later next := by
  induction front generalizing state with
  | nil => exact ⟨state, .nil state, executed⟩
  | cons first front induction =>
      cases executed with
      | cons ran rest =>
          rcases induction rest with ⟨middle, earlier, others⟩
          exact ⟨middle, .cons ran earlier, others⟩

end Plans

/-! ## Job control behind a launch -/

/-- The answers to one `wait_foreground`, of which the first hand the terminal
over and the last take it back. -/
def lent (first last : WaitAnswers) (waits : List WaitResult) :
    WaitAnswers :=
  { last with
    waits := waits
    givesGroup := first.givesGroup
    givesModes := first.givesModes }

section Launches

variable (handed finished : WaitAnswers → Prop)

/-- The calls of job control that the executor makes, with such answers about
the terminal. -/
def Calls : Operation → Prop
  | .addJob _ _ _ _ _ => True
  | .updateProcess _ _ => False
  | .foreground _ answers _ _ _ => handed answers ∧ finished answers
  | .continueBackground _ _ _ _ _ => True
  | .waitForeground answers _ continueJob =>
      continueJob = false ∧
        ∃ first last waits,
          handed first ∧ finished last ∧ answers = lent first last waits
  | .reapBackground _ _ => True

/-- The answers about the terminal that a schedule may have. -/
def Admits : Label → Prop
  | .handOver answers => handed answers
  | .finish answers => finished answers
  | _ => True

/-- The session with the terminal handed over to a job. -/
def given (first : WaitAnswers) (added : Session) (job : Job) : Session :=
  giveTerminalTo first added job.pgid
    (if job.hasTerminalModes then some job.terminalModes else none)

/-- Between the calls of `waitpid`: the answers so far lead from the table with
the job added to the present one. -/
def Waiting (added : Session) (id : Int) (session : Session) : Prop :=
  ∃ first waits job control,
    handed first ∧ added.control.findJob id = some job ∧
      session = (given first added job).setControl control ∧
      ∀ rest,
        waitLoop id (waits ++ rest) added.control =
          waitLoop id rest control

/-- The session in each phase of a launch. -/
def Progress (start : Session) (machine : Machine σ) : Prop :=
  match machine.phase with
  | .creating | .forking _ | .grouping _ _ | .closing =>
      machine.session = start
  | .adding => machine.session = start ∧ machine.pids ≠ []
  | .handing _ =>
      jobSystem.LeadsBy (Calls handed finished) start machine.session
  | .waiting id =>
      ∃ added,
        jobSystem.LeadsBy (Calls handed finished) start added ∧
          Waiting handed added id machine.session
  | .returned result =>
      result.exitRequested = false ∧
        jobSystem.LeadsBy (Calls handed finished) start machine.session

variable {handed finished}

/-- One call of job control. -/
theorem leads_perform
    {session next : Session} (operation : Operation)
    (performed : JobOperations.perform session operation = some next)
    (isCall : Calls handed finished operation) :
    jobSystem.LeadsBy (Calls handed finished) session next :=
  .step operation isCall performed

/-- One answer of `waitpid` for a job that is running. -/
theorem waitLoop_step
    {id : Int} {control : JobControl} {job : Job}
    (found : control.findJob id = some job)
    (isRunning : job.state = .running) (rest : List WaitResult) :
    (∀ pid status,
      waitLoop id (.child pid status :: rest) control =
        waitLoop id rest (control.updateProcess pid status)) ∧
      waitLoop id (.interrupted :: rest) control =
        waitLoop id rest control := by
  constructor
  · intro pid status
    rw [waitLoop.eq_def]
    simp only [found, isRunning, if_true]
  · rw [waitLoop.eq_def]
    simp only [found, isRunning, if_true]

theorem Waiting.step
    {added session : Session} {id : Int}
    (waiting : Waiting handed added id session) {result : WaitResult}
    {next : JobControl}
    (consumed :
      ∀ rest,
        waitLoop id (result :: rest) session.control =
          waitLoop id rest next) :
    Waiting handed added id (session.setControl next) := by
  rcases waiting with
    ⟨first, waits, job, control, isHanded, found, rfl, looped⟩
  refine ⟨first, waits ++ [result], job, next, isHanded, found, rfl, ?_⟩
  intro rest
  rw [List.append_assoc, List.singleton_append, looped]
  exact consumed rest

/-- `wait_foreground` behind its loop. -/
def settled (last : WaitAnswers) (id : Int) (session : Session)
    (control : JobControl) : Int × Session :=
  reportWait id
    (reclaimTerminal last
      (saveModes last id
        { session with
          control := control
          terminal := { session.terminal with modes := last.jobModes } }))

theorem awaitJob_lent (first last : WaitAnswers) (waits : List WaitResult)
    (id : Int) (session : Session) :
    awaitJob (lent first last waits) id session =
      (waitLoop id waits session.control).map (settled last id session) :=
  rfl

theorem awaitJob_noChild (last : WaitAnswers) (id : Int)
    (session : Session) :
    awaitJob { last with waits := [.noChild] } id session =
      (waitLoop id [.noChild] session.control).map
        (settled last id session) :=
  rfl

/-- The calls of `waitpid` and the end of the loop are one
`wait_foreground`. -/
theorem Waiting.finish
    {added session : Session} {id : Int}
    (waiting : Waiting handed added id session) {last : WaitAnswers}
    (isFinished : finished last) {report : Int × Session}
    (reported :
      awaitJob { last with waits := [.noChild] } id session =
        some report) :
    jobSystem.LeadsBy (Calls handed finished) added report.2 := by
  rcases waiting with
    ⟨first, waits, job, control, isHanded, found, rfl, looped⟩
  have waited :
      waitForeground (lent first last (waits ++ [.noChild])) id false
        added = some report := by
    have lends :
        waitForeground (lent first last (waits ++ [.noChild])) id false
            added =
          awaitJob (lent first last (waits ++ [.noChild])) id
            (given first added job) := by
      simp only [waitForeground, found]
      rfl
    rw [awaitJob_noChild] at reported
    rw [lends, awaitJob_lent, given, giveTerminalTo_control, looped]
    exact reported
  have performed :
      JobOperations.perform added
          (.waitForeground (lent first last (waits ++ [.noChild])) id
            false) =
        some report.2 := by
    have allowed : ContinuesStopped added id false := nofun
    rw [JobOperations.perform, if_pos allowed, waited]
    rfl
  exact leads_perform _ performed
    ⟨rfl, first, last, _, isHanded, isFinished, rfl⟩

theorem machineStep_wait
    {environment : Environment} {pipeline : Pipeline} {machine : Machine σ}
    {id : Int} (isWaiting : machine.phase = .waiting id)
    (result : WaitResult) :
    machineStep environment pipeline machine (.wait result) =
      waitStep machine id result := by
  simp only [machineStep, isWaiting]

/-- One answer of `waitpid` in the launch machine. -/
theorem waitStep_consumes
    {machine next : Machine σ} {id : Int} {result : WaitResult}
    (stepped : waitStep machine id result = some next) :
    next.phase = machine.phase ∧
      ∃ control,
        next.session = machine.session.setControl control ∧
          ∀ rest,
            waitLoop id (result :: rest) machine.session.control =
              waitLoop id rest control := by
  unfold waitStep at stepped
  split at stepped
  · rename_i found
    split at stepped
    · cases stepped
    · split at stepped
      · rename_i allowed
        cases stepped
        exact ⟨rfl, _, rfl, fun rest =>
          (waitLoop_step found allowed.1 rest).1 _ _⟩
      · cases stepped
  · rename_i found
    split at stepped
    · rename_i isRunning
      cases stepped
      exact ⟨rfl, _, rfl, fun rest => (waitLoop_step found isRunning rest).2⟩
    · cases stepped
  · cases stepped

/-- The job is added with the processes that have been forked. -/
theorem addJob_leads
    {machine : Machine σ} (somebody : machine.pids ≠ [])
    (pipeline : Pipeline) :
    jobSystem.LeadsBy (Calls handed finished) machine.session
      (machine.addJob pipeline).2.session :=
  leads_perform
    (.addJob machine.pgid machine.pids somebody (machine.pids.getLastD 0)
      (Display.formatPipeline pipeline))
    rfl trivial

theorem wait_progress
    {start : Session} {machine next : Machine σ} {id : Int}
    {result : WaitResult}
    (holds : Progress handed finished start machine)
    (isWaiting : machine.phase = .waiting id)
    (stepped : waitStep machine id result = some next) :
    Progress handed finished start next := by
  rw [Progress, isWaiting] at holds
  rcases holds with ⟨added, leads, waiting⟩
  rcases waitStep_consumes stepped with ⟨phase, control, session, consumed⟩
  rw [Progress, phase, isWaiting]
  refine ⟨added, leads, ?_⟩
  rw [session]
  exact waiting.step consumed

theorem step_progress
    {environment : Environment} {pipeline : Pipeline} {start : Session}
    {machine next : Machine σ} {label : Label}
    (holds : Progress handed finished start machine)
    (admits : Admits handed finished label)
    (stepped : machineStep environment pipeline machine label = some next) :
    Progress handed finished start next := by
  have before := holds
  unfold Progress at holds
  cases step_of_launchStep stepped with
  | createPipe isCreating more =>
      rw [isCreating] at holds
      rw [Progress, isCreating]
      exact holds
  | pipeFails isCreating more =>
      rw [isCreating] at holds
      exact ⟨rfl, holds ▸ .refl _ _⟩
  | beginForks isCreating enough =>
      rw [isCreating] at holds
      exact holds
  | skip isForking found empty =>
      rw [isForking] at holds
      exact holds
  | forkFails isForking found nonempty =>
      rw [isForking] at holds
      exact ⟨rfl, holds ▸ .refl _ _⟩
  | fork isForking found nonempty unused =>
      rw [isForking] at holds
      exact holds
  | endForks isForking past =>
      rw [isForking] at holds
      exact holds
  | assignGroup isGrouping =>
      rename_i index pid
      rw [isGrouping] at holds
      rcases assignGroup_fields machine index pid with
        ⟨children, notices, fields⟩
      rw [fields]
      exact holds
  | closeNone isClosing nobody =>
      rw [isClosing] at holds
      exact ⟨rfl, holds ▸ .refl _ _⟩
  | close isClosing somebody =>
      rw [isClosing] at holds
      exact ⟨holds, somebody⟩
  | background isAdding isBackground =>
      rw [isAdding] at holds
      rcases holds with ⟨rfl, somebody⟩
      exact ⟨rfl, addJob_leads somebody pipeline⟩
  | foreground isAdding isForeground =>
      rw [isAdding] at holds
      rcases holds with ⟨rfl, somebody⟩
      exact addJob_leads somebody pipeline
  | handOver answers isHanding found =>
      rename_i id job
      rw [isHanding] at holds
      refine ⟨machine.session, holds, answers, [], job,
        machine.session.control, admits, found, ?_, fun _ => rfl⟩
      rw [← giveTerminalTo_control answers machine.session job.pgid
        (if job.hasTerminalModes then some job.terminalModes else none)]
      rfl
  | waitChild isWaiting found member inGroup reports =>
      rw [machineStep_wait isWaiting] at stepped
      exact wait_progress before isWaiting stepped
  | waitInterrupted isWaiting => exact before
  | finish isWaiting reported =>
      rw [isWaiting] at holds
      rcases holds with ⟨added, leads, waiting⟩
      exact ⟨rfl, leads.trans (waiting.finish admits reported)⟩
  | child member moves => exact holds

/-- A launch is a run of the calls of job control, and never a request to
exit. -/
theorem launchPipeline_leads
    {environment : Environment} {schedule : List Label} {pipeline : Pipeline}
    {shell next : ShellState σ δ} {result : ExecutionResult}
    (admits : ∀ label ∈ schedule, Admits handed finished label)
    (launched :
      launchPipeline environment schedule pipeline shell =
        some (result, next)) :
    result.exitRequested = false ∧
      jobSystem.LeadsBy (Calls handed finished) shell.session
        next.session := by
  rcases Option.bind_eq_some_iff.mp launched with ⟨machine, ran, returned⟩
  have initially :
      Progress handed finished shell.session (launching shell) := rfl
  have progress :
      Progress handed finished shell.session machine :=
    System.run_preserves_allowed (Progress handed finished shell.session)
      (Admits handed finished) step_progress initially admits ran
  unfold Progress at progress
  split at returned
  · rename_i isReturned
    cases returned
    rw [isReturned] at progress
    exact progress
  · cases returned

end Launches

/-! ## The shell around a pipeline -/

/-- A launch closes every descriptor that it opens, on every way out. -/
theorem launchPipeline_table
    {environment : Environment} {schedule : List Label} {pipeline : Pipeline}
    (nonempty : pipeline.commands ≠ []) {shell next : ShellState σ δ}
    {result : ExecutionResult}
    (launched :
      launchPipeline environment schedule pipeline shell =
        some (result, next)) :
    next.table = shell.table := by
  rcases Option.bind_eq_some_iff.mp launched with ⟨machine, ran, returned⟩
  have initially :
      ParentHolds shell.table pipeline.commands.length (launching shell) :=
    ⟨.nil shell.table, List.length_pos_iff.mpr nonempty⟩
  have holds :=
    System.run_preserves
      (ParentHolds shell.table pipeline.commands.length)
      (fun holds stepped =>
        step_parentHolds holds (step_of_launchStep stepped))
      initially ran
  split at returned
  · rename_i isReturned
    cases returned
    apply holds.afterLaunch
    rw [isReturned]
    exact trivial
  · cases returned

section Pipelines

variable {handed finished : WaitAnswers → Prop}

variable (handed finished) in
/-- The answers about the terminal are such answers. -/
def PipelineAnswers.Admitted : PipelineAnswers δ → Prop
  | .parent answers => handed answers.waits ∧ finished answers.waits
  | .launch _ schedule _ => ∀ label ∈ schedule, Admits handed finished label

/-- `jobs`, `fg` and `bg` are one call of job control each. -/
theorem executeJobBuiltin_leads
    {answers : ParentAnswers δ}
    (admitted : handed answers.waits ∧ finished answers.waits)
    {command : Command} {outputFd errorFd : UniqueFd} {status : Int}
    {session next : Session} {texts : List Written}
    (executed :
      executeJobBuiltin answers command outputFd errorFd session =
        some (status, next, texts)) :
    jobSystem.LeadsBy (Calls handed finished) session next := by
  unfold executeJobBuiltin at executed
  dsimp only at executed
  split at executed
  · rcases Option.map_eq_some_iff.mp executed with ⟨_, reaped, ⟨⟩⟩
    exact leads_perform (.reapBackground answers.reap false) reaped trivial
  · split at executed
    · rcases Option.map_eq_some_iff.mp executed with ⟨done, continued, ⟨⟩⟩
      exact leads_perform
        (.foreground answers.reap answers.waits
          (command.args.tail.headD []) (descriptorNumber outputFd)
          (descriptorNumber errorFd))
        (Option.map_eq_some_iff.mpr ⟨done, continued, rfl⟩) admitted
    · split at executed
      · rcases Option.map_eq_some_iff.mp executed with
          ⟨done, continued, ⟨⟩⟩
        exact leads_perform
          (.continueBackground answers.reap answers.continues
            (command.args.tail.headD []) (descriptorNumber outputFd)
            (descriptorNumber errorFd))
          (Option.map_eq_some_iff.mpr ⟨done, continued, rfl⟩) trivial
      · cases executed
        exact .refl _ _

/-- The code that the words behind `exit` ask for. -/
def exitCode : List ByteString → Int
  | [] => 0
  | code :: _ => (stoi code).getD 2

/-- A foreground pipeline that consists of `exit` with a code. -/
def IsExit (pipeline : Pipeline) (code : Int) : Prop :=
  ∃ command args,
    pipeline.commands = [command] ∧ command.args = literal "exit" :: args ∧
      pipeline.background = false ∧ code = exitCode args

/-- The reply to `exit`. -/
theorem executeBuiltin_exit
    {surroundings : Surroundings δ} {rounds : Nat} {command : Command}
    {context : BuiltinContext} {process : Process δ} {reply : Reply δ}
    {args : List ByteString} (words : command.args = literal "exit" :: args)
    (replied :
      executeBuiltin surroundings rounds command context process =
        some reply) :
    reply.result.exitCode = exitCode args := by
  unfold executeBuiltin at replied
  rw [words] at replied
  dsimp only at replied
  iterate 10 rw [if_neg (by decide)] at replied
  rw [if_pos rfl] at replied
  cases replied
  rw [builtinExit, words]
  cases args with
  | nil => rfl
  | cons code rest =>
      dsimp only
      rw [exitCode]
      cases stoi code <;> rfl

/-- Between two states of the shell there are only calls of job control; what
else belongs to the executor is as it was. -/
structure Carried (handed finished : WaitAnswers → Prop)
    (shell next : ShellState σ δ) : Prop where
  table : next.table = shell.table
  group : next.group = shell.group
  session :
    jobSystem.LeadsBy (Calls handed finished) shell.session next.session

theorem Carried.refl (shell : ShellState σ δ) :
    Carried handed finished shell shell :=
  ⟨rfl, rfl, .refl _ _⟩

theorem Carried.trans {shell middle next : ShellState σ δ}
    (first : Carried handed finished shell middle)
    (second : Carried handed finished middle next) :
    Carried handed finished shell next :=
  ⟨second.table.trans first.table, second.group.trans first.group,
    first.session.trans second.session⟩

theorem runsInParent_words
    {pipeline : Pipeline} (inParent : runsInParent pipeline = true) :
    ∃ command name args,
      pipeline.commands = [command] ∧ command.args = name :: args ∧
        pipeline.background = false := by
  rcases ProcessSampling.runsInParent_cases inParent with
    ⟨command, name, args, single, words, -⟩
  refine ⟨command, name, args, single, words, ?_⟩
  rw [runsInParent, single] at inParent
  simp only [words, Bool.and_eq_true, Bool.not_eq_true'] at inParent
  exact inParent.1.1

/-- A pipeline carries the shell on, and only `exit` requests the exit. -/
theorem executePipeline_carried
    {base : Table σ} {shell next : ShellState σ δ}
    (inherited : shell.table = base.map .inherited)
    (standard : ∀ fd, fd < 3 → base.lookup fd ≠ none)
    {answers : PipelineAnswers δ}
    (admitted : answers.Admitted handed finished) {pipeline : Pipeline}
    {result : ExecutionResult}
    (executed :
      executePipeline answers pipeline shell = some (result, next)) :
    Carried handed finished shell next ∧
      (result.exitRequested = true →
        IsExit pipeline result.exitCode) := by
  unfold executePipeline at executed
  split at executed
  · cases executed
    exact ⟨.refl shell, nofun⟩
  · rename_i command rest commands
    split at executed
    · rename_i inParent
      rcases runsInParent_words inParent with
        ⟨only, name, args, single, words, isForeground⟩
      cases commands.symm.trans single
      rcases executeParentBuiltin_outcome inherited standard executed with
        ⟨table, outcome⟩
      cases outcome with
      | gaveUp unmoved =>
          exact ⟨⟨table, unmoved.group, unmoved.session ▸ .refl _ _⟩, nofun⟩
      | job ran unmoved =>
          refine ⟨⟨table, unmoved.group, ?_⟩, nofun⟩
          rw [unmoved.session]
          exact executeJobBuiltin_leads admitted ran
      | builtin opened ran unmoved =>
          refine ⟨⟨table, unmoved.group, unmoved.session ▸ .refl _ _⟩,
            fun exits => ?_⟩
          cases (executeBuiltin_replied words ran).exits.mp exits
          exact ⟨command, args, single, words, isForeground,
            executeBuiltin_exit words ran⟩
    · rcases Option.map_eq_some_iff.mp executed with
        ⟨⟨_, landed⟩, launched, ⟨⟩⟩
      rcases launchPipeline_leads admitted launched with ⟨stays, leads⟩
      have nonempty : pipeline.commands ≠ [] := by
        rw [commands]
        exact List.cons_ne_nil _ _
      have table : landed.table = shell.table :=
        launchPipeline_table nonempty launched
      refine ⟨⟨table, ?_, leads⟩, ?_⟩
      · rcases Option.bind_eq_some_iff.mp launched with
          ⟨machine, -, returned⟩
        split at returned
        · cases returned
          rfl
        · cases returned
      · intro exits
        rw [stays] at exits
        cases exits
    · cases executed

/-! ## The shell around a plan -/

/-- The pipelines that a plan runs, and the result. -/
theorem executePlan_executed
    {plan : ExecutionPlan} {script : List (PipelineAnswers δ)}
    {shell next : ShellState σ δ} {result : ExecutionResult}
    (executed : executePlan plan script shell = some (result, next)) :
    ∃ done,
      Executed scripted (shell, script) done (next, []) ∧
        (done.map Prod.fst).Sublist
          (plan.steps.map PipelineStep.pipeline) ∧
        result = (done.getLast?.map Prod.snd).getD {} ∧
        ∀ earlier ∈ done.dropLast, earlier.2.exitRequested = false := by
  rcases Option.bind_eq_some_iff.mp executed with
    ⟨⟨_, _, leftOver⟩, ran, used⟩
  dsimp only at used
  split at used
  · rename_i isUsed
    cases used
    cases List.isEmpty_iff.mp isUsed
    exact executeLoop_executed ran
  · cases used

/-- One pipeline takes its answers from the front of the script. -/
theorem scripted_eq_some
    {pipeline : Pipeline}
    {state next : ShellState σ δ × List (PipelineAnswers δ)}
    {result : ExecutionResult}
    (ran : scripted pipeline state = some (result, next)) :
    ∃ answers,
      state.2 = answers :: next.2 ∧
        executePipeline answers pipeline state.1 = some (result, next.1) := by
  unfold scripted at ran
  split at ran
  · cases ran
  · rename_i answers later script
    rcases Option.map_eq_some_iff.mp ran with ⟨done, executed, ⟨⟩⟩
    exact ⟨answers, script, executed⟩

/-- Some pipelines of a plan carry the shell on, and leave a part of the
script. -/
theorem Executed.carried
    {base : Table σ}
    (standard : ∀ fd, fd < 3 → base.lookup fd ≠ none)
    {state next : ShellState σ δ × List (PipelineAnswers δ)}
    (admitted : ∀ answers ∈ state.2, answers.Admitted handed finished)
    (inherited : state.1.table = base.map .inherited)
    {done : List (Pipeline × ExecutionResult)}
    (executed : Executed scripted state done next) :
    Carried handed finished state.1 next.1 := by
  induction executed with
  | nil state => exact .refl state.1
  | cons ran rest induction =>
      rcases scripted_eq_some ran with ⟨answers, script, executed⟩
      rw [script] at admitted
      rcases List.forall_mem_cons.mp admitted with ⟨first, others⟩
      rcases executePipeline_carried inherited standard first executed with
        ⟨carried, -⟩
      exact carried.trans
        (induction others (carried.table.trans inherited))

/-- Whatever the answers about the terminal are. -/
theorem PipelineAnswers.admitted_true (answers : PipelineAnswers δ) :
    answers.Admitted (fun _ => True) (fun _ => True) := by
  cases answers with
  | parent answers => exact ⟨trivial, trivial⟩
  | launch environment schedule files =>
      intro label _
      cases label <;> trivial

/-- The only request to exit comes from a foreground `exit`, and nothing runs
behind it. -/
theorem executed_exit
    {base : Table σ}
    (standard : ∀ fd, fd < 3 → base.lookup fd ≠ none)
    {state next : ShellState σ δ × List (PipelineAnswers δ)}
    (inherited : state.1.table = base.map .inherited)
    {done : List (Pipeline × ExecutionResult)}
    (executed : Executed scripted state done next)
    {pipeline : Pipeline} {result : ExecutionResult}
    (isDone : (pipeline, result) ∈ done)
    (exits : result.exitRequested = true) :
    IsExit pipeline result.exitCode := by
  rcases List.append_of_mem isDone with ⟨front, later, rfl⟩
  rcases executed.split with ⟨middle, before, behind⟩
  have reached :=
    before.carried standard (fun answers _ => answers.admitted_true) inherited
  cases behind with
  | cons ran rest =>
      rcases scripted_eq_some ran with ⟨answers, -, executed⟩
      exact (executePipeline_carried (reached.table.trans inherited) standard
        answers.admitted_true executed).2 exits

end Pipelines

end Shell.Pipelines
