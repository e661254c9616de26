import Shell.Resource.Execution
import Shell.Sandbox.Handshake
import Shell.Sandbox.Namespaces
import Shell.Trace.Accounting
import Shell.Trace.Arguments

/-!
# The status of a program

A program can be run as a command, by `run`, by `trace` and by `sandbox`.  In
the last two there are other processes between it and the shell: each of them
waits for one process and exits with a code that is made of its status.  The
shell decodes the status of the outermost process.  What it gets is what it
would have got from the program itself, however many processes there are in
between.
-/

namespace Shell.ProgramStatus

open Shell.Syntax
open Shell.JobTable
open Shell.TransitionSystem
open Shell.PathSearch
open Shell.SandboxNamespaces

/-! ## Becoming a program -/

/-- How a process ends that searches for a program and executes it: what it
writes first, and its status.  The program itself ends with the given status. -/
def execOrExit (complaint : ByteString → ByteString → ByteString)
    (environment : PathSearch.Environment) (error : Option ByteString)
    (args : List ByteString) (ran : WaitStatus) :
    Option ByteString × WaitStatus :=
  let name := args.headD []
  if findExecutable environment name = [] then
    (some (name ++ literal ": command not found\n"), exitedWith 127)
  else
    match error with
    | none => (none, ran)
    | some reason => (some (complaint name reason), exitedWith 126)

/-- `exec_external_child`. -/
def execExternalChild :=
  execOrExit fun name _ => literal "Error executing " ++ name ++ literal "\n"

/-- `exec_program` of the sandbox. -/
def execProgram :=
  execOrExit fun name reason =>
    literal "sandbox: exec " ++ name ++ literal ": " ++ reason ++
      literal "\n"

/-- `exec_tracee`, behind the stop that it begins with. -/
def execTracee :=
  execOrExit fun name reason =>
    literal "trace: exec " ++ name ++ literal ": " ++ reason ++ literal "\n"

/-- The code that the shell is to get: 127 if the program is not found, 126 if
it cannot be executed, and otherwise what the program exited with, or 128 and
the signal that killed it. -/
def CodeOf (environment : PathSearch.Environment) (error : Option ByteString)
    (args : List ByteString) (ran : WaitStatus) (code : Int) : Prop :=
  if findExecutable environment (args.headD []) = [] then
    code = 127
  else if error.isSome then
    code = 126
  else
    EndsAs ran code

/-- The message does not matter for the status. -/
theorem codeOf_execOrExit
    (complaint : ByteString → ByteString → ByteString)
    (environment : PathSearch.Environment) (error : Option ByteString)
    (args : List ByteString) {ran : WaitStatus}
    (terminates : ran.terminates = true) :
    (execOrExit complaint environment error args ran).2.terminates = true ∧
      CodeOf environment error args ran
        (decodeWaitStatus
          (execOrExit complaint environment error args ran).2) := by
  unfold execOrExit CodeOf
  dsimp only
  split_ifs with missing failed
  · show (exitedWith 127).terminates = true ∧
      decodeWaitStatus (exitedWith 127) = 127
    decide +kernel
  · rcases Option.isSome_iff_exists.mp failed with ⟨reason, rfl⟩
    show (exitedWith 126).terminates = true ∧
      decodeWaitStatus (exitedWith 126) = 126
    decide +kernel
  · rw [Option.not_isSome_iff_eq_none.mp failed]
    exact ⟨terminates, (endsAs_iff terminates _).mpr rfl⟩

/-! ## Processes in between -/

/-- A process that has waited for another one and exited with the code that
`wait_status_to_exit_code` makes of its status. -/
def relay (status : WaitStatus) : WaitStatus :=
  exitedWith (waitStatusToExitCode status)

theorem exitedWith_code :
    ∀ code : Fin 256,
      (exitedWith code.val).ifExited = true ∧
        (exitedWith code.val).exitStatus = code.val := by
  decide +kernel

theorem exitStatus_lt (status : WaitStatus) : status.exitStatus < 256 := by
  have masked : (status &&& 0xff00#32).toNat ≤ 0xff00 := by
    rw [BitVec.toNat_and]
    exact Nat.and_le_right
  rw [WaitStatus.exitStatus, BitVec.toNat_ushiftRight,
    Nat.shiftRight_eq_div_pow]
  omega

/-- The code of a process that is gone fits into its status. -/
theorem exitCode_of_terminates
    {status : WaitStatus} (terminates : status.terminates = true) :
    ∃ code : Fin 256,
      waitStatusToExitCode status = code.val ∧
        decodeWaitStatus status = code.val := by
  rw [WaitStatus.terminates, Bool.or_eq_true] at terminates
  by_cases exited : status.ifExited = true
  · refine ⟨⟨status.exitStatus, exitStatus_lt status⟩, ?_, ?_⟩
    · rw [waitStatusToExitCode, if_pos exited]
    · rw [decodeWaitStatus, if_pos exited]
  · have signaled := terminates.resolve_left exited
    have small : status.termSignal < 127 := by
      rw [WaitStatus.ifSignaled, Bool.and_eq_true, decide_eq_true_iff,
        decide_eq_true_iff] at signaled
      exact signaled.2
    refine ⟨⟨128 + status.termSignal, by omega⟩, ?_, ?_⟩
    · rw [waitStatusToExitCode, if_neg exited, if_pos signaled]
      exact (Nat.cast_add 128 status.termSignal).symm
    · rw [decodeWaitStatus, if_neg exited, if_pos signaled]
      exact (Nat.cast_add 128 status.termSignal).symm

/-- One process in between changes nothing for the shell. -/
theorem decode_relay
    {status : WaitStatus} (terminates : status.terminates = true) :
    (relay status).terminates = true ∧
      decodeWaitStatus (relay status) = decodeWaitStatus status := by
  rcases exitCode_of_terminates terminates with ⟨code, isCode, decoded⟩
  rcases exitedWith_code code with ⟨exited, isStatus⟩
  rw [relay, isCode]
  constructor
  · rw [WaitStatus.terminates, exited, Bool.true_or]
  · rw [decodeWaitStatus, if_pos exited, isStatus, decoded]

/-! ## The tracer -/

/-- Without `WCONTINUED`, `waitpid` reports stops and the end of the process. -/
def Reports (final : WaitStatus) (label : TraceMachine.Label) : Prop :=
  ∀ status, label = .wait (.changed status) →
    status.ifStopped = true ∨ status = final

/-- The phase goes with the end of the tracee. -/
def EndsWith (final : WaitStatus) (tracer : TraceMachine.Tracer) : Prop :=
  ∀ code, tracer.phase = .returned code → code = waitStatusToExitCode final

theorem handleChange_endsWith
    {final status : WaitStatus} {summary : Bool}
    {tracer : TraceMachine.Tracer}
    (reports : status.ifStopped = true ∨ status = final) :
    EndsWith final (TraceMachine.handleChange summary tracer status) := by
  unfold TraceMachine.handleChange
  split_ifs with terminates
  · rcases reports with stopped | rfl
    · rw [terminates_of_ifStopped stopped] at terminates
      cases terminates
    · intro code returned
      exact (TraceMachine.Phase.returned.inj returned).symm
  all_goals exact nofun

theorem traceStep_endsWith
    {strerror : Nat → ByteString} {summary : Bool} {final : WaitStatus}
    {tracer next : TraceMachine.Tracer} {label : TraceMachine.Label}
    (succeeds : TraceAccounting.Succeeds label)
    (reports : Reports final label)
    (ends : EndsWith final tracer)
    (stepped : TraceMachine.traceStep strerror summary tracer label =
      some next) :
    EndsWith final next := by
  unfold TraceMachine.traceStep at stepped
  split at stepped
  · cases succeeds
  · cases stepped
    exact nofun
  · cases stepped
    exact ends
  · exact succeeds.elim
  · split at stepped
    · rename_i notStopped
      cases stepped
      intro code returned
      have isFinal := (reports _ rfl).resolve_left (by simpa using notStopped)
      rw [← isFinal]
      exact (TraceMachine.Phase.returned.inj returned).symm
    · cases stepped
      exact nofun
  · cases succeeds
  · cases stepped
    exact nofun
  · cases stepped
    exact nofun
  · exact succeeds.elim
  · exact succeeds.elim
  · cases stepped
    exact ends
  · exact succeeds.elim
  · cases stepped
    exact handleChange_endsWith (reports _ rfl)
  · exact succeeds.elim
  · cases stepped
    exact nofun
  · split at stepped
    · cases stepped
      exact nofun
    · cases stepped
      exact nofun
  · cases stepped
    exact nofun
  · cases stepped

/-- If its calls succeed, the tracer returns nothing but the code of the end of
the tracee. -/
theorem tracer_returns
    {strerror : Nat → ByteString} {summary : Bool} {final : WaitStatus}
    {labels : List TraceMachine.Label} {tracer : TraceMachine.Tracer}
    (succeeds : ∀ label ∈ labels, TraceAccounting.Succeeds label)
    (reports : ∀ label ∈ labels, Reports final label)
    (ran :
      (TraceMachine.traceProcess strerror summary).run {} labels =
        some tracer)
    {code : Int} (returned : tracer.phase = .returned code) :
    code = waitStatusToExitCode final := by
  have initially : EndsWith final {} := by
    intro code isReturned
    cases isReturned
  have ends : EndsWith final tracer :=
    System.run_preserves_allowed (EndsWith final)
      (fun label => TraceAccounting.Succeeds label ∧ Reports final label)
      (fun ends allowed stepped =>
        traceStep_endsWith allowed.1 allowed.2 ends stepped)
      initially
      (fun label isLabel =>
        ⟨succeeds label isLabel, reports label isLabel⟩) ran
  exact ends code returned

/-! ## The sandbox -/

/-- The status of the worker of a sandbox whose program ends with a status: it
is the program, or it waits for the process that is. -/
def workerStatus (kernel : SandboxNamespaces.Kernel)
    (outcome : SandboxNamespaces.Outcome) (program : WaitStatus) :
    Option WaitStatus :=
  match outcome with
  | .ended _ _ => none
  | .execs _ => some program
  | .waits _ (.ok _) =>
      some (relay (if kernel.waitFails then 0 else program))
  | .waits _ (.error _) => none

theorem decode_workerStatus
    {kernel : SandboxNamespaces.Kernel}
    {outcome : SandboxNamespaces.Outcome} {program status : WaitStatus}
    (waits : kernel.waitFails = false)
    (terminates : program.terminates = true)
    (isStatus : workerStatus kernel outcome program = some status) :
    status.terminates = true ∧
      decodeWaitStatus status = decodeWaitStatus program := by
  unfold workerStatus at isStatus
  split at isStatus
  · cases isStatus
  · cases isStatus
    exact ⟨terminates, rfl⟩
  · rw [waits, if_neg Bool.false_ne_true] at isStatus
    cases isStatus
    exact decode_relay terminates
  · cases isStatus

/-- The supervisor can wait, and the worker ends only by itself. -/
def Undisturbed (status : WaitStatus) : Handshake.Label → Prop
  | .wait (.failed _) => False
  | .perish => False
  | .finish ended => ended = status
  | _ => True

/-- Where the worker and the supervisor are, once the worker has entered. -/
structure Inside (status : WaitStatus) (machine : Handshake.Machine) :
    Prop where
  worker :
    machine.entered = true →
      machine.worker = .inside ∨ machine.worker = .ended status
  supervisor :
    machine.sent = true → ∀ code, machine.supervisor = .returned code →
      ∃ ended,
        machine.worker = .ended ended ∧ code = waitStatusToExitCode ended

section Handshake

variable {status : WaitStatus} {machine next : Handshake.Machine}
  {label : Handshake.Label}

theorem inside_supervisorStep
    (holds : Handshake.Invariant machine) (inside : Inside status machine)
    (undisturbed : Undisturbed status label)
    (stepped : Handshake.SupervisorStep machine label next) :
    Inside status next := by
  have agrees := holds.supervisor.agrees
  rcases inside with ⟨worker, supervisor⟩
  -- A return before the token is sent has no worker inside.
  have early :
      machine.sent = false → next.sent = machine.sent →
        next.entered = machine.entered → next.worker = machine.worker →
          Inside status next := by
    intro notSent sameSent sameEntered sameWorker
    refine ⟨fun isEntered => ?_, fun isSent => ?_⟩
    · rw [sameWorker]
      exact worker (sameEntered ▸ isEntered)
    · rw [sameSent, notSent] at isSent
      cases isSent
  cases stepped with
  | create isPhase | createFails isPhase | pipe isPhase | pipeFails isPhase
  | forkFails isPhase | resetRead isPhase | attach isPhase
  | attachFails isPhase | killUnattached isPhase | closeUnattached isPhase
  | waitUnattached isPhase | sendFails isPhase | killUnsent isPhase =>
      rw [isPhase] at agrees
      exact early agrees.2 rfl rfl rfl
  | fork isPhase =>
      rw [isPhase] at agrees
      have notEntered : machine.entered = true → False := by
        intro isEntered
        have isSent := holds.token.entered isEntered
        rw [agrees.2] at isSent
        cases isSent
      exact ⟨fun isEntered => (notEntered isEntered).elim, nofun⟩
  | send isPhase | close isPhase => exact ⟨worker, nofun⟩
  | waitInterrupted isPhase => exact ⟨worker, supervisor⟩
  | waitFails isPhase => exact undisturbed.elim
  | wait isPhase hasEnded =>
      refine ⟨worker, fun isSent code isReturned => ⟨_, hasEnded, ?_⟩⟩
      exact (Handshake.SupervisorPhase.returned.inj isReturned).symm
  | die => exact ⟨worker, supervisor⟩

theorem inside_workerStep
    (inside : Inside status machine) (undisturbed : Undisturbed status label)
    (stepped : Handshake.WorkerStep machine label next) :
    Inside status next := by
  rcases inside with ⟨worker, supervisor⟩
  -- A worker that still moves has not been waited for.
  have notEnded : ∀ ended, machine.worker ≠ .ended ended := by
    intro ended isEnded
    cases stepped with
    | perish isKilled born running => exact running ended isEnded
    | noteParent isPhase | prctl isPhase | prctlFails isPhase
    | orphaned isPhase | checkParent isPhase | resetWrite isPhase
    | readInterrupted isPhase | readFails isPhase | readToken isPhase
    | readEnd isPhase | refused isPhase | enter isPhase
    | finish isPhase => exact nomatch isPhase.symm.trans isEnded
  have waits :
      machine.sent = true → ∀ code, machine.supervisor ≠ .returned code := by
    intro isSent code isReturned
    rcases supervisor isSent code isReturned with ⟨ended, isEnded, -⟩
    exact notEnded ended isEnded
  -- Before it enters, there is nothing to say about it.
  have outside :
      ∀ {phase}, machine.worker = phase → phase ≠ .inside →
        next.entered = machine.entered →
          next.entered = true → next.worker = .inside ∨
            next.worker = .ended status := by
    intro phase isPhase notInside sameEntered isEntered
    rcases worker (sameEntered ▸ isEntered) with isInside | isEnded
    · exact absurd (isPhase.symm.trans isInside) notInside
    · exact absurd isEnded (notEnded status)
  cases stepped with
  | enter isPhase =>
      exact ⟨fun _ => Or.inl rfl, fun isSent code isReturned =>
        absurd isReturned (waits isSent code)⟩
  | finish isPhase terminates =>
      cases undisturbed
      exact ⟨fun _ => Or.inr rfl, fun isSent code isReturned =>
        absurd isReturned (waits isSent code)⟩
  | perish => exact undisturbed.elim
  | noteParent isPhase | prctl isPhase | prctlFails isPhase
  | orphaned isPhase | checkParent isPhase | resetWrite isPhase
  | readInterrupted isPhase | readFails isPhase | readToken isPhase
  | readEnd isPhase | refused isPhase =>
      exact ⟨outside isPhase nofun rfl, fun isSent code isReturned =>
        absurd isReturned (waits isSent code)⟩

/-- A supervisor whose worker has entered returns the code of the end of the
worker. -/
theorem supervisor_returns
    {start : Handshake.Machine} {labels : List Handshake.Label}
    (isStart : Handshake.handshake.initial start)
    (undisturbed : ∀ label ∈ labels, Undisturbed status label)
    (ran : Handshake.handshake.run start labels = some machine)
    (entered : machine.entered = true) {code : Int}
    (returned : machine.supervisor = .returned code) :
    code = waitStatusToExitCode status := by
  have initially :
      Handshake.Invariant start ∧ Inside status start := by
    refine ⟨Handshake.IsStart.invariant isStart, ?_⟩
    rcases isStart with ⟨host, config, rfl⟩
    exact ⟨nofun, nofun⟩
  have final :
      Handshake.Invariant machine ∧ Inside status machine :=
    System.run_preserves_allowed
      (fun machine => Handshake.Invariant machine ∧ Inside status machine)
      (Undisturbed status)
      (fun {machine label next} holds allowed stepped => by
        refine ⟨holds.1.step stepped, ?_⟩
        rcases Handshake.machineStep_cases stepped with ⟨-, step⟩ | step
        · exact inside_supervisorStep holds.1 holds.2 allowed step
        · exact inside_workerStep holds.2 allowed step)
      initially undisturbed ran
  have sent := final.1.token.entered entered
  rcases final.2.supervisor sent code returned with ⟨ended, isEnded, isCode⟩
  rcases final.2.worker entered with isInside | isStatus
  · exact nomatch isInside.symm.trans isEnded
  · cases isStatus.symm.trans isEnded
    exact isCode

end Handshake

/-! ## Every way to run a program -/

/-- The status of a process that runs `execute_resource_run_child`. -/
def runStatus (outcome : ResourceExecution.Outcome) (ran : WaitStatus) :
    WaitStatus :=
  match outcome.status with
  | none => ran
  | some code => exitedWith code

theorem runStatus_execProgram
    (kernel : ResourceExecution.Kernel)
    (environment : PathSearch.Environment) (args : List ByteString)
    (child : ResourceExecution.Child) (ran : WaitStatus) :
    runStatus (ResourceExecution.execProgram kernel environment args child)
        ran =
      (execExternalChild environment kernel.execv args ran).2 := by
  unfold ResourceExecution.execProgram execExternalChild execOrExit
  dsimp only
  split_ifs
  · rfl
  · cases kernel.execv <;> rfl

/-- The code that `execute_trace_child` returns, once `trace_process` has come
to its end. -/
def traceCode (strerror : Nat → ByteString) (command : Command)
    (labels : List TraceMachine.Label) : Option Int :=
  match TraceArguments.executeTraceChild command with
  | .returned status _ _ => some status
  | .traces config =>
      match (TraceMachine.traceProcess strerror config.summary).run {}
          labels with
      | some { phase := .returned status, .. } => some status
      | _ => none

theorem tracer_of_traceCode
    {strerror : Nat → ByteString} {command : Command}
    {labels : List TraceMachine.Label} {code : Int}
    (accepted : (TraceArguments.parseTrace command).error = [])
    (noHelp : (TraceArguments.parseTrace command).config.showHelp = false)
    (isCode : traceCode strerror command labels = some code) :
    ∃ tracer,
      (TraceMachine.traceProcess strerror
          (TraceArguments.parseTrace command).config.summary).run {}
          labels = some tracer ∧
        tracer.phase = .returned code := by
  have starts :
      TraceArguments.executeTraceChild command =
        .traces (TraceArguments.parseTrace command).config := by
    simp [TraceArguments.executeTraceChild,
      TraceArguments.TraceParseResult.ok, accepted, noHelp]
  rw [traceCode, starts] at isCode
  dsimp only at isCode
  split at isCode
  · rename_i ran
    cases isCode
    exact ⟨_, ran, rfl⟩
  · cases isCode

/--
The shell gets the same status from a program whether it is a command of its
own or is run with `run`, `trace` or `sandbox`: 127 if it is not found, 126 if
it cannot be executed, and otherwise what the program exits with, or 128 and
the signal that kills it.  This holds for every run of the tracer whose calls
succeed, and for every run of supervisor and worker in which the worker is
released and neither of them is killed, with and without a PID namespace.
-/
theorem program_status_preserved
    (environment : PathSearch.Environment) (error : Option ByteString)
    (args : List ByteString) {ran : WaitStatus}
    (terminates : ran.terminates = true) :
    CodeOf environment error args ran
        (decodeWaitStatus
          (execExternalChild environment error args ran).2) ∧
      (∀ (kernel : ResourceExecution.Kernel) (command : Command)
          (child limited ready : ResourceExecution.Child),
        kernel.execv = error →
        (ResourceOptions.parseResourceRun command).error = [] →
        (ResourceOptions.parseResourceRun command).config.showHelp = false →
        (ResourceOptions.parseResourceRun command).config.programArgs =
          args →
        ResourceExecution.applyLimits kernel
            (ResourceExecution.limitRequests
              (ResourceOptions.parseResourceRun command).config) child =
          (true, limited) →
        ResourceExecution.applyNice kernel
            (ResourceOptions.parseResourceRun command).config limited =
          (true, ready) →
        CodeOf environment error args ran
          (decodeWaitStatus
            (runStatus
              (ResourceExecution.executeResourceRunChild kernel environment
                command child) ran))) ∧
      (∀ strerror command labels code,
        (TraceArguments.parseTrace command).error = [] →
        (TraceArguments.parseTrace command).config.showHelp = false →
        (TraceArguments.parseTrace command).config.programArgs = args →
        (∀ label ∈ labels, TraceAccounting.Succeeds label) →
        (∀ label ∈ labels,
          Reports (execTracee environment error args ran).2 label) →
        traceCode strerror command labels = some code →
        CodeOf environment error args ran
          (decodeWaitStatus (exitedWith code))) ∧
      ∀ config kernel worker status start labels machine code,
        kernel.waitFails = false →
        workerStatus kernel
            (SandboxNamespaces.runInsideNamespaces config kernel worker)
            (execProgram environment error args ran).2 =
          some status →
        Handshake.handshake.initial start →
        (∀ label ∈ labels, Undisturbed status label) →
        Handshake.handshake.run start labels = some machine →
        machine.entered = true →
        machine.supervisor = .returned code →
        CodeOf environment error args ran
          (decodeWaitStatus (exitedWith code)) := by
  have became := fun complaint =>
    codeOf_execOrExit complaint environment error args terminates
  refine ⟨(became _).2, ?_, ?_, ?_⟩
  · rintro kernel command child limited ready rfl accepted noHelp rfl
      limits nice
    have reached :
        ResourceExecution.executeResourceRunChild kernel environment command
            child =
          ResourceExecution.execProgram kernel environment
            (ResourceOptions.parseResourceRun command).config.programArgs
            ready := by
      rw [ResourceExecution.executeResourceRunChild]
      simp only [accepted, noHelp, ne_eq, not_true_eq_false, if_false,
        Bool.false_eq_true, limits, nice]
    rw [reached, runStatus_execProgram]
    exact (became _).2
  · intro strerror command labels code accepted noHelp isProgram succeeds
      reports isCode
    rcases tracer_of_traceCode accepted noHelp isCode with
      ⟨tracer, ran, returned⟩
    rcases became _ with ⟨ends, expected⟩
    rw [tracer_returns succeeds reports ran returned]
    exact (decode_relay ends).2.symm ▸ expected
  · intro config kernel worker status start labels machine code waits
      isStatus isStart undisturbed ran entered returned
    rw [supervisor_returns isStart undisturbed ran entered returned]
    rcases became _ with ⟨terminated, expected⟩
    rcases decode_workerStatus waits terminated isStatus with ⟨ends, decoded⟩
    exact ((decode_relay ends).2.trans decoded).symm ▸ expected

/-- `trace -- env`. -/
def sampleTraced : Command :=
  { args := [literal "trace", literal "--", literal "env"] }

/-- The tracee stops before it is executed and is ended by the signal 15. -/
def sampleTrace : List TraceMachine.Label :=
  [.fork none, .wait (.changed 0x137f#32), .setOptions none,
    .resume .succeeded, .wait (.changed 0x0f#32)]

/-- The worker is released, and its init process is ended by the signal 15. -/
def sampleSandbox : List Handshake.Label :=
  [.create, .pipe none, .fork (.ok 41), .noteParent, .prctl true,
    .checkParent, .workerResetWrite, .resetRead, .attach, .send true,
    .read .delivered, .workerResetRead, .resetWrite, .finish 0x8f00#32,
    .wait .reaped]

/-- The status 143 of the program under `trace` and in a PID namespace. -/
theorem program_status_preserved_sample :
    (∃ code,
        traceCode (fun _ => []) sampleTraced sampleTrace = some code ∧
          decodeWaitStatus (exitedWith code) = 143) ∧
      ∃ machine code,
        Handshake.handshake.run
            { host := Handshake.sampleHost
              config := SandboxNamespaces.procConfig } sampleSandbox =
            some machine ∧
          machine.supervisor = .returned code ∧
          decodeWaitStatus (exitedWith code) = 143 := by
  have terminates : WaitStatus.terminates 0x0f#32 = true := by decide +kernel
  have isFound :
      findExecutable ResourceExecution.sampleEnvironment (literal "env") ≠
        [] := by
    decide +kernel
  have killed :
      ∀ {code},
        CodeOf ResourceExecution.sampleEnvironment none [literal "env"]
            0x0f#32 code →
          code = 143 := by
    intro code isCode
    rw [CodeOf, List.headD_cons, if_neg isFound, Option.isSome_none,
      if_neg Bool.false_ne_true, endsAs_iff terminates] at isCode
    exact isCode.trans (by decide +kernel)
  rcases program_status_preserved ResourceExecution.sampleEnvironment none
    [literal "env"] terminates with ⟨-, -, traced, confined⟩
  constructor
  · have isCode :
        traceCode (fun _ => []) sampleTraced sampleTrace = some 143 := by
      decide +kernel
    refine ⟨143, isCode,
      killed (traced _ sampleTraced sampleTrace 143 (by decide +kernel)
        (by decide +kernel) (by decide +kernel) ?_ ?_ isCode)⟩
    · simp [sampleTrace, TraceAccounting.Succeeds]
    · intro label isLabel status isWait
      subst isWait
      simp only [sampleTrace, List.mem_cons, List.not_mem_nil, reduceCtorEq,
        TraceMachine.Label.wait.injEq, TraceMachine.WaitAnswer.changed.injEq,
        or_false, false_or] at isLabel
      rcases isLabel with rfl | rfl
      · exact Or.inl (by decide +kernel)
      · exact Or.inr (by decide +kernel)
  · have ends :
        (Handshake.handshake.run
            { host := Handshake.sampleHost
              config := SandboxNamespaces.procConfig }
            sampleSandbox).map
          (fun machine => (machine.supervisor, machine.entered)) =
          some (.returned 143, true) := by
      decide +kernel
    rcases Option.map_eq_some_iff.mp ends with ⟨machine, ran, seen⟩
    rcases Prod.mk.inj seen with ⟨returned, entered⟩
    have isStatus :
        workerStatus SandboxNamespaces.sampleKernel
            (SandboxNamespaces.runInsideNamespaces
              SandboxNamespaces.procConfig SandboxNamespaces.sampleKernel
              { hostname := literal "host" })
            (execProgram ResourceExecution.sampleEnvironment none
              [literal "env"] 0x0f#32).2 = some 0x8f00#32 := by
      decide +kernel
    refine ⟨machine, 143, ran, returned,
      killed (confined _ _ _ 0x8f00#32 _ sampleSandbox machine 143 rfl
        isStatus ⟨_, _, rfl⟩ ?_ ran entered returned)⟩
    intro label isLabel
    simp only [sampleSandbox, List.mem_cons, List.not_mem_nil,
      or_false] at isLabel
    rcases isLabel with rfl | rfl | rfl | rfl | rfl | rfl | rfl | rfl | rfl |
      rfl | rfl | rfl | rfl | rfl | rfl
    all_goals first | exact True.intro | exact rfl

end Shell.ProgramStatus
