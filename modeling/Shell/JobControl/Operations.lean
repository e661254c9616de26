import Shell.JobControl.Table
import Shell.Library.TransitionSystem

/-!
# The operations of job control

The remaining member functions of `JobControl`, over a session that adds the
controlling terminal and the messages written so far to the table.  What the
kernel answers is an argument: the result of each call whose result the code
looks at, and the list of the results of `waitpid`.  A call without a result is
one that has not returned after these answers.  `sigchld_pending` may be set by
the handler at any time, so the value that `reap_background` reads is an
argument as well.
-/

namespace Shell.JobOperations

open Shell.Syntax
open Shell.JobTable
open Shell.TransitionSystem

/-! ## Sessions -/

/-- The texts that job control writes. -/
inductive Message where
  | done (id : Int) (command : ByteString)
  | stopped (id : Int) (command : ByteString)
  | foregrounded (command : ByteString)
  | backgrounded (id : Int) (command : ByteString)
  | noSuchJob (builtin : ByteString)
  | continueFailed
deriving DecidableEq, Repr

/-- `std::to_string`. -/
def decimal (value : Int) : ByteString :=
  literal (toString value)

def Message.text : Message → ByteString
  | .done id command =>
      literal "[" ++ decimal id ++ literal "] Done\t" ++ command ++
        literal "\n"
  | .stopped id command =>
      literal "[" ++ decimal id ++ literal "] Stopped\t" ++ command ++
        literal "\n"
  | .foregrounded command => command ++ literal "\n"
  | .backgrounded id command =>
      literal "[" ++ decimal id ++ literal "] " ++ command ++ literal " &\n"
  | .noSuchJob builtin => builtin ++ literal ": no such job\n"
  | .continueFailed => literal "bg: failed to continue job\n"

/-- A message and the descriptor it was written to. -/
structure Output where
  fd : Int
  message : Message
deriving DecidableEq, Repr

def stdoutFileno : Int := 1

/-- The kernel may give the pid to a new process: no process has it, and no
process group has it as its id. -/
structure FreePid (pids groups : List Int) (pid : Int) : Prop where
  positive : 0 < pid
  noProcess : pid ∉ pids
  noGroup : pid ∉ groups

instance (pids groups : List Int) (pid : Int) :
    Decidable (FreePid pids groups pid) :=
  decidable_of_iff (0 < pid ∧ pid ∉ pids ∧ pid ∉ groups)
    ⟨fun all => ⟨all.1, all.2.1, all.2.2⟩,
      fun free => ⟨free.positive, free.noProcess, free.noGroup⟩⟩

/-- The foreground process group and the modes of the terminal. -/
structure Terminal where
  foregroundGroup : Int
  modes : Termios
deriving DecidableEq, Repr

structure Session where
  control : JobControl
  terminal : Terminal
  output : List Output
  /-- What the calls of `tcsetpgrp` and `tcsetattr` have made of the terminal,
  pair by pair. -/
  installed : List Terminal := []
deriving DecidableEq, Repr

namespace Session

/-- `write_all`. -/
def write (session : Session) (fd : Int) (message : Message) : Session :=
  { session with output := session.output ++ [⟨fd, message⟩] }

def setControl (session : Session) (control : JobControl) : Session :=
  { session with control := control }

/-- A call of `tcsetpgrp` and one of `tcsetattr`. -/
def install (session : Session) (terminal : Terminal) : Session :=
  { session with
    terminal := terminal
    installed := session.installed ++ [terminal] }

@[simp]
theorem write_control (session : Session) (fd : Int) (message : Message) :
    (session.write fd message).control = session.control :=
  rfl

@[simp]
theorem write_output (session : Session) (fd : Int) (message : Message) :
    (session.write fd message).output = session.output ++ [⟨fd, message⟩] :=
  rfl

@[simp]
theorem setControl_control (session : Session) (control : JobControl) :
    (session.setControl control).control = control :=
  rfl

@[simp]
theorem setControl_output (session : Session) (control : JobControl) :
    (session.setControl control).output = session.output :=
  rfl

@[simp]
theorem install_control (session : Session) (terminal : Terminal) :
    (session.install terminal).control = session.control :=
  rfl

@[simp]
theorem install_terminal (session : Session) (terminal : Terminal) :
    (session.install terminal).terminal = terminal :=
  rfl

end Session

/-! ## What the kernel answers -/

/-- What a call of `waitpid` returns. -/
inductive WaitResult where
  | child (pid : Int) (status : WaitStatus)
  | nothing
  | interrupted
  | noChild
  | failed
deriving DecidableEq, Repr

/-- The answers to the calls of one `wait_foreground`. -/
structure WaitAnswers where
  waits : List WaitResult
  killed : Bool := true
  givesGroup : Bool := true
  givesModes : Bool := true
  jobModes : Termios := {}
  readsModes : Bool := true
  reclaimsGroup : Bool := true
  reclaimsModes : Bool := true
deriving DecidableEq, Repr

/-- What one `reap_background` reads from the flag and from `waitpid`. -/
structure ReapAnswers where
  pending : Bool
  waits : List WaitResult
deriving DecidableEq, Repr

/-! ## The terminal -/

/-- `tcsetpgrp` and `tcsetattr`, each of which may fail. -/
def Terminal.set (terminal : Terminal) (setsGroup setsModes : Bool)
    (group : Int) (modes : Option Termios) : Terminal where
  foregroundGroup := if setsGroup then group else terminal.foregroundGroup
  modes := if setsModes then modes.getD terminal.modes else terminal.modes

/-- `JobControl::give_terminal_to`. -/
def giveTerminalTo (answers : WaitAnswers) (session : Session) (pgid : Int)
    (modes : Option Termios) : Session :=
  if session.control.interactive then
    session.install
      (session.terminal.set answers.givesGroup answers.givesModes pgid modes)
  else
    session

/-- `JobControl::reclaim_terminal`. -/
def reclaimTerminal (answers : WaitAnswers) (session : Session) : Session :=
  if session.control.interactive then
    session.install
      (session.terminal.set answers.reclaimsGroup answers.reclaimsModes
        session.control.shellPgid
        (some session.control.shellTerminalModes))
  else
    session

@[simp]
theorem giveTerminalTo_control (answers : WaitAnswers) (session : Session)
    (pgid : Int) (modes : Option Termios) :
    (giveTerminalTo answers session pgid modes).control =
      session.control := by
  unfold giveTerminalTo
  split <;> rfl

@[simp]
theorem giveTerminalTo_output (answers : WaitAnswers) (session : Session)
    (pgid : Int) (modes : Option Termios) :
    (giveTerminalTo answers session pgid modes).output =
      session.output := by
  unfold giveTerminalTo
  split <;> rfl

@[simp]
theorem reclaimTerminal_control (answers : WaitAnswers)
    (session : Session) :
    (reclaimTerminal answers session).control = session.control := by
  unfold reclaimTerminal
  split <;> rfl

/-- The loop of `wait_foreground`. -/
def waitLoop (id : Int) : List WaitResult → JobControl → Option JobControl
  | waits, control =>
    match control.findJob id with
    | none => some control
    | some job =>
      if job.state = .running then
        match waits with
        | [] => none
        | .child pid status :: later =>
            waitLoop id later (control.updateProcess pid status)
        | .interrupted :: later => waitLoop id later control
        | .nothing :: later => waitLoop id later control
        | .noChild :: _ => some control
        | .failed :: _ => some control
      else
        some control

/-- `SIGTSTP` on Linux. -/
def sigtstp : Int := 20

/-- The modes that a stopped foreground job keeps for its next turn. -/
def saveModes (answers : WaitAnswers) (id : Int) (session : Session) :
    Session :=
  match session.control.findJob id with
  | none => session
  | some job =>
    if session.control.interactive ∧ job.state = .stopped ∧
        answers.readsModes then
      session.setControl
        (session.control.modifyJob id fun job =>
          { job with
            terminalModes := session.terminal.modes
            hasTerminalModes := true })
    else
      session

/-- What the report of `wait_foreground` does to the table. -/
def settleJob (id : Int) (control : JobControl) : JobControl :=
  match control.findJob id with
  | none => control
  | some job =>
    if job.state = .stopped then
      control.modifyJob id fun job => { job with stateChanged := false }
    else if job.state = .done then
      control.eraseJob id
    else
      control

/-- The report of `wait_foreground` after the terminal has been reclaimed. -/
def reportWait (id : Int) (session : Session) : Int × Session :=
  match session.control.findJob id with
  | none => (1, session)
  | some job =>
    if job.state = .stopped then
      let status :=
        if job.lastStatus ≠ 0 then job.lastStatus else 128 + sigtstp
      let session := session.write stdoutFileno (.stopped job.id job.command)
      (status, session.setControl (settleJob id session.control))
    else
      (job.lastStatus, session.setControl (settleJob id session.control))

/-- `wait_foreground` from its loop on. -/
def awaitJob (answers : WaitAnswers) (id : Int) (session : Session) :
    Option (Int × Session) :=
  (waitLoop id answers.waits session.control).map fun control =>
    let session :=
      { session with
        control := control
        terminal := { session.terminal with modes := answers.jobModes } }
    reportWait id (reclaimTerminal answers (saveModes answers id session))

/-- `JobControl::wait_foreground`. -/
def waitForeground (answers : WaitAnswers) (id : Int) (continueJob : Bool)
    (session : Session) : Option (Int × Session) :=
  match session.control.findJob id with
  | none => some (1, session)
  | some job =>
    let session :=
      giveTerminalTo answers session job.pgid
        (if job.hasTerminalModes then some job.terminalModes else none)
    if continueJob then
      let session :=
        session.setControl (session.control.modifyJob id Job.resume)
      if answers.killed then
        awaitJob answers id session
      else
        some (1, reclaimTerminal answers session)
    else
      awaitJob answers id session

/-! ## Reaping -/

/-- The loop of `reap_background`. -/
def drain : List WaitResult → JobControl → Option JobControl
  | [], _ => none
  | .child pid status :: later, control =>
      drain later (control.updateProcess pid status)
  | .interrupted :: later, control => drain later control
  | .nothing :: _, control => some control
  | .noChild :: _, control => some control
  | .failed :: _, control => some control

/-- The messages of `notify_and_cleanup_done_jobs`. -/
def notices (jobs : List Job) : List Output :=
  jobs.filterMap fun job =>
    if job.stateChanged then
      match job.state with
      | .done => some ⟨stdoutFileno, .done job.id job.command⟩
      | .stopped => some ⟨stdoutFileno, .stopped job.id job.command⟩
      | .running => none
    else
      none

/-- `JobControl::notify_and_cleanup_done_jobs`. -/
def notifyAndCleanupDoneJobs (session : Session) : Session :=
  { session with
    control := session.control.cleanup
    output := session.output ++ notices session.control.jobs }

/-- The first half of `reap_background`. -/
def collect (answers : ReapAnswers) (control : JobControl) :
    Option JobControl :=
  if answers.pending then drain answers.waits control else some control

/-- `JobControl::reap_background`. -/
def reapBackground (answers : ReapAnswers) (notify : Bool)
    (session : Session) : Option Session :=
  (collect answers session.control).map fun control =>
    let session := session.setControl control
    if notify then notifyAndCleanupDoneJobs session else session

/-! ## Built-in commands -/

/-- `JobControl::foreground`. -/
def foreground (reap : ReapAnswers) (answers : WaitAnswers)
    (spec : ByteString) (outputFd errorFd : Int) (session : Session) :
    Option (Int × Session) :=
  (reapBackground reap false session).bind fun session =>
    match session.control.resolveJob spec with
    | none => some (1, session.write errorFd (.noSuchJob (literal "fg")))
    | some job =>
      if job.state = .done then
        some (1, session.write errorFd (.noSuchJob (literal "fg")))
      else
        waitForeground answers job.id (job.state = .stopped)
          (session.write outputFd (.foregrounded job.command))

/-- `JobControl::continue_background`. -/
def continueBackground (reap : ReapAnswers) (killed : Bool)
    (spec : ByteString) (outputFd errorFd : Int) (session : Session) :
    Option (Int × Session) :=
  (reapBackground reap false session).bind fun session =>
    match session.control.resolveJob spec with
    | none => some (1, session.write errorFd (.noSuchJob (literal "bg")))
    | some job =>
      if job.state = .done then
        some (1, session.write errorFd (.noSuchJob (literal "bg")))
      else if job.state = .stopped then
        if killed then
          some (0,
            (session.setControl
              (session.control.modifyJob job.id Job.resume)).write outputFd
                (.backgrounded job.id job.command))
        else
          some (1, session.write errorFd .continueFailed)
      else
        some (0,
          session.write outputFd (.backgrounded job.id job.command))

/-- `state_name`. -/
def stateName : JobState → ByteString
  | .running => literal "Running"
  | .stopped => literal "Stopped"
  | .done => literal "Done"

/-- `JobControl::render_jobs`. -/
def renderJobs (control : JobControl) : ByteString :=
  let currentId :=
    match control.jobs.reverse.find? fun job => job.state ≠ .done with
    | some job => job.id
    | none => -1
  control.jobs.flatMap fun job =>
    if job.state = .done then
      []
    else
      literal "[" ++ decimal job.id ++ literal "]" ++
        (if job.id = currentId then literal "+ " else literal "  ") ++
        stateName job.state ++ literal "\t" ++ job.command ++ literal "\n"

/-! ## Runs -/

/-- The calls of job control, each with the answers of the kernel. -/
inductive Operation where
  | addJob (pgid : Int) (pids : List Int) (nonempty : pids ≠ [])
      (lastPid : Int) (command : ByteString)
  | updateProcess (pid : Int) (status : WaitStatus)
  | foreground (reap : ReapAnswers) (answers : WaitAnswers)
      (spec : ByteString) (outputFd errorFd : Int)
  | continueBackground (reap : ReapAnswers) (killed : Bool)
      (spec : ByteString) (outputFd errorFd : Int)
  | waitForeground (answers : WaitAnswers) (id : Int) (continueJob : Bool)
  | reapBackground (answers : ReapAnswers) (notify : Bool)

/-- The launch of a job: its group is the one of its first process. -/
def Operation.launch
    (first : Int) (rest : List Int) (lastPid : Int) (command : ByteString) :
    Operation :=
  .addJob first (first :: rest) (List.cons_ne_nil first rest) lastPid command

/-- A continued job is a stopped one, as in every call of the source. -/
def ContinuesStopped (session : Session) (id : Int) (continueJob : Bool) :
    Prop :=
  continueJob = true →
    ∃ job ∈ session.control.findJob id, job.state = .stopped

instance (session : Session) (id : Int) (continueJob : Bool) :
    Decidable (ContinuesStopped session id continueJob) :=
  inferInstanceAs (Decidable (_ → _))

/-- The session after one call. -/
def perform (session : Session) : Operation → Option Session
  | .addJob pgid pids _ lastPid command =>
      some
        (session.setControl
          (session.control.addJob pgid pids lastPid command).2)
  | .updateProcess pid status =>
      some (session.setControl (session.control.updateProcess pid status))
  | .foreground reap answers spec outputFd errorFd =>
      (foreground reap answers spec outputFd errorFd session).map Prod.snd
  | .continueBackground reap killed spec outputFd errorFd =>
      (continueBackground reap killed spec outputFd errorFd session).map
        Prod.snd
  | .waitForeground answers id continueJob =>
      if ContinuesStopped session id continueJob then
        (waitForeground answers id continueJob session).map Prod.snd
      else
        none
  | .reapBackground answers notify =>
      reapBackground answers notify session

/-- The session of a newly built `JobControl`. -/
def Fresh (session : Session) : Prop :=
  session.control.nextJobId = 1 ∧ session.control.jobs = [] ∧
    session.output = []

/-- Job control as a system: the labels are its calls. -/
def jobSystem : System Session Operation where
  initial := Fresh
  step := perform

end Shell.JobOperations
