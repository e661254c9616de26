import Shell.Library.FirstMatch
import Shell.Parsing.Syntax

/-!
# The job table

The data of `job_control.hpp` and the member functions of `JobControl` that
work on the table alone.  A `Job*` of the source is represented by the id of
the job it points to; `TableInvariant` shows that ids identify jobs.  `int`
and `pid_t` are unbounded here: the only one that grows is `next_job_id_`, by
one for each job, and its overflow is not modelled.
-/

namespace Shell.JobTable

open Shell.FirstMatch
open Shell.Syntax

/-! ## Wait statuses -/

/-- The `int` that `waitpid` fills in, decoded as on Linux. -/
abbrev WaitStatus := BitVec 32

/-- `WTERMSIG`. -/
def WaitStatus.termSignal (status : WaitStatus) : Nat :=
  (status &&& 0x7f#32).toNat

/-- `WEXITSTATUS`, and also `WSTOPSIG`. -/
def WaitStatus.exitStatus (status : WaitStatus) : Nat :=
  ((status &&& 0xff00#32) >>> 8).toNat

/-- `WIFEXITED`. -/
def WaitStatus.ifExited (status : WaitStatus) : Bool :=
  status.termSignal = 0

/--
`WIFSIGNALED`: the macro adds one to the low seven bits and keeps the signed
byte that results, so that 127 counts as negative.
-/
def WaitStatus.ifSignaled (status : WaitStatus) : Bool :=
  0 < status.termSignal && status.termSignal < 127

/-- `WIFSTOPPED`. -/
def WaitStatus.ifStopped (status : WaitStatus) : Bool :=
  status &&& 0xff#32 = 0x7f#32

/-- `WIFCONTINUED`. -/
def WaitStatus.ifContinued (status : WaitStatus) : Bool :=
  status = 0xffff#32

/-- A status after which the process is gone. -/
def WaitStatus.terminates (status : WaitStatus) : Bool :=
  status.ifExited || status.ifSignaled

/-- `decode_wait_status`. -/
def decodeWaitStatus (status : WaitStatus) : Int :=
  if status.ifExited then
    status.exitStatus
  else if status.ifSignaled then
    128 + status.termSignal
  else if status.ifStopped then
    128 + status.exitStatus
  else
    0

/-- `wait_status_to_exit_code` of the sandbox and of the tracer. -/
def waitStatusToExitCode (status : WaitStatus) : Int :=
  if status.ifExited then status.exitStatus
  else if status.ifSignaled then 128 + status.termSignal
  else 1

theorem termSignal_of_ifStopped
    {status : WaitStatus} (stopped : status.ifStopped = true) :
    status.termSignal = 127 := by
  have lowByte : status &&& 0xff#32 = 0x7f#32 := of_decide_eq_true stopped
  have lowBits : status &&& 0x7f#32 = 0x7f#32 := by
    calc
      status &&& 0x7f#32 = (status &&& 0xff#32) &&& 0x7f#32 := by
        rw [BitVec.and_assoc]
        rfl
      _ = 0x7f#32 := by
        rw [lowByte]
        rfl
  rw [WaitStatus.termSignal, lowBits]
  rfl

theorem terminates_of_ifStopped
    {status : WaitStatus} (stopped : status.ifStopped = true) :
    status.terminates = false := by
  have signal := termSignal_of_ifStopped stopped
  simp [WaitStatus.terminates, WaitStatus.ifExited, WaitStatus.ifSignaled,
    signal]

theorem decodeWaitStatus_of_ifStopped
    {status : WaitStatus} (stopped : status.ifStopped = true) :
    decodeWaitStatus status = 128 + status.exitStatus := by
  have ends := terminates_of_ifStopped stopped
  simp only [WaitStatus.terminates, Bool.or_eq_false_iff] at ends
  simp [decodeWaitStatus, ends.1, ends.2, stopped]

/-- The code of a process that has ended: what it exited with, or 128 and the
signal that killed it. -/
def EndsAs (status : WaitStatus) (code : Int) : Prop :=
  status.ifExited = true ∧ code = status.exitStatus ∨
    status.ifSignaled = true ∧ code = 128 + status.termSignal

theorem decodeWaitStatus_of_ifExited
    {status : WaitStatus} (exited : status.ifExited = true) :
    decodeWaitStatus status = status.exitStatus :=
  if_pos exited

theorem decodeWaitStatus_of_ifSignaled
    {status : WaitStatus} (signaled : status.ifSignaled = true) :
    decodeWaitStatus status = 128 + status.termSignal := by
  have notExited : ¬ status.ifExited = true := by
    simp only [WaitStatus.ifSignaled, Bool.and_eq_true,
      decide_eq_true_eq] at signaled
    simp only [WaitStatus.ifExited, decide_eq_true_eq]
    omega
  rw [decodeWaitStatus, if_neg notExited, if_pos signaled]

theorem endsAs_iff
    {status : WaitStatus} (ends : status.terminates = true) (code : Int) :
    EndsAs status code ↔ code = decodeWaitStatus status := by
  constructor
  · rintro (⟨exited, rfl⟩ | ⟨signaled, rfl⟩)
    · exact (decodeWaitStatus_of_ifExited exited).symm
    · exact (decodeWaitStatus_of_ifSignaled signaled).symm
  · rintro rfl
    rcases Bool.or_eq_true_iff.mp ends with exited | signaled
    · exact Or.inl ⟨exited, decodeWaitStatus_of_ifExited exited⟩
    · exact Or.inr ⟨signaled, decodeWaitStatus_of_ifSignaled signaled⟩

/-! ## Jobs -/

/-- `ProcessState`. -/
inductive ProcessState where
  | running
  | stopped
  | done
deriving DecidableEq, Repr

/-- `JobState`. -/
inductive JobState where
  | running
  | stopped
  | done
deriving DecidableEq, Repr

/-- `ProcessRecord`. -/
structure ProcessRecord where
  pid : Int := -1
  state : ProcessState := .running
  waitStatus : WaitStatus := 0
deriving DecidableEq, Repr

/-- `termios`; the shell only copies it. -/
structure Termios where
  inputFlags : BitVec 32 := 0
  outputFlags : BitVec 32 := 0
  controlFlags : BitVec 32 := 0
  localFlags : BitVec 32 := 0
  controlCharacters : List UInt8 := []
deriving DecidableEq, Repr

/-- `Job`. -/
structure Job where
  id : Int := 0
  pgid : Int := -1
  processes : List ProcessRecord := []
  lastPid : Int := -1
  command : ByteString := []
  state : JobState := .running
  lastStatus : Int := 0
  stateChanged : Bool := false
  terminalModes : Termios := {}
  hasTerminalModes : Bool := false
deriving DecidableEq, Repr

/-- The data members of `JobControl`. -/
structure JobControl where
  interactive : Bool := false
  shellPgid : Int := -1
  shellTerminalModes : Termios := {}
  nextJobId : Int := 1
  jobs : List Job := []
deriving DecidableEq, Repr

/-! ## Records and states -/

/-- What `update_process` does to the record it has found. -/
def ProcessRecord.update (status : WaitStatus) (process : ProcessRecord) :
    ProcessRecord :=
  { process with
    waitStatus := status
    state :=
      if status.ifExited || status.ifSignaled then .done
      else if status.ifStopped then .stopped
      else if status.ifContinued then .running
      else process.state }

/-- The records after the first one with the pid has been updated. -/
def updateRecords (pid : Int) (status : WaitStatus)
    (processes : List ProcessRecord) : List ProcessRecord :=
  processes.lookmap fun process =>
    if process.pid = pid then some (process.update status) else none

/-- The loop of `recompute_state` and the choice behind it. -/
def recomputedState (job : Job) : JobState :=
  let anyRunning := job.processes.any fun process =>
    process.state = .running
  let anyStopped := job.processes.any fun process =>
    process.state = .stopped
  let allDone := !anyRunning && !anyStopped
  if allDone then .done
  else if anyRunning then .running
  else if anyStopped then .stopped
  else job.state

/-- `JobControl::recompute_state`. -/
def recomputeState (job : Job) : Job :=
  let state := recomputedState job
  { job with
    state := state
    stateChanged := if state ≠ job.state then true else job.stateChanged }

/-- A record of the job has the pid. -/
def Job.HasPid (pid : Int) (job : Job) : Prop :=
  ∃ process ∈ job.processes, process.pid = pid

instance (pid : Int) (job : Job) : Decidable (job.HasPid pid) :=
  inferInstanceAs (Decidable (∃ process ∈ job.processes, process.pid = pid))

/-- The body of the loop of `update_process` for a job with the pid. -/
def Job.updated (pid : Int) (status : WaitStatus) (job : Job) : Job :=
  recomputeState
    { job with
      processes := updateRecords pid status job.processes
      lastStatus :=
        if pid = job.lastPid ∧ status.ifContinued = false then
          decodeWaitStatus status
        else
          job.lastStatus }

/-- One iteration of the loop of `update_process`. -/
def Job.updateProcess (pid : Int) (status : WaitStatus) (job : Job) :
    Option Job :=
  if job.HasPid pid then some (job.updated pid status) else none

/-- What `fg` and `bg` do to the records and the state of a job. -/
def Job.resume (job : Job) : Job :=
  { job with
    processes :=
      job.processes.map fun process =>
        if process.state = .stopped then
          { process with state := .running }
        else
          process
    state := .running
    stateChanged := false }

/-! ## The table -/

namespace JobControl

/-- `JobControl::add_job`. -/
def addJob (control : JobControl) (pgid : Int) (pids : List Int)
    (lastPid : Int) (command : ByteString) : Int × JobControl :=
  let job : Job :=
    { id := control.nextJobId
      pgid := pgid
      processes := pids.map fun pid => ⟨pid, .running, 0⟩
      lastPid := lastPid
      command := command }
  (job.id,
    { control with
      nextJobId := control.nextJobId + 1
      jobs := control.jobs ++ [job] })

/-- `JobControl::find_job`. -/
def findJob (control : JobControl) (id : Int) : Option Job :=
  control.jobs.find? fun job => job.id = id

/-- Writing through the pointer that `find_job` returns. -/
def modifyJob (control : JobControl) (id : Int) (change : Job → Job) :
    JobControl :=
  { control with
    jobs :=
      control.jobs.lookmap fun job =>
        if job.id = id then some (change job) else none }

/-- `JobControl::update_process`. -/
def updateProcess (control : JobControl) (pid : Int) (status : WaitStatus) :
    JobControl :=
  { control with
    jobs := control.jobs.lookmap (Job.updateProcess pid status) }

/-- The erasure at the end of `wait_foreground`. -/
def eraseJob (control : JobControl) (id : Int) : JobControl :=
  { control with
    jobs := control.jobs.filter fun job => job.id ≠ id }

/-- A job that `notify_and_cleanup_done_jobs` writes out as done. -/
def Announces (job : Job) : Prop :=
  job.stateChanged = true ∧ job.state = .done

instance (job : Job) : Decidable (Announces job) :=
  inferInstanceAs (Decidable (_ ∧ _))

/-- The table after `notify_and_cleanup_done_jobs`. -/
def cleanup (control : JobControl) : JobControl :=
  let doneIds := (control.jobs.filter Announces).map Job.id
  let acknowledged := control.jobs.map fun job =>
    if job.stateChanged ∧ job.state ≠ .done then
      { job with stateChanged := false }
    else
      job
  { control with
    jobs := acknowledged.filter fun job => job.id ∉ doneIds }

end JobControl

/-! ## Job specifications -/

/-- The decimal digit a byte stands for. -/
def digitValue (character : UInt8) : Option Nat :=
  if 0x30 ≤ character ∧ character ≤ 0x39 then
    some (character.toNat - 0x30)
  else
    none

/-- The digits at the front of a text: their value, their number and what
follows them. -/
def scanDigits : Nat → ByteString → Nat × Nat × ByteString
  | value, [] => (value, 0, [])
  | value, character :: rest =>
      match digitValue character with
      | none => (value, 0, character :: rest)
      | some digit =>
          let (value, count, rest) := scanDigits (10 * value + digit) rest
          (value, count + 1, rest)

/-- The limits between which `strtol` saturates. -/
def clampLong (value : Int) : Int :=
  max (-0x8000000000000000) (min 0x7fffffffffffffff value)

/--
`strtol` with base ten on a text without NUL bytes: the value and the text
behind the numeral, or nothing when there is no numeral.
-/
def strtol (text : ByteString) : Option (Int × ByteString) :=
  let text := text.dropWhile isSpace
  let (negative, text) :=
    match text with
    | 0x2d :: rest => (true, rest)
    | 0x2b :: rest => (false, rest)
    | _ => (false, text)
  match scanDigits 0 text with
  | (_, 0, _) => none
  | (value, _, rest) =>
      some (clampLong (if negative then -(value : Int) else value), rest)

/-- The conversion of a `long` to an `int`. -/
def toInt32 (value : Int) : Int :=
  Int.bmod value 0x100000000

/-- `parse_job_id`. -/
def parseJobId (spec : ByteString) : Option Int :=
  if spec = [] ∨ spec = literal "%+" then
    none
  else
    let text :=
      match spec with
      | 0x25 :: rest => rest
      | _ => spec
    if text = [] then
      none
    else
      -- `c_str` shows `strtol` the text up to its first NUL byte.
      match strtol (text.takeWhile fun character => character ≠ 0) with
      | none => some (-1)
      | some (value, rest) =>
          if rest ≠ [] ∨ value ≤ 0 then some (-1)
          else some (toInt32 value)

/-- `JobControl::resolve_job`. -/
def JobControl.resolveJob (control : JobControl) (spec : ByteString) :
    Option Job :=
  match parseJobId spec with
  | some id => if id < 0 then none else control.findJob id
  | none => control.jobs.reverse.find? fun job => job.state ≠ .done

/-! ## Which jobs the table has after a change -/

namespace JobControl

theorem mem_updateProcess
    {control : JobControl} {pid : Int} {status : WaitStatus} {job : Job}
    (member : job ∈ (control.updateProcess pid status).jobs) :
    job ∈ control.jobs ∨
      ∃ source ∈ control.jobs, job = source.updated pid status := by
  rcases mem_of_mem_lookmap member with old | ⟨source, isMember, updated⟩
  · exact Or.inl old
  · unfold Job.updateProcess at updated
    split at updated
    · exact Or.inr ⟨source, isMember, (Option.some.inj updated).symm⟩
    · cases updated

theorem mem_updateProcess_of_mem
    {control : JobControl} {job : Job} (member : job ∈ control.jobs)
    (pid : Int) (status : WaitStatus) :
    job ∈ (control.updateProcess pid status).jobs ∨
      job.updated pid status ∈ (control.updateProcess pid status).jobs := by
  rcases mem_lookmap_of_mem member with kept | ⟨new, updated, isMember⟩
  · exact Or.inl kept
  · unfold Job.updateProcess at updated
    split at updated
    · cases updated
      exact Or.inr isMember
    · cases updated

theorem mem_modifyJob
    {control : JobControl} {id : Int} {change : Job → Job} {job : Job}
    (member : job ∈ (control.modifyJob id change).jobs) :
    job ∈ control.jobs ∨
      ∃ source ∈ control.jobs, source.id = id ∧ job = change source := by
  rcases mem_of_mem_lookmap member with old | ⟨source, isMember, updated⟩
  · exact Or.inl old
  · split at updated
    · rename_i sameId
      exact Or.inr
        ⟨source, isMember, sameId, (Option.some.inj updated).symm⟩
    · cases updated

theorem mem_modifyJob_of_mem
    {control : JobControl} {job : Job} (member : job ∈ control.jobs)
    (id : Int) (change : Job → Job) :
    job ∈ (control.modifyJob id change).jobs ∨
      change job ∈ (control.modifyJob id change).jobs := by
  rcases mem_lookmap_of_mem member with kept | ⟨new, updated, isMember⟩
  · exact Or.inl kept
  · split at updated
    · cases updated
      exact Or.inr isMember
    · cases updated

end JobControl

end Shell.JobTable
