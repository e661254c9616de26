import Shell.Library.Guarded
import Shell.Sandbox.Handshake

/-!
# Inside the namespaces

`run_inside_namespaces`, which the worker runs once it is released, with
`map_current_user_to_root` and `probe_unshare_flags`.  Every system call is
made once at most, so the answers of the kernel are a record with one field
for each.  A process is represented by what it has brought about for itself;
the first process of a new PID namespace starts as a copy of the worker.
-/

namespace Shell.SandboxNamespaces

open Shell.Syntax
open Shell.JobTable
open Shell.JobOperations
open Shell.Guarded
open Shell.SandboxOptions
open Shell.Handshake

/-! ## Processes and answers -/

inductive Namespace where
  | user
  | pid
  | mount
  | network
  | uts
deriving DecidableEq, Repr

/-- The files that map the user into the user namespace. -/
inductive MapFile where
  | setgroups
  | uidMap
  | gidMap
deriving DecidableEq, Repr

def MapFile.path : MapFile → ByteString
  | .setgroups => literal "/proc/self/setgroups"
  | .uidMap => literal "/proc/self/uid_map"
  | .gidMap => literal "/proc/self/gid_map"

/-- What is written to the error output. -/
inductive Report where
  | unshareUser (reason : ByteString)
  | mapFile (file : MapFile) (reason : ByteString)
  | setIds (reason : ByteString)
  | unshare (reason : ByteString)
  | makePrivate (reason : ByteString)
  | setHostname (reason : ByteString)
  | forkInit (reason : ByteString)
  | procRequiresMount
  | mountProc (reason : ByteString)
  | procRequiresPid
deriving DecidableEq, Repr

def Report.text : Report → ByteString
  | .unshareUser reason =>
      literal "sandbox: unshare user namespace: " ++ reason ++ literal "\n"
  | .mapFile file reason =>
      literal "sandbox: " ++ (file.path ++ literal ": " ++ reason) ++
        literal "\n"
  | .setIds reason =>
      literal "sandbox: setresuid/setresgid: " ++ reason ++ literal "\n"
  | .unshare reason =>
      literal "sandbox: unshare namespaces: " ++ reason ++ literal "\n"
  | .makePrivate reason =>
      literal "sandbox: make mounts private: " ++ reason ++ literal "\n"
  | .setHostname reason =>
      literal "sandbox: sethostname: " ++ reason ++ literal "\n"
  | .forkInit reason =>
      literal "sandbox: fork pid-namespace init: " ++ reason ++ literal "\n"
  | .procRequiresMount =>
      literal "sandbox: --proc requires --mount (or --all)\n"
  | .mountProc reason =>
      literal "sandbox: mount /proc: " ++ reason ++ literal "\n"
  | .procRequiresPid => literal "sandbox: --proc requires --pid\n"

/-- How the probing child ends for its parent. -/
inductive Probe where
  | forkFails
  | waitFails
  | ended (status : WaitStatus)
deriving DecidableEq, Repr

/-- The answers of the kernel; an error is given by its text. -/
structure Kernel where
  uid : Nat
  gid : Nat
  probe : Probe
  unshareUser : Option ByteString
  /-- Whether `/proc/self/setgroups` exists, or nothing if the test throws. -/
  setgroupsExists : Option Bool
  openError : MapFile → Option ByteString
  setresgid : Option ByteString
  setresuid : Option ByteString
  unshare : Option ByteString
  makePrivate : Option ByteString
  setHostname : Option ByteString
  fork : Option ByteString
  prctl : Bool
  /-- The two calls of `getppid` in the init process agree. -/
  sameParent : Bool
  mountProc : Option ByteString
  /-- `waitpid` for the init process fails other than by an interruption. -/
  waitFails : Bool

structure Process where
  entered : List Namespace := []
  /-- The namespaces that the children of the process will be in. -/
  forChildren : List Namespace := []
  mountsPrivate : Bool := false
  hostname : ByteString
  freshProc : Bool := false
  /-- The calls of `unshare(CLONE_NEWUSER)`. -/
  userAttempts : Nat := 0
  mapWrites : List (MapFile × ByteString) := []
  reports : List Report := []
deriving DecidableEq, Repr

/-- How a process ends before `exec_program`. -/
inductive Ending where
  | exited (status : Int)
  /-- An exception that nobody catches. -/
  | aborted
deriving DecidableEq, Repr

/-- A part of the code, which goes on or ends the process. -/
def Stage :=
  Process → Except (Ending × Process) Process

namespace Process

def report (process : Process) (report : Report) : Process :=
  { process with reports := process.reports ++ [report] }

/-- A successful `unshare`; a new PID namespace is for the children. -/
def unshare (process : Process) (namespaces : List Namespace) : Process :=
  { process with
    entered :=
      process.entered ++ namespaces.filter fun space => space ≠ .pid
    forChildren :=
      process.forChildren ++ namespaces.filter fun space => space = .pid }

/-- A new child process. -/
def child (process : Process) : Process :=
  { process with
    entered := process.entered ++ process.forChildren
    userAttempts := 0
    mapWrites := []
    reports := [] }

end Process

/-- A call, its effect if it succeeds, and otherwise a report and the end with
status 1. -/
def require (answer : Option ByteString) (report : ByteString → Report)
    (effect : Process → Process) : Stage := fun process =>
  match answer with
  | some reason => .error (.exited 1, process.report (report reason))
  | none => .ok (effect process)

/-! ## The code -/

/-- The flags of `run_inside_namespaces`. -/
def flags (config : SandboxConfig) : List Namespace :=
  (if config.mountNamespace then [.mount] else []) ++
    ((if config.networkNamespace then [.network] else []) ++
      ((if config.utsNamespace then [.uts] else []) ++
        (if config.pidNamespace then [.pid] else [])))

/-- `probe_unshare_flags`, for a child that ends like this. -/
def probeUnshareFlags : Probe → Bool
  | .forkFails => false
  | .waitFails => false
  | .ended status => status.ifExited && status.exitStatus = 0

/-- `write_text_file` for a file of the user map.  It sees whether the file can
be opened; what the kernel says to the text is seen by nobody. -/
def writeMapFile (kernel : Kernel) (file : MapFile) (data : ByteString) :
    Stage :=
  require (kernel.openError file) (.mapFile file) fun process =>
    { process with mapWrites := process.mapWrites ++ [(file, data)] }

/-- The denial of `setgroups` where the file exists. -/
def denySetgroups (kernel : Kernel) : Stage := fun process =>
  match kernel.setgroupsExists with
  | none => .error (.aborted, process)
  | some false => .ok process
  | some true => writeMapFile kernel .setgroups (literal "deny") process

/-- `map_current_user_to_root`; its caller turns a false result into the
status 1. -/
def mapCurrentUserToRoot (kernel : Kernel) : Stage := fun process => do
  let process ←
    require kernel.unshareUser .unshareUser (·.unshare [.user])
      { process with userAttempts := process.userAttempts + 1 }
  let process ← denySetgroups kernel process
  let process ←
    writeMapFile kernel .uidMap
      (literal "0 " ++ decimal kernel.uid ++ literal " 1\n") process
  let process ←
    writeMapFile kernel .gidMap
      (literal "0 " ++ decimal kernel.gid ++ literal " 1\n") process
  require (kernel.setresgid <|> kernel.setresuid) .setIds id process

/-- The test `use_user_namespace`. -/
def usesUserNamespace (config : SandboxConfig) (kernel : Kernel) : Bool :=
  let needsPrivilegedNamespace := flags config ≠ []
  let directNamespacesPermitted :=
    !needsPrivilegedNamespace || probeUnshareFlags kernel.probe
  config.userNamespace ||
    (needsPrivilegedNamespace && !directNamespacesPermitted)

def enterUserNamespace (config : SandboxConfig) (kernel : Kernel) : Stage :=
  fun process =>
    if usesUserNamespace config kernel then
      mapCurrentUserToRoot kernel process
    else
      .ok process

def unshareFlags (config : SandboxConfig) (kernel : Kernel) : Stage :=
  fun process =>
    if flags config ≠ [] then
      require kernel.unshare .unshare (·.unshare (flags config)) process
    else
      .ok process

def makeMountsPrivate (config : SandboxConfig) (kernel : Kernel) : Stage :=
  fun process =>
    if config.mountNamespace then
      require kernel.makePrivate .makePrivate
        (fun process => { process with mountsPrivate := true }) process
    else
      .ok process

def setHostname (config : SandboxConfig) (kernel : Kernel) : Stage :=
  fun process =>
    if config.utsNamespace && config.hostname ≠ [] then
      require kernel.setHostname .setHostname
        (fun process => { process with hostname := config.hostname }) process
    else
      .ok process

/-- The part of `run_inside_namespaces` in front of the fork. -/
def prepare (config : SandboxConfig) (kernel : Kernel) : Stage :=
  fun process => do
    let process ← enterUserNamespace config kernel process
    let process ← unshareFlags config kernel process
    let process ← makeMountsPrivate config kernel process
    setHostname config kernel process

def checkParent (kernel : Kernel) : Stage := fun process =>
  if kernel.prctl = false ∨ kernel.sameParent = false then
    .error (.exited 1, process)
  else
    .ok process

def mountProc (config : SandboxConfig) (kernel : Kernel) : Stage :=
  fun process =>
    if config.mountProc then
      if config.mountNamespace = false then
        .error (.exited 2, process.report .procRequiresMount)
      else
        require kernel.mountProc .mountProc
          (fun process => { process with freshProc := true }) process
    else
      .ok process

/-- The init process of a new PID namespace, up to `exec_program`. -/
def runInit (config : SandboxConfig) (kernel : Kernel) : Stage :=
  fun process => do
    let process ← checkParent kernel process
    mountProc config kernel process

/-- What becomes of the worker. -/
inductive Outcome where
  | ended (ending : Ending) (worker : Process)
  | execs (worker : Process)
  | waits (worker : Process) (init : Except (Ending × Process) Process)
deriving DecidableEq, Repr

/-- `run_inside_namespaces`. -/
def runInsideNamespaces (config : SandboxConfig) (kernel : Kernel)
    (worker : Process) : Outcome :=
  match prepare config kernel worker with
  | .error (ending, worker) => .ended ending worker
  | .ok worker =>
      if config.pidNamespace then
        match kernel.fork with
        | some reason => .ended (.exited 1) (worker.report (.forkInit reason))
        | none => .waits worker (runInit config kernel worker.child)
      else if config.mountProc then
        .ended (.exited 2) (worker.report .procRequiresPid)
      else
        .execs worker

/-! ## What the stages establish -/

/-- The two complaints about `--proc`. -/
def Report.aboutProc : Report → Bool
  | .procRequiresMount | .procRequiresPid => true
  | _ => false

/-- So many user namespaces were tried, and nothing was said about the options
of `--proc`. -/
structure Orderly (attempts : Nat) (process : Process) : Prop where
  attempts : process.userAttempts = attempts
  reports : ∀ report ∈ process.reports, report.aboutProc = false

/-- An orderly end with a failure. -/
def Refused (attempts : Nat) (refusal : Ending × Process) : Prop :=
  (refusal.1 = .exited 1 ∨ refusal.1 = .aborted) ∧
    Orderly attempts refusal.2

theorem Orderly.report
    {attempts : Nat} {process : Process} (orderly : Orderly attempts process)
    {report : Report} (other : report.aboutProc = false) :
    Orderly attempts (process.report report) := by
  constructor
  · exact orderly.attempts
  · intro earlier isReport
    rcases List.mem_append.mp isReport with isEarlier | isLast
    · exact orderly.reports earlier isEarlier
    · rw [List.mem_singleton.mp isLast]
      exact other

theorem require_meets
    {attempts : Nat} {process : Process} {onValue : Process → Prop}
    {report : ByteString → Report} {effect : Process → Process}
    (orderly : Orderly attempts process)
    (other : ∀ reason, (report reason).aboutProc = false)
    (done : onValue (effect process)) (answer : Option ByteString) :
    Meets (Refused attempts) onValue
      (require answer report effect process) := by
  cases answer with
  | some reason => exact ⟨Or.inl rfl, orderly.report (other reason)⟩
  | none => exact done

/-- The user namespace was entered with one attempt, if there was to be one. -/
structure UserEntered (attempts : Nat) (process : Process) : Prop where
  orderly : Orderly attempts process
  user : attempts ≠ 0 → .user ∈ process.entered

theorem UserEntered.writeMapFile
    {attempts : Nat} {process : Process}
    (holds : UserEntered attempts process) (kernel : Kernel)
    (file : MapFile) (data : ByteString) :
    Meets (Refused attempts) (UserEntered attempts)
      (writeMapFile kernel file data process) :=
  require_meets holds.orderly (fun _ => rfl)
    ⟨⟨holds.orderly.attempts, holds.orderly.reports⟩, holds.user⟩ _

theorem UserEntered.denySetgroups
    {attempts : Nat} {process : Process}
    (holds : UserEntered attempts process) (kernel : Kernel) :
    Meets (Refused attempts) (UserEntered attempts)
      (denySetgroups kernel process) := by
  unfold SandboxNamespaces.denySetgroups
  split
  · exact ⟨Or.inr rfl, holds.orderly⟩
  · exact holds
  · exact holds.writeMapFile kernel _ _

theorem mapCurrentUserToRoot_meets
    {process : Process} (fresh : Orderly 0 process) (kernel : Kernel) :
    Meets (Refused 1) (UserEntered 1)
      (mapCurrentUserToRoot kernel process) := by
  have attempted :
      Orderly 1
        { process with userAttempts := process.userAttempts + 1 } :=
    ⟨congrArg (· + 1) fresh.attempts, fresh.reports⟩
  apply Meets.bind
  · apply require_meets attempted (fun _ => rfl)
    show UserEntered 1 _
    refine ⟨⟨attempted.attempts, attempted.reports⟩, fun _ => ?_⟩
    exact List.mem_append_right _ List.mem_cons_self
  intro process entered
  apply Meets.bind (entered.denySetgroups kernel)
  intro process entered
  apply Meets.bind (entered.writeMapFile kernel _ _)
  intro process entered
  apply Meets.bind (entered.writeMapFile kernel _ _)
  intro process entered
  exact require_meets entered.orderly (fun _ => rfl) entered _

/-- The calls of `unshare(CLONE_NEWUSER)` that are to be made. -/
def userAttempts (config : SandboxConfig) (kernel : Kernel) : Nat :=
  (usesUserNamespace config kernel).toNat

theorem enterUserNamespace_meets
    {process : Process} (fresh : Orderly 0 process)
    (config : SandboxConfig) (kernel : Kernel) :
    Meets (Refused (userAttempts config kernel))
      (UserEntered (userAttempts config kernel))
      (enterUserNamespace config kernel process) := by
  unfold enterUserNamespace userAttempts
  split_ifs with uses
  · rw [uses]
    exact mapCurrentUserToRoot_meets fresh kernel
  · rw [Bool.not_eq_true] at uses
    rw [uses]
    exact ⟨fresh, fun attempted => absurd rfl attempted⟩

/-- The namespaces of the flags were entered, as far as a process can. -/
structure Unshared (attempts : Nat) (config : SandboxConfig)
    (process : Process) : Prop extends UserEntered attempts process where
  own : ∀ space ∈ flags config, space ≠ .pid → space ∈ process.entered
  children : .pid ∈ flags config → .pid ∈ process.forChildren

theorem UserEntered.unshareFlags
    {attempts : Nat} {process : Process}
    (holds : UserEntered attempts process)
    (config : SandboxConfig) (kernel : Kernel) :
    Meets (Refused attempts) (Unshared attempts config)
      (unshareFlags config kernel process) := by
  unfold SandboxNamespaces.unshareFlags
  split_ifs with requested
  · apply require_meets holds.orderly (fun _ => rfl)
    refine ⟨⟨⟨holds.orderly.attempts, holds.orderly.reports⟩, ?_⟩, ?_, ?_⟩
    · intro attempted
      exact List.mem_append_left _ (holds.user attempted)
    · intro space isFlag notPid
      exact List.mem_append_right _
        (List.mem_filter.mpr ⟨isFlag, decide_eq_true notPid⟩)
    · intro isFlag
      exact List.mem_append_right _
        (List.mem_filter.mpr ⟨isFlag, decide_eq_true rfl⟩)
  · rw [not_not] at requested
    refine ⟨holds, ?_, ?_⟩ <;> rw [requested] <;> exact nofun

structure MountsSeparate (attempts : Nat) (config : SandboxConfig)
    (process : Process) : Prop extends Unshared attempts config process where
  mounts : config.mountNamespace = true → process.mountsPrivate = true

theorem Unshared.makeMountsPrivate
    {attempts : Nat} {config : SandboxConfig} {process : Process}
    (holds : Unshared attempts config process) (kernel : Kernel) :
    Meets (Refused attempts) (MountsSeparate attempts config)
      (makeMountsPrivate config kernel process) := by
  unfold SandboxNamespaces.makeMountsPrivate
  split_ifs with requested
  · apply require_meets holds.orderly (fun _ => rfl)
    exact ⟨⟨⟨⟨holds.orderly.attempts, holds.orderly.reports⟩, holds.user⟩,
      holds.own, holds.children⟩, fun _ => rfl⟩
  · exact ⟨holds, fun isMount => absurd isMount requested⟩

/-- Everything is in place in front of the fork. -/
structure Prepared (attempts : Nat) (config : SandboxConfig)
    (process : Process) : Prop
    extends MountsSeparate attempts config process where
  hostname :
    config.hostname ≠ [] → process.hostname = config.hostname

theorem MountsSeparate.setHostname
    {attempts : Nat} {config : SandboxConfig} {process : Process}
    (runnable : Runnable config)
    (holds : MountsSeparate attempts config process) (kernel : Kernel) :
    Meets (Refused attempts) (Prepared attempts config)
      (setHostname config kernel process) := by
  unfold SandboxNamespaces.setHostname
  split_ifs with requested
  · apply require_meets holds.orderly (fun _ => rfl)
    exact ⟨⟨⟨⟨⟨holds.orderly.attempts, holds.orderly.reports⟩, holds.user⟩,
      holds.own, holds.children⟩, holds.mounts⟩, fun _ => rfl⟩
  · refine ⟨holds, fun given => absurd ?_ requested⟩
    rw [runnable.hostname given, Bool.true_and]
    exact decide_eq_true given

theorem prepare_meets
    {config : SandboxConfig} {process : Process}
    (runnable : Runnable config) (fresh : Orderly 0 process)
    (kernel : Kernel) :
    Meets (Refused (userAttempts config kernel))
      (Prepared (userAttempts config kernel) config)
      (prepare config kernel process) := by
  apply Meets.bind (enterUserNamespace_meets fresh config kernel)
  intro process entered
  apply Meets.bind (entered.unshareFlags config kernel)
  intro process unshared
  apply Meets.bind (unshared.makeMountsPrivate kernel)
  intro process separate
  exact separate.setHostname runnable kernel

/-! ## The program -/

/-- The options ask for the namespace. -/
def asksFor (config : SandboxConfig) : Namespace → Bool
  | .user => config.userNamespace
  | .pid => config.pidNamespace
  | .mount => config.mountNamespace
  | .network => config.networkNamespace
  | .uts => config.utsNamespace

/-- The namespaces that the options ask for. -/
def requested (config : SandboxConfig) : List Namespace :=
  [.user, .pid, .mount, .network, .uts].filter (asksFor config)

/-- Everything that the options ask for is in force for the process. -/
structure Isolated (config : SandboxConfig) (process : Process) : Prop where
  namespaces : ∀ space ∈ requested config, space ∈ process.entered
  mounts : config.mountNamespace = true → process.mountsPrivate = true
  hostname :
    config.hostname ≠ [] → process.hostname = config.hostname
  proc : config.mountProc = true → process.freshProc = true

/-- What is not a flag of `unshare` is the user namespace. -/
theorem mem_requested (config : SandboxConfig) (space : Namespace) :
    space ∈ requested config ↔
      (space = .user ∧ config.userNamespace = true) ∨
        space ∈ flags config := by
  cases space <;> simp [requested, asksFor, flags]

theorem pid_mem_flags (config : SandboxConfig) :
    .pid ∈ flags config ↔ config.pidNamespace = true := by
  simp [flags]

theorem userAttempts_ne_zero (config : SandboxConfig) (kernel : Kernel) :
    userAttempts config kernel ≠ 0 ↔
      config.userNamespace = true ∨
        flags config ≠ [] ∧ probeUnshareFlags kernel.probe = false := by
  unfold userAttempts usesUserNamespace
  cases config.userNamespace <;> cases probeUnshareFlags kernel.probe <;>
    by_cases noFlags : flags config = [] <;> simp [noFlags]

/-- A requested namespace was entered, or is there for the children. -/
theorem Prepared.requested
    {config : SandboxConfig} {kernel : Kernel} {process : Process}
    (holds : Prepared (userAttempts config kernel) config process)
    {space : Namespace} (isRequested : space ∈ requested config) :
    space ∈ process.entered ∨
      config.pidNamespace = true ∧ space ∈ process.forChildren := by
  rcases (mem_requested config space).mp isRequested with
    ⟨rfl, chosen⟩ | isFlag
  · exact Or.inl
      (holds.user ((userAttempts_ne_zero _ _).mpr (Or.inl chosen)))
  · by_cases isPid : space = .pid
    · subst isPid
      exact Or.inr ⟨(pid_mem_flags config).mp isFlag, holds.children isFlag⟩
    · exact Or.inl (holds.own space isFlag isPid)

/-- Without a PID namespace the worker itself is isolated. -/
theorem Prepared.isolated
    {config : SandboxConfig} {kernel : Kernel} {process : Process}
    (holds : Prepared (userAttempts config kernel) config process)
    (noPid : config.pidNamespace = false) (noProc : config.mountProc = false) :
    Isolated config process where
  namespaces := by
    intro space isRequested
    rcases holds.requested isRequested with isEntered | ⟨isPid, _⟩
    · exact isEntered
    · exact absurd isPid (Bool.eq_false_iff.mp noPid)
  mounts := holds.mounts
  hostname := holds.hostname
  proc := fun isProc => absurd isProc (Bool.eq_false_iff.mp noProc)

/-- The init process is isolated when it comes to `exec_program`. -/
theorem Prepared.runInit
    {config : SandboxConfig} {kernel : Kernel} {process : Process}
    (runnable : Runnable config)
    (holds : Prepared (userAttempts config kernel) config process) :
    Meets (Refused 0)
      (fun init => Orderly 0 init ∧ Isolated config init)
      (runInit config kernel process.child) := by
  have orderly : Orderly 0 process.child := ⟨rfl, nofun⟩
  have namespaces :
      ∀ space ∈ SandboxNamespaces.requested config,
        space ∈ process.child.entered := by
    intro space isRequested
    rcases holds.requested isRequested with isEntered | ⟨_, forChildren⟩
    · exact List.mem_append_left _ isEntered
    · exact List.mem_append_right _ forChildren
  have checked :
      Meets (Refused 0) (· = process.child)
        (checkParent kernel process.child) := by
    unfold checkParent
    split_ifs
    · exact ⟨Or.inl rfl, orderly⟩
    · exact rfl
  apply Meets.bind checked
  rintro _ rfl
  unfold mountProc
  split_ifs with isProc noMount
  · exact absurd (runnable.proc isProc).2 (Bool.eq_false_iff.mp noMount)
  · apply require_meets orderly (fun _ => rfl)
    exact ⟨⟨rfl, nofun⟩, namespaces, holds.mounts, holds.hostname,
      fun _ => rfl⟩
  · exact ⟨orderly, namespaces, holds.mounts, holds.hostname,
      fun wanted => absurd wanted isProc⟩

namespace Outcome

/-- The process that calls `exec_program`. -/
def execIn : Outcome → Option Process
  | .execs worker => some worker
  | .waits _ (.ok init) => some init
  | _ => none

def processes : Outcome → List Process
  | .ended _ worker => [worker]
  | .execs worker => [worker]
  | .waits worker (.ok init) => [worker, init]
  | .waits worker (.error (_, init)) => [worker, init]

end Outcome

/-- The status of a process that has exited with the status of a function. -/
def exitedWith (status : Int) : WaitStatus :=
  BitVec.ofInt 32 (status % 256 * 256)

/-- The statuses with which a process can end; a signal may end it at any
time. -/
def Ending.Leaves (ending : Ending) (status : WaitStatus) : Prop :=
  status.ifSignaled = true ∨
    match ending with
    | .exited code => status = exitedWith code
    | .aborted => False

/-- The statuses with which the init process can end. -/
def InitEnds (init : Except (Ending × Process) Process)
    (status : WaitStatus) : Prop :=
  match init with
  | .error (ending, _) => ending.Leaves status
  | .ok _ => status.terminates = true

/-- The statuses with which the worker can end. -/
def Outcome.WorkerEnds (kernel : Kernel) (outcome : Outcome)
    (status : WaitStatus) : Prop :=
  match outcome with
  | .ended ending _ => ending.Leaves status
  | .execs _ => status.terminates = true
  | .waits _ init =>
      -- Without an answer of `waitpid` the variable keeps its zero.
      ∃ initStatus,
        (if kernel.waitFails then initStatus = 0
          else InitEnds init initStatus) ∧
        (Ending.exited (waitStatusToExitCode initStatus)).Leaves status

theorem exitedWith_ne_zero
    {status : Int} (positive : 0 < status) (small : status < 256) :
    exitedWith status ≠ 0 := by
  intro isZero
  have value := congrArg BitVec.toNat isZero
  simp only [exitedWith, BitVec.toNat_ofInt] at value
  simp at value
  omega

theorem ne_zero_of_ifSignaled
    {status : WaitStatus} (signaled : status.ifSignaled = true) :
    status ≠ 0 := by
  rintro rfl
  revert signaled
  decide

theorem waitStatusToExitCode_ifSignaled
    {status : WaitStatus} (signaled : status.ifSignaled = true) :
    0 < waitStatusToExitCode status ∧ waitStatusToExitCode status < 256 := by
  have range := signaled
  simp only [WaitStatus.ifSignaled, Bool.and_eq_true, decide_eq_true_eq]
    at range
  have notExited : ¬ status.ifExited = true := by
    simp only [WaitStatus.ifExited, decide_eq_true_eq]
    omega
  rw [waitStatusToExitCode, if_neg notExited, if_pos signaled]
  omega

theorem Refused.leaves
    {attempts : Nat} {ending : Ending} {process : Process}
    (refused : Refused attempts (ending, process)) {status : WaitStatus}
    (leaves : ending.Leaves status) :
    status.ifSignaled = true ∨ status = exitedWith 1 := by
  rcases leaves with signaled | exits
  · exact Or.inl signaled
  · rcases refused.1 with isOne | isAborted
    · cases isOne
      exact Or.inr exits
    · cases isAborted
      cases exits

/-- A refused process does not end with the status 0. -/
theorem Refused.status_ne_zero
    {attempts : Nat} {ending : Ending} {process : Process}
    (refused : Refused attempts (ending, process)) {status : WaitStatus}
    (leaves : ending.Leaves status) :
    status ≠ 0 := by
  rcases refused.leaves leaves with signaled | rfl
  · exact ne_zero_of_ifSignaled signaled
  · decide

/-- The exit code that the worker makes of the end of a refused init. -/
theorem Refused.exitCode
    {attempts : Nat} {ending : Ending} {process : Process}
    (refused : Refused attempts (ending, process)) {status : WaitStatus}
    (leaves : ending.Leaves status) :
    0 < waitStatusToExitCode status ∧ waitStatusToExitCode status < 256 := by
  rcases refused.leaves leaves with signaled | rfl
  · exact waitStatusToExitCode_ifSignaled signaled
  · decide

theorem Ending.Leaves.ne_zero
    {code : Int} {status : WaitStatus}
    (leaves : (Ending.exited code).Leaves status)
    (positive : 0 < code) (small : code < 256) :
    status ≠ 0 := by
  rcases leaves with signaled | exits
  · exact ne_zero_of_ifSignaled signaled
  · rw [exits]
    exact exitedWith_ne_zero positive small

/-! ## Failing closed -/

/-- What is known of an outcome for an accepted configuration. -/
structure FailsClosed (config : SandboxConfig) (kernel : Kernel)
    (outcome : Outcome) : Prop where
  isolated :
    ∀ process, outcome.execIn = some process → Isolated config process
  attempts :
    (∃ process ∈ outcome.processes, process.userAttempts ≠ 0) ↔
      userAttempts config kernel ≠ 0
  failure :
    outcome.execIn = none → kernel.waitFails = false →
      ∀ status, outcome.WorkerEnds kernel status → status ≠ 0
  reports :
    ∀ process ∈ outcome.processes, ∀ report ∈ process.reports,
      report.aboutProc = false

theorem failsClosed_ended
    {config : SandboxConfig} {kernel : Kernel} {ending : Ending}
    {worker : Process}
    (refused : Refused (userAttempts config kernel) (ending, worker)) :
    FailsClosed config kernel (.ended ending worker) where
  isolated := nofun
  attempts := by
    have attempts : worker.userAttempts = _ := refused.2.attempts
    simp [Outcome.processes, attempts]
  failure := fun _ _ _ leaves => refused.status_ne_zero leaves
  reports := by
    intro process isWorker
    rw [List.mem_singleton.mp isWorker]
    exact refused.2.reports

theorem failsClosed_waits
    {config : SandboxConfig} {kernel : Kernel} {worker : Process}
    {init : Except (Ending × Process) Process}
    (orderly : Orderly (userAttempts config kernel) worker)
    (meets :
      Meets (Refused 0)
        (fun process => Orderly 0 process ∧ Isolated config process) init) :
    FailsClosed config kernel (.waits worker init) := by
  cases init with
  | ok init =>
      constructor
      · intro process isInit
        cases isInit
        exact meets.2
      · simp [Outcome.processes, orderly.attempts, meets.1.attempts]
      · exact nofun
      · intro process isProcess
        rcases List.mem_pair.mp isProcess with rfl | rfl
        · exact orderly.reports
        · exact meets.1.reports
  | error refusal =>
      rcases refusal with ⟨ending, init⟩
      constructor
      · exact nofun
      · have none : init.userAttempts = 0 := meets.2.attempts
        simp [Outcome.processes, orderly.attempts, none]
      · rintro _ waits status ⟨initStatus, initEnds, leaves⟩
        rw [waits] at initEnds
        rcases Refused.exitCode meets initEnds with ⟨positive, small⟩
        exact leaves.ne_zero positive small
      · intro process isProcess
        rcases List.mem_pair.mp isProcess with rfl | rfl
        · exact orderly.reports
        · exact meets.2.reports

theorem runInsideNamespaces_failsClosed
    {config : SandboxConfig} (runnable : Runnable config) (kernel : Kernel)
    (hostname : ByteString) :
    FailsClosed config kernel
      (runInsideNamespaces config kernel { hostname := hostname }) := by
  have fresh : Orderly 0 { hostname := hostname } := ⟨rfl, nofun⟩
  have prepared := prepare_meets runnable fresh kernel
  unfold runInsideNamespaces
  split
  · rename_i ending worker result
    rw [result] at prepared
    exact failsClosed_ended prepared
  · rename_i worker result
    rw [result] at prepared
    have holds : Prepared (userAttempts config kernel) config worker :=
      prepared
    split_ifs with isPid isProc
    · split
      · exact failsClosed_ended ⟨Or.inl rfl, holds.orderly.report rfl⟩
      · exact failsClosed_waits holds.orderly (holds.runInit runnable)
    · exact absurd (runnable.proc isProc).1 isPid
    · rw [Bool.not_eq_true] at isPid isProc
      constructor
      · intro process isWorker
        cases isWorker
        exact holds.isolated isPid isProc
      · simp [Outcome.processes, holds.orderly.attempts]
      · exact nofun
      · intro process isWorker
        rw [List.mem_singleton.mp isWorker]
        exact holds.orderly.reports

/-- `exec_program` is reached only in a process for which everything requested
is in force; a user namespace is tried exactly when it is requested or the
others are not permitted directly; without `exec_program` the worker fails,
unless its `waitpid` for the init process does; and nothing is ever said about
the options of `--proc`. -/
theorem namespaces_fail_closed
    {command : Command} {config : SandboxConfig}
    (accepted : Accepts command config) (kernel : Kernel)
    {hostname : ByteString} {outcome : Outcome}
    (ran :
      runInsideNamespaces config kernel { hostname := hostname } =
        outcome) :
    (∀ process, outcome.execIn = some process →
        Isolated config process) ∧
      ((∃ process ∈ outcome.processes, process.userAttempts ≠ 0) ↔
        config.userNamespace = true ∨
          flags config ≠ [] ∧ probeUnshareFlags kernel.probe = false) ∧
      (outcome.execIn = none → kernel.waitFails = false →
        ∀ status, outcome.WorkerEnds kernel status → status ≠ 0) ∧
      ∀ process ∈ outcome.processes,
        .procRequiresMount ∉ process.reports ∧
          .procRequiresPid ∉ process.reports := by
  subst ran
  have closed :=
    runInsideNamespaces_failsClosed (accepts_runnable accepted) kernel
      hostname
  refine ⟨closed.isolated,
    closed.attempts.trans (userAttempts_ne_zero config kernel),
    closed.failure, ?_⟩
  intro process isProcess
  have quiet := closed.reports process isProcess
  exact ⟨fun isReport => absurd (quiet _ isReport) (by decide),
    fun isReport => absurd (quiet _ isReport) (by decide)⟩

/-- A kernel that permits namespaces only together with a user namespace. -/
def sampleKernel : Kernel where
  uid := 1000
  gid := 1000
  probe := .ended exitedWithOne
  unshareUser := none
  setgroupsExists := some true
  openError := fun _ => none
  setresgid := none
  setresuid := none
  unshare := none
  makePrivate := none
  setHostname := none
  fork := none
  prctl := true
  sameParent := true
  mountProc := none
  waitFails := false

/-- `sandbox --pid --mount --proc --hostname box -- true`. -/
def procCommand : Command :=
  { args :=
      [literal "sandbox", literal "--pid", literal "--mount",
        literal "--proc", literal "--hostname", literal "box", literal "--",
        literal "true"] }

def procConfig : SandboxConfig :=
  { pidNamespace := true
    mountNamespace := true
    utsNamespace := true
    mountProc := true
    hostname := literal "box"
    programArgs := [literal "true"] }

theorem namespaces_fail_closed_sample :
    ∃ process,
      (runInsideNamespaces procConfig sampleKernel
          { hostname := literal "host" }).execIn = some process ∧
        Isolated procConfig process := by
  have accepted : Accepts procCommand procConfig :=
    ⟨by decide +kernel, rfl, rfl⟩
  exact ⟨_, rfl,
    (namespaces_fail_closed accepted sampleKernel rfl).1 _ rfl⟩

end Shell.SandboxNamespaces
