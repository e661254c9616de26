import Shell.JobControl.Operations
import Shell.Sandbox.Options

/-!
# The control files of a cgroup

`write_text_file` and the member functions of `CgroupScope`.  The host gives
the answers of the kernel: whether a control file can be opened, and whether
the write to it is accepted.  A stream keeps the text it is given in its
buffer; the write happens when the stream is destroyed, behind the last test
of `write_text_file`, and nobody sees its result.
-/

namespace Shell.ControlFiles

open Shell.Syntax
open Shell.JobOperations
open Shell.SandboxOptions

/-! ## Files and answers -/

/-- The control files that the sandbox opens. -/
inductive ControlFile where
  | memoryMax
  | pidsMax
  | cpuMax
  | procs
  | kill
deriving DecidableEq, Repr

def ControlFile.name : ControlFile → ByteString
  | .memoryMax => literal "memory.max"
  | .pidsMax => literal "pids.max"
  | .cpuMax => literal "cpu.max"
  | .procs => literal "cgroup.procs"
  | .kill => literal "cgroup.kill"

/-- What the kernel answers; an error is given by its text. -/
structure Host where
  /-- `statfs` finds the cgroup v2 file system. -/
  mounted : Bool
  currentCgroupPath : Option ByteString
  pid : Int
  reaper : Int
  nonce : Int
  createError : Option ByteString
  present : ControlFile → Bool
  openError : ControlFile → Option ByteString
  acceptsWrite : ControlFile → Bool

/-- A write that reached the kernel, and its answer. -/
structure FileWrite where
  file : ControlFile
  data : ByteString
  accepted : Bool
deriving DecidableEq, Repr

/-- `CgroupScope`; an empty path means that there is no directory.  The writes
are those that reached the kernel so far. -/
structure CgroupScope where
  path : ByteString := []
  writes : List FileWrite := []
deriving DecidableEq, Repr

/-! ## Streams -/

/-- `std::ofstream`: its state and the text that has not been written yet. -/
structure OutputStream where
  good : Bool
  buffer : ByteString := []
deriving DecidableEq, Repr

/-- The insertion of a short text. -/
def OutputStream.insert (stream : OutputStream) (data : ByteString) :
    OutputStream :=
  if stream.good then { stream with buffer := stream.buffer ++ data }
  else stream

/-- The destructor, which writes out the buffer. -/
def OutputStream.destroy (host : Host) (stream : OutputStream)
    (file : ControlFile) (scope : CgroupScope) : CgroupScope :=
  if stream.buffer = [] then
    scope
  else
    { scope with
      writes :=
        scope.writes ++ [⟨file, stream.buffer, host.acceptsWrite file⟩] }

/-- `operator/` of paths. -/
def joinPath (front back : ByteString) : ByteString :=
  if back.head? = some 0x2f then back
  else if front.getLast? = some 0x2f then front ++ back
  else front ++ literal "/" ++ back

/-- `write_text_file` for a control file of the directory. -/
def writeTextFile (host : Host) (file : ControlFile) (data : ByteString)
    (scope : CgroupScope) : Except ByteString Unit × CgroupScope :=
  let path := joinPath scope.path file.name
  match host.openError file with
  | some reason => (.error (path ++ literal ": " ++ reason), scope)
  | none =>
      let stream := OutputStream.insert ⟨true, []⟩ data
      let scope := stream.destroy host file scope
      if !stream.good then
        (.error (path ++ literal ": write failed"), scope)
      else
        (.ok (), scope)

/-! ## Limits -/

/-- A limit that the configuration asks for. -/
structure Limit where
  file : ControlFile
  controller : ByteString
  data : ByteString
deriving DecidableEq, Repr

/-- The limits in the order in which `create` sets them. -/
def limits (config : SandboxConfig) : List Limit :=
  (if config.hasMemoryMax then
      [⟨.memoryMax, literal "memory", decimal config.memoryMaxBytes⟩]
    else []) ++
  ((if config.hasPidsMax then
      [⟨.pidsMax, literal "pids", decimal config.pidsMax⟩]
    else []) ++
  (if config.hasCpuPercent then
      [⟨.cpuMax, literal "cpu",
        decimal (100000 * config.cpuPercent / 100 : Nat) ++ literal " " ++
          decimal 100000⟩]
    else []))

/-- The control files whose writes put the limits into force. -/
def requestedFiles (config : SandboxConfig) : List ControlFile :=
  if limits config = [] then []
  else (limits config).map Limit.file ++ [.procs]

/-- The cgroup of the shell can be found and extended by a directory that has
the files of the limits. -/
structure Host.Prepares (host : Host) (config : SandboxConfig) : Prop where
  mounted : host.mounted = true
  located : host.currentCgroupPath ≠ none
  created : host.createError = none
  present : ∀ limit ∈ limits config, host.present limit.file = true

/-- Every call up to the open of the last control file succeeds. -/
structure Host.OpensAll (host : Host) (config : SandboxConfig) : Prop
    extends host.Prepares config where
  opened : ∀ file ∈ requestedFiles config, host.openError file = none

namespace CgroupScope

/-- `CgroupScope::cleanup`, apart from the removal of the directory. -/
def cleanup (host : Host) (scope : CgroupScope) : CgroupScope :=
  if scope.path = [] then
    scope
  else
    let scope :=
      if host.present .kill then
        (writeTextFile host .kill (literal "1") scope).2
      else
        scope
    { scope with path := [] }

/-- The tests for the files of the controllers. -/
def requireControllers (host : Host) :
    List Limit → Except ByteString Unit
  | [] => .ok ()
  | limit :: later =>
      if host.present limit.file then
        requireControllers host later
      else
        .error
          (limit.controller ++
            literal " controller is not delegated to the shell's cgroup")

/-- The writes of the limits. -/
def writeLimits (host : Host) :
    List Limit → CgroupScope → Except ByteString Unit × CgroupScope
  | [], scope => (.ok (), scope)
  | limit :: later, scope =>
      match writeTextFile host limit.file limit.data scope with
      | (.error message, scope) => (.error message, scope.cleanup host)
      | (.ok (), scope) => writeLimits host later scope

/-- The directory that `create` makes. -/
def directory (host : Host) (base : ByteString) : ByteString :=
  let relative := if base.head? = some 0x2f then base.tail else base
  joinPath (joinPath (literal "/sys/fs/cgroup") relative)
    (literal "myshell-" ++ decimal host.pid ++ literal "-" ++
      decimal host.nonce)

/-- `CgroupScope::create`. -/
def create (host : Host) (config : SandboxConfig) (scope : CgroupScope) :
    Except ByteString Unit × CgroupScope :=
  if limits config = [] then
    (.ok (), scope)
  else if host.mounted = false then
    (.error (literal "cgroup v2 is not mounted"), scope)
  else
    match host.currentCgroupPath with
    | none => (.error (literal "could not determine current cgroup"), scope)
    | some base =>
        match host.createError with
        | some reason =>
            (.error
              (literal "create cgroup " ++ directory host base ++
                literal ": " ++ reason), scope)
        | none =>
            let scope := { scope with path := directory host base }
            match requireControllers host (limits config) with
            | .error message => (.error message, scope.cleanup host)
            | .ok () => writeLimits host (limits config) scope

/-- `CgroupScope::attach`. -/
def attach (host : Host) (pid : Int) (scope : CgroupScope) :
    Except ByteString Unit × CgroupScope :=
  if scope.path = [] then
    (.ok (), scope)
  else
    writeTextFile host .procs (decimal pid) scope

end CgroupScope

/-! ## What reaches the kernel -/

theorem decimal_ne_nil (value : Int) : decimal value ≠ [] := by
  intro isNil
  have empty : toString value = "" := by
    simpa [decimal, literal] using isNil
  cases value with
  | ofNat magnitude => exact Nat.repr_ne_empty empty
  | negSucc magnitude =>
      have lengths := congrArg String.length empty
      rw [show toString (Int.negSucc magnitude) =
          "-" ++ Nat.repr (magnitude + 1) from rfl, String.length_append]
        at lengths
      cases Nat.add_eq_zero_iff.mp lengths with
      | intro isZero _ => cases isZero

theorem limit_data_ne_nil
    {config : SandboxConfig} {limit : Limit}
    (isLimit : limit ∈ limits config) : limit.data ≠ [] := by
  simp only [limits, List.mem_append] at isLimit
  rcases isLimit with isMemory | isPids | isCpu
  · split_ifs at isMemory
    · cases List.mem_singleton.mp isMemory
      exact decimal_ne_nil _
    · cases isMemory
  · split_ifs at isPids
    · cases List.mem_singleton.mp isPids
      exact decimal_ne_nil _
    · cases isPids
  · split_ifs at isCpu
    · cases List.mem_singleton.mp isCpu
      simp [decimal_ne_nil]
    · cases isCpu

theorem writeTextFile_opened
    {host : Host} {file : ControlFile} (opened : host.openError file = none)
    {data : ByteString} (nonempty : data ≠ []) (scope : CgroupScope) :
    writeTextFile host file data scope =
      (.ok (),
        { scope with
          writes :=
            scope.writes ++ [⟨file, data, host.acceptsWrite file⟩] }) := by
  simp [writeTextFile, opened, OutputStream.insert, OutputStream.destroy,
    nonempty]

theorem writeTextFile_unopened
    {host : Host} {file : ControlFile} {reason : ByteString}
    (failed : host.openError file = some reason)
    (data : ByteString) (scope : CgroupScope) :
    writeTextFile host file data scope =
      (.error (joinPath scope.path file.name ++ literal ": " ++ reason),
        scope) := by
  simp [writeTextFile, failed]

/-- When `write_text_file` returns true, the file was open and the text has
gone to the kernel, whatever the answer. -/
theorem writeTextFile_ok
    {host : Host} {file : ControlFile} {data : ByteString}
    {scope next : CgroupScope} (nonempty : data ≠ [])
    (succeeded : writeTextFile host file data scope = (.ok (), next)) :
    host.openError file = none ∧
      next =
        { scope with
          writes :=
            scope.writes ++ [⟨file, data, host.acceptsWrite file⟩] } := by
  cases opening : host.openError file with
  | some reason =>
      rw [writeTextFile_unopened opening] at succeeded
      cases (Prod.mk.inj succeeded).1
  | none =>
      rw [writeTextFile_opened opening nonempty] at succeeded
      exact ⟨rfl, (Prod.mk.inj succeeded).2.symm⟩

theorem writes_subset_writeTextFile
    (host : Host) (file : ControlFile) {data : ByteString}
    (nonempty : data ≠ []) (scope : CgroupScope) :
    scope.writes ⊆ (writeTextFile host file data scope).2.writes := by
  cases opening : host.openError file with
  | some reason =>
      rw [writeTextFile_unopened opening]
      exact List.Subset.refl _
  | none =>
      rw [writeTextFile_opened opening nonempty]
      exact List.subset_append_left _ _

namespace CgroupScope

theorem writes_subset_cleanup (host : Host) (scope : CgroupScope) :
    scope.writes ⊆ (scope.cleanup host).writes := by
  unfold cleanup
  split_ifs
  · exact List.Subset.refl _
  · exact writes_subset_writeTextFile host .kill (by decide) scope
  · exact List.Subset.refl _

/-- The answer of the kernel to a write of the limit is on record. -/
def Wrote (host : Host) (scope : CgroupScope) (file : ControlFile) : Prop :=
  host.openError file = none ∧
    ∃ data, ⟨file, data, host.acceptsWrite file⟩ ∈ scope.writes

theorem Wrote.mono
    {host : Host} {earlier scope : CgroupScope} {file : ControlFile}
    (wrote : Wrote host earlier file)
    (more : earlier.writes ⊆ scope.writes) :
    Wrote host scope file := by
  rcases wrote with ⟨opened, data, isWrite⟩
  exact ⟨opened, data, more isWrite⟩

theorem writeLimits_ok
    {host : Host} {chosen : List Limit} {scope next : CgroupScope}
    (nonempty : ∀ limit ∈ chosen, limit.data ≠ [])
    (succeeded : writeLimits host chosen scope = (.ok (), next)) :
    next.path = scope.path ∧ scope.writes ⊆ next.writes ∧
      ∀ limit ∈ chosen, Wrote host next limit.file := by
  induction chosen generalizing scope with
  | nil =>
      cases succeeded
      exact ⟨rfl, List.Subset.refl _, nofun⟩
  | cons limit later induction =>
      rcases List.forall_mem_cons.mp nonempty with ⟨first, rest⟩
      rw [writeLimits] at succeeded
      split at succeeded
      · cases (Prod.mk.inj succeeded).1
      · rename_i middle written
        rcases writeTextFile_ok first written with ⟨opened, rfl⟩
        rcases induction rest succeeded with ⟨samePath, more, wrote⟩
        refine ⟨samePath,
          List.Subset.trans (List.subset_append_left _ _) more, ?_⟩
        intro other isOther
        rcases List.mem_cons.mp isOther with rfl | isLater
        · refine ⟨opened, other.data, more ?_⟩
          exact List.mem_append_right _ List.mem_cons_self
        · exact wrote other isLater

theorem directory_ne_nil (host : Host) (base : ByteString) :
    directory host base ≠ [] := by
  intro isNil
  simp only [directory, joinPath] at isNil
  split_ifs at isNil <;> simp [literal] at isNil

theorem requireControllers_eq_ok {host : Host} {chosen : List Limit} :
    requireControllers host chosen = .ok () ↔
      ∀ limit ∈ chosen, host.present limit.file = true := by
  induction chosen with
  | nil => exact iff_of_true rfl (List.forall_mem_nil _)
  | cons limit later induction =>
      rw [requireControllers, List.forall_mem_cons, ← induction]
      split_ifs with present <;> simp [present]

/-- `create` succeeds without a directory when there is no limit, and with one
when the text of every limit has gone to the kernel. -/
theorem create_ok
    {host : Host} {config : SandboxConfig} {scope next : CgroupScope}
    (succeeded : scope.create host config = (.ok (), next)) :
    limits config = [] ∨
      host.Prepares config ∧ next.path ≠ [] ∧
        ∀ limit ∈ limits config, Wrote host next limit.file := by
  unfold create at succeeded
  split_ifs at succeeded with noLimits unmounted
  · exact Or.inl noLimits
  · cases (Prod.mk.inj succeeded).1
  · apply Or.inr
    split at succeeded
    · cases (Prod.mk.inj succeeded).1
    · rename_i base located
      split at succeeded
      · cases (Prod.mk.inj succeeded).1
      · rename_i created
        split at succeeded
        · cases (Prod.mk.inj succeeded).1
        · rename_i required
          rcases writeLimits_ok (fun _ => limit_data_ne_nil) succeeded with
            ⟨samePath, _, wrote⟩
          refine ⟨⟨(Bool.not_eq_false _).mp unmounted, ?_, created,
            requireControllers_eq_ok.mp required⟩, ?_, wrote⟩
          · rw [located]
            exact Option.some_ne_none base
          · rw [samePath]
            exact directory_ne_nil host _

theorem attach_ok
    {host : Host} {pid : Int} {scope next : CgroupScope}
    (succeeded : scope.attach host pid = (.ok (), next)) :
    scope.writes ⊆ next.writes ∧
      (scope.path ≠ [] → Wrote host next .procs) := by
  unfold attach at succeeded
  split_ifs at succeeded with noPath
  · cases succeeded
    exact ⟨List.Subset.refl _, fun hasPath => absurd noPath hasPath⟩
  · rcases writeTextFile_ok (decimal_ne_nil pid) succeeded with
      ⟨opened, rfl⟩
    refine ⟨List.subset_append_left _ _, fun _ => ⟨opened, decimal pid, ?_⟩⟩
    exact List.mem_append_right _ List.mem_cons_self

/-! ## The answers on record -/

/-- The answers on record are those of the host. -/
def Answered (host : Host) (scope : CgroupScope) : Prop :=
  ∀ write ∈ scope.writes, write.accepted = host.acceptsWrite write.file

theorem Answered.written
    {host : Host} {scope : CgroupScope} (answered : scope.Answered host)
    (file : ControlFile) (data : ByteString) :
    Answered host
      { scope with
        writes :=
          scope.writes ++ [⟨file, data, host.acceptsWrite file⟩] } := by
  intro write isWrite
  rcases List.mem_append.mp isWrite with earlier | isLast
  · exact answered write earlier
  · cases List.mem_singleton.mp isLast
    rfl

theorem writeLimits_opened
    {host : Host} {chosen : List Limit} {scope : CgroupScope}
    (nonempty : ∀ limit ∈ chosen, limit.data ≠ [])
    (opened : ∀ limit ∈ chosen, host.openError limit.file = none)
    (answered : scope.Answered host) :
    ∃ next,
      writeLimits host chosen scope = (.ok (), next) ∧
        next.path = scope.path ∧ next.Answered host := by
  induction chosen generalizing scope with
  | nil => exact ⟨scope, rfl, rfl, answered⟩
  | cons limit later induction =>
      rcases List.forall_mem_cons.mp nonempty with ⟨first, rest⟩
      rcases List.forall_mem_cons.mp opened with ⟨firstOpened, restOpened⟩
      rcases induction rest restOpened
          (answered.written limit.file limit.data) with
        ⟨next, written, samePath, nextAnswered⟩
      refine ⟨next, ?_, samePath, nextAnswered⟩
      rw [writeLimits, writeTextFile_opened firstOpened first]
      exact written

/-- Nothing but an error of a call up to the last open keeps `create` and
`attach` from succeeding. -/
theorem create_attach_opened
    {host : Host} {config : SandboxConfig} (opens : host.OpensAll config)
    (limited : limits config ≠ []) (pid : Int) :
    ∃ scope attached,
      create host config {} = (.ok (), scope) ∧
        attach host pid scope = (.ok (), attached) ∧
        attached.Answered host := by
  rcases Option.ne_none_iff_exists'.mp opens.located with ⟨base, located⟩
  have requested : requestedFiles config =
      (limits config).map Limit.file ++ [.procs] :=
    if_neg limited
  have opened := opens.opened
  rw [requested] at opened
  rcases List.forall_mem_append.mp opened with ⟨limitsOpened, procsOpened⟩
  rcases writeLimits_opened (fun _ => limit_data_ne_nil)
      (List.forall_mem_map.mp limitsOpened)
      (show Answered host { path := directory host base } from
        List.forall_mem_nil _) with
    ⟨scope, written, samePath, answered⟩
  have hasPath : scope.path ≠ [] := by
    rw [samePath]
    exact directory_ne_nil host base
  have procs : host.openError .procs = none :=
    procsOpened .procs (List.mem_singleton_self _)
  refine ⟨scope, _, ?_, ?_, answered.written .procs (decimal pid)⟩
  · rw [create, if_neg limited, if_neg (by rw [opens.mounted]; nofun),
      located, opens.created]
    simp only [requireControllers_eq_ok.mpr opens.present]
    exact written
  · rw [attach, if_neg hasPath,
      writeTextFile_opened procs (decimal_ne_nil pid)]

end CgroupScope

end Shell.ControlFiles
