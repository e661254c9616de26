import Mathlib.Data.List.Nodup
import Shell.Library.TextLines
import Shell.Library.TextSearch
import Shell.Sandbox.Namespaces

/-!
# The status report

`detect_isolation_capabilities`, which tries out what a sandbox will need: it
lets a child call `unshare` for each namespace, alone and together with a new
user namespace, and makes and removes a directory in the cgroup of the shell.
`render_isolation_status` prints the result, one line for each capability.
-/

namespace Shell.Capabilities

open Shell.Syntax
open Shell.TextLines
open Shell.TextSearch
open Shell.JobTable
open Shell.JobOperations
open Shell.SandboxNamespaces

/-! ## The code -/

/-- What the system answers to `detect_isolation_capabilities`. -/
structure Survey where
  /-- Whether `/proc/self/ns` exists, or nothing if the test throws. -/
  nsExists : Option Bool
  /-- How the child ends that calls `unshare` with these flags. -/
  probe : List Namespace → Probe
  /-- `statfs` finds the cgroup v2 file system. -/
  mounted : Bool
  /-- The text of `/proc/self/cgroup`, empty if it cannot be opened. -/
  cgroupFile : ByteString
  /-- `create_directory` makes the directory of the probe. -/
  probeCreated : Bool

/-- `probe_namespace_flag`. -/
def probeNamespaceFlag (survey : Survey) (space : Namespace) : Bool :=
  if probeUnshareFlags (survey.probe [space]) then true
  else if space ≠ .user &&
      probeUnshareFlags (survey.probe [.user, space]) then
    true
  else false

/-- What stands behind the first two colons in a row. -/
def behindColons : ByteString → Option ByteString
  | [] => none
  | [_] => none
  | first :: second :: rest =>
      if first = 0x3a ∧ second = 0x3a then some rest
      else behindColons (second :: rest)

/-- `current_cgroup_path`. -/
def currentCgroupPath (cgroupFile : ByteString) : Option ByteString :=
  (linesOf newline cgroupFile).findSome? behindColons

/-- `IsolationCapabilities`. -/
structure IsolationCapabilities where
  linuxNamespaces : Bool := false
  userNamespaceAvailable : Bool := false
  pidNamespaceAvailable : Bool := false
  mountNamespaceAvailable : Bool := false
  networkNamespaceAvailable : Bool := false
  utsNamespaceAvailable : Bool := false
  cgroupV2 : Bool := false
  cgroupWritable : Bool := false
  cgroupRoot : ByteString := []
deriving DecidableEq, Repr

/-- The part of `detect_isolation_capabilities` about namespaces. -/
def detectNamespaces (survey : Survey) (isThere : Bool) :
    IsolationCapabilities :=
  if isThere then
    { linuxNamespaces := true
      userNamespaceAvailable := probeNamespaceFlag survey .user
      pidNamespaceAvailable := probeNamespaceFlag survey .pid
      mountNamespaceAvailable := probeNamespaceFlag survey .mount
      networkNamespaceAvailable := probeNamespaceFlag survey .network
      utsNamespaceAvailable := probeNamespaceFlag survey .uts }
  else
    {}

/-- The part of `detect_isolation_capabilities` about cgroups. -/
def detectCgroup (survey : Survey) (out : IsolationCapabilities) :
    IsolationCapabilities :=
  if survey.mounted then
    { out with
      cgroupV2 := true
      cgroupRoot := literal "/sys/fs/cgroup"
      cgroupWritable :=
        match currentCgroupPath survey.cgroupFile with
        | some _ => survey.probeCreated
        | none => out.cgroupWritable }
  else
    out

/-- `detect_isolation_capabilities`, or nothing if it throws. -/
def detectIsolationCapabilities (survey : Survey) :
    Option IsolationCapabilities :=
  survey.nsExists.map fun isThere =>
    detectCgroup survey (detectNamespaces survey isThere)

def IsolationCapabilities.permits (capabilities : IsolationCapabilities) :
    Namespace → Bool
  | .user => capabilities.userNamespaceAvailable
  | .pid => capabilities.pidNamespaceAvailable
  | .mount => capabilities.mountNamespaceAvailable
  | .network => capabilities.networkNamespaceAvailable
  | .uts => capabilities.utsNamespaceAvailable

/-- The lines of the report behind the first one. -/
def statusEntries (caps : IsolationCapabilities) :
    List (ByteString × ByteString) :=
  let orUnavailable (available : Bool) (text : ByteString) :=
    if available then text else literal "unavailable"
  let permitted := literal "permitted"
  [(literal "linux-namespaces",
      orUnavailable caps.linuxNamespaces (literal "kernel support")),
    (literal "user-namespace",
      orUnavailable caps.userNamespaceAvailable permitted),
    (literal "pid-namespace",
      orUnavailable caps.pidNamespaceAvailable permitted),
    (literal "mount-namespace",
      orUnavailable caps.mountNamespaceAvailable permitted),
    (literal "network-namespace",
      orUnavailable caps.networkNamespaceAvailable permitted),
    (literal "uts-namespace",
      orUnavailable caps.utsNamespaceAvailable permitted),
    (literal "cgroup-v2", orUnavailable caps.cgroupV2 (literal "mounted"))] ++
    if caps.cgroupV2 then
      [(literal "cgroup-write",
          orUnavailable caps.cgroupWritable (literal "available")),
        (literal "cgroup-root", caps.cgroupRoot)]
    else
      []

def statusLine (entry : ByteString × ByteString) : ByteString :=
  entry.1 ++ literal ": " ++ entry.2

/-- `render_isolation_status`. -/
def renderIsolationStatus (caps : IsolationCapabilities) : ByteString :=
  literal "Isolation capabilities\n" ++
    (statusEntries caps).flatMap fun entry =>
      statusLine entry ++ literal "\n"

/-! ## The text of the report -/

def reportName : Namespace → ByteString
  | .user => literal "user-namespace"
  | .pid => literal "pid-namespace"
  | .mount => literal "mount-namespace"
  | .network => literal "network-namespace"
  | .uts => literal "uts-namespace"

/-- A line of the text. -/
def Prints (text : ByteString) (name value : ByteString) : Prop :=
  statusLine (name, value) ∈ linesOf newline text

/-- A line is cut at its first colon. -/
theorem statusLine_inj
    {first second : ByteString × ByteString} (plainFirst : 0x3a ∉ first.1)
    (plainSecond : 0x3a ∉ second.1)
    (same : statusLine first = statusLine second) :
    first = second := by
  have cut (entry : ByteString × ByteString) :
      statusLine entry = entry.1 ++ 0x3a :: 0x20 :: entry.2 := by
    rw [statusLine, List.append_assoc]
    rfl
  rw [cut, cut] at same
  have lengths : first.1.length = second.1.length := by
    have firstPlace := find_append plainFirst (0x20 :: first.2)
    rw [same, find_append plainSecond] at firstPlace
    exact (Option.some.inj firstPlace).symm
  rcases List.append_inj same lengths with ⟨names, rests⟩
  exact Prod.ext names (List.cons.inj (List.cons.inj rests).2).2

section Text

variable {caps : IsolationCapabilities}

/-- The names of the entries; the last two are there for cgroups only. -/
def statusNames (cgroupV2 : Bool) : List ByteString :=
  ["linux-namespaces", "user-namespace", "pid-namespace", "mount-namespace",
      "network-namespace", "uts-namespace", "cgroup-v2"].map literal ++
    if cgroupV2 then ["cgroup-write", "cgroup-root"].map literal else []

theorem map_fst_statusEntries (caps : IsolationCapabilities) :
    (statusEntries caps).map Prod.fst = statusNames caps.cgroupV2 := by
  unfold statusEntries
  cases caps.cgroupV2 <;> rfl

theorem plain_statusName
    {entry : ByteString × ByteString}
    (isEntry : entry ∈ statusEntries caps) :
    0x3a ∉ entry.1 ∧ newline ∉ entry.1 := by
  have all :
      ∀ cgroupV2 : Bool, ∀ name ∈ statusNames cgroupV2,
        0x3a ∉ name ∧ newline ∉ name := by
    decide +kernel
  refine all caps.cgroupV2 entry.1 ?_
  rw [← map_fst_statusEntries]
  exact List.mem_map_of_mem isEntry

theorem plain_statusValue
    (plainRoot : newline ∉ caps.cgroupRoot)
    {entry : ByteString × ByteString}
    (isEntry : entry ∈ statusEntries caps) :
    newline ∉ entry.2 := by
  have chosen (available : Bool) {text : ByteString}
      (plain : newline ∉ text) :
      newline ∉ if available then text else literal "unavailable" := by
    split
    · exact plain
    · decide +kernel
  rcases List.mem_append.mp isEntry with always | cgroup
  · simp only [List.mem_cons, List.not_mem_nil, or_false] at always
    rcases always with rfl | rfl | rfl | rfl | rfl | rfl | rfl
    all_goals exact chosen _ (by decide +kernel)
  · split_ifs at cgroup
    · simp only [List.mem_cons, List.not_mem_nil, or_false] at cgroup
      rcases cgroup with rfl | rfl
      · exact chosen _ (by decide +kernel)
      · exact plainRoot
    · cases cgroup

theorem lines_renderIsolationStatus
    (plainRoot : newline ∉ caps.cgroupRoot) :
    linesOf newline (renderIsolationStatus caps) =
      literal "Isolation capabilities" ::
        (statusEntries caps).map statusLine := by
  have joined :
      renderIsolationStatus caps =
        joinLines newline
          (literal "Isolation capabilities" ::
            (statusEntries caps).map statusLine) := by
    rw [joinLines, List.flatMap_cons, List.flatMap_map]
    rfl
  rw [joined]
  refine linesOf_joinLines (List.forall_mem_cons.mpr ⟨by decide +kernel, ?_⟩)
  intro line isLine
  rcases List.mem_map.mp isLine with ⟨entry, isEntry, rfl⟩
  rw [statusLine, List.mem_append, List.mem_append]
  rintro ((inName | inColon) | inValue)
  · exact (plain_statusName isEntry).2 inName
  · revert inColon
    decide +kernel
  · exact plain_statusValue plainRoot isEntry inValue

theorem prints_iff_mem
    (plainRoot : newline ∉ caps.cgroupRoot) {name : ByteString}
    (plainName : 0x3a ∉ name) (value : ByteString) :
    Prints (renderIsolationStatus caps) name value ↔
      (name, value) ∈ statusEntries caps := by
  rw [Prints, lines_renderIsolationStatus plainRoot, List.mem_cons]
  constructor
  · rintro (isTitle | isLine)
    · have noColon : (0x3a : UInt8) ∉ literal "Isolation capabilities" := by
        decide +kernel
      refine absurd ?_ noColon
      rw [← isTitle, statusLine]
      exact List.mem_append_left _
        (List.mem_append_right _ List.mem_cons_self)
    · rcases List.mem_map.mp isLine with ⟨entry, isOther, sameLine⟩
      rw [← statusLine_inj (plain_statusName isOther).1 plainName sameLine]
      exact isOther
  · exact fun isEntry => Or.inr (List.mem_map_of_mem isEntry)

/-- The report prints the value of an entry for its name, and no other. -/
theorem prints_iff_eq
    (plainRoot : newline ∉ caps.cgroupRoot) {name actual : ByteString}
    (isEntry : (name, actual) ∈ statusEntries caps) (value : ByteString) :
    Prints (renderIsolationStatus caps) name value ↔ value = actual := by
  have distinct : ((statusEntries caps).map Prod.fst).Nodup := by
    rw [map_fst_statusEntries]
    cases caps.cgroupV2 <;> decide +kernel
  rw [prints_iff_mem plainRoot (plain_statusName isEntry).1]
  constructor
  · intro isOther
    exact (Prod.mk.inj
      (List.inj_on_of_nodup_map distinct isOther isEntry rfl)).2
  · rintro rfl
    exact isEntry

theorem prints_chosen_iff
    (plainRoot : newline ∉ caps.cgroupRoot) {name text : ByteString}
    (different : text ≠ literal "unavailable") {available : Bool}
    (isEntry :
      (name, if available then text else literal "unavailable") ∈
        statusEntries caps) :
    Prints (renderIsolationStatus caps) name text ↔ available = true := by
  rw [prints_iff_eq plainRoot isEntry]
  split_ifs with isAvailable
  · exact iff_of_true rfl isAvailable
  · exact iff_of_false different isAvailable

/-- The line of a namespace says whether it is permitted. -/
theorem prints_permitted_iff
    (plainRoot : newline ∉ caps.cgroupRoot) (space : Namespace) :
    Prints (renderIsolationStatus caps) (reportName space)
        (literal "permitted") ↔
      caps.permits space = true := by
  refine prints_chosen_iff plainRoot (by decide +kernel) ?_
  refine List.mem_append_left _ ?_
  cases space with
  | user => exact List.mem_of_getElem? (i := 1) rfl
  | pid => exact List.mem_of_getElem? (i := 2) rfl
  | mount => exact List.mem_of_getElem? (i := 3) rfl
  | network => exact List.mem_of_getElem? (i := 4) rfl
  | uts => exact List.mem_of_getElem? (i := 5) rfl

/-- The first line says whether the kernel has namespaces. -/
theorem prints_kernelSupport_iff
    (plainRoot : newline ∉ caps.cgroupRoot) :
    Prints (renderIsolationStatus caps) (literal "linux-namespaces")
        (literal "kernel support") ↔
      caps.linuxNamespaces = true := by
  refine prints_chosen_iff plainRoot (by decide +kernel) ?_
  exact List.mem_append_left _ List.mem_cons_self

/-- The line about writing stands there only if cgroups are mounted. -/
theorem prints_cgroupWrite_iff
    (plainRoot : newline ∉ caps.cgroupRoot) :
    Prints (renderIsolationStatus caps) (literal "cgroup-write")
        (literal "available") ↔
      caps.cgroupV2 = true ∧ caps.cgroupWritable = true := by
  by_cases mounted : caps.cgroupV2 = true
  · rw [and_iff_right mounted]
    refine prints_chosen_iff plainRoot (by decide +kernel) ?_
    refine List.mem_append_right _ ?_
    rw [if_pos mounted]
    exact List.mem_cons_self
  · rw [prints_iff_mem plainRoot (by decide +kernel)]
    refine iff_of_false (fun isEntry => ?_) fun both => mounted both.1
    have isName : literal "cgroup-write" ∈ statusNames caps.cgroupV2 := by
      rw [← map_fst_statusEntries]
      exact List.mem_map_of_mem isEntry
    rw [Bool.not_eq_true] at mounted
    rw [mounted] at isName
    revert isName
    decide +kernel

end Text

end Shell.Capabilities
