import Shell.Sandbox.Capabilities
import Shell.Sandbox.CgroupLifetime

/-!
# What the status report promises

The kernel is represented by a policy, which says what `unshare` permits to a
process of the shell and to a process in a new user namespace.  The probes of
the report, and later the calls of a sandbox, are answered according to the
policy; the report is then compared with what becomes of the sandbox.
-/

namespace Shell.StatusReport

open Shell.Syntax
open Shell.JobTable
open Shell.Guarded
open Shell.SandboxOptions
open Shell.ControlFiles
open Shell.Capabilities
open Shell.CgroupLifetime
open Shell.SandboxNamespaces

/-! ## The policy of the kernel -/

/-- What `unshare` permits to a process of the shell, and to one in a new user
namespace, where it has all capabilities. -/
structure Policy where
  direct : Namespace → Bool
  inside : Namespace → Bool
  inside_of_direct :
    ∀ space, direct space = true → inside space = true

/-- `unshare` with several flags; a new user namespace comes first. -/
def Policy.allows (policy : Policy) (spaces : List Namespace) : Bool :=
  if .user ∈ spaces then
    policy.direct .user &&
      spaces.all fun space => space = .user || policy.inside space
  else
    spaces.all policy.direct

/-- The probes of the report are answered by the policy. -/
def Follows (policy : Policy) (survey : Survey) : Prop :=
  ∀ spaces, probeUnshareFlags (survey.probe spaces) = policy.allows spaces

/-- The calls of a sandbox are answered by the policy. -/
structure Obeys (policy : Policy) (config : SandboxConfig)
    (kernel : Kernel) : Prop where
  probe : probeUnshareFlags kernel.probe = policy.allows (flags config)
  user : kernel.unshareUser = none ↔ policy.direct .user = true
  unshare :
    kernel.unshare = none ↔
      (flags config).all
          (if usesUserNamespace config kernel then policy.inside
          else policy.direct) =
        true

/-! ## What the report says -/

theorem permits_detect
    {survey : Survey} {capabilities : IsolationCapabilities}
    (detected :
      detectIsolationCapabilities survey = some capabilities)
    (space : Namespace) :
    capabilities.permits space =
      (capabilities.linuxNamespaces && probeNamespaceFlag survey space) := by
  rcases Option.map_eq_some_iff.mp detected with ⟨isThere, -, rfl⟩
  unfold detectCgroup
  cases survey.mounted <;> cases isThere <;> cases space <;> rfl

/-- A namespace is reported as permitted if one of the two ways to it is
open. -/
theorem probeNamespaceFlag_iff
    {policy : Policy} {survey : Survey} (follows : Follows policy survey)
    (space : Namespace) :
    probeNamespaceFlag survey space = true ↔
      policy.direct space = true ∨
        policy.direct .user = true ∧ policy.inside space = true := by
  have alone : policy.allows [space] = policy.direct space := by
    cases space <;> simp [Policy.allows]
  rw [probeNamespaceFlag, follows, follows, alone]
  by_cases isUser : space = .user
  · subst isUser
    simp +contextual
  · have withUser :
        policy.allows [.user, space] =
          (policy.direct .user && policy.inside space) := by
      simp [Policy.allows, isUser]
    rw [withUser]
    simp [isUser]

theorem user_not_mem_flags (config : SandboxConfig) :
    Namespace.user ∉ flags config := by
  simp [flags]

theorem uses_iff {config : SandboxConfig} {kernel : Kernel} :
    usesUserNamespace config kernel = true ↔
      config.userNamespace = true ∨
        flags config ≠ [] ∧ probeUnshareFlags kernel.probe = false := by
  rw [← userAttempts_ne_zero, userAttempts]
  cases usesUserNamespace config kernel <;> simp

/-- The two calls of `unshare` in a sandbox succeed, as far as they are made. -/
def Unshares (config : SandboxConfig) (kernel : Kernel) : Prop :=
  (usesUserNamespace config kernel = true → kernel.unshareUser = none) ∧
    (flags config ≠ [] → kernel.unshare = none)

section Obedience

variable {policy : Policy} {config : SandboxConfig} {kernel : Kernel}

theorem Obeys.probed (obeys : Obeys policy config kernel) :
    probeUnshareFlags kernel.probe = (flags config).all policy.direct := by
  rw [obeys.probe, Policy.allows, if_neg (user_not_mem_flags config)]

/-- A sandbox that uses a user namespace is permitted one: it is asked for, or
a flag that is not permitted directly needs it. -/
theorem Obeys.user_of_permitted
    (obeys : Obeys policy config kernel)
    (uses : usesUserNamespace config kernel = true)
    (permitted :
      ∀ space,
        space = .user ∧ config.userNamespace = true ∨
            space ∈ flags config →
          policy.direct space = true ∨
            policy.direct .user = true ∧ policy.inside space = true) :
    policy.direct .user = true := by
  rcases uses_iff.mp uses with isUser | ⟨-, someDenied⟩
  · exact (permitted .user (Or.inl ⟨rfl, isUser⟩)).elim id And.left
  · rw [obeys.probed, List.all_eq_false] at someDenied
    rcases someDenied with ⟨space, isFlag, denied⟩
    rcases permitted space (Or.inr isFlag) with direct | ⟨user, -⟩
    · exact absurd direct denied
    · exact user

/-- The report permits what the options ask for if and only if the calls of
`unshare` succeed. -/
theorem permitted_iff_unshares (obeys : Obeys policy config kernel) :
    (∀ space ∈ requested config,
        policy.direct space = true ∨
          policy.direct .user = true ∧ policy.inside space = true) ↔
      Unshares config kernel := by
  simp only [mem_requested]
  unfold Unshares
  rw [obeys.user, obeys.unshare]
  by_cases uses : usesUserNamespace config kernel = true
  · rw [if_pos uses]
    constructor
    · intro permitted
      refine ⟨fun _ => obeys.user_of_permitted uses permitted, fun _ => ?_⟩
      rw [List.all_eq_true]
      intro space isFlag
      rcases permitted space (Or.inr isFlag) with direct | ⟨-, inside⟩
      · exact policy.inside_of_direct space direct
      · exact inside
    · rintro ⟨user, inside⟩ space (⟨rfl, -⟩ | isFlag)
      · exact Or.inl (user uses)
      · have hasFlags : flags config ≠ [] := List.ne_nil_of_mem isFlag
        exact Or.inr ⟨user uses,
          List.all_eq_true.mp (inside hasFlags) space isFlag⟩
  · rw [if_neg uses]
    have notUses := mt uses_iff.mpr uses
    rw [not_or, not_and, Bool.not_eq_true, Bool.not_eq_false] at notUses
    constructor
    · intro _
      refine ⟨fun isUsed => absurd isUsed uses, fun hasFlags => ?_⟩
      rw [← obeys.probed]
      exact notUses.2 hasFlags
    · rintro ⟨-, direct⟩ space (⟨rfl, isUser⟩ | isFlag)
      · rw [notUses.1] at isUser
        cases isUser
      · exact Or.inl (List.all_eq_true.mp
          (direct (List.ne_nil_of_mem isFlag)) space isFlag)

end Obedience

/-! ## What becomes of a sandbox -/

/-- The complaints about `unshare`. -/
def aboutUnshare : Report → Bool
  | .unshareUser _ | .unshare _ => true
  | _ => false

/-- Nothing was said about `unshare`. -/
def Quiet (process : Process) : Prop :=
  ∀ report ∈ process.reports, aboutUnshare report = false

theorem Quiet.report
    {process : Process} (quiet : Quiet process) {report : Report}
    (other : aboutUnshare report = false) :
    Quiet (process.report report) :=
  List.forall_mem_append.mpr ⟨quiet, List.forall_mem_singleton.mpr other⟩

theorem require_quiet
    {process : Process} {answer : Option ByteString}
    {report : ByteString → Report} {effect : Process → Process}
    (other : ∀ reason ∈ answer, aboutUnshare (report reason) = false)
    (quiet : Quiet process) (done : Quiet (effect process)) :
    Meets (fun refusal => Quiet refusal.2) Quiet
      (require answer report effect process) := by
  cases answer with
  | none => exact done
  | some reason => exact quiet.report (other reason rfl)

theorem writeMapFile_quiet
    {process : Process} (quiet : Quiet process) (kernel : Kernel)
    (file : MapFile) (data : ByteString) :
    Meets (fun refusal => Quiet refusal.2) Quiet
      (writeMapFile kernel file data process) :=
  require_quiet (fun _ _ => rfl) quiet quiet

theorem mapCurrentUserToRoot_quiet
    {process : Process} (quiet : Quiet process) {kernel : Kernel}
    (entered : kernel.unshareUser = none) :
    Meets (fun refusal => Quiet refusal.2) Quiet
      (mapCurrentUserToRoot kernel process) := by
  have denied {process : Process} (quiet : Quiet process) :
      Meets (fun refusal => Quiet refusal.2) Quiet
        (denySetgroups kernel process) := by
    unfold denySetgroups
    split
    · exact quiet
    · exact quiet
    · exact writeMapFile_quiet quiet kernel _ _
  have unsharing :
      Meets (fun refusal => Quiet refusal.2) Quiet
        (require kernel.unshareUser .unshareUser (·.unshare [.user])
          { process with userAttempts := process.userAttempts + 1 }) := by
    refine require_quiet ?_ quiet quiet
    rw [entered]
    exact nofun
  apply Meets.bind unsharing
  intro process quiet
  apply Meets.bind (denied quiet)
  intro process quiet
  apply Meets.bind (writeMapFile_quiet quiet kernel _ _)
  intro process quiet
  apply Meets.bind (writeMapFile_quiet quiet kernel _ _)
  intro process quiet
  exact require_quiet (fun _ _ => rfl) quiet quiet

theorem prepare_quiet
    {config : SandboxConfig} {kernel : Kernel} {process : Process}
    (unshares : Unshares config kernel) (quiet : Quiet process) :
    Meets (fun refusal => Quiet refusal.2) Quiet
      (prepare config kernel process) := by
  have entering :
      Meets (fun refusal => Quiet refusal.2) Quiet
        (enterUserNamespace config kernel process) := by
    unfold enterUserNamespace
    split_ifs with uses
    · exact mapCurrentUserToRoot_quiet quiet (unshares.1 uses)
    · exact quiet
  apply Meets.bind entering
  intro process quiet
  have unsharing :
      Meets (fun refusal => Quiet refusal.2) Quiet
        (unshareFlags config kernel process) := by
    unfold unshareFlags
    split_ifs with hasFlags
    · refine require_quiet ?_ quiet quiet
      rw [unshares.2 hasFlags]
      exact nofun
    · exact quiet
  apply Meets.bind unsharing
  intro process quiet
  have separating :
      Meets (fun refusal => Quiet refusal.2) Quiet
        (makeMountsPrivate config kernel process) := by
    unfold makeMountsPrivate
    split_ifs
    · exact require_quiet (fun _ _ => rfl) quiet quiet
    · exact quiet
  apply Meets.bind separating
  intro process quiet
  unfold setHostname
  split_ifs
  · exact require_quiet (fun _ _ => rfl) quiet quiet
  · exact quiet

/-- The worker at the end. -/
def workerOf : Outcome → Process
  | .ended _ worker => worker
  | .execs worker => worker
  | .waits worker _ => worker

theorem runInsideNamespaces_quiet
    {config : SandboxConfig} {kernel : Kernel} {worker : Process}
    (unshares : Unshares config kernel) (quiet : Quiet worker) :
    Quiet (workerOf (runInsideNamespaces config kernel worker)) := by
  have prepared := prepare_quiet unshares quiet
  unfold runInsideNamespaces
  split
  next ending ended failed =>
    rw [failed] at prepared
    exact prepared
  next process succeeds =>
    rw [succeeds] at prepared
    split_ifs
    · split
      · exact prepared.report rfl
      · exact prepared
    · exact prepared.report rfl
    · exact prepared

theorem require_passed
    (process : Process) (answer : Option ByteString)
    (report : ByteString → Report) (effect : Process → Process) :
    Meets (fun _ => True) (fun _ => answer = none)
      (require answer report effect process) := by
  cases answer with
  | none => exact rfl
  | some reason => exact True.intro

/-- A worker that gets as far as the fork has passed both calls. -/
theorem prepare_passed
    (config : SandboxConfig) (kernel : Kernel) (process : Process) :
    Meets (fun _ => True) (fun _ => Unshares config kernel)
      (prepare config kernel process) := by
  have entering :
      Meets (fun _ => True)
        (fun _ =>
          usesUserNamespace config kernel = true →
            kernel.unshareUser = none)
        (enterUserNamespace config kernel process) := by
    unfold enterUserNamespace
    split_ifs with uses
    · apply Meets.bind (require_passed _ _ _ _)
      intro process entered
      exact Meets.const (fun _ => entered) _
    · exact fun isUsed => absurd isUsed uses
  apply Meets.bind entering
  intro process entered
  have unsharing :
      Meets (fun _ => True) (fun _ => flags config ≠ [] → kernel.unshare = none)
        (unshareFlags config kernel process) := by
    unfold unshareFlags
    split_ifs with hasFlags
    · have passed :=
        require_passed process kernel.unshare .unshare
          (·.unshare (flags config))
      cases answered :
          require kernel.unshare .unshare (·.unshare (flags config))
            process with
      | error refusal => exact True.intro
      | ok next =>
          rw [answered] at passed
          exact fun _ => passed
    · exact fun isGiven => absurd isGiven hasFlags
  apply Meets.bind unsharing
  intro process unshared
  exact Meets.const ⟨entered, unshared⟩ _

theorem runInsideNamespaces_refused
    {config : SandboxConfig} {kernel : Kernel}
    (refused : ¬ Unshares config kernel) (worker : Process) :
    ∃ ending process,
      runInsideNamespaces config kernel worker = .ended ending process := by
  have passed := prepare_passed config kernel worker
  unfold runInsideNamespaces
  split
  next ending process failed => exact ⟨ending, process, rfl⟩
  next process succeeds =>
    rw [succeeds] at passed
    exact absurd passed refused

/-! ## The directory of a cgroup -/

/-- A sandbox finds the cgroup file system as the report did. -/
structure SameCgroup (survey : Survey) (host : Host) : Prop where
  mounted : host.mounted = survey.mounted
  path : host.currentCgroupPath = currentCgroupPath survey.cgroupFile
  creates : host.createError = none ↔ survey.probeCreated = true

theorem created_cleanup (host : Host) (holder : Holder) (scene : Scene) :
    (scene.cleanup host holder).directories.created =
      scene.directories.created := by
  unfold Scene.cleanup
  dsimp only
  split <;> rfl

theorem created_writeLimits (host : Host) (chosen : List Limit)
    (scene : Scene) :
    (scene.writeLimits host chosen).2.directories.created =
      scene.directories.created := by
  induction chosen generalizing scene with
  | nil => rfl
  | cons limit later induction =>
      rw [Scene.writeLimits]
      split
      · exact created_cleanup host .supervisor _
      · exact induction _

/-- `CgroupScope::create` gets as far as a directory of its own. -/
theorem created_create
    {config : SandboxConfig} (limited : limits config ≠ []) (host : Host)
    (scene : Scene) :
    (scene.create host config).2.directories.created ≠
        scene.directories.created ↔
      host.mounted = true ∧ host.currentCgroupPath ≠ none ∧
        host.createError = none := by
  rw [Scene.create, if_neg limited]
  cases mounted : host.mounted with
  | false => simp
  | true =>
      rw [if_neg Bool.false_ne_true.symm]
      cases isBase : host.currentCgroupPath with
      | none => simp
      | some base =>
          cases created : host.createError with
          | some reason => simp
          | none =>
              have made :
                  (scene.makeDirectory
                      (CgroupScope.directory host base)).directories.created =
                    scene.directories.created ++
                      [CgroupScope.directory host base] :=
                rfl
              have grown :
                  scene.directories.created ++
                      [CgroupScope.directory host base] ≠
                    scene.directories.created := by
                intro same
                have lengths := congrArg List.length same
                simp at lengths
              dsimp only
              split
              · rw [created_cleanup, made]
                exact iff_of_true grown ⟨rfl, nofun, rfl⟩
              · rw [created_writeLimits, made]
                exact iff_of_true grown ⟨rfl, nofun, rfl⟩

theorem cgroupWritable_detect
    {survey : Survey} {capabilities : IsolationCapabilities}
    (detected :
      detectIsolationCapabilities survey = some capabilities) :
    capabilities.cgroupV2 = true ∧ capabilities.cgroupWritable = true ↔
      survey.mounted = true ∧ currentCgroupPath survey.cgroupFile ≠ none ∧
        survey.probeCreated = true := by
  rcases Option.map_eq_some_iff.mp detected with ⟨isThere, -, rfl⟩
  have unset :
      (detectNamespaces survey isThere).cgroupWritable = false := by
    cases isThere <;> rfl
  unfold detectCgroup
  cases survey.mounted with
  | false => simp [unset]
  | true =>
      cases isPath : currentCgroupPath survey.cgroupFile with
      | none => simp [unset]
      | some base => simp

theorem plain_cgroupRoot
    {survey : Survey} {capabilities : IsolationCapabilities}
    (detected :
      detectIsolationCapabilities survey = some capabilities) :
    newline ∉ capabilities.cgroupRoot := by
  rcases Option.map_eq_some_iff.mp detected with ⟨isThere, -, rfl⟩
  unfold detectCgroup
  cases survey.mounted with
  | true => exact (by decide +kernel : newline ∉ literal "/sys/fs/cgroup")
  | false => cases isThere <;> exact List.not_mem_nil

/--
The text of `sandbox --status` is exact.  If it calls every namespace permitted
that the options ask for, then `unshare` is not what a sandbox with these
options fails from; if it reports kernel support but does not call one of them
permitted, then the program of the sandbox is never started.  Without kernel
support, that is without `/proc/self/ns`, nothing has been probed.  A sandbox
with limits gets a cgroup of its own if and only if the text says that cgroups
can be written.
-/
theorem status_foretells_sandbox
    {policy : Policy} {survey : Survey}
    {capabilities : IsolationCapabilities} {config : SandboxConfig}
    {kernel : Kernel} {worker : Process} {host : Host}
    (follows : Follows policy survey)
    (detected : detectIsolationCapabilities survey = some capabilities)
    (obeys : Obeys policy config kernel) (silent : worker.reports = [])
    (same : SameCgroup survey host) :
    ((∀ space ∈ requested config,
        Prints (renderIsolationStatus capabilities) (reportName space)
          (literal "permitted")) →
        Quiet (workerOf (runInsideNamespaces config kernel worker))) ∧
      (Prints (renderIsolationStatus capabilities)
          (literal "linux-namespaces") (literal "kernel support") →
        (∃ space ∈ requested config,
          ¬ Prints (renderIsolationStatus capabilities) (reportName space)
            (literal "permitted")) →
        ∃ ending process,
          runInsideNamespaces config kernel worker =
            .ended ending process) ∧
      (limits config ≠ [] →
        ∀ scene : Scene,
          (Prints (renderIsolationStatus capabilities)
              (literal "cgroup-write") (literal "available") ↔
            (scene.create host config).2.directories.created ≠
              scene.directories.created)) := by
  have plainRoot := plain_cgroupRoot detected
  have reported (space : Namespace) :
      Prints (renderIsolationStatus capabilities) (reportName space)
          (literal "permitted") ↔
        capabilities.linuxNamespaces = true ∧
          (policy.direct space = true ∨
            policy.direct .user = true ∧ policy.inside space = true) := by
    rw [prints_permitted_iff plainRoot, permits_detect detected,
      Bool.and_eq_true, probeNamespaceFlag_iff follows]
  have unshares_iff := permitted_iff_unshares obeys
  refine ⟨?_, ?_, ?_⟩
  · intro permitted
    refine runInsideNamespaces_quiet ?_ ?_
    · exact unshares_iff.mp fun space isRequested =>
        ((reported space).mp (permitted space isRequested)).2
    · rw [Quiet, silent]
      exact List.forall_mem_nil _
  · rintro supported ⟨space, isRequested, denied⟩
    refine runInsideNamespaces_refused (fun unshares => ?_) worker
    exact denied ((reported space).mpr
      ⟨(prints_kernelSupport_iff plainRoot).mp supported,
        unshares_iff.mpr unshares space isRequested⟩)
  · intro limited scene
    rw [created_create limited, prints_cgroupWrite_iff plainRoot,
      cgroupWritable_detect detected, same.mounted, same.path, same.creates]

/-- A user who may only create user namespaces, and everything inside. -/
def samplePolicy : Policy where
  direct space := space = .user
  inside _ := true
  inside_of_direct _ _ := rfl

def sampleSurvey : Survey where
  nsExists := some true
  probe spaces :=
    .ended (if samplePolicy.allows spaces then 0#32 else 0x100#32)
  mounted := true
  cgroupFile := literal "0::/user.slice\n"
  probeCreated := true

/-- A sandbox with three namespaces and a limit. -/
def sampleConfig : SandboxConfig :=
  { procConfig with hasPidsMax := true, pidsMax := 8 }

theorem status_foretells_sandbox_sample :
    Quiet
        (workerOf
          (runInsideNamespaces sampleConfig sampleKernel
            { hostname := literal "host" })) ∧
      ∀ scene : Scene,
        (scene.create Handshake.sampleHost sampleConfig).2.directories.created ≠
          scene.directories.created := by
  have follows : Follows samplePolicy sampleSurvey := by
    intro spaces
    show probeUnshareFlags
      (.ended (if samplePolicy.allows spaces then _ else _)) = _
    cases samplePolicy.allows spaces <;> decide +kernel
  have obeys : Obeys samplePolicy sampleConfig sampleKernel :=
    ⟨by decide +kernel, by decide +kernel, by decide +kernel⟩
  have same : SameCgroup sampleSurvey Handshake.sampleHost :=
    ⟨rfl, by decide +kernel, by decide +kernel⟩
  have detected :
      ∃ capabilities,
        detectIsolationCapabilities sampleSurvey = some capabilities ∧
          (∀ space ∈ requested sampleConfig,
            capabilities.permits space = true) ∧
          capabilities.cgroupV2 = true ∧
          capabilities.cgroupWritable = true :=
    ⟨_, rfl, by decide +kernel, by decide +kernel, by decide +kernel⟩
  rcases detected with ⟨capabilities, detected, permitted, writable⟩
  have plainRoot := plain_cgroupRoot detected
  have silent : ({ hostname := literal "host" } : Process).reports = [] := rfl
  rcases status_foretells_sandbox follows detected obeys silent same with
    ⟨quiet, -, created⟩
  have limited : limits sampleConfig ≠ [] := by
    decide +kernel
  refine ⟨quiet fun space isRequested => ?_, fun scene => ?_⟩
  · exact (prints_permitted_iff plainRoot space).mpr
      (permitted space isRequested)
  · exact (created limited scene).mp
      ((prints_cgroupWrite_iff plainRoot).mpr writable)

end Shell.StatusReport
