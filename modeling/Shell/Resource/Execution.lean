import Mathlib.Logic.Function.Basic
import Shell.Executor.PathSearch
import Shell.Resource.Options

/-!
# Running a program under limits

`apply_soft_limit` and `execute_resource_run_child`.  The process has a soft
and a hard limit for every resource, and a nice value.  The kernel answers each
call with success or with the text of an error; a call that fails changes
nothing.

The limits are applied one after the other, and each application may be refused
by the shell or by the kernel.  They concern different resources, so none of
them undoes another.
-/

namespace Shell.ResourceExecution

open Shell.Syntax
open Shell.PathSearch
open Shell.ResourceOptions

/-! ## Limits -/

/-- The resources of Linux. -/
inductive Resource where
  | cpu
  | fsize
  | data
  | stack
  | core
  | rss
  | nproc
  | nofile
  | memlock
  | addressSpace
  | locks
  | sigpending
  | msgqueue
  | nice
  | rtprio
  | rttime
deriving DecidableEq, Repr

/-- `rlimit`: `rlim_cur` and `rlim_max`. -/
structure Rlimit where
  soft : Nat
  hard : Nat
deriving DecidableEq, Repr

/-- `RLIM_INFINITY`. -/
def rlimInfinity : Nat := 0xffffffffffffffff

/-- What the kernel answers; an error is given by its text. -/
structure Kernel where
  getrlimit : Resource → Option ByteString := fun _ => none
  setrlimit : Resource → Option ByteString := fun _ => none
  setpriority : Option ByteString := none
  execv : Option ByteString := none

/-- The process that runs `execute_resource_run_child`, and its output. -/
structure Child where
  limits : Resource → Rlimit
  nice : Int
  output : List ByteString := []
  errors : List ByteString := []

def Child.report (child : Child) (text : ByteString) : Child :=
  { child with errors := child.errors ++ [text] }

/-- The effect of a successful `setrlimit`. -/
def Child.setLimit (child : Child) (resource : Resource) (limit : Rlimit) :
    Child :=
  { child with limits := Function.update child.limits resource limit }

/-- A limit that the configuration asks for, and its label in messages. -/
structure LimitRequest where
  resource : Resource
  requested : Nat
  label : ByteString
deriving DecidableEq, Repr

/-- `apply_soft_limit`. -/
def applySoftLimit (kernel : Kernel) (request : LimitRequest)
    (child : Child) : Bool × Child :=
  let ⟨resource, requested, label⟩ := request
  if requested ≥ rlimInfinity then
    (false,
      child.report
        (literal "run: " ++ label ++ literal " limit is too large\n"))
  else
    match kernel.getrlimit resource with
    | some reason =>
        (false,
          child.report
            (literal "run: getrlimit(" ++ label ++ literal "): " ++ reason ++
              literal "\n"))
    | none =>
        let current := child.limits resource
        if current.hard ≠ rlimInfinity ∧ requested > current.hard then
          (false,
            child.report
              (literal "run: requested " ++ label ++
                literal " limit exceeds hard limit\n"))
        else
          match kernel.setrlimit resource with
          | some reason =>
              (false,
                child.report
                  (literal "run: setrlimit(" ++ label ++ literal "): " ++
                    reason ++ literal "\n"))
          | none => (true, child.setLimit resource ⟨requested, current.hard⟩)

/-! ## The whole function -/

/-- `resource_run_usage`. -/
def resourceRunUsage : ByteString :=
  literal
    ("usage: run [OPTIONS] -- PROGRAM [ARGS...]\n" ++
      "       run [OPTIONS] PROGRAM [ARGS...]\n" ++
      "\n" ++
      "Run PROGRAM in a child process with per-process resource controls.\n" ++
      "\n" ++
      "Options:\n" ++
      "  --max-memory SIZE   address-space limit (B/K/M/G suffixes)\n" ++
      "  --max-fds N         maximum open file descriptors\n" ++
      "  --cpu-time SEC      CPU-time limit in seconds\n" ++
      "  --max-procs N       maximum processes for this real user " ++
      "(RLIMIT_NPROC)\n" ++
      "  --core-size SIZE    maximum core-file size " ++
      "(B/K/M/G; 0 disables cores)\n" ++
      "  --nice N            scheduling nice value from -20 to 19\n" ++
      "  -h, --help          show this help\n")

/-- What an option asks `apply_soft_limit` for. -/
def limitRequest (config : ResourceRunConfig) :
    RunOption → Option LimitRequest
  | .maxMemory =>
      if config.hasMaxMemory then
        some ⟨.addressSpace, config.maxMemoryBytes, literal "address-space"⟩
      else none
  | .maxFds =>
      if config.hasMaxFds then
        some ⟨.nofile, config.maxFds, literal "open-files"⟩
      else none
  | .cpuTime =>
      if config.hasCpuTime then
        some ⟨.cpu, config.cpuTimeSeconds, literal "cpu-time"⟩
      else none
  | .maxProcs =>
      if config.hasMaxProcs then
        some ⟨.nproc, config.maxProcs, literal "processes"⟩
      else none
  | .coreSize =>
      if config.hasCoreSize then
        some ⟨.core, config.coreSizeBytes, literal "core-size"⟩
      else none
  | .nice => none

/-- The limits in the order in which they are applied. -/
def limitRequests (config : ResourceRunConfig) : List LimitRequest :=
  [RunOption.maxMemory, .maxFds, .cpuTime, .maxProcs, .coreSize].filterMap
    (limitRequest config)

/-- The calls of `apply_soft_limit`, up to the first that fails. -/
def applyLimits (kernel : Kernel) :
    List LimitRequest → Child → Bool × Child
  | [], child => (true, child)
  | request :: later, child =>
      match applySoftLimit kernel request child with
      | (false, child) => (false, child)
      | (true, child) => applyLimits kernel later child

/-- The call of `setpriority`. -/
def applyNice (kernel : Kernel) (config : ResourceRunConfig)
    (child : Child) : Bool × Child :=
  if config.hasNice then
    match kernel.setpriority with
    | some reason =>
        (false,
          child.report
            (literal "run: setpriority: " ++ reason ++ literal "\n"))
    | none => (true, { child with nice := config.niceValue })
  else
    (true, child)

/-- How `execute_resource_run_child` ends. -/
structure Outcome where
  child : Child
  /-- The arguments of `execv`, if it is called. -/
  execv : Option (ByteString × List ByteString) := none
  /-- The returned value, unless the process has been replaced. -/
  status : Option Int

/-- `execute_resource_run_child` from the search for the program on. -/
def execProgram (kernel : Kernel) (environment : Environment)
    (programArgs : List ByteString) (child : Child) : Outcome :=
  let program := programArgs.headD []
  let executable := findExecutable environment program
  if executable = [] then
    { child := child.report (program ++ literal ": command not found\n")
      status := some 127 }
  else
    match kernel.execv with
    | none =>
        { child := child
          execv := some (executable, programArgs)
          status := none }
    | some reason =>
        { child :=
            child.report
              (literal "run: exec " ++ program ++ literal ": " ++ reason ++
                literal "\n")
          execv := some (executable, programArgs)
          status := some 126 }

/-- `execute_resource_run_child`. -/
def executeResourceRunChild (kernel : Kernel) (environment : Environment)
    (command : Command) (child : Child) : Outcome :=
  let parsed := parseResourceRun command
  if parsed.error ≠ [] then
    { child := child.report (parsed.error ++ literal "\n")
      status := some 2 }
  else if parsed.config.showHelp then
    { child := { child with output := child.output ++ [resourceRunUsage] }
      status := some 0 }
  else
    match applyLimits kernel (limitRequests parsed.config) child with
    | (false, child) => { child := child, status := some 1 }
    | (true, child) =>
        match applyNice kernel parsed.config child with
        | (false, child) => { child := child, status := some 1 }
        | (true, child) =>
            execProgram kernel environment parsed.config.programArgs child

/-! ## One limit -/

/-- The shell or the kernel refuses the limit. -/
def Refused (kernel : Kernel) (limits : Resource → Rlimit)
    (resource : Resource) (requested : Nat) : Prop :=
  rlimInfinity ≤ requested ∨ kernel.getrlimit resource ≠ none ∨
    ((limits resource).hard ≠ rlimInfinity ∧
      (limits resource).hard < requested) ∨
    kernel.setrlimit resource ≠ none

def LimitRequest.Refused (kernel : Kernel) (limits : Resource → Rlimit)
    (request : LimitRequest) : Prop :=
  ResourceExecution.Refused kernel limits request.resource request.requested

/-- A limit is refused with a message, or the soft limit is set. -/
theorem applySoftLimit_cases
    (kernel : Kernel) (request : LimitRequest) (child : Child) :
    (request.Refused kernel child.limits ∧
        ∃ text,
          applySoftLimit kernel request child =
            (false, child.report text)) ∨
      (¬ request.Refused kernel child.limits ∧
        applySoftLimit kernel request child =
          (true,
            child.setLimit request.resource
              ⟨request.requested,
                (child.limits request.resource).hard⟩)) := by
  rcases request with ⟨resource, requested, label⟩
  simp only [applySoftLimit, LimitRequest.Refused, Refused]
  by_cases tooLarge : rlimInfinity ≤ requested
  · exact Or.inl ⟨Or.inl tooLarge, _, if_pos tooLarge⟩
  rw [if_neg tooLarge]
  cases reads : kernel.getrlimit resource with
  | some reason =>
      exact Or.inl ⟨Or.inr (Or.inl (Option.some_ne_none reason)), _, rfl⟩
  | none =>
      by_cases exceeds :
          (child.limits resource).hard ≠ rlimInfinity ∧
            (child.limits resource).hard < requested
      · exact Or.inl ⟨Or.inr (Or.inr (Or.inl exceeds)), _, if_pos exceeds⟩
      · simp only [gt_iff_lt, if_neg exceeds]
        cases writes : kernel.setrlimit resource with
        | some reason =>
            exact Or.inl
              ⟨Or.inr (Or.inr (Or.inr (Option.some_ne_none reason))), _, rfl⟩
        | none => exact Or.inr ⟨by simp [tooLarge, exceeds], rfl⟩

/-- Whether a limit is refused depends on the hard limit alone. -/
theorem refused_congr
    (kernel : Kernel) {limits other : Resource → Rlimit}
    {request : LimitRequest}
    (sameHard :
      (other request.resource).hard = (limits request.resource).hard) :
    request.Refused kernel other ↔ request.Refused kernel limits := by
  rw [LimitRequest.Refused, Refused, sameHard]
  rfl

theorem hard_setLimit
    (child : Child) (changed resource : Resource) (soft : Nat) :
    ((child.setLimit changed
          ⟨soft, (child.limits changed).hard⟩).limits resource).hard =
      (child.limits resource).hard := by
  by_cases same : resource = changed
  · subst same
    simp [Child.setLimit]
  · simp [Child.setLimit, same]

theorem limits_setLimit_of_ne
    (child : Child) {changed resource : Resource}
    (different : resource ≠ changed) (limit : Rlimit) :
    (child.setLimit changed limit).limits resource =
      child.limits resource := by
  simp [Child.setLimit, different]

/-! ## All limits -/

/-- What the limits are after the requests have been granted. -/
structure Granted (requests : List LimitRequest) (before after : Child) :
    Prop where
  softLimit :
    ∀ request ∈ requests,
      after.limits request.resource =
        ⟨request.requested, (before.limits request.resource).hard⟩
  hardLimits :
    ∀ resource,
      (after.limits resource).hard = (before.limits resource).hard
  others :
    ∀ resource, resource ∉ requests.map LimitRequest.resource →
      after.limits resource = before.limits resource
  nice : after.nice = before.nice

/-- The limits are all granted, unless one of them is refused. -/
theorem applyLimits_cases
    (kernel : Kernel) {requests : List LimitRequest}
    (distinct : (requests.map LimitRequest.resource).Nodup)
    (child : Child) :
    ((∃ request ∈ requests, request.Refused kernel child.limits) ∧
        (applyLimits kernel requests child).1 = false) ∨
      ((∀ request ∈ requests, ¬ request.Refused kernel child.limits) ∧
        (applyLimits kernel requests child).1 = true ∧
        Granted requests child (applyLimits kernel requests child).2) := by
  induction requests generalizing child with
  | nil =>
      refine Or.inr ⟨List.forall_mem_nil _, rfl, List.forall_mem_nil _, ?_, ?_,
        rfl⟩
      · exact fun _ => rfl
      · exact fun _ _ => rfl
  | cons request later induction =>
      rw [List.map_cons, List.nodup_cons] at distinct
      rcases distinct with ⟨notLater, laterDistinct⟩
      rw [applyLimits]
      rcases applySoftLimit_cases kernel request child with
        ⟨refused, text, applied⟩ | ⟨notRefused, applied⟩
      · rw [applied]
        exact Or.inl ⟨⟨request, List.mem_cons_self, refused⟩, rfl⟩
      · rw [applied]
        have sameHard := hard_setLimit child request.resource
        have sameRefusal (other : LimitRequest) :=
          refused_congr kernel (sameHard other.resource request.requested)
        rcases induction laterDistinct
            (child.setLimit request.resource
              ⟨request.requested, (child.limits request.resource).hard⟩) with
          ⟨⟨other, isLater, refused⟩, failed⟩ | ⟨noneRefused, succeeded, granted⟩
        · exact Or.inl
            ⟨⟨other, List.mem_cons_of_mem _ isLater,
              (sameRefusal other).mp refused⟩, failed⟩
        · refine Or.inr ⟨?_, succeeded, ?_, ?_, ?_, ?_⟩
          · rw [List.forall_mem_cons]
            exact ⟨notRefused, fun other isLater =>
              mt (sameRefusal other).mpr (noneRefused other isLater)⟩
          · rw [List.forall_mem_cons]
            constructor
            · rw [granted.others _ notLater]
              simp [Child.setLimit]
            · intro other isLater
              rw [granted.softLimit other isLater, sameHard]
          · intro resource
            rw [granted.hardLimits, sameHard]
          · intro resource notRequested
            rw [List.map_cons, List.mem_cons, not_or] at notRequested
            rw [granted.others resource notRequested.2,
              limits_setLimit_of_ne child notRequested.1]
          · exact granted.nice

/-! ## The requests of a configuration -/

/-- The resource that an option limits. -/
def resourceOf : RunOption → Option Resource
  | .maxMemory => some .addressSpace
  | .maxFds => some .nofile
  | .cpuTime => some .cpu
  | .maxProcs => some .nproc
  | .coreSize => some .core
  | .nice => none

/-- An option asks for a limit on its resource if the configuration has a
number for it. -/
theorem limitRequest_eq
    (config : ResourceRunConfig) {option : RunOption} {resource : Resource}
    (limits : resourceOf option = some resource) :
    (limitRequest config option).map
        (fun request => (request.resource, (request.requested : Int))) =
      (option.requested config).map fun number => (resource, number) := by
  cases option <;> cases limits <;>
    simp only [limitRequest, RunOption.requested] <;> split <;> rfl

theorem resourceOf_limitRequest
    {config : ResourceRunConfig} {option : RunOption}
    {request : LimitRequest}
    (isRequest : limitRequest config option = some request) :
    resourceOf option = some request.resource := by
  cases option <;> simp only [limitRequest, reduceCtorEq] at isRequest <;>
    split_ifs at isRequest <;> cases isRequest <;> rfl

theorem mem_limitRequests
    {config : ResourceRunConfig} {request : LimitRequest} :
    request ∈ limitRequests config ↔
      ∃ option, limitRequest config option = some request := by
  rw [limitRequests, List.mem_filterMap]
  constructor
  · rintro ⟨option, -, isRequest⟩
    exact ⟨option, isRequest⟩
  · rintro ⟨option, isRequest⟩
    refine ⟨option, ?_, isRequest⟩
    cases option with
    | nice => cases isRequest
    | _ => decide

theorem resources_nodup (config : ResourceRunConfig) :
    ((limitRequests config).map LimitRequest.resource).Nodup := by
  have injective :
      ∀ option other resource, resourceOf option = some resource →
        resourceOf other = some resource → option = other := by
    intro option other resource limits limitsToo
    cases option <;> cases limits <;> cases other <;>
      first | rfl | cases limitsToo
  rw [List.Nodup, List.pairwise_map, limitRequests, List.pairwise_filterMap]
  apply List.Pairwise.imp ?_ (show List.Nodup _ by decide)
  intro option other different request isRequest request' isRequest' same
  apply different
  apply injective option other request.resource
  · exact resourceOf_limitRequest isRequest
  · rw [same]
    exact resourceOf_limitRequest isRequest'

/-! ## What a program runs under -/

/-- The nice value is set, unless it is asked for and the kernel refuses. -/
theorem applyNice_cases
    (kernel : Kernel) (config : ResourceRunConfig) (child : Child) :
    (RunOption.nice.requested config ≠ none ∧ kernel.setpriority ≠ none ∧
        (applyNice kernel config child).1 = false) ∨
      ((RunOption.nice.requested config ≠ none →
          kernel.setpriority = none) ∧
        applyNice kernel config child =
          (true,
            { child with
              nice :=
                (RunOption.nice.requested config).getD child.nice })) := by
  simp only [applyNice, RunOption.requested]
  cases config.hasNice with
  | false => exact Or.inr ⟨fun absent => absurd rfl absent, rfl⟩
  | true =>
      cases answer : kernel.setpriority with
      | some reason =>
          exact Or.inl
            ⟨Option.some_ne_none _, Option.some_ne_none reason, rfl⟩
      | none => exact Or.inr ⟨fun _ => rfl, rfl⟩

/-- What `execute_resource_run_child` does with an accepted configuration. -/
theorem executeResourceRunChild_accepted
    {command : Command} {config : ResourceRunConfig}
    (accepted : parseResourceRun command = ⟨config, []⟩)
    (noHelp : config.showHelp = false)
    (kernel : Kernel) (environment : Environment) (child : Child) :
    executeResourceRunChild kernel environment command child =
      match applyLimits kernel (limitRequests config) child with
      | (false, child) => { child := child, status := some 1 }
      | (true, child) =>
          match applyNice kernel config child with
          | (false, child) => { child := child, status := some 1 }
          | (true, child) =>
              execProgram kernel environment config.programArgs child := by
  simp only [executeResourceRunChild, accepted, noHelp]
  rfl

theorem execProgram_limits
    (kernel : Kernel) (environment : Environment)
    (programArgs : List ByteString) (child : Child) :
    (execProgram kernel environment programArgs child).child.limits =
        child.limits ∧
      (execProgram kernel environment programArgs child).child.nice =
        child.nice := by
  simp only [execProgram]
  split
  · exact ⟨rfl, rfl⟩
  · split <;> exact ⟨rfl, rfl⟩

/-- The limits and the nice value that a configuration asks for are in force,
and nothing else has changed. -/
structure InForce (config : ResourceRunConfig) (before after : Child) :
    Prop where
  requested :
    ∀ option resource number, resourceOf option = some resource →
      option.requested config = some number →
      ((after.limits resource).soft : Int) = number ∧
        (after.limits resource).soft ≤ (after.limits resource).hard ∧
        (after.limits resource).soft ≠ rlimInfinity
  hardLimits :
    ∀ resource,
      (after.limits resource).hard = (before.limits resource).hard
  others :
    ∀ resource,
      (∀ option, resourceOf option = some resource →
        option.requested config = none) →
      after.limits resource = before.limits resource
  nice :
    after.nice = (RunOption.nice.requested config).getD before.nice

/-- Some limit is refused, or the nice value is. -/
def SomeRefused (kernel : Kernel) (config : ResourceRunConfig)
    (before : Child) : Prop :=
  (∃ option resource number, resourceOf option = some resource ∧
      option.requested config = some (number : Nat) ∧
      Refused kernel before.limits resource number) ∨
    (RunOption.nice.requested config ≠ none ∧ kernel.setpriority ≠ none)

/-- An option with a number is one of the requests. -/
theorem request_of_requested
    {config : ResourceRunConfig} {option : RunOption} {resource : Resource}
    {number : Int} (limits : resourceOf option = some resource)
    (isRequested : option.requested config = some number) :
    ∃ request ∈ limitRequests config,
      request.resource = resource ∧ (request.requested : Int) = number := by
  have sameRequest := limitRequest_eq config limits
  rw [isRequested, Option.map_some] at sameRequest
  rcases Option.map_eq_some_iff.mp sameRequest with
    ⟨request, isRequest, same⟩
  rcases Prod.mk.inj same with ⟨sameResource, sameNumber⟩
  exact ⟨request, mem_limitRequests.mpr ⟨option, isRequest⟩, sameResource,
    sameNumber⟩

/-- A resource without a number for its option is not among the requests. -/
theorem not_requested
    {config : ResourceRunConfig} {resource : Resource}
    (absent :
      ∀ option, resourceOf option = some resource →
        option.requested config = none) :
    resource ∉ (limitRequests config).map LimitRequest.resource := by
  intro member
  rcases List.mem_map.mp member with ⟨request, isRequest, rfl⟩
  rcases mem_limitRequests.mp isRequest with ⟨option, asked⟩
  have limits := resourceOf_limitRequest asked
  have sameRequest := limitRequest_eq config limits
  rw [asked, absent option limits] at sameRequest
  cases sameRequest

theorem inForce_of_granted
    {kernel : Kernel} {config : ResourceRunConfig} {before after : Child}
    (granted : Granted (limitRequests config) before after)
    (noneRefused :
      ∀ request ∈ limitRequests config,
        ¬ request.Refused kernel before.limits) :
    InForce config before
      { after with
        nice := (RunOption.nice.requested config).getD before.nice } where
  requested := by
    intro option resource number limits isRequested
    rcases request_of_requested limits isRequested with
      ⟨request, isRequest, rfl, rfl⟩
    have notRefused := noneRefused request isRequest
    simp only [LimitRequest.Refused, Refused, not_or, not_and, Nat.not_le,
      Nat.not_lt] at notRefused
    rcases notRefused with ⟨finite, -, withinHard, -⟩
    simp only [granted.softLimit request isRequest]
    refine ⟨trivial, ?_, Nat.ne_of_lt finite⟩
    by_cases unlimited :
        (before.limits request.resource).hard = rlimInfinity
    · rw [unlimited]
      exact Nat.le_of_lt finite
    · exact withinHard unlimited
  hardLimits := granted.hardLimits
  others resource absent := granted.others resource (not_requested absent)
  nice := rfl

theorem InForce.congr
    {config : ResourceRunConfig} {before after other : Child}
    (inForce : InForce config before after)
    (sameLimits : other.limits = after.limits)
    (sameNice : other.nice = after.nice) :
    InForce config before other where
  requested := by
    rw [sameLimits]
    exact inForce.requested
  hardLimits := by
    rw [sameLimits]
    exact inForce.hardLimits
  others := by
    rw [sameLimits]
    exact inForce.others
  nice := sameNice.trans inForce.nice

/--
If `execute_resource_run_child` calls `execv`, every limit and the nice value
that were asked for are in force, and no other limit and no hard limit has
changed.  If one of them is refused, `execv` is not called and the result
is 1.
-/
theorem limits_in_force
    {command : Command} {config : ResourceRunConfig}
    (accepted : parseResourceRun command = ⟨config, []⟩)
    (noHelp : config.showHelp = false)
    (kernel : Kernel) (environment : Environment) (child : Child) :
    ((executeResourceRunChild kernel environment command child).execv ≠
        none →
      InForce config child
        (executeResourceRunChild kernel environment command child).child) ∧
    (SomeRefused kernel config child →
      (executeResourceRunChild kernel environment command child).execv =
          none ∧
        (executeResourceRunChild kernel environment command child).status =
          some 1) := by
  rw [executeResourceRunChild_accepted accepted noHelp]
  have limited :=
    applyLimits_cases kernel (resources_nodup config) child
  cases applied : applyLimits kernel (limitRequests config) child with
  | mk succeeded after =>
      rw [applied] at limited
      rcases limited with
        ⟨refused, rfl⟩ | ⟨noneRefused, rfl, granted⟩
      · exact ⟨fun called => absurd rfl called, fun _ => ⟨rfl, rfl⟩⟩
      · simp only
        rcases applyNice_cases kernel config after with
          ⟨asked, fails, failed⟩ | ⟨succeeds, reniced⟩
        · cases result : applyNice kernel config after with
          | mk nicely final =>
              rw [result] at failed
              cases failed
              exact ⟨fun called => absurd rfl called, fun _ => ⟨rfl, rfl⟩⟩
        · rw [reniced]
          constructor
          · intro _
            apply (inForce_of_granted granted noneRefused).congr
            · exact (execProgram_limits _ _ _ _).1
            · rw [(execProgram_limits _ _ _ _).2, granted.nice]
          · rintro (⟨option, resource, number, limits, isRequested, refused⟩ |
              ⟨asked, fails⟩)
            · rcases request_of_requested limits isRequested with
                ⟨request, isRequest, rfl, sameNumber⟩
              rw [← Int.natCast_inj.mp sameNumber] at refused
              exact absurd refused (noneRefused request isRequest)
            · exact absurd (succeeds asked) fails

/-- A process with a hard limit on its descriptors. -/
def sampleChild : Child where
  limits resource :=
    if resource = .nofile then ⟨1024, 4096⟩ else ⟨rlimInfinity, rlimInfinity⟩
  nice := 0

def sampleEnvironment : Environment :=
  ⟨some (literal "/bin"), fun path => path = literal "/bin/env"⟩

def sampleConfig : ResourceRunConfig :=
  { hasMaxFds := true
    maxFds := 64
    hasNice := true
    niceValue := 5
    programArgs := [literal "env"] }

def sampleCommand : Command :=
  { args :=
      [literal "run", literal "--max-fds", literal "64", literal "--nice",
        literal "5", literal "env"] }

/-- The program is run with 64 descriptors; without the right to change its
priority it is not run. -/
theorem limits_in_force_sample :
    InForce sampleConfig sampleChild
        (executeResourceRunChild {} sampleEnvironment sampleCommand
          sampleChild).child ∧
      (executeResourceRunChild { setpriority := some (literal "EACCES") }
          sampleEnvironment sampleCommand sampleChild).status = some 1 := by
  have accepted : parseResourceRun sampleCommand = ⟨sampleConfig, []⟩ := by
    decide +kernel
  constructor
  · apply (limits_in_force accepted rfl {} sampleEnvironment sampleChild).1
    decide +kernel
  · refine ((limits_in_force accepted rfl _ sampleEnvironment
      sampleChild).2 (Or.inr ⟨?_, ?_⟩)).2
    · exact Option.some_ne_none _
    · exact Option.some_ne_none _

end Shell.ResourceExecution
