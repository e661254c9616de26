import Shell.Sandbox.Handshake

/-!
# Limits that are not in force

The worker is released when `create` and `attach` return true.  Both rely on
`write_text_file`, which knows whether a control file could be opened, but not
what the kernel says to the text.  So a host that lets all the files be opened
and then rejects a write gets past them, and the program runs without the
limit; on every other host the limits fail closed.
-/

namespace Shell.SandboxLimits

open Shell.Syntax
open Shell.TransitionSystem
open Shell.SandboxOptions
open Shell.ControlFiles
open Shell.Handshake

/-- The kernel has accepted every write that the limits need. -/
def Enforced (machine : Machine) : Prop :=
  ∀ file ∈ requestedFiles machine.config,
    ∃ write ∈ machine.scope.writes,
      write.file = file ∧ write.accepted = true

/-! ## Written before the attachment -/

/-- The phases between the cgroup and the attachment. -/
def awaitsAttach : SupervisorPhase → Bool
  | .piping | .forking | .closingRead _ | .attaching _ => true
  | _ => false

/-- The text of every limit has gone to the kernel before the attachment, and
the worker's process ID with the attachment. -/
structure WritesInvariant (machine : Machine) : Prop where
  created :
    awaitsAttach machine.supervisor = true →
      limits machine.config = [] ∨
        machine.host.Prepares machine.config ∧ machine.scope.path ≠ [] ∧
          ∀ limit ∈ limits machine.config,
            machine.scope.Wrote machine.host limit.file
  attached :
    machine.attached = some true →
      limits machine.config = [] ∨
        machine.host.Prepares machine.config ∧
          ∀ file ∈ requestedFiles machine.config,
            machine.scope.Wrote machine.host file

theorem wrote_requested
    {host : Host} {config : SandboxConfig} {scope next : CgroupScope}
    {pid : Int}
    (created :
      limits config = [] ∨
        host.Prepares config ∧ scope.path ≠ [] ∧
          ∀ limit ∈ limits config, scope.Wrote host limit.file)
    (succeeded : scope.attach host pid = (.ok (), next)) :
    limits config = [] ∨
      host.Prepares config ∧
        ∀ file ∈ requestedFiles config, next.Wrote host file := by
  rcases created with none | ⟨prepares, hasPath, wrote⟩
  · exact Or.inl none
  · refine Or.inr ⟨prepares, fun file isRequested => ?_⟩
    rcases CgroupScope.attach_ok succeeded with ⟨more, wroteProcs⟩
    unfold requestedFiles at isRequested
    split_ifs at isRequested
    · cases isRequested
    · rcases List.mem_append.mp isRequested with isLimit | isProcs
      · rcases List.mem_map.mp isLimit with ⟨limit, chosen, rfl⟩
        exact (wrote limit chosen).mono more
      · cases List.mem_singleton.mp isProcs
        exact wroteProcs hasPath

/-- A return adds to the writes only. -/
theorem WritesInvariant.leave
    {machine : Machine} (holds : WritesInvariant machine) (status : Int) :
    WritesInvariant (machine.leave status) := by
  constructor
  · exact nofun
  · intro isAttached
    refine (holds.attached isAttached).imp_right fun ⟨prepares, wrote⟩ => ?_
    refine ⟨prepares, fun file isRequested => ?_⟩
    exact (wrote file isRequested).mono
      (CgroupScope.writes_subset_cleanup _ _)

theorem WritesInvariant.report
    {machine : Machine} (holds : WritesInvariant machine)
    (text : ByteString) :
    WritesInvariant (machine.report text) :=
  ⟨holds.created, holds.attached⟩

theorem WritesInvariant.of_supervisorStep
    {machine next : Machine} {label : Label}
    (holds : WritesInvariant machine)
    (supervisor : SupervisorInvariant machine)
    (stepped : SupervisorStep machine label next) :
    WritesInvariant next := by
  have fresh :
      machine.supervisor = .creating → machine.attached ≠ some true := by
    intro isCreating isAttached
    have agrees := supervisor.agrees
    rw [isCreating, isAttached] at agrees
    cases agrees.1
  cases stepped with
  | create isCreating created =>
      exact ⟨fun _ => CgroupScope.create_ok created,
        fun isAttached => absurd isAttached (fresh isCreating)⟩
  | createFails isCreating failed =>
      exact ⟨nofun, fun isAttached => absurd isAttached (fresh isCreating)⟩
  | pipe isPiping =>
      exact ⟨fun _ => holds.created (by rw [isPiping]; rfl), holds.attached⟩
  | fork isForking =>
      exact ⟨fun _ => holds.created (by rw [isForking]; rfl),
        holds.attached⟩
  | resetRead isClosing =>
      exact ⟨fun _ => holds.created (by rw [isClosing]; rfl),
        holds.attached⟩
  | attach isAttaching attached =>
      have created := holds.created (by rw [isAttaching]; rfl)
      exact ⟨nofun, fun _ => wrote_requested created attached⟩
  | attachFails isAttaching failed => exact ⟨nofun, nofun⟩
  | pipeFails _ | forkFails _ | waitFails _ =>
      exact (holds.report _).leave 1
  | waitUnattached _ _ | wait _ _ => exact holds.leave _
  | waitInterrupted _ | die => exact ⟨holds.created, holds.attached⟩
  | _ => exact ⟨nofun, holds.attached⟩

theorem WritesInvariant.of_workerStep
    {machine next : Machine} {label : Label}
    (holds : WritesInvariant machine)
    (stepped : WorkerStep machine label next) :
    WritesInvariant next := by
  cases stepped <;> exact ⟨holds.created, holds.attached⟩

/-- Host and configuration do not change. -/
theorem machineStep_host_config
    {machine next : Machine} {label : Label}
    (stepped : machineStep machine label = some next) :
    next.host = machine.host ∧ next.config = machine.config := by
  rcases machineStep_cases stepped with ⟨_, step⟩ | step <;>
    cases step <;> exact ⟨rfl, rfl⟩

/-- What is known in every state of a run for a host and a configuration. -/
structure RunInvariant (host : Host) (config : SandboxConfig)
    (machine : Machine) : Prop where
  sameHost : machine.host = host
  sameConfig : machine.config = config
  handshake : Invariant machine
  writes : WritesInvariant machine

theorem run_invariant
    {host : Host} {config : SandboxConfig} {labels : List Label}
    {machine : Machine}
    (ran :
      handshake.run { host := host, config := config } labels =
        some machine) :
    RunInvariant host config machine := by
  apply System.run_preserves (RunInvariant host config) _ _ ran
  · intro machine label next holds stepped
    rcases machineStep_host_config stepped with ⟨sameHost, sameConfig⟩
    refine ⟨sameHost.trans holds.sameHost,
      sameConfig.trans holds.sameConfig, holds.handshake.step stepped, ?_⟩
    rcases machineStep_cases stepped with ⟨_, step⟩ | step
    · exact holds.writes.of_supervisorStep holds.handshake.supervisor step
    · exact holds.writes.of_workerStep step
  · exact ⟨rfl, rfl, IsStart.invariant ⟨host, config, rfl⟩,
      ⟨nofun, nofun⟩⟩

/-! ## Failing closed -/

/-- The worker is released only with the limits in force; otherwise the program
does not run, and `execute_sandbox_child` comes back with a failure. -/
def FailsClosed (machine : Machine) : Prop :=
  (machine.sent = true → Enforced machine) ∧
    (¬ Enforced machine →
      machine.entered = false ∧
        (∀ status, machine.supervisor = .returned status → status ≠ 0) ∧
        (machine.AtRest → machine.alive = true →
          ∃ status, machine.supervisor = .returned status))

theorem RunInvariant.enforced
    {host : Host} {config : SandboxConfig} {machine : Machine}
    (holds : RunInvariant host config machine)
    (accepts :
      host.OpensAll config →
        ∀ file ∈ requestedFiles config, host.acceptsWrite file = true)
    (isAttached : machine.attached = some true) :
    Enforced machine := by
  have attached := holds.writes.attached isAttached
  rw [Enforced]
  rw [holds.sameConfig] at attached ⊢
  rw [holds.sameHost] at attached
  intro file isRequested
  rcases attached with none | ⟨prepares, wrote⟩
  · rw [requestedFiles, if_pos none] at isRequested
    cases isRequested
  · have opens : host.OpensAll config :=
      ⟨prepares, fun other isOther => (wrote other isOther).1⟩
    rcases wrote file isRequested with ⟨-, data, isWrite⟩
    exact ⟨_, isWrite, rfl, accepts opens file isRequested⟩

theorem RunInvariant.failsClosed
    {host : Host} {config : SandboxConfig} {machine : Machine}
    (holds : RunInvariant host config machine)
    (accepts :
      host.OpensAll config →
        ∀ file ∈ requestedFiles config, host.acceptsWrite file = true) :
    FailsClosed machine := by
  have released : machine.sent = true → Enforced machine := by
    intro isSent
    apply holds.enforced accepts
    exact holds.handshake.supervisor.agrees.attached_of_sent isSent
  refine ⟨released, fun unenforced => ?_⟩
  have outside : machine.entered ≠ true := by
    intro entered
    exact unenforced (released (holds.handshake.token.entered entered))
  refine ⟨Bool.eq_false_iff.mpr outside, ?_, ?_⟩
  · rintro status isReturned rfl
    exact outside (holds.handshake.token.returned isReturned)
  · intro atRest alive
    apply atRest.returned holds.handshake alive
    intro inside
    exact outside (holds.handshake.token.inside inside)

/-- The steps up to the release of the worker, if no call fails. -/
def releasingRun : List Label :=
  [.create, .pipe none, .fork (.ok 41), .resetRead, .attach, .send true]

/-- On a host that lets all files be opened, the worker is released whatever
the kernel answers to the writes. -/
theorem released_of_opensAll
    {host : Host} {config : SandboxConfig} (opens : host.OpensAll config)
    (limited : limits config ≠ []) :
    ∃ machine,
      handshake.run { host := host, config := config } releasingRun =
          some machine ∧
        machine.config = config ∧ machine.sent = true ∧
        machine.scope.Answered host := by
  rcases CgroupScope.create_attach_opened opens limited 41 with
    ⟨scope, attachedScope, created, attached, answered⟩
  refine ⟨
    { host := host
      config := config
      scope := attachedScope
      supervisor := .closing
      worker := .started
      supervisorWrite := true
      workerRead := true
      workerWrite := true
      tokens := 1
      attached := some true
      sent := true }, ?_, rfl, rfl, answered⟩
  simp only [releasingRun, System.run, handshake, machineStep,
    Label.ofSupervisor, supervisorStep, created, attached, Option.bind_some,
    if_true, and_self]

/--
On a host the limits fail closed in every run exactly if, when every call up to
the open of the last control file succeeds, the kernel accepts every write that
the configuration asks for.
-/
theorem limits_fail_closed (host : Host) (config : SandboxConfig) :
    (∀ labels machine,
      handshake.run { host := host, config := config } labels =
          some machine →
        FailsClosed machine) ↔
      (host.OpensAll config →
        ∀ file ∈ requestedFiles config, host.acceptsWrite file = true) := by
  constructor
  · intro failsClosed opens file isRequested
    have limited : limits config ≠ [] := by
      intro none
      rw [requestedFiles, if_pos none] at isRequested
      cases isRequested
    rcases released_of_opensAll opens limited with
      ⟨machine, ran, sameConfig, isSent, answered⟩
    have enforced := (failsClosed _ machine ran).1 isSent
    rw [Enforced, sameConfig] at enforced
    rcases enforced file isRequested with
      ⟨write, isWrite, rfl, isAccepted⟩
    rw [← answered write isWrite]
    exact isAccepted
  · intro accepts labels machine ran
    exact (run_invariant ran).failsClosed accepts

/-- The steps of a run in which no call of the supervisor or the worker
fails. -/
def smoothRun : List Label :=
  [.create, .pipe none, .fork (.ok 41), .noteParent, .prctl true,
    .checkParent, .workerResetWrite, .resetRead, .attach, .send true,
    .read .delivered, .workerResetRead, .resetWrite, .finish 0x0#32,
    .wait .reaped]

theorem limits_fail_closed_sample :
    ∃ machine,
      handshake.run { host := sampleHost, config := sampleConfig }
          smoothRun = some machine ∧
        machine.entered = true ∧ Enforced machine := by
  have ran :
      (handshake.run { host := sampleHost, config := sampleConfig }
        smoothRun).map
          (fun machine => (machine.entered, machine.sent)) =
        some (true, true) := by
    decide +kernel
  rcases Option.map_eq_some_iff.mp ran with ⟨machine, arrived, seen⟩
  rcases Prod.mk.inj seen with ⟨entered, isSent⟩
  refine ⟨machine, arrived, entered, ?_⟩
  have failsClosed :=
    (limits_fail_closed sampleHost sampleConfig).mpr fun _ _ _ => rfl
  exact (failsClosed _ _ arrived).1 isSent

/-- A host that lets `cgroup.procs` be opened and rejects what is written into
it. -/
def refusingHost : Host :=
  { sampleHost with acceptsWrite := fun file => file != .procs }

/-- `sandbox --memory 64M -- true`. -/
def memoryCommand : Command :=
  { args :=
      [literal "sandbox", literal "--memory", literal "64M", literal "--",
        literal "true"] }

def memoryConfig : SandboxConfig :=
  { hasMemoryMax := true
    memoryMaxBytes := 67108864
    programArgs := [literal "true"] }

/-- The kernel refuses to move the worker into the cgroup; the program runs
and the sandbox returns 0. -/
theorem rejected_write_unnoticed :
    Accepts memoryCommand memoryConfig ∧
      ∃ machine,
        handshake.run { host := refusingHost, config := memoryConfig }
            smoothRun = some machine ∧
          machine.scope.writes.map
              (fun write => (write.file, write.accepted)) =
            [(.memoryMax, true), (.procs, false), (.kill, true)] ∧
          ¬ Enforced machine ∧ machine.entered = true ∧
          machine.supervisor = .returned 0 ∧ machine.errors = [] := by
  have accepted : Accepts memoryCommand memoryConfig :=
    ⟨by decide +kernel, rfl, rfl⟩
  have ran :
      (handshake.run { host := refusingHost, config := memoryConfig }
        smoothRun).map
          (fun machine =>
            (machine.scope.writes.map
              (fun write => (write.file, write.accepted)),
              machine.entered, machine.supervisor, machine.errors)) =
        some ([(.memoryMax, true), (.procs, false), (.kill, true)], true,
          .returned 0, []) := by
    decide +kernel
  rcases Option.map_eq_some_iff.mp ran with ⟨machine, arrived, seen⟩
  rcases Prod.mk.inj seen with ⟨writes, seen⟩
  rcases Prod.mk.inj seen with ⟨entered, seen⟩
  rcases Prod.mk.inj seen with ⟨returned, noErrors⟩
  refine ⟨accepted, machine, arrived, writes, ?_, entered, returned,
    noErrors⟩
  intro enforced
  rw [Enforced, (run_invariant arrived).sameConfig] at enforced
  rcases enforced .procs (by decide) with
    ⟨write, isWrite, isProcs, isAccepted⟩
  have listed :
      (write.file, write.accepted) ∈
        [(ControlFile.memoryMax, true), (.procs, false), (.kill, true)] := by
    rw [← writes]
    exact List.mem_map_of_mem isWrite
  rw [isProcs, isAccepted] at listed
  revert listed
  decide

end Shell.SandboxLimits
