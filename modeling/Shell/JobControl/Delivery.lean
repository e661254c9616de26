import Shell.JobControl.ReapMachine

/-!
# Which job a wait event reaches

`update_process` takes the first record with the pid of the event, whether or
not the process of that record has been reaped already.  In every run the job
that launched a live child is in the table and has a record for it that is not
done.  The event of that child is delivered to it exactly when no other job
has a record with the pid, and it is always delivered in the runs in which no
launch gets a pid that the table still records.
-/

namespace Shell.Delivery

open Shell.Syntax
open Shell.FirstMatch
open Shell.TransitionSystem
open Shell.JobTable
open Shell.JobOperations
open Shell.TableInvariant
open Shell.ReapMachine

/-! ## Records of a pid -/

def pids (job : Job) : List Int :=
  job.processes.map ProcessRecord.pid

theorem hasPid_iff {pid : Int} {job : Job} :
    job.HasPid pid ↔ pid ∈ pids job := by
  rw [pids, List.mem_map]
  rfl

theorem pids_updated (pid : Int) (status : WaitStatus) (job : Job) :
    pids (job.updated pid status) = pids job := by
  apply List.lookmap_map_eq
  intro process result updated
  split at updated
  · cases updated
    rfl
  · cases updated

theorem pids_resume (job : Job) : pids job.resume = pids job := by
  simp only [pids, Job.resume, List.map_map]
  congr 1
  funext process
  simp only [Function.comp_apply]
  split <;> rfl

/-- The job has records with the pid, and none of them is done. -/
def Live (pid : Int) (job : Job) : Prop :=
  job.HasPid pid ∧
    ∀ process ∈ job.processes, process.pid = pid → process.state ≠ .done

theorem Live.state_ne_done
    {pid : Int} {job : Job} (live : Live pid job)
    (aggregates : Aggregates job) :
    job.state ≠ .done := by
  rcases live with ⟨⟨process, member, isPid⟩, notDone⟩
  intro isDone
  exact notDone process member isPid (aggregates.done.mp isDone process member)

/-- A status that does not terminate the process does not finish a record. -/
theorem update_state_ne_done
    {status : WaitStatus} (survives : status.terminates = false)
    {process : ProcessRecord} (notDone : process.state ≠ .done) :
    (process.update status).state ≠ .done := by
  simp only [WaitStatus.terminates, Bool.or_eq_false_iff] at survives
  simp only [ProcessRecord.update, survives.1, survives.2, Bool.or_self,
    Bool.false_eq_true, if_false]
  split
  · simp
  · split
    · simp
    · exact notDone

theorem update_terminates
    {status : WaitStatus} (terminates : status.terminates = true)
    (process : ProcessRecord) :
    (process.update status).state = .done :=
  if_pos terminates

theorem Live.updated
    {pid : Int} {job : Job} (live : Live pid job)
    {other : Int} {status : WaitStatus}
    (survives : other = pid → status.terminates = false) :
    Live pid (job.updated other status) := by
  rcases live with ⟨hasPid, notDone⟩
  constructor
  · rw [hasPid_iff, pids_updated, ← hasPid_iff]
    exact hasPid
  · intro process member isPid
    rcases mem_of_mem_lookmap member with old | ⟨source, isMember, updated⟩
    · exact notDone process old isPid
    · split at updated
      · rename_i isOther
        cases updated
        have same : other = pid := isOther.symm.trans isPid
        exact update_state_ne_done (survives same)
          (notDone source isMember isPid)
      · cases updated

theorem Live.resume
    {pid : Int} {job : Job} (live : Live pid job) :
    Live pid job.resume := by
  rcases live with ⟨hasPid, notDone⟩
  constructor
  · rw [hasPid_iff, pids_resume, ← hasPid_iff]
    exact hasPid
  · intro process member isPid
    rcases List.mem_map.mp member with ⟨source, isMember, rfl⟩
    split
    · simp
    · rename_i notStopped
      rw [if_neg notStopped] at isPid
      exact notDone source isMember isPid

/-! ## Actions and the jobs of live children -/

/-- The action cannot finish a record with the pid or add one. -/
def Harmless (pid : Int) : Action → Prop
  | .update other status => other = pid → status.terminates = false
  | .add _ launched _ _ _ => pid ∉ launched
  | _ => True

/-- A change that keeps ids and pids brings no record of the pid. -/
theorem modifyJob_source
    {control : JobControl} {id pid : Int} {change : Job → Job}
    {job : Job} (member : job ∈ (control.modifyJob id change).jobs)
    (hasPid : job.HasPid pid)
    (keeps :
      ∀ job, (change job).id = job.id ∧ pids (change job) = pids job) :
    ∃ old ∈ control.jobs, old.id = job.id ∧ old.HasPid pid := by
  rcases JobControl.mem_modifyJob member with
    old | ⟨source, isMember, _, rfl⟩
  · exact ⟨job, old, rfl, hasPid⟩
  · refine ⟨source, isMember, (keeps source).1.symm, ?_⟩
    rwa [hasPid_iff, ← (keeps source).2, ← hasPid_iff]

/-- Every job with a record of the pid comes from one with the same id. -/
theorem act_source
    {control next : JobControl} {action : Action} {pid : Int}
    (acted : act control action = some next)
    (harmless : Harmless pid action)
    {job : Job} (member : job ∈ next.jobs) (hasPid : job.HasPid pid) :
    ∃ old ∈ control.jobs, old.id = job.id ∧ old.HasPid pid := by
  cases acts_of_act acted with
  | add =>
      rcases List.mem_append.mp member with old | new
      · exact ⟨job, old, rfl, hasPid⟩
      · rw [List.mem_singleton.mp new, hasPid_iff] at hasPid
        simp only [pids, List.map_map, List.mem_map,
          Function.comp_apply, exists_eq_right] at hasPid
        exact (harmless hasPid).elim
  | update =>
      rename_i other status
      rcases JobControl.mem_updateProcess member with
        old | ⟨source, isMember, rfl⟩
      · exact ⟨job, old, rfl, hasPid⟩
      · refine ⟨source, isMember, rfl, ?_⟩
        rwa [hasPid_iff, ← pids_updated other status, ← hasPid_iff]
  | resume _ =>
      exact modifyJob_source member hasPid fun job =>
        ⟨rfl, pids_resume job⟩
  | keepModes | acknowledge _ =>
      exact modifyJob_source member hasPid fun _ => ⟨rfl, rfl⟩
  | erase _ => exact ⟨job, List.mem_of_mem_filter member, rfl, hasPid⟩
  | cleanup =>
      rcases List.mem_map.mp (List.mem_of_mem_filter member) with
        ⟨source, isMember, rfl⟩
      refine ⟨source, isMember, ?_, ?_⟩
      · split <;> rfl
      · split at hasPid <;> exact hasPid

theorem modifyJob_live
    {control : JobControl} {pid : Int} {job : Job}
    (member : job ∈ control.jobs) (live : Live pid job) (id : Int)
    {change : Job → Job} (sameId : (change job).id = job.id)
    (changedLive : Live pid (change job)) :
    ∃ new ∈ (control.modifyJob id change).jobs,
      new.id = job.id ∧ Live pid new := by
  rcases JobControl.mem_modifyJob_of_mem member id change with kept | changed
  · exact ⟨job, kept, rfl, live⟩
  · exact ⟨change job, changed, sameId, changedLive⟩

/-- A clean-up removes only jobs that are done. -/
theorem cleanup_live
    {control : JobControl} (valid : TableValid control) {pid : Int}
    {job : Job} (member : job ∈ control.jobs) (notDone : job.state ≠ .done)
    (live : Live pid job) :
    ∃ new ∈ control.cleanup.jobs, new.id = job.id ∧ Live pid new := by
  refine ⟨if job.stateChanged ∧ job.state ≠ .done then
    { job with stateChanged := false } else job, ?_, ?_, ?_⟩
  · apply List.mem_filter.mpr
    refine ⟨List.mem_map_of_mem member, ?_⟩
    simp only [decide_eq_true_eq]
    intro announced
    rcases List.mem_map.mp announced with ⟨other, isMember, sameId⟩
    rcases List.mem_filter.mp isMember with ⟨inTable, announces⟩
    have same : other = job := by
      have found := valid.findJob inTable
      rw [sameId] at found
      split at found
      · rw [valid.findJob member] at found
        exact (Option.some.inj found).symm
      · rw [valid.findJob member] at found
        exact (Option.some.inj found).symm
    rw [same] at announces
    exact notDone (of_decide_eq_true announces).2
  · split <;> rfl
  · split <;> exact live

/-- A job with a live record survives every harmless action. -/
theorem act_live
    {control next : JobControl} {action : Action} {pid : Int}
    (valid : TableValid control)
    (acted : act control action = some next)
    (harmless : Harmless pid action)
    {job : Job} (member : job ∈ control.jobs) (live : Live pid job) :
    ∃ new ∈ next.jobs, new.id = job.id ∧ Live pid new := by
  have notDone : job.state ≠ .done :=
    live.state_ne_done (valid.jobs job member).aggregates
  cases acts_of_act acted with
  | add => exact ⟨job, List.mem_append_left _ member, rfl, live⟩
  | update =>
      rename_i other status
      rcases JobControl.mem_updateProcess_of_mem member other status with
        kept | updated
      · exact ⟨job, kept, rfl, live⟩
      · exact ⟨_, updated, rfl, live.updated harmless⟩
  | resume _ => exact modifyJob_live member live _ rfl live.resume
  | keepModes | acknowledge _ => exact modifyJob_live member live _ rfl live
  | erase isDone =>
      rcases isDone with ⟨done, found, isDone⟩
      refine ⟨job, List.mem_filter.mpr ⟨member, ?_⟩, rfl, live⟩
      simp only [decide_eq_true_eq]
      rintro rfl
      rw [valid.findJob member, Option.mem_some_iff] at found
      rw [found] at notDone
      exact notDone isDone
  | cleanup => exact cleanup_live valid member notDone live

/-! ## Tracked children -/

/-- The job that launched the child records it, and is the last to do so. -/
structure Tracked (control : JobControl) (child : Child) : Prop where
  present :
    ∀ id ∈ child.launcher,
      ∃ job ∈ control.jobs, job.id = id ∧ Live child.pid job
  last :
    ∀ id ∈ child.launcher, ∀ job ∈ control.jobs,
      job.HasPid child.pid → job.id ≤ id

/-- No job but the one that launched the child has a record of its pid. -/
def Exclusive (control : JobControl) (child : Child) : Prop :=
  ∀ job ∈ control.jobs, job.HasPid child.pid →
    child.launcher = some job.id

instance (control : JobControl) (child : Child) :
    Decidable (Exclusive control child) :=
  inferInstanceAs (Decidable (∀ job ∈ control.jobs, _ → _))

theorem Tracked.act
    {control next : JobControl} {action : Action} {child : Child}
    (tracked : Tracked control child) (valid : TableValid control)
    (acted : act control action = some next)
    (harmless : Harmless child.pid action) :
    Tracked next child where
  present := by
    intro id launched
    rcases tracked.present id launched with ⟨job, member, rfl, live⟩
    exact act_live valid acted harmless member live
  last := by
    intro id launched job member hasPid
    rcases act_source acted harmless member hasPid with
      ⟨old, isMember, sameId, oldHasPid⟩
    rw [← sameId]
    exact tracked.last id launched old isMember oldHasPid

theorem Exclusive.act
    {control next : JobControl} {action : Action} {child : Child}
    (exclusive : Exclusive control child)
    (acted : act control action = some next)
    (harmless : Harmless child.pid action) :
    Exclusive next child := by
  intro job member hasPid
  rcases act_source acted harmless member hasPid with
    ⟨old, isMember, sameId, oldHasPid⟩
  rw [← sameId]
  exact exclusive old isMember oldHasPid

/-- What a predicate on tables keeps under harmless actions, it keeps under
runs of them. -/
theorem RunsOn.keeps
    {allowed : Action → Prop} {pid : Int}
    (property : JobControl → Prop)
    (harmless : ∀ {action}, allowed action → Harmless pid action)
    (preserved :
      ∀ {control next action}, TableValid control → property control →
        act control action = some next → Harmless pid action →
        property next)
    {control next : JobControl} (runs : RunsOn allowed control next)
    (valid : TableValid control) (holds : property control) :
    property next := by
  rcases runs with ⟨actions, all, ran⟩
  induction actions generalizing control with
  | nil =>
      cases ran
      exact holds
  | cons action actions induction =>
      rcases System.run_cons.mp ran with ⟨middle, acted, later⟩
      have first := harmless (all action List.mem_cons_self)
      exact induction (act_tableValid valid acted)
        (preserved valid holds acted first)
        (fun other member => all other (List.mem_cons_of_mem _ member))
        later

theorem Settles.harmless
    {id : Int} {action : Action} (settles : Settles id action)
    (pid : Int) : Harmless pid action := by
  rcases settles with rfl | rfl
  · trivial
  · trivial

/-! ## The invariant of the machine -/

/-- The event that the shell holds between `waitpid` and `update_process`. -/
def event (machine : Machine) : Option (Child × WaitStatus) :=
  match machine.phase with
  | .recording _ child status => some (child, status)
  | _ => none

/-- Every live child, and the child of the event, satisfies a predicate. -/
structure Holds (property : JobControl → Child → Prop) (machine : Machine) :
    Prop where
  table : TableValid machine.control
  distinct : (machine.children.map Child.pid).Nodup
  children : ∀ child ∈ machine.children, property machine.control child
  inFlight :
    ∀ child status, event machine = some (child, status) →
      property machine.control child ∧
        (status.terminates = true →
          child.pid ∉ machine.children.map Child.pid)

/-- A predicate that does not look at the reported change, and that harmless
actions keep. -/
structure Stable (property : JobControl → Child → Prop) : Prop where
  change :
    ∀ {control child} (status : Option WaitStatus),
      property control child →
        property control { child with change := status }
  act :
    ∀ {control next child} (action : Action), TableValid control →
      property control child → act control action = some next →
      Harmless child.pid action → property next child

theorem tracked_stable : Stable Tracked where
  change := fun _ tracked => ⟨tracked.present, tracked.last⟩
  act := fun _ valid tracked acted harmless =>
    tracked.act valid acted harmless

theorem exclusive_stable : Stable Exclusive where
  change := fun _ exclusive => exclusive
  act := fun _ _ exclusive acted harmless => exclusive.act acted harmless

theorem markChange_pids
    (pid : Int) (status : WaitStatus) (children : List Child) :
    (markChange pid status children).map Child.pid =
      children.map Child.pid := by
  rw [markChange, List.map_map]
  congr 1
  funext child
  simp only [Function.comp_apply]
  split <;> rfl

theorem consume_pids
    (pid : Int) (status : WaitStatus) (children : List Child) :
    ((consume pid status children).map Child.pid).Sublist
      (children.map Child.pid) := by
  unfold consume
  split
  · exact List.filter_sublist.map _
  · have same :
        (Child.pid ∘ fun child : Child =>
          if child.pid = pid then { child with change := none }
          else child) = Child.pid := by
      funext child
      simp only [Function.comp_apply]
      split <;> rfl
    rw [List.map_map, same]

theorem mem_markChange
    {property : JobControl → Child → Prop} (stable : Stable property)
    {control : JobControl} {children : List Child}
    (all : ∀ child ∈ children, property control child)
    (pid : Int) (status : WaitStatus) :
    ∀ child ∈ markChange pid status children, property control child := by
  intro child member
  rcases List.mem_map.mp member with ⟨source, isMember, rfl⟩
  split
  · exact stable.change _ (all source isMember)
  · exact all source isMember

theorem mem_consume
    {property : JobControl → Child → Prop} (stable : Stable property)
    {control : JobControl} {children : List Child}
    (all : ∀ child ∈ children, property control child)
    (pid : Int) (status : WaitStatus) :
    ∀ child ∈ consume pid status children, property control child := by
  intro child member
  unfold consume at member
  split at member
  · exact all child (List.mem_of_mem_filter member)
  · rcases List.mem_map.mp member with ⟨source, isMember, rfl⟩
    split
    · exact stable.change _ (all source isMember)
    · exact all source isMember

theorem consume_terminates
    {status : WaitStatus} (terminates : status.terminates = true)
    (pid : Int) (children : List Child) :
    pid ∉ (consume pid status children).map Child.pid := by
  rw [consume, if_pos terminates]
  intro member
  rcases List.mem_map.mp member with ⟨child, isMember, isPid⟩
  have kept := (List.mem_filter.mp isMember).2
  simp [isPid] at kept

/-- Forked children keep the pids of the children distinct. -/
theorem nodup_forked
    {children : List Child} (distinct : (children.map Child.pid).Nodup)
    {pids : List Int} (available : Available children pids)
    {child : Int → Child} (hasPid : ∀ pid, (child pid).pid = pid) :
    ((children ++ pids.map child).map Child.pid).Nodup := by
  have forked : (pids.map child).map Child.pid = pids := by
    rw [List.map_map]
    conv_rhs => rw [← List.map_id pids]
    congr 1
    funext pid
    exact hasPid pid
  rw [List.map_append, forked, List.nodup_append]
  refine ⟨distinct, available.1, ?_⟩
  intro pid member other isOther
  rintro rfl
  exact (available.2 pid isOther).noProcess member

/-- The pids that a step gives to new children. -/
def launchedPids : Label → List Int
  | .launch launched _ => launched
  | .abandon launched => launched
  | _ => []

section Preservation

variable {property : JobControl → Child → Prop}
  (admits : JobControl → List Int → Prop)

/-- New children satisfy the predicate when their pids are admitted. -/
structure Introduces (property : JobControl → Child → Prop) : Prop where
  launch :
    ∀ {control : JobControl} {launched : List Int} (pgid lastPid : Int)
      (command : ByteString), TableValid control →
      admits control launched → ∀ pid ∈ launched,
        property (control.addJob pgid launched lastPid command).2
          ⟨pid, pgid, some control.nextJobId, none⟩
  abandon :
    ∀ {control : JobControl} {launched : List Int} (pgid : Int),
      admits control launched → ∀ pid ∈ launched,
        property control ⟨pid, pgid, none, none⟩

variable {admits}

/-- A change of the table alone, by an action that is harmless to every
child, outside an event. -/
theorem Holds.acted
    (stable : Stable property) {machine next : Machine}
    (holds : Holds property machine) (action : Action)
    (acted : act machine.control action = some next.control)
    (sameChildren : next.children = machine.children)
    (noEvent : event next = none)
    (harmless :
      ∀ child ∈ machine.children, Harmless child.pid action) :
    Holds property next where
  table := act_tableValid holds.table acted
  distinct := by
    rw [sameChildren]
    exact holds.distinct
  children := by
    intro child member
    rw [sameChildren] at member
    exact stable.act action holds.table (holds.children child member) acted
      (harmless child member)
  inFlight := by
    intro child status isEvent
    rw [noEvent] at isEvent
    cases isEvent

/-- A change of neither the table nor the children, outside an event. -/
theorem Holds.moved
    {machine next : Machine} (holds : Holds property machine)
    (sameControl : next.control = machine.control)
    (sameChildren : next.children = machine.children)
    (noEvent : event next = none) :
    Holds property next where
  table := by
    rw [sameControl]
    exact holds.table
  distinct := by
    rw [sameChildren]
    exact holds.distinct
  children := by
    rw [sameControl, sameChildren]
    exact holds.children
  inFlight := by
    intro child status isEvent
    rw [noEvent] at isEvent
    cases isEvent

/-- The children of a new job. -/
theorem Holds.launched
    (stable : Stable property) (introduces : Introduces admits property)
    {machine next : Machine} (holds : Holds property machine)
    {first : Int} {others : List Int} (command : ByteString)
    (isIdle : machine.phase = .idle)
    (available : Available machine.children (first :: others))
    (admitted : admits machine.control (first :: others))
    (isNext :
      next =
        { machine with
          control :=
            (machine.control.addJob first (first :: others)
              ((first :: others).getLast (by simp)) command).2
          children :=
            machine.children ++
              (first :: others).map fun pid =>
                ⟨pid, first, some machine.control.nextJobId, none⟩ }) :
    Holds property next := by
  subst isNext
  constructor
  · exact holds.table.add first (by simp) _ command
  · exact nodup_forked holds.distinct available (fun _ => rfl)
  · intro child member
    rcases List.mem_append.mp member with old | new
    · refine stable.act (.add first (first :: others) (by simp) _ command)
        holds.table (holds.children child old) rfl ?_
      intro isLaunched
      exact (available.2 _ isLaunched).noProcess (List.mem_map_of_mem old)
    · rcases List.mem_map.mp new with ⟨pid, isPid, rfl⟩
      exact introduces.launch first _ command holds.table admitted pid isPid
  · intro child status isEvent
    simp [event, isIdle] at isEvent

/-- The children of a launch that was given up. -/
theorem Holds.abandoned
    (introduces : Introduces admits property)
    {machine next : Machine} (holds : Holds property machine)
    {first : Int} {others : List Int} (isIdle : machine.phase = .idle)
    (available : Available machine.children (first :: others))
    (admitted : admits machine.control (first :: others))
    (isNext :
      next =
        { machine with
          children :=
            machine.children ++
              (first :: others).map fun pid =>
                ⟨pid, first, none, none⟩ }) :
    Holds property next := by
  subst isNext
  constructor
  · exact holds.table
  · exact nodup_forked holds.distinct available (fun _ => rfl)
  · intro child member
    rcases List.mem_append.mp member with old | new
    · exact holds.children child old
    · rcases List.mem_map.mp new with ⟨pid, isPid, rfl⟩
      exact introduces.abandon first admitted pid isPid
  · intro child status isEvent
    simp [event, isIdle] at isEvent

/-- A child that has changed its state. -/
theorem Holds.changed
    (stable : Stable property) {machine : Machine}
    (holds : Holds property machine) (pid : Int) (status : WaitStatus)
    (raised : Bool) :
    Holds property
      { machine with
        children := markChange pid status machine.children
        raised := raised } where
  table := holds.table
  distinct := by
    rw [markChange_pids]
    exact holds.distinct
  children := mem_markChange stable holds.children pid status
  inFlight := by
    rw [markChange_pids]
    exact holds.inFlight

/-- An event that `waitpid` returns. -/
theorem Holds.waited
    (stable : Stable property) {machine : Machine}
    (holds : Holds property machine) (caller : Caller) {child : Child}
    (member : child ∈ machine.children) (status : WaitStatus) :
    Holds property
      { machine with
        children := consume child.pid status machine.children
        phase := .recording caller child status } where
  table := holds.table
  distinct := holds.distinct.sublist (consume_pids _ _ _)
  children := mem_consume stable holds.children child.pid status
  inFlight := by
    intro other otherStatus isEvent
    cases isEvent
    exact ⟨holds.children child member,
      fun terminates => consume_terminates terminates _ _⟩

/-- A terminated child of the event is among the children no more, so its
update is harmless to those that are. -/
theorem Holds.recorded
    (stable : Stable property) {machine : Machine}
    (holds : Holds property machine) {caller : Caller} {child : Child}
    {status : WaitStatus}
    (isRecording : machine.phase = .recording caller child status) :
    Holds property
      { machine with
        control := machine.control.updateProcess child.pid status
        phase := .waiting caller } := by
  have isEvent : event machine = some (child, status) := by
    simp [event, isRecording]
  refine holds.acted stable (.update child.pid status) rfl rfl rfl ?_
  intro other member same
  by_contra terminates
  rw [Bool.not_eq_false] at terminates
  apply (holds.inFlight child status isEvent).2 terminates
  rw [same]
  exact List.mem_map_of_mem member

/-- The job of a foreground wait after the loop. -/
theorem Holds.reported
    (stable : Stable property) {machine : Machine}
    (holds : Holds property machine) (id : Int) :
    Holds property
      { machine with
        control := settleJob id machine.control
        phase := .idle } where
  table := (settleJob_runsOn id machine.control).tableValid holds.table
  distinct := holds.distinct
  children := by
    intro child member
    exact RunsOn.keeps (fun control => property control child)
      (fun settles => Settles.harmless settles child.pid)
      (fun valid held acted harmless =>
        stable.act _ valid held acted harmless)
      (settleJob_runsOn id machine.control) holds.table
      (holds.children child member)
  inFlight := by
    intro child status isEvent
    cases isEvent

theorem step_holds
    (stable : Stable property) (introduces : Introduces admits property)
    {machine next : Machine} {label : Label}
    (holds : Holds property machine)
    (admitted : admits machine.control (launchedPids label))
    (step : Step machine label next) :
    Holds property next := by
  cases step with
  | launch command isIdle available =>
      exact holds.launched stable introduces command isIdle available
        admitted rfl
  | abandon isIdle available =>
      exact holds.abandoned introduces isIdle available admitted rfl
  | change pid status allowed => exact holds.changed stable pid status true
  | handle isRaised =>
      exact ⟨holds.table, holds.distinct, holds.children, holds.inFlight⟩
  | beginReap notify isIdle => exact holds.moved rfl rfl rfl
  | testFlag isTesting =>
      refine holds.moved rfl rfl ?_
      cases machine.flag <;> rfl
  | clearFlag isClearing => exact holds.moved rfl rfl rfl
  | waitChild isWaiting member changed selected =>
      exact holds.waited stable _ member _
  | waitInterrupted isWaiting => exact holds
  | @waitEnds caller isWaiting ends =>
      refine holds.moved rfl rfl ?_
      cases caller <;> rfl
  | record isRecording => exact holds.recorded stable isRecording
  | @notify notify isNotifying =>
      cases notify with
      | false => exact holds.moved rfl rfl rfl
      | true =>
          exact holds.acted stable .cleanup rfl rfl rfl
            (fun _ _ => trivial)
  | @continueWait id control isIdle resumed =>
      exact holds.acted stable (.resume id) resumed rfl rfl
        (fun _ _ => trivial)
  | beginWait isIdle present => exact holds.moved rfl rfl rfl
  | @resume id control isIdle resumed =>
      refine holds.acted stable (.resume id) resumed rfl ?_
        (fun _ _ => trivial)
      simp [event, isIdle]
  | report isReporting => exact holds.reported stable _

end Preservation

/-! ## Runs -/

theorem tracked_introduces : Introduces (fun _ _ => True) Tracked where
  launch := by
    intro control launched pgid lastPid command valid _ pid isPid
    constructor
    · intro id isLauncher
      rw [Option.mem_some_iff] at isLauncher
      subst isLauncher
      refine ⟨_, List.mem_append_right _ List.mem_cons_self, rfl, ?_⟩
      constructor
      · exact ⟨_, List.mem_map_of_mem isPid, rfl⟩
      · intro process member _
        rcases List.mem_map.mp member with ⟨_, _, rfl⟩
        simp
    · intro id isLauncher job member _
      rw [Option.mem_some_iff] at isLauncher
      subst isLauncher
      rcases List.mem_append.mp member with old | new
      · exact Int.le_of_lt (valid.below job old)
      · exact Int.le_of_eq
          (congrArg Job.id (List.mem_singleton.mp new))
  abandon := by
    intro control launched pgid _ pid _
    constructor
    · intro id isLauncher
      cases isLauncher
    · intro id isLauncher
      cases isLauncher

/-- No job of the table has a record with one of the pids. -/
def Unrecorded (control : JobControl) (launched : List Int) : Prop :=
  ∀ pid ∈ launched, ∀ job ∈ control.jobs, ¬ job.HasPid pid

instance (control : JobControl) (launched : List Int) :
    Decidable (Unrecorded control launched) :=
  inferInstanceAs
    (Decidable (∀ pid ∈ launched, ∀ job ∈ control.jobs, ¬ job.HasPid pid))

theorem exclusive_introduces : Introduces Unrecorded Exclusive where
  launch := by
    intro control launched pgid lastPid command _ unrecorded pid isPid job
      member hasPid
    rcases List.mem_append.mp member with old | new
    · exact (unrecorded pid isPid job old hasPid).elim
    · rw [List.mem_singleton.mp new]
  abandon := by
    intro control launched pgid unrecorded pid isPid job member hasPid
    exact (unrecorded pid isPid job member hasPid).elim

theorem started_holds
    (property : JobControl → Child → Prop) {machine : Machine}
    (started : Started machine) :
    Holds property machine := by
  rcases started with ⟨nextId, noJobs, noChildren, isIdle⟩
  constructor
  · exact tableValid_initial ⟨nextId, noJobs⟩
  · simp [noChildren]
  · simp [noChildren]
  · intro child status isEvent
    simp [event, isIdle] at isEvent

theorem reachable_tracked
    {machine : Machine} (reachable : machineSystem.Reachable machine) :
    Holds Tracked machine := by
  apply reachable.invariant (Holds Tracked) (started_holds Tracked)
  intro state label next holds stepped
  exact step_holds tracked_stable tracked_introduces holds trivial
    (step_of_machineStep stepped)

/-- The runs in which no launch gets a pid that the table still records. -/
def freshSystem : System Machine Label where
  initial := Started
  step := fun machine label =>
    if Unrecorded machine.control (launchedPids label) then
      machineStep machine label
    else
      none

theorem reachable_exclusive
    {machine : Machine} (reachable : freshSystem.Reachable machine) :
    Holds Exclusive machine := by
  apply reachable.invariant (Holds Exclusive) (started_holds Exclusive)
  intro state label next holds stepped
  simp only [freshSystem, Option.ite_none_right_eq_some] at stepped
  exact step_holds exclusive_stable exclusive_introduces holds stepped.1
    (step_of_machineStep stepped.2)

/-- These runs are runs of the machine. -/
theorem reachable_of_fresh
    {machine : Machine} (reachable : freshSystem.Reachable machine) :
    machineSystem.Reachable machine := by
  apply reachable.invariant machineSystem.Reachable
    (fun started => .initial started)
  intro state label next arrived stepped
  simp only [freshSystem, Option.ite_none_right_eq_some] at stepped
  exact arrived.step stepped.2

/-! ## Delivery -/

/--
The event of a child has reached it: its record in the job that launched it is
updated, and every other job is as before.
-/
structure Delivered (before after : JobControl) (child : Child)
    (status : WaitStatus) : Prop where
  updated :
    ∀ id ∈ child.launcher,
      ∃ job ∈ before.findJob id,
        job.HasPid child.pid ∧
          after.findJob id = some (job.updated child.pid status)
  unchanged :
    ∀ job ∈ before.jobs, child.launcher ≠ some job.id →
      after.findJob job.id = some job

instance (before after : JobControl) (child : Child)
    (status : WaitStatus) :
    Decidable (Delivered before after child status) :=
  decidable_of_iff
    ((∀ id ∈ child.launcher,
      ∃ job ∈ before.findJob id,
        job.HasPid child.pid ∧
          after.findJob id = some (job.updated child.pid status)) ∧
      ∀ job ∈ before.jobs, child.launcher ≠ some job.id →
        after.findJob job.id = some job)
    ⟨fun both => ⟨both.1, both.2⟩,
      fun delivered => ⟨delivered.updated, delivered.unchanged⟩⟩

theorem updateProcess_valid
    {control : JobControl} (valid : TableValid control) (pid : Int)
    (status : WaitStatus) :
    TableValid (control.updateProcess pid status) :=
  act_tableValid valid
    (show act control (.update pid status) = some _ from rfl)

theorem updateProcess_unrecorded
    {control : JobControl} {pid : Int}
    (unrecorded : ∀ job ∈ control.jobs, ¬ job.HasPid pid)
    (status : WaitStatus) :
    control.updateProcess pid status = control := by
  rw [JobControl.updateProcess, List.lookmap_of_forall_not]
  intro job member
  exact if_neg (unrecorded job member)

/-- The first job with a record of the pid is the one that is updated. -/
theorem updateProcess_split
    {control : JobControl} {pid : Int} {job : Job}
    (member : job ∈ control.jobs) (hasPid : job.HasPid pid)
    (status : WaitStatus) :
    ∃ earlier first later,
      control.jobs = earlier ++ first :: later ∧
        (∀ other ∈ earlier, ¬ other.HasPid pid) ∧
        first.HasPid pid ∧
        (control.updateProcess pid status).jobs =
          earlier ++ first.updated pid status :: later := by
  rcases lookmap_split (Job.updateProcess pid status) member
      (if_pos hasPid) with
    ⟨earlier, first, changed, later, split, skipped, hit, result⟩
  unfold Job.updateProcess at hit
  split at hit
  · rename_i firstHasPid
    cases hit
    refine ⟨earlier, first, later, split, ?_, firstHasPid, result⟩
    intro other isEarlier otherHasPid
    have none := skipped other isEarlier
    rw [Job.updateProcess, if_pos otherHasPid] at none
    cases none
  · cases hit

theorem delivered_of_exclusive
    {control : JobControl} {child : Child} (valid : TableValid control)
    (tracked : Tracked control child) (exclusive : Exclusive control child)
    (status : WaitStatus) :
    Delivered control (control.updateProcess child.pid status) child
      status := by
  have nextValid := updateProcess_valid valid child.pid status
  cases launcher : child.launcher with
  | none =>
      have same : control.updateProcess child.pid status = control := by
        apply updateProcess_unrecorded
        intro job member hasPid
        have impossible := exclusive job member hasPid
        rw [launcher] at impossible
        cases impossible
      constructor
      · intro id isLauncher
        rw [launcher] at isLauncher
        cases isLauncher
      · intro job member _
        rw [same]
        exact valid.findJob member
  | some id =>
      rcases tracked.present id (by rw [launcher]; rfl) with
        ⟨job, member, sameId, live⟩
      rcases updateProcess_split member live.1 status with
        ⟨earlier, first, later, split, skipped, firstHasPid, result⟩
      have inTable : first ∈ control.jobs := by
        rw [split]
        exact List.mem_append_right _ List.mem_cons_self
      have firstId : first.id = id := by
        have owns := exclusive first inTable firstHasPid
        rw [launcher] at owns
        exact (Option.some.inj owns).symm
      constructor
      · intro other isLauncher
        rw [launcher, Option.mem_some_iff] at isLauncher
        subst isLauncher
        refine ⟨first, ?_, firstHasPid, ?_⟩
        · rw [← firstId]
          exact valid.findJob inTable
        · have isMember :
              first.updated child.pid status ∈
                (control.updateProcess child.pid status).jobs := by
            rw [result]
            exact List.mem_append_right _ List.mem_cons_self
          rw [← firstId]
          exact nextValid.findJob isMember
      · intro other isMember different
        apply nextValid.findJob
        rw [result]
        rw [split] at isMember
        rcases List.mem_append.mp isMember with inEarlier | inRest
        · exact List.mem_append_left _ inEarlier
        · rcases List.mem_cons.mp inRest with rfl | inLater
          · rw [launcher, firstId] at different
            exact (different rfl).elim
          · exact List.mem_append_right _ (List.mem_cons_of_mem _ inLater)

/-- A record that is updated by a terminating status has changed. -/
theorem Live.ne_updated
    {pid : Int} {job : Job} (live : Live pid job)
    {status : WaitStatus} (terminates : status.terminates = true) :
    job.updated pid status ≠ job := by
  rcases live with ⟨⟨process, member, isPid⟩, notDone⟩
  intro same
  rcases lookmap_split
      (fun process : ProcessRecord =>
        if process.pid = pid then some (process.update status) else none)
      member (if_pos isPid) with
    ⟨earlier, first, changed, later, -, -, hit, result⟩
  split at hit
  · rename_i firstPid
    cases hit
    have inJob : first.update status ∈ job.processes := by
      rw [← same]
      show _ ∈ job.processes.lookmap _
      rw [result]
      exact List.mem_append_right _ List.mem_cons_self
    exact notDone _ inJob firstPid (update_terminates terminates first)
  · cases hit

theorem exclusive_of_delivered
    {control : JobControl} {child : Child} (valid : TableValid control)
    (tracked : Tracked control child) {id : Int}
    (launcher : child.launcher = some id)
    {status : WaitStatus} (terminates : status.terminates = true)
    (delivered :
      Delivered control (control.updateProcess child.pid status) child
        status) :
    Exclusive control child := by
  have nextValid := updateProcess_valid valid child.pid status
  have isLauncher : id ∈ child.launcher := by
    rw [launcher]
    rfl
  rcases tracked.present id isLauncher with ⟨job, member, rfl, live⟩
  intro other otherMember otherHasPid
  rw [launcher]
  by_contra different
  rcases updateProcess_split member live.1 status with
    ⟨earlier, first, later, split, skipped, firstHasPid, result⟩
  have firstNotJob : first ≠ job := by
    rintro rfl
    have atMost := tracked.last first.id isLauncher other otherMember
      otherHasPid
    have increasing := valid.increasing
    rw [split] at otherMember
    simp only [ids, split, List.map_append, List.map_cons] at increasing
    have laterIds := (List.pairwise_append.mp increasing).2.1
    rcases List.mem_append.mp otherMember with inEarlier | inRest
    · exact skipped other inEarlier otherHasPid
    · rcases List.mem_cons.mp inRest with rfl | inLater
      · exact different rfl
      · have above :=
          (List.pairwise_cons.mp laterIds).1 other.id
            (List.mem_map_of_mem inLater)
        exact (Int.not_le.mpr above) atMost
  have kept :
      job ∈ (control.updateProcess child.pid status).jobs := by
    rw [result]
    rw [split] at member
    rcases List.mem_append.mp member with inEarlier | inRest
    · exact List.mem_append_left _ inEarlier
    · rcases List.mem_cons.mp inRest with rfl | inLater
      · exact (firstNotJob rfl).elim
      · exact List.mem_append_right _ (List.mem_cons_of_mem _ inLater)
  rcases delivered.updated job.id isLauncher with ⟨old, found, -, after⟩
  rw [valid.findJob member, Option.mem_some_iff] at found
  rw [nextValid.findJob kept] at after
  subst found
  exact live.ne_updated terminates (Option.some.inj after).symm

theorem record_eq
    {machine next : Machine} {child : Child} {status : WaitStatus}
    (isEvent : event machine = some (child, status))
    (recorded : machineStep machine (.record child.pid status) = some next) :
    next.control = machine.control.updateProcess child.pid status := by
  have isRecording :
      ∃ caller, machine.phase = .recording caller child status := by
    unfold event at isEvent
    split at isEvent
    · cases isEvent
      exact ⟨_, ‹_›⟩
    · cases isEvent
  rcases isRecording with ⟨caller, phase⟩
  simp only [machineStep, phase, and_self, if_true,
    Option.some.injEq] at recorded
  rw [← recorded]

/--
Every event that `waitpid` returns reaches its child in the runs in which no
launch gets a pid that the table still records.  In any run it does when no
other job records the pid; and when the child belongs to a job and has
terminated, it does only then.
-/
theorem wait_event_delivered
    (machine next : Machine) (child : Child) (status : WaitStatus)
    (reachable : machineSystem.Reachable machine)
    (isEvent : event machine = some (child, status))
    (recorded : machineStep machine (.record child.pid status) = some next) :
    (freshSystem.Reachable machine →
        Delivered machine.control next.control child status) ∧
      (Exclusive machine.control child →
        Delivered machine.control next.control child status) ∧
      (child.launcher ≠ none → status.terminates = true →
        (Delivered machine.control next.control child status ↔
          Exclusive machine.control child)) := by
  have holds := reachable_tracked reachable
  have tracked := (holds.inFlight child status isEvent).1
  have sufficient :=
    fun exclusive => delivered_of_exclusive holds.table tracked exclusive
      status
  rw [record_eq isEvent recorded]
  refine ⟨?_, sufficient, ?_⟩
  · intro fresh
    exact sufficient
      ((reachable_exclusive fresh).inFlight child status isEvent).1
  · intro hasLauncher terminates
    refine ⟨?_, sufficient⟩
    intro delivered
    rcases Option.ne_none_iff_exists'.mp hasLauncher with ⟨id, launcher⟩
    exact exclusive_of_delivered holds.table tracked launcher terminates
      delivered

/-- The labels of a call of `reap_background` up to its first event. -/
def reapUpTo (pid : Int) (status : WaitStatus) : List Label :=
  [.change pid status, .handle, .beginReap false, .testFlag true,
    .clearFlag, .waitChild pid status]

/-- A job whose process exits with status one. -/
def freshRun : List Label :=
  .launch [10] (literal "false") :: reapUpTo 10 0x0100#32

theorem wait_event_delivered_fresh :
    ∃ (machine next : Machine) (child : Child),
      freshSystem.run startMachine freshRun = some machine ∧
        event machine = some (child, 0x0100#32) ∧
        Delivered machine.control next.control child 0x0100#32 := by
  have events :
      (freshSystem.run startMachine freshRun).map
          (fun machine =>
            (event machine,
              (machineStep machine (.record 10 0x0100#32)).isSome)) =
        some (some (⟨10, 10, some 1, some 0x0100#32⟩, 0x0100#32), true) := by
    decide +kernel
  rcases Option.map_eq_some_iff.mp events with ⟨machine, ran, equal⟩
  rcases Prod.mk.inj equal with ⟨isEvent, enabled⟩
  rcases Option.isSome_iff_exists.mp enabled with ⟨next, recorded⟩
  have fresh : freshSystem.Reachable machine :=
    ⟨startMachine, freshRun, ⟨rfl, rfl, rfl, rfl⟩, ran⟩
  exact ⟨machine, next, _, ran, isEvent,
    (wait_event_delivered machine next _ _ (reachable_of_fresh fresh)
      isEvent recorded).1 fresh⟩

/--
The last process of a pipeline is reaped while the first one still runs, and
the kernel gives its pid to the process of a second job.
-/
def staleRun : List Label :=
  .launch [10, 11] (literal "sleep 9 | true") ::
    (reapUpTo 11 0#32 ++
      [.record 11 0#32, .waitEnds, .notify,
        .launch [11] (literal "false")] ++
      reapUpTo 11 0x0100#32)

/-- The exit of the second job is written into the first job. -/
theorem stale_record_takes_event :
    ∃ (machine next : Machine) (child : Child) (status : WaitStatus),
      machineSystem.run startMachine staleRun = some machine ∧
        event machine = some (child, status) ∧
        child.launcher = some 2 ∧
        machineStep machine (.record child.pid status) = some next ∧
        next.control.findJob 2 = machine.control.findJob 2 ∧
        next.control.findJob 1 ≠ machine.control.findJob 1 ∧
        ¬ Delivered machine.control next.control child status := by
  have checked :
      (machineSystem.run startMachine staleRun).map
          (fun machine =>
            (event machine,
              (machineStep machine (.record 11 0x0100#32)).map fun next =>
                decide
                  (next.control.findJob 2 = machine.control.findJob 2 ∧
                    next.control.findJob 1 ≠ machine.control.findJob 1 ∧
                    ¬ Delivered machine.control next.control
                      ⟨11, 11, some 2, some 0x0100#32⟩ 0x0100#32))) =
        some
          (some (⟨11, 11, some 2, some 0x0100#32⟩, 0x0100#32),
            some true) := by
    decide +kernel
  rcases Option.map_eq_some_iff.mp checked with ⟨machine, ran, equal⟩
  rcases Prod.mk.inj equal with ⟨isEvent, decided⟩
  rcases Option.map_eq_some_iff.mp decided with ⟨next, recorded, facts⟩
  rcases of_decide_eq_true facts with ⟨lost, misplaced, notDelivered⟩
  exact ⟨machine, next, _, _, ran, isEvent, rfl, recorded, lost, misplaced,
    notDelivered⟩

end Shell.Delivery
