import Shell.JobControl.ReapMachine

/-!
# No wake-up is lost

`reap_background` clears the flag before it drains the changes, so a change
that arrives during the drain sets it again.  Outside the drain a change that
has not been reported leaves its mark on the flag or on the signal.  A call
that begins when every signal has been handled therefore finds the flag set
and records every change that was there.
-/

namespace Shell.Wakeup

open Shell.Syntax
open Shell.TransitionSystem
open Shell.JobTable
open Shell.JobOperations
open Shell.TableInvariant
open Shell.ReapMachine

/-! ## The law -/

/-- Between the clearing of the flag and the end of the drain. -/
def Draining (machine : Machine) : Prop :=
  match machine.phase with
  | .waiting (.reap _) => True
  | .recording (.reap _) _ _ => True
  | _ => False

/-- Some child has a change that it has not reported. -/
def Unreported (children : List Child) : Prop :=
  ∃ child ∈ children, child.change ≠ none

/-- An unreported change has set the flag or is about to. -/
def Signalled (machine : Machine) : Prop :=
  Unreported machine.children →
    machine.flag = true ∨ machine.raised = true

theorem unreported_forked
    {children forked : List Child}
    (silent : ∀ child ∈ forked, child.change = none)
    (unreported : Unreported (children ++ forked)) :
    Unreported children := by
  rcases unreported with ⟨child, member, changed⟩
  rcases List.mem_append.mp member with old | new
  · exact ⟨child, old, changed⟩
  · exact (changed (silent child new)).elim

theorem unreported_consume
    {children : List Child} {pid : Int} {status : WaitStatus}
    (unreported : Unreported (consume pid status children)) :
    Unreported children := by
  rcases unreported with ⟨child, member, changed⟩
  unfold consume at member
  split at member
  · exact ⟨child, List.mem_of_mem_filter member, changed⟩
  · rcases List.mem_map.mp member with ⟨source, isMember, rfl⟩
    split at changed
    · exact (changed rfl).elim
    · exact ⟨source, isMember, changed⟩

/-- Outside the drain. -/
def Law (machine : Machine) : Prop :=
  ¬ Draining machine → Signalled machine

theorem step_law
    {machine next : Machine} {label : Label}
    (law : Law machine) (step : Step machine label next) :
    Law next := by
  cases step with
  | launch command isIdle available =>
      intro _ unreported
      apply law (by simp [Draining, isIdle])
      refine unreported_forked ?_ unreported
      intro child member
      rcases List.mem_map.mp member with ⟨_, _, rfl⟩
      rfl
  | abandon isIdle available =>
      intro _ unreported
      apply law (by simp [Draining, isIdle])
      refine unreported_forked ?_ unreported
      intro child member
      rcases List.mem_map.mp member with ⟨_, _, rfl⟩
      rfl
  | change pid status allowed => exact fun _ _ => Or.inr rfl
  | handle isRaised => exact fun _ _ => Or.inl rfl
  | beginReap notify isIdle =>
      exact fun _ => law (by simp [Draining, isIdle])
  | testFlag isTesting =>
      exact fun _ => law (by simp [Draining, isTesting])
  | clearFlag isClearing =>
      intro outside
      exact (outside trivial).elim
  | @waitChild caller child status isWaiting member changed selected =>
      cases caller with
      | reap notify =>
          intro outside
          exact (outside trivial).elim
      | wait id =>
          intro _ unreported
          exact law (by simp [Draining, isWaiting])
            (unreported_consume unreported)
  | waitInterrupted isWaiting => exact law
  | @waitEnds caller isWaiting ends =>
      cases caller with
      | reap notify =>
          -- The drain ends only when no change is left.
          rintro _ ⟨child, member, changed⟩
          exact (changed (ends child member)).elim
      | wait id => exact fun _ => law (by simp [Draining, isWaiting])
  | @record caller child status isRecording =>
      cases caller with
      | reap notify =>
          intro outside
          exact (outside trivial).elim
      | wait id => exact fun _ => law (by simp [Draining, isRecording])
  | notify isNotifying =>
      exact fun _ => law (by simp [Draining, isNotifying])
  | continueWait isIdle resumed =>
      exact fun _ => law (by simp [Draining, isIdle])
  | beginWait isIdle present =>
      exact fun _ => law (by simp [Draining, isIdle])
  | resume isIdle resumed =>
      exact fun _ => law (by simp [Draining, isIdle])
  | report isReporting =>
      exact fun _ => law (by simp [Draining, isReporting])

theorem reachable_law
    {machine : Machine} (reachable : machineSystem.Reachable machine) :
    Law machine := by
  apply reachable.invariant Law
  · rintro start ⟨-, -, noChildren, -⟩ _ ⟨child, member, -⟩
    rw [noChildren] at member
    cases member
  · intro state label next law stepped
    exact step_law law (step_of_machineStep stepped)

/-! ## What a call of `reap_background` owes -/

/-- The child with the pid has a change that it has not reported. -/
def Pending (pid : Int) (children : List Child) : Prop :=
  ∃ child ∈ children, child.pid = pid ∧ child.change ≠ none

/-- The rest of the call will record a change of the child with the pid. -/
def Owes (pid : Int) (machine : Machine) : Prop :=
  match machine.phase with
  | .testing _ => Pending pid machine.children ∧ machine.flag = true
  | .clearing _ => Pending pid machine.children
  | .waiting (.reap _) => Pending pid machine.children
  | .recording (.reap _) child _ =>
      Pending pid machine.children ∨ child.pid = pid
  | _ => False

theorem Pending.markChange
    {pid other : Int} {children : List Child} (status : WaitStatus)
    (pending : Pending pid children) :
    Pending pid (markChange other status children) := by
  rcases pending with ⟨child, member, isPid, changed⟩
  refine ⟨_, List.mem_map_of_mem member, ?_, ?_⟩
  · split <;> exact isPid
  · split
    · simp
    · exact changed

theorem Pending.consume
    {pid other : Int} {children : List Child} (status : WaitStatus)
    (different : other ≠ pid) (pending : Pending pid children) :
    Pending pid (consume other status children) := by
  rcases pending with ⟨child, member, rfl, changed⟩
  have kept : child.pid ≠ other := Ne.symm different
  refine ⟨child, ?_, rfl, changed⟩
  unfold ReapMachine.consume
  split
  · exact List.mem_filter.mpr ⟨member, decide_eq_true kept⟩
  · apply List.mem_map.mpr
    exact ⟨child, member, if_neg kept⟩

/-- Steps that keep the phase, the pending change and the flag. -/
theorem Owes.mono
    {pid : Int} {machine next : Machine} (owes : Owes pid machine)
    (samePhase : next.phase = machine.phase)
    (pending : Pending pid machine.children → Pending pid next.children)
    (flagged : machine.flag = true → next.flag = true) :
    Owes pid next := by
  unfold Owes at owes ⊢
  rw [samePhase]
  generalize machine.phase = phase at owes ⊢
  cases phase with
  | testing notify => exact ⟨pending owes.1, flagged owes.2⟩
  | clearing notify => exact pending owes
  | waiting caller =>
      cases caller with
      | reap notify => exact pending owes
      | wait id => exact owes
  | recording caller child status =>
      cases caller with
      | reap notify => exact owes.imp_left pending
      | wait id => exact owes
  | idle => exact owes
  | notifying notify => exact owes
  | reporting id => exact owes

/-- A step inside the call records the change or still owes it. -/
theorem step_owes
    {machine next : Machine} {label : Label} {pid : Int}
    (owes : Owes pid machine) (step : Step machine label next) :
    (∃ status, label = .record pid status) ∨ Owes pid next := by
  cases step with
  | launch command isIdle available => simp [Owes, isIdle] at owes
  | abandon isIdle available => simp [Owes, isIdle] at owes
  | beginReap notify isIdle => simp [Owes, isIdle] at owes
  | continueWait isIdle resumed => simp [Owes, isIdle] at owes
  | beginWait isIdle present => simp [Owes, isIdle] at owes
  | resume isIdle resumed => simp [Owes, isIdle] at owes
  | report isReporting => simp [Owes, isReporting] at owes
  | notify isNotifying => simp [Owes, isNotifying] at owes
  | change other status allowed =>
      exact Or.inr (owes.mono rfl (fun pending => pending.markChange status)
        (fun isSet => isSet))
  | handle isRaised =>
      exact Or.inr (owes.mono rfl (fun pending => pending) (fun _ => rfl))
  | testFlag isTesting =>
      right
      simp only [Owes, isTesting] at owes
      simp only [Owes, owes.2, if_true]
      exact owes.1
  | clearFlag isClearing =>
      right
      simp only [Owes, isClearing] at owes
      exact owes
  | @waitChild caller child status isWaiting member changed selected =>
      cases caller with
      | wait id => simp [Owes, isWaiting] at owes
      | reap notify =>
          right
          simp only [Owes, isWaiting] at owes
          by_cases same : child.pid = pid
          · exact Or.inr same
          · exact Or.inl (owes.consume status same)
  | @waitInterrupted caller isWaiting => exact Or.inr owes
  | @waitEnds caller isWaiting ends =>
      cases caller with
      | wait id => simp [Owes, isWaiting] at owes
      | reap notify =>
          simp only [Owes, isWaiting] at owes
          rcases owes with ⟨child, member, -, changed⟩
          exact (changed (ends child member)).elim
  | @record caller child status isRecording =>
      cases caller with
      | wait id => simp [Owes, isRecording] at owes
      | reap notify =>
          simp only [Owes, isRecording] at owes
          rcases owes with pending | rfl
          · exact Or.inr pending
          · exact Or.inl ⟨status, rfl⟩

theorem runsWithin_records
    {start finish : Machine} {labels : List Label} {pid : Int}
    (call : machineSystem.RunsWithin InReap start labels finish)
    (owes : Owes pid start) (returned : finish.phase = .idle) :
    ∃ status, Label.record pid status ∈ labels := by
  induction call with
  | nil state => simp [Owes, returned] at owes
  | cons inside stepped later induction =>
      rcases step_owes owes (step_of_machineStep stepped) with
        ⟨status, rfl⟩ | stillOwes
      · exact ⟨status, List.mem_cons_self⟩
      · rcases induction stillOwes returned with ⟨status, member⟩
        exact ⟨status, List.mem_cons_of_mem _ member⟩

/--
Outside the drain an unreported change has set the flag or has a signal to be
handled.  A call of `reap_background` that begins with every signal handled
passes every child that then had an unreported change to `update_process`
before it returns.
-/
theorem no_wakeup_lost
    (machine : Machine) (reachable : machineSystem.Reachable machine) :
    (¬ Draining machine →
        (∃ child ∈ machine.children, child.change ≠ none) →
          machine.flag = true ∨ machine.raised = true) ∧
      ∀ notify labels finish, machine.phase = .testing notify →
        machine.raised = false →
        machineSystem.RunsWithin InReap machine labels finish →
        finish.phase = .idle →
          ∀ child ∈ machine.children, child.change ≠ none →
            ∃ status, Label.record child.pid status ∈ labels := by
  have law := reachable_law reachable
  refine ⟨law, ?_⟩
  intro notify labels finish begun handled call returned child member changed
  have flagged : machine.flag = true := by
    rcases law (by simp [Draining, begun]) ⟨child, member, changed⟩ with
      isSet | isRaised
    · exact isSet
    · rw [handled] at isRaised
      cases isRaised
  refine runsWithin_records call ?_ returned
  simp only [Owes, begun]
  exact ⟨⟨child, member, rfl, changed⟩, flagged⟩

/-- A child has exited and the handler has run. -/
def exitedRun : List Label :=
  [.launch [10] (literal "true"), .change 10 0#32, .handle, .beginReap true]

theorem no_wakeup_lost_exited :
    ∃ machine,
      machineSystem.run startMachine exitedRun = some machine ∧
        machine.raised = false ∧
        ∀ labels finish,
          machineSystem.RunsWithin InReap machine labels finish →
          finish.phase = .idle →
            ∃ status, Label.record 10 status ∈ labels := by
  have state :
      (machineSystem.run startMachine exitedRun).map
          (fun machine =>
            (machine.phase, machine.raised, machine.children)) =
        some (.testing true, false, [⟨10, 10, some 1, some 0#32⟩]) := by
    decide +kernel
  rcases Option.map_eq_some_iff.mp state with ⟨machine, ran, equal⟩
  simp only [Prod.mk.injEq] at equal
  rcases equal with ⟨begun, handled, children⟩
  refine ⟨machine, ran, handled, ?_⟩
  intro labels finish call returned
  have reachable : machineSystem.Reachable machine :=
    ⟨startMachine, exitedRun, ⟨rfl, rfl, rfl, rfl⟩, ran⟩
  exact (no_wakeup_lost machine reachable).2 true labels finish begun handled
    call returned ⟨10, 10, some 1, some 0#32⟩ (by simp [children]) (by simp)

end Shell.Wakeup
