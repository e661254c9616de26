import Shell.Trace.Tracer

/-!
# What a trace says about the stops

The labels of a run are read as a sequence of stops.  A call is an exit stop
with the entry stop right in front of it, other stops than these two kinds left
out.  In every state of the loop the tracer has accounted for the calls so far
and for the signal of the last stop; nothing else is carried from one round to
the next.
-/

namespace Shell.TraceAccounting

open Shell.Syntax
open Shell.JobTable
open Shell.JobOperations
open Shell.TransitionSystem
open Shell.TraceRendering
open Shell.TraceMachine

/-! ## Stops and calls -/

inductive Stop where
  | entry (entry : SyscallEntry)
  | exit (rval : Int)
  | signal (signal : Nat)
  | other
deriving DecidableEq, Repr

/-- The stop that is complete with a label.  A stop at a system call is
complete when the tracer has asked for its kind. -/
def stopOf : Label → Option Stop
  | .wait (.changed status) =>
      if status.terminates then none
      else if !status.ifStopped then some .other
      else if status.exitStatus = syscallStop then none
      else some (.signal status.exitStatus)
  | .inspect (.entry nr args memory) =>
      let number := nr.toInt64.toInt
      some (.entry ⟨number, args, formatArguments memory number args⟩)
  | .inspect (.exit rval) => some (.exit rval.toInt)
  | .inspect .other => some .other
  | _ => none

/-- The stops of a run. -/
def stops (labels : List Label) : List Stop :=
  labels.filterMap stopOf

def Stop.ofSyscall : Stop → Bool
  | .entry _ | .exit _ => true
  | _ => false

/-- An entry with the return value of its exit. -/
structure Call where
  entry : SyscallEntry
  rval : Int
deriving DecidableEq, Repr

/-- An exit right behind an entry makes a call. -/
def callOf : Stop × Stop → Option Call
  | (.entry entry, .exit rval) => some ⟨entry, rval⟩
  | _ => none

/-- The calls: each exit stop with the most recent entry stop before it, if no
other exit stop lies between them. -/
def calls (stops : List Stop) : List Call :=
  let syscalls := stops.filter Stop.ofSyscall
  (syscalls.zip syscalls.tail).filterMap callOf

/-- The signal that belongs into the next resume. -/
def injected : Stop → Nat
  | .signal signal =>
      if signal = sigtrap ∨ signal = sigstop then 0 else signal
  | _ => 0

/-- The entry that the next exit belongs to. -/
def openEntry (stops : List Stop) : Option SyscallEntry :=
  match (stops.filter Stop.ofSyscall).getLast? with
  | some (.entry entry) => some entry
  | _ => none

theorem zip_tail_concat {α : Type*} (front : List α) (last : α) :
    (front ++ [last]).zip (front ++ [last]).tail =
      front.zip front.tail ++
        (front.getLast?.map fun previous => (previous, last)).toList := by
  induction front with
  | nil => rfl
  | cons first rest induction =>
      cases rest with
      | nil => rfl
      | cons second rest =>
          simp only [List.cons_append, List.tail_cons, List.zip_cons_cons]
            at induction ⊢
          rw [induction, List.getLast?_cons_cons]

/-- The call that a stop completes. -/
def completed (stops : List Stop) : Stop → Option Call
  | .exit rval => (openEntry stops).map fun entry => ⟨entry, rval⟩
  | _ => none

theorem calls_concat_of_ofSyscall
    (stops : List Stop) {stop : Stop} (isCall : stop.ofSyscall = true) :
    calls (stops ++ [stop]) =
      calls stops ++
        ((stops.filter Stop.ofSyscall).getLast?.bind
          fun previous => callOf (previous, stop)).toList := by
  have filtered :
      (stops ++ [stop]).filter Stop.ofSyscall =
        stops.filter Stop.ofSyscall ++ [stop] := by
    rw [List.filter_append, List.filter_cons_of_pos isCall, List.filter_nil]
  rw [calls, filtered]
  show List.filterMap callOf _ = _
  rw [zip_tail_concat, List.filterMap_append, ← calls]
  congr 1
  cases (stops.filter Stop.ofSyscall).getLast? with
  | none => rfl
  | some previous =>
      cases made : callOf (previous, stop) <;> simp [made]

theorem calls_concat (stops : List Stop) (stop : Stop) :
    calls (stops ++ [stop]) =
      calls stops ++ (completed stops stop).toList := by
  cases stop with
  | signal _ | other =>
      simp [calls, completed, Stop.ofSyscall, List.filter_append]
  | entry entry =>
      rw [calls_concat_of_ofSyscall stops rfl]
      cases (stops.filter Stop.ofSyscall).getLast? with
      | none => rfl
      | some previous => cases previous <;> rfl
  | exit rval =>
      rw [calls_concat_of_ofSyscall stops rfl, completed, openEntry]
      cases (stops.filter Stop.ofSyscall).getLast? with
      | none => rfl
      | some previous => cases previous <;> rfl

theorem openEntry_concat (stops : List Stop) (stop : Stop) :
    openEntry (stops ++ [stop]) =
      match stop with
      | .entry entry => some entry
      | .exit _ => none
      | _ => openEntry stops := by
  cases stop <;> simp [openEntry, Stop.ofSyscall, List.filter_append]

theorem completed_of_not_ofSyscall
    (stops : List Stop) {stop : Stop} (notCall : stop.ofSyscall = false) :
    completed stops stop = none ∧
      openEntry (stops ++ [stop]) = openEntry stops := by
  rw [openEntry_concat]
  cases stop with
  | entry _ | exit _ => cases notCall
  | signal _ | other => exact ⟨rfl, rfl⟩

/-! ## Counts -/

def callCount (nr : Int) (calls : List Call) : Nat :=
  calls.countP fun call => call.entry.number = nr

def errorCount (nr : Int) (calls : List Call) : Nat :=
  calls.countP fun call =>
    call.entry.number = nr ∧ -4095 ≤ call.rval ∧ call.rval ≤ -1

theorem errorCount_le_callCount (nr : Int) (calls : List Call) :
    errorCount nr calls ≤ callCount nr calls := by
  apply List.countP_mono_left
  intro call _ isError
  exact decide_eq_true (of_decide_eq_true isError).1

/-- The map has the counts of the numbers that occur, and nothing else. -/
def Tallied (calls : List Call) (stats : StatsMap) : Prop :=
  ∀ nr, stats.lookup nr =
    if callCount nr calls = 0 then none
    else some ⟨callCount nr calls, errorCount nr calls⟩

theorem Tallied.getD
    {calls : List Call} {stats : StatsMap} (tallied : Tallied calls stats)
    (nr : Int) :
    (stats.lookup nr).getD {} =
      ⟨callCount nr calls, errorCount nr calls⟩ := by
  rw [tallied nr]
  split_ifs with unused
  · have noErrors := errorCount_le_callCount nr calls
    rw [unused, Nat.le_zero] at noErrors
    rw [unused, noErrors]
    rfl
  · rfl

theorem Tallied.record
    {calls : List Call} {stats : StatsMap} (tallied : Tallied calls stats)
    (call : Call) :
    Tallied (calls ++ [call])
      (record stats call.entry.number call.rval) := by
  intro nr
  by_cases same : nr = call.entry.number
  · subst same
    rw [TraceMachine.record, AList.lookup_insert, tallied.getD]
    have counted :
        callCount call.entry.number (calls ++ [call]) =
          callCount call.entry.number calls + 1 := by
      simp [callCount, List.countP_append]
    have errors :
        errorCount call.entry.number (calls ++ [call]) =
          errorCount call.entry.number calls +
            if isErrorReturn call.rval then 1 else 0 := by
      simp [errorCount, isErrorReturn_iff, List.countP_append,
        List.countP_cons]
    rw [counted, errors, if_neg (Nat.succ_ne_zero _), SyscallStats.count]
    split_ifs <;> rfl
  · rw [TraceMachine.record, AList.lookup_insert_ne same, tallied nr]
    have other : call.entry.number ≠ nr := Ne.symm same
    simp [callCount, errorCount, List.countP_append, other]

/-! ## Everything the loop can do -/

/-- The phases of the loop. -/
def inLoop : Phase → Bool
  | .resuming | .waiting | .inspecting => true
  | _ => false

/-- The calls of the tracer succeed, apart from waits that a signal
interrupts. -/
def Succeeds : Label → Prop
  | .fork error | .setOptions error => error = none
  | .wait (.failed _) | .resume .noSuchProcess | .resume (.failed _)
  | .inspect (.failed _) => False
  | _ => True

/-- A successful step of the loop, with the stop that it completes. -/
inductive LoopStep (strerror : Nat → ByteString) (summary : Bool)
    (tracer : Tracer) : Option Stop → Tracer → Prop where
  | resume (isResuming : tracer.phase = .resuming) :
      LoopStep strerror summary tracer none
        { tracer with
          phase := .waiting
          signalToDeliver := 0
          resumes := tracer.resumes ++ [tracer.signalToDeliver] }
  | interrupted (isWaiting : tracer.phase = .waiting) :
      LoopStep strerror summary tracer none tracer
  | ended (isWaiting : tracer.phase = .waiting) (status : Int) :
      LoopStep strerror summary tracer none (tracer.finish summary status)
  | syscall (isWaiting : tracer.phase = .waiting) :
      LoopStep strerror summary tracer none
        { tracer with phase := .inspecting }
  | signal (isWaiting : tracer.phase = .waiting) (signal : Nat)
      (real : injected (.signal signal) = signal) :
      LoopStep strerror summary tracer (some (.signal signal))
        { tracer with phase := .resuming, signalToDeliver := signal }
  | idle (isStopped : tracer.phase = .waiting ∨ tracer.phase = .inspecting)
      {stop : Stop} (notCall : stop.ofSyscall = false)
      (noSignal : injected stop = 0) :
      LoopStep strerror summary tracer (some stop)
        { tracer with phase := .resuming }
  | entry (isInspecting : tracer.phase = .inspecting)
      (entry : SyscallEntry) :
      LoopStep strerror summary tracer (some (.entry entry))
        { tracer with phase := .resuming, current := some entry }
  | unmatched (isInspecting : tracer.phase = .inspecting)
      (isClosed : tracer.current = none) (rval : Int) :
      LoopStep strerror summary tracer (some (.exit rval))
        { tracer with phase := .resuming }
  | exit (isInspecting : tracer.phase = .inspecting)
      {entry : SyscallEntry} (isOpen : tracer.current = some entry)
      (rval : Int) :
      LoopStep strerror summary tracer (some (.exit rval))
        (tracer.close strerror summary entry rval)

theorem handleChange_loopStep
    (strerror : Nat → ByteString) (summary : Bool) {tracer : Tracer}
    (isWaiting : tracer.phase = .waiting) (status : WaitStatus) :
    LoopStep strerror summary tracer (stopOf (.wait (.changed status)))
      (handleChange summary tracer status) := by
  simp only [stopOf, handleChange]
  split_ifs with terminates notStopped isSyscall suppressed
  · exact .ended isWaiting _
  · exact .idle (Or.inl isWaiting) rfl rfl
  · exact .syscall isWaiting
  · exact .idle (Or.inl isWaiting) rfl (if_pos suppressed)
  · exact .signal isWaiting _ (if_neg suppressed)

theorem loopStep_of_traceStep
    {strerror : Nat → ByteString} {summary : Bool} {tracer next : Tracer}
    {label : Label} (isLooping : inLoop tracer.phase = true)
    (succeeds : Succeeds label)
    (stepped : traceStep strerror summary tracer label = some next) :
    LoopStep strerror summary tracer (stopOf label) next := by
  unfold traceStep at stepped
  split at stepped
  -- The prelude is not in the loop, and no call of the loop fails.
  all_goals
    rename_i isPhase
    try rw [isPhase] at isLooping
    try cases isLooping
    try cases succeeds
  · cases stepped
    exact .resume isPhase
  · cases stepped
    exact .interrupted isPhase
  · cases stepped
    exact handleChange_loopStep strerror summary isPhase _
  · cases stepped
    exact .entry isPhase _
  · split at stepped <;> cases stepped
    · exact .unmatched isPhase ‹_› _
    · exact .exit isPhase ‹_› _
  · cases stepped
    exact .idle (Or.inr isPhase) rfl rfl
  · cases stepped

/-! ## The account of a run -/

section Account

variable {strerror : Nat → ByteString} {summary : Bool} {stops : List Stop}
  {tracer next : Tracer}

/-- The lines of live mode. -/
def liveLines (strerror : Nat → ByteString) (summary : Bool)
    (calls : List Call) : List ByteString :=
  if summary then []
  else calls.map fun call => callLine strerror call.entry call.rval

/-- What the tracer has in its variables after some stops. -/
structure Accounts (strerror : Nat → ByteString) (summary : Bool)
    (stops : List Stop) (tracer : Tracer) : Prop where
  isLooping : inLoop tracer.phase = true
  current : tracer.current = openEntry stops
  tallied : Tallied (calls stops) tracer.stats
  output : tracer.output = liveLines strerror summary (calls stops)
  resumes :
    if tracer.phase = .resuming then
      tracer.resumes ++ [tracer.signalToDeliver] = 0 :: stops.map injected
    else
      tracer.signalToDeliver = 0 ∧ tracer.resumes = 0 :: stops.map injected

/-- What is left when the tracee is gone. -/
structure Accounted (strerror : Nat → ByteString) (summary : Bool)
    (stops : List Stop) (tracer : Tracer) : Prop where
  tallied : Tallied (calls stops) tracer.stats
  output :
    tracer.output =
      liveLines strerror summary (calls stops) ++
        if summary then [renderSummary tracer.stats] else []
  resumes : tracer.resumes = 0 :: stops.map injected

/-- The account goes on until the tracee is gone. -/
def Ledger (strerror : Nat → ByteString) (summary : Bool)
    (stops : List Stop) (tracer : Tracer) : Prop :=
  Accounts strerror summary stops tracer ∨
    Accounted strerror summary stops tracer ∧
      ∃ status, tracer.phase = .returned status

theorem Accounts.at_stop
    (holds : Accounts strerror summary stops tracer)
    (isStopped : tracer.phase = .waiting ∨ tracer.phase = .inspecting) :
    tracer.signalToDeliver = 0 ∧
      tracer.resumes = 0 :: stops.map injected := by
  have resumes := holds.resumes
  rcases isStopped with isPhase | isPhase <;> rw [isPhase] at resumes <;>
    exact resumes

/-- The signal of a stop goes into the next resume. -/
theorem Accounts.resumes_concat
    (holds : Accounts strerror summary stops tracer)
    (isStopped : tracer.phase = .waiting ∨ tracer.phase = .inspecting)
    (stop : Stop) :
    tracer.resumes ++ [injected stop] =
      0 :: (stops ++ [stop]).map injected := by
  rw [(holds.at_stop isStopped).2, List.map_append]
  rfl

theorem Accounts.resumes_concat_of_no_signal
    (holds : Accounts strerror summary stops tracer)
    (isStopped : tracer.phase = .waiting ∨ tracer.phase = .inspecting)
    {stop : Stop} (noSignal : injected stop = 0) :
    tracer.resumes ++ [tracer.signalToDeliver] =
      0 :: (stops ++ [stop]).map injected := by
  rw [(holds.at_stop isStopped).1, ← holds.resumes_concat isStopped stop,
    noSignal]

theorem Accounts.resume
    (holds : Accounts strerror summary stops tracer)
    (isResuming : tracer.phase = .resuming) :
    Accounts strerror summary stops
      { tracer with
        phase := .waiting
        signalToDeliver := 0
        resumes := tracer.resumes ++ [tracer.signalToDeliver] } := by
  have resumes := holds.resumes
  rw [if_pos isResuming] at resumes
  exact ⟨rfl, holds.current, holds.tallied, holds.output, rfl, resumes⟩

theorem Accounts.finish
    (holds : Accounts strerror summary stops tracer)
    (isWaiting : tracer.phase = .waiting) (status : Int) :
    Accounted strerror summary stops (tracer.finish summary status) := by
  have resumes := (holds.at_stop (Or.inl isWaiting)).2
  cases summary with
  | true =>
      refine ⟨holds.tallied, ?_, resumes⟩
      exact congrArg (· ++ [renderSummary tracer.stats]) holds.output
  | false =>
      refine ⟨holds.tallied, ?_, resumes⟩
      exact holds.output.trans (List.append_nil _).symm

/-- A stop that completes no call. -/
theorem Accounts.uncounted
    (holds : Accounts strerror summary stops tracer)
    {stop : Stop} (completesNone : completed stops stop = none)
    {current : Option SyscallEntry}
    (isCurrent : current = openEntry (stops ++ [stop]))
    {signal : Nat}
    (resumes :
      tracer.resumes ++ [signal] = 0 :: (stops ++ [stop]).map injected) :
    Accounts strerror summary (stops ++ [stop])
      { tracer with
        phase := .resuming
        current := current
        signalToDeliver := signal } := by
  have sameCalls : calls (stops ++ [stop]) = calls stops := by
    rw [calls_concat, completesNone]
    exact List.append_nil _
  constructor
  · rfl
  · exact isCurrent
  · rw [sameCalls]
    exact holds.tallied
  · rw [sameCalls]
    exact holds.output
  · exact resumes

/-- A stop other than at a system call. -/
theorem Accounts.aside
    (holds : Accounts strerror summary stops tracer)
    (isStopped : tracer.phase = .waiting ∨ tracer.phase = .inspecting)
    {stop : Stop} (notCall : stop.ofSyscall = false) :
    Accounts strerror summary (stops ++ [stop])
      { tracer with
        phase := .resuming
        signalToDeliver := injected stop } := by
  rcases completed_of_not_ofSyscall stops notCall with
    ⟨completesNone, sameEntry⟩
  apply holds.uncounted completesNone
  · rw [sameEntry]
    exact holds.current
  · exact holds.resumes_concat isStopped stop

theorem Accounts.enter
    (holds : Accounts strerror summary stops tracer)
    (isInspecting : tracer.phase = .inspecting) (entry : SyscallEntry) :
    Accounts strerror summary (stops ++ [.entry entry])
      { tracer with phase := .resuming, current := some entry } := by
  apply holds.uncounted rfl
  · exact (openEntry_concat stops (.entry entry)).symm
  · exact holds.resumes_concat_of_no_signal (Or.inr isInspecting) rfl

/-- An exit stop without an open entry. -/
theorem Accounts.ignore
    (holds : Accounts strerror summary stops tracer)
    (isInspecting : tracer.phase = .inspecting)
    (isClosed : tracer.current = none) (rval : Int) :
    Accounts strerror summary (stops ++ [.exit rval])
      { tracer with phase := .resuming } := by
  have completesNone : completed stops (.exit rval) = none := by
    rw [completed, ← holds.current, isClosed]
    rfl
  apply holds.uncounted completesNone
  · rw [openEntry_concat]
    exact isClosed
  · exact holds.resumes_concat_of_no_signal (Or.inr isInspecting) rfl

/-- An exit stop that completes a call. -/
theorem Accounts.close
    (holds : Accounts strerror summary stops tracer)
    (isInspecting : tracer.phase = .inspecting) {entry : SyscallEntry}
    (isOpen : tracer.current = some entry) (rval : Int) :
    Accounts strerror summary (stops ++ [.exit rval])
      (tracer.close strerror summary entry rval) := by
  have added :
      calls (stops ++ [.exit rval]) = calls stops ++ [⟨entry, rval⟩] := by
    rw [calls_concat, completed, ← holds.current, isOpen]
    rfl
  have output := holds.output
  constructor
  · rfl
  · rw [openEntry_concat]
    rfl
  · rw [added]
    exact holds.tallied.record ⟨entry, rval⟩
  · rw [added]
    cases summary with
    | true => exact output
    | false =>
        simp only [Tracer.close, Tracer.write, Bool.false_eq_true, if_false,
          output, liveLines, List.map_append]
        rfl
  · cases summary <;>
      exact holds.resumes_concat_of_no_signal (Or.inr isInspecting) rfl

theorem Accounts.step
    {stop : Option Stop}
    (holds : Accounts strerror summary stops tracer)
    (stepped : LoopStep strerror summary tracer stop next) :
    Ledger strerror summary (stops ++ stop.toList) next := by
  cases stepped with
  | resume isResuming =>
      rw [Option.toList_none, List.append_nil]
      exact Or.inl (holds.resume isResuming)
  | interrupted isWaiting =>
      rw [Option.toList_none, List.append_nil]
      exact Or.inl holds
  | ended isWaiting status =>
      rw [Option.toList_none, List.append_nil]
      exact Or.inr ⟨holds.finish isWaiting status, status, rfl⟩
  | syscall isWaiting =>
      rw [Option.toList_none, List.append_nil]
      exact Or.inl ⟨rfl, holds.current, holds.tallied, holds.output,
        holds.at_stop (Or.inl isWaiting)⟩
  | signal isWaiting signal real =>
      have notCall : (Stop.signal signal).ofSyscall = false := rfl
      have aside := holds.aside (Or.inl isWaiting) notCall
      rw [real] at aside
      exact Or.inl aside
  | idle isStopped notCall noSignal =>
      have aside := holds.aside isStopped notCall
      rw [noSignal, ← (holds.at_stop isStopped).1] at aside
      exact Or.inl aside
  | entry isInspecting entry => exact Or.inl (holds.enter isInspecting entry)
  | unmatched isInspecting isClosed rval =>
      exact Or.inl (holds.ignore isInspecting isClosed rval)
  | exit isInspecting isOpen rval =>
      exact Or.inl (holds.close isInspecting isOpen rval)

theorem Ledger.step
    {label : Label}
    (holds : Ledger strerror summary stops tracer)
    (succeeds : Succeeds label)
    (stepped : traceStep strerror summary tracer label = some next) :
    Ledger strerror summary (stops ++ (stopOf label).toList) next := by
  rcases holds with accounts | ⟨_, status, isReturned⟩
  · exact accounts.step
      (loopStep_of_traceStep accounts.isLooping succeeds stepped)
  · -- Nothing follows a return.
    unfold traceStep at stepped
    rw [isReturned] at stepped
    split at stepped <;> simp_all

end Account

/-! ## In front of the loop -/

/-- The phases in front of the loop. -/
def inPrelude : Phase → Bool
  | .forking | .stopping | .settingOptions => true
  | _ => false

theorem handleChange_not_inPrelude
    (summary : Bool) (tracer : Tracer) (status : WaitStatus) :
    inPrelude (handleChange summary tracer status).phase = false := by
  unfold handleChange
  split_ifs <;> rfl

/-- A phase in front of the loop is reached from another one, and nothing but
the phase changes. -/
theorem prelude_step
    {strerror : Nat → ByteString} {summary : Bool} {tracer next : Tracer}
    {label : Label}
    (stepped : traceStep strerror summary tracer label = some next)
    (isPrelude : inPrelude next.phase = true) :
    inPrelude tracer.phase = true ∧
      next = { tracer with phase := next.phase } := by
  unfold traceStep at stepped
  split at stepped
  all_goals rename_i isPhase
  all_goals try cases stepped
  all_goals try cases isPrelude
  all_goals try exact ⟨by rw [isPhase]; rfl, rfl⟩
  · split_ifs at stepped <;> cases stepped
    · cases isPrelude
    · exact ⟨by rw [isPhase]; rfl, rfl⟩
  · rw [isPhase] at isPrelude
    cases isPrelude
  · rw [handleChange_not_inPrelude] at isPrelude
    cases isPrelude
  · split at stepped <;> cases stepped <;> cases isPrelude

/-- The variables are untouched when the loop begins. -/
theorem configured_eq
    {strerror : Nat → ByteString} {summary : Bool} {prelude : List Label}
    {tracer : Tracer}
    (configured :
      (traceProcess strerror summary).run {}
        (prelude ++ [.setOptions none]) = some tracer) :
    tracer = { phase := .resuming } := by
  rcases System.run_append.mp configured with ⟨middle, arrived, last⟩
  have untouched :
      inPrelude middle.phase = true →
        middle = { phase := middle.phase } := by
    apply System.run_preserves
      (fun tracer =>
        inPrelude tracer.phase = true → tracer = { phase := tracer.phase })
      _ (fun _ => rfl) arrived
    intro tracer label next untouched stepped isPrelude
    rcases prelude_step stepped isPrelude with ⟨fromPrelude, same⟩
    rw [untouched fromPrelude] at same
    exact same
  rcases System.run_cons.mp last with ⟨next, stepped, isLast⟩
  cases isLast
  change traceStep strerror summary middle (.setOptions none) = some tracer
    at stepped
  cases isPhase : middle.phase with
  | settingOptions =>
      have isFresh := untouched (by rw [isPhase]; rfl)
      simp only [traceStep, isPhase, Option.some.injEq] at stepped
      rw [← stepped, isFresh]
  | _ => simp [traceStep, isPhase] at stepped

/-! ## The summary -/

/-- A summary with one row for every number and the right counts. -/
structure Summarizes (calls : List Call) (rows : List Row)
    (totalCalls totalErrors : Nat) : Prop where
  unique : (rows.map Row.nr).Nodup
  complete :
    ∀ nr, nr ∈ rows.map Row.nr ↔
      ∃ call ∈ calls, call.entry.number = nr
  counts :
    ∀ row ∈ rows,
      row.stats.calls = callCount row.nr calls ∧
        row.stats.errors = errorCount row.nr calls ∧
        row.stats.errors ≤ row.stats.calls
  totals :
    totalCalls = (rows.map fun row => row.stats.calls).sum ∧
      totalErrors = (rows.map fun row => row.stats.errors).sum

theorem summaryRows_perm (stats : StatsMap) :
    (summaryRows stats).Perm
      (stats.entries.map fun entry => ⟨entry.1, entry.2⟩) :=
  List.mergeSort_perm _ _

theorem mem_summaryRows {stats : StatsMap} {row : Row} :
    row ∈ summaryRows stats ↔ stats.lookup row.nr = some row.stats := by
  rw [(summaryRows_perm stats).mem_iff, List.mem_map]
  rw [← Option.mem_def, AList.mem_lookup_iff]
  constructor
  · rintro ⟨entry, isEntry, rfl⟩
    exact isEntry
  · intro isEntry
    exact ⟨_, isEntry, rfl⟩

theorem sum_summaryRows (stats : StatsMap) (count : SyscallStats → Nat) :
    (stats.entries.map fun entry => count entry.2).sum =
      ((summaryRows stats).map fun row => count row.stats).sum := by
  have perm := (summaryRows_perm stats).map fun row => count row.stats
  rw [List.map_map] at perm
  exact perm.sum_nat.symm

theorem callCount_ne_zero {nr : Int} {calls : List Call} :
    callCount nr calls ≠ 0 ↔ ∃ call ∈ calls, call.entry.number = nr := by
  rw [callCount, ← Nat.pos_iff_ne_zero, List.countP_pos_iff]
  simp only [decide_eq_true_eq]

theorem Tallied.summarizes
    {calls : List Call} {stats : StatsMap} (tallied : Tallied calls stats) :
    Summarizes calls (summaryRows stats) (totalCalls stats)
      (totalErrors stats) := by
  have numbers :
      ((summaryRows stats).map Row.nr).Perm stats.keys := by
    have perm := (summaryRows_perm stats).map Row.nr
    rwa [List.map_map] at perm
  have counted :
      ∀ row ∈ summaryRows stats,
        callCount row.nr calls ≠ 0 ∧
          row.stats = ⟨callCount row.nr calls, errorCount row.nr calls⟩ := by
    intro row isRow
    have found := mem_summaryRows.mp isRow
    rw [tallied row.nr] at found
    split_ifs at found with unused
    exact ⟨unused, (Option.some.inj found).symm⟩
  constructor
  · exact numbers.nodup_iff.mpr stats.keys_nodup
  · intro nr
    rw [← callCount_ne_zero, List.mem_map]
    constructor
    · rintro ⟨row, isRow, rfl⟩
      exact (counted row isRow).1
    · intro used
      refine ⟨⟨nr, callCount nr calls, errorCount nr calls⟩, ?_, rfl⟩
      rw [mem_summaryRows, tallied nr, if_neg used]
  · intro row isRow
    rw [(counted row isRow).2]
    exact ⟨rfl, rfl, errorCount_le_callCount row.nr calls⟩
  · exact ⟨sum_summaryRows stats SyscallStats.calls,
      sum_summaryRows stats SyscallStats.errors⟩

theorem Row.text_eq (row : Row) :
    row.text =
      leftField 22 (syscallName row.nr) ++
        rightField 8 (decimal row.stats.calls) ++
        rightField 8 (decimal row.stats.errors) ++ literal "\n" :=
  rfl

theorem summaryText_eq (rows : List Row) (calls errors : Nat) :
    summaryText rows calls errors =
      literal "Syscall summary\n" ++
        literal "------------------------------\n" ++
        literal "syscall                  calls  errors\n" ++
        (rows.flatMap fun row =>
          leftField 22 (syscallName row.nr) ++
            rightField 8 (decimal row.stats.calls) ++
            rightField 8 (decimal row.stats.errors) ++ literal "\n") ++
        literal "------------------------------\n" ++
        literal "total                 " ++ rightField 8 (decimal calls) ++
        rightField 8 (decimal errors) ++ literal "\n" := by
  have header :
      summaryLine (literal "syscall") (literal "calls") (literal "errors") =
        literal "syscall                  calls  errors\n" := by
    decide +kernel
  have total :
      leftField 22 (literal "total") = literal "total                 " := by
    decide +kernel
  rw [summaryText, header, funext Row.text_eq]
  simp only [summaryLine, total, List.append_assoc]

/-! ## Traces -/

/-- For every sequence of stops up to the end of the tracee: live mode writes
one line for each call, with the name and the arguments of its entry and the
return value of its exit; summary mode writes one row for each number with the
right counts and a total row with their sums; and each resume carries the
signal of the stop before it. -/
theorem trace_accounts_for_stops
    {strerror : Nat → ByteString} {summary : Bool}
    {prelude labels : List Label} {configured tracer : Tracer}
    (ready :
      (traceProcess strerror summary).run {}
        (prelude ++ [.setOptions none]) = some configured)
    (succeed : ∀ label ∈ labels, Succeeds label)
    (ran :
      (traceProcess strerror summary).run configured labels = some tracer)
    (isReturned : ∃ status, tracer.phase = .returned status) :
    (summary = false →
        tracer.output =
          (calls (stops labels)).map fun call =>
            syscallName call.entry.number ++ literal "(" ++
              call.entry.renderedArgs ++ literal ") = " ++
              (if -4095 ≤ call.rval ∧ call.rval ≤ -1 then
                literal "-1 " ++ strerror (-call.rval).toNat ++
                  literal " (errno " ++ decimal (-call.rval).toNat ++
                  literal ")"
              else decimal call.rval) ++
              literal "\n") ∧
      (summary = true →
        ∃ (rows : List Row) (totalCalls totalErrors : Nat),
          tracer.output =
              [literal "Syscall summary\n" ++
                literal "------------------------------\n" ++
                literal "syscall                  calls  errors\n" ++
                (rows.flatMap fun row =>
                  leftField 22 (syscallName row.nr) ++
                    rightField 8 (decimal row.stats.calls) ++
                    rightField 8 (decimal row.stats.errors) ++
                    literal "\n") ++
                literal "------------------------------\n" ++
                literal "total                 " ++
                rightField 8 (decimal totalCalls) ++
                rightField 8 (decimal totalErrors) ++ literal "\n"] ∧
            Summarizes (calls (stops labels)) rows totalCalls
              totalErrors) ∧
      (∀ nr, (tracer.stats.lookup nr).getD {} =
        ⟨callCount nr (calls (stops labels)),
          errorCount nr (calls (stops labels))⟩) ∧
      tracer.resumes = 0 :: (stops labels).map injected := by
  have start : Ledger strerror summary [] configured := by
    rw [configured_eq ready]
    exact Or.inl ⟨rfl, rfl, fun _ => rfl, by cases summary <;> rfl, rfl⟩
  have ledger : Ledger strerror summary (stops labels) tracer :=
    System.run_accounts stopOf (Ledger strerror summary) Succeeds
      Ledger.step start succeed ran
  rcases ledger with accounts | ⟨accounted, _⟩
  · rcases isReturned with ⟨status, isReturned⟩
    have isLooping := accounts.isLooping
    rw [isReturned] at isLooping
    cases isLooping
  · rcases accounted with ⟨tallied, output, resumes⟩
    refine ⟨?_, ?_, tallied.getD, resumes⟩
    · rintro rfl
      simp only [output, liveLines, callLine, formatReturn_eq,
        Bool.false_eq_true, if_false, List.append_nil]
    · rintro rfl
      refine ⟨summaryRows tracer.stats, totalCalls tracer.stats,
        totalErrors tracer.stats, ?_, tallied.summarizes⟩
      rw [← summaryText_eq]
      exact output

/-- The texts of `strerror` that the sample needs. -/
def sampleReasons (error : Nat) : ByteString :=
  if error = 9 then literal "Bad file descriptor" else []

/-- A call of `close` that fails, the signal 10 and the exit of the tracee. -/
def sampleLabels : List Label :=
  [.resume .succeeded, .wait .interrupted, .wait (.changed 0x857f#32),
    .inspect (.entry 3 (Vector.replicate 6 7) fun _ => none),
    .resume .succeeded, .wait (.changed 0x857f#32), .inspect (.exit (-9)),
    .resume .succeeded, .wait (.changed 0x0a7f#32),
    .resume .succeeded, .wait (.changed 0x0#32)]

theorem trace_accounts_for_stops_sample :
    (∃ tracer,
      (traceProcess sampleReasons false).run { phase := .resuming }
          sampleLabels = some tracer ∧
        tracer.output =
          [literal "close(7) = -1 Bad file descriptor (errno 9)\n"] ∧
        tracer.resumes = [0, 0, 0, 10]) ∧
      ((traceProcess sampleReasons true).run { phase := .resuming }
          sampleLabels).map Tracer.output =
        some
          [literal "Syscall summary\n" ++
            literal "------------------------------\n" ++
            literal "syscall                  calls  errors\n" ++
            literal "close                        1       1\n" ++
            literal "------------------------------\n" ++
            literal "total                        1       1\n"] := by
  have ready :
      (traceProcess sampleReasons false).run {}
        ([.fork none, .wait (.changed 0x137f#32)] ++ [.setOptions none]) =
        some { phase := .resuming } :=
    rfl
  have succeed : ∀ label ∈ sampleLabels, Succeeds label := by
    simp [sampleLabels, Succeeds]
  have returns :
      ((traceProcess sampleReasons false).run { phase := .resuming }
        sampleLabels).map Tracer.phase = some (.returned 0) := by
    decide +kernel
  rcases Option.map_eq_some_iff.mp returns with ⟨tracer, ran, isReturned⟩
  rcases trace_accounts_for_stops ready succeed ran ⟨0, isReturned⟩ with
    ⟨live, _, _, resumes⟩
  refine ⟨⟨tracer, ran, (live rfl).trans ?_, resumes.trans ?_⟩, ?_⟩
  · decide +kernel
  · decide +kernel
  · decide +kernel

end Shell.TraceAccounting
