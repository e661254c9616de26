import Shell.Library.AnsweredLoop
import Shell.Parsing.Syntax

/-!
# Writing a text to a descriptor

`write_all` of `shell_utils.cpp`, with which the built-in commands, the job
notices and the traces are written.  A call of `write` may take only the front
of what it is given, may be interrupted before it has taken anything, or may
fail.  The loop asks the kernel again for what is left, so the bytes that have
arrived are at any time the front of the text that the local variable counts.
-/

namespace Shell.WriteAll

open Shell.AnsweredLoop
open Shell.Syntax

/-! ## The loop -/

/-- `EINTR`. -/
def eintr : Nat := 4

/-- What a call of `write` returns: a count, or -1 with `errno`. -/
inductive WriteAnswer where
  | wrote (count : Nat)
  | failed (errno : Nat)
deriving DecidableEq, Repr

/-- The local variable of `write_all` and what has arrived at `fd`. -/
structure WriteState where
  written : Nat := 0
  delivered : ByteString := []
deriving DecidableEq, Repr

/-- The value of `write_all` and what has arrived at `fd` by then. -/
structure WriteResult where
  succeeded : Bool
  delivered : ByteString
deriving DecidableEq, Repr

/-- The bytes that the next call of `write` is given. -/
def requested (data : ByteString) (state : WriteState) : ByteString :=
  data.drop state.written

/-- The loop of `write_all`.  A call that returns a count has taken so many
bytes from the front of what it was given. -/
def writeLoop (data : ByteString) :
    Loop WriteState WriteAnswer WriteResult where
  exit state :=
    if state.written < data.length then
      none
    else
      some ⟨true, state.delivered⟩
  pass state answer :=
    match answer with
    | .failed errno =>
        if errno = eintr then
          .inside state
        else
          .returned ⟨false, state.delivered⟩
    | .wrote count =>
        .inside
          { written := state.written + count
            delivered :=
              state.delivered ++ (requested data state).take count }

/-- `write_all` after the first `calls` calls of `write`. -/
def writeAll (data : ByteString) (answers : Nat → WriteAnswer) (calls : Nat) :
    Standing WriteState WriteResult :=
  (writeLoop data).after {} answers calls

/-- What the kernel may answer: at least one byte and at most those it was
given, or an error with nothing written. -/
def Permitted (data : ByteString) (state : WriteState) : WriteAnswer → Prop
  | .wrote count => 1 ≤ count ∧ count ≤ (requested data state).length
  | .failed _ => True

/-- Every call of `write` that is made gets an answer of the kernel. -/
def KernelAnswers (data : ByteString) (answers : Nat → WriteAnswer) : Prop :=
  (writeLoop data).Permits (Permitted data) {} answers

/-! ## What has arrived -/

/-- `written` counts what has arrived, and this is the front of the text. -/
structure Counted (data : ByteString) (state : WriteState) : Prop where
  bounded : state.written ≤ data.length
  front : state.delivered = data.take state.written

/-- The whole text after a success, a proper front of it after a failure. -/
def Exact (data : ByteString) (result : WriteResult) : Prop :=
  if result.succeeded then
    result.delivered = data
  else
    result.delivered <+: data ∧ result.delivered ≠ data

theorem exit_eq_none_iff (data : ByteString) (state : WriteState) :
    (writeLoop data).exit state = none ↔ state.written < data.length := by
  simp [writeLoop]

theorem counted_start (data : ByteString) : Counted data {} :=
  ⟨Nat.zero_le _, rfl⟩

/-- A count adds the next bytes of the text. -/
theorem Counted.wrote
    {data : ByteString} {state : WriteState} (counted : Counted data state)
    {count : Nat} (taken : count ≤ (requested data state).length) :
    Counted data
      { written := state.written + count
        delivered :=
          state.delivered ++ (requested data state).take count } where
  bounded := by
    have bounded := counted.bounded
    rw [requested, List.length_drop] at taken
    exact Nat.add_le_of_le_sub' bounded taken
  front := by
    rw [counted.front, requested, List.take_add]

theorem Counted.exact_of_exit
    {data : ByteString} {state : WriteState} {result : WriteResult}
    (counted : Counted data state)
    (left : (writeLoop data).exit state = some result) :
    Exact data result := by
  simp only [writeLoop] at left
  split_ifs at left with more
  cases left
  rw [Exact, if_pos rfl, counted.front]
  exact List.take_of_length_le (Nat.le_of_not_lt more)

/-- A failure comes before the last byte has been taken. -/
theorem Counted.exact_of_failed
    {data : ByteString} {state : WriteState} (counted : Counted data state)
    (more : state.written < data.length) :
    Exact data ⟨false, state.delivered⟩ := by
  refine ⟨counted.front ▸ List.take_prefix _ _, ?_⟩
  intro whole
  have lengths := congrArg List.length (counted.front.symm.trans whole)
  rw [List.length_take] at lengths
  omega

theorem Counted.pass
    {data : ByteString} {state : WriteState} {answer : WriteAnswer}
    (counted : Counted data state)
    (stays : (writeLoop data).exit state = none)
    (permitted : Permitted data state answer) :
    ((writeLoop data).pass state answer).Meets (Counted data)
      (Exact data) := by
  cases answer with
  | wrote count => exact counted.wrote permitted.2
  | failed errno =>
      simp only [writeLoop]
      split_ifs
      · -- An interrupted call has taken nothing.
        exact counted
      · exact counted.exact_of_failed ((exit_eq_none_iff data state).mp stays)

theorem writeAll_meets
    {data : ByteString} {answers : Nat → WriteAnswer}
    (kernel : KernelAnswers data answers) (calls : Nat) :
    (writeAll data answers calls).Meets (Counted data) (Exact data) :=
  Loop.after_meets kernel (counted_start data)
    Counted.exact_of_exit Counted.pass calls

/-! ## Termination -/

/-- Only an interruption leaves as much to write as there was before. -/
theorem left_lowered
    {data : ByteString} {state next : WriteState} {answer : WriteAnswer}
    (stays : (writeLoop data).exit state = none)
    (permitted : Permitted data state answer)
    (passed : (writeLoop data).pass state answer = .inside next) :
    data.length - next.written < data.length - state.written ∨
      answer = .failed eintr ∧
        data.length - next.written ≤ data.length - state.written := by
  have more := (exit_eq_none_iff data state).mp stays
  cases answer with
  | wrote count =>
      cases passed
      have positive : 1 ≤ count := permitted.1
      left
      simp only
      omega
  | failed errno =>
      simp only [writeLoop] at passed
      split_ifs at passed with interrupted
      cases passed
      exact Or.inr ⟨congrArg WriteAnswer.failed interrupted, Nat.le_refl _⟩

/--
`write_all` neither loses nor repeats a byte.  Whatever the kernel answers, a
call that returns true has delivered the text, and one that returns false a
proper front of it.  It returns unless all answers from some call on are
interruptions.
-/
theorem write_all_exact
    (data : ByteString) (answers : Nat → WriteAnswer)
    (kernel : KernelAnswers data answers) :
    (∀ calls delivered,
        writeAll data answers calls = .returned ⟨true, delivered⟩ →
          delivered = data) ∧
      (∀ calls delivered,
        writeAll data answers calls = .returned ⟨false, delivered⟩ →
          delivered <+: data ∧ delivered ≠ data) ∧
      ((∀ call, ∃ later, call ≤ later ∧ answers later ≠ .failed eintr) →
        ∃ calls result, writeAll data answers calls = .returned result) := by
  refine ⟨?_, ?_, ?_⟩
  · intro calls delivered returned
    have exact := writeAll_meets kernel calls
    rw [returned] at exact
    exact exact
  · intro calls delivered returned
    have exact := writeAll_meets kernel calls
    rw [returned] at exact
    exact exact
  · intro notAlways
    exact Loop.returns kernel left_lowered notAlways

/-- A byte at a time, with an interruption after the first one. -/
def haltingAnswers (call : Nat) : WriteAnswer :=
  if call = 1 then .failed eintr else .wrote 1

/-- There is a byte to take whenever the loop asks. -/
theorem kernelAnswers_haltingAnswers (data : ByteString) :
    KernelAnswers data haltingAnswers := by
  intro call state stands
  have more :=
    (exit_eq_none_iff data state).mp (Loop.exit_of_inside stands)
  rw [haltingAnswers]
  split_ifs
  · trivial
  · refine ⟨Nat.le_refl 1, ?_⟩
    rw [requested, List.length_drop]
    exact Nat.sub_pos_of_lt more

theorem write_all_exact_sample :
    writeAll (literal "abc") haltingAnswers 4 =
        .returned ⟨true, literal "abc"⟩ ∧
      ∃ calls result,
        writeAll (literal "abc") haltingAnswers calls = .returned result :=
  ⟨by decide,
    (write_all_exact (literal "abc") haltingAnswers
      (kernelAnswers_haltingAnswers (literal "abc"))).2.2
      fun call => ⟨call + 2, Nat.le_add_right call 2, by simp [haltingAnswers]⟩⟩

example :
    writeAll (literal "abc")
        (fun call => if call = 0 then .wrote 1 else .failed 5) 2 =
      .returned ⟨false, literal "a"⟩ := by
  decide

end Shell.WriteAll
