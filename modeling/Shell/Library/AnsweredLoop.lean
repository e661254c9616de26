import Mathlib.Data.Nat.Nth

/-!
# Loops that ask their environment

Each pass through such a loop puts one question to the environment and goes on
or returns with the answer.  The answers form an infinite sequence, of which a
loop that returns uses a finite part.  Which answers the environment may give
depends on the state in which the loop asks.

There is one rule for what a loop returns, with an invariant of the states in
which it asks, one for the answer with which it returns, and one for its
termination: a rank that every answer lowers,
apart from idle ones, is used up unless all answers from some point on are
idle.
-/

namespace Shell.AnsweredLoop

/-- A loop between two passes. -/
inductive Standing (State Result : Type*) where
  | inside (state : State)
  | returned (result : Result)
deriving DecidableEq, Repr

/-- The test at the head of a loop, which may return, and a pass with its
answer. -/
structure Loop (State Answer Result : Type*) where
  exit : State → Option Result
  pass : State → Answer → Standing State Result

variable {State Answer Result : Type*} (loop : Loop State Answer Result)

/-- The head of the loop. -/
def Loop.enter (state : State) : Standing State Result :=
  match loop.exit state with
  | none => .inside state
  | some result => .returned result

/-- One more answer; a loop that has returned takes no notice of it. -/
def Loop.proceed (answer : Answer) :
    Standing State Result → Standing State Result
  | .returned result => .returned result
  | .inside state =>
      match loop.pass state answer with
      | .returned result => .returned result
      | .inside next => loop.enter next

/-- The loop after the first `count` answers. -/
def Loop.after (start : State) (answers : Nat → Answer) :
    Nat → Standing State Result
  | 0 => loop.enter start
  | count + 1 => loop.proceed (answers count) (after start answers count)

/-- Every question that is asked gets a permitted answer. -/
def Loop.Permits (permitted : State → Answer → Prop) (start : State)
    (answers : Nat → Answer) : Prop :=
  ∀ count state,
    loop.after start answers count = .inside state →
      permitted state (answers count)

/-- An invariant of the states inside, a property of the results. -/
def Standing.Meets (invariant : State → Prop) (post : Result → Prop) :
    Standing State Result → Prop
  | .inside state => invariant state
  | .returned result => post result

variable {loop}
variable {permitted : State → Answer → Prop} {start : State}
  {answers : Nat → Answer}

theorem Loop.enter_eq_inside
    {state next : State} (entered : loop.enter state = .inside next) :
    next = state ∧ loop.exit next = none := by
  unfold Loop.enter at entered
  split at entered
  · rename_i stays
    cases entered
    exact ⟨rfl, stays⟩
  · cases entered

/-- A loop that is inside after an answer was inside before it. -/
theorem Loop.proceed_eq_inside
    {answer : Answer} {standing : Standing State Result} {next : State}
    (proceeded : loop.proceed answer standing = .inside next) :
    ∃ state,
      standing = .inside state ∧
        loop.pass state answer = .inside next ∧
        loop.exit next = none := by
  unfold Loop.proceed at proceeded
  split at proceeded
  · cases proceeded
  · rename_i state
    split at proceeded
    · cases proceeded
    · rename_i entered passed
      rcases Loop.enter_eq_inside proceeded with ⟨rfl, stays⟩
      exact ⟨state, rfl, passed, stays⟩

/-- The head of the loop has let pass every state in which it asks. -/
theorem Loop.exit_of_inside
    {count : Nat} {state : State}
    (stands : loop.after start answers count = .inside state) :
    loop.exit state = none := by
  cases count with
  | zero => exact (Loop.enter_eq_inside stands).2
  | succ count =>
      rcases Loop.proceed_eq_inside stands with ⟨-, -, -, stays⟩
      exact stays

/-- A loop that is inside went on with every answer before. -/
theorem Loop.pass_of_inside
    {count : Nat} {state : State}
    (stands : loop.after start answers count = .inside state)
    {earlier : Nat} (before : earlier < count) :
    ∃ old next, loop.pass old (answers earlier) = .inside next := by
  induction count generalizing state with
  | zero => cases before
  | succ count induction =>
      rcases Loop.proceed_eq_inside stands with ⟨old, stood, passed, -⟩
      rcases Nat.lt_succ_iff_lt_or_eq.mp before with sooner | rfl
      · exact induction stood sooner
      · exact ⟨old, state, passed⟩

/-- A loop has returned at its head or with one of the answers. -/
theorem Loop.after_eq_returned
    {count : Nat} {result : Result}
    (returned : loop.after start answers count = .returned result) :
    (∃ state, loop.exit state = some result) ∨
      ∃ call state,
        loop.after start answers call = .inside state ∧
          loop.pass state (answers call) = .returned result := by
  have atHead :
      ∀ {state}, loop.enter state = .returned result →
        loop.exit state = some result := by
    intro state entered
    unfold Loop.enter at entered
    split at entered
    · cases entered
    · rename_i left
      cases entered
      exact left
  induction count with
  | zero => exact Or.inl ⟨start, atHead returned⟩
  | succ count induction =>
      rw [Loop.after] at returned
      cases stands : loop.after start answers count with
      | returned earlier =>
          rw [stands] at returned
          exact induction (stands.trans returned)
      | inside state =>
          rw [stands, Loop.proceed] at returned
          split at returned
          · rename_i passed
            cases returned
            exact Or.inr ⟨count, state, stands, passed⟩
          · exact Or.inl ⟨_, atHead returned⟩

theorem Loop.enter_meets
    {invariant : State → Prop} {post : Result → Prop}
    (exits :
      ∀ {state result}, invariant state →
        loop.exit state = some result → post result)
    {state : State} (holds : invariant state) :
    (loop.enter state).Meets invariant post := by
  unfold Loop.enter
  split
  · exact holds
  · rename_i result left
    exact exits holds left

/-- What holds at the start and is kept by every pass with a permitted answer
holds in every state inside, and the results are as its passes return them. -/
theorem Loop.after_meets
    {invariant : State → Prop} {post : Result → Prop}
    (permits : loop.Permits permitted start answers)
    (initially : invariant start)
    (exits :
      ∀ {state result}, invariant state →
        loop.exit state = some result → post result)
    (passes :
      ∀ {state answer}, invariant state → loop.exit state = none →
        permitted state answer →
        (loop.pass state answer).Meets invariant post)
    (count : Nat) :
    (loop.after start answers count).Meets invariant post := by
  induction count with
  | zero => exact Loop.enter_meets exits initially
  | succ count induction =>
      rw [Loop.after]
      cases stands : loop.after start answers count with
      | returned result =>
          rw [stands] at induction
          exact induction
      | inside state =>
          rw [stands] at induction
          have passed :=
            passes induction (Loop.exit_of_inside stands)
              (permits count state stands)
          rw [Loop.proceed.eq_def]
          cases outcome : loop.pass state (answers count) with
          | returned result =>
              rw [outcome] at passed
              simp only [outcome]
              exact passed
          | inside next =>
              rw [outcome] at passed
              simp only [outcome]
              exact Loop.enter_meets exits passed

section Termination

variable {idle : Answer → Prop} {rank : State → Nat}
  (permits : loop.Permits permitted start answers)
  (lowered :
    ∀ {state answer next}, loop.exit state = none → permitted state answer →
      loop.pass state answer = .inside next →
      rank next < rank state ∨ idle answer ∧ rank next ≤ rank state)

include permits lowered in
/-- The answers that are not idle have been paid for by the rank. -/
theorem Loop.rank_add_count_le
    [DecidablePred fun count => ¬ idle (answers count)]
    {count : Nat} {state : State}
    (stands : loop.after start answers count = .inside state) :
    rank state + Nat.count (fun call => ¬ idle (answers call)) count ≤
      rank start := by
  induction count generalizing state with
  | zero =>
      rw [(Loop.enter_eq_inside stands).1, Nat.count_zero]
      exact Nat.le_refl _
  | succ count induction =>
      rcases Loop.proceed_eq_inside stands with ⟨before, earlier, passed, -⟩
      have bounded := induction earlier
      rw [Nat.count_succ]
      rcases lowered (Loop.exit_of_inside earlier)
          (permits count before earlier) passed with lower | ⟨isIdle, same⟩
      · split <;> omega
      · rw [if_neg (not_not.mpr isIdle)]
        omega

include permits lowered in
/-- A loop returns unless all answers from some point on are idle. -/
theorem Loop.returns
    (busy : ∀ count, ∃ later, count ≤ later ∧ ¬ idle (answers later)) :
    ∃ count result, loop.after start answers count = .returned result := by
  classical
  have often : {call | ¬ idle (answers call)}.Infinite := by
    apply Set.infinite_of_forall_exists_gt
    intro call
    rcases busy (call + 1) with ⟨later, behind, isBusy⟩
    exact ⟨later, isBusy, behind⟩
  rcases Nat.surjective_count_of_infinite_setOfPred often (rank start + 1) with
    ⟨count, counted⟩
  refine ⟨count, ?_⟩
  cases stands : loop.after start answers count with
  | returned result => exact ⟨result, rfl⟩
  | inside state =>
      have bounded := Loop.rank_add_count_le permits lowered stands
      omega

end Termination

end Shell.AnsweredLoop
