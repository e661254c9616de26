import Shell.Executor.LaunchMachine
import Shell.Parsing.PlanPrinter

/-!
# And-or lists

`Executor::execute` walks over the steps of a plan once and carries a single
result along.  A shell user reads the same steps as a sequence of lists, each
of them a tree of `&&` and `||` that associates to the left.  Both readings
run the same pipelines in the same order and return the same result, whatever
the pipelines do: they run in an arbitrary monad here.
-/

namespace Shell.AndOrLists

open Shell.Syntax
open Shell.CommandParser
open Shell.PlanPrinter
open Shell.LaunchMachine

universe u

/-! ## The scan of the executor -/

/-- `should_execute`. -/
def shouldExecute (connector : ChainOperator) (previousStatus : Int) : Bool :=
  match connector with
  | .always => true
  | .and => previousStatus = 0
  | .or => previousStatus ≠ 0

section Semantics

variable {m : Type → Type u} [Monad m]
variable (executePipeline : Pipeline → m ExecutionResult)

/-- The loop of `Executor::execute`, with the variables `last` and
`have_status`. -/
def executeLoop (last : ExecutionResult) (haveStatus : Bool) :
    List PipelineStep → m ExecutionResult
  | [] => pure last
  | step :: steps =>
      if haveStatus && !shouldExecute step.connector last.status then
        executeLoop last haveStatus steps
      else do
        let last ← executePipeline step.pipeline
        if last.exitRequested then
          pure last
        else
          executeLoop last true steps

/-- `Executor::execute`. -/
def execute (plan : ExecutionPlan) : m ExecutionResult :=
  executeLoop executePipeline {} false plan.steps

end Semantics

/-! ## Lists as trees -/

/-- A tree of `&&` and `||`; the right operand is always a pipeline. -/
inductive AndOr where
  | single (pipeline : Pipeline)
  | and (left : AndOr) (right : Pipeline)
  | or (left : AndOr) (right : Pipeline)
deriving DecidableEq, Repr

/-- The steps of a plan that stand for the list. -/
def AndOr.steps : AndOr → List PipelineStep
  | .single pipeline => [⟨.always, pipeline⟩]
  | .and left right => left.steps ++ [⟨.and, right⟩]
  | .or left right => left.steps ++ [⟨.or, right⟩]

section Semantics

variable {m : Type → Type u} [Monad m]
variable (executePipeline : Pipeline → m ExecutionResult)

/-- A skipped operand leaves the result, and a request to exit ends it all. -/
def AndOr.evaluate : AndOr → m ExecutionResult
  | .single pipeline => executePipeline pipeline
  | .and left right => do
      let result ← left.evaluate
      if result.exitRequested then
        pure result
      else if result.status = 0 then
        executePipeline right
      else
        pure result
  | .or left right => do
      let result ← left.evaluate
      if result.exitRequested then
        pure result
      else if result.status ≠ 0 then
        executePipeline right
      else
        pure result

/-- The lists one after the other; the last one that runs gives the result. -/
def evaluateLists (last : ExecutionResult) :
    List AndOr → m ExecutionResult
  | [] => pure last
  | list :: lists => do
      let result ← list.evaluate executePipeline
      if result.exitRequested then
        pure result
      else
        evaluateLists result lists

end Semantics

/-! ## Cutting a plan into lists -/

/-- The first step is unconditional. -/
def StartsAlways (plan : ExecutionPlan) : Prop :=
  ∀ step ∈ plan.steps.head?, step.connector = .always

/-- The lists of the steps behind the tree that has been read so far. -/
def cutFrom (current : AndOr) : List PipelineStep → List AndOr
  | [] => [current]
  | step :: steps =>
      match step.connector with
      | .always => current :: cutFrom (.single step.pipeline) steps
      | .and => cutFrom (.and current step.pipeline) steps
      | .or => cutFrom (.or current step.pipeline) steps

/-- The lists of a plan. -/
def cut : List PipelineStep → List AndOr
  | [] => []
  | step :: steps => cutFrom (.single step.pipeline) steps

theorem steps_cutFrom (current : AndOr) (steps : List PipelineStep) :
    (cutFrom current steps).flatMap AndOr.steps = current.steps ++ steps := by
  induction steps generalizing current with
  | nil => simp [cutFrom]
  | cons step steps induction =>
      rcases step with ⟨connector, pipeline⟩
      cases connector with
      | always =>
          simp [cutFrom, List.flatMap_cons, induction, AndOr.steps]
      | and =>
          simp [cutFrom, induction, AndOr.steps]
      | or =>
          simp [cutFrom, induction, AndOr.steps]

theorem steps_cut
    {plan : ExecutionPlan} (starts : StartsAlways plan) :
    (cut plan.steps).flatMap AndOr.steps = plan.steps := by
  rcases plan with ⟨steps⟩
  cases steps with
  | nil => rfl
  | cons step steps =>
      rcases step with ⟨connector, pipeline⟩
      have isAlways : connector = .always := starts _ rfl
      subst isAlways
      exact steps_cutFrom (.single pipeline) steps

/-- Reading a whole tree, whatever stands behind it. -/
theorem cut_steps_append (list : AndOr) (rest : List PipelineStep) :
    cut (list.steps ++ rest) = cutFrom list rest := by
  induction list generalizing rest with
  | single pipeline => rfl
  | and left right induction =>
      rw [AndOr.steps, List.append_assoc, induction]
      rfl
  | or left right induction =>
      rw [AndOr.steps, List.append_assoc, induction]
      rfl

/-- A tree ends where the next one begins. -/
theorem cutFrom_steps_append
    (current list : AndOr) (rest : List PipelineStep) :
    cutFrom current (list.steps ++ rest) =
      current :: cut (list.steps ++ rest) := by
  induction list generalizing rest with
  | single pipeline => rfl
  | and left right induction =>
      rw [AndOr.steps, List.append_assoc, induction]
  | or left right induction =>
      rw [AndOr.steps, List.append_assoc, induction]

theorem cutFrom_flatMap (current : AndOr) (lists : List AndOr) :
    cutFrom current (lists.flatMap AndOr.steps) = current :: lists := by
  induction lists generalizing current with
  | nil => rfl
  | cons list lists induction =>
      rw [List.flatMap_cons, cutFrom_steps_append, cut_steps_append,
        induction]

theorem cut_flatMap (lists : List AndOr) :
    cut (lists.flatMap AndOr.steps) = lists := by
  cases lists with
  | nil => rfl
  | cons list lists =>
      rw [List.flatMap_cons, cut_steps_append, cutFrom_flatMap]

/-! ## The scan computes the trees -/

section Refinement

variable {m : Type → Type u} [Monad m] [LawfulMonad m]
variable (executePipeline : Pipeline → m ExecutionResult)

/-- A tree is evaluated, and the scan goes on behind it with its result. -/
theorem executeLoop_steps_append
    (list : AndOr) (rest : List PipelineStep)
    (last : ExecutionResult) (haveStatus : Bool) :
    executeLoop executePipeline last haveStatus (list.steps ++ rest) =
      list.evaluate executePipeline >>= fun result =>
        if result.exitRequested then
          pure result
        else
          executeLoop executePipeline result true rest := by
  induction list generalizing rest with
  | single pipeline =>
      simp [AndOr.steps, AndOr.evaluate, executeLoop, shouldExecute]
  | and left right induction =>
      rw [AndOr.steps, List.append_assoc, induction, AndOr.evaluate,
        bind_assoc]
      congr 1
      funext result
      cases exits : result.exitRequested with
      | true => simp [exits]
      | false =>
          by_cases succeeded : result.status = 0 <;>
            simp [executeLoop, shouldExecute, exits, succeeded]
  | or left right induction =>
      rw [AndOr.steps, List.append_assoc, induction, AndOr.evaluate,
        bind_assoc]
      congr 1
      funext result
      cases exits : result.exitRequested with
      | true => simp [exits]
      | false =>
          by_cases succeeded : result.status = 0 <;>
            simp [executeLoop, shouldExecute, exits, succeeded]

theorem executeLoop_eq_evaluateLists
    (lists : List AndOr) (last : ExecutionResult) (haveStatus : Bool) :
    executeLoop executePipeline last haveStatus
        (lists.flatMap AndOr.steps) =
      evaluateLists executePipeline last lists := by
  induction lists generalizing last haveStatus with
  | nil => rfl
  | cons list lists induction =>
      rw [List.flatMap_cons, executeLoop_steps_append, evaluateLists]
      simp only [induction]

end Refinement

/-! ## The pipelines that run -/

/-- A behaviour that also notes which pipelines it has been asked to run. -/
def traced {σ : Type} (behaviour : Pipeline → σ → ExecutionResult × σ)
    (pipeline : Pipeline) : StateM (σ × List Pipeline) ExecutionResult :=
  fun (state, ran) =>
    let (result, next) := behaviour pipeline state
    (result, next, ran ++ [pipeline])

theorem parseLine_startsAlways
    {input : ByteString} {result : ParseResult}
    (returned : parseLine input = some result) (succeeded : result.ok = true) :
    StartsAlways result.plan := by
  rcases parseLine_outcome input with ⟨same, sameReturned, wellFormed⟩
  rw [returned] at sameReturned
  cases sameReturned
  exact (wellFormed succeeded).first

/--
A plan that starts with an unconditional step, as all plans of the parser do,
is cut into and-or lists in exactly one way, and the executor runs the
pipelines that these lists run, in the same order and with the same result.
-/
theorem execute_eq_andOrLists
    {σ : Type} (behaviour : Pipeline → σ → ExecutionResult × σ) :
    (∀ input result, parseLine input = some result → result.ok = true →
      StartsAlways result.plan) ∧
    ∀ plan, StartsAlways plan →
      ∃ lists : List AndOr,
        lists.flatMap AndOr.steps = plan.steps ∧
        (∀ others : List AndOr,
          others.flatMap AndOr.steps = plan.steps → others = lists) ∧
        ∀ state,
          execute (traced behaviour) plan (state, []) =
            evaluateLists (traced behaviour) {} lists (state, []) := by
  constructor
  · intro input result returned succeeded
    exact parseLine_startsAlways returned succeeded
  · intro plan starts
    refine ⟨cut plan.steps, steps_cut starts, ?_, ?_⟩
    · intro others sameSteps
      rw [← sameSteps, cut_flatMap]
    · intro state
      rw [execute, ← executeLoop_eq_evaluateLists, steps_cut starts]

/-- A behaviour for which a pipeline fails iff it has two commands. -/
def sampleBehaviour (pipeline : Pipeline) (count : Nat) :
    ExecutionResult × Nat :=
  ({ status := if pipeline.commands.length = 2 then 1 else 0 }, count + 1)

/-- `a | a && b || c && d ; e` with names left out. -/
def samplePlan : ExecutionPlan :=
  ⟨[⟨.always, { commands := [{}, {}] }⟩, ⟨.and, { commands := [{}] }⟩,
    ⟨.or, { commands := [{}] }⟩, ⟨.and, { commands := [{}, {}, {}] }⟩,
    ⟨.always, { commands := [] }⟩]⟩

theorem execute_eq_andOrLists_samplePlan :
    StartsAlways samplePlan ∧
      ∃ lists : List AndOr,
        lists.flatMap AndOr.steps = samplePlan.steps ∧
          execute (traced sampleBehaviour) samplePlan (0, []) =
            evaluateLists (traced sampleBehaviour) {} lists (0, []) := by
  have starts : StartsAlways samplePlan := by
    rintro step ⟨⟩
    rfl
  rcases (execute_eq_andOrLists sampleBehaviour).2 samplePlan starts with
    ⟨lists, sameSteps, _, sameRun⟩
  exact ⟨starts, lists, sameSteps, sameRun 0⟩

end Shell.AndOrLists
