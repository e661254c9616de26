import Shell.Main.Loop

/-!
# The history file over a whole session

A line that is handled goes to the entries, and from there to the history file:
with `history -a`, or when the shell ends.  Between the two it is either in the
file or behind the counter of saved entries, and in the same order in both.
That is a relation between the histories before and behind each step, and a
session from its first prompt to its end composes these relations.
-/

namespace Shell.MainLoop

open Shell.Syntax
open Shell.TextLines
open Shell.CommandParser
open Shell.DescriptorTable
open Shell.Descriptors
open Shell.LaunchMachine
open Shell.TransitionSystem
open Shell.ShellHistory
open Shell.HistoryPersistence
open Shell.BuiltinDispatch
open Shell.ParentBuiltins
open Shell.Pipelines

/-! ## Histories that grow -/

/-- The lines are added behind everything that the history file will hold. -/
def Adds (path : ByteString) (lines : List ByteString)
    (history next : History) : Prop :=
  ∀ view, Shows path history view →
    ∃ file saved,
      Shows path next ⟨file, view.entries ++ lines, saved⟩ ∧
        file ++ (view.entries ++ lines).drop saved =
          view.file ++ view.unsaved ++ lines

section Adds

variable {path : ByteString} {lines later : List ByteString}
  {history middle next : History}

/-- The two histories look the same. -/
theorem adds_of_shows
    (same : ∀ view, Shows path history view → Shows path next view) :
    Adds path [] history next := by
  intro view shows
  refine ⟨view.file, view.saved, ?_, ?_⟩
  · rw [List.append_nil]
    exact same view shows
  · rw [List.append_nil, List.append_nil]
    rfl

theorem Adds.refl (path : ByteString) (history : History) :
    Adds path [] history history :=
  adds_of_shows fun _ shows => shows

theorem Adds.trans
    (first : Adds path lines history middle)
    (second : Adds path later middle next) :
    Adds path (lines ++ later) history next := by
  intro view shows
  rcases first view shows with ⟨file, saved, between, sum⟩
  rcases second _ between with ⟨last, count, behind, total⟩
  refine ⟨last, count, ?_, ?_⟩
  · rw [← List.append_assoc]
    exact behind
  · rw [← List.append_assoc, total, View.unsaved, sum, ← List.append_assoc]

/-- The change of files leaves one of them as it was. -/
def Keeps (path : ByteString) (change : Disk → Disk) : Prop :=
  ∀ disk,
    (change disk).content path = disk.content path ∧
      (change disk).writable path = disk.writable path

/-- The operation appends to the history file, or writes another file. -/
def SparesFile (path : ByteString) (operation : Operation) : Prop :=
  operation = .append path ∨
    ∃ filename, operation = .write filename ∧ filename ≠ path

end Adds

/-! ## Commands that spare the history file -/

/-- The command does not redirect its output to the history file, and uses
`history` with a file only to append the new entries to the history file or to
write all entries to another one.  Appended to another file the new entries
would count as saved, and loaded entries would be saved with the new ones. -/
structure Harmless (path : ByteString) (command : Command) : Prop where
  noRedirect : ¬ Redirects command path
  operations :
    command.args.head? = some (literal "history") →
      ∀ operation ∈ fileOperations command, SparesFile path operation

section Plans

variable {σ δ : Type} {path : ByteString}

/-- Other processes keep the history file, and its name leads to it from every
directory. -/
def AnswersSpare (path : ByteString) : PipelineAnswers δ → Prop
  | .parent answers =>
      ∀ directory, Keeps path (answers.surroundings.seenFrom directory)
  | .launch _ _ files => Keeps path files

end Plans

/-! ## Sessions -/

section Sessions

variable {σ δ : Type} {path : ByteString}

/-- The lines that a step of `main` records. -/
def recorded (state : MainState σ δ) : Event δ → List ByteString
  | .handle =>
      match state.phase with
      | .cleared input false => if input = [] then [] else [input]
      | _ => []
  | _ => []

/-- A line of text whose commands spare the history file. -/
structure LineSpares (path input : ByteString) : Prop where
  noNewline : newline ∉ input
  noNul : 0 ∉ input
  harmless :
    ∀ parsed, parseLine input = some parsed →
      ∀ step ∈ parsed.plan.steps, ∀ command ∈ step.pipeline.commands,
        Harmless path command

/-- The event neither changes the history file behind the back of the shell nor
brings a line with a command that does. -/
def Event.Spares (path : ByteString) : Event δ → Prop
  | .files change => Keeps path change
  | .line (some input) => LineSpares path input
  | .execute script => ∀ answers ∈ script, AnswersSpare path answers
  | _ => True

/-- The line or the plan that `main` works on came with such an event. -/
def Pending (path : ByteString) : Phase → Prop
  | .entered input | .settled input | .tested input _ | .cleared input _ =>
      LineSpares path input
  | .executing plan =>
      ∀ step ∈ plan.steps, ∀ command ∈ step.pipeline.commands,
        Harmless path command
  | _ => True

/-- A session that has recorded some lines. -/
structure Session (path : ByteString) (base : Table σ) (start : History)
    (lines : List ByteString) (state : MainState σ δ) : Prop where
  table : state.shell.table = base.map .inherited
  pending : Pending path state.phase
  areLines : ∀ line ∈ lines, IsLine line
  history :
    ∃ history,
      Adds path lines start history ∧
        state.shell.process.history =
          if state.phase.running then history else history.saveSession

theorem Stepped.isRunning
    {state next : MainState σ δ} {event : Event δ}
    (stepped : Stepped state event next) : state.phase.running = true := by
  cases stepped with
  | sigint isRunning => exact isRunning
  | files change isRunning => exact isRunning
  | prompt isPhase => rw [isPhase]; rfl
  | settle isPhase => rw [isPhase]; rfl
  | tab isPhase => rw [isPhase]; rfl
  | hook isPhase => rw [isPhase]; rfl
  | line isPhase => rw [isPhase]; rfl
  | endOfInput isPhase => rw [isPhase]; rfl
  | test isPhase => rw [isPhase]; rfl
  | clear isPhase => rw [isPhase]; rfl
  | handle isPhase => rw [isPhase]; rfl
  | execute isPhase => rw [isPhase]; rfl
  | exit isPhase => rw [isPhase]; rfl

end Sessions

end Shell.MainLoop
