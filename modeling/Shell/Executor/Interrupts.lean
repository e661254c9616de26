import Shell.Executor.Signals

/-!
# Keys while a pipeline runs

What the keys for `SIGINT` and `SIGQUIT` do while the shell waits in
`wait_foreground`.  The terminal then belongs to the group of the pipeline, and
a child that has called `reset_child_signal_handlers` is ended by the signal
unless its program has decided otherwise.  A child that has not yet done so has
the dispositions of the shell and survives, and one that is stopped is ended
when it is continued.
-/

namespace Shell.Interrupts

open Shell.Syntax
open Shell.DescriptorTable
open Shell.FirstMatch
open Shell.JobTable
open Shell.JobOperations
open Shell.LaunchMachine
open Shell.ProcessGroups
open Shell.Signals
open Shell.TerminalHandoff
open Shell.TransitionSystem

variable {σ : Type*} {environment : Environment} {pipeline : Pipeline}
variable {shell : Table σ} {inherited : Actions}

/-! ## Back to the prompt -/

section Waiting

variable {start : Machine σ} {scene : Scene σ} {id : Int}
variable (atPrompt : AtPrompt environment pipeline shell start)
variable (watched : Watched environment pipeline shell inherited start scene)
variable (isWaiting : scene.machine.phase = .waiting id)

include atPrompt watched isWaiting

end Waiting

/-- The program runs, and the parent waits for it. -/
def sampleLabels : List Label :=
  earlyStart ++
    [.child 10 .exec, .parent, .parent, .parent, .parent,
      .handOver { waits := [] }]

end Shell.Interrupts
