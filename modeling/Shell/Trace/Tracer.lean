import Mathlib.Algebra.GroupWithZero.Nat
import Mathlib.Data.List.AList
import Shell.Library.TransitionSystem
import Shell.Trace.Rendering

/-!
# The tracer

`trace_process` and `render_summary`.  Every system call is a step whose label
carries the answer, so that a run goes through the loop with any sequence of
stops.  The signals handed to `PTRACE_SYSCALL` and the texts handed to
`write_all` are kept in the order of the calls.
-/

namespace Shell.TraceMachine

open Shell.Syntax
open Shell.JobTable
open Shell.JobOperations
open Shell.TransitionSystem
open Shell.TraceRendering

/-! ## Counting -/

/-- `SyscallStats`. -/
structure SyscallStats where
  calls : Nat := 0
  errors : Nat := 0
deriving DecidableEq, Repr

/-- The map from call numbers to their counts. -/
abbrev StatsMap :=
  AList fun _ : Int => SyscallStats

def SyscallStats.count (stats : SyscallStats) (rval : Int) : SyscallStats where
  calls := stats.calls + 1
  errors := if isErrorReturn rval then stats.errors + 1 else stats.errors

/-- The update of the map for a call; a new number starts from zero. -/
def record (stats : StatsMap) (nr rval : Int) : StatsMap :=
  stats.insert nr (((stats.lookup nr).getD {}).count rval)

/-! ## The summary -/

structure Row where
  nr : Int
  stats : SyscallStats
deriving DecidableEq, Repr

/-- The order of the rows. -/
def Row.before (a b : Row) : Bool :=
  if a.stats.calls ≠ b.stats.calls then
    b.stats.calls < a.stats.calls
  else
    syscallName a.nr < syscallName b.nr

def summaryRows (stats : StatsMap) : List Row :=
  (stats.entries.map fun entry => ⟨entry.1, entry.2⟩).mergeSort
    fun a b => !b.before a

def totalCalls (stats : StatsMap) : Nat :=
  (stats.entries.map fun entry => entry.2.calls).sum

def totalErrors (stats : StatsMap) : Nat :=
  (stats.entries.map fun entry => entry.2.errors).sum

/-- A field that is adjusted to the left. -/
def leftField (width : Nat) (text : ByteString) : ByteString :=
  text ++ List.replicate (width - text.length) 0x20

/-- A field that is adjusted to the right. -/
def rightField (width : Nat) (text : ByteString) : ByteString :=
  List.replicate (width - text.length) 0x20 ++ text

def summaryLine (name calls errors : ByteString) : ByteString :=
  leftField 22 name ++ rightField 8 calls ++ rightField 8 errors ++
    literal "\n"

def Row.text (row : Row) : ByteString :=
  summaryLine (syscallName row.nr) (decimal row.stats.calls)
    (decimal row.stats.errors)

/-- The text of a summary with its rows and totals. -/
def summaryText (rows : List Row) (calls errors : Nat) : ByteString :=
  literal "Syscall summary\n" ++
    literal "------------------------------\n" ++
    summaryLine (literal "syscall") (literal "calls") (literal "errors") ++
    rows.flatMap Row.text ++
    literal "------------------------------\n" ++
    summaryLine (literal "total") (decimal calls) (decimal errors)

/-- `render_summary`. -/
def renderSummary (stats : StatsMap) : ByteString :=
  summaryText (summaryRows stats) (totalCalls stats) (totalErrors stats)

/-! ## The machine -/

/-- The next call of `trace_process`. -/
inductive Phase where
  | forking
  | stopping
  | settingOptions
  | resuming
  | waiting
  | inspecting
  | returned (status : Int)
deriving DecidableEq, Repr

structure Tracer where
  phase : Phase := .forking
  current : Option SyscallEntry := none
  stats : StatsMap := ∅
  signalToDeliver : Nat := 0
  resumes : List Nat := []
  output : List ByteString := []

/-- An answer of `waitpid`. -/
inductive WaitAnswer where
  | interrupted
  | failed (reason : ByteString)
  | changed (status : WaitStatus)
deriving DecidableEq, Repr

/-- An answer of `PTRACE_SYSCALL`. -/
inductive ResumeAnswer where
  | succeeded
  | noSuchProcess
  | failed (reason : ByteString)
deriving DecidableEq, Repr

/-- An answer of `PTRACE_GET_SYSCALL_INFO`; an entry comes with the memory as
it is then. -/
inductive InfoAnswer where
  | failed (reason : ByteString)
  | entry (nr : UInt64) (args : Vector UInt64 6) (memory : Memory)
  | exit (rval : Int64)
  | other

inductive Label where
  | fork (error : Option ByteString)
  | wait (answer : WaitAnswer)
  | setOptions (error : Option ByteString)
  | resume (answer : ResumeAnswer)
  | inspect (answer : InfoAnswer)

def sigtrap : Nat := 5

def sigstop : Nat := 19

/-- `SIGTRAP | 0x80`, the stop at a system call. -/
def syscallStop : Nat := 0x85

/-- The entry that is made of the answer at an entry stop. -/
def makeEntry (nr : UInt64) (args : Vector UInt64 6) (memory : Memory) :
    SyscallEntry :=
  let number := nr.toInt64.toInt
  ⟨number, args, formatArguments memory number args⟩

/-- The line of a call in live mode. -/
def callLine (strerror : Nat → ByteString) (entry : SyscallEntry)
    (rval : Int) : ByteString :=
  syscallName entry.number ++ literal "(" ++ entry.renderedArgs ++
    literal ") = " ++ formatReturn strerror rval ++ literal "\n"

namespace Tracer

def write (tracer : Tracer) (text : ByteString) : Tracer :=
  { tracer with output := tracer.output ++ [text] }

/-- A failed call: its report and the status 1. -/
def fail (tracer : Tracer) (call : String) (reason : ByteString) : Tracer :=
  { tracer.write
      (literal "trace: " ++ literal call ++ literal ": " ++ reason ++
        literal "\n") with
    phase := .returned 1 }

/-- The end of the loop. -/
def finish (tracer : Tracer) (summary : Bool) (status : Int) : Tracer :=
  { (if summary then tracer.write (renderSummary tracer.stats)
      else tracer) with
    phase := .returned status }

/-- An exit stop with an open entry. -/
def close (tracer : Tracer) (strerror : Nat → ByteString) (summary : Bool)
    (entry : SyscallEntry) (rval : Int) : Tracer :=
  { (if summary then tracer
      else tracer.write (callLine strerror entry rval)) with
    phase := .resuming
    current := none
    stats := record tracer.stats entry.number rval }

end Tracer

/-- A change of the tracee that ends a wait inside the loop. -/
def handleChange (summary : Bool) (tracer : Tracer) (status : WaitStatus) :
    Tracer :=
  if status.terminates then
    tracer.finish summary (waitStatusToExitCode status)
  else if !status.ifStopped then
    { tracer with phase := .resuming }
  else if status.exitStatus = syscallStop then
    { tracer with phase := .inspecting }
  else if status.exitStatus = sigtrap ∨ status.exitStatus = sigstop then
    { tracer with phase := .resuming }
  else
    { tracer with
      phase := .resuming
      signalToDeliver := status.exitStatus }

/-- `trace_process`, call by call. -/
def traceStep (strerror : Nat → ByteString) (summary : Bool)
    (tracer : Tracer) (label : Label) : Option Tracer :=
  match label, tracer.phase with
  | .fork (some reason), .forking => some (tracer.fail "fork" reason)
  | .fork none, .forking => some { tracer with phase := .stopping }
  | .wait .interrupted, .stopping => some tracer
  | .wait (.failed reason), .stopping => some (tracer.fail "waitpid" reason)
  | .wait (.changed status), .stopping =>
      if !status.ifStopped then
        some
          { tracer with phase := .returned (waitStatusToExitCode status) }
      else
        some { tracer with phase := .settingOptions }
  | .setOptions (some reason), .settingOptions =>
      -- The tracee is killed and waited for before the return.
      some (tracer.fail "PTRACE_SETOPTIONS" reason)
  | .setOptions none, .settingOptions =>
      some { tracer with phase := .resuming }
  | .resume .succeeded, .resuming =>
      some
        { tracer with
          phase := .waiting
          signalToDeliver := 0
          resumes := tracer.resumes ++ [tracer.signalToDeliver] }
  | .resume .noSuchProcess, .resuming => some (tracer.finish summary 1)
  | .resume (.failed reason), .resuming =>
      some (tracer.fail "PTRACE_SYSCALL" reason)
  | .wait .interrupted, .waiting => some tracer
  | .wait (.failed reason), .waiting => some (tracer.fail "waitpid" reason)
  | .wait (.changed status), .waiting =>
      some (handleChange summary tracer status)
  | .inspect (.failed reason), .inspecting =>
      some (tracer.fail "PTRACE_GET_SYSCALL_INFO" reason)
  | .inspect (.entry nr args memory), .inspecting =>
      some
        { tracer with
          phase := .resuming
          current := some (makeEntry nr args memory) }
  | .inspect (.exit rval), .inspecting =>
      match tracer.current with
      | none => some { tracer with phase := .resuming }
      | some entry => some (tracer.close strerror summary entry rval.toInt)
  | .inspect .other, .inspecting => some { tracer with phase := .resuming }
  | _, _ => none

/-- The system of `trace_process`. -/
def traceProcess (strerror : Nat → ByteString) (summary : Bool) :
    System Tracer Label where
  initial := fun tracer => tracer = {}
  step := traceStep strerror summary

end Shell.TraceMachine
