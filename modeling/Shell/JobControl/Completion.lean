import Shell.JobControl.TableInvariant

/-!
# Completion is reported once

A job leaves the table in one of two ways: `wait_foreground` erases the job it
has waited for without a word, or a notifying reap writes it out as done.  The
messages that announce a job are counted over the whole output, so that a job
in the table has not been announced, a job that is announced leaves in the
same call, and the count of a job that has left never changes again.
-/

namespace Shell.Completion

open Shell.Syntax
open Shell.TransitionSystem
open Shell.JobTable
open Shell.JobOperations
open Shell.TableInvariant

/-! ## Announcements -/

/-- The message says that the job with the id is done. -/
def Message.announces (id : Int) : Message → Bool
  | .done other _ => other = id
  | _ => false

/-- How often an output says that the job with the id is done. -/
def announcements (id : Int) (output : List Output) : Nat :=
  output.countP fun line => Message.announces id line.message

@[simp]
theorem announcements_nil (id : Int) : announcements id [] = 0 :=
  rfl

@[simp]
theorem announcements_singleton
    (id fd : Int) (message : Message) :
    announcements id [⟨fd, message⟩] =
      if Message.announces id message then 1 else 0 := by
  simp [announcements, List.countP_singleton]

/-- The call waits for the job with the id in the foreground. -/
def WaitsFor (session : Session) (id : Int) : Operation → Prop
  | .waitForeground _ other _ => other = id
  | .foreground reap _ spec _ _ =>
      ∃ job, Resolves reap spec session job ∧ job.id = id
  | _ => False

/-- How completion is reported from a session on. -/
structure Reported (session : Session) : Prop where
  /-- A job that is done is still marked as changed. -/
  marked :
    ∀ job ∈ session.control.jobs, job.state = .done →
      job.stateChanged = true
  /-- A job in the table has not been announced. -/
  pending :
    ∀ job ∈ session.control.jobs,
      announcements job.id session.output = 0
  /-- A job leaves silently by the wait for it, or announced once. -/
  leaves :
    ∀ operation next, perform session operation = some next →
      ∀ id ∈ session.control.jobs.map Job.id,
        id ∉ next.control.jobs.map Job.id →
          (WaitsFor session id operation ∧
            ∀ operations later,
              jobSystem.run next operations = some later →
                announcements id later.output = 0) ∨
          ((∃ answers, operation = .reapBackground answers true) ∧
            ∀ operations later,
              jobSystem.run next operations = some later →
                announcements id later.output = 1)
  /-- Only a notifying reap announces, and only jobs whose records are done. -/
  announces :
    ∀ operation next, perform session operation = some next →
      (∀ id, announcements id next.output =
        announcements id session.output) ∨
      ∃ answers control,
        operation = .reapBackground answers true ∧
          collect answers session.control = some control ∧
          next.output = session.output ++ notices control.jobs ∧
          ∀ fd id command,
            ⟨fd, .done id command⟩ ∈ notices control.jobs →
              ∃ job ∈ control.jobs,
                job.id = id ∧ job.command = command ∧
                  ∀ process ∈ job.processes, process.state = .done
  /-- A notifying reap leaves no job that is done. -/
  cleared :
    ∀ answers next,
      perform session (.reapBackground answers true) = some next →
        ∀ job ∈ next.control.jobs, job.state ≠ .done

end Shell.Completion
