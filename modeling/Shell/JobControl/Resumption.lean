import Shell.JobControl.TableInvariant

/-!
# Resuming jobs

`fg` and `bg` continue a stopped job by the same change of its records, made in
two places.  `bg` sends the signal first and changes the records only if that
succeeds; `wait_foreground` changes them first, so that a job whose signal
fails is shown as running although nothing has continued it.

The terminal is lent to the job in the foreground.  Between any two operations
it belongs to the shell, with the modes that the shell has saved.  The modes
that the terminal has when a job stops in the foreground are kept with the job,
and nothing but a later stop of the same job in the foreground replaces them,
so `fg` installs them again whatever has happened to other jobs.
-/

namespace Shell.Resumption

open Shell.Syntax
open Shell.FirstMatch
open Shell.TransitionSystem
open Shell.JobTable
open Shell.JobOperations
open Shell.TableInvariant

/-! ## Jobs that cannot be continued -/

/-- The modes that `give_terminal_to` gets for a job. -/
def ownModes (job : Job) : Option Termios :=
  if job.hasTerminalModes then some job.terminalModes else none

/-- The session in which `fg` sends the signal to a stopped job: the terminal
has been given to the job, and its records have been changed. -/
def lent (answers : WaitAnswers) (outputFd : Int) (session : Session)
    (control : JobControl) (job : Job) : Session :=
  (giveTerminalTo answers
    ((session.setControl control).write outputFd (.foregrounded job.command))
    job.pgid (ownModes job)).setControl
      (control.modifyJob job.id Job.resume)

section Stopped

variable {session : Session} {reap : ReapAnswers} {control : JobControl}
  {spec : ByteString} {job : Job}

/-- `fg` lends the terminal to a stopped job and changes its records before it
sends the signal. -/
theorem foreground_of_stopped
    (valid : TableValid session.control)
    (collected : collect reap session.control = some control)
    (resolved : control.resolveJob spec = some job)
    (isStopped : job.state = .stopped)
    (answers : WaitAnswers) (outputFd errorFd : Int) :
    foreground reap answers spec outputFd errorFd session =
      if answers.killed then
        awaitJob answers job.id (lent answers outputFd session control job)
      else
        some (1,
          reclaimTerminal answers
            (lent answers outputFd session control job)) := by
  have reapedValid := (collect_runsOn collected).tableValid valid
  have found := reapedValid.findJob (resolveJob_mem resolved)
  simp [foreground, reapBackground, collected, resolved, isStopped,
    waitForeground, found, ownModes, lent]

/--
If the signal cannot be sent to a stopped job, `bg` returns 1 and leaves the
table as it is after the reap.  `fg` returns 1 as well, but it leaves a table
that shows the job as running.
-/
theorem failed_continue
    (reachable : jobSystem.Reachable session)
    (collected : collect reap session.control = some control)
    (resolved : control.resolveJob spec = some job)
    (isStopped : job.state = .stopped) (outputFd errorFd : Int) :
    (∃ next,
      continueBackground reap false spec outputFd errorFd session =
          some (1, next) ∧
        next.control = control) ∧
    ∀ answers : WaitAnswers, answers.killed = false →
      ∃ next,
        foreground reap answers spec outputFd errorFd session =
            some (1, next) ∧
          next.control = control.modifyJob job.id Job.resume ∧
          next.control.findJob job.id = some job.resume ∧
          next.control ≠ control := by
  have valid := reachable_tableValid reachable
  constructor
  · refine ⟨(session.setControl control).write errorFd .continueFailed, ?_,
      rfl⟩
    simp [continueBackground, reapBackground, collected, resolved, isStopped]
  · intro answers failed
    have returned :=
      foreground_of_stopped valid collected resolved isStopped answers
        outputFd errorFd
    rw [if_neg (by simp [failed])] at returned
    have after :
        (reclaimTerminal answers
            (lent answers outputFd session control job)).control =
          control.modifyJob job.id Job.resume := by
      rw [reclaimTerminal_control, lent, Session.setControl_control]
    have reapedValid := (collect_runsOn collected).tableValid valid
    have found := reapedValid.findJob (resolveJob_mem resolved)
    have foundAgain :
        (control.modifyJob job.id Job.resume).findJob job.id =
          some job.resume := by
      rw [findJob_modifyJob control job.id Job.resume fun _ => rfl, found]
      rfl
    refine ⟨_, returned, after, after ▸ foundAgain, ?_⟩
    rw [after]
    intro same
    rw [same, found] at foundAgain
    have sameState := congrArg Job.state (Option.some.inj foundAgain)
    rw [isStopped] at sameState
    cases sameState

end Stopped

/-- A job that is stopped in the background and whose group has gone. -/
def stoppedOperations : List Operation :=
  [.launch 10 [] 10 (literal "vi"),
    .updateProcess 10 0x137f#32]

theorem failed_continue_sample :
    ∃ session control job,
      jobSystem.run sampleStart stoppedOperations = some session ∧
        collect ⟨true, [.nothing]⟩ session.control = some control ∧
        control.resolveJob (literal "%1") = some job ∧
        (∃ next,
          continueBackground ⟨true, [.nothing]⟩ false (literal "%1") 1 2
              session = some (1, next) ∧
            next.control = control) ∧
        ∃ next,
          foreground ⟨true, [.nothing]⟩ { waits := [], killed := false }
              (literal "%1") 1 2 session = some (1, next) ∧
            next.control.findJob job.id = some job.resume := by
  have ran :
      (jobSystem.run sampleStart stoppedOperations).bind
          (fun session =>
            (collect ⟨true, [.nothing]⟩ session.control).bind fun control =>
              (control.resolveJob (literal "%1")).map Job.state) =
        some .stopped := by
    decide +kernel
  rcases Option.bind_eq_some_iff.mp ran with ⟨session, reached, reaped⟩
  rcases Option.bind_eq_some_iff.mp reaped with ⟨control, collected, found⟩
  rcases Option.map_eq_some_iff.mp found with ⟨job, resolved, isStopped⟩
  rcases failed_continue
      ⟨sampleStart, stoppedOperations, ⟨rfl, rfl, rfl⟩, reached⟩
      collected resolved isStopped 1 2 with ⟨background, foregrounds⟩
  rcases foregrounds { waits := [], killed := false } rfl with
    ⟨next, returned, -, shown, -⟩
  exact ⟨session, control, job, reached, collected, resolved, background,
    next, returned, shown⟩

/-- The listing shows the job as running after the failed `fg`. -/
theorem failed_foreground_shows_running :
    ∃ session next,
      jobSystem.run sampleStart stoppedOperations = some session ∧
        collect ⟨false, []⟩ session.control = some session.control ∧
        renderJobs session.control = literal "[1]+ Stopped\tvi\n" ∧
        foreground ⟨false, []⟩ { waits := [], killed := false }
            (literal "%1") 1 2 session = some (1, next) ∧
        renderJobs next.control = literal "[1]+ Running\tvi\n" := by
  have views :
      (jobSystem.run sampleStart stoppedOperations).bind
          (fun session =>
            (foreground ⟨false, []⟩ { waits := [], killed := false }
              (literal "%1") 1 2 session).map fun result =>
                (renderJobs session.control, result.1,
                  renderJobs result.2.control)) =
        some (literal "[1]+ Stopped\tvi\n", 1,
          literal "[1]+ Running\tvi\n") := by
    decide +kernel
  rcases Option.bind_eq_some_iff.mp views with ⟨session, reached, later⟩
  rcases Option.map_eq_some_iff.mp later with
    ⟨⟨status, next⟩, returned, equal⟩
  rcases Prod.mk.inj equal with ⟨shownBefore, rest⟩
  rcases Prod.mk.inj rest with ⟨isOne, shownAfter⟩
  cases isOne
  exact ⟨session, next, reached, rfl, shownBefore, returned, shownAfter⟩

/-! ## The terminal between operations -/

/-- The calls on the terminal succeed. -/
structure Reliable (answers : WaitAnswers) : Prop where
  givesGroup : answers.givesGroup = true
  givesModes : answers.givesModes = true
  readsModes : answers.readsModes = true
  reclaimsGroup : answers.reclaimsGroup = true
  reclaimsModes : answers.reclaimsModes = true

def ReliableCall : Operation → Prop
  | .foreground _ answers _ _ _ => Reliable answers
  | .waitForeground answers _ _ => Reliable answers
  | _ => True

/-- `JobControl::JobControl` on a terminal: the group of the shell takes the
terminal, and the modes that it finds are saved. -/
def opened (shellPgid : Int) (modes : Termios) : Session :=
  ⟨{ interactive := true
     shellPgid := shellPgid
     shellTerminalModes := modes },
    ⟨shellPgid, modes⟩, [], []⟩

/-- What a table keeps of the shell itself. -/
structure SameShell (control next : JobControl) : Prop where
  interactive : next.interactive = control.interactive
  shellPgid : next.shellPgid = control.shellPgid
  modes : next.shellTerminalModes = control.shellTerminalModes

theorem SameShell.trans
    {control middle next : JobControl}
    (first : SameShell control middle) (second : SameShell middle next) :
    SameShell control next :=
  ⟨second.interactive.trans first.interactive,
    second.shellPgid.trans first.shellPgid, second.modes.trans first.modes⟩

theorem act_sameShell
    {control next : JobControl} {action : Action}
    (acted : act control action = some next) :
    SameShell control next := by
  cases acts_of_act acted <;> exact ⟨rfl, rfl, rfl⟩

theorem sameShell_of_runsOn
    {allowed : Action → Prop} {control next : JobControl}
    (runs : RunsOn allowed control next) :
    SameShell control next := by
  rcases runs with ⟨actions, -, ran⟩
  refine System.run_preserves (SameShell control) ?_ ⟨rfl, rfl, rfl⟩ ran
  intro state action after same acted
  exact same.trans (act_sameShell acted)

/-- The shell is interactive and has the terminal, with its own modes. -/
def Owned (session : Session) : Prop :=
  session.control.interactive = true ∧
    session.terminal =
      ⟨session.control.shellPgid, session.control.shellTerminalModes⟩

theorem Owned.frame
    {session next : Session} (owned : Owned session)
    (same : SameShell session.control next.control)
    (terminal : next.terminal = session.terminal) :
    Owned next := by
  rcases owned with ⟨interactive, isOwn⟩
  refine ⟨same.interactive.trans interactive, ?_⟩
  rw [terminal, isOwn, same.shellPgid, same.modes]

/-- The terminal comes back whoever had it. -/
theorem owned_reclaimTerminal
    {answers : WaitAnswers} (reliable : Reliable answers) {session : Session}
    (interactive : session.control.interactive = true) :
    Owned (reclaimTerminal answers session) := by
  simp [reclaimTerminal, interactive, Owned, Terminal.set,
    reliable.reclaimsGroup, reliable.reclaimsModes]

theorem reportWait_terminal (id : Int) (session : Session) :
    (reportWait id session).2.terminal = session.terminal := by
  simp only [reportWait]
  split
  · rfl
  · split <;> rfl

theorem owned_awaitJob
    {answers : WaitAnswers} (reliable : Reliable answers) {id status : Int}
    {session next : Session}
    (interactive : session.control.interactive = true)
    (returned : awaitJob answers id session = some (status, next)) :
    Owned next := by
  rcases awaitJob_eq_some returned with ⟨waited, looped, -, -, equal⟩
  have saved :
      SameShell session.control (saveModes answers id waited).control :=
    (sameShell_of_runsOn (waitLoop_runsOn looped)).trans
      (sameShell_of_runsOn (saveModes_runsOn answers id waited))
  have reclaimed :
      Owned (reclaimTerminal answers (saveModes answers id waited)) :=
    owned_reclaimTerminal reliable (saved.interactive.trans interactive)
  have reported :=
    reclaimed.frame (sameShell_of_runsOn (reportWait_runsOn id [] _))
      (reportWait_terminal id _)
  rw [equal] at reported
  exact reported

theorem reclaimTerminal_installed
    (answers : WaitAnswers) {session : Session}
    (interactive : session.control.interactive = true) :
    (reclaimTerminal answers session).installed =
      session.installed ++ [(reclaimTerminal answers session).terminal] := by
  rw [reclaimTerminal, if_pos interactive]
  rfl

theorem saveModes_installed
    (answers : WaitAnswers) (id : Int) (session : Session) :
    (saveModes answers id session).installed = session.installed := by
  unfold saveModes
  split
  · rfl
  · split <;> rfl

theorem reportWait_installed (id : Int) (session : Session) :
    (reportWait id session).2.installed = session.installed := by
  unfold reportWait
  split
  · rfl
  · dsimp only
    split <;> rfl

/-- From its loop on, `wait_foreground` sets the terminal once. -/
theorem awaitJob_installed
    {answers : WaitAnswers} {id status : Int} {session next : Session}
    (interactive : session.control.interactive = true)
    (returned : awaitJob answers id session = some (status, next)) :
    next.installed = session.installed ++ [next.terminal] := by
  rcases Option.map_eq_some_iff.mp returned with ⟨control, looped, reported⟩
  have isNext : next = (reportWait id _).2 := (congrArg Prod.snd reported).symm
  have same :=
    (sameShell_of_runsOn (waitLoop_runsOn looped)).trans
      (sameShell_of_runsOn
        (saveModes_runsOn answers id
          { session with
            control := control
            terminal := { session.terminal with
              modes := answers.jobModes } }))
  rw [isNext, reportWait_installed, reportWait_terminal,
    reclaimTerminal_installed answers (same.interactive.trans interactive),
    saveModes_installed]

/-- `wait_foreground` gives the terminal back on every path. -/
theorem owned_waitForeground
    {answers : WaitAnswers} (reliable : Reliable answers) {id status : Int}
    {continueJob : Bool} {session next : Session} (owned : Owned session)
    (returned :
      waitForeground answers id continueJob session = some (status, next)) :
    Owned next := by
  have given :
      ∀ pgid modes,
        (giveTerminalTo answers session pgid modes).control.interactive =
          true := by
    intro pgid modes
    rw [giveTerminalTo_control]
    exact owned.1
  simp only [waitForeground] at returned
  split at returned
  · -- There is no such job, and nothing has been done.
    cases returned
    exact owned
  · split at returned
    · split at returned
      · apply owned_awaitJob reliable ?_ returned
        exact given _ _
      · cases returned
        exact owned_reclaimTerminal reliable (given _ _)
    · exact owned_awaitJob reliable (given _ _) returned

theorem owned_reapBackground
    {answers : ReapAnswers} {session next : Session} (owned : Owned session)
    (returned : reapBackground answers false session = some next) :
    Owned next := by
  have same := sameShell_of_runsOn (reapBackground_runsOn returned)
  rcases Option.map_eq_some_iff.mp returned with ⟨control, -, rfl⟩
  exact owned.frame same rfl

theorem owned_foreground
    {reap : ReapAnswers} {answers : WaitAnswers}
    (reliable : Reliable answers) {spec : ByteString}
    {outputFd errorFd status : Int} {session next : Session}
    (owned : Owned session)
    (returned :
      foreground reap answers spec outputFd errorFd session =
        some (status, next)) :
    Owned next := by
  rcases Option.bind_eq_some_iff.mp returned with ⟨reaped, first, rest⟩
  have reapedOwned := owned_reapBackground owned first
  split at rest
  · cases rest
    exact reapedOwned
  · split at rest
    · cases rest
      exact reapedOwned
    · apply owned_waitForeground reliable ?_ rest
      exact reapedOwned

theorem owned_continueBackground
    {reap : ReapAnswers} {killed : Bool} {spec : ByteString}
    {outputFd errorFd status : Int} {session next : Session}
    (owned : Owned session)
    (returned :
      continueBackground reap killed spec outputFd errorFd session =
        some (status, next)) :
    Owned next := by
  rcases Option.bind_eq_some_iff.mp returned with ⟨reaped, first, rest⟩
  have reapedOwned := owned_reapBackground owned first
  split at rest
  · cases rest
    exact reapedOwned
  · split at rest
    · cases rest
      exact reapedOwned
    · split at rest
      · split at rest <;> cases rest <;> exact reapedOwned
      · cases rest
        exact reapedOwned

/-- Every operation gives the terminal back. -/
theorem owned_perform
    {session next : Session} {operation : Operation} (owned : Owned session)
    (reliable : ReliableCall operation)
    (performed : perform session operation = some next) :
    Owned next := by
  cases operation with
  | addJob pgid pids nonempty lastPid command =>
      cases performed
      exact owned
  | updateProcess pid status =>
      cases performed
      exact owned
  | foreground reap answers spec outputFd errorFd =>
      rcases Option.map_eq_some_iff.mp performed with
        ⟨⟨status, _⟩, returned, rfl⟩
      exact owned_foreground reliable owned returned
  | continueBackground reap killed spec outputFd errorFd =>
      rcases Option.map_eq_some_iff.mp performed with
        ⟨⟨status, _⟩, returned, rfl⟩
      exact owned_continueBackground owned returned
  | waitForeground answers id continueJob =>
      simp only [perform, Option.ite_none_right_eq_some] at performed
      rcases Option.map_eq_some_iff.mp performed.2 with
        ⟨⟨status, _⟩, returned, rfl⟩
      exact owned_waitForeground reliable owned returned
  | reapBackground answers notify =>
      cases notify with
      | false => exact owned_reapBackground owned performed
      | true =>
          rcases reapBackground_notify performed with
            ⟨control, updates, cleaned, -⟩
          have same : SameShell session.control next.control := by
            rw [cleaned]
            exact (sameShell_of_runsOn updates).trans ⟨rfl, rfl, rfl⟩
          rcases Option.map_eq_some_iff.mp performed with ⟨_, -, rfl⟩
          exact owned.frame same rfl

/-! ## The modes that are kept with a job -/

/-- The job has been given out and, if it is still there, has these modes. -/
structure Saved (id : Int) (modes : Termios) (control : JobControl) :
    Prop where
  given : id < control.nextJobId
  kept : ∀ job ∈ control.jobs, job.id = id → ownModes job = some modes

/-- The action does not change the modes that are kept with the job. -/
def Spares (id : Int) (action : Action) : Prop :=
  ∀ modes, action ≠ .keepModes id modes

theorem spares_of_reports
    {results : List WaitResult} {action : Action}
    (reports : Reports results action) (id : Int) :
    Spares id action := by
  rcases reports with ⟨pid, status, -, rfl⟩
  exact nofun

theorem spares_of_settles
    {other : Int} {action : Action} (settles : Settles other action)
    (id : Int) :
    Spares id action := by
  rcases settles with rfl | rfl
  · exact nofun
  · exact nofun

/-- A call that waits for another job spares this one. -/
theorem spares_of_waits
    {id other : Int} {results : List WaitResult} {action : Action}
    (waits : Waits other results action) (different : other ≠ id) :
    Spares id action := by
  rintro modes rfl
  exact different waits.1.symm

theorem kept_modifyJob
    {id other : Int} {modes : Termios} {control : JobControl}
    (kept : ∀ job ∈ control.jobs, job.id = id → ownModes job = some modes)
    {change : Job → Job} (sameId : ∀ job, (change job).id = job.id)
    (sameModes :
      ∀ job, job.id = other → job.id = id →
        ownModes (change job) = ownModes job) :
    ∀ job ∈ (control.modifyJob other change).jobs,
      job.id = id → ownModes job = some modes := by
  intro job member isJob
  rcases JobControl.mem_modifyJob member with
    old | ⟨source, isMember, isOther, rfl⟩
  · exact kept job old isJob
  · rw [sameId] at isJob
    rw [sameModes source isOther isJob]
    exact kept source isMember isJob

theorem act_saved
    {id : Int} {modes : Termios} {control next : JobControl}
    {action : Action} (saved : Saved id modes control)
    (spares : Spares id action) (acted : act control action = some next) :
    Saved id modes next := by
  rcases saved with ⟨given, kept⟩
  cases acts_of_act acted with
  | add =>
      refine ⟨Int.lt_add_one_of_le (Int.le_of_lt given), ?_⟩
      intro job member isJob
      rcases List.mem_append.mp member with old | new
      · exact kept job old isJob
      · -- The new job gets an id that has not been given out before.
        rw [List.mem_singleton.mp new] at isJob
        exact (Int.ne_of_gt given isJob).elim
  | update =>
      refine ⟨given, ?_⟩
      intro job member isJob
      rcases JobControl.mem_updateProcess member with
        old | ⟨source, isMember, rfl⟩
      · exact kept job old isJob
      · exact kept source isMember isJob
  | resume _ =>
      exact ⟨given, kept_modifyJob kept (fun _ => rfl) fun _ _ _ => rfl⟩
  | @keepModes other newer =>
      refine ⟨given, kept_modifyJob kept (fun _ => rfl) ?_⟩
      intro job isOther isJob
      cases isOther.symm.trans isJob
      exact (spares newer rfl).elim
  | acknowledge _ =>
      exact ⟨given, kept_modifyJob kept (fun _ => rfl) fun _ _ _ => rfl⟩
  | erase _ =>
      exact ⟨given, fun job member => kept job (List.mem_of_mem_filter member)⟩
  | cleanup =>
      refine ⟨given, ?_⟩
      intro job member isJob
      rcases List.mem_map.mp (List.mem_of_mem_filter member) with
        ⟨source, isMember, rfl⟩
      split at isJob
      · rename_i acknowledged
        rw [if_pos acknowledged]
        exact kept source isMember isJob
      · rename_i silent
        rw [if_neg silent]
        exact kept source isMember isJob

theorem Saved.runsOn
    {id : Int} {modes : Termios} {control next : JobControl}
    (saved : Saved id modes control)
    (runs : RunsOn (Spares id) control next) :
    Saved id modes next := by
  rcases runs with ⟨actions, all, ran⟩
  exact System.run_preserves_allowed (Saved id modes) (Spares id)
    act_saved saved all ran

/-- Reading the modes of the terminal for a job saves them. -/
theorem saved_keepModes
    {control : JobControl} (valid : TableValid control) {job : Job}
    {id : Int} (found : control.findJob id = some job) (modes : Termios) :
    Saved id modes
      (control.modifyJob id fun job =>
        { job with terminalModes := modes, hasTerminalModes := true }) := by
  rcases findJob_mem found with ⟨member, isJob⟩
  refine ⟨isJob ▸ valid.below job member, ?_⟩
  intro other isMember isOther
  have newValid := act_tableValid valid (show act control
    (.keepModes id modes) = some _ from rfl)
  have foundOther := newValid.findJob isMember
  rw [isOther, findJob_modifyJob, found] at foundOther
  · cases foundOther
    rfl
  · exact fun _ => rfl

theorem reportWait_control (id : Int) (session : Session) :
    (reportWait id session).2.control = settleJob id session.control := by
  cases found : session.control.findJob id with
  | none => simp only [reportWait, settleJob, found]
  | some job =>
      simp only [reportWait, found]
      split <;> rfl

/-- The report of a wait does not change whether the job is stopped. -/
theorem hasState_settleJob (id : Int) (control : JobControl) :
    HasState (settleJob id control) id .stopped ↔
      HasState control id .stopped := by
  cases found : control.findJob id with
  | none => simp only [settleJob, found]
  | some job =>
      cases state : job.state with
      | running => simp [settleJob, found, state]
      | stopped =>
          simp [settleJob, HasState, found, state, findJob_modifyJob]
      | done =>
          have erased : (control.eraseJob id).findJob id = none := by
            simp [JobControl.findJob, JobControl.eraseJob]
          simp [settleJob, HasState, found, state, erased]

theorem saveModes_of_not_stopped
    (answers : WaitAnswers) {id : Int} (session : Session)
    (notStopped : ¬ HasState session.control id .stopped) :
    saveModes answers id session = session := by
  simp only [saveModes]
  split
  · rfl
  · rename_i job found
    exact if_neg fun both => notStopped ⟨job, found, both.2.1⟩

/-- A wait either ends with the job stopped and saves the modes that the
terminal has at that time, or spares the modes of the job. -/
theorem awaitJob_modes
    {answers : WaitAnswers} (reliable : Reliable answers) {id status : Int}
    {session next : Session} (valid : TableValid session.control)
    (interactive : session.control.interactive = true)
    (returned : awaitJob answers id session = some (status, next)) :
    (HasState next.control id .stopped ∧
        Saved id answers.jobModes next.control) ∨
      (¬ HasState next.control id .stopped ∧
        RunsOn (Spares id) session.control next.control) := by
  rcases awaitJob_eq_some returned with ⟨waited, looped, modes, -, equal⟩
  have loop := waitLoop_runsOn looped
  have settled :
      next.control = settleJob id (saveModes answers id waited).control := by
    have reported :=
      reportWait_control id
        (reclaimTerminal answers (saveModes answers id waited))
    rw [reclaimTerminal_control, equal] at reported
    exact reported
  have settles := settleJob_runsOn id (saveModes answers id waited).control
  rw [← settled] at settles
  rw [settled, hasState_settleJob, ← settled]
  by_cases stops : HasState waited.control id .stopped
  · rcases stops with ⟨job, found, isStopped⟩
    have isInteractive : waited.control.interactive = true :=
      (sameShell_of_runsOn loop).interactive.trans interactive
    have isFound : waited.control.findJob id = some job := found
    have keeps :
        (saveModes answers id waited).control =
          waited.control.modifyJob id fun job =>
            { job with
              terminalModes := answers.jobModes
              hasTerminalModes := true } := by
      simp [saveModes, isFound, modes, isInteractive, isStopped,
        reliable.readsModes]
    refine Or.inl ⟨?_, ?_⟩
    · rw [keeps]
      refine ⟨{ job with
        terminalModes := answers.jobModes
        hasTerminalModes := true }, ?_, isStopped⟩
      rw [findJob_modifyJob, isFound]
      · rfl
      · exact fun _ => rfl
    · apply Saved.runsOn ?_ (settles.mono fun settles =>
        spares_of_settles settles id)
      rw [keeps]
      exact saved_keepModes (loop.tableValid valid) found answers.jobModes
  · rw [saveModes_of_not_stopped answers waited stops] at settles ⊢
    exact Or.inr ⟨stops,
      (loop.mono fun reports => spares_of_reports reports id).trans
        (settles.mono fun settles => spares_of_settles settles id)⟩

theorem waitForeground_modes
    {answers : WaitAnswers} (reliable : Reliable answers) {id status : Int}
    {continueJob : Bool} {session next : Session} (owned : Owned session)
    (valid : TableValid session.control)
    (stopped : ContinuesStopped session id continueJob)
    (returned :
      waitForeground answers id continueJob session = some (status, next)) :
    (HasState next.control id .stopped ∧
        Saved id answers.jobModes next.control) ∨
      (¬ HasState next.control id .stopped ∧
        RunsOn (Spares id) session.control next.control) := by
  have interactive := owned.1
  simp only [waitForeground] at returned
  split at returned
  · rename_i absent
    cases returned
    refine Or.inr ⟨?_, .refl _ _⟩
    rintro ⟨job, found, -⟩
    rw [absent] at found
    cases found
  · rename_i job found
    cases continueJob with
    | false =>
        simp only [Bool.false_eq_true, if_false] at returned
        rw [← giveTerminalTo_control answers session job.pgid
          (ownModes job)] at valid interactive ⊢
        exact awaitJob_modes reliable valid interactive returned
    | true =>
        simp only [if_true, giveTerminalTo_control] at returned
        have resumed :
            RunsOn (Spares id) session.control
              (session.control.modifyJob id Job.resume) :=
          .single (.resume id) nofun (if_pos (stopped rfl))
        split at returned
        · refine (awaitJob_modes reliable ?_ ?_ returned).imp_right
            (And.imp_right resumed.trans)
          · exact resumed.tableValid valid
          · exact interactive
        · -- The job is shown as running although it has not been continued.
          cases returned
          rw [reclaimTerminal_control, Session.setControl_control]
          refine Or.inr ⟨?_, resumed⟩
          rintro ⟨shown, foundShown, isStopped⟩
          rw [findJob_modifyJob _ _ Job.resume fun _ => rfl, found]
            at foundShown
          cases foundShown
          cases isStopped

/-! ## The last stop in the foreground -/

/-- The answers to the wait for the job, if the call waits for it. -/
def waitedWith (session : Session) (id : Int) :
    Operation → Option WaitAnswers
  | .waitForeground answers other _ =>
      if other = id then some answers else none
  | .foreground reap answers spec _ _ =>
      ((collect reap session.control).bind fun control =>
        control.resolveJob spec).bind fun job =>
          if job.id = id then some answers else none
  | _ => none

/-- The modes that the terminal has when the call ends a wait for the job with
the job stopped. -/
def stopModes (session next : Session) (id : Int) (operation : Operation) :
    Option Termios :=
  (waitedWith session id operation).bind fun answers =>
    if HasState next.control id .stopped then some answers.jobModes else none

/-- The modes at the last of these stops in a run, or those known before. -/
def lastStop (id : Int) :
    Session → List Operation → Option Termios → Option Termios
  | _, [], known => known
  | session, operation :: later, known =>
      match perform session operation with
      | none => known
      | some next =>
          lastStop id next later
            ((stopModes session next id operation).or known)

/-- `fg` waits for the job that it resolves, unless that job is done. -/
theorem foreground_modes
    {reap : ReapAnswers} {answers : WaitAnswers}
    (reliable : Reliable answers) {spec : ByteString}
    {outputFd errorFd status : Int} {session next : Session}
    (valid : TableValid session.control) (owned : Owned session)
    (returned :
      foreground reap answers spec outputFd errorFd session =
        some (status, next))
    (id : Int) :
    (∃ modes,
        stopModes session next id
            (.foreground reap answers spec outputFd errorFd) = some modes ∧
          Saved id modes next.control) ∨
      (stopModes session next id
          (.foreground reap answers spec outputFd errorFd) = none ∧
        RunsOn (Spares id) session.control next.control) := by
  rcases Option.bind_eq_some_iff.mp returned with ⟨reaped, first, rest⟩
  have reapedOwned := owned_reapBackground owned first
  have reports := reapBackground_runsOn first
  have reapedValid := reports.tableValid valid
  have updates : RunsOn (Spares id) session.control reaped.control :=
    reports.mono fun reports => spares_of_reports reports id
  have collected : collect reap session.control = some reaped.control := by
    rcases Option.map_eq_some_iff.mp first with ⟨control, collected, rfl⟩
    exact collected
  split at rest
  · rename_i unresolved
    cases rest
    exact Or.inr ⟨by simp [stopModes, waitedWith, collected, unresolved],
      updates⟩
  · rename_i job resolved
    have found := reapedValid.findJob (resolveJob_mem resolved)
    split at rest
    · rename_i isDone
      cases rest
      refine Or.inr ⟨?_, updates⟩
      have notStopped : ¬ HasState reaped.control job.id .stopped := by
        simp [HasState, found, isDone]
      by_cases isJob : job.id = id
      · cases isJob
        simp [stopModes, waitedWith, collected, resolved, notStopped]
      · simp [stopModes, waitedWith, collected, resolved, isJob]
    · have stopped :
          ContinuesStopped
            (reaped.write outputFd (.foregrounded job.command)) job.id
            (job.state = .stopped) :=
        fun continues => ⟨job, found, of_decide_eq_true continues⟩
      have written :
          Owned (reaped.write outputFd (.foregrounded job.command)) :=
        reapedOwned
      by_cases isJob : job.id = id
      · cases isJob
        rcases waitForeground_modes reliable written reapedValid stopped
            rest with ⟨stops, saved⟩ | ⟨goesOn, runs⟩
        · refine Or.inl ⟨answers.jobModes, ?_, saved⟩
          simp [stopModes, waitedWith, collected, resolved, stops]
        · refine Or.inr ⟨?_, updates.trans runs⟩
          simp [stopModes, waitedWith, collected, resolved, goesOn]
      · refine Or.inr ⟨?_, updates.trans ?_⟩
        · simp [stopModes, waitedWith, collected, resolved, isJob]
        · exact (waitForeground_runsOn stopped rest).mono
            fun waits => spares_of_waits waits isJob

/-- A call saves the modes of a stop that it ends with, and otherwise spares
those of the job. -/
theorem perform_modes
    {session next : Session} {operation : Operation}
    (valid : TableValid session.control) (owned : Owned session)
    (reliable : ReliableCall operation)
    (performed : perform session operation = some next) (id : Int) :
    (∃ modes,
        stopModes session next id operation = some modes ∧
          Saved id modes next.control) ∨
      (stopModes session next id operation = none ∧
        RunsOn (Spares id) session.control next.control) := by
  cases operation with
  | addJob pgid pids nonempty lastPid command =>
      cases performed
      refine Or.inr ⟨rfl,
        .single (.add pgid pids nonempty lastPid command) ?_ rfl⟩
      rintro _ ⟨⟩
  | updateProcess pid status =>
      cases performed
      refine Or.inr ⟨rfl, .single (.update pid status) ?_ rfl⟩
      rintro _ ⟨⟩
  | foreground reap answers spec outputFd errorFd =>
      rcases Option.map_eq_some_iff.mp performed with
        ⟨⟨status, _⟩, returned, rfl⟩
      exact foreground_modes reliable valid owned returned id
  | continueBackground reap killed spec outputFd errorFd =>
      rcases Option.map_eq_some_iff.mp performed with
        ⟨⟨status, _⟩, returned, rfl⟩
      refine Or.inr ⟨rfl, ?_⟩
      apply (continueBackground_runsOn valid returned).mono
      rintro action (reports | ⟨other, rfl⟩)
      · exact spares_of_reports reports id
      · rintro _ ⟨⟩
  | waitForeground answers other continueJob =>
      simp only [perform, Option.ite_none_right_eq_some] at performed
      rcases performed with ⟨stopped, mapped⟩
      rcases Option.map_eq_some_iff.mp mapped with
        ⟨⟨status, _⟩, returned, rfl⟩
      by_cases isJob : other = id
      · cases isJob
        rcases waitForeground_modes reliable owned valid stopped returned with
          ⟨stops, saved⟩ | ⟨goesOn, runs⟩
        · exact Or.inl ⟨answers.jobModes,
            by simp [stopModes, waitedWith, stops], saved⟩
        · exact Or.inr ⟨by simp [stopModes, waitedWith, goesOn], runs⟩
      · refine Or.inr ⟨by simp [stopModes, waitedWith, isJob], ?_⟩
        exact (waitForeground_runsOn stopped returned).mono
          fun waits => spares_of_waits waits isJob
  | reapBackground answers notify =>
      refine Or.inr ⟨rfl, ?_⟩
      cases notify with
      | false =>
          exact (reapBackground_runsOn performed).mono
            fun reports => spares_of_reports reports id
      | true =>
          rcases reapBackground_notify performed with
            ⟨control, updates, cleaned, -⟩
          apply (updates.mono fun reports =>
            spares_of_reports reports id).trans
          rw [cleaned]
          refine .single .cleanup ?_ rfl
          rintro _ ⟨⟩

theorem run_sameShell
    {session final : Session} {operations : List Operation}
    (valid : TableValid session.control)
    (ran : jobSystem.run session operations = some final) :
    SameShell session.control final.control := by
  refine (System.run_preserves
    (fun state =>
      TableValid state.control ∧ SameShell session.control state.control)
    ?_ ⟨valid, rfl, rfl, rfl⟩ ran).2
  rintro state operation next ⟨isValid, same⟩ performed
  have runs := perform_runsOn isValid performed
  exact ⟨runs.tableValid isValid, same.trans (sameShell_of_runsOn runs)⟩

/-- The terminal and the table over a whole run: the modes at the last stop of
a job in the foreground are the ones that are kept with it. -/
theorem run_modes
    {session final : Session} {operations : List Operation}
    (valid : TableValid session.control) (owned : Owned session)
    (reliable : ∀ operation ∈ operations, ReliableCall operation)
    (ran : jobSystem.run session operations = some final) (id : Int)
    {known : Option Termios}
    (knownSaved : ∀ modes ∈ known, Saved id modes session.control) :
    Owned final ∧
      ∀ modes ∈ lastStop id session operations known,
        Saved id modes final.control := by
  induction operations generalizing session known with
  | nil =>
      cases ran
      exact ⟨owned, knownSaved⟩
  | cons operation operations induction =>
      rcases System.run_cons.mp ran with ⟨next, performed, later⟩
      have performedAs : perform session operation = some next := performed
      rcases List.forall_mem_cons.mp reliable with ⟨first, rest⟩
      simp only [lastStop, performedAs]
      refine induction (perform_tableValid valid performed)
        (owned_perform owned first performed) rest later ?_
      intro modes isKnown
      rcases perform_modes valid owned first performed id with
        ⟨stop, isStop, saved⟩ | ⟨noStop, runs⟩
      · rw [isStop, Option.some_or] at isKnown
        cases isKnown
        exact saved
      · rw [noStop, Option.none_or] at isKnown
        exact (knownSaved modes isKnown).runsOn runs

section Lending

variable {session next : Session} {reap : ReapAnswers} {control : JobControl}
  {spec : ByteString} {job : Job} {answers : WaitAnswers} {modes : Termios}
  {outputFd errorFd status : Int}

theorem lent_eq
    (reliable : Reliable answers) (interactive : control.interactive = true)
    (own : ownModes job = some modes) :
    lent answers outputFd session control job =
      (((session.setControl control).write outputFd
        (.foregrounded job.command)).install ⟨job.pgid, modes⟩).setControl
          (control.modifyJob job.id Job.resume) := by
  simp [lent, giveTerminalTo, interactive, own, Terminal.set,
    reliable.givesGroup, reliable.givesModes]

/-- `fg` sets the terminal for the job, and then back for the shell. -/
theorem foreground_installed
    (valid : TableValid session.control) (owned : Owned session)
    (reliable : Reliable answers)
    (collected : collect reap session.control = some control)
    (resolved : control.resolveJob spec = some job)
    (isStopped : job.state = .stopped) (own : ownModes job = some modes)
    (returned :
      foreground reap answers spec outputFd errorFd session =
        some (status, next)) :
    next.installed =
      session.installed ++
        [⟨job.pgid, modes⟩,
          ⟨session.control.shellPgid,
            session.control.shellTerminalModes⟩] := by
  have same : SameShell session.control next.control := by
    rcases foreground_runsOn valid returned with runs | ⟨_, -, runs⟩
    · exact sameShell_of_runsOn runs
    · exact sameShell_of_runsOn runs
  have isBack := (owned_foreground reliable owned returned).2
  have interactive : control.interactive = true :=
    (sameShell_of_runsOn (collect_runsOn collected)).interactive.trans owned.1
  rw [foreground_of_stopped valid collected resolved isStopped,
    lent_eq reliable interactive own] at returned
  have once :
      next.installed =
        session.installed ++ [⟨job.pgid, modes⟩] ++ [next.terminal] := by
    split at returned
    · exact awaitJob_installed interactive returned
    · cases returned
      exact reclaimTerminal_installed answers interactive
  rw [once, isBack, same.shellPgid, same.modes]
  exact List.append_assoc _ _ _

end Lending

/--
In an interactive shell whose calls on the terminal succeed, the terminal is
back with the shell and has the shell's modes after every run of operations.
When `fg` continues a stopped job, `give_terminal_to` has given it the terminal
with the modes that the terminal had when the job last stopped in the
foreground, and that is the session in which the job is continued and awaited.
Until `fg` returns, the terminal is set twice: for the job, and back for the
shell.
-/
theorem terminal_lent_and_returned
    (shellPgid : Int) (shellModes : Termios) {operations : List Operation}
    (reliable : ∀ operation ∈ operations, ReliableCall operation)
    {session : Session}
    (ran :
      jobSystem.run (opened shellPgid shellModes) operations =
        some session) :
    session.terminal = ⟨shellPgid, shellModes⟩ ∧
      ∀ (reap : ReapAnswers) (control : JobControl) (spec : ByteString)
        (job : Job) (modes : Termios) (answers : WaitAnswers)
        (outputFd errorFd : Int),
        collect reap session.control = some control →
        control.resolveJob spec = some job →
        job.state = .stopped →
        lastStop job.id (opened shellPgid shellModes) operations none =
          some modes →
        Reliable answers →
        (lent answers outputFd session control job).terminal =
            ⟨job.pgid, modes⟩ ∧
          (lent answers outputFd session control job).control =
            control.modifyJob job.id Job.resume ∧
          foreground reap answers spec outputFd errorFd session =
            (if answers.killed then
              awaitJob answers job.id
                (lent answers outputFd session control job)
            else
              some (1,
                reclaimTerminal answers
                  (lent answers outputFd session control job))) ∧
          ∀ status next,
            foreground reap answers spec outputFd errorFd session =
                some (status, next) →
              next.installed =
                session.installed ++
                  [⟨job.pgid, modes⟩, ⟨shellPgid, shellModes⟩] := by
  have startValid : TableValid (opened shellPgid shellModes).control :=
    tableValid_initial ⟨rfl, rfl⟩
  have same := run_sameShell startValid ran
  have followed :=
    fun id =>
      run_modes startValid ⟨rfl, rfl⟩ reliable ran id
        (show ∀ modes ∈ none, Saved id modes _ from nofun)
  constructor
  · rw [(followed 0).1.2, same.shellPgid, same.modes]
    rfl
  · intro reap control spec job modes answers outputFd errorFd collected
      resolved isStopped isLast reliableAnswers
    have valid : TableValid session.control :=
      reachable_tableValid
        ⟨opened shellPgid shellModes, operations, ⟨rfl, rfl, rfl⟩, ran⟩
    have reports := collect_runsOn collected
    have saved : Saved job.id modes control :=
      ((followed job.id).2 modes isLast).runsOn
        (reports.mono fun reports => spares_of_reports reports job.id)
    have own : ownModes job = some modes :=
      saved.kept job (resolveJob_mem resolved) rfl
    have interactive : control.interactive = true :=
      (same.trans (sameShell_of_runsOn reports)).interactive
    refine ⟨?_, ?_, ?_, ?_⟩
    · rw [lent_eq reliableAnswers interactive own]
      rfl
    · rw [lent, Session.setControl_control]
    · exact foreground_of_stopped valid collected resolved isStopped answers
        outputFd errorFd
    · intro status next returned
      have twice :=
        foreground_installed valid (followed 0).1 reliableAnswers collected
          resolved isStopped own returned
      rwa [same.shellPgid, same.modes] at twice

/-- Two jobs stop in the foreground, each with modes of its own. -/
def twoStops : List Operation :=
  [.launch 10 [] 10 (literal "vi"),
    .waitForeground
      { waits := [.child 10 0x147f#32], jobModes := { localFlags := 1 } } 1
      false,
    .launch 20 [] 20 (literal "less"),
    .waitForeground
      { waits := [.child 20 0x147f#32], jobModes := { localFlags := 2 } } 2
      false]

theorem terminal_lent_and_returned_sample :
    ∃ session job next,
      jobSystem.run (opened 7 {}) twoStops = some session ∧
        session.terminal = ⟨7, {}⟩ ∧
        (lent { waits := [.child 10 0x0000#32] } 1 session session.control
          job).terminal = ⟨10, { localFlags := 1 }⟩ ∧
        foreground ⟨false, []⟩ { waits := [.child 10 0x0000#32] }
            (literal "%1") 1 2 session =
          some (0, next) ∧
        next.installed =
          session.installed ++ [⟨10, { localFlags := 1 }⟩, ⟨7, {}⟩] := by
  have ran :
      (jobSystem.run (opened 7 {}) twoStops).bind
          (fun session =>
            (session.control.resolveJob (literal "%1")).bind fun job =>
              (foreground ⟨false, []⟩ { waits := [.child 10 0x0000#32] }
                (literal "%1") 1 2 session).map fun result =>
                  (job.id, job.pgid, job.state, result.1)) =
        some (1, 10, .stopped, 0) := by
    decide +kernel
  rcases Option.bind_eq_some_iff.mp ran with ⟨session, reached, found⟩
  rcases Option.bind_eq_some_iff.mp found with ⟨job, resolved, ends⟩
  rcases Option.map_eq_some_iff.mp ends with
    ⟨⟨status, next⟩, continued, equal⟩
  rcases Prod.mk.inj equal with ⟨isFirst, rest⟩
  rcases Prod.mk.inj rest with ⟨isGroup, others⟩
  rcases Prod.mk.inj others with ⟨isStopped, isZero⟩
  cases isZero
  have reliable : ∀ operation ∈ twoStops, ReliableCall operation := by
    simp only [twoStops, List.forall_mem_cons]
    exact ⟨trivial, ⟨rfl, rfl, rfl, rfl, rfl⟩, trivial,
      ⟨rfl, rfl, rfl, rfl, rfl⟩, List.forall_mem_nil _⟩
  have isLast :
      lastStop job.id (opened 7 {}) twoStops none =
        some { localFlags := 1 } := by
    rw [isFirst]
    decide +kernel
  rcases terminal_lent_and_returned 7 {} reliable reached with
    ⟨returned, lends⟩
  rcases lends ⟨false, []⟩ session.control (literal "%1") job _
      { waits := [.child 10 0x0000#32] } 1 2 rfl resolved isStopped isLast
      ⟨rfl, rfl, rfl, rfl, rfl⟩ with ⟨terminal, -, -, installs⟩
  have installed := installs 0 next continued
  rw [isGroup] at terminal installed
  exact ⟨session, job, next, reached, returned, terminal, continued,
    installed⟩

end Shell.Resumption
