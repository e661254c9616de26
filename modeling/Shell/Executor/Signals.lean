import Shell.Executor.TerminalHandoff

/-!
# Signals of the terminal

What the shell and its children do with the signals that the terminal sends.
`JobControl` and `initialize_readline` set the dispositions of the shell, a
child begins with a copy of them and calls `reset_child_signal_handlers`, and
`exec` keeps what is ignored.  The launch of a pipeline is extended by the
dispositions of every process and by the keys of the terminal, which signal all
processes of its foreground group at any time between two other steps.  A child
that is stopped does nothing until it is continued, and a signal that would end
it waits for that.
-/

namespace Shell.Signals

open Shell.Syntax
open Shell.DescriptorTable
open Shell.FirstMatch
open Shell.JobTable
open Shell.JobOperations
open Shell.LaunchMachine
open Shell.ProcessGroups
open Shell.TerminalHandoff
open Shell.TransitionSystem

/-! ## Dispositions -/

inductive Signal where
  | sigint
  | sigquit
  | sigtstp
  | sigttin
  | sigttou
  | sigchld
  | sigterm
  | sigcont
  | other (number : ℕ)
deriving DecidableEq, Repr

inductive Handler where
  | onSigchld
  | handlePromptSigint
  /-- A handler of a program that is not the shell. -/
  | foreign (number : ℕ)
deriving DecidableEq, Repr

inductive Disposition where
  | default
  | ignored
  | handled (handler : Handler)
deriving DecidableEq, Repr

/-- The dispositions of a process. -/
abbrev Actions := Signal → Disposition

/-- `install_handler`, which is `sigaction`. -/
def installHandler (actions : Actions) (signal : Signal)
    (disposition : Disposition) : Actions :=
  Function.update actions signal disposition

/-- `ignore_signal`. -/
def ignoreSignal (actions : Actions) (signal : Signal) : Actions :=
  installHandler actions signal .ignored

/-- `default_signal`. -/
def defaultSignal (actions : Actions) (signal : Signal) : Actions :=
  installHandler actions signal .default

/-- The signals that an interactive shell ignores in the constructor of
`JobControl`. -/
def terminalSignals : List Signal :=
  [.sigint, .sigquit, .sigtstp, .sigttin, .sigttou]

/-- The signals whose dispositions the shell changes. -/
def changedSignals : List Signal :=
  terminalSignals ++ [.sigchld]

/-- The constructor of `JobControl`, as far as it sets dispositions. -/
def jobControlActions (interactive : Bool) (inherited : Actions) : Actions :=
  let actions := installHandler inherited .sigchld (.handled .onSigchld)
  if interactive then terminalSignals.foldl ignoreSignal actions
  else actions

/-- The call of `sigaction` in `initialize_readline`. -/
def initializeReadline (actions : Actions) : Actions :=
  installHandler actions .sigint (.handled .handlePromptSigint)

/-- The shell when `main` enters its loop. -/
def shellActions (interactive : Bool) (inherited : Actions) : Actions :=
  initializeReadline (jobControlActions interactive inherited)

/-- `JobControl::reset_child_signal_handlers`. -/
def resetChildSignalHandlers (actions : Actions) : Actions :=
  changedSignals.foldl defaultSignal actions

/-- `execve` sets handled signals back and keeps the ignored ones. -/
def execActions (actions : Actions) : Actions := fun signal =>
  match actions signal with
  | .handled _ => .default
  | disposition => disposition

/-- What a signal does to a process. -/
inductive Effect where
  | terminates
  | stops
  | runs (handler : Handler)
  | nothing
deriving DecidableEq, Repr

def defaultEffect : Signal → Effect
  | .sigtstp | .sigttin | .sigttou => .stops
  | .sigchld | .sigcont => .nothing
  | _ => .terminates

def effect (actions : Actions) (signal : Signal) : Effect :=
  match actions signal with
  | .default => defaultEffect signal
  | .ignored => .nothing
  | .handled handler => .runs handler

/-- The dispositions of a process that was started by `exec`. -/
def Fresh (inherited : Actions) : Prop :=
  ∀ signal handler, inherited signal ≠ .handled handler

theorem foldl_installHandler
    (actions : Actions) (signals : List Signal) (disposition : Disposition)
    (signal : Signal) :
    (signals.foldl
        (fun actions signal => installHandler actions signal disposition)
        actions) signal =
      if signal ∈ signals then disposition else actions signal := by
  induction signals generalizing actions with
  | nil => simp
  | cons first signals induction =>
      rw [List.foldl_cons, induction]
      by_cases later : signal ∈ signals
      · simp [later]
      · by_cases same : signal = first
        · simp [same, installHandler]
        · simp [later, same, installHandler, Function.update_of_ne]

theorem resetChildSignalHandlers_apply (actions : Actions)
    (signal : Signal) :
    resetChildSignalHandlers actions signal =
      if signal ∈ changedSignals then .default
      else actions signal :=
  foldl_installHandler actions _ .default signal

/-- The shell changes the dispositions of these signals and of no others. -/
theorem shellActions_of_not_mem
    (interactive : Bool) (inherited : Actions) {signal : Signal}
    (other : signal ∉ changedSignals) :
    shellActions interactive inherited signal = inherited signal := by
  rw [changedSignals, List.mem_append, List.mem_singleton, not_or] at other
  have notInterrupt : signal ≠ .sigint := by
    rintro rfl
    exact other.1 List.mem_cons_self
  rw [shellActions, initializeReadline, installHandler,
    Function.update_of_ne notInterrupt, jobControlActions]
  have kept :
      installHandler inherited .sigchld (.handled .onSigchld) signal =
        inherited signal :=
    Function.update_of_ne other.2 ..
  split
  · exact (foldl_installHandler _ _ .ignored signal).trans
      ((if_neg other.1).trans kept)
  · exact kept

/-- No signal of the terminal stops or ends an interactive shell. -/
theorem effect_shellActions
    (inherited : Actions) {signal : Signal}
    (isTerminal : signal ∈ terminalSignals) :
    effect (shellActions true inherited) signal =
      if signal = .sigint then .runs .handlePromptSigint else .nothing := by
  by_cases isInterrupt : signal = .sigint
  · subst isInterrupt
    rfl
  · have isIgnored : shellActions true inherited signal = .ignored := by
      rw [shellActions, initializeReadline, installHandler,
        Function.update_of_ne isInterrupt]
      exact (foldl_installHandler _ _ .ignored signal).trans
        (if_pos isTerminal)
    rw [effect, isIgnored, if_neg isInterrupt]

/-- What a program starts with: the six signals are set back, and the others are
as the shell has found them. -/
def programActions (inherited : Actions) : Actions := fun signal =>
  if signal ∈ changedSignals then .default
  else inherited signal

theorem execActions_reset
    {inherited : Actions} (fresh : Fresh inherited) (interactive : Bool) :
    execActions
        (resetChildSignalHandlers (shellActions interactive inherited)) =
      programActions inherited := by
  funext signal
  rw [execActions, resetChildSignalHandlers_apply, programActions]
  split_ifs with changed
  · rfl
  · rw [shellActions_of_not_mem interactive inherited changed]
    split
    next handler isHandled => exact absurd isHandled (fresh signal handler)
    next => rfl

/-! ## A launch with the keys of the terminal -/

/-- The keys for which the terminal sends a signal. -/
inductive Key where
  | interrupt
  | quit
  | suspend
deriving DecidableEq, Repr

def Key.signal : Key → Signal
  | .interrupt => .sigint
  | .quit => .sigquit
  | .suspend => .sigtstp

variable {σ : Type*}

/-- The launch of a pipeline, and the dispositions of its processes. -/
structure Scene (σ : Type*) where
  machine : Machine σ
  shell : Actions
  actions : Int → Actions
  stopped : Int → Bool := fun _ => false
  /-- A signal is pending that ends the child when it is continued. -/
  doomed : Int → Bool := fun _ => false
  /-- What the keys have done to the shell. -/
  felt : List Effect := []

inductive Event where
  | launch (label : Label)
  /-- A running program calls `sigaction`. -/
  | install (pid : Int) (signal : Signal) (disposition : Disposition)
  | press (key : Key)
  /-- A child is stopped from elsewhere. -/
  | stop (pid : Int)
  /-- A child that is stopped gets `SIGCONT`. -/
  | resume (pid : Int)
deriving DecidableEq, Repr

/-- The dispositions behind a step of the launch: `fork` copies those of the
shell. -/
def nextActions (shell : Actions) (actions : Int → Actions) :
    Label → Int → Actions
  | .fork (some pid) => Function.update actions pid shell
  | .child pid .resetSignals =>
      Function.update actions pid (resetChildSignalHandlers (actions pid))
  | .child pid .exec =>
      Function.update actions pid (execActions (actions pid))
  | _ => actions

namespace Scene

/-- The terminal sends the signal to the child, and this is what it does to a
child that is not stopped. -/
def hits (scene : Scene σ) (signal : Signal) (result : Effect)
    (child : Child σ) : Bool :=
  child.phase.alive &&
    decide (child.pgid = TerminalHandoff.foreground scene.machine) &&
    decide (effect (scene.actions child.pid) signal = result)

/-- The signal ends the child at once. -/
def struck (scene : Scene σ) (signal : Signal) (child : Child σ) : Bool :=
  scene.hits signal .terminates child && !scene.stopped child.pid

/-- The key signals all processes of the foreground group. -/
def press (scene : Scene σ) (key : Key) : Scene σ :=
  let hit (result : Effect) (pid : Int) :=
    scene.machine.children.any fun child =>
      decide (child.pid = pid) && scene.hits key.signal result child
  { scene with
    machine :=
      { scene.machine with
        children :=
          scene.machine.children.map fun child =>
            if scene.struck key.signal child then child.exited else child }
    stopped := fun pid => scene.stopped pid || hit .stops pid
    doomed := fun pid =>
      scene.doomed pid || scene.stopped pid && hit .terminates pid
    felt :=
      if scene.machine.shellGroup =
          TerminalHandoff.foreground scene.machine then
        scene.felt ++ [effect scene.shell key.signal]
      else
        scene.felt }

/-- A stopped child makes no step; it can only be killed. -/
def heldBack (scene : Scene σ) : Label → Bool
  | .child _ .exit => false
  | .child pid _ => scene.stopped pid
  | _ => false

end Scene

def sceneStep (environment : Environment) (pipeline : Pipeline)
    (scene : Scene σ) : Event → Option (Scene σ)
  | .launch label =>
      if scene.heldBack label then
        none
      else
        (machineStep environment pipeline scene.machine label).map
          fun machine =>
            { scene with
              machine := machine
              actions := nextActions scene.shell scene.actions label }
  | .install pid signal disposition =>
      match findChild scene.machine.children pid with
      | none => none
      | some child =>
          if child.phase = .running ∧ scene.stopped pid = false then
            some
              { scene with
                actions :=
                  Function.update scene.actions pid
                    (installHandler (scene.actions pid) signal
                      disposition) }
          else
            none
  | .press key => some (scene.press key)
  | .stop pid =>
      match findChild scene.machine.children pid with
      | none => none
      | some child =>
          if child.phase.alive then
            some
              { scene with
                stopped := Function.update scene.stopped pid true }
          else
            none
  | .resume pid =>
      let stopped := Function.update scene.stopped pid false
      if scene.stopped pid = false then
        none
      else if scene.doomed pid then
        (machineStep environment pipeline scene.machine
            (.child pid .exit)).map fun machine =>
          { scene with machine := machine, stopped := stopped }
      else
        some { scene with stopped := stopped }

/-- Every launch of a pipeline from an interactive shell that was started with
the dispositions `inherited`. -/
def scenes (environment : Environment) (pipeline : Pipeline)
    (shell : Table σ) (inherited : Actions) : System (Scene σ) Event where
  initial scene :=
    AtPrompt environment pipeline shell scene.machine ∧
      scene.shell = shellActions true inherited ∧
      scene.stopped = (fun _ => false) ∧ scene.doomed = (fun _ => false) ∧
      scene.felt = []
  step := sceneStep environment pipeline

/-- No program changes its group and no call of `tcsetpgrp` fails. -/
def Event.Ordinary : Event → Prop
  | .launch label => TerminalHandoff.Ordinary label
  | _ => True

variable {environment : Environment} {pipeline : Pipeline}
variable {shell : Table σ} {inherited : Actions}

/-! ## A key is a step of the launch -/

variable (environment pipeline) in
/-- The children with these pids end, one after the other. -/
theorem exits_lead
    (shell : Table σ) {pids : List Int} (once : pids.Nodup)
    {machine : Machine σ} (distinct : (childPids machine).Nodup)
    (alive :
      ∀ pid ∈ pids, ∃ child ∈ machine.children,
        child.pid = pid ∧ child.phase.alive = true) :
    (launchSystem environment pipeline shell).LeadsBy
      TerminalHandoff.Ordinary machine
      { machine with
        children :=
          machine.children.map fun child =>
            if child.pid ∈ pids then child.exited else child } := by
  induction pids generalizing machine with
  | nil =>
      have same :
          (machine.children.map fun child =>
            if child.pid ∈ [] then child.exited else child) =
            machine.children := by
        simp
      rw [same]
      exact System.LeadsBy.refl _ machine
  | cons pid pids induction =>
      rcases alive pid List.mem_cons_self with
        ⟨child, member, rfl, isAlive⟩
      rcases List.nodup_cons.mp once with ⟨notLater, onceLater⟩
      let next : Machine σ :=
        { machine with
          children :=
            replaceChild machine.children child.pid child.exited
          notices := machine.notices ++ [] }
      have found : findChild machine.children child.pid = some child :=
        find?_key_of_mem distinct member
      have stepped :
          (launchSystem environment pipeline shell).step machine
            (.child child.pid .exit) = some next := by
        show machineStep environment pipeline machine
          (.child child.pid .exit) = some next
        simp only [machineStep, found, childMove, isAlive, if_true,
          Option.map_some]
        rfl
      have distinctNext : (childPids next).Nodup := by
        have samePids : childPids next = childPids machine :=
          pids_replaceChild machine.children rfl
        rw [samePids]
        exact distinct
      have aliveNext :
          ∀ pid ∈ pids, ∃ child ∈ next.children,
            child.pid = pid ∧ child.phase.alive = true := by
        intro pid isPid
        rcases alive pid (List.mem_cons_of_mem _ isPid) with
          ⟨other, isOther, rfl, otherAlive⟩
        have different : other.pid ≠ child.pid := by
          intro same
          exact notLater (same ▸ isPid)
        exact ⟨other, List.mem_map.mpr ⟨other, isOther, if_neg different⟩,
          rfl, otherAlive⟩
      have later := induction onceLater distinctNext aliveNext
      have sameChildren :
          (next.children.map fun child =>
              if child.pid ∈ pids then child.exited else child) =
            machine.children.map fun other =>
              if other.pid ∈ child.pid :: pids then other.exited
              else other := by
        rw [show next.children = machine.children.map _ from rfl,
          List.map_map]
        apply List.map_congr_left
        intro other isOther
        rw [Function.comp_apply]
        by_cases same : other.pid = child.pid
        · have isChild : other = child :=
            List.inj_on_of_nodup_map distinct isOther member same
          subst isChild
          rw [if_pos rfl, if_pos List.mem_cons_self]
          exact if_neg notLater
        · rw [if_neg same]
          simp only [List.mem_cons, same, false_or]
      rw [sameChildren] at later
      have noNotices : machine.notices ++ [] = machine.notices :=
        List.append_nil _
      have arrived := (System.LeadsBy.step _ True.intro stepped).trans later
      simpa only [next, noNotices] using arrived

theorem press_leads
    (shell : Table σ) {scene : Scene σ}
    (distinct : (childPids scene.machine).Nodup) (key : Key) :
    (launchSystem environment pipeline shell).LeadsBy
      TerminalHandoff.Ordinary scene.machine (scene.press key).machine := by
  let pids :=
    (scene.machine.children.filter (scene.struck key.signal)).map Child.pid
  have once : pids.Nodup := distinct.sublist (List.filter_sublist.map _)
  have alive :
      ∀ pid ∈ pids, ∃ child ∈ scene.machine.children,
        child.pid = pid ∧ child.phase.alive = true := by
    intro pid isPid
    rcases List.mem_map.mp isPid with ⟨child, isStruck, samePid⟩
    rcases List.mem_filter.mp isStruck with ⟨member, struck⟩
    rw [Scene.struck, Scene.hits, Bool.and_eq_true, Bool.and_eq_true,
      Bool.and_eq_true] at struck
    exact ⟨child, member, samePid, struck.1.1.1⟩
  have ended := exits_lead environment pipeline shell once distinct alive
  have sameChildren :
      (scene.machine.children.map fun child =>
          if child.pid ∈ pids then child.exited else child) =
        scene.machine.children.map fun child =>
          if scene.struck key.signal child then child.exited else child := by
    apply List.map_congr_left
    intro child member
    have isStruck :
        child.pid ∈ pids ↔ scene.struck key.signal child = true := by
      constructor
      · intro isPid
        rcases List.mem_map.mp isPid with ⟨other, isOther, samePid⟩
        rcases List.mem_filter.mp isOther with ⟨isMember, struck⟩
        rw [← List.inj_on_of_nodup_map distinct isMember member samePid]
        exact struck
      · intro struck
        exact List.mem_map_of_mem (List.mem_filter.mpr ⟨member, struck⟩)
    simp only [isStruck]
  rw [sameChildren] at ended
  exact ended

/-! ## The dispositions of the children -/

/-- The dispositions of a child that no program of its own has changed. -/
def Expected (shell : Actions) (child : Child σ) (actions : Actions) :
    Prop :=
  match child.phase with
  | .grouping | .resetting => actions = shell
  | .configuring | .starting => actions = resetChildSignalHandlers shell
  | _ => True

theorem expected_of_childStep
    {shellGroup : Int} {children : List (Child σ)} {child moved : Child σ}
    {move : ChildMove} {notices : List Notice}
    (moves :
      ChildStep environment pipeline shellGroup children child move moved
        notices)
    {shell : Actions} {actions : Int → Actions}
    (expected : Expected shell child (actions child.pid)) :
    Expected shell moved
      (nextActions shell actions (.child child.pid move) moved.pid) := by
  unfold Expected at expected
  cases moves with
  | setGroup isGrouping succeeded =>
      rw [setpgid_ok succeeded]
      rw [isGrouping] at expected
      exact expected
  | setGroupFails isGrouping failed => exact True.intro
  | resetSignals isResetting =>
      rw [isResetting] at expected
      show Function.update actions child.pid _ child.pid = _
      rw [Function.update_self, expected]
  | configure isConfiguring configured =>
      rw [isConfiguring] at expected
      exact expected
  | configureFails isConfiguring failed => exact True.intro
  | exec isStarting execs => exact True.intro
  | exit isAlive => exact True.intro
  | regroup isRunning succeeded =>
      rw [setpgid_ok succeeded, Expected]
      dsimp only
      rw [isRunning]
      exact True.intro
  | regroupFails isRunning failed =>
      rw [Expected, isRunning]
      exact True.intro

/-- A label touches the dispositions of the process it is about. -/
theorem nextActions_of_ne
    (shell : Actions) (actions : Int → Actions) {pid other : Int}
    (different : other ≠ pid) (move : ChildMove) :
    nextActions shell actions (.child pid move) other = actions other := by
  cases move with
  | resetSignals | exec => exact Function.update_of_ne different ..
  | setGroup | configure | exit | regroup => rfl

theorem expected_of_step
    {machine next : Machine σ} {label : Label}
    (stepped : Step environment pipeline machine label next)
    {shell : Actions} {actions : Int → Actions}
    (expected :
      ∀ child ∈ machine.children,
        Expected shell child (actions child.pid)) :
    ∀ child ∈ next.children,
      Expected shell child (nextActions shell actions label child.pid) := by
  cases stepped with
  | fork isForking found nonempty unused =>
      rename_i index command pid
      intro child member
      rcases List.mem_append.mp member with isOld | isNew
      · have different : child.pid ≠ pid := by
          rintro rfl
          exact unused.noProcess (List.mem_map_of_mem isOld)
        have kept :
            nextActions shell actions (.fork (some pid)) child.pid =
              actions child.pid :=
          Function.update_of_ne different ..
        rw [kept]
        exact expected child isOld
      · rw [List.mem_singleton.mp isNew]
        show Function.update actions pid shell pid = shell
        exact Function.update_self ..
  | assignGroup isGrouping =>
      rename_i index pid
      intro child member
      change child ∈ (machine.moveChild pid (machine.leader pid)).children
        at member
      rcases moveChild_cases machine pid (machine.leader pid) with
        ⟨notices, same⟩ | ⟨old, isOld, rfl, changed⟩
      · rw [same] at member
        exact expected child member
      · rw [changed] at member
        rcases mem_replaceChild member with rfl | ⟨isOther, -⟩
        · exact expected old isOld
        · exact expected child isOther
  | waitChild isWaiting found isOld inGroup reports =>
      intro child member
      dsimp only at member
      split at member
      · rcases mem_replaceChild member with rfl | ⟨isOther, -⟩
        · exact True.intro
        · exact expected child isOther
      · exact expected child member
  | child isOld moves =>
      rename_i old moved move notices
      intro child member
      rcases mem_replaceChild member with rfl | ⟨isOther, different⟩
      · exact expected_of_childStep moves (expected old isOld)
      · rw [nextActions_of_ne shell actions different]
        exact expected child isOther
  | _ => exact expected

/-! ## Whole runs -/

/-- Every step keeps the pids of the children distinct. -/
theorem step_distinct
    {machine next : Machine σ} {label : Label}
    (stepped : Step environment pipeline machine label next)
    (distinct : (childPids machine).Nodup) :
    (childPids next).Nodup := by
  have replaced :
      ∀ {child changed : Child σ}, changed.pid = child.pid →
        ((replaceChild machine.children child.pid changed).map
          Child.pid).Nodup := by
    intro child changed samePid
    rw [pids_replaceChild machine.children samePid]
    exact distinct
  cases stepped with
  | fork isForking found nonempty unused =>
      rw [childPids, List.map_append, List.map_singleton]
      exact distinct.append (List.nodup_singleton _)
        (List.disjoint_singleton.mpr unused.noProcess)
  | assignGroup isGrouping =>
      rename_i index pid
      show ((machine.moveChild pid (machine.leader pid)).children.map
        Child.pid).Nodup
      rcases moveChild_cases machine pid (machine.leader pid) with
        ⟨notices, same⟩ | ⟨old, isOld, rfl, changed⟩
      · rw [same]
        exact distinct
      · rw [changed]
        exact replaced rfl
  | waitChild isWaiting found isOld inGroup reports =>
      dsimp only [childPids]
      split
      · exact replaced rfl
      · exact distinct
  | child isOld moves => exact replaced (childStep_fixed moves).1
  | _ => exact distinct

variable (inherited) in
/-- What holds after every event. -/
structure Disposed (scene : Scene σ) : Prop where
  isShell : scene.shell = shellActions true inherited
  distinct : (childPids scene.machine).Nodup
  expected :
    ∀ child ∈ scene.machine.children,
      Expected scene.shell child (scene.actions child.pid)
  unharmed :
    ∀ effect ∈ scene.felt,
      effect = .nothing ∨ effect = .runs .handlePromptSigint

section Disposed

variable {scene next : Scene σ} (disposed : Disposed inherited scene)

include disposed

theorem Disposed.launch
    {label : Label} {machine : Machine σ}
    (stepped :
      machineStep environment pipeline scene.machine label =
        some machine) :
    Disposed inherited
      { scene with
        machine := machine
        actions := nextActions scene.shell scene.actions label } where
  isShell := disposed.isShell
  distinct :=
    step_distinct (step_of_launchStep stepped) disposed.distinct
  expected :=
    expected_of_step (step_of_launchStep stepped) disposed.expected
  unharmed := disposed.unharmed

theorem Disposed.install
    {child : Child σ} {pid : Int}
    (found : findChild scene.machine.children pid = some child)
    (isRunning : child.phase = .running) (actions : Actions) :
    Disposed inherited
      { scene with
        actions := Function.update scene.actions pid actions } where
  isShell := disposed.isShell
  distinct := disposed.distinct
  expected := by
    intro other member
    rcases findChild_mem found with ⟨isChild, rfl⟩
    by_cases same : other.pid = child.pid
    · have isSame : other = child :=
        List.inj_on_of_nodup_map disposed.distinct member isChild same
      rw [isSame, Expected, isRunning]
      exact True.intro
    · show Expected scene.shell other
        (Function.update scene.actions child.pid actions other.pid)
      rw [Function.update_of_ne same]
      exact disposed.expected other member
  unharmed := disposed.unharmed

theorem Disposed.press (key : Key) :
    Disposed inherited (scene.press key) where
  isShell := disposed.isShell
  distinct := by
    have samePids :
        childPids (scene.press key).machine = childPids scene.machine := by
      show (scene.machine.children.map _).map Child.pid = _
      rw [List.map_map]
      apply List.map_congr_left
      intro child _
      rw [Function.comp_apply]
      split <;> rfl
    rw [samePids]
    exact disposed.distinct
  expected := by
    intro child member
    rcases List.mem_map.mp member with ⟨old, isOld, rfl⟩
    split
    · exact True.intro
    · exact disposed.expected old isOld
  unharmed := by
    have isTerminal : key.signal ∈ terminalSignals := by
      cases key <;> decide
    have harmless :
        effect scene.shell key.signal = .nothing ∨
          effect scene.shell key.signal = .runs .handlePromptSigint := by
      rw [disposed.isShell, effect_shellActions inherited isTerminal]
      split
      · exact Or.inr rfl
      · exact Or.inl rfl
    intro felt isFelt
    simp only [Scene.press] at isFelt
    split at isFelt
    · rcases List.mem_append.mp isFelt with isOld | isNew
      · exact disposed.unharmed felt isOld
      · rw [List.mem_singleton.mp isNew]
        exact harmless
    · exact disposed.unharmed felt isFelt

end Disposed

/-- Everything an event can do to the launch. -/
inductive Moved (environment : Environment) (pipeline : Pipeline)
    (scene : Scene σ) : Event → Scene σ → Prop where
  | launch {label : Label} {machine : Machine σ}
      (stepped :
        machineStep environment pipeline scene.machine label =
          some machine) :
      Moved environment pipeline scene (.launch label)
        { scene with
          machine := machine
          actions := nextActions scene.shell scene.actions label }
  | install {pid : Int} {signal : Signal} {disposition : Disposition}
      {child : Child σ}
      (found : findChild scene.machine.children pid = some child)
      (isRunning : child.phase = .running) :
      Moved environment pipeline scene (.install pid signal disposition)
        { scene with
          actions :=
            Function.update scene.actions pid
              (installHandler (scene.actions pid) signal disposition) }
  | press (key : Key) :
      Moved environment pipeline scene (.press key) (scene.press key)
  | mark {event : Event} (stopped : Int → Bool) :
      Moved environment pipeline scene event
        { scene with stopped := stopped }
  | fall {pid : Int} {machine : Machine σ} {stopped : Int → Bool}
      (stepped :
        machineStep environment pipeline scene.machine (.child pid .exit) =
          some machine) :
      Moved environment pipeline scene (.resume pid)
        { scene with machine := machine, stopped := stopped }

theorem moved_of_sceneStep
    {scene next : Scene σ} {event : Event}
    (stepped : sceneStep environment pipeline scene event = some next) :
    Moved environment pipeline scene event next := by
  cases event with
  | launch label =>
      simp only [sceneStep, Option.ite_none_left_eq_some] at stepped
      rcases Option.map_eq_some_iff.mp stepped.2 with ⟨machine, moved, rfl⟩
      exact .launch moved
  | install pid signal disposition =>
      simp only [sceneStep] at stepped
      split at stepped
      · cases stepped
      · rename_i child found
        rcases Option.ite_none_right_eq_some.mp stepped with
          ⟨⟨isRunning, -⟩, ⟨⟩⟩
        exact .install found isRunning
  | press key =>
      cases stepped
      exact .press key
  | stop pid =>
      simp only [sceneStep] at stepped
      split at stepped
      · cases stepped
      · rcases Option.ite_none_right_eq_some.mp stepped with ⟨-, ⟨⟩⟩
        exact .mark _
  | resume pid =>
      simp only [sceneStep, Option.ite_none_left_eq_some] at stepped
      rcases stepped with ⟨-, resumed⟩
      split at resumed
      · rcases Option.map_eq_some_iff.mp resumed with ⟨machine, moved, rfl⟩
        exact .fall moved
      · cases resumed
        exact .mark _

theorem Disposed.step
    {scene next : Scene σ} {event : Event}
    (disposed : Disposed inherited scene)
    (moved : Moved environment pipeline scene event next) :
    Disposed inherited next := by
  cases moved with
  | launch stepped => exact disposed.launch stepped
  | install found isRunning => exact disposed.install found isRunning _
  | press key => exact disposed.press key
  | mark stopped =>
      exact ⟨disposed.isShell, disposed.distinct, disposed.expected,
        disposed.unharmed⟩
  | fall stepped =>
      have exited := disposed.launch stepped
      exact ⟨exited.isShell, exited.distinct, exited.expected,
        exited.unharmed⟩

theorem disposed_initial
    {start : Scene σ}
    (isInitial :
      (scenes environment pipeline shell inherited).initial start) :
    Disposed inherited start := by
  rcases isInitial with ⟨atPrompt, isShell, -, -, nothingFelt⟩
  have nobody := atPrompt.initial.2.children
  refine ⟨isShell, ?_, ?_, ?_⟩
  · rw [childPids, nobody]
    exact List.nodup_nil
  · rw [nobody]
    exact List.forall_mem_nil _
  · rw [nothingFelt]
    exact List.forall_mem_nil _

variable (environment pipeline shell inherited) in
/-- What holds after every ordinary event. -/
structure Watched (start : Machine σ) (scene : Scene σ) : Prop extends
    Disposed inherited scene where
  reached : Reached environment pipeline shell start scene.machine

theorem reached_of_leadsBy
    {start machine next : Machine σ}
    (reached : Reached environment pipeline shell start machine)
    (leads :
      (launchSystem environment pipeline shell).LeadsBy
        TerminalHandoff.Ordinary machine next) :
    Reached environment pipeline shell start next :=
  System.LeadsBy.trans reached leads

section Watched

variable {start : Machine σ} {scene next : Scene σ}
variable (watched : Watched environment pipeline shell inherited start scene)

include watched

theorem Watched.press (key : Key) :
    Watched environment pipeline shell inherited start (scene.press key) where
  toDisposed := watched.toDisposed.press key
  reached :=
    reached_of_leadsBy watched.reached
      (press_leads shell watched.distinct key)

theorem Watched.step
    {event : Event} (ordinary : event.Ordinary)
    (stepped : sceneStep environment pipeline scene event = some next) :
    Watched environment pipeline shell inherited start next := by
  have moved := moved_of_sceneStep stepped
  refine ⟨watched.toDisposed.step moved, ?_⟩
  cases moved with
  | launch launched => exact watched.reached.step _ ordinary launched
  | install | mark => exact watched.reached
  | press key => exact (watched.press key).reached
  | fall exited =>
      exact watched.reached.step (.child _ .exit) True.intro exited

end Watched

/--
In every run, with keys pressed and children stopped and continued at any time,
whatever programs do with their groups: a program starts with the default
dispositions for the signals whose dispositions the shell has changed, and with
those for all other signals that the shell itself was started with.
-/
theorem programs_start_with_default_signals
    {start scene next : Scene σ} {events : List Event} {pid : Int}
    (fresh : Fresh inherited)
    (isInitial :
      (scenes environment pipeline shell inherited).initial start)
    (ran :
      (scenes environment pipeline shell inherited).run start events =
        some scene)
    (execs :
      (scenes environment pipeline shell inherited).step scene
        (.launch (.child pid .exec)) = some next) :
    next.actions pid = programActions inherited := by
  have disposed : Disposed inherited scene :=
    System.run_preserves (Disposed inherited)
      (fun disposed stepped => disposed.step (moved_of_sceneStep stepped))
      (disposed_initial isInitial) ran
  rcases Option.ite_none_left_eq_some.mp execs with ⟨-, executed⟩
  rcases Option.map_eq_some_iff.mp executed with ⟨machine, stepped, rfl⟩
  show Function.update scene.actions pid _ pid = _
  rw [Function.update_self]
  cases step_of_launchStep stepped with
  | child member moves =>
      rename_i child moved notices
      cases moves with
      | exec isStarting reaches =>
          have expected := disposed.expected child member
          rw [Expected, isStarting] at expected
          rw [expected, disposed.isShell]
          exact execActions_reset fresh true

/-- Somebody has started the shell with the signal 1 ignored. -/
def sampleInherited : Actions := fun signal =>
  if signal = .other 1 then .ignored else .default

def sampleScene : Scene ℕ where
  machine := sampleStart
  shell := shellActions true sampleInherited
  actions := fun _ => sampleInherited

theorem sampleScene_initial :
    (scenes sampleEnvironment catPipeline sampleShell
      sampleInherited).initial sampleScene :=
  ⟨sampleStart_atPrompt, rfl, rfl, rfl, rfl⟩

/-- A key is pressed in front of the fork. -/
theorem programs_start_with_default_signals_sample :
    ∃ scene next,
      (scenes sampleEnvironment catPipeline sampleShell
          sampleInherited).run sampleScene
          (.press .interrupt :: earlyStart.map .launch) = some scene ∧
        (scenes sampleEnvironment catPipeline sampleShell
          sampleInherited).step scene (.launch (.child 10 .exec)) =
          some next ∧
        next.actions 10 .sigint = .default ∧
        next.actions 10 (.other 1) = .ignored := by
  have executed :
      (((scenes sampleEnvironment catPipeline sampleShell
          sampleInherited).run sampleScene
          (.press .interrupt :: earlyStart.map .launch)).bind
        fun scene =>
          (scenes sampleEnvironment catPipeline sampleShell
            sampleInherited).step scene
              (.launch (.child 10 .exec))).isSome = true := by
    decide +kernel
  rcases Option.isSome_iff_exists.mp executed with ⟨next, arrived⟩
  rcases Option.bind_eq_some_iff.mp arrived with ⟨scene, ran, execs⟩
  have fresh : Fresh sampleInherited := by
    intro signal handler
    unfold sampleInherited
    split <;> nofun
  have starts :=
    programs_start_with_default_signals fresh sampleScene_initial ran execs
  refine ⟨scene, next, ran, execs, ?_, ?_⟩
  · rw [starts]
    rfl
  · rw [starts]
    rfl

end Shell.Signals
