import Shell.Builtins.Dispatch
import Shell.JobControl.TableInvariant

/-!
# Commands that the shell runs itself

`execute_parent_builtin` and `execute_job_builtin`.  The shell opens the files
of the redirections for itself, gives the descriptors to the command, and
closes them again: the owners go out of scope on every way out, in the reverse
order of their declaration.  It never duplicates a descriptor, so that its own
standard streams stay where they are.
-/

namespace Shell.ParentBuiltins

open Shell.Syntax
open Shell.DescriptorTable
open Shell.Descriptors
open Shell.JobOperations
open Shell.LaunchMachine
open Shell.ShellHistory
open Shell.BuiltinDispatch

/-! ## The state of the shell -/

/-- The shell between two commands. -/
structure ShellState (σ δ : Type*) where
  group : Int
  table : Table (Description σ)
  session : Session
  process : Process δ
  /-- What the shell has written itself, and where the descriptor led. -/
  written : List (Option (Description σ) × ByteString) := []
  notices : List Notice := []

/-- The answers to the calls of one `execute_parent_builtin`. -/
structure ParentAnswers (δ : Type*) where
  opens : OpenAnswers := {}
  surroundings : Surroundings δ
  rounds : Nat := 1
  reap : ReapAnswers
  waits : WaitAnswers
  continues : Bool := true

variable {σ δ : Type*}

/-- `UniqueFd::get`. -/
def descriptorNumber (fd : UniqueFd) : Int :=
  match fd with
  | none => -1
  | some fd => fd

namespace ShellState

def setHistory (shell : ShellState σ δ) (history : History) :
    ShellState σ δ :=
  { shell with process := { shell.process with history := history } }

/-- What `open` does to the file. -/
def touch (shell : ShellState σ δ) (file : Description σ) :
    ShellState σ δ :=
  let history := shell.process.history
  match file with
  | .file path .truncate => shell.setHistory (history.store path [])
  | .file path .append =>
      shell.setHistory
        (history.store path ((history.disk.content path).getD []))
  | _ => shell

/-- What the opening of a redirection does to the file. -/
def touchIf (redirected : Bool) (file : Description σ)
    (shell : ShellState σ δ) : ShellState σ δ :=
  if redirected then shell.touch file else shell

/-- What the calls of `open` for the three redirections do to the files, up to
the first call that fails. -/
def touchOpened (opens : OpenAnswers) (command : Command)
    (shell : ShellState σ δ) : ShellState σ δ :=
  if command.hasInputRedirect && !opens.input then shell
  else
    let shell := shell.touchIf command.hasInputRedirect (inputFile command)
    if command.hasOutputRedirect && !opens.output then shell
    else
      let shell :=
        shell.touchIf command.hasOutputRedirect (outputFile command)
      if command.hasErrorRedirect && !opens.error then shell
      else shell.touchIf command.hasErrorRedirect (errorFile command)

/-- `write_all`; the text of a file grows at its end. -/
def write (shell : ShellState σ δ) (fd : UniqueFd) (text : ByteString) :
    ShellState σ δ :=
  let target := fd.bind shell.table.lookup
  let shell := { shell with written := shell.written ++ [(target, text)] }
  let history := shell.process.history
  match target with
  | some (.file path _) =>
      shell.setHistory
        (history.store path ((history.disk.content path).getD [] ++ text))
  | _ => shell

/-- The texts of a command, each to its descriptor. -/
def deliver (shell : ShellState σ δ) (outputFd errorFd : UniqueFd)
    (texts : List Written) : ShellState σ δ :=
  texts.foldl
    (fun shell written =>
      match written.stream with
      | .output => shell.write outputFd written.text
      | .error => shell.write errorFd written.text)
    shell

/-- The destructors of owners. -/
def destroy (shell : ShellState σ δ) (owners : List UniqueFd) :
    ShellState σ δ :=
  { shell with
    table := owners.foldl (fun table owner => reset owner table) shell.table }

end ShellState

/-! ## Running a command -/

/-- `execute_job_builtin`: the status, and the text that is written besides the
messages of the session. -/
def executeJobBuiltin (answers : ParentAnswers δ) (command : Command)
    (outputFd errorFd : UniqueFd) (session : Session) :
    Option (Int × Session × List Written) :=
  let name := command.args.headD []
  let spec := command.args.tail.headD []
  let output := descriptorNumber outputFd
  let error := descriptorNumber errorFd
  if name = literal "jobs" then
    (reapBackground answers.reap false session).map fun session =>
      (0, session, [⟨.output, renderJobs session.control⟩])
  else if name = literal "fg" then
    (foreground answers.reap answers.waits spec output error session).map
      fun done => (done.1, done.2, [])
  else if name = literal "bg" then
    (continueBackground answers.reap answers.continues spec output error
      session).map fun done => (done.1, done.2, [])
  else
    some (1, session, [])

/-- `execute_parent_builtin` behind the redirections. -/
def runParentBuiltin (answers : ParentAnswers δ) (command : Command)
    (outputFd errorFd : UniqueFd) (shell : ShellState σ δ) :
    Option (ExecutionResult × ShellState σ δ) :=
  if isJobBuiltin (command.args.headD []) then
    (executeJobBuiltin answers command outputFd errorFd shell.session).map
      fun done =>
        ({ status := done.1 },
          { shell with session := done.2.1 }.deliver outputFd errorFd
            done.2.2)
  else
    (executeBuiltin answers.surroundings answers.rounds command .parentShell
        shell.process).map fun reply =>
      (⟨reply.result.exitRequested, reply.result.exitCode,
          reply.result.status⟩,
        { shell with process := reply.process }.deliver outputFd errorFd
          reply.written)

/-- One of the three blocks of `execute_parent_builtin` that open a file. -/
def openStream (redirected opens : Bool) (file : Description σ)
    (failure : ConfigureFailure) (otherwise : ℕ) (shell : ShellState σ δ) :
    Except ConfigureFailure (Chosen σ × ShellState σ δ) :=
  (chooseStream redirected opens file failure (some otherwise)
      shell.table).map fun chosen =>
    (chosen,
      { shell.touchIf redirected file with table := chosen.table })

/-- A redirection that fails: the message, the destructors and the status. -/
def failOpening (failure : ConfigureFailure) (owners : List UniqueFd)
    (shell : ShellState σ δ) : ExecutionResult × ShellState σ δ :=
  ({ status := 1 }, (shell.write (some 2) failure.text).destroy owners)

/-- `execute_parent_builtin`. -/
def executeParentBuiltin (answers : ParentAnswers δ) (command : Command)
    (shell : ShellState σ δ) : Option (ExecutionResult × ShellState σ δ) :=
  match openStream command.hasInputRedirect answers.opens.input
      (inputFile command) .inputFile 0 shell with
  | .error failure => some (failOpening failure [] shell)
  | .ok (input, shell) =>
      match openStream command.hasOutputRedirect answers.opens.output
          (outputFile command) .outputFile 1 shell with
      | .error failure => some (failOpening failure [input.owned] shell)
      | .ok (output, shell) =>
          match openStream command.hasErrorRedirect answers.opens.error
              (errorFile command) .errorFile 2 shell with
          | .error failure =>
              some (failOpening failure [output.owned, input.owned] shell)
          | .ok (error, shell) =>
              (runParentBuiltin answers command output.source error.source
                  shell).map fun done =>
                (done.1,
                  done.2.destroy [error.owned, output.owned, input.owned])

/-! ## What stays as it is -/

/-- Nothing of a history has changed but the contents of some files. -/
structure OnlyFiles (changed : ByteString → Prop) (history next : History) :
    Prop where
  entries : next.entries = history.entries
  histfilePath : next.histfilePath = history.histfilePath
  saved : next.persistedHistoryLength = history.persistedHistoryLength
  writable : next.disk.writable = history.disk.writable
  content :
    ∀ path, ¬ changed path →
      next.disk.content path = history.disk.content path

section Files

variable {changed : ByteString → Prop} {history middle next : History}

theorem OnlyFiles.refl (changed : ByteString → Prop) (history : History) :
    OnlyFiles changed history history :=
  ⟨rfl, rfl, rfl, rfl, fun _ _ => rfl⟩

theorem OnlyFiles.trans
    (first : OnlyFiles changed history middle)
    (second : OnlyFiles changed middle next) :
    OnlyFiles changed history next where
  entries := second.entries.trans first.entries
  histfilePath := second.histfilePath.trans first.histfilePath
  saved := second.saved.trans first.saved
  writable := second.writable.trans first.writable
  content path same :=
    (second.content path same).trans (first.content path same)

theorem onlyFiles_store (history : History) {path : ByteString}
    (isChanged : changed path) (content : ByteString) :
    OnlyFiles changed history (history.store path content) where
  entries := rfl
  histfilePath := rfl
  saved := rfl
  writable := rfl
  content other same := by
    apply Function.update_of_ne
    rintro rfl
    exact same isChanged

end Files

/-- Nothing of the shell has changed but descriptors, texts and files. -/
structure Unmoved (changed : ByteString → Prop)
    (shell next : ShellState σ δ) : Prop where
  group : next.group = shell.group
  session : next.session = shell.session
  directory : next.process.directory = shell.process.directory
  notices : next.notices = shell.notices
  files : OnlyFiles changed shell.process.history next.process.history

section Frames

variable {changed : ByteString → Prop} {shell middle next : ShellState σ δ}

theorem Unmoved.refl (changed : ByteString → Prop)
    (shell : ShellState σ δ) : Unmoved changed shell shell :=
  ⟨rfl, rfl, rfl, rfl, .refl changed _⟩

theorem Unmoved.trans
    (first : Unmoved changed shell middle)
    (second : Unmoved changed middle next) :
    Unmoved changed shell next :=
  ⟨second.group.trans first.group, second.session.trans first.session,
    second.directory.trans first.directory,
    second.notices.trans first.notices, first.files.trans second.files⟩

theorem touch_unmoved (shell : ShellState σ δ) {file : Description σ}
    (isChanged :
      ∀ path mode, file = .file path mode → mode ≠ .readOnly →
        changed path) :
    Unmoved changed shell (shell.touch file) := by
  unfold ShellState.touch
  dsimp only
  split
  · exact ⟨rfl, rfl, rfl, rfl,
      onlyFiles_store _ (isChanged _ _ rfl nofun) _⟩
  · exact ⟨rfl, rfl, rfl, rfl,
      onlyFiles_store _ (isChanged _ _ rfl nofun) _⟩
  · exact .refl changed shell

@[simp]
theorem touch_table (shell : ShellState σ δ) (file : Description σ) :
    (shell.touch file).table = shell.table := by
  unfold ShellState.touch
  dsimp only
  split <;> rfl

@[simp]
theorem touch_written (shell : ShellState σ δ) (file : Description σ) :
    (shell.touch file).written = shell.written := by
  unfold ShellState.touch
  dsimp only
  split <;> rfl

theorem touchIf_unmoved (shell : ShellState σ δ) {redirected : Bool}
    {file : Description σ}
    (isChanged :
      redirected = true → ∀ path mode, file = .file path mode →
        mode ≠ .readOnly → changed path) :
    Unmoved changed shell (shell.touchIf redirected file) := by
  cases redirected with
  | true => exact touch_unmoved shell (isChanged rfl)
  | false => exact .refl changed shell

@[simp]
theorem touchIf_written (shell : ShellState σ δ) (redirected : Bool)
    (file : Description σ) :
    (shell.touchIf redirected file).written = shell.written := by
  cases redirected with
  | true => exact touch_written shell file
  | false => rfl

/-- The files are those of the process, wherever its descriptors lead. -/
theorem touchIf_process
    {shell other : ShellState σ δ} (same : shell.process = other.process)
    (redirected : Bool) (file : Description σ) :
    (shell.touchIf redirected file).process =
      (other.touchIf redirected file).process := by
  cases redirected with
  | false => exact same
  | true =>
      show (shell.touch file).process = (other.touch file).process
      unfold ShellState.touch ShellState.setHistory
      dsimp only
      split
      · rw [same]
      · rw [same]
      · exact same

theorem write_unmoved (shell : ShellState σ δ) {fd : UniqueFd}
    (isChanged :
      ∀ path mode,
        fd.bind shell.table.lookup = some (.file path mode) → changed path)
    (text : ByteString) :
    Unmoved changed shell (shell.write fd text) := by
  unfold ShellState.write
  dsimp only
  split
  · exact ⟨rfl, rfl, rfl, rfl, onlyFiles_store _ (isChanged _ _ ‹_›) _⟩
  · exact ⟨rfl, rfl, rfl, rfl, .refl changed _⟩

theorem write_process_of_no_file {shell : ShellState σ δ} {fd : UniqueFd}
    (noFile :
      ∀ path mode, fd.bind shell.table.lookup ≠ some (.file path mode))
    (text : ByteString) :
    (shell.write fd text).process = shell.process := by
  unfold ShellState.write
  dsimp only
  split
  · exact absurd ‹_› (noFile _ _)
  · rfl

/-- None of the descriptors that the shell was started with is one of its own
files. -/
theorem lookup_ne_file {base : Table σ} {table : Table (Description σ)}
    (inherited : table = base.map .inherited) (fd : ℕ) (path : ByteString)
    (mode : OpenMode) : table.lookup fd ≠ some (.file path mode) := by
  intro isFile
  rw [inherited, Table.lookup_map] at isFile
  rcases Option.map_eq_some_iff.mp isFile with ⟨_, -, ⟨⟩⟩

/-- What is written to a descriptor that the shell was started with changes no
file. -/
theorem write_process {base : Table σ} {shell : ShellState σ δ}
    (inherited : shell.table = base.map .inherited) (fd : UniqueFd)
    (text : ByteString) :
    (shell.write fd text).process = shell.process := by
  apply write_process_of_no_file
  intro path mode isFile
  rcases Option.bind_eq_some_iff.mp isFile with ⟨number, -, found⟩
  exact lookup_ne_file inherited number path mode found

@[simp]
theorem write_entries (shell : ShellState σ δ) (fd : UniqueFd)
    (text : ByteString) :
    (shell.write fd text).process.history.entries =
      shell.process.history.entries := by
  unfold ShellState.write
  dsimp only
  split <;> rfl

@[simp]
theorem write_table (shell : ShellState σ δ) (fd : UniqueFd)
    (text : ByteString) : (shell.write fd text).table = shell.table := by
  unfold ShellState.write
  dsimp only
  split <;> rfl

@[simp]
theorem write_written (shell : ShellState σ δ) (fd : UniqueFd)
    (text : ByteString) :
    (shell.write fd text).written =
      shell.written ++ [(fd.bind shell.table.lookup, text)] := by
  unfold ShellState.write
  dsimp only
  split <;> rfl

@[simp]
theorem deliver_table (shell : ShellState σ δ) (outputFd errorFd : UniqueFd)
    (texts : List Written) :
    (shell.deliver outputFd errorFd texts).table = shell.table := by
  induction texts generalizing shell with
  | nil => rfl
  | cons written texts induction =>
      rcases written with ⟨stream, text⟩
      cases stream with
      | output => exact (induction _).trans (write_table shell outputFd text)
      | error => exact (induction _).trans (write_table shell errorFd text)

theorem deliver_unmoved (shell : ShellState σ δ) {outputFd errorFd : UniqueFd}
    (isChanged :
      ∀ fd, fd = outputFd ∨ fd = errorFd → ∀ path mode,
        fd.bind shell.table.lookup = some (.file path mode) → changed path)
    (texts : List Written) :
    Unmoved changed shell (shell.deliver outputFd errorFd texts) := by
  induction texts generalizing shell with
  | nil => exact .refl changed shell
  | cons written texts induction =>
      rcases written with ⟨stream, text⟩
      have later :
          ∀ fd, fd = outputFd ∨ fd = errorFd →
            Unmoved changed shell
              ((shell.write fd text).deliver outputFd errorFd texts) := by
        intro fd isFd
        apply (write_unmoved shell (isChanged fd isFd) text).trans
        apply induction
        rw [write_table]
        exact isChanged
      cases stream with
      | output => exact later outputFd (Or.inl rfl)
      | error => exact later errorFd (Or.inr rfl)

end Frames

/-! ## The owners -/

/-- Destructors close what their owners hold. -/
theorem destroy_table (shell : ShellState σ δ) (owners : List UniqueFd) :
    (shell.destroy owners).table =
      shell.table.closeAll (owners.flatMap Option.toList) := by
  unfold ShellState.destroy
  generalize shell.table = table
  dsimp only
  induction owners generalizing table with
  | nil => rfl
  | cons owner owners induction =>
      rw [List.foldl_cons, induction, List.flatMap_cons,
        Table.closeAll_append, reset_eq_closeAll]

/-- The order in which held descriptors are closed does not matter. -/
theorem destroy_lease
    {base : Table (Description σ)} {shell : ShellState σ δ}
    {held : List (ℕ × Description σ)} (lease : Lease base shell.table held)
    {owners : List UniqueFd}
    (owned :
      ∀ fd, fd ∈ owners.flatMap Option.toList ↔ fd ∈ held.map Prod.fst) :
    (shell.destroy owners).table = base := by
  rw [destroy_table]
  ext1
  funext fd
  rw [Table.lookup_closeAll]
  simp only [owned]
  exact lease.lookup_without fd

/-- The files that the redirections of a command may write. -/
def Redirects (command : Command) (path : ByteString) : Prop :=
  command.hasOutputRedirect = true ∧ path = command.outputFile ∨
    command.hasErrorRedirect = true ∧ path = command.errorFile

section Streams

variable {base : Table (Description σ)} {shell : ShellState σ δ}
  {held : List (ℕ × Description σ)} {stream : ℕ}

/-- A block has chosen a descriptor for its stream, and so has the block of
`configure_child_io` for the same stream. -/
structure StreamOpened (base : Table (Description σ))
    (shell : ShellState σ δ) (held : List (ℕ × Description σ)) (stream : ℕ)
    (redirected opens : Bool) (file : Description σ)
    (failure : ConfigureFailure) (changed : ByteString → Prop)
    (chosen : Chosen σ) (next : ShellState σ δ) (source : ℕ)
    (opened : List (ℕ × Description σ)) : Prop where
  parent :
    openStream redirected opens file failure stream shell =
      .ok (chosen, next)
  child :
    chooseStream redirected opens file failure (some stream) shell.table =
      .ok chosen
  chooses :
    Chooses base shell.table held stream
      (if redirected then some file else base.lookup stream) chosen source
      opened
  table : next.table = chosen.table
  written : next.written = shell.written
  process : next.process = (shell.touchIf redirected file).process
  unmoved : Unmoved changed shell next

theorem StreamOpened.lease
    {redirected opens : Bool} {file : Description σ}
    {failure : ConfigureFailure} {changed : ByteString → Prop}
    {chosen : Chosen σ} {next : ShellState σ δ} {source : ℕ}
    {opened : List (ℕ × Description σ)}
    (block :
      StreamOpened base shell held stream redirected opens file failure
        changed chosen next source opened) :
    Lease base next.table (held ++ opened) := by
  rw [block.table]
  exact block.chooses.lease

/-- A block that opens a file, next to the block of `configure_child_io` for
the same stream. -/
theorem openStream_cases
    (lease : Lease base shell.table held)
    (isOpen : base.lookup stream ≠ none) (redirected opens : Bool)
    (file : Description σ) (failure : ConfigureFailure)
    {changed : ByteString → Prop}
    (isChanged :
      redirected = true → ∀ path mode, file = .file path mode →
        mode ≠ .readOnly → changed path) :
    (redirected && !opens) = true ∧
        openStream redirected opens file failure stream shell =
          .error failure ∧
        chooseStream redirected opens file failure (some stream)
          shell.table = .error failure ∨
      (redirected && !opens) = false ∧
        ∃ chosen next source opened,
          StreamOpened base shell held stream redirected opens file failure
            changed chosen next source opened := by
  cases refused : redirected && !opens with
  | true =>
      rw [Bool.and_eq_true, Bool.not_eq_true'] at refused
      have failed :
          chooseStream redirected opens file failure (some stream)
            shell.table = .error failure := by
        rw [chooseStream, if_pos refused.1, refused.2,
          if_neg Bool.false_ne_true]
      refine Or.inl ⟨rfl, ?_, failed⟩
      rw [openStream, failed]
      rfl
  | false =>
      have succeeds : redirected = true → opens = true := by
        rintro rfl
        simpa using refused
      rcases chooseStream_chooses lease succeeds file failure
          (lease.lookup_of_open isOpen) isOpen
          (Or.inl rfl : stream = stream ∨ _) with
        ⟨chosen, source, opened, chose, chooses⟩
      have touched := touchIf_unmoved shell isChanged
      refine Or.inr ⟨rfl, chosen,
        { shell.touchIf redirected file with table := chosen.table },
        source, opened, ?_, chose, chooses, rfl,
        touchIf_written shell redirected file, rfl,
        ⟨touched.group, touched.session, touched.directory,
          touched.notices, touched.files⟩⟩
      rw [openStream, chose]
      rfl

end Streams

/-! ## The redirections of the shell and of a child -/

/-- `execute_parent_builtin` has opened the redirections of a command and is
about to run it with these descriptors. -/
structure Prepared (opens : OpenAnswers) (command : Command)
    (shell : ShellState σ δ) (childTable : Table (Description σ))
    (outputFd errorFd : ℕ) (ready : ShellState σ δ) : Prop where
  unmoved : Unmoved (Redirects command) shell ready
  written : ready.written = shell.written
  process : ready.process = (shell.touchOpened opens command).process
  output : ready.table.lookup outputFd = childTable.lookup 1
  error : ready.table.lookup errorFd = childTable.lookup 2
  keeps :
    ∀ fd, shell.table.lookup fd ≠ none →
      ready.table.lookup fd = shell.table.lookup fd

/-- `execute_parent_builtin` has given up. -/
structure GaveUp (opens : OpenAnswers) (command : Command)
    (failure : ConfigureFailure) (shell next : ShellState σ δ) : Prop where
  unmoved : Unmoved (Redirects command) shell next
  table : next.table = shell.table
  written :
    next.written =
      shell.written ++ [(shell.table.lookup 2, failure.text)]
  process : next.process = (shell.touchOpened opens command).process

section Redirections

variable {command : Command} {shell middle : ShellState σ δ}
  {held : List (ℕ × Description σ)}

/-- The message of a failed redirection goes where the shell's own messages
go, unless a file of the shell is there. -/
theorem failOpening_gaveUp
    (errorOpen : shell.table.lookup 2 ≠ none)
    (noFile :
      ∀ path mode, shell.table.lookup 2 ≠ some (.file path mode))
    (lease : Lease shell.table middle.table held)
    (unmoved : Unmoved (Redirects command) shell middle)
    (written : middle.written = shell.written) {opens : OpenAnswers}
    (process :
      middle.process = (shell.touchOpened opens command).process)
    (failure : ConfigureFailure) {owners : List UniqueFd}
    (owned :
      ∀ fd, fd ∈ owners.flatMap Option.toList ↔ fd ∈ held.map Prod.fst) :
    GaveUp opens command failure shell
      (failOpening failure owners middle).2 := by
  have stays := lease.lookup_of_open errorOpen
  have noFileYet :
      ∀ path mode,
        (some 2 : UniqueFd).bind middle.table.lookup ≠
          some (.file path mode) := by
    intro path mode isFile
    exact noFile path mode (stays.symm.trans isFile)
  have told :=
    unmoved.trans (write_unmoved middle
      (fun path mode isFile => absurd isFile (noFileYet path mode))
      failure.text)
  constructor
  · exact ⟨told.group, told.session, told.directory, told.notices,
      told.files⟩
  · have kept :
        Lease shell.table (middle.write (some 2) failure.text).table
          held := by
      rw [write_table]
      exact lease
    exact destroy_lease kept owned
  · show (middle.write (some 2) failure.text).written = _
    rw [write_written, written]
    show _ ++ [(middle.table.lookup 2, _)] = _
    rw [stays]
  · exact (write_process_of_no_file noFileYet failure.text).trans process

/-- Running the command leaves the descriptors alone. -/
theorem runParentBuiltin_table
    {answers : ParentAnswers δ} {outputFd errorFd : UniqueFd}
    {done : ExecutionResult × ShellState σ δ}
    (ran :
      runParentBuiltin answers command outputFd errorFd shell = some done) :
    done.2.table = shell.table := by
  unfold runParentBuiltin at ran
  split at ran
  · rcases Option.map_eq_some_iff.mp ran with ⟨_, -, rfl⟩
    exact deliver_table _ _ _ _
  · rcases Option.map_eq_some_iff.mp ran with ⟨_, -, rfl⟩
    exact deliver_table _ _ _ _

theorem redirects_input (path : ByteString) (mode : OpenMode)
    (isFile : inputFile (σ := σ) command = .file path mode)
    (isWritten : mode ≠ .readOnly) : Redirects command path := by
  cases isFile
  exact absurd rfl isWritten

theorem redirects_output
    (isRedirected : command.hasOutputRedirect = true) (path : ByteString)
    (mode : OpenMode)
    (isFile : outputFile (σ := σ) command = .file path mode) :
    Redirects command path := by
  cases isFile
  exact Or.inl ⟨isRedirected, rfl⟩

theorem redirects_error
    (isRedirected : command.hasErrorRedirect = true) (path : ByteString)
    (mode : OpenMode)
    (isFile : errorFile (σ := σ) command = .file path mode) :
    Redirects command path := by
  cases isFile
  exact Or.inr ⟨isRedirected, rfl⟩

end Redirections

/-- The redirections of a command fail in the shell as in a child. -/
def FailsAlike (answers : ParentAnswers δ) (command : Command)
    (shell : ShellState σ δ) : Prop :=
  ∃ failure next,
    configureChildIo answers.opens command 0 1 [] shell.table =
        .error failure ∧
      executeParentBuiltin answers command shell =
        some ({ status := 1 }, next) ∧
      GaveUp answers.opens command failure shell next

/-- The shell runs a command with the redirections of a child. -/
def RunsAlike (answers : ParentAnswers δ) (command : Command)
    (shell : ShellState σ δ) : Prop :=
  ∃ closed childTable outputFd errorFd ready,
    configureChildIo answers.opens command 0 1 [] shell.table =
        .ok (closed, childTable) ∧
      Wired shell.table command 0 1 childTable ∧
      Prepared answers.opens command shell childTable outputFd errorFd
        ready ∧
      executeParentBuiltin answers command shell =
        (runParentBuiltin answers command (some outputFd) (some errorFd)
          ready).map fun done =>
            (done.1, { done.2 with table := shell.table })

/-- The only command of a pipeline has no pipes. -/
theorem piped_alone :
    pipedInput 0 [] = some 0 ∧ pipedOutput 0 1 [] = some 1 :=
  ⟨rfl, rfl⟩

section Blocks

variable {answers : ParentAnswers δ} {command : Command}
  {shell first second ready : ShellState σ δ} {input output error : Chosen σ}
  {source₀ source₁ source₂ : ℕ}
  {opened₀ opened₁ opened₂ : List (ℕ × Description σ)}
  (errorOpen : shell.table.lookup 2 ≠ none)
  (noFile : ∀ path mode, shell.table.lookup 2 ≠ some (.file path mode))
  (inputOpened :
    StreamOpened shell.table shell [] 0 command.hasInputRedirect
      answers.opens.input (inputFile command) .inputFile (Redirects command)
      input first source₀ opened₀)
  (inputAccepted : (command.hasInputRedirect && !answers.opens.input) = false)
  (outputOpened :
    StreamOpened shell.table first opened₀ 1 command.hasOutputRedirect
      answers.opens.output (outputFile command) .outputFile
      (Redirects command) output second source₁ opened₁)
  (outputAccepted :
    (command.hasOutputRedirect && !answers.opens.output) = false)
  (errorOpened :
    StreamOpened shell.table second (opened₀ ++ opened₁) 2
      command.hasErrorRedirect answers.opens.error (errorFile command)
      .errorFile (Redirects command) error ready source₂ opened₂)
  (errorAccepted : (command.hasErrorRedirect && !answers.opens.error) = false)

include errorOpen noFile in
theorem failsAlike_input
    (rejected : (command.hasInputRedirect && !answers.opens.input) = true)
    (refused :
      openStream command.hasInputRedirect answers.opens.input
        (inputFile command) .inputFile 0 shell = .error .inputFile)
    (choseNone :
      chooseStream command.hasInputRedirect answers.opens.input
        (inputFile command) .inputFile (some 0) shell.table =
          .error .inputFile) :
    FailsAlike answers command shell := by
  refine ⟨.inputFile, (failOpening .inputFile [] shell).2, ?_, ?_, ?_⟩
  · simp only [configureChildIo, piped_alone, choseNone, bind, Except.bind]
  · simp only [executeParentBuiltin, refused]
    rfl
  · refine failOpening_gaveUp errorOpen noFile (.refl shell.table)
      (.refl _ shell) rfl ?_ .inputFile fun _ => Iff.rfl
    rw [ShellState.touchOpened, if_pos rejected]

include errorOpen noFile inputOpened inputAccepted in
theorem failsAlike_output
    (rejected : (command.hasOutputRedirect && !answers.opens.output) = true)
    (refused :
      openStream command.hasOutputRedirect answers.opens.output
        (outputFile command) .outputFile 1 first = .error .outputFile)
    (choseNone :
      chooseStream command.hasOutputRedirect answers.opens.output
        (outputFile command) .outputFile (some 1) first.table =
          .error .outputFile) :
    FailsAlike answers command shell := by
  refine ⟨.outputFile, (failOpening .outputFile [input.owned] first).2, ?_,
    ?_, ?_⟩
  · simp only [configureChildIo, piped_alone, inputOpened.child,
      ← inputOpened.table, choseNone, bind, Except.bind]
  · simp only [executeParentBuiltin, inputOpened.parent, refused]
    rfl
  · apply failOpening_gaveUp errorOpen noFile inputOpened.lease
      inputOpened.unmoved inputOpened.written
    · rw [inputOpened.process, ShellState.touchOpened,
        if_neg (by rw [inputAccepted]; exact Bool.false_ne_true)]
      dsimp only
      rw [if_pos rejected]
    · intro fd
      simp [inputOpened.chooses.owned_eq]

include errorOpen noFile inputOpened inputAccepted outputOpened
  outputAccepted in
theorem failsAlike_error
    (rejected : (command.hasErrorRedirect && !answers.opens.error) = true)
    (refused :
      openStream command.hasErrorRedirect answers.opens.error
        (errorFile command) .errorFile 2 second = .error .errorFile)
    (choseNone :
      chooseStream command.hasErrorRedirect answers.opens.error
        (errorFile command) .errorFile (some 2) second.table =
          .error .errorFile) :
    FailsAlike answers command shell := by
  refine ⟨.errorFile,
    (failOpening .errorFile [output.owned, input.owned] second).2, ?_, ?_,
    ?_⟩
  · simp only [configureChildIo, piped_alone, inputOpened.child,
      ← inputOpened.table, outputOpened.child, ← outputOpened.table,
      choseNone, bind, Except.bind]
  · simp only [executeParentBuiltin, inputOpened.parent,
      outputOpened.parent, refused]
    rfl
  · apply failOpening_gaveUp errorOpen noFile outputOpened.lease
      (inputOpened.unmoved.trans outputOpened.unmoved)
      (outputOpened.written.trans inputOpened.written)
    · rw [outputOpened.process,
        touchIf_process inputOpened.process, ShellState.touchOpened,
        if_neg (by rw [inputAccepted]; exact Bool.false_ne_true)]
      dsimp only
      rw [if_neg (by rw [outputAccepted]; exact Bool.false_ne_true),
        if_pos rejected]
    · intro fd
      simp [inputOpened.chooses.owned_eq, outputOpened.chooses.owned_eq,
        or_comm]

include inputOpened outputOpened errorOpened in
/-- The descriptors that are opened for a command are closed behind it. -/
theorem destroy_opened
    {done : ExecutionResult × ShellState σ δ}
    (ran :
      runParentBuiltin answers command (some source₁) (some source₂) ready =
        some done) :
    (done.2.destroy [error.owned, output.owned, input.owned]).table =
      shell.table := by
  have lease :
      Lease shell.table done.2.table (opened₀ ++ opened₁ ++ opened₂) := by
    rw [runParentBuiltin_table ran]
    exact errorOpened.lease
  apply destroy_lease lease
  intro fd
  simp only [List.flatMap_cons, List.flatMap_nil,
    inputOpened.chooses.owned_eq, outputOpened.chooses.owned_eq,
    errorOpened.chooses.owned_eq, List.map_append, List.mem_append,
    List.not_mem_nil]
  tauto

include inputOpened inputAccepted outputOpened outputAccepted errorOpened
  errorAccepted in
/-- The command gets the targets that a child would have. -/
theorem prepared_of_opened
    {childTable : Table (Description σ)}
    (wired : Wired shell.table command 0 1 childTable) :
    Prepared answers.opens command shell childTable source₁ source₂
      ready where
  unmoved :=
    (inputOpened.unmoved.trans outputOpened.unmoved).trans
      errorOpened.unmoved
  written :=
    errorOpened.written.trans
      (outputOpened.written.trans inputOpened.written)
  process := by
    have opened :
        second.process =
          ((shell.touchIf command.hasInputRedirect
            (inputFile command)).touchIf command.hasOutputRedirect
              (outputFile command)).process :=
      outputOpened.process.trans (touchIf_process inputOpened.process _ _)
    rw [errorOpened.process, touchIf_process opened, ShellState.touchOpened,
      if_neg (by rw [inputAccepted]; exact Bool.false_ne_true)]
    dsimp only
    rw [if_neg (by rw [outputAccepted]; exact Bool.false_ne_true),
      if_neg (by rw [errorAccepted]; exact Bool.false_ne_true)]
  output := by
    have leads : second.table.lookup source₁ = childTable.lookup 1 := by
      rw [outputOpened.table, outputOpened.chooses.leads, wired.output]
      rfl
    have isOpen : second.table.lookup source₁ ≠ none := by
      rw [outputOpened.table, outputOpened.chooses.leads]
      exact outputOpened.chooses.isOpen
    rw [errorOpened.table, errorOpened.chooses.keeps source₁ isOpen, leads]
  error := by
    rw [wired.error, errorOpened.table, errorOpened.chooses.leads]
    rfl
  keeps := fun fd isOpen => errorOpened.lease.lookup_of_open isOpen

include inputOpened inputAccepted outputOpened outputAccepted errorOpened
  errorAccepted in
theorem runsAlike_of_opened (isOpen : StandardOpen shell.table) :
    RunsAlike answers command shell := by
  have succeeds : answers.opens.Succeed command :=
    ⟨chooseStream_succeeds inputOpened.child,
      chooseStream_succeeds outputOpened.child,
      chooseStream_succeeds errorOpened.child⟩
  rcases configureChildIo_wired isOpen (.nil shell.table) rfl
      (Nat.zero_lt_one) succeeds with
    ⟨closed, childTable, configured, wired⟩
  refine ⟨closed, childTable, source₁, source₂, ready, configured, wired,
    prepared_of_opened inputOpened inputAccepted outputOpened outputAccepted
      errorOpened errorAccepted wired, ?_⟩
  simp only [executeParentBuiltin, inputOpened.parent, outputOpened.parent,
    errorOpened.parent, outputOpened.chooses.source_eq,
    errorOpened.chooses.source_eq]
  apply Option.map_congr
  intro done ran
  rw [← destroy_opened inputOpened outputOpened errorOpened ran]
  rfl

end Blocks

/-- `execute_parent_builtin`, next to `configure_child_io` for the only command
of a pipeline. -/
theorem executeParentBuiltin_cases
    {base : Table σ} {shell : ShellState σ δ}
    (inherited : shell.table = base.map .inherited)
    (standard : ∀ fd, fd < 3 → base.lookup fd ≠ none)
    (answers : ParentAnswers δ) (command : Command) :
    FailsAlike answers command shell ∨ RunsAlike answers command shell := by
  have isOpen : StandardOpen shell.table := by
    intro fd below closed
    rw [inherited, Table.lookup_map, Option.map_eq_none_iff] at closed
    exact standard fd below closed
  have noFile := lookup_ne_file inherited 2
  have errorOpen := isOpen 2 (by omega)
  rcases openStream_cases (.refl shell.table) (isOpen 0 (by omega))
      command.hasInputRedirect answers.opens.input (inputFile command)
      .inputFile (fun _ => redirects_input) with
    ⟨rejected, refused, choseNone⟩ |
      ⟨inputAccepted, input, first, source₀, opened₀, inputOpened⟩
  · exact Or.inl
      (failsAlike_input errorOpen noFile rejected refused choseNone)
  rcases openStream_cases inputOpened.lease (isOpen 1 (by omega))
      command.hasOutputRedirect answers.opens.output (outputFile command)
      .outputFile (fun isRedirected path mode isFile _ =>
        redirects_output isRedirected path mode isFile) with
    ⟨rejected, refused, choseNone⟩ |
      ⟨outputAccepted, output, second, source₁, opened₁, outputOpened⟩
  · exact Or.inl
      (failsAlike_output errorOpen noFile inputOpened inputAccepted rejected
        refused choseNone)
  rcases openStream_cases outputOpened.lease errorOpen
      command.hasErrorRedirect answers.opens.error (errorFile command)
      .errorFile (fun isRedirected path mode isFile _ =>
        redirects_error isRedirected path mode isFile) with
    ⟨rejected, refused, choseNone⟩ |
      ⟨errorAccepted, error, ready, source₂, opened₂, errorOpened⟩
  · exact Or.inl
      (failsAlike_error errorOpen noFile inputOpened inputAccepted
        outputOpened outputAccepted rejected refused choseNone)
  · exact Or.inr
      (runsAlike_of_opened inputOpened inputAccepted outputOpened
        outputAccepted errorOpened errorAccepted isOpen)

section Delivery

variable {base : Table σ} {shell ready : ShellState σ δ}
  {opens : OpenAnswers} {command : Command}
  {childTable : Table (Description σ)} {outputFd errorFd : ℕ}

/-- What a command writes goes to its redirections, or to no file. -/
theorem Prepared.redirects
    (prepared :
      Prepared opens command shell childTable outputFd errorFd ready)
    (inherited : shell.table = base.map .inherited)
    (wired : Wired shell.table command 0 1 childTable)
    {fd : ℕ} (isTarget : fd = outputFd ∨ fd = errorFd) {path : ByteString}
    {mode : OpenMode}
    (isFile : ready.table.lookup fd = some (.file path mode)) :
    Redirects command path := by
  have noFile := lookup_ne_file inherited
  rcases isTarget with rfl | rfl
  · rw [prepared.output, wired.output] at isFile
    unfold outputTarget at isFile
    split at isFile
    · exact redirects_output ‹_› path mode (Option.some.inj isFile)
    · rw [if_neg (by omega)] at isFile
      exact absurd isFile (noFile 1 path mode)
  · rw [prepared.error, wired.error] at isFile
    unfold errorTarget at isFile
    split at isFile
    · exact redirects_error ‹_› path mode (Option.some.inj isFile)
    · exact absurd isFile (noFile 2 path mode)

theorem Prepared.delivers
    (prepared :
      Prepared opens command shell childTable outputFd errorFd ready)
    (inherited : shell.table = base.map .inherited)
    (wired : Wired shell.table command 0 1 childTable)
    {state : ShellState σ δ} (sameTable : state.table = ready.table)
    (texts : List Written) :
    Unmoved (Redirects command) state
      (state.deliver (some outputFd) (some errorFd) texts) := by
  apply deliver_unmoved
  rintro fd (rfl | rfl) path mode isFile
  · rw [sameTable] at isFile
    exact prepared.redirects inherited wired (Or.inl rfl) isFile
  · rw [sameTable] at isFile
    exact prepared.redirects inherited wired (Or.inr rfl) isFile

end Delivery

/-- Everything `execute_parent_builtin` can do, apart from the texts. -/
inductive Outcome (answers : ParentAnswers δ) (command : Command)
    (shell next : ShellState σ δ) : ExecutionResult → Prop where
  | gaveUp (unmoved : Unmoved (Redirects command) shell next) :
      Outcome answers command shell next { status := 1 }
  | job {outputFd errorFd : ℕ} {texts : List Written} {status : Int}
      {session : Session}
      (executed :
        executeJobBuiltin answers command (some outputFd) (some errorFd)
          shell.session = some (status, session, texts))
      (unmoved :
        Unmoved (Redirects command) { shell with session := session } next) :
      Outcome answers command shell next { status := status }
  | builtin {history : History} {reply : Reply δ}
      (opened : OnlyFiles (Redirects command) shell.process.history history)
      (executed :
        executeBuiltin answers.surroundings answers.rounds command
          .parentShell ⟨shell.process.directory, history⟩ = some reply)
      (unmoved :
        Unmoved (Redirects command) { shell with process := reply.process }
          next) :
      Outcome answers command shell next
        ⟨reply.result.exitRequested, reply.result.exitCode,
          reply.result.status⟩

theorem executeParentBuiltin_outcome
    {base : Table σ} {shell next : ShellState σ δ}
    (inherited : shell.table = base.map .inherited)
    (standard : ∀ fd, fd < 3 → base.lookup fd ≠ none)
    {answers : ParentAnswers δ} {command : Command}
    {result : ExecutionResult}
    (executed :
      executeParentBuiltin answers command shell = some (result, next)) :
    next.table = shell.table ∧
      Outcome answers command shell next result := by
  rcases executeParentBuiltin_cases inherited standard answers command with
    ⟨failure, final, -, gaveUp, state⟩ |
      ⟨closed, childTable, outputFd, errorFd, ready, -, wired, prepared,
        ran⟩
  · cases gaveUp.symm.trans executed
    exact ⟨state.table, .gaveUp state.unmoved⟩
  · rw [ran] at executed
    rcases Option.map_eq_some_iff.mp executed with
      ⟨⟨_, done⟩, returned, ⟨⟩⟩
    refine ⟨rfl, ?_⟩
    have same := prepared.unmoved
    unfold runParentBuiltin at returned
    split at returned
    · rcases Option.map_eq_some_iff.mp returned with
        ⟨⟨status, session, texts⟩, executedJob, ⟨⟩⟩
      rw [same.session] at executedJob
      have delivered :=
        prepared.delivers inherited wired
          (rfl : { ready with session := session }.table = ready.table) texts
      refine .job executedJob ?_
      exact ⟨delivered.group.trans same.group, delivered.session,
        delivered.directory.trans same.directory,
        delivered.notices.trans same.notices,
        same.files.trans delivered.files⟩
    · rcases Option.map_eq_some_iff.mp returned with
        ⟨reply, replied, ⟨⟩⟩
      have delivered :=
        prepared.delivers inherited wired
          (rfl : { ready with process := reply.process }.table = ready.table)
          reply.written
      have sameProcess :
          ready.process =
            ⟨shell.process.directory, ready.process.history⟩ := by
        rw [← same.directory]
      rw [sameProcess] at replied
      refine .builtin same.files replied ?_
      exact ⟨delivered.group.trans same.group,
        delivered.session.trans same.session, delivered.directory,
        delivered.notices.trans same.notices, delivered.files⟩

/--
A built-in command that the shell runs itself has the redirections of the same
command in a child.  Where the child would exit with a message, the shell
writes the message to its own standard error, runs nothing and goes on with
status 1.  Otherwise the command writes to the two targets that the child would
have as standard output and standard error, while all descriptors of the shell
stay where they are.  In both cases everything is closed again, and the files
are opened as in the child.  The shell has its three standard descriptors open,
and none of them is a file that it has opened itself.
-/
theorem parent_redirections_like_child
    {base : Table σ} {shell : ShellState σ δ}
    (inherited : shell.table = base.map .inherited)
    (standard : ∀ fd, fd < 3 → base.lookup fd ≠ none)
    (answers : ParentAnswers δ) (command : Command) :
    (∀ failure,
      configureChildIo answers.opens command 0 1 [] shell.table =
          .error failure →
        ∃ next,
          executeParentBuiltin answers command shell =
              some ({ status := 1 }, next) ∧
            GaveUp answers.opens command failure shell next) ∧
      ∀ closed childTable,
        configureChildIo answers.opens command 0 1 [] shell.table =
            .ok (closed, childTable) →
          ∃ outputFd errorFd ready,
            Prepared answers.opens command shell childTable outputFd errorFd
                ready ∧
              ∀ result next,
                executeParentBuiltin answers command shell =
                    some (result, next) ↔
                  ∃ done,
                    runParentBuiltin answers command (some outputFd)
                        (some errorFd) ready = some (result, done) ∧
                      next = { done with table := shell.table } := by
  rcases executeParentBuiltin_cases inherited standard answers command with
    ⟨failure, next, failed, gaveUp, state⟩ |
      ⟨closed, childTable, outputFd, errorFd, ready, configured, -, prepared,
        ran⟩
  · constructor
    · intro other alsoFailed
      cases failed.symm.trans alsoFailed
      exact ⟨next, gaveUp, state⟩
    · intro _ _ configured
      cases failed.symm.trans configured
  · constructor
    · intro _ failed
      cases configured.symm.trans failed
    · intro _ _ alsoConfigured
      cases configured.symm.trans alsoConfigured
      refine ⟨outputFd, errorFd, ready, prepared, fun result next => ?_⟩
      rw [ran, Option.map_eq_some_iff]
      constructor
      · rintro ⟨⟨_, done⟩, returned, ⟨⟩⟩
        exact ⟨done, returned, rfl⟩
      · rintro ⟨done, returned, rfl⟩
        exact ⟨(result, done), returned, rfl⟩

/-- `pwd > out` in a shell with three open descriptors. -/
def sampleState : ShellState ℕ ByteString where
  group := 7
  table := sampleShell.map .inherited
  session := sampleStart.session
  process := sampleProcess

def sampleAnswers : ParentAnswers ByteString where
  surroundings := sampleSurroundings
  reap := ⟨false, []⟩
  waits := { waits := [] }

def sampleRedirected : Command where
  args := [literal "pwd"]
  outputFile := literal "out"
  hasOutputRedirect := true

theorem parent_redirections_like_child_sample :
    ∃ outputFd errorFd : ℕ, ∃ ready done : ShellState ℕ ByteString,
      ready.table.lookup outputFd =
          some (.file (literal "out") .truncate) ∧
        ready.table.lookup errorFd = some (.inherited 2) ∧
        runParentBuiltin sampleAnswers sampleRedirected (some outputFd)
          (some errorFd) ready = some ({}, done) := by
  have standard : ∀ fd, fd < 3 → sampleShell.lookup fd ≠ none := by
    intro fd below
    simp [sampleShell, below]
  have configured :
      (configureChildIo sampleAnswers.opens sampleRedirected 0 1 []
          sampleState.table).toOption.map
        (fun result => (result.2.lookup 1, result.2.lookup 2)) =
      some (some (.file (literal "out") .truncate),
        some (.inherited 2)) := by
    decide +kernel
  have returned :
      ((executeParentBuiltin sampleAnswers sampleRedirected
        sampleState).map Prod.fst) = some {} := by
    decide +kernel
  rcases Option.map_eq_some_iff.mp returned with
    ⟨⟨_, next⟩, executed, ⟨⟩⟩
  have inherited : sampleState.table = sampleShell.map .inherited := rfl
  have agree :=
    parent_redirections_like_child inherited standard sampleAnswers
      sampleRedirected
  cases result :
      configureChildIo sampleAnswers.opens sampleRedirected 0 1 []
        sampleState.table with
  | error failure =>
      rw [result] at configured
      cases configured
  | ok child =>
      rw [result] at configured
      rcases Prod.mk.inj (Option.some.inj configured) with
        ⟨toFile, toShell⟩
      rcases agree.2 child.1 child.2 result with
        ⟨outputFd, errorFd, ready, prepared, runs⟩
      rcases (runs _ _).mp executed with ⟨done, ran, -⟩
      exact ⟨outputFd, errorFd, ready, done, prepared.output.trans toFile,
        prepared.error.trans toShell, ran⟩

end Shell.ParentBuiltins
