import Mathlib.Data.List.Induction
import Mathlib.Data.List.TakeWhile
import Shell.History.Builtin

/-!
# What a session leaves in the history file

A session is seen as three things: the lines of the history file, the entries,
and how many of the entries count as saved.  A load counts everything as saved,
also what was entered and is in no file; a rewrite of the history file saves
everything and counts nothing.  So lines can be lost with the one and doubled
with the other.
-/

namespace Shell.HistoryPersistence

open Shell.Syntax
open Shell.TextLines
open Shell.ShellHistory

/-! ## Sessions -/

/-- A line as readline returns it. -/
def IsLine (line : ByteString) : Prop :=
  line ≠ [] ∧ newline ∉ line ∧ 0 ∉ line

inductive Operation where
  | enter (line : ByteString)
  | load (filename : ByteString)
  | write (filename : ByteString)
  | append (filename : ByteString)
deriving DecidableEq, Repr

/-- `history` with an option and a file. -/
def historyCommand (option : String) (filename : ByteString) : Command :=
  { args := [literal "history", literal option, filename] }

def perform (history : History) : Operation → History
  | .enter line => history.addHistory line
  | .load filename =>
      (builtinHistory history (historyCommand "-r" filename)).1
  | .write filename =>
      (builtinHistory history (historyCommand "-w" filename)).1
  | .append filename =>
      (builtinHistory history (historyCommand "-a" filename)).1

def performAll (history : History) (operations : List Operation) : History :=
  operations.foldl perform history

/-- The lines that were entered. -/
def entered (operations : List Operation) : List ByteString :=
  operations.filterMap fun operation =>
    match operation with
    | .enter line => some line
    | _ => none

/-- The lines of a file. -/
def fileLines (history : History) (filename : ByteString) :
    List ByteString :=
  linesOf newline ((history.disk.content filename).getD [])

theorem performAll_append
    (history : History) (before after : List Operation) :
    performAll history (before ++ after) =
      performAll (performAll history before) after :=
  List.foldl_append

theorem entered_append (before after : List Operation) :
    entered (before ++ after) = entered before ++ entered after :=
  List.filterMap_append

theorem mem_entered {line : ByteString} {operations : List Operation} :
    line ∈ entered operations ↔ .enter line ∈ operations := by
  simp only [entered, List.mem_filterMap]
  constructor
  · rintro ⟨operation, isOperation, made⟩
    cases operation <;> cases made
    exact isOperation
  · intro isOperation
    exact ⟨_, isOperation, rfl⟩

/-! ## Views -/

structure View where
  file : List ByteString
  entries : List ByteString
  saved : Nat

/-- The entries that do not count as saved. -/
def View.unsaved (view : View) : List ByteString :=
  view.entries.drop view.saved

/-- The history with a history file at a path looks like the view. -/
structure Shows (path : ByteString) (history : History) (view : View) :
    Prop where
  isHistfile : history.histfilePath = path
  writable : history.disk.writable path = true
  content : history.disk.content path = some (joinLines newline view.file)
  entries : history.entries = view.entries
  saved : history.persistedHistoryLength = view.saved
  plainFile : Plain newline view.file
  plainEntries : Plain newline view.entries
  bounded : view.saved ≤ view.entries.length

section Steps

variable {path : ByteString} {history : History} {view : View}

theorem Shows.fileLines
    (shows : Shows path history view) :
    fileLines history path = view.file := by
  rw [HistoryPersistence.fileLines, shows.content, Option.getD_some,
    linesOf_joinLines shows.plainFile]

theorem Shows.enter
    (shows : Shows path history view) {line : ByteString}
    (isLine : IsLine line) :
    Shows path (history.addHistory line)
      { view with entries := view.entries ++ [line] } := by
  have plain : Plain newline [line] := by
    intro other isOther
    rw [List.mem_singleton.mp isOther]
    exact isLine.2.1
  have bounded := shows.bounded
  exact { shows with
    entries := congrArg (· ++ [line]) shows.entries
    plainEntries := shows.plainEntries.append plain
    bounded := by
      rw [List.length_append]
      exact Nat.le_add_right_of_le bounded }

theorem plain_loadedLines (content : ByteString) :
    Plain newline (loadedLines content) := by
  intro line isLine
  rcases List.mem_map.mp isLine with ⟨original, isOriginal, rfl⟩
  intro inLine
  exact plain_linesOf content original (List.mem_filter.mp isOriginal).1
    ((List.takeWhile_sublist _).subset inLine)

/-- A load leaves the file alone; the counter then covers all the entries. -/
theorem Shows.load
    (shows : Shows path history view) (filename : ByteString) :
    Shows path (history.loadFromFile filename) view ∨
      ∃ lines,
        Shows path (history.loadFromFile filename)
          ⟨view.file, view.entries ++ lines,
            (view.entries ++ lines).length⟩ := by
  unfold History.loadFromFile
  split
  · exact Or.inl shows
  · rename_i content isContent
    apply Or.inr
    refine ⟨loadedLines content, ?_⟩
    exact { shows with
      entries := congrArg (· ++ _) shows.entries
      saved := by rw [shows.entries]
      plainEntries := shows.plainEntries.append (plain_loadedLines content)
      bounded := Nat.le_refl _ }

/-- A write of the history file replaces its lines by the entries; the counter
stays. -/
theorem Shows.rewrite
    (shows : Shows path history view) :
    Shows path (history.writeToFile path)
      { view with file := view.entries } := by
  rw [History.writeToFile, if_pos shows.writable]
  exact { shows with
    content := by
      rw [← shows.entries]
      exact Function.update_self ..
    plainFile := shows.plainEntries }

theorem Shows.write_other
    (shows : Shows path history view) {filename : ByteString}
    (other : filename ≠ path) :
    Shows path (history.writeToFile filename) view := by
  unfold History.writeToFile
  split_ifs
  · exact { shows with
      content :=
        (Function.update_of_ne (Ne.symm other) ..).trans shows.content }
  · exact shows

/-- An append to the history file adds what does not count as saved. -/
theorem Shows.append
    (shows : Shows path history view) :
    Shows path (history.appendNewToFile path)
      ⟨view.file ++ view.unsaved, view.entries, view.entries.length⟩ := by
  unfold History.appendNewToFile
  rw [if_pos shows.writable]
  split_ifs with nothingNew
  · rw [shows.entries, shows.saved] at nothingNew
    have allSaved : view.saved = view.entries.length :=
      Nat.le_antisymm shows.bounded nothingNew
    have none : view.unsaved = [] :=
      List.drop_eq_nil_of_le nothingNew
    rw [none, List.append_nil, ← allSaved]
    exact shows
  · exact { shows with
      content := by
        rw [joinLines_append]
        refine (Function.update_self ..).trans ?_
        rw [shows.content, Option.getD_some, History.unsaved,
          shows.entries, shows.saved]
        rfl
      saved := congrArg List.length shows.entries
      plainFile :=
        shows.plainFile.append
          (shows.plainEntries.subset (List.drop_subset _ _))
      bounded := Nat.le_refl _ }

/-- The end of the session appends to the history file. -/
theorem Shows.save
    (shows : Shows path history view) (named : path ≠ []) :
    Shows path history.saveSession
      ⟨view.file ++ view.unsaved, view.entries, view.entries.length⟩ := by
  have exist : (history.disk.content path).isSome = true := by
    rw [shows.content]
    rfl
  rw [History.saveSession, shows.isHistfile, if_neg named, if_pos exist]
  exact shows.append

end Steps

/-- The start of a session with a history file. -/
theorem shows_initializeHistory
    {path content : ByteString} {disk : Disk}
    (isFile : disk.content path = some content)
    (terminated : Terminated newline content)
    (writable : disk.writable path = true) :
    Shows path (History.initializeHistory disk (some path))
      ⟨linesOf newline content, loadedLines content,
        (loadedLines content).length⟩ := by
  rw [History.initializeHistory, History.loadFromFile]
  simp only [isFile]
  exact {
    isHistfile := rfl
    writable := writable
    content := by
      rw [joinLines_linesOf terminated]
      exact isFile
    entries := rfl
    saved := rfl
    plainFile := plain_linesOf content
    plainEntries := plain_loadedLines content
    bounded := Nat.le_refl _ }

/-! ## Lines that are lost -/

/-- At every load, what was entered is in the history file already, or the
file is rewritten later. -/
def LoadsSaved (path : ByteString) (start : History)
    (operations : List Operation) : Prop :=
  ∀ before filename after,
    operations = before ++ .load filename :: after →
      .write path ∈ after ∨
        ∀ line ∈ entered before,
          line ∈ fileLines (performAll start before) path

/-- What was entered is among the entries; it is in the file, not counted as
saved, or waits for a rewrite. -/
def Kept (path : ByteString) (after : List Operation)
    (lines : List ByteString) (history : History) : Prop :=
  ∃ view,
    Shows path history view ∧
      ∀ line ∈ lines,
        line ∈ view.entries ∧
          (line ∈ view.file ∨ line ∈ view.unsaved ∨ .write path ∈ after)

theorem unsaved_concat
    {view : View} (bounded : view.saved ≤ view.entries.length)
    (line : ByteString) :
    View.unsaved { view with entries := view.entries ++ [line] } =
      view.unsaved ++ [line] := by
  exact List.drop_append_of_le_length bounded

section KeptSteps

variable {path : ByteString} {after : List Operation}
  {lines : List ByteString} {history : History}

theorem Kept.enter
    {line : ByteString}
    (kept : Kept path (.enter line :: after) lines history)
    (isLine : IsLine line) :
    Kept path after (lines ++ [line]) (history.addHistory line) := by
  rcases kept with ⟨view, shows, kept⟩
  refine ⟨_, shows.enter isLine, ?_⟩
  intro other isOther
  rw [unsaved_concat shows.bounded]
  rcases List.mem_append.mp isOther with isEarlier | isNew
  · rcases kept other isEarlier with ⟨isEntry, inFile | isUnsaved | later⟩
    · exact ⟨List.mem_append_left _ isEntry, Or.inl inFile⟩
    · exact ⟨List.mem_append_left _ isEntry,
        Or.inr (Or.inl (List.mem_append_left _ isUnsaved))⟩
    · refine ⟨List.mem_append_left _ isEntry, Or.inr (Or.inr ?_)⟩
      exact (List.mem_cons.mp later).resolve_left nofun
  · exact ⟨List.mem_append_right _ isNew,
      Or.inr (Or.inl (List.mem_append_right _ isNew))⟩

theorem Kept.load
    {filename : ByteString}
    (kept : Kept path (.load filename :: after) lines history)
    (saved :
      .write path ∈ after ∨ ∀ line ∈ lines, line ∈ fileLines history path) :
    Kept path after lines (history.loadFromFile filename) := by
  rcases kept with ⟨view, shows, kept⟩
  have settled :
      ∀ line ∈ lines, line ∈ view.file ∨ .write path ∈ after := by
    intro line isLine
    rcases saved with later | inFile
    · exact Or.inr later
    · rw [shows.fileLines] at inFile
      exact Or.inl (inFile line isLine)
  rcases shows.load filename with same | ⟨loaded, shows⟩
  · refine ⟨view, same, fun line isLine => ⟨(kept line isLine).1, ?_⟩⟩
    exact (settled line isLine).imp_right Or.inr
  · refine ⟨_, shows, fun line isLine => ⟨?_, ?_⟩⟩
    · exact List.mem_append_left _ (kept line isLine).1
    · exact (settled line isLine).imp_right Or.inr

theorem Kept.write
    {filename : ByteString}
    (kept : Kept path (.write filename :: after) lines history) :
    Kept path after lines (history.writeToFile filename) := by
  rcases kept with ⟨view, shows, kept⟩
  by_cases isHistfile : filename = path
  · subst isHistfile
    refine ⟨_, shows.rewrite, fun line isLine => ?_⟩
    have isEntry := (kept line isLine).1
    exact ⟨isEntry, Or.inl isEntry⟩
  · refine ⟨view, shows.write_other isHistfile, fun line isLine => ?_⟩
    rcases kept line isLine with ⟨isEntry, inFile | isUnsaved | later⟩
    · exact ⟨isEntry, Or.inl inFile⟩
    · exact ⟨isEntry, Or.inr (Or.inl isUnsaved)⟩
    · refine ⟨isEntry, Or.inr (Or.inr ?_)⟩
      rcases List.mem_cons.mp later with isThis | isLater
      · exact absurd (Operation.write.inj isThis).symm isHistfile
      · exact isLater

theorem Kept.append
    (kept : Kept path (.append path :: after) lines history) :
    Kept path after lines (history.appendNewToFile path) := by
  rcases kept with ⟨view, shows, kept⟩
  refine ⟨_, shows.append, fun line isLine => ?_⟩
  rcases kept line isLine with ⟨isEntry, inFile | isUnsaved | later⟩
  · exact ⟨isEntry, Or.inl (List.mem_append_left _ inFile)⟩
  · exact ⟨isEntry, Or.inl (List.mem_append_right _ isUnsaved)⟩
  · refine ⟨isEntry, Or.inr (Or.inr ?_)⟩
    exact (List.mem_cons.mp later).resolve_left nofun

end KeptSteps

theorem performAll_kept
    {path : ByteString} {start : History} {operations : List Operation}
    (kept : Kept path operations [] start)
    (areLines : ∀ line ∈ entered operations, IsLine line)
    (ownAppends :
      ∀ filename, .append filename ∈ operations → filename = path)
    (saved : LoadsSaved path start operations)
    (before after : List Operation)
    (split : operations = before ++ after) :
    Kept path after (entered before) (performAll start before) := by
  induction before using List.reverseRecOn generalizing after with
  | nil =>
      cases split
      exact kept
  | append_singleton before operation induction =>
      rw [List.append_assoc, List.singleton_append] at split
      have earlier := induction (operation :: after) split
      have isOperation : operation ∈ operations := by
        rw [split]
        exact List.mem_append_right _ List.mem_cons_self
      rw [performAll_append, entered_append]
      cases operation with
      | enter line =>
          exact earlier.enter (areLines line (mem_entered.mpr isOperation))
      | load filename =>
          rw [show entered [.load filename] = [] from rfl, List.append_nil]
          exact earlier.load (saved before filename after split)
      | write filename =>
          rw [show entered [.write filename] = [] from rfl,
            List.append_nil]
          exact earlier.write
      | append filename =>
          rw [show entered [.append filename] = [] from rfl,
            List.append_nil]
          cases ownAppends filename isOperation
          exact earlier.append

/-- If nothing that was entered is missing from the history file when another
file is loaded, or the history file is rewritten later, then every line of the
session is in the history file at the end. -/
theorem session_lines_saved
    {path content : ByteString} {disk : Disk} {operations : List Operation}
    (named : path ≠ [])
    (isFile : disk.content path = some content)
    (terminated : Terminated newline content)
    (writable : disk.writable path = true)
    (areLines : ∀ line ∈ entered operations, IsLine line)
    (ownAppends :
      ∀ filename, .append filename ∈ operations → filename = path)
    (saved :
      LoadsSaved path (History.initializeHistory disk (some path))
        operations) :
    ∀ line ∈ entered operations,
      line ∈
        fileLines
          (performAll (History.initializeHistory disk (some path))
            operations).saveSession path := by
  intro line isEntered
  have start := shows_initializeHistory isFile terminated writable
  have kept :=
    performAll_kept ⟨_, start, nofun⟩ areLines ownAppends saved operations
      [] (List.append_nil _).symm
  rcases kept with ⟨view, shows, kept⟩
  rw [(shows.save named).fileLines]
  rcases kept line isEntered with ⟨_, inFile | isUnsaved | later⟩
  · exact List.mem_append_left _ inFile
  · exact List.mem_append_right _ isUnsaved
  · cases later

/-- A history file without content, and another file with one line. -/
def sampleDisk : Disk where
  content := fun filename =>
    if filename = literal "histfile" then some []
    else if filename = literal "other" then some (literal "make\n")
    else none
  writable := fun _ => true

/-- The entered line is appended before the other file is loaded. -/
theorem session_lines_saved_sample :
    literal "ls" ∈
      fileLines
        (performAll
          (History.initializeHistory sampleDisk (some (literal "histfile")))
          [.enter (literal "ls"), .append (literal "histfile"),
            .load (literal "other")]).saveSession
        (literal "histfile") := by
  have saved :
      LoadsSaved (literal "histfile")
        (History.initializeHistory sampleDisk (some (literal "histfile")))
        [.enter (literal "ls"), .append (literal "histfile"),
          .load (literal "other")] := by
    intro before filename after split
    apply Or.inr
    rcases before with _ | ⟨first, _ | ⟨second, _ | ⟨third, rest⟩⟩⟩ <;>
      simp at split
    rcases split with ⟨rfl, rfl, rfl, rfl⟩
    decide +kernel
  apply session_lines_saved (by decide) rfl (Or.inl rfl) rfl _ _ saved _
    (by decide)
  · intro line isEntered
    rw [List.mem_singleton.mp isEntered]
    exact ⟨by decide, by decide, by decide⟩
  · intro filename isAppend
    simpa using isAppend

/-- The load of another file makes the entered line count as saved. -/
theorem loaded_line_lost :
    literal "ls" ∈
        entered [.enter (literal "ls"), .load (literal "other")] ∧
      IsLine (literal "ls") ∧
      literal "ls" ∉
        fileLines
          (performAll
            (History.initializeHistory sampleDisk
              (some (literal "histfile")))
            [.enter (literal "ls"), .load (literal "other")]).saveSession
          (literal "histfile") := by
  refine ⟨by decide, ⟨by decide, by decide, by decide⟩, ?_⟩
  decide +kernel

/-! ## Lines that are doubled -/

/-- The operations on the history file alone. -/
def OnHistfile (path : ByteString) (operation : Operation) : Prop :=
  (∃ line, operation = .enter line ∧ IsLine line) ∨
    operation = .write path ∨ operation = .append path

/-- The last rewrite of the history file finds everything saved. -/
def LastWriteSettled (path : ByteString) (start : History)
    (operations : List Operation) : Prop :=
  ∀ before after,
    operations = before ++ .write path :: after → .write path ∉ after →
      (performAll start before).unsaved = []

theorem exists_last_of_mem {α : Type*} {value : α} {values : List α}
    (isMember : value ∈ values) :
    ∃ before after,
      values = before ++ value :: after ∧ value ∉ after := by
  induction values with
  | nil => cases isMember
  | cons head rest induction =>
      by_cases isLater : value ∈ rest
      · rcases induction isLater with ⟨before, after, split, isLast⟩
        exact ⟨head :: before, after, congrArg (head :: ·) split, isLast⟩
      · rcases List.mem_cons.mp isMember with rfl | inRest
        · exact ⟨[], rest, rfl, isLater⟩
        · exact absurd inRest isLater

/-- The entries are those of the start and what was entered. -/
theorem performAll_entries
    {path : ByteString} {start : History} {view : View}
    (shows : Shows path start view) {operations : List Operation}
    (onHistfile : ∀ operation ∈ operations, OnHistfile path operation) :
    ∃ file saved,
      Shows path (performAll start operations)
        ⟨file, view.entries ++ entered operations, saved⟩ := by
  induction operations generalizing start view with
  | nil =>
      refine ⟨view.file, view.saved, ?_⟩
      rw [show entered [] = [] from rfl, List.append_nil]
      exact shows
  | cons operation operations induction =>
      rcases List.forall_mem_cons.mp onHistfile with ⟨first, later⟩
      rcases first with ⟨line, rfl, isLine⟩ | rfl | rfl
      · rcases induction (shows.enter isLine) later with
          ⟨file, saved, shows⟩
        rw [List.append_assoc] at shows
        exact ⟨file, saved, shows⟩
      · rcases induction shows.rewrite later with ⟨file, saved, shows⟩
        exact ⟨file, saved, shows⟩
      · rcases induction shows.append later with ⟨file, saved, shows⟩
        exact ⟨file, saved, shows⟩

/-- Without a rewrite, the file at the end is the file at the start with the
entries behind the counter of the start. -/
theorem performAll_file
    {path : ByteString} {start : History} {view : View}
    (shows : Shows path start view) {operations : List Operation}
    (onHistfile : ∀ operation ∈ operations, OnHistfile path operation)
    (noWrite : .write path ∉ operations) :
    ∃ file saved,
      Shows path (performAll start operations)
          ⟨file, view.entries ++ entered operations, saved⟩ ∧
        file ++ (view.entries ++ entered operations).drop saved =
          view.file ++ (view.entries ++ entered operations).drop
            view.saved := by
  induction operations generalizing start view with
  | nil =>
      refine ⟨view.file, view.saved, ?_⟩
      rw [show entered [] = [] from rfl, List.append_nil]
      exact ⟨shows, rfl⟩
  | cons operation operations induction =>
      rcases List.forall_mem_cons.mp onHistfile with ⟨first, later⟩
      rcases not_or.mp (mt List.mem_cons.mpr noWrite) with ⟨other, noMore⟩
      rcases first with ⟨line, rfl, isLine⟩ | rfl | rfl
      · rcases induction (shows.enter isLine) later noMore with
          ⟨file, saved, shows, same⟩
        rw [List.append_assoc] at shows same
        exact ⟨file, saved, shows, same⟩
      · exact absurd rfl other
      · rcases induction shows.append later noMore with
          ⟨file, saved, afterwards, same⟩
        refine ⟨file, saved, afterwards, same.trans ?_⟩
        show view.file ++ view.entries.drop view.saved ++
          (view.entries ++ entered operations).drop view.entries.length = _
        rw [List.drop_left, List.append_assoc,
          ← List.drop_append_of_le_length shows.bounded]
        rfl

/-- The file at the end of a session that goes on without a rewrite. -/
theorem fileLines_saveSession
    {path : ByteString} {start : History} {view : View}
    (named : path ≠ []) (shows : Shows path start view)
    {operations : List Operation}
    (onHistfile : ∀ operation ∈ operations, OnHistfile path operation)
    (noWrite : .write path ∉ operations) :
    fileLines (performAll start operations).saveSession path =
      view.file ++
        (view.entries ++ entered operations).drop view.saved := by
  rcases performAll_file shows onHistfile noWrite with
    ⟨file, saved, afterwards, same⟩
  rw [(afterwards.save named).fileLines]
  exact same

/-- Behind the last rewrite, the file is exact if and only if the rewrite found
everything saved. -/
theorem fileLines_after_last_write
    {path : ByteString} {start : History} {view : View}
    (named : path ≠ []) (shows : Shows path start view)
    {before after : List Operation}
    (onBefore : ∀ operation ∈ before, OnHistfile path operation)
    (onAfter : ∀ operation ∈ after, OnHistfile path operation)
    (isLast : .write path ∉ after) :
    fileLines
          (performAll start (before ++ .write path :: after)).saveSession
          path =
        view.entries ++ entered (before ++ .write path :: after) ↔
      (performAll start before).unsaved = [] := by
  rcases performAll_entries shows onBefore with ⟨file, saved, middle⟩
  have unsaved :
      (performAll start before).unsaved =
        (view.entries ++ entered before).drop saved := by
    rw [History.unsaved, middle.entries, middle.saved]
  have allEntered :
      entered (before ++ .write path :: after) =
        entered before ++ entered after := by
    rw [entered_append]
    rfl
  rw [performAll_append, unsaved, allEntered, ← List.append_assoc]
  show fileLines
      (performAll ((performAll start before).writeToFile path)
        after).saveSession path = _ ↔ _
  rw [fileLines_saveSession named middle.rewrite onAfter isLast]
  show (view.entries ++ entered before) ++
      (view.entries ++ entered before ++ entered after).drop saved =
    view.entries ++ entered before ++ entered after ↔ _
  rw [List.append_cancel_left_eq,
    List.drop_append_of_le_length middle.bounded]
  exact List.append_left_eq_self

/-- A load of lines that are neither empty nor cut by a NUL byte. -/
theorem loadedLines_joinLines
    {lines : List ByteString} (areLines : ∀ line ∈ lines, IsLine line) :
    loadedLines (joinLines newline lines) = lines := by
  have plain : Plain newline lines := fun line isLine =>
    (areLines line isLine).2.1
  have nonempty : (lines.filter fun line => line ≠ []) = lines := by
    apply List.filter_eq_self.mpr
    intro line isLine
    exact decide_eq_true (areLines line isLine).1
  have uncut : ∀ line ∈ lines, cString line = id line := by
    intro line isLine
    apply List.takeWhile_eq_self_iff.mpr
    intro byte isByte
    apply decide_eq_true
    rintro rfl
    exact (areLines line isLine).2.2 isByte
  rw [loadedLines, linesOf_joinLines plain, nonempty,
    List.map_congr_left uncut, List.map_id]

/-- Lines of a text without empty lines and NUL bytes. -/
theorem isLine_of_mem_linesOf
    {content : ByteString} (terminated : Terminated newline content)
    (noEmptyLine : ∀ line ∈ linesOf newline content, line ≠ [])
    (noNul : 0 ∉ content) :
    ∀ line ∈ linesOf newline content, IsLine line := by
  intro line isLine
  refine ⟨noEmptyLine line isLine, plain_linesOf content line isLine, ?_⟩
  intro hasNul
  apply noNul
  rw [← joinLines_linesOf terminated]
  exact List.mem_flatMap.mpr
    ⟨line, isLine, List.mem_append_left _ hasNul⟩

theorem entries_initializeHistory
    {path content : ByteString} {disk : Disk}
    (isFile : disk.content path = some content) :
    (History.initializeHistory disk (some path)).entries =
      loadedLines content := by
  rw [History.initializeHistory, History.loadFromFile]
  simp only [isFile]
  exact List.nil_append _

/-- With the lines of the file as entries, the file is exact at the end if and
only if the last rewrite finds everything saved. -/
theorem fileLines_exact_iff
    {path : ByteString} {start : History} {lines : List ByteString}
    (named : path ≠ [])
    (shows : Shows path start ⟨lines, lines, lines.length⟩)
    {operations : List Operation}
    (onHistfile : ∀ operation ∈ operations, OnHistfile path operation) :
    fileLines (performAll start operations).saveSession path =
        lines ++ entered operations ↔
      LastWriteSettled path start operations := by
  have lastWrite :
      ∀ before after,
        operations = before ++ .write path :: after →
          .write path ∉ after →
            (fileLines (performAll start operations).saveSession path =
                lines ++ entered operations ↔
              (performAll start before).unsaved = []) := by
    rintro before after rfl isLast
    rcases List.forall_mem_append.mp onHistfile with ⟨onBefore, onRest⟩
    exact fileLines_after_last_write named shows onBefore
      (List.forall_mem_cons.mp onRest).2 isLast
  constructor
  · intro noDouble before after split isLast
    exact (lastWrite before after split isLast).mp noDouble
  · intro settled
    by_cases hasWrite : .write path ∈ operations
    · rcases exists_last_of_mem hasWrite with
        ⟨before, after, split, isLast⟩
      exact (lastWrite before after split isLast).mpr
        (settled before after split isLast)
    · rw [fileLines_saveSession named shows onHistfile hasWrite]
      exact congrArg (lines ++ ·) List.drop_left

/-- The history file ends up with its lines and those of the session, each
once, if and only if its last rewrite finds everything saved; the next session
then starts with the entries of this one. -/
theorem session_lines_not_doubled
    {path content : ByteString} {disk : Disk} {operations : List Operation}
    (named : path ≠ [])
    (isFile : disk.content path = some content)
    (terminated : Terminated newline content)
    (noEmptyLine : ∀ line ∈ linesOf newline content, line ≠ [])
    (noNul : 0 ∉ content)
    (writable : disk.writable path = true)
    (onHistfile : ∀ operation ∈ operations, OnHistfile path operation)
    {start final : History}
    (isStart : start = History.initializeHistory disk (some path))
    (isFinal : final = (performAll start operations).saveSession) :
    (fileLines final path =
        linesOf newline content ++ entered operations ↔
      LastWriteSettled path start operations) ∧
      (LastWriteSettled path start operations →
        (History.initializeHistory final.disk (some path)).entries =
          final.entries) := by
  have oldLines := isLine_of_mem_linesOf terminated noEmptyLine noNul
  have loaded : loadedLines content = linesOf newline content := by
    have joined := loadedLines_joinLines oldLines
    rwa [joinLines_linesOf terminated] at joined
  have shows :
      Shows path start
        ⟨linesOf newline content, linesOf newline content,
          (linesOf newline content).length⟩ := by
    have initial := shows_initializeHistory isFile terminated writable
    rwa [loaded, ← isStart] at initial
  have exactly := fileLines_exact_iff named shows onHistfile
  rw [← isFinal] at exactly
  refine ⟨exactly, fun settled => ?_⟩
  rcases performAll_entries shows onHistfile with ⟨file, saved, last⟩
  have finalShows := last.save named
  rw [← isFinal] at finalShows
  have finalLines := exactly.mpr settled
  rw [finalShows.fileLines] at finalLines
  rw [entries_initializeHistory finalShows.content, finalShows.entries,
    finalLines]
  apply loadedLines_joinLines
  intro line isLine
  rcases List.mem_append.mp isLine with isOld | isEntered
  · exact oldLines line isOld
  · rcases onHistfile _ (mem_entered.mp isEntered) with
      ⟨_, isEnter, isLine⟩ | isWrite | isAppend
    · cases isEnter
      exact isLine
    · cases isWrite
    · cases isAppend

/-- The rewrite comes right behind an append. -/
theorem session_lines_not_doubled_sample :
    fileLines
        (performAll
          (History.initializeHistory sampleDisk (some (literal "histfile")))
          [.enter (literal "ls"), .append (literal "histfile"),
            .write (literal "histfile"),
            .enter (literal "pwd")]).saveSession
        (literal "histfile") =
      [literal "ls", literal "pwd"] := by
  have settled :
      LastWriteSettled (literal "histfile")
        (History.initializeHistory sampleDisk (some (literal "histfile")))
        [.enter (literal "ls"), .append (literal "histfile"),
          .write (literal "histfile"), .enter (literal "pwd")] := by
    intro before after split _
    rcases before with
      _ | ⟨first, _ | ⟨second, _ | ⟨third, _ | ⟨fourth, rest⟩⟩⟩⟩ <;>
      simp at split
    rcases split with ⟨rfl, rfl, rfl⟩
    decide +kernel
  have onHistfile :
      ∀ operation ∈
        [Operation.enter (literal "ls"), .append (literal "histfile"),
          .write (literal "histfile"), .enter (literal "pwd")],
        OnHistfile (literal "histfile") operation := by
    simp only [List.forall_mem_cons]
    refine ⟨Or.inl ⟨_, rfl, ?_⟩, Or.inr (Or.inr rfl), Or.inr (Or.inl rfl),
      Or.inl ⟨_, rfl, ?_⟩, nofun⟩
    · exact ⟨by decide, by decide, by decide⟩
    · exact ⟨by decide, by decide, by decide⟩
  have isFile : sampleDisk.content (literal "histfile") = some [] := rfl
  exact (session_lines_not_doubled (by decide) isFile (Or.inl rfl) nofun
    List.not_mem_nil rfl onHistfile rfl rfl).1.mpr settled

/-- The rewrite of the history file does not count the line as saved, and the
end of the session appends it again. -/
theorem rewritten_line_doubled :
    (∀ operation ∈
        [Operation.enter (literal "ls"), .write (literal "histfile")],
        OnHistfile (literal "histfile") operation) ∧
      fileLines
          (performAll
            (History.initializeHistory sampleDisk
              (some (literal "histfile")))
            [.enter (literal "ls"),
              .write (literal "histfile")]).saveSession
          (literal "histfile") =
        [literal "ls", literal "ls"] := by
  constructor
  · simp only [List.forall_mem_cons]
    refine ⟨Or.inl ⟨_, rfl, by decide, by decide, by decide⟩,
      Or.inr (Or.inl rfl), nofun⟩
  · decide +kernel

end Shell.HistoryPersistence
