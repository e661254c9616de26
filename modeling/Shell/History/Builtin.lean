import Mathlib.Logic.Function.Basic
import Shell.JobControl.Operations
import Shell.Library.TextLines

/-!
# The history of the shell

`history.cpp` and `builtin_history`.  The list that readline keeps is the
entries, the first of which has index one; its length is `history_length`.  A
file that is opened for reading has a content; what is written to a file is its
content from then on.
-/

namespace Shell.ShellHistory

open Shell.Syntax
open Shell.JobTable
open Shell.JobOperations
open Shell.TextLines

/-- The files, without those that cannot be opened for reading. -/
structure Disk where
  content : ByteString → Option ByteString
  /-- The file can be opened for writing. -/
  writable : ByteString → Bool

/-- The variables of `history.cpp` with readline's list and the files. -/
structure History where
  entries : List ByteString := []
  histfilePath : ByteString := []
  persistedHistoryLength : Nat := 0
  disk : Disk

/-- The text of a line up to its first NUL byte. -/
def cString (line : ByteString) : ByteString :=
  line.takeWhile fun byte => byte ≠ 0

/-- The entries that a load makes of the content of a file. -/
def loadedLines (content : ByteString) : List ByteString :=
  ((linesOf newline content).filter fun line => line ≠ []).map cString

namespace History

/-- `add_history`. -/
def addHistory (history : History) (line : ByteString) : History :=
  { history with entries := history.entries ++ [line] }

/-- New content for a file. -/
def store (history : History) (filename content : ByteString) : History :=
  { history with
    disk :=
      { history.disk with
        content :=
          Function.update history.disk.content filename (some content) } }

/-- `load_from_file`. -/
def loadFromFile (history : History) (filename : ByteString) : History :=
  match history.disk.content filename with
  | none => history
  | some content =>
      let entries := history.entries ++ loadedLines content
      { history with
        entries := entries
        persistedHistoryLength := entries.length }

/-- `write_to_file`. -/
def writeToFile (history : History) (filename : ByteString) : History :=
  if history.disk.writable filename then
    history.store filename (joinLines newline history.entries)
  else
    history

/-- The entries that the counter leaves out. -/
def unsaved (history : History) : List ByteString :=
  history.entries.drop history.persistedHistoryLength

/-- `append_new_to_file`. -/
def appendNewToFile (history : History) (filename : ByteString) : History :=
  if history.entries.length ≤ history.persistedHistoryLength then
    history
  else if history.disk.writable filename then
    { history.store filename
        ((history.disk.content filename).getD [] ++
          joinLines newline history.unsaved) with
      persistedHistoryLength := history.entries.length }
  else
    history

/-- `initialize`, with the value of `HISTFILE`. -/
def initializeHistory (disk : Disk) (histfile : Option ByteString) : History :=
  match histfile with
  | none => { disk := disk }
  | some path =>
      History.loadFromFile { disk := disk, histfilePath := path } path

/-- `save_session`. -/
def saveSession (history : History) : History :=
  if history.histfilePath = [] then
    history
  else if (history.disk.content history.histfilePath).isSome then
    history.appendNewToFile history.histfilePath
  else
    history.writeToFile history.histfilePath

/-- `render`. -/
def render (history : History) (maxEntries : Int) : ByteString :=
  let length := history.entries.length
  let skipped :=
    if 0 < maxEntries ∧ maxEntries < length then length - maxEntries.toNat
    else 0
  (history.entries.zipIdx 1).drop skipped |>.flatMap fun (line, index) =>
    literal "    " ++ decimal index ++ literal "  " ++ line ++ literal "\n"

end History

/-- `std::stoi`, or nothing when it throws. -/
def stoi (text : ByteString) : Option Int :=
  match strtol text with
  | none => none
  | some (value, _) =>
      if -0x80000000 ≤ value ∧ value ≤ 0x7fffffff then some value else none

/-- The listing of `builtin_history`. -/
def listHistory (history : History) (args : List ByteString) : ByteString :=
  let maxEntries :=
    match args with
    | _ :: count :: _ =>
        if count ≠ [] ∧ count.head? ≠ some 0x2d then
          (stoi count).getD (-1)
        else
          -1
    | _ => -1
  history.render maxEntries

/-- `builtin_history`: the state behind it and what it prints. -/
def builtinHistory (history : History) (command : Command) :
    History × ByteString :=
  match command.args with
  | _ :: option :: filename :: _ =>
      if option = literal "-r" then (history.loadFromFile filename, [])
      else if option = literal "-w" then (history.writeToFile filename, [])
      else if option = literal "-a" then
        (history.appendNewToFile filename, [])
      else
        (history, listHistory history command.args)
  | _ => (history, listHistory history command.args)

end Shell.ShellHistory
