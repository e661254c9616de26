import Shell.Library.TextLines
import Shell.Parsing.Syntax

/-!
# The search for a program

`find_executable`.  What it asks the system is the value of `PATH`, which may
be unset, and of a path whether it is a regular file that may be executed.

The loop reads the directories of `PATH` with `std::getline`, which ends them
at colons instead of separating them by colons: an empty directory at the end
of the value is not read.
-/

namespace Shell.PathSearch

open Shell.Syntax
open Shell.TextLines

def colon : UInt8 := 0x3a
def slash : UInt8 := 0x2f

/-- What the search asks the system. -/
structure Environment where
  path : Option ByteString
  /-- `stat` finds a regular file and `access` allows to execute it. -/
  executable : ByteString → Bool

/-- The path of a command in a directory. -/
def inDirectory (command directory : ByteString) : ByteString :=
  directory ++ literal "/" ++ command

/-- An empty directory is the current one. -/
def orCurrent (directory : ByteString) : ByteString :=
  if directory = [] then literal "." else directory

/-- The loop of `find_executable`. -/
def searchDirectories (executable : ByteString → Bool)
    (command : ByteString) : List ByteString → ByteString
  | [] => []
  | directory :: later =>
      let fullPath := inDirectory command (orCurrent directory)
      if executable fullPath then fullPath
      else searchDirectories executable command later

/-- `find_executable`. -/
def findExecutable (environment : Environment) (command : ByteString) :
    ByteString :=
  if command.contains slash then
    if environment.executable command then command else []
  else
    match environment.path with
    | none => []
    | some path =>
        searchDirectories environment.executable command
          (linesOf colon path)

/-! ## The components of a path -/

/-- What stands between the colons; nothing means the current directory. -/
def components (path : ByteString) : List ByteString :=
  (path.splitOn colon).map orCurrent

/-- The command in the first directory that has it, or nothing. -/
def firstExecutable (executable : ByteString → Bool) (command : ByteString)
    (directories : List ByteString) : ByteString :=
  ((directories.map (inDirectory command)).find? executable).getD []

theorem searchDirectories_eq
    (executable : ByteString → Bool) (command : ByteString)
    (directories : List ByteString) :
    searchDirectories executable command directories =
      firstExecutable executable command (directories.map orCurrent) := by
  induction directories with
  | nil => rfl
  | cons directory later induction =>
      simp only [searchDirectories, firstExecutable, List.map_cons,
        List.find?_cons]
      cases executable (inDirectory command (orCurrent directory)) with
      | true => rfl
      | false => exact induction

/-- The search sees every component, except an empty one at the end. -/
theorem findExecutable_eq
    {command : ByteString} (noSlash : slash ∉ command) (path : ByteString)
    (executable : ByteString → Bool) :
    findExecutable ⟨some path, executable⟩ command =
      firstExecutable executable command
        (if Terminated colon path then (components path).dropLast
          else components path) := by
  have noDirectory : command.contains slash = false := by
    simpa using noSlash
  simp only [findExecutable, noDirectory, Bool.false_eq_true, if_false,
    searchDirectories_eq, components]
  split_ifs with terminated
  · rw [splitOn_of_terminated terminated, List.map_append, List.map_singleton,
      List.dropLast_concat]
  · rw [splitOn_of_not_terminated terminated]

theorem inDirectory_ne_nil (command directory : ByteString) :
    inDirectory command directory ≠ [] := by
  rw [inDirectory, List.append_assoc]
  exact List.append_ne_nil_of_right_ne_nil _ (List.cons_ne_nil _ _)

/-- A last directory matters if it has the command and no other has. -/
theorem firstExecutable_concat_eq_iff
    (executable : ByteString → Bool) (command : ByteString)
    (directories : List ByteString) (last : ByteString) :
    firstExecutable executable command directories =
        firstExecutable executable command (directories ++ [last]) ↔
      (∃ directory ∈ directories,
        executable (inDirectory command directory) = true) ∨
        executable (inDirectory command last) = false := by
  unfold firstExecutable
  rw [List.map_append, List.map_singleton, List.find?_append,
    List.find?_singleton]
  cases found : (directories.map (inDirectory command)).find? executable with
  | some path =>
      rcases List.mem_map.mp (List.mem_of_find?_eq_some found) with
        ⟨directory, isDirectory, rfl⟩
      exact iff_of_true rfl
        (Or.inl ⟨directory, isDirectory, List.find?_some found⟩)
  | none =>
      have absent :
          ¬ ∃ directory ∈ directories,
            executable (inDirectory command directory) = true := by
        rintro ⟨directory, isDirectory, isThere⟩
        exact List.find?_eq_none.mp found _ (List.mem_map_of_mem isDirectory)
          isThere
      cases isThere : executable (inDirectory command last) with
      | false => exact iff_of_true rfl (Or.inr rfl)
      | true =>
          refine iff_of_false (inDirectory_ne_nil command last).symm ?_
          exact not_or.mpr ⟨absent, Bool.true_eq_false.mp⟩

/--
The search returns the command in the first component of `PATH` that has it,
and nothing if none has, unless `PATH` is empty or ends in a colon and the
command is in the current directory and in no component before.
-/
theorem path_search_visits_components
    (executable : ByteString → Bool) {command : ByteString}
    (noSlash : slash ∉ command) (path : ByteString) :
    findExecutable ⟨some path, executable⟩ command =
        firstExecutable executable command (components path) ↔
      path ≠ [] ∧ path.getLast? ≠ some colon ∨
        (∃ directory ∈ (components path).dropLast,
          executable (inDirectory command directory) = true) ∨
        executable (literal "./" ++ command) = false := by
  rw [findExecutable_eq noSlash]
  split_ifs with terminated
  · have behind :
        components path = (components path).dropLast ++ [literal "."] := by
      rw [components, splitOn_of_terminated terminated, List.map_append,
        List.map_singleton, List.dropLast_concat]
      rfl
    have ends : ¬ (path ≠ [] ∧ path.getLast? ≠ some colon) :=
      fun unterminated => not_or.mpr unterminated terminated
    have exact_ :=
      firstExecutable_concat_eq_iff executable command
        (components path).dropLast (literal ".")
    rw [← behind] at exact_
    rw [exact_, or_iff_right ends]
    rfl
  · exact iff_of_true rfl (Or.inl (not_or.mp terminated))

/-- An empty component in the middle is the current directory; one at the end
does no harm where an earlier directory has the command. -/
theorem path_search_visits_components_sample :
    findExecutable
        ⟨some (literal "/bin::/opt"), fun path => path = literal "./tool"⟩
        (literal "tool") =
      firstExecutable (fun path => path = literal "./tool") (literal "tool")
        [literal "/bin", literal ".", literal "/opt"] ∧
      findExecutable
          ⟨some (literal "/bin:"), fun path => path = literal "/bin/tool"⟩
          (literal "tool") =
        firstExecutable (fun path => path = literal "/bin/tool")
          (literal "tool") [literal "/bin", literal "."] :=
  ⟨(path_search_visits_components _ (by decide) (literal "/bin::/opt")).mpr
      (Or.inl (by decide)),
    (path_search_visits_components _ (by decide) (literal "/bin:")).mpr
      (Or.inr (Or.inl ⟨literal "/bin", by decide, by decide⟩))⟩

/-- The current directory at the end of `PATH`, or as its only component, is
not searched. -/
theorem trailing_component_skipped :
    let executable := fun path : ByteString => path = literal "./tool"
    components (literal "/bin:") = [literal "/bin", literal "."] ∧
      findExecutable ⟨some (literal "/bin:"), executable⟩
          (literal "tool") = [] ∧
      firstExecutable executable (literal "tool")
          (components (literal "/bin:")) = literal "./tool" ∧
      findExecutable ⟨some [], executable⟩ (literal "tool") = [] ∧
      firstExecutable executable (literal "tool") (components []) =
        literal "./tool" := by
  decide +kernel

end Shell.PathSearch
