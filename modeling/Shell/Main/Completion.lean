import Mathlib.Data.List.Destutter
import Mathlib.Data.List.Sort
import Shell.Executor.LaunchMachine
import Shell.Executor.PathSearch
import Shell.Library.CommonPrefix

/-!
# Completing a command name

The completion functions of `main.cpp`, and `get_path_executables` from which
they take the names.  Readline calls `command_completion` once for each name:
the first call searches for the names, and the function keeps them and its
place among them in static variables.  `shell_completion` decides what a Tab
does with them: it lets readline insert what all names have in common, rings
the bell, or prints the names at the second Tab.
-/

namespace Shell.TabCompletion

open Shell.Syntax
open Shell.TextLines
open Shell.PathSearch
open Shell.LaunchMachine
open Shell.CommonPrefix

/-! ## The programs of the path -/

def dot : UInt8 := 0x2e

/-- `readdir`: the names in a directory, if it can be opened. -/
abbrev Listing := ByteString → Option (List ByteString)

/-- The body of the inner loop of `get_path_executables`. -/
def addEntry (executable : ByteString → Bool) (directory : ByteString)
    (executables : List ByteString) (name : ByteString) :
    List ByteString :=
  if name.head? = some dot then
    executables
  else if executable (inDirectory name directory) then
    if executables.contains name then executables else executables ++ [name]
  else
    executables

/-- The body of the outer loop of `get_path_executables`. -/
def scanDirectory (executable : ByteString → Bool) (listing : Listing)
    (executables : List ByteString) (directory : ByteString) :
    List ByteString :=
  if directory = [] then
    executables
  else
    match listing directory with
    | none => executables
    | some names => names.foldl (addEntry executable directory) executables

/-- `get_path_executables`. -/
def getPathExecutables (environment : PathSearch.Environment)
    (listing : Listing) : List ByteString :=
  match environment.path with
  | none => []
  | some path =>
      (linesOf colon path).foldl
        (scanDirectory environment.executable listing) []

/-- The names that `command_completion` searches. -/
def allCommands (environment : PathSearch.Environment) (listing : Listing) :
    List ByteString :=
  builtinCommands ++ getPathExecutables environment listing

/-! ## The generator -/

/-- The static variables of `command_completion` and those of the file. -/
structure Memory where
  found : List ByteString := []
  index : Nat := 0
  completionMatches : List ByteString := []
  completionPrefix : ByteString := []
  firstTabPressed : Bool := false
deriving DecidableEq, Repr

/-- The names with a prefix, sorted and without repetitions. -/
def candidates (commands : List ByteString) (text : ByteString) :
    List ByteString :=
  ((commands.filter fun command => text.isPrefixOf command).insertionSort
    (· ≤ ·)).destutter (· ≠ ·)

/-- The first call of `command_completion` for a text. -/
def Memory.search (memory : Memory) (commands : List ByteString)
    (text : ByteString) : Memory :=
  { memory with
    found := candidates commands text
    index := 0
    completionMatches := candidates commands text
    completionPrefix := text }

/-- `command_completion`. -/
def commandCompletion (commands : List ByteString) (text : ByteString)
    (state : Nat) (memory : Memory) : Option ByteString × Memory :=
  let memory := if state = 0 then memory.search commands text else memory
  match memory.found[memory.index]? with
  | none => (none, memory)
  | some name => (some name, { memory with index := memory.index + 1 })

/-- The calls of `rl_completion_matches`, up to the first that returns no name;
no result means that none of the given number of calls did. -/
def generate (commands : List ByteString) (text : ByteString) :
    Nat → Nat → Memory → Option (List ByteString × Memory)
  | 0, _, _ => none
  | calls + 1, state, memory =>
      match commandCompletion commands text state memory with
      | (none, memory) => some ([], memory)
      | (some name, memory) =>
          (generate commands text calls (state + 1) memory).map
            fun rest => (name :: rest.1, rest.2)

/-! ## The reaction to a Tab -/

/-- `longest_common_prefix`. -/
def longestCommonPrefix (names : List ByteString) : ByteString :=
  match names with
  | [] => []
  | first :: others => commonPrefixOf first others

/-- What a Tab prints, and the names that readline is given. -/
structure Reaction where
  printed : ByteString := []
  names : Option (List ByteString) := none
deriving DecidableEq, Repr

/-- `ring_bell`. -/
def bell : ByteString := [0x07]

/-- The names as they are printed at the second Tab. -/
def listed (names : List ByteString) : ByteString :=
  literal "\n" ++ (literal "  ").intercalate names ++ literal "\n"

/-- What `rl_completion_matches` returns for the names. -/
def nonempty (names : List ByteString) : Option (List ByteString) :=
  if names = [] then none else some names

/-- `shell_completion`. -/
def shellCompletion (commands : List ByteString) (text : ByteString)
    (start : Nat) (memory : Memory) : Option (Reaction × Memory) :=
  if start ≠ 0 then
    some ({}, memory)
  else
    (generate commands text (commands.length + 1) 0 memory).map
      fun (names, memory) =>
        if memory.completionMatches = [] then
          ({ printed := bell, names := nonempty names },
            { memory with firstTabPressed := false })
        else if memory.completionMatches.length = 1 then
          ({ names := nonempty names },
            { memory with firstTabPressed := false })
        else if memory.firstTabPressed = false then
          let common := longestCommonPrefix memory.completionMatches
          if memory.completionPrefix.length < common.length then
            ({ names := nonempty names },
              { memory with firstTabPressed := false })
          else
            ({ printed := bell }, { memory with firstTabPressed := true })
        else
          ({ printed := listed memory.completionMatches },
            { memory with firstTabPressed := false })

/-! ## Which names are found -/

section Names

variable {executable : ByteString → Bool} {listing : Listing}

theorem mem_addEntry
    {directory name other : ByteString} {executables : List ByteString} :
    name ∈ addEntry executable directory executables other ↔
      name ∈ executables ∨
        name = other ∧ name.head? ≠ some dot ∧
          executable (inDirectory name directory) = true := by
  unfold addEntry
  split_ifs with hidden isExecutable known
  · constructor
    · exact Or.inl
    · rintro (old | ⟨rfl, shown, -⟩)
      · exact old
      · exact absurd hidden shown
  · constructor
    · exact Or.inl
    · rintro (old | ⟨rfl, -⟩)
      · exact old
      · exact List.contains_iff_mem.mp known
  · rw [List.mem_append, List.mem_singleton]
    constructor
    · rintro (old | rfl)
      · exact Or.inl old
      · exact Or.inr ⟨rfl, hidden, isExecutable⟩
    · rintro (old | ⟨rfl, -⟩)
      · exact Or.inl old
      · exact Or.inr rfl
  · constructor
    · exact Or.inl
    · rintro (old | ⟨rfl, -, found⟩)
      · exact old
      · exact absurd found isExecutable

theorem mem_foldl_addEntry
    {directory name : ByteString} {executables names : List ByteString} :
    name ∈ names.foldl (addEntry executable directory) executables ↔
      name ∈ executables ∨
        name ∈ names ∧ name.head? ≠ some dot ∧
          executable (inDirectory name directory) = true := by
  induction names generalizing executables with
  | nil => simp
  | cons other names induction =>
      rw [List.foldl_cons, induction, mem_addEntry, List.mem_cons]
      tauto

/-- The name is an executable file of a directory of the path. -/
def InDirectory (executable : ByteString → Bool) (listing : Listing)
    (name directory : ByteString) : Prop :=
  directory ≠ [] ∧ name.head? ≠ some dot ∧
    executable (inDirectory name directory) = true ∧
    ∃ names, listing directory = some names ∧ name ∈ names

theorem mem_scanDirectory
    {directory name : ByteString} {executables : List ByteString} :
    name ∈ scanDirectory executable listing executables directory ↔
      name ∈ executables ∨ InDirectory executable listing name directory := by
  unfold scanDirectory InDirectory
  split_ifs with isEmpty
  · simp [isEmpty]
  · cases listing directory with
    | none => simp
    | some names =>
        dsimp only
        rw [mem_foldl_addEntry]
        simp only [Option.some.injEq, exists_eq_left', ne_eq, isEmpty,
          not_false_eq_true, true_and]
        tauto

theorem mem_getPathExecutables
    {environment : PathSearch.Environment} {path name : ByteString}
    (isPath : environment.path = some path) :
    name ∈ getPathExecutables environment listing ↔
      ∃ directory ∈ linesOf colon path,
        InDirectory environment.executable listing name directory := by
  have scanned :
      ∀ (directories executables : List ByteString),
        name ∈
            directories.foldl (scanDirectory environment.executable listing)
              executables ↔
          name ∈ executables ∨
            ∃ directory ∈ directories,
              InDirectory environment.executable listing name directory := by
    intro directories
    induction directories with
    | nil => simp
    | cons directory directories induction =>
        intro executables
        rw [List.foldl_cons, induction, mem_scanDirectory]
        simp only [List.exists_mem_cons_iff]
        tauto
  simp only [getPathExecutables, isPath]
  rw [scanned]
  simp

end Names

/-- The names that are offered are those with the prefix, in order. -/
theorem mem_candidates
    {commands : List ByteString} {text name : ByteString} :
    name ∈ candidates commands text ↔ name ∈ commands ∧ text <+: name := by
  have sorted :
      ((commands.filter fun command =>
        text.isPrefixOf command).insertionSort (· ≤ ·)).Pairwise
          (· ≤ ·) :=
    List.pairwise_insertionSort _ _
  rw [candidates, sorted.destutter_eq_dedup, List.mem_dedup,
    (List.perm_insertionSort _ _).mem_iff, List.mem_filter,
    List.isPrefixOf_iff_prefix]

theorem candidates_increasing
    (commands : List ByteString) (text : ByteString) :
    (candidates commands text).Pairwise (· < ·) := by
  have sorted :
      ((commands.filter fun command =>
        text.isPrefixOf command).insertionSort (· ≤ ·)).Pairwise
          (· ≤ ·) :=
    List.pairwise_insertionSort _ _
  rw [candidates, sorted.destutter_eq_dedup]
  have kept := sorted.sublist (List.dedup_sublist _)
  have distinct := List.nodup_dedup
    ((commands.filter fun command =>
      text.isPrefixOf command).insertionSort (· ≤ ·))
  exact (kept.and distinct).imp fun ⟨le, ne⟩ =>
    Std.lt_of_le_of_ne le ne

theorem length_candidates_le
    (commands : List ByteString) (text : ByteString) :
    (candidates commands text).length ≤ commands.length := by
  have shorter :=
    (List.destutter_sublist (· ≠ ·)
      ((commands.filter fun command =>
        text.isPrefixOf command).insertionSort (· ≤ ·))).length_le
  rw [(List.perm_insertionSort _ _).length_eq] at shorter
  exact shorter.trans (List.length_filter_le _ _)

/-- Increasing lists with the same members are equal. -/
theorem candidates_congr
    {commands : List ByteString} {text other : ByteString}
    (same :
      ∀ name ∈ commands, text <+: name ↔ other <+: name) :
    candidates commands text = candidates commands other := by
  have distinct :
      ∀ text, (candidates commands text).Nodup := fun text =>
    (candidates_increasing commands text).imp fun less => Std.ne_of_lt less
  apply List.Perm.eq_of_pairwise _ (candidates_increasing commands text)
    (candidates_increasing commands other)
  · apply (List.perm_ext_iff_of_nodup (distinct text) (distinct other)).mpr
    intro name
    rw [mem_candidates, mem_candidates]
    exact and_congr_right (same name)
  · intro first second _ _ less greater
    exact absurd greater (Std.not_gt_of_lt less)

/-! ## The calls of the generator -/

/-- The calls from a state on take the names from the index on. -/
theorem generate_from
    {commands : List ByteString} {text : ByteString} {calls state : Nat}
    {memory current : Memory}
    (isCurrent :
      (if state = 0 then memory.search commands text else memory) = current)
    (inside : current.index ≤ current.found.length)
    (enough : current.found.length < current.index + calls) :
    generate commands text calls state memory =
      some (current.found.drop current.index,
        { current with index := current.found.length }) := by
  induction calls generalizing state memory current with
  | zero => omega
  | succ calls induction =>
      rw [generate, commandCompletion, isCurrent]
      by_cases atEnd : current.index = current.found.length
      · rw [atEnd, List.getElem?_eq_none (Nat.le_refl _), List.drop_length,
          ← atEnd]
      · have isInside : current.index < current.found.length := by omega
        have moved :
            (if state + 1 = 0 then
                { current with index := current.index + 1 }.search commands
                  text
              else { current with index := current.index + 1 }) =
              { current with index := current.index + 1 } :=
          if_neg (Nat.succ_ne_zero state)
        rw [List.getElem?_eq_getElem isInside,
          List.drop_eq_getElem_cons isInside]
        dsimp only
        rw [induction moved isInside]
        · rfl
        · show current.found.length < current.index + 1 + calls
          omega

/-- The generator yields each of the names once, in order, and ends. -/
theorem generate_eq
    (commands : List ByteString) (text : ByteString) {calls : Nat}
    (memory : Memory)
    (enough : (candidates commands text).length < calls) :
    generate commands text calls 0 memory =
      some (candidates commands text,
        { memory.search commands text with
          index := (candidates commands text).length }) := by
  rw [generate_from (if_pos rfl) (Nat.zero_le _)]
  · rfl
  · show (candidates commands text).length < 0 + calls
    omega

/-! ## Tab after Tab -/

/-- What `shell_completion` makes of the names, and the flag behind it. -/
def react (names : List ByteString) (text : ByteString) (pressed : Bool) :
    Reaction × Bool :=
  if names = [] then
    ({ printed := bell }, false)
  else if names.length = 1 then
    ({ names := some names }, false)
  else if pressed then
    ({ printed := listed names }, false)
  else if text.length < (longestCommonPrefix names).length then
    ({ names := some names }, false)
  else
    ({ printed := bell }, true)

theorem shellCompletion_eq
    (commands : List ByteString) (text : ByteString) (memory : Memory) :
    ∃ next,
      shellCompletion commands text 0 memory =
          some ((react (candidates commands text) text
            memory.firstTabPressed).1, next) ∧
        next.firstTabPressed =
          (react (candidates commands text) text
            memory.firstTabPressed).2 := by
  have generated :=
    generate_eq commands text memory
      (Nat.lt_succ_of_le (length_candidates_le commands text))
  unfold shellCompletion react
  rw [if_neg (not_not.mpr rfl), generated, Option.map_some]
  dsimp only [Memory.search]
  generalize candidates commands text = names
  cases names with
  | nil => exact ⟨_, rfl, rfl⟩
  | cons first others =>
      have isNonempty : (first :: others) ≠ [] := List.cons_ne_nil _ _
      simp only [nonempty, if_neg isNonempty]
      split_ifs <;> first | exact ⟨_, rfl, rfl⟩ | simp_all

theorem prefix_longestCommonPrefix_iff
    {names : List ByteString} (isNonempty : names ≠ [])
    {text : ByteString} :
    text <+: longestCommonPrefix names ↔ ∀ name ∈ names, text <+: name := by
  cases names with
  | nil => exact absurd rfl isNonempty
  | cons first others => exact prefix_commonPrefixOf_iff

/-- Inserting what all names have in common keeps the names. -/
theorem candidates_longestCommonPrefix
    {commands : List ByteString} {text : ByteString}
    (isNonempty : candidates commands text ≠ []) :
    candidates commands (longestCommonPrefix (candidates commands text)) =
      candidates commands text := by
  have lower :
      ∀ common : ByteString,
        common <+: longestCommonPrefix (candidates commands text) ↔
          ∀ name ∈ candidates commands text, common <+: name :=
    fun _ => prefix_longestCommonPrefix_iff isNonempty
  apply candidates_congr
  intro name isCommand
  constructor
  · intro longer
    have extends_ : text <+: longestCommonPrefix (candidates commands text) :=
      (lower text).mpr fun other isCandidate =>
        (mem_candidates.mp isCandidate).2
    exact extends_.trans longer
  · intro isPrefix
    exact (lower _).mp (List.prefix_refl _) name
      (mem_candidates.mpr ⟨isCommand, isPrefix⟩)

/-- The word that readline makes of a word and of the names that it is given.
Without names it goes on to complete file names, because the shell does not set
`rl_attempted_completion_over`. -/
abbrev Readline := ByteString → Option (List ByteString) → ByteString

/-- Several names let readline replace a word by what they have in common. -/
def InsertsCommon (readline : Readline) : Prop :=
  ∀ text names, 2 ≤ names.length →
    readline text (some names) = longestCommonPrefix names

/-- Readline finds no file name that would change the word. -/
def NoFileCompletes (readline : Readline) (text : ByteString) : Prop :=
  readline text none = text

/-- A number of Tabs at the first word: what `shell_completion` prints at them,
the word and the variables behind them. -/
def pressTabs (readline : Readline) (commands : List ByteString) :
    Nat → ByteString → Memory → Option (ByteString × ByteString × Memory)
  | 0, text, memory => some ([], text, memory)
  | count + 1, text, memory =>
      (shellCompletion commands text 0 memory).bind fun done =>
        (pressTabs readline commands count (readline text done.1.names)
          done.2).map
          fun rest => (done.1.printed ++ rest.1, rest.2)

/-- One more Tab. -/
theorem pressTabs_succ
    (readline : Readline) {commands : List ByteString} {text : ByteString}
    {memory : Memory} {reaction : Reaction} {flag : Bool}
    (reacts :
      react (candidates commands text) text memory.firstTabPressed =
        (reaction, flag)) (count : Nat) :
    ∃ next : Memory,
      next.firstTabPressed = flag ∧
        pressTabs readline commands (count + 1) text memory =
          (pressTabs readline commands count (readline text reaction.names)
            next).map
            fun rest => (reaction.printed ++ rest.1, rest.2) := by
  rcases shellCompletion_eq commands text memory with ⟨next, done, isFlag⟩
  rw [reacts] at done isFlag
  refine ⟨next, isFlag, ?_⟩
  rw [pressTabs, done, Option.bind_some]

section Ambiguous

variable {readline : Readline} {commands : List ByteString}
  {text : ByteString} {memory : Memory} {names : List ByteString}

/-- Two Tabs print the names if there is nothing to insert. -/
theorem pressTabs_two
    (noFile : NoFileCompletes readline text)
    (isNames : candidates commands text = names)
    (several : 2 ≤ names.length)
    (nothingMore : ¬ text.length < (longestCommonPrefix names).length)
    (first : memory.firstTabPressed = false) :
    ∃ next : Memory,
      next.firstTabPressed = false ∧
        pressTabs readline commands 2 text memory =
          some (bell ++ listed names, text, next) := by
  have isNonempty : names ≠ [] := by
    rintro rfl
    cases several
  have notOne : names.length ≠ 1 := by omega
  have rings :
      react (candidates commands text) text memory.firstTabPressed =
        ({ printed := bell }, true) := by
    rw [first, isNames, react, if_neg isNonempty, if_neg notOne,
      if_neg Bool.false_ne_true, if_neg nothingMore]
  rcases pressTabs_succ readline rings 1 with ⟨middle, pressed, firstTab⟩
  have lists :
      react (candidates commands text) text middle.firstTabPressed =
        ({ printed := listed names }, false) := by
    rw [pressed, isNames, react, if_neg isNonempty, if_neg notOne,
      if_pos rfl]
  rcases pressTabs_succ readline lists 0 with ⟨last, released, secondTab⟩
  refine ⟨last, released, ?_⟩
  rw [firstTab, noFile]
  show (pressTabs readline commands (0 + 1) text middle).map _ = _
  rw [secondTab, noFile]
  simp [pressTabs]

end Ambiguous

/--
Where several commands begin with the word, the first Tab inserts what they have
in common if that is longer than the word, and the next two Tabs ring the bell
and print the commands.  Inserting does not change which commands are meant.
Readline is assumed to replace the word by what several names have in common,
and to find no file name for the word that results: at the bell and at the list
it is given no names and tries those of files.
-/
theorem tabs_print_candidates
    {readline : Readline} {commands : List ByteString} {text : ByteString}
    {memory : Memory} (inserts : InsertsCommon readline)
    (noFile :
      NoFileCompletes readline
        (longestCommonPrefix (candidates commands text)))
    (several : 2 ≤ (candidates commands text).length)
    (first : memory.firstTabPressed = false) :
    ∃ next : Memory,
      next.firstTabPressed = false ∧
        pressTabs readline commands
            (if text.length <
                (longestCommonPrefix (candidates commands text)).length
              then 3 else 2)
            text memory =
          some (bell ++ listed (candidates commands text),
            longestCommonPrefix (candidates commands text), next) := by
  have isNonempty : candidates commands text ≠ [] := by
    intro isEmpty
    rw [isEmpty] at several
    cases several
  have extended :
      text <+: longestCommonPrefix (candidates commands text) :=
    (prefix_longestCommonPrefix_iff isNonempty).mpr fun name isName =>
      (mem_candidates.mp isName).2
  have same := candidates_longestCommonPrefix isNonempty
  by_cases more :
      text.length < (longestCommonPrefix (candidates commands text)).length
  · rw [if_pos more]
    have offers :
        react (candidates commands text) text memory.firstTabPressed =
          ({ names := some (candidates commands text) }, false) := by
      have notOne : (candidates commands text).length ≠ 1 := by omega
      rw [first, react, if_neg isNonempty, if_neg notOne,
        if_neg Bool.false_ne_true, if_pos more]
    rcases pressTabs_succ readline offers 2 with
      ⟨middle, released, firstTab⟩
    rcases pressTabs_two noFile same several (Nat.lt_irrefl _) released with
      ⟨next, isReleased, others⟩
    refine ⟨next, isReleased, ?_⟩
    rw [firstTab, inserts text _ several, others]
    rfl
  · rw [if_neg more]
    have isWord :
        text = longestCommonPrefix (candidates commands text) :=
      extended.eq_of_length (Nat.le_antisymm extended.length_le
        (Nat.not_lt.mp more))
    rw [← isWord] at noFile
    rcases pressTabs_two noFile rfl several more first with
      ⟨next, isReleased, tabs⟩
    refine ⟨next, isReleased, ?_⟩
    rw [tabs, ← isWord]

/-- Readline in a directory without files. -/
def sampleReadline : Readline
  | text, none => text
  | _, some names => longestCommonPrefix names

/-- The commands that begin with the letter t. -/
theorem tabs_print_candidates_sample :
    ∃ next : Memory,
      next.firstTabPressed = false ∧
        pressTabs sampleReadline builtinCommands 2 (literal "t") {} =
          some (bell ++ listed [literal "trace", literal "type"],
            literal "t", next) := by
  have isNames :
      candidates builtinCommands (literal "t") =
        [literal "trace", literal "type"] := by
    decide +kernel
  have common :
      longestCommonPrefix [literal "trace", literal "type"] =
        literal "t" := by
    decide +kernel
  have several : 2 ≤ (candidates builtinCommands (literal "t")).length := by
    rw [isNames]
    decide
  have notPressed : ({} : Memory).firstTabPressed = false := rfl
  have inserts : InsertsCommon sampleReadline := fun _ _ _ => rfl
  have noFile : ∀ text, NoFileCompletes sampleReadline text := fun _ => rfl
  have tabs := tabs_print_candidates inserts (noFile _) several notPressed
  rw [isNames, common] at tabs
  exact tabs

/-! ## The names that Tab offers can be run -/

/-- What `get_path_executables` finds in a directory, `find_executable` finds
too. -/
theorem findExecutable_of_inDirectory
    {environment : PathSearch.Environment} {listing : Listing}
    {path name directory : ByteString}
    (isPath : environment.path = some path) (plain : slash ∉ name)
    (isDirectory : directory ∈ linesOf colon path)
    (isThere :
      InDirectory environment.executable listing name directory) :
    findExecutable environment name ≠ [] := by
  have noDirectory : ¬ name.contains slash = true := by
    simpa using plain
  simp only [findExecutable, if_neg noDirectory, isPath,
    searchDirectories_eq, firstExecutable]
  rcases isThere with ⟨isNonempty, -, isExecutable, -⟩
  have isCandidate :
      inDirectory name directory ∈
        ((linesOf colon path).map orCurrent).map (inDirectory name) := by
    refine List.mem_map_of_mem (List.mem_map.mpr
      ⟨directory, isDirectory, if_neg isNonempty⟩)
  intro nothing
  cases found :
      (((linesOf colon path).map orCurrent).map (inDirectory name)).find?
        environment.executable with
  | none =>
      exact absurd isExecutable
        (List.find?_eq_none.mp found _ isCandidate)
  | some program =>
      rw [found, Option.getD_some] at nothing
      rcases List.mem_map.mp (List.mem_of_find?_eq_some found) with
        ⟨_, -, rfl⟩
      simp [inDirectory, literal] at nothing

/--
The calls of readline get the built-in commands and the programs of the path
that begin with the word, each once and in order, and then nothing.  Every name
is one that the shell can run: a built-in command, or one for which the search
along the path finds a program.
-/
theorem completion_offers_runnable
    {environment : PathSearch.Environment} {listing : Listing}
    {path : ByteString} (isPath : environment.path = some path)
    (plain :
      ∀ directory names, listing directory = some names →
        ∀ name ∈ names, slash ∉ name)
    (text : ByteString) (memory : Memory) :
    ∃ names next,
      (∀ calls, names.length < calls →
        generate (allCommands environment listing) text calls 0 memory =
          some (names, next)) ∧
        names.Pairwise (· < ·) ∧
        (∀ name,
          name ∈ names ↔
            text <+: name ∧
              (isBuiltin name = true ∨
                ∃ directory ∈ linesOf colon path,
                  InDirectory environment.executable listing name
                    directory)) ∧
        ∀ name ∈ names,
          isBuiltin name = true ∨ findExecutable environment name ≠ [] := by
  have members :
      ∀ name,
        name ∈ candidates (allCommands environment listing) text ↔
          text <+: name ∧
            (isBuiltin name = true ∨
              ∃ directory ∈ linesOf colon path,
                InDirectory environment.executable listing name
                  directory) := by
    intro name
    rw [mem_candidates, allCommands, List.mem_append,
      mem_getPathExecutables isPath, isBuiltin, List.contains_iff_mem,
      and_comm]
  refine ⟨candidates (allCommands environment listing) text, _,
    fun calls enough => generate_eq _ text memory enough,
    candidates_increasing _ text, members, ?_⟩
  intro name isName
  rcases ((members name).mp isName).2 with
    builtin | ⟨directory, isDirectory, isThere⟩
  · exact Or.inl builtin
  · have ⟨_, _, _, names, isListing, isEntry⟩ := isThere
    exact Or.inr (findExecutable_of_inDirectory isPath
      (plain directory names isListing name isEntry) isDirectory isThere)

/-- A path of one directory, with the program of a command `exa` in it. -/
def sampleEnvironment : PathSearch.Environment where
  path := some (literal "/bin")
  executable := fun program => program = literal "/bin/exa"

def sampleListing : Listing := fun directory =>
  if directory = literal "/bin" then some [literal "exa", literal "exb"]
  else none

/-- The names that begin with `ex` are the command `exit` and the program. -/
theorem completion_offers_runnable_sample :
    ∃ names next,
      (∀ calls, names.length < calls →
        generate (allCommands sampleEnvironment sampleListing)
          (literal "ex") calls 0 {} = some (names, next)) ∧
        literal "exit" ∈ names ∧ literal "exa" ∈ names ∧
        literal "exb" ∉ names := by
  have plain :
      ∀ directory names, sampleListing directory = some names →
        ∀ name ∈ names, slash ∉ name := by
    intro directory names isListing
    unfold sampleListing at isListing
    split_ifs at isListing
    cases isListing
    decide +kernel
  have isPath : sampleEnvironment.path = some (literal "/bin") := rfl
  rcases completion_offers_runnable isPath plain (literal "ex") {} with
    ⟨names, next, generated, -, members, -⟩
  refine ⟨names, next, generated, (members _).mpr ?_, (members _).mpr ?_, ?_⟩
  · exact ⟨by decide +kernel, Or.inl (by decide +kernel)⟩
  · refine ⟨by decide +kernel, Or.inr ⟨literal "/bin", by decide +kernel,
      by decide +kernel, by decide +kernel, by decide +kernel,
      [literal "exa", literal "exb"], by decide +kernel, by decide +kernel⟩⟩
  · intro isName
    rcases ((members _).mp isName).2 with
      builtin | ⟨directory, isDirectory, -, -, isExecutable, -⟩
    · exact absurd builtin (by decide +kernel)
    · have onlyBin : ∀ directory ∈ linesOf colon (literal "/bin"),
          sampleEnvironment.executable
            (inDirectory (literal "exb") directory) = false := by
        decide +kernel
      rw [onlyBin directory isDirectory] at isExecutable
      exact absurd isExecutable (by decide)

end Shell.TabCompletion
