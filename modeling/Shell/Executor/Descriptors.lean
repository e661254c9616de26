import Shell.Library.DescriptorTable
import Shell.Parsing.Syntax

/-!
# The descriptors of a pipeline

`UniqueFd`, `PipePair` and `configure_child_io` over the descriptor table of
one process.  An entry says what a descriptor refers to: something the shell
had open before, one end of a pipe of the pipeline, or the file of a
redirection.  A child that cannot open or duplicate a descriptor writes a
message and calls `_exit(1)`; that is the error case here.
-/

namespace Shell.Descriptors

open Shell.Syntax
open Shell.DescriptorTable

universe u

/-! ## What a descriptor refers to -/

inductive PipeEnd where
  | read
  | write
deriving DecidableEq, Repr

/-- The flags of the calls of `open`. -/
inductive OpenMode where
  | readOnly
  | truncate
  | append
deriving DecidableEq, Repr

inductive Description (σ : Type*) where
  | inherited (entry : σ)
  | pipeEnd (index : ℕ) (side : PipeEnd)
  | file (path : ByteString) (mode : OpenMode)
deriving DecidableEq, Repr

variable {σ : Type*}

/-! ## Owned descriptors -/

/-- `UniqueFd`; the value `-1` is `none`. -/
abbrev UniqueFd := Option ℕ

/-- `UniqueFd::reset`, which is also the destructor. -/
def reset (fd : UniqueFd) (table : Table (Description σ)) :
    Table (Description σ) :=
  match fd with
  | none => table
  | some fd => table.close fd

/-- `PipePair`. -/
structure PipePair where
  readEnd : UniqueFd
  writeEnd : UniqueFd
deriving DecidableEq, Repr

/-- `close_all_pipes`. -/
def closeAllPipes (pipes : List PipePair) (table : Table (Description σ)) :
    List PipePair × Table (Description σ) :=
  (pipes.map fun _ => ⟨none, none⟩,
    pipes.foldl
      (fun table pipe => reset pipe.writeEnd (reset pipe.readEnd table))
      table)

/-- The destructor of the vector of pipes. -/
def destroyPipes (pipes : List PipePair) (table : Table (Description σ)) :
    Table (Description σ) :=
  pipes.foldl
    (fun table pipe => reset pipe.readEnd (reset pipe.writeEnd table)) table

/-- `pipe`, and the pair made of its two descriptors. -/
def createPipe (index : ℕ) (table : Table (Description σ)) :
    PipePair × Table (Description σ) :=
  let first := table.allocate (.pipeEnd index .read)
  let second := first.2.allocate (.pipeEnd index .write)
  (⟨some first.1, some second.1⟩, second.2)

/-! ## The standard streams of a child -/

/-- Why a child exits in `configure_child_io`. -/
inductive ConfigureFailure where
  | inputFile
  | outputFile
  | errorFile
  | stdin
  | stdout
  | stderr
deriving DecidableEq, Repr

def ConfigureFailure.text : ConfigureFailure → ByteString
  | .inputFile => literal "Error opening input file\n"
  | .outputFile => literal "Error opening output file\n"
  | .errorFile => literal "Error opening error file\n"
  | .stdin => literal "Failed to redirect stdin\n"
  | .stdout => literal "Failed to redirect stdout\n"
  | .stderr => literal "Failed to redirect stderr\n"

/-- Whether the calls of `open` for the three redirections succeed. -/
structure OpenAnswers where
  input : Bool := true
  output : Bool := true
  error : Bool := true
deriving DecidableEq, Repr

/-- The descriptor chosen for one stream, and the owner if it was opened. -/
structure Chosen (σ : Type*) where
  owned : UniqueFd
  source : UniqueFd
  table : Table (Description σ)

/-- One of the three blocks that choose a descriptor for a stream. -/
def chooseStream (redirected opens : Bool) (file : Description σ)
    (failure : ConfigureFailure) (otherwise : UniqueFd)
    (table : Table (Description σ)) :
    Except ConfigureFailure (Chosen σ) :=
  if redirected then
    if opens then
      let opened := table.allocate file
      .ok ⟨some opened.1, some opened.1, opened.2⟩
    else
      .error failure
  else
    .ok ⟨none, otherwise, table⟩

/-- `duplicate_or_exit`. -/
def duplicateOrExit (source : UniqueFd) (target : ℕ)
    (failure : ConfigureFailure) (table : Table (Description σ)) :
    Except ConfigureFailure (Table (Description σ)) :=
  match source with
  | none => .error failure
  | some fd =>
    if fd = target then
      .ok table
    else
      match table.dup2 fd target with
      | none => .error failure
      | some table => .ok table

/-- The flags of `open_output_redirect`. -/
def outputMode (append : Bool) : OpenMode :=
  if append then .append else .truncate

def inputFile (command : Command) : Description σ :=
  .file command.inputFile .readOnly

def outputFile (command : Command) : Description σ :=
  .file command.outputFile (outputMode command.appendOutput)

def errorFile (command : Command) : Description σ :=
  .file command.errorFile (outputMode command.appendError)

/-- The standard input of a command without an input redirection. -/
def pipedInput (index : ℕ) (pipes : List PipePair) : UniqueFd :=
  if 0 < index then
    pipes[index - 1]?.bind PipePair.readEnd
  else
    some 0

/-- The standard output of a command without an output redirection. -/
def pipedOutput (index commandCount : ℕ) (pipes : List PipePair) :
    UniqueFd :=
  if index + 1 < commandCount then
    pipes[index]?.bind PipePair.writeEnd
  else
    some 1

/-- `configure_child_io`. -/
def configureChildIo (opens : OpenAnswers) (command : Command)
    (index commandCount : ℕ) (pipes : List PipePair)
    (table : Table (Description σ)) :
    Except ConfigureFailure (List PipePair × Table (Description σ)) := do
  let input ←
    chooseStream command.hasInputRedirect opens.input (inputFile command)
      .inputFile (pipedInput index pipes) table
  let output ←
    chooseStream command.hasOutputRedirect opens.output (outputFile command)
      .outputFile (pipedOutput index commandCount pipes) input.table
  let error ←
    chooseStream command.hasErrorRedirect opens.error (errorFile command)
      .errorFile (some 2) output.table
  let table ← duplicateOrExit input.source 0 .stdin error.table
  let table ← duplicateOrExit output.source 1 .stdout table
  let table ← duplicateOrExit error.source 2 .stderr table
  let closed := closeAllPipes pipes table
  -- The three owners are destroyed in the reverse order of declaration.
  return (closed.1,
    reset input.owned (reset output.owned (reset error.owned closed.2)))

/-! ## Closing -/

/-- The descriptors that a pair still owns. -/
def PipePair.owned (pipe : PipePair) : List ℕ :=
  pipe.readEnd.toList ++ pipe.writeEnd.toList

theorem reset_eq_closeAll (fd : UniqueFd) (table : Table (Description σ)) :
    reset fd table = table.closeAll fd.toList := by
  cases fd <;> rfl

theorem closeAllPipes_eq_closeAll (pipes : List PipePair)
    (table : Table (Description σ)) :
    (closeAllPipes pipes table).2 =
      table.closeAll (pipes.flatMap PipePair.owned) := by
  unfold closeAllPipes
  induction pipes generalizing table with
  | nil => rfl
  | cons pipe pipes induction =>
      rw [List.foldl_cons, induction, List.flatMap_cons,
        Table.closeAll_append, PipePair.owned, Table.closeAll_append,
        ← reset_eq_closeAll, ← reset_eq_closeAll]

theorem lookup_destroyPipes (pipes : List PipePair)
    (table : Table (Description σ)) (fd : ℕ) :
    (destroyPipes pipes table).lookup fd =
      if fd ∈ pipes.flatMap PipePair.owned then none
      else table.lookup fd := by
  unfold destroyPipes
  induction pipes generalizing table with
  | nil => simp
  | cons pipe pipes induction =>
      rw [List.foldl_cons, induction, reset_eq_closeAll, reset_eq_closeAll,
        Table.lookup_closeAll, Table.lookup_closeAll]
      simp only [List.flatMap_cons, List.mem_append, PipePair.owned]
      split_ifs <;> tauto

/-- Once the pipes are closed their destructor has nothing left to close. -/
theorem destroyPipes_closed (pipes : List PipePair)
    (table : Table (Description σ)) :
    destroyPipes (pipes.map fun _ => ⟨none, none⟩) table = table := by
  induction pipes with
  | nil => rfl
  | cons pipe pipes induction => exact induction

/-! ## The pipes a table holds -/

def PipePair.endOf (pipe : PipePair) : PipeEnd → UniqueFd
  | .read => pipe.readEnd
  | .write => pipe.writeEnd

/-- The slots that pipe number `index` takes in a table. -/
def PipePair.slots (pipe : PipePair) (index : ℕ) :
    List (ℕ × Description σ) :=
  pipe.readEnd.toList.map (·, .pipeEnd index .read) ++
    pipe.writeEnd.toList.map (·, .pipeEnd index .write)

/-- The slots of all pipes, the pair at position `k` being pipe `k`. -/
def pipeSlots (pipes : List PipePair) : List (ℕ × Description σ) :=
  pipes.zipIdx.flatMap fun numbered => numbered.1.slots numbered.2

/-- The table is the base with all pipes open in it. -/
structure HoldsPipes (base table : Table (Description σ))
    (pipes : List PipePair) : Prop where
  lease : Lease base table (pipeSlots pipes)
  complete :
    ∀ pipe ∈ pipes, pipe.readEnd.isSome ∧ pipe.writeEnd.isSome

theorem PipePair.slots_descriptors (pipe : PipePair) (index : ℕ) :
    (pipe.slots (σ := σ) index).map Prod.fst = pipe.owned := by
  simp [PipePair.slots, PipePair.owned, Function.comp_def]

theorem pipeSlots_descriptors (pipes : List PipePair) :
    (pipeSlots (σ := σ) pipes).map Prod.fst =
      pipes.flatMap PipePair.owned := by
  have numbered := List.zipIdx_map_fst 0 pipes
  rw [pipeSlots, List.map_flatMap]
  simp only [PipePair.slots_descriptors]
  conv_rhs => rw [← numbered, List.flatMap_map]

theorem pipeSlots_append (pipes : List PipePair) (pipe : PipePair) :
    pipeSlots (σ := σ) (pipes ++ [pipe]) =
      pipeSlots pipes ++ pipe.slots pipes.length := by
  simp [pipeSlots, List.zipIdx_append]

theorem mem_pipeSlots {pipes : List PipePair} {index : ℕ} {pipe : PipePair}
    (at_ : pipes[index]? = some pipe) {slot : ℕ × Description σ}
    (member : slot ∈ pipe.slots index) :
    slot ∈ pipeSlots pipes :=
  List.mem_flatMap.mpr
    ⟨(pipe, index), List.mk_mem_zipIdx_iff_getElem?.mpr at_, member⟩

namespace HoldsPipes

variable {base table : Table (Description σ)} {pipes : List PipePair}

theorem nil (base : Table (Description σ)) : HoldsPipes base base [] where
  lease := Lease.refl base
  complete _ member := absurd member List.not_mem_nil

/-- A successful `pipe` adds the next pair. -/
theorem create (holds : HoldsPipes base table pipes) :
    HoldsPipes base (createPipe pipes.length table).2
      (pipes ++ [(createPipe pipes.length table).1]) where
  lease := by
    have first := holds.lease.allocate (.pipeEnd pipes.length .read)
    have second := first.allocate (.pipeEnd pipes.length .write)
    rw [List.append_assoc] at second
    rw [pipeSlots_append]
    exact second
  complete := by
    intro pipe member
    rcases List.mem_append.mp member with earlier | new
    · exact holds.complete pipe earlier
    · rw [List.mem_singleton.mp new]
      exact ⟨rfl, rfl⟩

/-- `close_all_pipes` gives the base back. -/
theorem closeAllPipes (holds : HoldsPipes base table pipes) :
    (closeAllPipes pipes table).2 = base := by
  rw [closeAllPipes_eq_closeAll, ← pipeSlots_descriptors (σ := σ)]
  exact holds.lease.closeAll

/-- So does the destructor of the pipes. -/
theorem destroyPipes (holds : HoldsPipes base table pipes) :
    destroyPipes pipes table = base := by
  ext1
  funext fd
  rw [lookup_destroyPipes, ← pipeSlots_descriptors (σ := σ)]
  exact holds.lease.lookup_without fd

end HoldsPipes

/-! ## Where the streams of a child lead -/

/-- What descriptor 0 of the child at a position refers to. -/
def inputTarget (base : Table (Description σ)) (command : Command)
    (index : ℕ) : Option (Description σ) :=
  if command.hasInputRedirect then
    some (inputFile command)
  else if 0 < index then
    some (.pipeEnd (index - 1) .read)
  else
    base.lookup 0

/-- What descriptor 1 of the child at a position refers to. -/
def outputTarget (base : Table (Description σ)) (command : Command)
    (index commandCount : ℕ) : Option (Description σ) :=
  if command.hasOutputRedirect then
    some (outputFile command)
  else if index + 1 < commandCount then
    some (.pipeEnd index .write)
  else
    base.lookup 1

/-- What descriptor 2 of a child refers to. -/
def errorTarget (base : Table (Description σ)) (command : Command) :
    Option (Description σ) :=
  if command.hasErrorRedirect then
    some (errorFile command)
  else
    base.lookup 2

/-- The descriptors of a child behind `configure_child_io`. -/
structure Wired (base : Table (Description σ)) (command : Command)
    (index commandCount : ℕ) (table : Table (Description σ)) : Prop where
  input : table.lookup 0 = inputTarget base command index
  output : table.lookup 1 = outputTarget base command index commandCount
  error : table.lookup 2 = errorTarget base command
  others : ∀ fd, 3 ≤ fd → table.lookup fd = base.lookup fd

/-- The redirections of a command that are there can be opened. -/
def OpenAnswers.Succeed (opens : OpenAnswers) (command : Command) : Prop :=
  (command.hasInputRedirect → opens.input) ∧
    (command.hasOutputRedirect → opens.output) ∧
    (command.hasErrorRedirect → opens.error)

/--
What choosing a stream achieves: `source` is the stream itself or a descriptor
that the base does not use, it leads to `target`, what was open stays as it
is, and whatever was opened is held by its owner.
-/
structure Chooses (base table : Table (Description σ))
    (held : List (ℕ × Description σ)) (stream : ℕ)
    (target : Option (Description σ)) (chosen : Chosen σ) (source : ℕ)
    (opened : List (ℕ × Description σ)) : Prop where
  source_eq : chosen.source = some source
  lease : Lease base chosen.table (held ++ opened)
  owned_eq : chosen.owned.toList = opened.map Prod.fst
  leads : chosen.table.lookup source = target
  isOpen : target ≠ none
  placed : source = stream ∨ base.lookup source = none
  keeps :
    ∀ fd, table.lookup fd ≠ none →
      chosen.table.lookup fd = table.lookup fd

theorem chooseStream_chooses
    {base table : Table (Description σ)} {held : List (ℕ × Description σ)}
    (lease : Lease base table held) {redirected opens : Bool}
    (succeeds : redirected → opens) (file : Description σ)
    (failure : ConfigureFailure) {stream otherwise : ℕ}
    {target : Option (Description σ)}
    (leads : table.lookup otherwise = target) (isOpen : target ≠ none)
    (placed : otherwise = stream ∨ base.lookup otherwise = none) :
    ∃ chosen source opened,
      chooseStream redirected opens file failure (some otherwise) table =
          .ok chosen ∧
        Chooses base table held stream
          (if redirected then some file else target) chosen source
          opened := by
  cases redirected with
  | false =>
      refine ⟨_, otherwise, [], rfl, rfl, ?_, rfl, leads, isOpen, placed,
        fun _ _ => rfl⟩
      rw [List.append_nil]
      exact lease
  | true =>
      have extended := lease.allocate file
      refine ⟨⟨some (table.allocate file).1, some (table.allocate file).1,
        (table.allocate file).2⟩, (table.allocate file).1,
        [((table.allocate file).1, file)], ?_, rfl, extended, rfl,
        table.lookup_allocate_self file, Option.some_ne_none file, Or.inr ?_,
        fun _ isOpen => Table.lookup_allocate_of_open isOpen file⟩
      · rw [chooseStream, if_pos rfl, if_pos (succeeds rfl)]
      · apply extended.free
        simp

theorem duplicateOrExit_ok
    {table : Table (Description σ)} {source : ℕ}
    (isOpen : table.lookup source ≠ none) (target : ℕ)
    (failure : ConfigureFailure) :
    ∃ duplicated,
      duplicateOrExit (some source) target failure table = .ok duplicated ∧
        ∀ fd,
          duplicated.lookup fd =
            if fd = target then table.lookup source
            else table.lookup fd := by
  by_cases same : source = target
  · refine ⟨table, ?_, ?_⟩
    · simp [duplicateOrExit, same]
    · intro fd
      split
      next isTarget => rw [isTarget, same]
      next => rfl
  · rcases Option.ne_none_iff_exists'.mp isOpen with ⟨entry, found⟩
    refine ⟨table.set target (some entry), ?_, ?_⟩
    · simp [duplicateOrExit, same, Table.dup2, found]
    · intro fd
      rw [Table.lookup_set, found]

/-- Descriptors 0, 1 and 2 are open. -/
def StandardOpen (base : Table (Description σ)) : Prop :=
  ∀ fd, fd < 3 → base.lookup fd ≠ none

/-- One end of a pipe that is held, and where it leads. -/
theorem HoldsPipes.leads
    {base table : Table (Description σ)} {pipes : List PipePair}
    (holds : HoldsPipes base table pipes) {index : ℕ}
    (inRange : index < pipes.length) (side : PipeEnd) :
    ∃ pipe fd,
      pipes[index]? = some pipe ∧ pipe.endOf side = some fd ∧
        table.lookup fd = some (.pipeEnd index side) ∧
          base.lookup fd = none := by
  have found := List.getElem?_eq_getElem inRange
  have complete := holds.complete _ (List.mem_of_getElem? found)
  have isSome : (pipes[index].endOf side).isSome := by
    cases side with
    | read => exact complete.1
    | write => exact complete.2
  rcases Option.isSome_iff_exists.mp isSome with ⟨fd, isEnd⟩
  have member :
      (fd, Description.pipeEnd index side) ∈ pipeSlots (σ := σ) pipes := by
    apply mem_pipeSlots found
    cases side <;>
      simp only [PipePair.endOf] at isEnd <;>
      simp [PipePair.slots, isEnd]
  exact ⟨pipes[index], fd, found, isEnd, holds.lease.entries _ member,
    holds.lease.free fd (List.mem_map_of_mem member)⟩

/-- A placed source is none of the other standard descriptors. -/
theorem StandardOpen.placed_ne
    {base : Table (Description σ)} (standard : StandardOpen base)
    {source stream : ℕ}
    (placed : source = stream ∨ base.lookup source = none)
    {other : ℕ} (isStandard : other < 3) (different : stream ≠ other) :
    source ≠ other := by
  rintro rfl
  rcases placed with same | unused
  · exact different same.symm
  · exact standard source isStandard unused

/-- The three calls of `duplicate_or_exit` do not disturb each other. -/
theorem duplicate_streams
    {base table : Table (Description σ)} (standard : StandardOpen base)
    {input output error : ℕ}
    (inputOpen : table.lookup input ≠ none)
    (outputOpen : table.lookup output ≠ none)
    (errorOpen : table.lookup error ≠ none)
    (outputPlaced : output = 1 ∨ base.lookup output = none)
    (errorPlaced : error = 2 ∨ base.lookup error = none) :
    ∃ first second third,
      duplicateOrExit (some input) 0 .stdin table = .ok first ∧
        duplicateOrExit (some output) 1 .stdout first = .ok second ∧
        duplicateOrExit (some error) 2 .stderr second = .ok third ∧
        ∀ fd,
          third.lookup fd =
            if fd = 0 then table.lookup input
            else if fd = 1 then table.lookup output
            else if fd = 2 then table.lookup error
            else table.lookup fd := by
  have outputZero := standard.placed_ne outputPlaced
    (by omega : 0 < 3) (by omega)
  have errorZero := standard.placed_ne errorPlaced
    (by omega : 0 < 3) (by omega)
  have errorOne := standard.placed_ne errorPlaced
    (by omega : 1 < 3) (by omega)
  rcases duplicateOrExit_ok inputOpen 0 .stdin with
    ⟨first, firstOk, lookupFirst⟩
  have outputFirst := lookupFirst output
  rw [if_neg outputZero] at outputFirst
  rcases duplicateOrExit_ok (outputFirst ▸ outputOpen) 1 .stdout with
    ⟨second, secondOk, lookupSecond⟩
  have errorSecond := lookupSecond error
  rw [if_neg errorOne, lookupFirst, if_neg errorZero] at errorSecond
  rcases duplicateOrExit_ok (errorSecond ▸ errorOpen) 2 .stderr with
    ⟨third, thirdOk, lookupThird⟩
  refine ⟨first, second, third, firstOk, secondOk, thirdOk, fun fd => ?_⟩
  rw [lookupThird, errorSecond, lookupSecond fd, outputFirst, lookupFirst fd]
  split_ifs <;> first | rfl | omega

/-- The table behind the closing calls of `configure_child_io`. -/
def released (pipes : List PipePair) (input output error : Chosen σ)
    (table : Table (Description σ)) : Table (Description σ) :=
  reset input.owned (reset output.owned (reset error.owned
    (closeAllPipes pipes table).2))

theorem lookup_released (pipes : List PipePair)
    (input output error : Chosen σ) (table : Table (Description σ))
    (fd : ℕ) :
    (released pipes input output error table).lookup fd =
      if fd ∈ pipes.flatMap PipePair.owned ++ input.owned.toList ++
          output.owned.toList ++ error.owned.toList then none
      else table.lookup fd := by
  simp only [released, reset_eq_closeAll, closeAllPipes_eq_closeAll,
    Table.lookup_closeAll, List.mem_append]
  split_ifs <;> tauto

/--
The second half of `configure_child_io`: the chosen descriptors are copied to
the three standard ones, and everything held is closed.
-/
theorem chosen_streams
    {base table : Table (Description σ)} (standard : StandardOpen base)
    {pipes : List PipePair} {first second third : Chosen σ}
    {source₀ source₁ source₂ : ℕ}
    {target₀ target₁ target₂ : Option (Description σ)}
    {opened₀ opened₁ opened₂ : List (ℕ × Description σ)}
    (chooses₀ :
      Chooses base table (pipeSlots pipes) 0 target₀ first source₀ opened₀)
    (chooses₁ :
      Chooses base first.table (pipeSlots pipes ++ opened₀) 1 target₁ second
        source₁ opened₁)
    (chooses₂ :
      Chooses base second.table (pipeSlots pipes ++ opened₀ ++ opened₁) 2
        target₂ third source₂ opened₂) :
    ∃ table₀ table₁ table₂,
      duplicateOrExit first.source 0 .stdin third.table = .ok table₀ ∧
        duplicateOrExit second.source 1 .stdout table₀ = .ok table₁ ∧
        duplicateOrExit third.source 2 .stderr table₁ = .ok table₂ ∧
        (released pipes first second third table₂).lookup 0 = target₀ ∧
        (released pipes first second third table₂).lookup 1 = target₁ ∧
        (released pipes first second third table₂).lookup 2 = target₂ ∧
        ∀ fd, 3 ≤ fd →
          (released pipes first second third table₂).lookup fd =
            base.lookup fd := by
  have inputSecond := (chooses₁.keeps source₀
    (chooses₀.leads ▸ chooses₀.isOpen)).trans chooses₀.leads
  have inputThird := (chooses₂.keeps source₀
    (inputSecond ▸ chooses₀.isOpen)).trans inputSecond
  have outputThird := (chooses₂.keeps source₁
    (chooses₁.leads ▸ chooses₁.isOpen)).trans chooses₁.leads
  rcases duplicate_streams standard (inputThird ▸ chooses₀.isOpen)
    (outputThird ▸ chooses₁.isOpen) (chooses₂.leads ▸ chooses₂.isOpen)
    chooses₁.placed chooses₂.placed with
    ⟨table₀, table₁, table₂, ok₀, ok₁, ok₂, lookup₂⟩
  rw [inputThird, outputThird, chooses₂.leads] at lookup₂
  have closed := lookup_released pipes first second third table₂
  rw [chooses₀.owned_eq, chooses₁.owned_eq, chooses₂.owned_eq,
    ← pipeSlots_descriptors (σ := σ), ← List.map_append, ← List.map_append,
    ← List.map_append] at closed
  have lease := chooses₂.lease
  have kept :
      ∀ fd, fd < 3 →
        (released pipes first second third table₂).lookup fd =
          table₂.lookup fd := by
    intro fd below
    rw [closed, if_neg (lease.not_held (standard fd below))]
  rw [chooses₀.source_eq, chooses₁.source_eq, chooses₂.source_eq]
  refine ⟨table₀, table₁, table₂, ok₀, ok₁, ok₂, ?_, ?_, ?_, ?_⟩
  · exact (kept 0 (by omega)).trans (lookup₂ 0)
  · exact (kept 1 (by omega)).trans (lookup₂ 1)
  · exact (kept 2 (by omega)).trans (lookup₂ 2)
  · intro fd other
    have untouched := lookup₂ fd
    rw [if_neg (by omega), if_neg (by omega), if_neg (by omega)] at untouched
    rw [closed, untouched]
    exact lease.lookup_without fd

section Wiring

variable {base table : Table (Description σ)} {pipes : List PipePair}
variable (standard : StandardOpen base)
variable (holds : HoldsPipes base table pipes)

include standard holds

theorem pipedInput_leads {index : ℕ} (inRange : index ≤ pipes.length) :
    ∃ fd target,
      pipedInput index pipes = some fd ∧
        target =
          (if 0 < index then some (.pipeEnd (index - 1) .read)
          else base.lookup 0) ∧
        table.lookup fd = target ∧ target ≠ none ∧
          (fd = 0 ∨ base.lookup fd = none) := by
  unfold pipedInput
  split
  next positive =>
    rcases holds.leads (by omega : index - 1 < pipes.length) .read with
      ⟨pipe, fd, found, isEnd, leads, unused⟩
    refine ⟨fd, _, ?_, rfl, leads, Option.some_ne_none _, Or.inr unused⟩
    rw [found, Option.bind_some]
    exact isEnd
  next =>
    have isOpen := standard 0 (by omega)
    exact ⟨0, _, rfl, rfl, holds.lease.lookup_of_open isOpen, isOpen,
      Or.inl rfl⟩

theorem pipedOutput_leads (index : ℕ) {commandCount : ℕ}
    (enough : pipes.length + 1 = commandCount) :
    ∃ fd target,
      pipedOutput index commandCount pipes = some fd ∧
        target =
          (if index + 1 < commandCount then some (.pipeEnd index .write)
          else base.lookup 1) ∧
        table.lookup fd = target ∧ target ≠ none ∧
          (fd = 1 ∨ base.lookup fd = none) := by
  unfold pipedOutput
  split
  next before =>
    rcases holds.leads (by omega : index < pipes.length) .write with
      ⟨pipe, fd, found, isEnd, leads, unused⟩
    refine ⟨fd, _, ?_, rfl, leads, Option.some_ne_none _, Or.inr unused⟩
    rw [found, Option.bind_some]
    exact isEnd
  next =>
    have isOpen := standard 1 (by omega)
    exact ⟨1, _, rfl, rfl, holds.lease.lookup_of_open isOpen, isOpen,
      Or.inl rfl⟩

/--
`configure_child_io` returns with all pipes and all opened files closed again,
except for their copies at the three standard descriptors.
-/
theorem configureChildIo_wired {index commandCount : ℕ}
    (enough : pipes.length + 1 = commandCount)
    (inRange : index < commandCount) {command : Command}
    {opens : OpenAnswers} (succeeds : opens.Succeed command) :
    ∃ closed final,
      configureChildIo opens command index commandCount pipes table =
          .ok (closed, final) ∧
        Wired base command index commandCount final := by
  rcases pipedInput_leads standard holds (by omega : index ≤ pipes.length)
    with ⟨input, inputLeads, pipedInput, rfl, leadsInput, openInput,
      placedInput⟩
  rcases chooseStream_chooses holds.lease succeeds.1 (inputFile command)
    .inputFile leadsInput openInput placedInput with
    ⟨first, source₀, opened₀, choseInput, chooses₀⟩
  rcases pipedOutput_leads standard holds index enough with
    ⟨output, outputLeads, pipedOutput, rfl, leadsOutput, openOutput,
      placedOutput⟩
  have stillOutput := chooses₀.keeps output (leadsOutput ▸ openOutput)
  rcases chooseStream_chooses chooses₀.lease succeeds.2.1
    (outputFile command) .outputFile (stillOutput.trans leadsOutput)
    openOutput placedOutput with
    ⟨second, source₁, opened₁, choseOutput, chooses₁⟩
  have openError := standard 2 (by omega)
  rcases chooseStream_chooses chooses₁.lease succeeds.2.2
    (errorFile command) .errorFile
    (chooses₁.lease.lookup_of_open openError) openError
    (Or.inl rfl : (2 : ℕ) = 2 ∨ _) with
    ⟨third, source₂, opened₂, choseError, chooses₂⟩
  rcases chosen_streams standard chooses₀ chooses₁ chooses₂ with
    ⟨table₀, table₁, table₂, ok₀, ok₁, ok₂, atInput, atOutput, atError,
      others⟩
  refine ⟨(closeAllPipes pipes table₂).1,
    released pipes first second third table₂, ?_, atInput, atOutput,
    atError, others⟩
  simp only [configureChildIo, pipedInput, pipedOutput, choseInput,
    choseOutput, choseError, ok₀, ok₁, ok₂, bind, Except.bind, pure,
    Except.pure, released]

end Wiring

theorem bind_eq_ok {ε : Type*} {α β : Type u} {first : Except ε α}
    {later : α → Except ε β} {result : β}
    (returned : (first >>= later) = .ok result) :
    ∃ value, first = .ok value ∧ later value = .ok result := by
  cases first with
  | error failure => cases returned
  | ok value => exact ⟨value, rfl, returned⟩

theorem chooseStream_succeeds
    {redirected opens : Bool} {file : Description σ}
    {failure : ConfigureFailure} {otherwise : UniqueFd}
    {table : Table (Description σ)} {chosen : Chosen σ}
    (chose :
      chooseStream redirected opens file failure otherwise table =
        .ok chosen) :
    redirected → opens := by
  intro isRedirected
  rw [chooseStream, if_pos isRedirected] at chose
  split at chose
  next succeeds => exact succeeds
  next => cases chose

/-- If `configure_child_io` returns, all redirections were opened. -/
theorem configureChildIo_succeeds
    {opens : OpenAnswers} {command : Command} {index commandCount : ℕ}
    {pipes : List PipePair} {table : Table (Description σ)}
    {result : List PipePair × Table (Description σ)}
    (returned :
      configureChildIo opens command index commandCount pipes table =
        .ok result) :
    opens.Succeed command := by
  unfold configureChildIo at returned
  rcases bind_eq_ok returned with ⟨input, choseInput, returned⟩
  rcases bind_eq_ok returned with ⟨output, choseOutput, returned⟩
  rcases bind_eq_ok returned with ⟨error, choseError, returned⟩
  exact ⟨chooseStream_succeeds choseInput, chooseStream_succeeds choseOutput,
    chooseStream_succeeds choseError⟩

end Shell.Descriptors
