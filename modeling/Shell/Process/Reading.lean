import Mathlib.Data.List.Perm.Basic
import Shell.Library.AnsweredLoop
import Shell.Library.DescriptorTable
import Shell.Process.KernelFormats

/-!
# Reading the files of a process

The system calls of `inspect_process`.  `read_file` asks for parts of a file
until there is nothing left, `read_symlink` asks again with a larger buffer
until the target is shorter than the buffer, and `count_open_fds` counts the
entries of a directory.  What they return is compared with what there was to
read.
-/

namespace Shell.ProcessReading

open Shell.Syntax
open Shell.AnsweredLoop
open Shell.DescriptorTable
open Shell.JobTable
open Shell.KernelFormats
open Shell.Numerals
open Shell.ProcessInformation

/-! ## Files -/

/-- `EINTR`. -/
def eintr : Int := 4

/-- What a call of `read` returns: so many bytes, or -1 with `errno`. -/
inductive ReadAnswer where
  | read (bytes : ByteString)
  | failed (errno : Int)
deriving DecidableEq, Repr

/-- The loop of `read_file`, which returns from its body only. -/
def readLoop : Loop ByteString ReadAnswer (Except Int ByteString) where
  exit _ := none
  pass data answer :=
    match answer with
    | .read bytes =>
        if bytes ≠ [] then .inside (data ++ bytes) else .returned (.ok data)
    | .failed errno =>
        if errno = eintr then .inside data else .returned (.error errno)

/-- The answers to `open` and to the calls of `read` for one file. -/
structure FileCalls where
  openError : Option Int
  reads : Nat → ReadAnswer

/-- `read_file` after the first `count` calls of `read`. -/
def readFile (calls : FileCalls) (count : Nat) :
    Standing ByteString (Except Int ByteString) :=
  match calls.openError with
  | some errno => .returned (.error errno)
  | none => readLoop.after [] calls.reads count

/-- The size of the buffer of `read_file`. -/
def bufferSize : Nat := 4096

/-- What the kernel may answer for a file: the next bytes of its contents, and
nothing only at its end. -/
def Permitted (contents data : ByteString) : ReadAnswer → Prop
  | .read bytes =>
      bytes.length ≤ bufferSize ∧ data ++ bytes <+: contents ∧
        (bytes = [] → data = contents)
  | .failed _ => True

/-- An open file is read from its contents. -/
def Serves (contents : ByteString) (calls : FileCalls) : Prop :=
  calls.openError = none →
    readLoop.Permits (Permitted contents) [] calls.reads

/-- The calls of `read` are not interrupted for ever. -/
def Uninterrupted (calls : FileCalls) : Prop :=
  ∀ call, ∃ later, call ≤ later ∧ calls.reads later ≠ .failed eintr

/-- Bytes, or an interruption. -/
def GoesOn : ReadAnswer → Prop
  | .read bytes => bytes ≠ []
  | .failed errno => errno = eintr

/-- The calls of `read` bring bytes or are interrupted up to this answer. -/
def FirstOther (calls : FileCalls) (answer : ReadAnswer) : Prop :=
  ∃ call,
    calls.reads call = answer ∧
      ∀ earlier, earlier < call → GoesOn (calls.reads earlier)

/-- The whole contents if `read` comes to the end of the file, and otherwise
the error of `open` or of the first `read` that has failed without being
interrupted. -/
def Whole (contents : ByteString) (calls : FileCalls) :
    Except Int ByteString → Prop
  | .ok data =>
      data = contents ∧ calls.openError = none ∧
        FirstOther calls (.read [])
  | .error errno =>
      calls.openError = some errno ∨
        calls.openError = none ∧ errno ≠ eintr ∧
          FirstOther calls (.failed errno)

theorem readLoop_meets
    {contents : ByteString} {calls : FileCalls}
    (permits : readLoop.Permits (Permitted contents) [] calls.reads)
    (count : Nat) :
    (readLoop.after [] calls.reads count).Meets (· <+: contents)
      (fun result => ∀ data, result = .ok data → data = contents) := by
  refine Loop.after_meets permits ?_ ?_ ?_ count
  · exact List.nil_prefix
  · intro data result _ left
    cases left
  · intro data answer isFront _ permitted
    cases answer with
    | read bytes =>
        simp only [readLoop]
        split_ifs with isEnd
        · exact permitted.2.1
        · rintro _ ⟨⟩
          exact permitted.2.2 (not_not.mp isEnd)
    | failed errno =>
        simp only [readLoop]
        split_ifs with interrupted
        · exact isFront
        · intro data succeeded
          cases succeeded

theorem goesOn_of_pass
    {data next : ByteString} {answer : ReadAnswer}
    (passed : readLoop.pass data answer = .inside next) :
    GoesOn answer := by
  cases answer with
  | read bytes =>
      simp only [readLoop] at passed
      split_ifs at passed with more
      exact more
  | failed errno =>
      simp only [readLoop] at passed
      split_ifs at passed with interrupted
      exact interrupted

/-- The answer with which the loop returns. -/
def ReturnsWith : Except Int ByteString → ReadAnswer → Prop
  | .ok _, answer => answer = .read []
  | .error errno, answer => answer = .failed errno ∧ errno ≠ eintr

theorem returnsWith_of_pass
    {data : ByteString} {answer : ReadAnswer}
    {result : Except Int ByteString}
    (passed : readLoop.pass data answer = .returned result) :
    ReturnsWith result answer := by
  cases answer with
  | read bytes =>
      simp only [readLoop] at passed
      split_ifs at passed with more
      cases passed
      exact congrArg ReadAnswer.read (not_not.mp more)
  | failed errno =>
      simp only [readLoop] at passed
      split_ifs at passed with interrupted
      cases passed
      exact ⟨rfl, interrupted⟩

theorem readLoop_returned
    {calls : FileCalls} {count : Nat} {result : Except Int ByteString}
    (returned : readLoop.after [] calls.reads count = .returned result) :
    ∃ answer, ReturnsWith result answer ∧ FirstOther calls answer := by
  rcases Loop.after_eq_returned returned with
    ⟨_, ⟨⟩⟩ | ⟨call, data, stands, passed⟩
  refine ⟨calls.reads call, returnsWith_of_pass passed, call, rfl, ?_⟩
  intro earlier before
  rcases Loop.pass_of_inside stands before with ⟨_, _, wentOn⟩
  exact goesOn_of_pass wentOn

/-- Only an interruption leaves as much to read as there was before. -/
theorem readLoop_lowered
    {contents data next : ByteString} {answer : ReadAnswer}
    (permitted : Permitted contents data answer)
    (passed : readLoop.pass data answer = .inside next) :
    contents.length - next.length < contents.length - data.length ∨
      answer = .failed eintr ∧
        contents.length - next.length ≤ contents.length - data.length := by
  cases answer with
  | read bytes =>
      simp only [readLoop] at passed
      split_ifs at passed with more
      cases passed
      have fits := permitted.2.1.length_le
      have some := List.length_pos_iff.mpr more
      rw [List.length_append] at fits ⊢
      left
      omega
  | failed errno =>
      simp only [readLoop] at passed
      split_ifs at passed with interrupted
      cases passed
      exact Or.inr ⟨congrArg ReadAnswer.failed interrupted, Nat.le_refl _⟩

theorem readFile_whole
    {contents : ByteString} {calls : FileCalls}
    (serves : Serves contents calls) {count : Nat}
    {result : Except Int ByteString}
    (returned : readFile calls count = .returned result) :
    Whole contents calls result := by
  unfold readFile at returned
  split at returned
  next errno failed =>
    cases returned
    exact Or.inl failed
  next opened =>
    have meets := readLoop_meets (serves opened) count
    rw [returned] at meets
    rcases readLoop_returned returned with ⟨answer, ends, first⟩
    cases result with
    | ok data =>
        cases ends
        exact ⟨meets data rfl, opened, first⟩
    | error errno =>
        rcases ends with ⟨rfl, uninterrupted⟩
        exact Or.inr ⟨opened, uninterrupted, first⟩

theorem readFile_returns
    {contents : ByteString} {calls : FileCalls}
    (serves : Serves contents calls) (uninterrupted : Uninterrupted calls) :
    ∃ count result, readFile calls count = .returned result := by
  unfold readFile
  cases opened : calls.openError with
  | some errno => exact ⟨0, .error errno, rfl⟩
  | none =>
      exact Loop.returns (serves opened)
        (fun _ permitted passed => readLoop_lowered permitted passed)
        uninterrupted

/-! ## Symbolic links -/

/-- The sizes of the buffer of `read_symlink`. -/
def bufferSizes : List Nat :=
  [256, 512, 1024, 2048, 4096, 8192, 16384, 32768, 65536]

/-- The loop of `read_symlink`; a call of `readlink` returns what it has put
into a buffer of the given size, or fails. -/
def readSymlinkLoop (readlink : Nat → Option ByteString) :
    List Nat → ByteString
  | [] => []
  | size :: later =>
      match readlink size with
      | none => []
      | some bytes =>
          if bytes.length < size then bytes
          else readSymlinkLoop readlink later

/-- `read_symlink`. -/
def readSymlink (readlink : Nat → Option ByteString) : ByteString :=
  readSymlinkLoop readlink bufferSizes

theorem readSymlinkLoop_eq
    (target : ByteString) (sizes : List Nat) :
    readSymlinkLoop (fun size => some (target.take size)) sizes =
      if ∃ size ∈ sizes, target.length < size then target else [] := by
  induction sizes with
  | nil => simp [readSymlinkLoop]
  | cons size later induction =>
      rw [readSymlinkLoop]
      by_cases fits : target.length < size
      · have whole : target.take size = target :=
          List.take_of_length_le (Nat.le_of_lt fits)
        simp only [whole, List.mem_cons, exists_eq_or_imp, fits,
          true_or, if_true]
      · have cut : (target.take size).length = size :=
          List.length_take_of_le (Nat.le_of_not_lt fits)
        simp only [cut, lt_irrefl, if_false, induction, List.mem_cons,
          exists_eq_or_imp, fits, false_or]

/-- A target is read if it is shorter than the largest buffer. -/
theorem readSymlink_eq (target : ByteString) :
    readSymlink (fun size => some (target.take size)) =
      if target.length < 65536 then target else [] := by
  rw [readSymlink, readSymlinkLoop_eq]
  refine if_congr ⟨?_, ?_⟩ rfl rfl
  · rintro ⟨size, isSize, fits⟩
    have largest : ∀ size ∈ bufferSizes, size ≤ 65536 := by
      decide
    exact Nat.lt_of_lt_of_le fits (largest size isSize)
  · intro fits
    exact ⟨65536, by decide, fits⟩

/-! ## Open descriptors -/

/-- What `opendir` and `readdir` answer. -/
structure Listing where
  opens : Bool
  names : List ByteString
  fails : Bool
deriving DecidableEq, Repr

/-- `count_open_fds`. -/
def countOpenFds (listing : Listing) : Option Nat :=
  if listing.opens then
    let count :=
      listing.names.foldl
        (fun count name => if name.head? = some 0x2e then count else count + 1)
        0
    if listing.fails then none else some count
  else
    none

/-- The entries of a directory of descriptors, in any order. -/
def Lists {α : Type*} (table : Table α) (names : List ByteString) : Prop :=
  ∃ (fds : List ℕ) (numbers : List ByteString),
    fds.Nodup ∧ (∀ fd, fd ∈ fds ↔ fd ∈ table.openDescriptors) ∧
      List.Forall₂ DecimalField numbers (fds.map Int.ofNat) ∧
      names.Perm ([literal ".", literal ".."] ++ numbers)

/-- The entries that `count_open_fds` counts. -/
def isCounted (name : ByteString) : Bool :=
  name.head? ≠ some 0x2e

theorem foldl_counted (names : List ByteString) (start : Nat) :
    names.foldl
        (fun count name => if name.head? = some 0x2e then count else count + 1)
        start =
      start + names.countP isCounted := by
  induction names generalizing start with
  | nil => rfl
  | cons name names induction =>
      rw [List.foldl_cons, induction, List.countP_cons]
      by_cases hidden : name.head? = some 0x2e
      · simp [isCounted, hidden]
      · simp only [isCounted, hidden, if_false, ne_eq, not_false_eq_true,
          decide_true, if_true]
        omega

/-- No number begins with a dot. -/
theorem isCounted_of_decimalField
    {name : ByteString} {value : Int} (field : DecimalField name value) :
    isCounted name = true := by
  refine decide_eq_true fun isDot => ?_
  cases field.characters 0x2e (List.mem_of_mem_head? isDot)

theorem countP_isCounted_of_lists
    {α : Type*} {table : Table α} {names : List ByteString}
    (lists : Lists table names) :
    names.countP isCounted = table.openDescriptors.ncard := by
  rcases lists with ⟨fds, numbers, distinct, complete, written, entries⟩
  have counted : ∀ number ∈ numbers, isCounted number = true := by
    intro number isNumber
    rcases List.forall₂_iff_get.mp written with ⟨sameLength, fields⟩
    rcases List.mem_iff_get.mp isNumber with ⟨position, rfl⟩
    exact isCounted_of_decimalField
      (fields position position.2 (sameLength ▸ position.2))
  have asSet : table.openDescriptors = (fds.toFinset : Set ℕ) := by
    ext fd
    rw [← complete fd, Finset.mem_coe, List.mem_toFinset]
  calc
    names.countP isCounted
        = ([literal ".", literal ".."] ++ numbers).countP isCounted :=
      entries.countP_eq isCounted
    _ = numbers.countP isCounted := by
      rw [List.countP_append,
        List.countP_eq_zero.mpr (by decide), Nat.zero_add]
    _ = numbers.length := List.countP_eq_length.mpr counted
    _ = fds.length := by
      rw [written.length_eq, List.length_map]
    _ = table.openDescriptors.ncard := by
      rw [asSet, Set.ncard_coe_finset, List.toFinset_card_of_nodup distinct]

theorem countOpenFds_eq
    {α : Type*} {table : Table α} {listing : Listing}
    (lists :
      listing.opens = true → listing.fails = false →
        Lists table listing.names) :
    countOpenFds listing =
      if listing.opens = true ∧ listing.fails = false then
        some table.openDescriptors.ncard
      else
        none := by
  unfold countOpenFds
  simp only [foldl_counted, Nat.zero_add]
  cases opens : listing.opens with
  | false => simp
  | true =>
      cases fails : listing.fails with
      | true => simp
      | false => simp [countP_isCounted_of_lists (lists opens fails)]

/-! ## Inspection -/

/-- What there is to see of a process. -/
structure Process (α : Type*) where
  stat : ByteString
  status : ByteString
  cmdline : ByteString
  exe : ByteString
  descriptors : Table α

/-- The answers to the calls of `inspect_process`. -/
structure InspectCalls where
  stat : FileCalls
  status : FileCalls
  cmdline : FileCalls
  readlink : Nat → Option ByteString
  listing : Listing
  self : Int
  ticksPerSecond : Int
  strerror : Int → ByteString

/-- What the functions of this file return for these answers. -/
structure Gathers (calls : InspectCalls) (files : ProcessFiles) : Prop where
  stat : ∃ count, readFile calls.stat count = .returned files.stat
  status : ∃ count, readFile calls.status count = .returned files.status
  cmdline : ∃ count, readFile calls.cmdline count = .returned files.cmdline
  exe : files.exe = readSymlink calls.readlink
  openFds : files.openFds = countOpenFds calls.listing
  self : files.self = calls.self
  ticksPerSecond : files.ticksPerSecond = calls.ticksPerSecond
  strerror : files.strerror = calls.strerror

section

variable {α : Type*}

/-- The descriptors after a call of `read_file`, whose `UniqueFd` closes the
file if it was opened. -/
def afterRead (entry : α) (calls : FileCalls) (table : Table α) : Table α :=
  match calls.openError with
  | some _ => table
  | none => (table.allocate entry).2.close (table.allocate entry).1

theorem afterRead_eq (entry : α) (calls : FileCalls) (table : Table α) :
    afterRead entry calls table = table := by
  unfold afterRead
  split
  · rfl
  · exact Lease.close_allocate table entry

/-- The descriptors of the process while `count_open_fds` has its directory
open; those of another process are not changed by this. -/
def listedTable (entry : α) (calls : InspectCalls) (pid : Int)
    (table : Table α) : Table α :=
  if pid = calls.self then
    let table := afterRead entry calls.stat table
    let table := afterRead entry calls.status table
    let table := afterRead entry calls.cmdline table
    (table.allocate entry).2
  else
    table

theorem listedTable_self
    (entry : α) (calls : InspectCalls) (table : Table α) :
    listedTable entry calls calls.self table = (table.allocate entry).2 := by
  simp only [listedTable, afterRead_eq, if_true]

theorem ncard_listedTable
    (entry : α) (calls : InspectCalls) (pid : Int) (table : Table α) :
    (listedTable entry calls pid table).openDescriptors.ncard =
      table.openDescriptors.ncard + if pid = calls.self then 1 else 0 := by
  split
  next own =>
    rw [own, listedTable_self, Table.ncard_openDescriptors_allocate]
  next other => rw [listedTable, if_neg other, Nat.add_zero]

/-- The kernel answers for this process; the target of `exe` may be refused. -/
structure Shows (process : Process α) (entry : α) (pid : Int)
    (calls : InspectCalls) : Prop where
  stat : Serves process.stat calls.stat
  status : Serves process.status calls.status
  cmdline : Serves process.cmdline calls.cmdline
  exe :
    calls.readlink = (fun size => some (process.exe.take size)) ∨
      calls.readlink = fun _ => none
  listing :
    calls.listing.opens = true → calls.listing.fails = false →
      Lists (listedTable entry calls pid process.descriptors)
        calls.listing.names

variable {process : Process α} {entry : α} {pid : Int} {calls : InspectCalls}

theorem exists_gathers
    (shows : Shows process entry pid calls)
    (stat : Uninterrupted calls.stat)
    (status : Uninterrupted calls.status)
    (cmdline : Uninterrupted calls.cmdline) :
    ∃ files, Gathers calls files := by
  rcases readFile_returns shows.stat stat with ⟨statCount, statText, statRead⟩
  rcases readFile_returns shows.status status with
    ⟨statusCount, statusText, statusRead⟩
  rcases readFile_returns shows.cmdline cmdline with
    ⟨cmdlineCount, cmdlineText, cmdlineRead⟩
  exact
    ⟨{ stat := statText
       status := statusText
       cmdline := cmdlineText
       exe := readSymlink calls.readlink
       openFds := countOpenFds calls.listing
       self := calls.self
       ticksPerSecond := calls.ticksPerSecond
       strerror := calls.strerror },
      ⟨statCount, statRead⟩, ⟨statusCount, statusRead⟩,
      ⟨cmdlineCount, cmdlineRead⟩, rfl, rfl, rfl, rfl, rfl⟩

/-- The number that is reported does not contain the directory of the shell. -/
theorem completeInfo_openFds
    (shows : Shows process entry pid calls) {files : ProcessFiles}
    (gathers : Gathers calls files) (info : ProcessInfo) :
    (completeInfo files pid info).openFileDescriptors =
      if calls.listing.opens = true ∧ calls.listing.fails = false then
        some process.descriptors.openDescriptors.ncard
      else
        none := by
  have counted := countOpenFds_eq shows.listing
  rw [← gathers.openFds, ncard_listedTable] at counted
  show (if pid = files.self then files.openFds.map fun count => count - 1
    else files.openFds) = _
  rw [counted, gathers.self]
  by_cases own : pid = calls.self <;>
    by_cases listed :
        calls.listing.opens = true ∧ calls.listing.fails = false <;>
      simp [own, listed]

theorem inspectProcess_eq_info
    {files : ProcessFiles} {result : ProcessInfoResult} {info : ProcessInfo}
    (inspected : inspectProcess files pid = .ok result)
    (reported : result.info = some info) :
    ∃ text before,
      files.stat = .ok text ∧
        parseStat files.ticksPerSecond text {} = .ok (none, before) ∧
        info = completeInfo files pid before := by
  unfold inspectProcess at inspected
  split at inspected
  · cases inspected
    cases reported
  · split at inspected
    next =>
      cases inspected
      cases reported
    next text read =>
      split at inspected
      next => cases inspected
      next =>
        cases inspected
        cases reported
      next before parsed =>
        cases inspected
        cases reported
        exact ⟨text, before, read, parsed, rfl⟩

/-- Whatever short reads and interruptions there are, `inspect_process` comes to
an end; it has read each file as a whole, or has the error of a call of `open`
or `read` that has failed; it reports the executable unless `readlink` fails or
its path is too long; and it reports the number of descriptors that the process
has when nobody looks. -/
theorem inspection_sees_process
    (shows : Shows process entry pid calls)
    (stat : Uninterrupted calls.stat)
    (status : Uninterrupted calls.status)
    (cmdline : Uninterrupted calls.cmdline) :
    (∃ files, Gathers calls files) ∧
      ∀ files, Gathers calls files →
        Whole process.stat calls.stat files.stat ∧
        Whole process.status calls.status files.status ∧
        Whole process.cmdline calls.cmdline files.cmdline ∧
        ∀ result info,
          inspectProcess files pid = .ok result → result.info = some info →
            (∃ before,
              parseStat calls.ticksPerSecond process.stat {} =
                  .ok (none, before) ∧
                info = completeInfo files pid before) ∧
            info.executable =
              (if calls.readlink 256 ≠ none ∧
                  process.exe.length < 65536 then
                process.exe
              else
                []) ∧
            info.openFileDescriptors =
              if calls.listing.opens = true ∧
                  calls.listing.fails = false then
                some process.descriptors.openDescriptors.ncard
              else
                none := by
  refine ⟨exists_gathers shows stat status cmdline, fun files gathers => ?_⟩
  have wholeOf {contents : ByteString} {file : FileCalls}
      {read : Except Int ByteString} (serves : Serves contents file)
      (gathered : ∃ count, readFile file count = .returned read) :
      Whole contents file read :=
    gathered.elim fun _ returned => readFile_whole serves returned
  have wholeStat := wholeOf shows.stat gathers.stat
  refine ⟨wholeStat, wholeOf shows.status gathers.status,
    wholeOf shows.cmdline gathers.cmdline, ?_⟩
  intro result info inspected reported
  rcases inspectProcess_eq_info inspected reported with
    ⟨text, before, read, parsed, rfl⟩
  rw [read] at wholeStat
  rw [wholeStat.1, gathers.ticksPerSecond] at parsed
  refine ⟨⟨before, parsed, rfl⟩, ?_,
    completeInfo_openFds shows gathers before⟩
  show files.exe = _
  rw [gathers.exe]
  rcases shows.exe with target | refused
  · rw [target, readSymlink_eq]
    exact if_congr (and_iff_right (Option.some_ne_none _)).symm rfl rfl
  · rw [refused, if_neg fun answered => answered.1 rfl]
    rfl

end

/-- An interruption, all of the contents, and nothing from then on. -/
def interruptedOnce (contents : ByteString) : FileCalls where
  openError := none
  reads
    | 0 => .failed eintr
    | 1 => .read contents
    | _ => .read []

theorem uninterrupted_interruptedOnce (contents : ByteString) :
    Uninterrupted (interruptedOnce contents) :=
  fun call => ⟨call + 2, Nat.le_add_right call 2, nofun⟩

theorem serves_interruptedOnce
    {contents : ByteString} (nonempty : contents ≠ [])
    (fits : contents.length ≤ bufferSize) :
    Serves contents (interruptedOnce contents) := by
  have second :
      readLoop.after [] (interruptedOnce contents).reads 2 =
        .inside contents := by
    show readLoop.proceed (.read contents) (.inside []) = _
    simp [Loop.proceed, readLoop, Loop.enter, nonempty]
  have later (count : Nat) :
      readLoop.after [] (interruptedOnce contents).reads (count + 3) =
        .returned (.ok contents) := by
    induction count with
    | zero =>
        rw [Loop.after, second]
        rfl
    | succ count induction =>
        rw [Loop.after, induction]
        rfl
  intro _ count data stands
  rcases count with _ | _ | _ | count
  · exact True.intro
  · cases stands
    exact ⟨fits, List.prefix_refl contents, fun empty => empty.symm⟩
  · cases second.symm.trans stands
    exact ⟨Nat.zero_le _, by rw [List.append_nil], fun _ => rfl⟩
  · cases (later count).symm.trans stands

/-- Three open descriptors. -/
def sampleTable : Table Unit where
  lookup fd := if fd < 3 then some () else none
  bounded := ⟨3, fun _ beyond => if_neg (Nat.not_lt.mpr beyond)⟩

/-- The shell itself, with process number 7. -/
def sampleProcess : Process Unit where
  stat :=
    literal "7 (sh) R 1 7 7 0 7 0 0 0 0 0 5 3 0 0 20 0 1 0 9 0 0\n"
  status := literal "Name:\tsh\n"
  cmdline := literal "sh"
  exe := literal "/bin/sh"
  descriptors := sampleTable

def sampleCalls : InspectCalls where
  stat := interruptedOnce sampleProcess.stat
  status := interruptedOnce sampleProcess.status
  cmdline := interruptedOnce sampleProcess.cmdline
  readlink size := some (sampleProcess.exe.take size)
  listing :=
    ⟨true,
      [literal ".", literal "..", literal "0", literal "1", literal "2",
        literal "3"], false⟩
  self := 7
  ticksPerSecond := 100
  strerror _ := []

theorem lists_sample :
    Lists (listedTable () sampleCalls 7 sampleProcess.descriptors)
      sampleCalls.listing.names := by
  have free : sampleTable.firstFree = 3 :=
    (Nat.find_eq_iff _).mpr (by decide)
  have digit {character : UInt8} {value : Nat}
      (asDigit : isDigit character = true)
      (reads : decimalValue [character] = value) :
      DecimalField [character] (Int.ofNat value) :=
    reads ▸ .natural (List.cons_ne_nil _ _)
      (List.forall_mem_singleton.mpr asDigit)
  refine ⟨[0, 1, 2, 3], [[0x30], [0x31], [0x32], [0x33]], by decide, ?_, ?_,
    List.Perm.of_eq (by decide +kernel)⟩
  · intro fd
    have listed := listedTable_self () sampleCalls sampleTable
    have inTable :
        fd ∈ (listedTable () sampleCalls 7 sampleTable).openDescriptors ↔
          fd = 3 ∨ fd < 3 := by
      rw [show (7 : Int) = sampleCalls.self from rfl, listed,
        Table.openDescriptors_allocate, free, Set.mem_insert_iff]
      simp [Table.mem_openDescriptors, sampleTable]
    refine Iff.trans ?_ inTable.symm
    simp only [List.mem_cons, List.not_mem_nil, or_false]
    omega
  · exact .cons (digit rfl rfl) (.cons (digit rfl rfl)
      (.cons (digit rfl rfl) (.cons (digit rfl rfl) .nil)))

theorem shows_sample : Shows sampleProcess () 7 sampleCalls where
  stat := serves_interruptedOnce (by decide) (by decide +kernel)
  status := serves_interruptedOnce (by decide) (by decide +kernel)
  cmdline := serves_interruptedOnce (by decide) (by decide +kernel)
  exe := Or.inl rfl
  listing _ _ := lists_sample

/-- What the shell has read of itself. -/
def sampleFiles : ProcessFiles where
  stat := .ok sampleProcess.stat
  status := .ok sampleProcess.status
  cmdline := .ok sampleProcess.cmdline
  exe := sampleProcess.exe
  openFds := some 4
  self := 7
  ticksPerSecond := 100
  strerror _ := []

theorem gathers_sample : Gathers sampleCalls sampleFiles where
  stat := ⟨3, by rfl⟩
  status := ⟨3, by rfl⟩
  cmdline := ⟨3, by rfl⟩
  exe := by decide +kernel
  openFds := by decide +kernel
  self := rfl
  ticksPerSecond := rfl
  strerror := rfl

theorem inspection_sees_process_sample :
    Whole sampleProcess.stat sampleCalls.stat sampleFiles.stat ∧
      ∃ result info,
        inspectProcess sampleFiles 7 = .ok result ∧
          result.info = some info ∧
          info.openFileDescriptors =
            some sampleTable.openDescriptors.ncard := by
  have seen :=
    (inspection_sees_process shows_sample
      (uninterrupted_interruptedOnce _) (uninterrupted_interruptedOnce _)
      (uninterrupted_interruptedOnce _)).2 sampleFiles gathers_sample
  have reports :
      ∃ result info,
        inspectProcess sampleFiles 7 = .ok result ∧
          result.info = some info := by
    have some_info :
        (inspectProcess sampleFiles 7).toOption.bind
            (fun result => result.info) |>.isSome := by
      decide +kernel
    cases inspected : inspectProcess sampleFiles 7 with
    | error outside =>
        rw [inspected] at some_info
        cases some_info
    | ok result =>
        rw [inspected] at some_info
        rcases Option.isSome_iff_exists.mp some_info with ⟨info, reported⟩
        exact ⟨result, info, rfl, reported⟩
  rcases reports with ⟨result, info, inspected, reported⟩
  exact ⟨seen.1, result, info, inspected, reported,
    (seen.2.2.2 result info inspected reported).2.2⟩

end Shell.ProcessReading
