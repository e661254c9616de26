import Shell.JobControl.Operations
import Shell.Library.TextLines
import Shell.Library.TextSearch
import Shell.Sandbox.Options

/-!
# The files of a process

`inspect_process` and the functions that read the texts of `/proc/PID`.  The
kernel gives the contents of the files, or the number of an error.

A read from a string or a vector is a function that fails outside of it, so
that a run of `parse_stat` shows every position that it looks at.  The seconds
that a process has used are left as a number of clock ticks and their
frequency.
-/

namespace Shell.ProcessInformation

open Shell.Syntax
open Shell.JobTable
open Shell.JobOperations
open Shell.SandboxOptions
open Shell.TextLines
open Shell.TextSearch

/-! ## Numbers -/

/-- The characters that `trim` removes. -/
def isTrimmed (character : UInt8) : Bool :=
  character = 0x20 || character = 0x09 || character = 0x0d ||
    character = 0x0a

/-- The range of an integer type. -/
structure IntegerType where
  low : Int
  high : Int
deriving DecidableEq, Repr

def IntegerType.Contains (type : IntegerType) (value : Int) : Prop :=
  type.low ≤ value ∧ value ≤ type.high

instance (type : IntegerType) (value : Int) : Decidable (type.Contains value) :=
  inferInstanceAs (Decidable (_ ∧ _))

/-- `pid_t`. -/
def pidType : IntegerType := ⟨-0x80000000, 0x7fffffff⟩

/-- `long` and `long long`. -/
def longType : IntegerType := ⟨-0x8000000000000000, 0x7fffffffffffffff⟩

/-- `unsigned long long` and `std::uint64_t`. -/
def unsignedType : IntegerType := ⟨0, 0xffffffffffffffff⟩

/-- The sign that `std::from_chars` reads: a minus sign for a signed type. -/
def takeMinus (type : IntegerType) : ByteString → Bool × ByteString
  | 0x2d :: rest =>
      if type.low < 0 then (true, rest) else (false, 0x2d :: rest)
  | text => (false, text)

/-- `std::from_chars` with base ten: the value and the text behind it. -/
def fromChars (type : IntegerType) (text : ByteString) :
    Option (Int × ByteString) :=
  let (negative, digits) := takeMinus type text
  match scanDigits 0 digits with
  | (_, 0, _) => none
  | (magnitude, _, rest) =>
      let value : Int := if negative then -magnitude else magnitude
      if type.Contains value then some (value, rest) else none

/-- `parse_integer`. -/
def parseInteger (type : IntegerType) (text : ByteString) : Option Int :=
  let cleaned := trim isTrimmed text
  if cleaned = [] then
    none
  else
    match fromChars type cleaned with
    | some (value, []) => some value
    | _ => none

/-- `parse_kb_value`. -/
def parseKbValue (value : ByteString) : Option Nat :=
  match stoull value with
  | none => none
  | some (amount, rest) =>
      let unit := (words isSpace rest).head?.getD []
      if unit ≠ [] ∧ unit ≠ literal "kB" then none else some amount

/-! ## The record -/

/-- A number of clock ticks, and how many of them a second has. -/
structure CpuTime where
  ticks : Nat := 0
  perSecond : Int := 1
deriving DecidableEq, Repr

/-- `ProcessInfo`, with the default member initialisers of the source. -/
structure ProcessInfo where
  pid : Int := -1
  ppid : Int := -1
  pgid : Int := -1
  sessionId : Int := -1
  foregroundPgid : Int := -1
  name : ByteString := []
  state : ByteString := []
  commandLine : ByteString := []
  executable : ByteString := []
  cpuAllowedList : ByteString := []
  threads : Int := 0
  priority : Int := 0
  niceValue : Int := 0
  userCpu : CpuTime := {}
  systemCpu : CpuTime := {}
  virtualMemoryKb : Option Nat := none
  residentMemoryKb : Option Nat := none
  peakMemoryKb : Option Nat := none
  openFileDescriptors : Option Nat := none
  voluntaryContextSwitches : Option Nat := none
  involuntaryContextSwitches : Option Nat := none
deriving DecidableEq, Repr

/-- `state_description`. -/
def stateDescription (state : UInt8) : ByteString :=
  if state = 0x52 then literal "R (running)"
  else if state = 0x53 then literal "S (sleeping)"
  else if state = 0x44 then literal "D (uninterruptible sleep)"
  else if state = 0x5a then literal "Z (zombie)"
  else if state = 0x54 then literal "T (stopped)"
  else if state = 0x74 then literal "t (tracing stop)"
  else if state = 0x58 ∨ state = 0x78 then literal "X (dead)"
  else if state = 0x49 then literal "I (idle)"
  else [state] ++ literal " (unknown)"

/-- `normalize_cmdline`. -/
def normalizeCmdline (raw : ByteString) : ByteString :=
  let result :=
    raw.foldl
      (fun result character =>
        if character = 0 then
          if result ≠ [] ∧ result.getLast? ≠ some blank then
            result ++ [blank]
          else
            result
        else
          result ++ [character])
      []
  result.rdropWhile fun character => character = blank

/-! ## `stat` -/

/-- A read outside of a string or a vector. -/
inductive OutOfRange where
  | position (index : Nat)
  | field (index : Nat)
deriving DecidableEq, Repr

/-- `operator[]` of a string. -/
def characterAt (text : ByteString) (index : Nat) : Except OutOfRange UInt8 :=
  match text[index]? with
  | some character => .ok character
  | none => .error (.position index)

/-- `std::string::substr`. -/
def substring (text : ByteString) (start count : Nat) :
    Except OutOfRange ByteString :=
  if start > text.length then .error (.position start)
  else .ok ((text.drop start).take count)

/-- `operator[]` of a vector. -/
def fieldAt (fields : List ByteString) (index : Nat) :
    Except OutOfRange ByteString :=
  match fields[index]? with
  | some field => .ok field
  | none => .error (.field index)

/-- The fields that `parse_stat` reads, with the types of its variables. -/
def statFields : List (Nat × IntegerType) :=
  [(0, longType), (1, longType), (2, longType), (4, longType),
    (10, unsignedType), (11, unsignedType), (14, longType), (15, longType),
    (16, longType)]

/-- The chain of calls of `parse_integer`, which ends where one fails. -/
def readFields (tail : List ByteString) :
    List (Nat × IntegerType) → Except OutOfRange (Option (List Int))
  | [] => .ok (some [])
  | (index, type) :: later =>
      match fieldAt tail index with
      | .error outside => .error outside
      | .ok field =>
          match parseInteger type field with
          | none => .ok none
          | some value =>
              match readFields tail later with
              | .error outside => .error outside
              | .ok values => .ok (values.map (value :: ·))

/-- The numbers that `parse_stat` stores. -/
def storeFields (ticksPerSecond : Int) (info : ProcessInfo) :
    List Int → ProcessInfo
  | [ppid, pgid, session, tpgid, utime, stime, priority, niceValue,
      threads] =>
      let info :=
        { info with
          ppid := toInt32 ppid
          pgid := toInt32 pgid
          sessionId := toInt32 session
          foregroundPgid := toInt32 tpgid
          priority := priority
          niceValue := niceValue
          threads := threads }
      if ticksPerSecond > 0 then
        { info with
          userCpu := ⟨utime.toNat, ticksPerSecond⟩
          systemCpu := ⟨stime.toNat, ticksPerSecond⟩ }
      else
        info
  | _ => info

/-- A text of an error, or success, with the record as it is left. -/
abbrev StatResult := Option ByteString × ProcessInfo

/-- `parse_stat` behind the parentheses. -/
def parseStatTail (ticksPerSecond : Int) (text : ByteString)
    (info : ProcessInfo) : Except OutOfRange StatResult :=
  let tail := words isSpace text
  if tail.length ≤ 20 then
    .ok (some (literal "incomplete /proc stat data"), info)
  else
    match readFields tail statFields with
    | .error outside => .error outside
    | .ok none =>
        .ok
          (some (literal "invalid numeric field in /proc stat data"), info)
    | .ok (some values) => .ok (none, storeFields ticksPerSecond info values)

/-- `parse_stat`. -/
def parseStat (ticksPerSecond : Int) (text : ByteString)
    (info : ProcessInfo) : Except OutOfRange StatResult :=
  match find 0x28 text, rfind 0x29 text with
  | some openParen, some closeParen =>
      if closeParen ≤ openParen ∨ closeParen + 2 ≥ text.length then
        .ok (some (literal "malformed /proc stat data"), info)
      else
        match substring text 0 openParen with
        | .error outside => .error outside
        | .ok front =>
            match parseInteger pidType front with
            | none =>
                .ok (some (literal "invalid pid in /proc stat data"), info)
            | some pid => do
                let name ←
                  substring text (openParen + 1) (closeParen - openParen - 1)
                let state ← characterAt text (closeParen + 2)
                let info :=
                  { info with
                    pid := pid
                    name := name
                    state := stateDescription state }
                if closeParen + 4 > text.length then
                  .ok (some (literal "truncated /proc stat data"), info)
                else
                  let rest ← substring text (closeParen + 4) text.length
                  parseStatTail ticksPerSecond rest info
  | _, _ => .ok (some (literal "malformed /proc stat data"), info)

/-! ## `status` -/

/-- The value behind the colon of a line. -/
def applyStatusValue (key value : ByteString) (info : ProcessInfo) :
    ProcessInfo :=
  if key = literal "Name" ∧ value ≠ [] then
    { info with name := value }
  else if key = literal "State" ∧ value ≠ [] then
    { info with state := value }
  else if key = literal "Threads" then
    match parseInteger longType value with
    | some threads => { info with threads := threads }
    | none => info
  else if key = literal "VmSize" then
    { info with virtualMemoryKb := parseKbValue value }
  else if key = literal "VmRSS" then
    { info with residentMemoryKb := parseKbValue value }
  else if key = literal "VmPeak" then
    { info with peakMemoryKb := parseKbValue value }
  else if key = literal "Cpus_allowed_list" then
    { info with cpuAllowedList := value }
  else if key = literal "voluntary_ctxt_switches" then
    match parseInteger unsignedType value with
    | some switches =>
        { info with voluntaryContextSwitches := some switches.toNat }
    | none => info
  else if key = literal "nonvoluntary_ctxt_switches" then
    match parseInteger unsignedType value with
    | some switches =>
        { info with involuntaryContextSwitches := some switches.toNat }
    | none => info
  else
    info

/-- The body of the loop of `parse_status`. -/
def applyStatusLine (info : ProcessInfo) (line : ByteString) : ProcessInfo :=
  match find 0x3a line with
  | none => info
  | some colon =>
      applyStatusValue (line.take colon)
        (trim isTrimmed (line.drop (colon + 1))) info

/-- `parse_status`. -/
def parseStatus (text : ByteString) (info : ProcessInfo) : ProcessInfo :=
  (linesOf newline text).foldl applyStatusLine info

/-! ## The whole record -/

/-- What the kernel answers for a process; errors are numbers. -/
structure ProcessFiles where
  stat : Except Int ByteString
  status : Except Int ByteString
  cmdline : Except Int ByteString
  /-- The target of `exe`, or nothing. -/
  exe : ByteString
  openFds : Option Nat
  self : Int
  ticksPerSecond : Int
  strerror : Int → ByteString

/-- `ProcessInfoResult`. -/
structure ProcessInfoResult where
  info : Option ProcessInfo := none
  error : ByteString := []
deriving DecidableEq, Repr

/-- `process_error`. -/
def processError (files : ProcessFiles) (pid number : Int) : ByteString :=
  -- `ENOENT`, `ESRCH`, `EACCES` and `EPERM`.
  if number = 2 ∨ number = 3 then
    literal "process " ++ decimal pid ++ literal " does not exist"
  else if number = 13 ∨ number = 1 then
    literal "permission denied while inspecting process " ++ decimal pid
  else
    literal "failed to inspect process " ++ decimal pid ++ literal ": " ++
      files.strerror number

/-- `inspect_process` behind `parse_stat`. -/
def completeInfo (files : ProcessFiles) (pid : Int) (info : ProcessInfo) :
    ProcessInfo :=
  let info :=
    match files.status with
    | .ok text => parseStatus text info
    | .error _ => info
  let info :=
    match files.cmdline with
    | .ok text => { info with commandLine := normalizeCmdline text }
    | .error _ => info
  let info :=
    if info.commandLine = [] then
      { info with commandLine := literal "[" ++ info.name ++ literal "]" }
    else
      info
  let openFds :=
    if pid = files.self then files.openFds.map fun count => count - 1
    else files.openFds
  { info with executable := files.exe, openFileDescriptors := openFds }

/-- `inspect_process`. -/
def inspectProcess (files : ProcessFiles) (pid : Int) :
    Except OutOfRange ProcessInfoResult :=
  if pid ≤ 0 then
    .ok ⟨none, literal "pid must be a positive integer"⟩
  else
    match files.stat with
    | .error number => .ok ⟨none, processError files pid number⟩
    | .ok text =>
        match parseStat files.ticksPerSecond text {} with
        | .error outside => .error outside
        | .ok (some message, _) =>
            .ok
              ⟨none,
                literal "failed to parse process " ++ decimal pid ++
                  literal ": " ++ message⟩
        | .ok (none, info) => .ok ⟨some (completeInfo files pid info), []⟩

end Shell.ProcessInformation
