import Mathlib.Tactic.FieldSimp
import Mathlib.Tactic.LinearCombination
import Shell.Library.Rounding
import Shell.Process.KernelFormats

/-!
# The report about a process

`render_process_info` with `format_kb`.  Amounts of memory and CPU times are
printed as decimal fractions of a `double`, so each of them has been rounded
more than once.  Here the numbers are read back from the report and compared
with those of the record.
-/

namespace Shell.ProcessReport

open Shell.Syntax
open Shell.JobOperations
open Shell.KernelFormats
open Shell.Numerals
open Shell.ProcessInformation
open Shell.Rounding
open Shell.TextLines

/-! ## Numbers as texts -/

/-- The nearest `double`; the numbers here are far from its largest and its
smallest. -/
def double (value : ℚ) : ℚ :=
  roundBinary 53 value

/-- A number in units of its last decimal place, as `std::fixed` prints it. -/
def lastPlaces (places : Nat) (value : ℚ) : Nat :=
  (roundEven (value * 10 ^ places)).toNat

/-- Zeros before the digits, up to a number of places. -/
def padded (places : Nat) (digits : ByteString) : ByteString :=
  List.replicate (places - digits.length) 0x30 ++ digits

/-- `std::fixed` with `std::setprecision`. -/
def fixed (places : Nat) (value : ℚ) : ByteString :=
  decimal (lastPlaces places value / 10 ^ places : Nat) ++
    0x2e ::
      padded places
        (decimal (lastPlaces places value % 10 ^ places : Nat))

/-! ## The report -/

/-- `format_kb`. -/
def formatKb : Option Nat → ByteString
  | none => literal "unavailable"
  | some value =>
      if value ≥ 1024 * 1024 then
        fixed 2 (double (double value / (1024 * 1024))) ++ literal " GiB"
      else if value ≥ 1024 then
        fixed 2 (double (double value / 1024)) ++ literal " MiB"
      else
        decimal value ++ literal " KiB"

/-- The seconds that `parse_stat` stores. -/
def seconds (time : CpuTime) : ℚ :=
  double (double time.ticks / double time.perSecond)

def timeText (time : CpuTime) : ByteString :=
  fixed 3 (seconds time) ++ literal " s"

def countText : Option Nat → ByteString
  | none => literal "unavailable"
  | some count => decimal count

def orUnavailable (text : ByteString) : ByteString :=
  if text = [] then literal "unavailable" else text

/-- The lines of the report; a name or a command line may break its own. -/
def reportLines (info : ProcessInfo) : List ByteString :=
  [literal "Process " ++ decimal info.pid ++ literal " (" ++ info.name ++
      literal ")",
    literal "  State:             " ++ info.state,
    literal "  PPID:              " ++ decimal info.ppid,
    literal "  Process group:     " ++ decimal info.pgid,
    literal "  Session:           " ++ decimal info.sessionId,
    literal "  Foreground PGID:   " ++ decimal info.foregroundPgid,
    literal "  Threads:           " ++ decimal info.threads,
    literal "  Priority / nice:   " ++ decimal info.priority ++
      literal " / " ++ decimal info.niceValue,
    literal "  CPU affinity:      " ++ orUnavailable info.cpuAllowedList,
    [],
    literal "CPU",
    literal "  User time:         " ++ timeText info.userCpu,
    literal "  System time:       " ++ timeText info.systemCpu,
    literal "  Voluntary ctx:     " ++ countText info.voluntaryContextSwitches,
    literal "  Involuntary ctx:   " ++
      countText info.involuntaryContextSwitches,
    [],
    literal "Memory",
    literal "  Virtual:           " ++ formatKb info.virtualMemoryKb,
    literal "  Resident:          " ++ formatKb info.residentMemoryKb,
    literal "  Peak:              " ++ formatKb info.peakMemoryKb,
    [],
    literal "I/O",
    literal "  Open FDs:          " ++ countText info.openFileDescriptors,
    [],
    literal "Command",
    literal "  Executable:        " ++ orUnavailable info.executable,
    literal "  Command line:      " ++ info.commandLine]

/-- `render_process_info`. -/
def renderProcessInfo (info : ProcessInfo) : ByteString :=
  joinLines newline (reportLines info)

/-! ## Reading digits -/

/-- The bytes of a natural number, and that they stand for it. -/
structure Spells (text : ByteString) (number : Nat) : Prop where
  digits : ∀ character ∈ text, isDigit character = true
  value : decimalValue text = number

theorem decimalValue_append (front : ByteString) (last : UInt8) :
    decimalValue (front ++ [last]) =
      10 * decimalValue front + (last.toNat - 0x30) := by
  rw [decimalValue_eq_foldl, decimalValue_eq_foldl, List.foldl_append]
  rfl

theorem digitChar_byte {digit : Nat} (small : digit < 10) :
    isDigit (UInt8.ofNat digit.digitChar.toNat) = true ∧
      (UInt8.ofNat digit.digitChar.toNat).toNat - 0x30 = digit := by
  have each :
      ∀ digit < 10,
        isDigit (UInt8.ofNat digit.digitChar.toNat) = true ∧
          (UInt8.ofNat digit.digitChar.toNat).toNat - 0x30 = digit := by
    decide
  exact each digit small

theorem decimal_natural (number : Nat) :
    decimal number =
      (Nat.toDigits 10 number).map fun character =>
        UInt8.ofNat character.toNat := by
  rw [← Nat.toList_repr]
  rfl

theorem spells_decimal (number : Nat) : Spells (decimal number) number := by
  induction number using Nat.strong_induction_on with
  | h number induction =>
      rw [decimal_natural]
      rcases Nat.lt_or_ge number 10 with small | large
      · rw [Nat.toDigits_of_lt_base small]
        rcases digitChar_byte small with ⟨digit, value⟩
        refine ⟨List.forall_mem_singleton.mpr digit, ?_⟩
        rw [List.map_singleton, ← List.nil_append [_], decimalValue_append,
          value]
        exact Nat.zero_add number
      · have front := induction (number / 10) (by omega)
        rw [decimal_natural] at front
        rcases digitChar_byte (Nat.mod_lt number (by decide : 0 < 10)) with
          ⟨digit, value⟩
        rw [Nat.toDigits_of_base_le (by decide) large, List.map_append]
        refine ⟨List.forall_mem_append.mpr
          ⟨front.digits, List.forall_mem_singleton.mpr digit⟩, ?_⟩
        rw [List.map_singleton, decimalValue_append, front.value, value]
        exact Nat.div_add_mod number 10

theorem length_decimal_le
    {number places : Nat} (some : 0 < places) (small : number < 10 ^ places) :
    (decimal number).length ≤ places := by
  rw [decimal_natural, List.length_map]
  exact (Nat.length_toDigits_le_iff (by decide) some).mpr small

theorem spells_padded
    {text : ByteString} {number : Nat} (spells : Spells text number)
    (places : Nat) : Spells (padded places text) number := by
  refine ⟨List.forall_mem_append.mpr ⟨?_, spells.digits⟩, ?_⟩
  · intro character isZero
    rw [(List.mem_replicate.mp isZero).2]
    decide
  · have zeros (count : Nat) :
        decimalValue (List.replicate count 0x30 ++ text) =
          decimalValue text := by
      induction count with
      | zero => rfl
      | succ count induction =>
          rw [← induction, decimalValue_eq_foldl, decimalValue_eq_foldl]
          rfl
    exact (zeros _).trans spells.value

theorem length_padded
    {text : ByteString} {places : Nat} (short : text.length ≤ places) :
    (padded places text).length = places := by
  rw [padded, List.length_append, List.length_replicate]
  omega

/-! ## Reading the report -/

def isDot (character : UInt8) : Bool := character = 0x2e

/-- The number that a reader takes from digits with or without a point. -/
def readNumber (text : ByteString) : ℚ :=
  let whole := text.takeWhile fun character => !isDot character
  let fraction := (text.dropWhile fun character => !isDot character).drop 1
  decimalValue whole + decimalValue fraction / 10 ^ fraction.length

/-- The amount of memory in a text, in KiB. -/
def readAmount (text : ByteString) : Option ℚ :=
  let number := text.takeWhile fun character => character ≠ blank
  let unit := text.dropWhile fun character => character ≠ blank
  if unit = literal " KiB" then some (readNumber number)
  else if unit = literal " MiB" then some (readNumber number * 1024)
  else if unit = literal " GiB" then some (readNumber number * (1024 * 1024))
  else none

theorem ne_of_isDigit
    {character other : UInt8} (digit : isDigit character = true)
    (noDigit : isDigit other = false) : character ≠ other := by
  rintro rfl
  cases digit.symm.trans noDigit

theorem not_isDot_of_isDigit
    {character : UInt8} (digit : isDigit character = true) :
    (!isDot character) = true := by
  rw [isDot, decide_eq_false (ne_of_isDigit digit rfl)]
  rfl

theorem readNumber_decimal (number : Nat) :
    readNumber (decimal number) = number := by
  have spells := spells_decimal number
  have noDot :
      ∀ character ∈ decimal number, (!isDot character) = true :=
    fun character isCharacter =>
      not_isDot_of_isDigit (spells.digits character isCharacter)
  rw [readNumber, List.takeWhile_eq_self_iff.mpr noDot,
    List.dropWhile_eq_nil_iff.mpr noDot, spells.value]
  simp [decimalValue]

/-- What is read is the number that has been rounded to the last place. -/
theorem readNumber_fixed
    {places : Nat} (some : 0 < places) (value : ℚ) :
    readNumber (fixed places value) =
      lastPlaces places value / 10 ^ places := by
  generalize isUnits : lastPlaces places value = units
  have whole := spells_decimal (units / 10 ^ places)
  have fraction :=
    spells_padded (spells_decimal (units % 10 ^ places)) places
  have power : 0 < 10 ^ places := Nat.pow_pos (by decide)
  have places_eq :=
    length_padded (length_decimal_le some (Nat.mod_lt units power))
  have noDot :
      ∀ character ∈ decimal (units / 10 ^ places : Nat),
        (!isDot character) = true :=
    fun character isCharacter =>
      not_isDot_of_isDigit (whole.digits character isCharacter)
  have sum : (units : ℚ) =
      10 ^ places * (units / 10 ^ places : Nat) +
        (units % 10 ^ places : Nat) := by
    exact_mod_cast (Nat.div_add_mod units (10 ^ places)).symm
  rw [fixed, isUnits, readNumber, List.takeWhile_append_of_pos noDot,
    List.dropWhile_append_of_pos noDot,
    List.takeWhile_cons_of_neg (by decide),
    List.dropWhile_cons_of_neg (by decide), List.append_nil,
    List.drop_one, List.tail_cons, whole.value, fraction.value, places_eq,
    sum]
  field_simp

/-- A fixed number consists of digits and a point. -/
theorem ne_of_mem_fixed
    {places : Nat} {value : ℚ} {character other : UInt8}
    (isCharacter : character ∈ fixed places value)
    (noDigit : isDigit other = false) (noDot : 0x2e ≠ other) :
    character ≠ other := by
  rw [fixed, List.mem_append, List.mem_cons] at isCharacter
  rcases isCharacter with inWhole | rfl | inFraction
  · exact ne_of_isDigit ((spells_decimal _).digits _ inWhole) noDigit
  · exact noDot
  · exact ne_of_isDigit
      ((spells_padded (spells_decimal _) _).digits _ inFraction) noDigit

/-- A number and its unit are separated at the blank. -/
theorem readAmount_append
    {number unit : ByteString}
    (solid : ∀ character ∈ number, character ≠ blank)
    (spaced : unit.head? = some blank) :
    readAmount (number ++ unit) =
      if unit = literal " KiB" then some (readNumber number)
      else if unit = literal " MiB" then some (readNumber number * 1024)
      else if unit = literal " GiB" then
        some (readNumber number * (1024 * 1024))
      else none := by
  have noBlank :
      ∀ character ∈ number, decide (character ≠ blank) = true :=
    fun character isCharacter => decide_eq_true (solid character isCharacter)
  rcases unit with _ | ⟨first, rest⟩
  · cases spaced
  · cases spaced
    rw [readAmount, List.takeWhile_append_of_pos noBlank,
      List.dropWhile_append_of_pos noBlank,
      List.takeWhile_cons_of_neg (by decide),
      List.dropWhile_cons_of_neg (by decide), List.append_nil]

/-! ## Memory -/

/-- What is printed of an amount of memory in a unit of so many KiB. -/
def printedIn (halvings kib : Nat) : ℚ :=
  lastPlaces 2 (double (double kib / 2 ^ halvings)) / 100 * 2 ^ halvings

/-- The unit in which `format_kb` prints an amount, as a power of two. -/
def unitFor (kib : Nat) : Nat :=
  if kib ≥ 1024 * 1024 then 20 else if kib ≥ 1024 then 10 else 0

/-- The amount of memory that a reader takes from the report. -/
def printedAmount (kib : Nat) : ℚ :=
  if unitFor kib = 0 then kib else printedIn (unitFor kib) kib

theorem unitFor_cases (kib : Nat) :
    1024 * 1024 ≤ kib ∧ unitFor kib = 20 ∨
      (1024 ≤ kib ∧ kib < 1024 * 1024) ∧ unitFor kib = 10 ∨
        kib < 1024 ∧ unitFor kib = 0 := by
  unfold unitFor
  split_ifs <;> omega

theorem readAmount_formatKb (kib : Nat) :
    readAmount (formatKb (some kib)) = some (printedAmount kib) := by
  have solid (value : ℚ) :
      ∀ character ∈ fixed 2 value, character ≠ blank :=
    fun _ isCharacter => ne_of_mem_fixed isCharacter rfl (by decide)
  have hundred : (10 : ℚ) ^ 2 = 100 := by
    norm_num
  rcases unitFor_cases kib with
    ⟨giga, unit⟩ | ⟨⟨mega, notGiga⟩, unit⟩ | ⟨notMega, unit⟩
  · have power : (1024 * 1024 : ℚ) = 2 ^ 20 := by
      norm_num
    rw [formatKb, if_pos giga, readAmount_append (solid _) rfl,
      if_neg (by decide), if_neg (by decide), if_pos rfl,
      readNumber_fixed (by decide), printedAmount, unit,
      if_neg (by decide), printedIn, power, hundred]
  · have power : (1024 : ℚ) = 2 ^ 10 := by
      norm_num
    rw [formatKb, if_neg (Nat.not_le.mpr notGiga), if_pos mega,
      readAmount_append (solid _) rfl, if_neg (by decide), if_pos rfl,
      readNumber_fixed (by decide), printedAmount, unit,
      if_neg (by decide), printedIn, power, hundred]
  · have noBlank : ∀ character ∈ decimal kib, character ≠ blank :=
      fun character isCharacter =>
        ne_of_isDigit ((spells_decimal kib).digits character isCharacter)
          rfl
    have notGiga : ¬ kib ≥ 1024 * 1024 := by
      omega
    rw [formatKb, if_neg notGiga, if_neg (Nat.not_le.mpr notMega),
      readAmount_append noBlank rfl, if_pos rfl, readNumber_decimal,
      printedAmount, if_pos unit]

theorem double_nonneg (number : Nat) : 0 ≤ double number := by
  have ordered : roundBinary 53 0 ≤ double number :=
    roundBinary_mono (by decide) (le_refl 0) (Nat.cast_nonneg number)
  rwa [roundBinary_zero] at ordered

/-- The second rounding to a `double` changes nothing. -/
theorem double_div_pow (number halvings : Nat) :
    double (double number / 2 ^ halvings) = double number / 2 ^ halvings :=
  roundBinary_div_pow (by decide) (Nat.cast_nonneg number) halvings

theorem double_exact {number : Nat} (small : number < 2 ^ 53) :
    double number = number :=
  roundBinary_natCast small

theorem lastPlaces_mono
    (places : Nat) {lower upper : ℚ} (ordered : lower ≤ upper) :
    lastPlaces places lower ≤ lastPlaces places upper := by
  apply Int.toNat_le_toNat
  apply roundEven_mono
  exact mul_le_mul_of_nonneg_right ordered (by positivity)

theorem lastPlaces_error
    (places : Nat) {value : ℚ} (nonnegative : 0 ≤ value) :
    |(lastPlaces places value : ℚ) - value * 10 ^ places| ≤ 1 / 2 := by
  have scaled : 0 ≤ value * 10 ^ places :=
    mul_nonneg nonnegative (by positivity)
  have asInteger :
      ((lastPlaces places value : ℕ) : ℚ) =
        (roundEven (value * 10 ^ places) : ℤ) := by
    rw [lastPlaces, ← Int.cast_natCast,
      Int.toNat_of_nonneg (roundEven_nonneg scaled)]
  rw [asInteger]
  exact abs_roundEven_sub_le _

theorem printedIn_mono
    (halvings : Nat) {lower upper : Nat} (ordered : lower ≤ upper) :
    printedIn halvings lower ≤ printedIn halvings upper := by
  have doubles : double lower ≤ double upper :=
    roundBinary_mono (by decide) (Nat.cast_nonneg lower)
      (Nat.cast_le.mpr ordered)
  have places :
      lastPlaces 2 (double (double lower / 2 ^ halvings)) ≤
        lastPlaces 2 (double (double upper / 2 ^ halvings)) := by
    rw [double_div_pow, double_div_pow]
    exact lastPlaces_mono 2
      (div_le_div_of_nonneg_right doubles (by positivity))
  have places :
      (lastPlaces 2 (double (double lower / 2 ^ halvings)) : ℚ) ≤
        lastPlaces 2 (double (double upper / 2 ^ halvings)) :=
    Nat.cast_le.mpr places
  unfold printedIn
  gcongr

/-- The number of the unit itself is printed without an error. -/
theorem printedIn_exact
    {halvings count : Nat} (small : count * 2 ^ halvings < 2 ^ 53) :
    printedIn halvings (count * 2 ^ halvings) =
      (count * 2 ^ halvings : Nat) := by
  have quotient :
      double (double (count * 2 ^ halvings : Nat) / 2 ^ halvings) = count := by
    rw [double_div_pow, double_exact small]
    push_cast
    exact mul_div_cancel_right₀ _ (by positivity)
  have places : lastPlaces 2 (count : ℚ) = count * 100 := by
    have whole : (count : ℚ) * 10 ^ 2 = ((count * 100 : Nat) : ℤ) := by
      push_cast
      norm_num
    rw [lastPlaces, whole, roundEven_intCast]
    rfl
  rw [printedIn, quotient, places]
  push_cast
  ring

/-- Half a hundredth of the unit, and the error of the `double`. -/
theorem abs_printedIn_sub_le (halvings kib : Nat) :
    |printedIn halvings kib - kib| ≤
      2 ^ halvings / 200 + if kib < 2 ^ 53 then 0 else (kib : ℚ) / 2 ^ 53 := by
  have unit : (0 : ℚ) < 2 ^ halvings := by
    positivity
  have stored :
      |double kib - kib| ≤ if kib < 2 ^ 53 then 0 else (kib : ℚ) / 2 ^ 53 := by
    split_ifs with small
    · rw [double_exact small, sub_self, abs_zero]
    · exact abs_roundBinary_sub_le (Nat.cast_nonneg kib)
  have shown :
      |printedIn halvings kib - double kib| ≤ 2 ^ halvings / 200 := by
    have error :=
      lastPlaces_error 2 (div_nonneg (double_nonneg kib) unit.le)
    have scaled :
        printedIn halvings kib - double kib =
          (lastPlaces 2 (double kib / 2 ^ halvings) -
              double kib / 2 ^ halvings * 10 ^ 2) *
            (2 ^ halvings / 100) := by
      rw [printedIn, double_div_pow]
      field_simp
      ring
    rw [scaled, abs_mul, abs_of_pos (div_pos unit (by norm_num))]
    calc
      _ ≤ 1 / 2 * ((2 : ℚ) ^ halvings / 100) :=
        mul_le_mul_of_nonneg_right error (by positivity)
      _ = 2 ^ halvings / 200 := by
        ring
  calc
    |printedIn halvings kib - kib|
        ≤ |printedIn halvings kib - double kib| + |double kib - kib| :=
      abs_sub_le _ _ _
    _ ≤ _ := add_le_add shown stored

theorem abs_printedAmount_sub_le (kib : Nat) :
    |printedAmount kib - kib| ≤
      2 ^ unitFor kib / 200 +
        if kib < 2 ^ 53 then 0 else (kib : ℚ) / 2 ^ 53 := by
  unfold printedAmount
  split
  next small =>
    rw [sub_self, abs_zero]
    positivity
  next => exact abs_printedIn_sub_le _ kib

theorem printedAmount_of_unit
    {kib halvings : Nat} (unit : unitFor kib = halvings)
    (some : 0 < halvings) : printedAmount kib = printedIn halvings kib := by
  rw [printedAmount, unit, if_neg some.ne']

/-- 1024 KiB, 1024 MiB and 1 GiB are printed without an error. -/
theorem printedIn_bounds :
    printedIn 10 1024 = 1024 ∧ printedIn 10 (1024 * 1024) = 1024 * 1024 ∧
      printedIn 20 (1024 * 1024) = 1024 * 1024 := by
  have one := printedIn_exact (show 1 * 2 ^ 10 < 2 ^ 53 by decide)
  have many := printedIn_exact (show 1024 * 2 ^ 10 < 2 ^ 53 by decide)
  have giga := printedIn_exact (show 1 * 2 ^ 20 < 2 ^ 53 by decide)
  norm_num at one many giga ⊢
  exact ⟨one, many, giga⟩

/-- More memory is never printed as less, also where the unit changes. -/
theorem printedAmount_mono : Monotone printedAmount := by
  intro lower upper ordered
  rcases printedIn_bounds with ⟨mega, full, giga⟩
  rcases unitFor_cases lower with
    ⟨atLeast, unit⟩ | ⟨⟨atLeast, below⟩, unit⟩ | ⟨below, unit⟩
  · have upperUnit : unitFor upper = 20 := if_pos (atLeast.trans ordered)
    rw [printedAmount_of_unit unit (by decide),
      printedAmount_of_unit upperUnit (by decide)]
    exact printedIn_mono 20 ordered
  · rcases unitFor_cases upper with
      ⟨reaches, upperUnit⟩ | ⟨-, upperUnit⟩ | ⟨less, -⟩
    · rw [printedAmount_of_unit unit (by decide),
        printedAmount_of_unit upperUnit (by decide)]
      calc
        printedIn 10 lower ≤ printedIn 10 (1024 * 1024) :=
          printedIn_mono 10 below.le
        _ = printedIn 20 (1024 * 1024) := full.trans giga.symm
        _ ≤ printedIn 20 upper := printedIn_mono 20 reaches
    · rw [printedAmount_of_unit unit (by decide),
        printedAmount_of_unit upperUnit (by decide)]
      exact printedIn_mono 10 ordered
    · exact absurd (atLeast.trans ordered) (Nat.not_le.mpr less)
  · have isLower : printedAmount lower = lower := if_pos unit
    have lessThanMega : (lower : ℚ) ≤ 1024 := by
      exact_mod_cast below.le
    rw [isLower]
    rcases unitFor_cases upper with
      ⟨reaches, upperUnit⟩ | ⟨⟨reaches, -⟩, upperUnit⟩ | ⟨-, upperUnit⟩
    · rw [printedAmount_of_unit upperUnit (by decide)]
      have printed := printedIn_mono 20 reaches
      rw [giga] at printed
      linarith
    · rw [printedAmount_of_unit upperUnit (by decide)]
      have printed := printedIn_mono 10 reaches
      rw [mega] at printed
      linarith
    · rw [printedAmount, if_pos upperUnit]
      exact_mod_cast ordered

/-- A line of a report. -/
def Prints (report label value : ByteString) : Prop :=
  label ++ value ∈ linesOf newline report

/-- The amounts of memory of a record, with the labels of their lines. -/
def memoryEntries (info : ProcessInfo) : List (ByteString × Option Nat) :=
  [(literal "  Virtual:           ", info.virtualMemoryKb),
    (literal "  Resident:          ", info.residentMemoryKb),
    (literal "  Peak:              ", info.peakMemoryKb)]

/-- The CPU times of a record, with the labels of their lines. -/
def timeEntries (info : ProcessInfo) : List (ByteString × CpuTime) :=
  [(literal "  User time:         ", info.userCpu),
    (literal "  System time:       ", info.systemCpu)]

theorem newline_not_mem_fixed (places : Nat) (value : ℚ) :
    newline ∉ fixed places value :=
  fun isCharacter => ne_of_mem_fixed isCharacter rfl (by decide) rfl

theorem newline_not_mem_formatKb (value : Option Nat) :
    newline ∉ formatKb value := by
  cases value with
  | none => decide
  | some kib =>
      rw [formatKb]
      split_ifs <;> rw [List.mem_append, not_or]
      · exact ⟨newline_not_mem_fixed _ _, by decide⟩
      · exact ⟨newline_not_mem_fixed _ _, by decide⟩
      · exact ⟨fun isCharacter =>
          ne_of_isDigit ((spells_decimal kib).digits _ isCharacter) rfl rfl,
          by decide⟩

theorem prints_line
    {info : ProcessInfo} {label value : ByteString}
    (isLine : label ++ value ∈ reportLines info)
    (plainLabel : newline ∉ label) (plainValue : newline ∉ value) :
    Prints (renderProcessInfo info) label value := by
  refine mem_linesOf_joinLines isLine ?_
  rw [List.mem_append, not_or]
  exact ⟨plainLabel, plainValue⟩

theorem prints_memory
    {info : ProcessInfo} {label : ByteString} {value : Option Nat}
    (isEntry : (label, value) ∈ memoryEntries info) :
    Prints (renderProcessInfo info) label (formatKb value) := by
  have each :
      ∀ entry ∈ memoryEntries info,
        entry.1 ++ formatKb entry.2 ∈ reportLines info ∧
          newline ∉ entry.1 := by
    refine List.forall_mem_cons.mpr ⟨⟨?_, ?_⟩, List.forall_mem_cons.mpr
      ⟨⟨?_, ?_⟩, List.forall_mem_singleton.mpr ⟨?_, ?_⟩⟩⟩
    · exact List.mem_of_getElem? (i := 17) rfl
    · exact (by decide : newline ∉ literal "  Virtual:           ")
    · exact List.mem_of_getElem? (i := 18) rfl
    · exact (by decide : newline ∉ literal "  Resident:          ")
    · exact List.mem_of_getElem? (i := 19) rfl
    · exact (by decide : newline ∉ literal "  Peak:              ")
  rcases each _ isEntry with ⟨isLine, plainLabel⟩
  exact prints_line isLine plainLabel (newline_not_mem_formatKb value)

/-- The report has a line for every amount of memory, from which it can be read
with an error of at most half a hundredth of the unit, as long as a `double`
holds the amount exactly.  More memory is never stated as less. -/
theorem memory_report_accurate
    {info : ProcessInfo} {label : ByteString} {kib : Nat}
    (isEntry : (label, some kib) ∈ memoryEntries info) :
    Prints (renderProcessInfo info) label (formatKb (some kib)) ∧
      ∃ amount,
        readAmount (formatKb (some kib)) = some amount ∧
          |amount - kib| ≤
            2 ^ unitFor kib / 200 +
              (if kib < 2 ^ 53 then 0 else (kib : ℚ) / 2 ^ 53) ∧
          ∀ more otherAmount,
            kib ≤ more →
              readAmount (formatKb (some more)) = some otherAmount →
              amount ≤ otherAmount := by
  refine ⟨prints_memory isEntry, printedAmount kib, readAmount_formatKb kib,
    abs_printedAmount_sub_le kib, ?_⟩
  intro more otherAmount ordered otherRead
  rw [readAmount_formatKb] at otherRead
  rw [← Option.some.inj otherRead]
  exact printedAmount_mono ordered

/-- A process with nearly 1 GiB, for 123.45 seconds. -/
def sampleInfo : ProcessInfo where
  userCpu := ⟨12345, 100⟩
  virtualMemoryKb := some 1048575

theorem memory_report_accurate_sample :
    Prints (renderProcessInfo sampleInfo)
        (literal "  Virtual:           ") (formatKb (some 1048575)) ∧
      ∃ amount,
        readAmount (formatKb (some 1048575)) = some amount ∧
          |amount - 1048575| ≤ 2 ^ 10 / 200 := by
  have isEntry :
      (literal "  Virtual:           ", some 1048575) ∈
        memoryEntries sampleInfo :=
    List.mem_cons_self
  rcases memory_report_accurate isEntry with
    ⟨printed, amount, read, near, -⟩
  refine ⟨printed, amount, read, ?_⟩
  have unit : unitFor 1048575 = 10 := by
    decide
  rw [unit, if_pos (by decide), add_zero] at near
  exact_mod_cast near

/-! ## CPU times -/

/-- The seconds in a text. -/
def readSeconds (text : ByteString) : ℚ :=
  readNumber (text.takeWhile fun character => character ≠ blank)

theorem readSeconds_timeText (time : CpuTime) :
    readSeconds (timeText time) = lastPlaces 3 (seconds time) / 1000 := by
  have noBlank :
      ∀ character ∈ fixed 3 (seconds time),
        decide (character ≠ blank) = true :=
    fun _ isCharacter =>
      decide_eq_true (ne_of_mem_fixed isCharacter rfl (by decide))
  have cut :
      (timeText time).takeWhile (fun character => character ≠ blank) =
        fixed 3 (seconds time) := by
    rw [timeText, List.takeWhile_append_of_pos noBlank]
    exact List.append_nil _
  rw [readSeconds, cut, readNumber_fixed (by decide)]
  norm_num

/-- Less than 2^52 milliseconds survive the roundings, if a tick is a whole
number of them. -/
theorem lastPlaces_seconds
    {ticks frequency perTick : Nat} (whole : frequency * perTick = 1000)
    (small : ticks * perTick < 2 ^ 52) :
    lastPlaces 3 (seconds ⟨ticks, frequency⟩) = ticks * perTick := by
  have perTick_pos : 0 < perTick :=
    Nat.pos_of_ne_zero fun zero => by simp [zero] at whole
  have frequency_pos : 0 < frequency :=
    Nat.pos_of_ne_zero fun zero => by simp [zero] at whole
  have fewTicks : ticks < 2 ^ 53 := by
    have bounded := Nat.le_mul_of_pos_right ticks perTick_pos
    omega
  have lowFrequency : frequency < 2 ^ 53 := by
    have bounded := Nat.le_mul_of_pos_right frequency perTick_pos
    omega
  have milliseconds :
      (ticks : ℚ) / frequency * 10 ^ 3 = (ticks * perTick : Nat) := by
    have whole : (frequency : ℚ) * perTick = 1000 := by
      exact_mod_cast whole
    have nonzero : (frequency : ℚ) ≠ 0 := by
      exact_mod_cast frequency_pos.ne'
    rw [div_mul_eq_mul_div, div_eq_iff nonzero]
    push_cast
    linear_combination (-(ticks : ℚ)) * whole
  have isSeconds :
      seconds ⟨ticks, frequency⟩ = double ((ticks : ℚ) / frequency) := by
    show double (double ticks / double ((frequency : Int) : ℚ)) = _
    rw [Int.cast_natCast, double_exact fewTicks, double_exact lowFrequency]
  have error :
      |double ((ticks : ℚ) / frequency) - (ticks : ℚ) / frequency| ≤
        (ticks : ℚ) / frequency / 2 ^ 53 :=
    abs_roundBinary_sub_le (by positivity)
  have rounded :
      roundEven (double ((ticks : ℚ) / frequency) * 10 ^ 3) =
        (ticks * perTick : Nat) := by
    apply roundEven_eq_of_abs_lt
    rw [Int.cast_natCast, ← milliseconds, ← sub_mul, abs_mul, abs_sub_comm,
      abs_of_pos (show (0 : ℚ) < 10 ^ 3 by norm_num)]
    have bound : ((ticks * perTick : Nat) : ℚ) < 2 ^ 52 := by
      exact_mod_cast small
    calc
      _ ≤ (ticks : ℚ) / frequency / 2 ^ 53 * 10 ^ 3 :=
        mul_le_mul_of_nonneg_right error (by positivity)
      _ = ((ticks * perTick : Nat) : ℚ) / 2 ^ 53 := by
        rw [← milliseconds]
        ring
      _ < 1 / 2 := by
        rw [div_lt_iff₀ (by positivity)]
        linarith
  rw [lastPlaces, isSeconds, rounded]
  rfl

theorem prints_time
    {info : ProcessInfo} {label : ByteString} {time : CpuTime}
    (isEntry : (label, time) ∈ timeEntries info) :
    Prints (renderProcessInfo info) label (timeText time) := by
  have each :
      ∀ entry ∈ timeEntries info,
        entry.1 ++ timeText entry.2 ∈ reportLines info ∧
          newline ∉ entry.1 := by
    refine List.forall_mem_cons.mpr
      ⟨⟨?_, ?_⟩, List.forall_mem_singleton.mpr ⟨?_, ?_⟩⟩
    · exact List.mem_of_getElem? (i := 11) rfl
    · exact (by decide : newline ∉ literal "  User time:         ")
    · exact List.mem_of_getElem? (i := 12) rfl
    · exact (by decide : newline ∉ literal "  System time:       ")
  have plainText : newline ∉ timeText time := by
    rw [timeText, List.mem_append, not_or]
    exact ⟨newline_not_mem_fixed _ _, by decide⟩
  rcases each _ isEntry with ⟨isLine, plainLabel⟩
  exact prints_line isLine plainLabel plainText

/-- If a clock tick is a whole number of milliseconds, the report states each
CPU time of less than 2^52 milliseconds exactly. -/
theorem cpu_time_report_exact
    {info : ProcessInfo} {label : ByteString}
    {ticks frequency perTick : Nat}
    (isEntry : (label, ⟨ticks, frequency⟩) ∈ timeEntries info)
    (whole : frequency * perTick = 1000)
    (small : ticks * perTick < 2 ^ 52) :
    Prints (renderProcessInfo info) label (timeText ⟨ticks, frequency⟩) ∧
      readSeconds (timeText ⟨ticks, frequency⟩) =
        (ticks : ℚ) / frequency := by
  refine ⟨prints_time isEntry, ?_⟩
  rw [readSeconds_timeText, lastPlaces_seconds whole small]
  have whole : (frequency : ℚ) * perTick = 1000 := by
    exact_mod_cast whole
  have nonzero : (frequency : ℚ) ≠ 0 := by
    intro zero
    rw [zero, zero_mul] at whole
    norm_num at whole
  rw [div_eq_div_iff (by norm_num) nonzero]
  push_cast
  linear_combination (ticks : ℚ) * whole

theorem cpu_time_report_exact_sample :
    Prints (renderProcessInfo sampleInfo)
        (literal "  User time:         ") (timeText ⟨12345, 100⟩) ∧
      readSeconds (timeText ⟨12345, 100⟩) = 12345 / 100 := by
  have isEntry :
      (literal "  User time:         ", ⟨12345, (100 : Nat)⟩) ∈
        timeEntries sampleInfo :=
    List.mem_cons_self
  have stated :=
    cpu_time_report_exact isEntry (show 100 * 10 = 1000 by decide)
      (by decide)
  exact_mod_cast stated

end Shell.ProcessReport
