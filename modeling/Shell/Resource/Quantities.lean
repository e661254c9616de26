import Mathlib.Data.List.Find
import Shell.Resource.Options

/-!
# Limits and sizes

`run` and `sandbox` read their limits with two copies of `parse_unsigned` and
their sizes with two functions `parse_size` that were written separately.  This
module compares them with the numerals they are meant to read and with each
other.

Both copies of `parse_unsigned` look for a minus sign at the front of the text,
while `std::stoull` skips white space before it looks for a sign.  The
`parse_size` of `run` counts the digits itself and does not care for the case
of the letters behind them; that of `sandbox` cuts one of a list of suffixes
off the end and leaves the rest to `std::stoull`.
-/

namespace Shell.Quantities

open Shell.Syntax
open Shell.Numerals
open Shell.SandboxOptions (SandboxConfig applyValue parseSandbox sizeSuffixes)
open Shell.ResourceOptions
  (RunOption ResourceRunConfig parseResourceRun upcase sizeUnits SizeSuffix
    parseSize_eq assign_eq_true sizeValue_eq_some sizeMultiplier_eq_some
    span_size)

/-! ## Minus signs -/

/-- White space, a minus sign and digits, with the number that the digits
denote: the negative numerals that a test of the first character does not
see. -/
inductive HiddenNegative : ByteString → Nat → Prop where
  | intro {blanks digits : ByteString} (hidden : blanks ≠ [])
      (areBlanks : ∀ character ∈ blanks, isSpace character = true)
      (nonempty : digits ≠ [])
      (areDigits : ∀ character ∈ digits, isDigit character = true) :
      HiddenNegative (blanks ++ 0x2d :: digits) (decimalValue digits)

/-- What `std::stoull` makes of the negative of a number below 2^64. -/
def negated (magnitude : Nat) : Nat :=
  (0x10000000000000000 - magnitude) % 0x10000000000000000

theorem HiddenNegative.minus_mem
    {text : ByteString} {magnitude : Nat}
    (negative : HiddenNegative text magnitude) : 0x2d ∈ text := by
  cases negative with
  | intro => simp

theorem HiddenNegative.numeral
    {text : ByteString} {magnitude : Nat}
    (negative : HiddenNegative text magnitude) :
    text.head? ≠ some 0x2d ∧ Numeral text (-magnitude) := by
  cases negative with
  | intro hidden areBlanks nonempty areDigits =>
      rename_i blanks digits
      refine ⟨?_, .intro .minus areBlanks nonempty areDigits⟩
      rcases blanks with - | ⟨blank, blanks⟩
      · exact absurd rfl hidden
      · rintro isMinus
        cases isMinus
        exact absurd (areBlanks 0x2d List.mem_cons_self) (by decide)

/-- A numeral that does not start with a minus sign has none, or is a hidden
negative one. -/
theorem numeral_or_hiddenNegative
    {text : ByteString} {number : Int} (numeral : Numeral text number)
    (notFirst : text.head? ≠ some 0x2d) :
    0x2d ∉ text ∧ 0 ≤ number ∨
      ∃ magnitude : Nat,
        HiddenNegative text magnitude ∧ number = -magnitude := by
  rcases numeral with ⟨sign, areBlanks, nonempty, areDigits⟩
  rename_i blanks digits
  have notBlank := mt (areBlanks 0x2d) (by decide)
  have notDigit := mt (areDigits 0x2d) (by decide)
  cases sign with
  | absent | plus =>
      refine Or.inl ⟨?_, Int.natCast_nonneg _⟩
      simp [Sign.text, notBlank, notDigit]
  | minus =>
      refine Or.inr ⟨decimalValue digits, ?_, rfl⟩
      refine .intro ?_ areBlanks nonempty areDigits
      rintro rfl
      exact notFirst rfl

/-- What `parse_unsigned` takes is a numeral without a minus sign, or a hidden
negative one. -/
theorem parseUnsigned_cases
    {text : ByteString} {allowZero : Bool} {value : Nat}
    (accepted : SandboxOptions.parseUnsigned text allowZero = some value) :
    0x2d ∉ text ∧ Numeral text value ∨
      ∃ magnitude,
        HiddenNegative text magnitude ∧ magnitude < 0x10000000000000000 ∧
          value = negated magnitude ∧ (allowZero = true ∨ value ≠ 0) := by
  rcases parseUnsigned_eq_some.mp accepted with
    ⟨notFirst, ⟨number, numeral, fits, reduced⟩, allowed⟩
  rcases numeral_or_hiddenNegative numeral notFirst with
    ⟨noMinus, nonnegative⟩ | ⟨magnitude, negative, rfl⟩
  · have same : (value : Int) = number := by omega
    rw [same]
    exact Or.inl ⟨noMinus, numeral⟩
  · have isNegated : value = negated magnitude := by
      rw [negated]
      omega
    exact Or.inr ⟨magnitude, negative, by omega, isNegated, allowed⟩

theorem parseUnsigned_negative
    {text : ByteString} {magnitude : Nat}
    (negative : HiddenNegative text magnitude)
    (fits : magnitude < 0x10000000000000000)
    {allowZero : Bool} (allowed : allowZero = true ∨ negated magnitude ≠ 0) :
    SandboxOptions.parseUnsigned text allowZero =
      some (negated magnitude) := by
  rcases negative.numeral with ⟨notFirst, numeral⟩
  refine parseUnsigned_eq_some.mpr ⟨notFirst, ⟨_, numeral, ?_, ?_⟩, allowed⟩
  · omega
  · rw [negated]
    omega

/-- A count is a numeral without a minus sign unless the text is a hidden
negative one that does not denote zero. -/
theorem count_numeral_iff (text : ByteString) :
    (∀ value, SandboxOptions.parseUnsigned text false = some value →
      0x2d ∉ text ∧ Numeral text value) ↔
    ¬ ∃ magnitude,
      HiddenNegative text magnitude ∧ 0 < magnitude ∧
        magnitude < 0x10000000000000000 := by
  constructor
  · rintro numerals ⟨magnitude, negative, positive, fits⟩
    have nonzero : negated magnitude ≠ 0 := by
      rw [negated]
      omega
    have accepted :
        SandboxOptions.parseUnsigned text false = some (negated magnitude) :=
      parseUnsigned_negative negative fits (Or.inr nonzero)
    exact (numerals _ accepted).1 negative.minus_mem
  · intro notNegative value accepted
    rcases parseUnsigned_cases accepted with
      isNumeral | ⟨magnitude, negative, fits, rfl, nonzero⟩
    · exact isNumeral
    · have positive : 0 < magnitude := by
        rcases Nat.eq_zero_or_pos magnitude with rfl | positive
        · exact absurd nonzero (by decide)
        · exact positive
      exact absurd ⟨magnitude, negative, positive, fits⟩ notNegative

/-! ## The sizes of `sandbox` -/

/-- The suffixes that `sandbox` knows, the empty one included. -/
def sandboxUnits : List (ByteString × Nat) :=
  ([], 1) :: sizeSuffixes

/-- What `parse_size` of `sandbox` leaves of a text, and the factor it takes. -/
def cutSize (text : ByteString) : ByteString × Nat :=
  match sizeSuffixes.find? fun entry => entry.1.isSuffixOf text with
  | some (suffix, multiplier) =>
      (text.take (text.length - suffix.length), multiplier)
  | none => (text, 1)

theorem parseSize_cutSize (text : ByteString) :
    SandboxOptions.parseSize text =
      if text.head? = none ∨ text.head? = some 0x2d then
        none
      else
        match SandboxOptions.parseUnsigned (cutSize text).1 true with
        | none => none
        | some base =>
            if base > 0xffffffffffffffff / (cutSize text).2 then none
            else some (base * (cutSize text).2) :=
  rfl

theorem cutSize_append (text : ByteString) :
    ∃ suffix,
      text = (cutSize text).1 ++ suffix ∧
        (suffix, (cutSize text).2) ∈ sandboxUnits := by
  rw [cutSize]
  cases found : sizeSuffixes.find? fun entry => entry.1.isSuffixOf text with
  | none => exact ⟨[], (List.append_nil text).symm, List.mem_cons_self⟩
  | some entry =>
      have ends := List.find?_some found
      rcases List.isSuffixOf_iff_suffix.mp ends with ⟨body, rfl⟩
      refine ⟨entry.1, ?_, ?_⟩
      · simp
      · exact List.mem_cons_of_mem _ (List.mem_of_find?_eq_some found)

theorem sandboxUnits_letters
    {suffix : ByteString} {multiplier : Nat}
    (known : (suffix, multiplier) ∈ sandboxUnits) :
    0 < multiplier ∧ 0x2d ∉ suffix ∧
      ∀ character ∈ suffix, isDigit character = false := by
  have letters :
      sandboxUnits.all (fun entry =>
        0 < entry.2 && !entry.1.contains 0x2d &&
          entry.1.all fun character => !isDigit character) = true := by
    decide +kernel
  simpa [and_assoc] using List.all_eq_true.mp letters _ known

/-- Words without digits do not reach across a digit. -/
theorem suffix_behind_digit
    {word suffix : ByteString} {digit : UInt8}
    (isOne : isDigit digit = true)
    (letters : ∀ character ∈ word, isDigit character = false)
    (front : ByteString) :
    word <:+ front ++ digit :: suffix ↔ word <:+ suffix := by
  have notMember : digit ∉ word := by
    intro member
    rw [letters digit member] at isOne
    cases isOne
  have rest : digit :: suffix <:+ front ++ digit :: suffix :=
    List.suffix_append front _
  constructor
  · intro isSuffix
    rcases List.suffix_or_suffix_of_suffix isSuffix rest with inner | outer
    · rcases List.suffix_cons_iff.mp inner with rfl | behind
      · exact absurd List.mem_cons_self notMember
      · exact behind
    · exact absurd (outer.subset List.mem_cons_self) notMember
  · intro isSuffix
    exact isSuffix.trans ((List.suffix_cons digit suffix).trans rest)

/-- Behind a digit, the suffix that is cut off is the one that is there. -/
theorem cutSize_of_digit
    {suffix : ByteString} {multiplier : Nat} {digit : UInt8}
    (isOne : isDigit digit = true)
    (known : (suffix, multiplier) ∈ sandboxUnits) (front : ByteString) :
    cutSize (front ++ digit :: suffix) = (front ++ [digit], multiplier) := by
  have sameSearch :
      sizeSuffixes.find?
          (fun entry => entry.1.isSuffixOf (front ++ digit :: suffix)) =
        sizeSuffixes.find? fun entry => entry.1.isSuffixOf suffix := by
    apply List.find?_congr
    intro entry listed
    have letters :=
      (sandboxUnits_letters (List.mem_cons_of_mem _ listed)).2.2
    rw [Bool.eq_iff_iff, List.isSuffixOf_iff_suffix,
      List.isSuffixOf_iff_suffix, suffix_behind_digit isOne letters]
  have searched :
      sandboxUnits.all (fun unit =>
        (sizeSuffixes.find? fun entry => entry.1.isSuffixOf unit.1) =
          if unit.1 = [] ∧ unit.2 = 1 then none else some unit) = true := by
    decide +kernel
  have search := of_decide_eq_true (List.all_eq_true.mp searched _ known)
  rw [cutSize, sameSearch, search]
  split_ifs with isEmpty
  · rcases isEmpty with ⟨rfl, rfl⟩
    rfl
  · have cutLength :
        (front ++ digit :: suffix).length - suffix.length =
          (front ++ [digit]).length := by
      simp only [List.length_append, List.length_cons, List.length_nil]
      omega
    simp only [cutLength]
    rw [List.append_cons front digit suffix, List.take_left]

/-- `sandbox` takes a number that `parse_unsigned` takes, with a known suffix,
if the product fits. -/
theorem parseSize_eq_some {text : ByteString} {size : Nat} :
    SandboxOptions.parseSize text = some size ↔
      ∃ body suffix multiplier base,
        text = body ++ suffix ∧ (suffix, multiplier) ∈ sandboxUnits ∧
          SandboxOptions.parseUnsigned body true = some base ∧
          base * multiplier ≤ 0xffffffffffffffff ∧
          size = base * multiplier := by
  rw [parseSize_cutSize, Option.ite_none_left_eq_some]
  constructor
  · rintro ⟨-, read⟩
    rcases cutSize_append text with ⟨suffix, split, known⟩
    cases accepted : SandboxOptions.parseUnsigned (cutSize text).1 true with
    | none =>
        rw [accepted] at read
        cases read
    | some base =>
        rw [accepted] at read
        rcases Option.ite_none_left_eq_some.mp read with ⟨fits, same⟩
        have positive := (sandboxUnits_letters known).1
        refine ⟨_, suffix, _, base, split, known, accepted, ?_, ?_⟩
        · exact (Nat.le_div_iff_mul_le positive).mp (Nat.le_of_not_lt fits)
        · exact (Option.some.inj same).symm
  · rintro ⟨body, suffix, multiplier, base, rfl, known, accepted, fits, rfl⟩
    rcases parseUnsigned_eq_some.mp accepted with
      ⟨notFirst, ⟨number, numeral, -, -⟩, -⟩
    rcases numeral_ends_in_digit numeral with ⟨front, digit, rfl, isOne⟩
    have positive := (sandboxUnits_letters known).1
    have sameHead :
        (front ++ [digit] ++ suffix).head? = (front ++ [digit]).head? := by
      cases front <;> rfl
    constructor
    · rw [sameHead]
      rintro (isNil | isMinus)
      · simp at isNil
      · exact notFirst isMinus
    · rw [← List.append_cons, cutSize_of_digit isOne known, accepted]
      exact if_neg
        (Nat.not_lt.mpr ((Nat.le_div_iff_mul_le positive).mpr fits))

/-! ## Limits are numerals -/

theorem store_count
    {option : RunOption} (counts : option ∈ [.maxFds, .cpuTime, .maxProcs])
    {text : ByteString} {config next : ResourceRunConfig} :
    option.store config text = (true, next) ↔
      ∃ value : Nat,
        SandboxOptions.parseUnsigned text false = some value ∧
          next = option.put config value := by
  have reads :
      option.number text =
        (SandboxOptions.parseUnsigned text false).map Int.ofNat := by
    simp only [List.mem_cons, List.not_mem_nil, or_false] at counts
    rcases counts with rfl | rfl | rfl <;>
      rw [RunOption.number, ResourceOptions.parseUnsigned_eq,
        ResourceOptions.assign_taken]
  rw [option.store_eq, reads]
  cases SandboxOptions.parseUnsigned text false with
  | none => simp
  | some value => simp [eq_comm]

theorem requested_put_count
    {option : RunOption} (counts : option ∈ [.maxFds, .cpuTime, .maxProcs])
    (config : ResourceRunConfig) (value : Nat) :
    option.requested (option.put config value) = some (value : Int) := by
  simp only [List.mem_cons, List.not_mem_nil, or_false] at counts
  rcases counts with rfl | rfl | rfl <;> rfl

theorem applyValue_pids
    {text : ByteString} {config next : SandboxConfig} :
    applyValue config (literal "--pids") text = .ok next ↔
      ∃ count,
        SandboxOptions.parseUnsigned text false = some count ∧
          next = { config with hasPidsMax := true, pidsMax := count } := by
  rw [applyValue, if_neg (by decide), if_neg (by decide), if_pos rfl]
  cases SandboxOptions.parseUnsigned text false with
  | none => simp
  | some count => simp [eq_comm]

theorem applyValue_memory
    {text : ByteString} {config next : SandboxConfig} :
    applyValue config (literal "--memory") text = .ok next ↔
      ∃ size,
        SandboxOptions.parseSize text = some size ∧
          next =
            { config with
              hasMemoryMax := true, memoryMaxBytes := size } := by
  rw [applyValue, if_neg (by decide), if_pos rfl]
  cases SandboxOptions.parseSize text with
  | none => simp
  | some size => simp [eq_comm]

/-- A hidden negative numeral and a unit, such that the product of what
`std::stoull` makes of it fits. -/
def NegativeSize (text : ByteString) : Prop :=
  ∃ body suffix multiplier magnitude,
    text = body ++ suffix ∧ (suffix, multiplier) ∈ sandboxUnits ∧
      HiddenNegative body magnitude ∧ magnitude < 0x10000000000000000 ∧
      negated magnitude * multiplier < 0x10000000000000000

theorem NegativeSize.minus_mem
    {text : ByteString} (negative : NegativeSize text) : 0x2d ∈ text := by
  rcases negative with ⟨body, suffix, multiplier, magnitude, rfl, -, hidden, -⟩
  exact List.mem_append_left suffix hidden.minus_mem

theorem size_numeral_iff (text : ByteString) :
    (∀ size, SandboxOptions.parseSize text = some size →
      0x2d ∉ text ∧
        ∃ body suffix multiplier number,
          text = body ++ suffix ∧ (suffix, multiplier) ∈ sandboxUnits ∧
            Numeral body number ∧ (size : Int) = number * multiplier) ↔
    ¬ NegativeSize text := by
  constructor
  · intro numerals negativeSize
    have hasMinus := NegativeSize.minus_mem negativeSize
    rcases negativeSize with
      ⟨body, suffix, multiplier, magnitude, split, known, negative, fits,
        productFits⟩
    have accepted := parseUnsigned_negative negative fits (Or.inl rfl)
    have sized :=
      parseSize_eq_some.mpr
        ⟨body, suffix, multiplier, _, split, known, accepted, by omega, rfl⟩
    exact (numerals _ sized).1 hasMinus
  · intro notNegative size sized
    rcases parseSize_eq_some.mp sized with
      ⟨body, suffix, multiplier, base, rfl, known, accepted, fits, rfl⟩
    rcases parseUnsigned_cases accepted with
      ⟨noMinus, numeral⟩ | ⟨magnitude, negative, magnitudeFits, rfl, -⟩
    · have noMinusBehind := (sandboxUnits_letters known).2.1
      refine ⟨?_, body, suffix, multiplier, base, rfl, known, numeral, ?_⟩
      · simp [noMinus, noMinusBehind]
      · exact Int.natCast_mul base multiplier
    · exact absurd
        ⟨body, suffix, multiplier, magnitude, rfl, known, negative,
          magnitudeFits, by omega⟩
        notNegative

/--
A text is taken as a limit only if it has no minus sign, and with the number
that its numeral denotes, times the unit where there is one: for a count this
is so exactly if the text is not white space, a minus sign and the digits of a
positive number below 2^64, and for a size exactly if it is not white space, a
minus sign, digits and a unit such that the product of the wrapped number fits.
-/
theorem limits_are_numerals (text : ByteString) :
    (∀ option ∈ [RunOption.maxFds, .cpuTime, .maxProcs], ∀ config,
      (∀ next, option.store config text = (true, next) →
        0x2d ∉ text ∧
          ∃ number,
            Numeral text number ∧ option.requested next = some number) ↔
      ¬ ∃ magnitude,
        HiddenNegative text magnitude ∧ 0 < magnitude ∧
          magnitude < 0x10000000000000000) ∧
    (∀ config,
      (∀ next, applyValue config (literal "--pids") text = .ok next →
        0x2d ∉ text ∧
          ∃ number, Numeral text number ∧ (next.pidsMax : Int) = number) ↔
      ¬ ∃ magnitude,
        HiddenNegative text magnitude ∧ 0 < magnitude ∧
          magnitude < 0x10000000000000000) ∧
    (∀ config,
      (∀ next, applyValue config (literal "--memory") text = .ok next →
        0x2d ∉ text ∧
          ∃ body suffix multiplier number,
            text = body ++ suffix ∧ (suffix, multiplier) ∈ sandboxUnits ∧
              Numeral body number ∧
              (next.memoryMaxBytes : Int) = number * multiplier) ↔
      ¬ NegativeSize text) := by
  refine ⟨?_, ?_, ?_⟩
  · intro option counts config
    rw [← count_numeral_iff]
    constructor
    · intro numerals value accepted
      rcases numerals _ ((store_count counts).mpr ⟨value, accepted, rfl⟩) with
        ⟨noMinus, number, numeral, requested⟩
      rw [requested_put_count counts] at requested
      cases requested
      exact ⟨noMinus, numeral⟩
    · intro numerals next stored
      rcases (store_count counts).mp stored with ⟨value, accepted, rfl⟩
      rcases numerals value accepted with ⟨noMinus, numeral⟩
      exact ⟨noMinus, value, numeral,
        requested_put_count counts config value⟩
  · intro config
    rw [← count_numeral_iff]
    constructor
    · intro numerals count accepted
      rcases numerals _ (applyValue_pids.mpr ⟨count, accepted, rfl⟩) with
        ⟨noMinus, number, numeral, rfl⟩
      exact ⟨noMinus, numeral⟩
    · intro numerals next applied
      rcases applyValue_pids.mp applied with ⟨count, accepted, rfl⟩
      rcases numerals count accepted with ⟨noMinus, numeral⟩
      exact ⟨noMinus, count, numeral, rfl⟩
  · intro config
    rw [← size_numeral_iff]
    constructor
    · intro numerals size sized
      exact numerals _ (applyValue_memory.mpr ⟨size, sized, rfl⟩)
    · intro numerals next applied
      rcases applyValue_memory.mp applied with ⟨size, sized, rfl⟩
      exact numerals size sized

/-- Three limits of `64`, and what is stored for them. -/
theorem limits_are_numerals_sample :
    (∃ next,
      RunOption.maxFds.store {} (literal "64") = (true, next) ∧
        ∃ number,
          Numeral (literal "64") number ∧
            RunOption.maxFds.requested next = some number) ∧
    (∃ next,
      applyValue {} (literal "--pids") (literal "64") = .ok next ∧
        ∃ number,
          Numeral (literal "64") number ∧ (next.pidsMax : Int) = number) ∧
    ∃ next,
      applyValue {} (literal "--memory") (literal "64") = .ok next ∧
        0x2d ∉ literal "64" := by
  rcases limits_are_numerals (literal "64") with ⟨run, pids, memory⟩
  have noMinus : 0x2d ∉ literal "64" := by decide +kernel
  have notNegative :
      ¬ ∃ magnitude,
        HiddenNegative (literal "64") magnitude ∧ 0 < magnitude ∧
          magnitude < 0x10000000000000000 := by
    rintro ⟨magnitude, negative, -⟩
    exact noMinus negative.minus_mem
  have notNegativeSize : ¬ NegativeSize (literal "64") :=
    mt NegativeSize.minus_mem noMinus
  have stored :
      RunOption.maxFds.store {} (literal "64") =
        (true, { hasMaxFds := true, maxFds := 64 }) := by
    decide +kernel
  have applied :
      applyValue {} (literal "--pids") (literal "64") =
        .ok { hasPidsMax := true, pidsMax := 64 } :=
    rfl
  have sized :
      applyValue {} (literal "--memory") (literal "64") =
        .ok { hasMemoryMax := true, memoryMaxBytes := 64 } :=
    rfl
  refine ⟨⟨_, stored, ?_⟩, ⟨_, applied, ?_⟩, ⟨_, sized, ?_⟩⟩
  · exact ((run .maxFds List.mem_cons_self _).mpr notNegative _ stored).2
  · exact ((pids _).mpr notNegative _ applied).2
  · exact ((memory _).mpr notNegativeSize _ sized).1

/-- With a blank in front of it, `-1` asks for the largest limit there is. -/
theorem negative_limit_accepted :
    let text := literal " -1"
    let run :=
      parseResourceRun
        { args :=
            [literal "run", literal "--max-fds", text, literal "true"] }
    let sandbox :=
      parseSandbox
        { args :=
            [literal "sandbox", literal "--pids", text, literal "--memory",
              text, literal "true"] }
    0x2d ∈ text ∧
      run.error = [] ∧ run.config.maxFds = 0xffffffffffffffff ∧
      sandbox.error = [] ∧ sandbox.config.pidsMax = 0xffffffffffffffff ∧
      sandbox.config.memoryMaxBytes = 0xffffffffffffffff := by
  decide +kernel

/-! ## The two `parse_size` -/

/-- What `sandbox` knows, `run` knows as well. -/
theorem sizeSuffix_of_sandboxUnits
    {suffix : ByteString} {multiplier : Nat}
    (known : (suffix, multiplier) ∈ sandboxUnits) :
    SizeSuffix suffix multiplier := by
  have inSizeUnits :
      sandboxUnits.all
        (fun entry => (entry.1.map upcase, entry.2) ∈ sizeUnits) = true := by
    decide +kernel
  show (suffix.map upcase, multiplier) ∈ sizeUnits
  exact of_decide_eq_true (List.all_eq_true.mp inSizeUnits _ known)

theorem sizeSuffix_unique
    {suffix : ByteString} {multiplier other : Nat}
    (known : SizeSuffix suffix multiplier)
    (again : SizeSuffix suffix other) :
    multiplier = other := by
  rw [SizeSuffix, ← sizeMultiplier_eq_some] at known again
  rw [known] at again
  exact Option.some.inj again

theorem sandboxUnits_of_sizeSuffix
    {suffix : ByteString} {multiplier : Nat}
    (known : SizeSuffix suffix multiplier)
    (listed : suffix ∈ sandboxUnits.map Prod.fst) :
    (suffix, multiplier) ∈ sandboxUnits := by
  rcases List.mem_map.mp listed with ⟨⟨_, other⟩, inUnits, rfl⟩
  rw [sizeSuffix_unique known (sizeSuffix_of_sandboxUnits inUnits)]
  exact inUnits

/-- A size in a unit that `run` knows and `sandbox` does not. -/
def OnlyForRun (text : ByteString) : Prop :=
  ∃ digits suffix multiplier,
    text = digits ++ suffix ∧ digits ≠ [] ∧
      (∀ character ∈ digits, isDigit character = true) ∧
      SizeSuffix suffix multiplier ∧
      suffix ∉ sandboxUnits.map Prod.fst ∧
      decimalValue digits * multiplier ≤ 0xffffffffffffffff

/-- A size with white space or a plus sign in front of its digits, in a unit
that `sandbox` knows.  Behind white space the sign may also be a minus. -/
def OnlyForSandbox (text : ByteString) : Prop :=
  ∃ (blanks : ByteString) (sign : Sign) (digits suffix : ByteString)
      (multiplier : Nat),
    text = blanks ++ (sign.text ++ digits) ++ suffix ∧
      (∀ character ∈ blanks, isSpace character = true) ∧
      (blanks ≠ [] ∨ sign = .plus) ∧ digits ≠ [] ∧
      (∀ character ∈ digits, isDigit character = true) ∧
      (suffix, multiplier) ∈ sandboxUnits ∧
      decimalValue digits ≤ 0xffffffffffffffff ∧
      (sign.apply (decimalValue digits) % 0x10000000000000000).toNat *
          multiplier ≤
        0xffffffffffffffff

theorem OnlyForRun.suffix_unlisted
    {text : ByteString} (only : OnlyForRun text) :
    text.dropWhile isDigit ∉ sandboxUnits.map Prod.fst := by
  rcases only with
    ⟨digits, suffix, multiplier, rfl, -, areDigits, known, unlisted, -⟩
  rw [(span_size areDigits known).2]
  exact unlisted

theorem OnlyForSandbox.head
    {text : ByteString} (only : OnlyForSandbox text) :
    ∃ head, text.head? = some head ∧ isDigit head = false := by
  rcases only with ⟨blanks, sign, digits, suffix, multiplier, rfl, areBlanks,
    isHidden, -⟩
  rcases blanks with - | ⟨blank, blanks⟩
  · rcases isHidden with hidden | rfl
    · exact absurd rfl hidden
    · exact ⟨0x2b, rfl, by decide⟩
  · refine ⟨blank, rfl, ?_⟩
    have isBlank := areBlanks blank List.mem_cons_self
    cases digit : isDigit blank with
    | false => rfl
    | true =>
        rw [isSpace_of_isDigit digit] at isBlank
        cases isBlank

theorem natAbs_signed (sign : Sign) (magnitude : Nat) :
    (sign.apply magnitude).natAbs = magnitude := by
  cases sign with
  | minus => exact Int.natAbs_neg _
  | absent | plus => rfl

theorem OnlyForSandbox.accepted
    {text : ByteString} (only : OnlyForSandbox text) :
    ∃ size, SandboxOptions.parseSize text = some size := by
  rcases only with ⟨blanks, sign, digits, suffix, multiplier, rfl, areBlanks,
    isHidden, nonempty, areDigits, known, fits, productFits⟩
  have numeral := Numeral.intro sign areBlanks nonempty areDigits
  have notFirst :
      (blanks ++ (sign.text ++ digits)).head? ≠ some 0x2d := by
    rcases blanks with - | ⟨blank, blanks⟩
    · rcases isHidden with hidden | rfl
      · exact absurd rfl hidden
      · show some 0x2b ≠ some 0x2d
        decide
    · intro isMinus
      cases isMinus
      exact absurd (areBlanks 0x2d List.mem_cons_self) (by decide)
  have accepted :
      SandboxOptions.parseUnsigned (blanks ++ (sign.text ++ digits)) true =
        some
          (sign.apply (decimalValue digits) % 0x10000000000000000).toNat := by
    refine parseUnsigned_eq_some.mpr
      ⟨notFirst, ⟨_, numeral, ?_, ?_⟩, Or.inl rfl⟩
    · rwa [natAbs_signed]
    · omega
  exact ⟨_, parseSize_eq_some.mpr
    ⟨_, suffix, multiplier, _, rfl, known, accepted, productFits, rfl⟩⟩

/-- What `run` takes starts with a digit. -/
theorem sizeValue_head
    {text : ByteString} {size : Nat}
    (accepted : ResourceOptions.sizeValue text = some size) :
    ∀ head ∈ text.head?, isDigit head = true := by
  rcases sizeValue_eq_some.mp accepted with
    ⟨digits, suffix, multiplier, rfl, nonempty, areDigits, -⟩
  intro head isHead
  rw [List.head?_append_of_ne_nil _ nonempty] at isHead
  exact areDigits head (List.mem_of_mem_head? isHead)

/-- `sandbox` takes a text that starts with a digit in a unit it knows, and
with the same size as `run`. -/
theorem sizeValue_of_parseSize
    {text : ByteString} {size : Nat}
    (starts : ∀ head ∈ text.head?, isDigit head = true)
    (accepted : SandboxOptions.parseSize text = some size) :
    text.dropWhile isDigit ∈ sandboxUnits.map Prod.fst ∧
      ResourceOptions.sizeValue text = some size := by
  rcases parseSize_eq_some.mp accepted with
    ⟨body, suffix, multiplier, base, rfl, inUnits, isRead, fits, rfl⟩
  rcases parseUnsigned_eq_some.mp isRead with
    ⟨notMinus, ⟨number, numeral, -, -⟩, -⟩
  have plain : ∀ head ∈ body.head?, isSpace head = false ∧ head ≠ 0x2b := by
    intro head isHead
    have isOne : isDigit head = true := by
      apply starts
      rw [List.head?_append, isHead]
      rfl
    refine ⟨isSpace_of_isDigit isOne, ?_⟩
    rintro rfl
    cases isOne
  rcases numeral_digits numeral plain notMinus with ⟨nonempty, areDigits⟩
  have known := sizeSuffix_of_sandboxUnits inUnits
  rw [parseUnsigned_digits nonempty areDigits] at isRead
  rcases Option.ite_none_right_eq_some.mp isRead with ⟨-, same⟩
  cases same
  constructor
  · rw [(span_size areDigits known).2]
    exact List.mem_map_of_mem inUnits
  · exact sizeValue_eq_some.mpr
      ⟨body, suffix, multiplier, rfl, nonempty, areDigits, known, fits, rfl⟩

/-- What `run` takes in a unit that `sandbox` knows, `sandbox` takes too. -/
theorem parseSize_of_sizeValue
    {text : ByteString} {size : Nat}
    (accepted : ResourceOptions.sizeValue text = some size)
    (notOnly : ¬ OnlyForRun text) :
    SandboxOptions.parseSize text = some size := by
  rcases sizeValue_eq_some.mp accepted with
    ⟨digits, suffix, multiplier, rfl, nonempty, areDigits, known, fits, rfl⟩
  have listed : suffix ∈ sandboxUnits.map Prod.fst := by
    by_contra unlisted
    exact notOnly ⟨digits, suffix, multiplier, rfl, nonempty, areDigits, known,
      unlisted, fits⟩
  have inUnits := sandboxUnits_of_sizeSuffix known listed
  have positive := (sandboxUnits_letters inUnits).1
  have valueFits : decimalValue digits ≤ 0xffffffffffffffff :=
    Nat.le_trans (Nat.le_mul_of_pos_right _ positive) fits
  have isRead : SandboxOptions.parseUnsigned digits true =
      some (decimalValue digits) := by
    rw [parseUnsigned_digits nonempty areDigits, if_pos valueFits]
  exact parseSize_eq_some.mpr
    ⟨digits, suffix, multiplier, _, rfl, inUnits, isRead, fits, rfl⟩

/-- What `sandbox` takes starts with a digit unless `run` refuses it. -/
theorem parseSize_head
    {text : ByteString} {size : Nat}
    (accepted : SandboxOptions.parseSize text = some size)
    (notOnly : ¬ OnlyForSandbox text) :
    ∀ head ∈ text.head?, isDigit head = true := by
  rcases parseSize_eq_some.mp accepted with
    ⟨body, suffix, multiplier, base, rfl, inUnits, isRead, fits, rfl⟩
  rcases parseUnsigned_eq_some.mp isRead with
    ⟨notMinus, ⟨number, ⟨sign, areBlanks, nonempty, areDigits⟩, magnitudeFits,
      reduced⟩, -⟩
  rename_i blanks digits
  rw [natAbs_signed] at magnitudeFits
  have notHidden : ¬ (blanks ≠ [] ∨ sign = .plus) := by
    intro isHidden
    refine notOnly ⟨blanks, sign, digits, suffix, multiplier, rfl, areBlanks,
      isHidden, nonempty, areDigits, inUnits, magnitudeFits, ?_⟩
    rwa [← reduced, Int.toNat_natCast]
  rw [not_or, not_not] at notHidden
  rcases notHidden with ⟨rfl, notPlus⟩
  cases sign with
  | plus => exact absurd rfl notPlus
  | minus => exact absurd rfl notMinus
  | absent =>
      intro head isHead
      rw [Sign.text, List.nil_append, List.nil_append,
        List.head?_append_of_ne_nil _ nonempty] at isHead
      exact areDigits head (List.mem_of_mem_head? isHead)

/--
The two functions agree on a text exactly if it is neither a size in a unit
that only `run` knows nor one with the white space or the sign that only
`sandbox` takes.
-/
theorem sizes_agree (text : ByteString) (bytes : Nat) :
    (∀ size,
      ResourceOptions.parseSize text bytes = (true, size) ↔
        SandboxOptions.parseSize text = some size) ↔
      ¬ OnlyForRun text ∧ ¬ OnlyForSandbox text := by
  simp only [parseSize_eq, assign_eq_true]
  constructor
  · intro agree
    constructor
    · intro onlyRun
      rcases onlyRun with ⟨digits, suffix, multiplier, split, nonempty,
        areDigits, known, unlisted, fits⟩
      have accepted :=
        sizeValue_eq_some.mpr
          ⟨digits, suffix, multiplier, split, nonempty, areDigits, known, fits,
            rfl⟩
      have listed :=
        sizeValue_of_parseSize (sizeValue_head accepted)
          ((agree _).mp accepted)
      rw [split, (span_size areDigits known).2] at listed
      exact unlisted listed.1
    · intro onlySandbox
      rcases onlySandbox.accepted with ⟨size, accepted⟩
      rcases onlySandbox.head with ⟨head, isHead, notDigit⟩
      have isOne := sizeValue_head ((agree size).mpr accepted) head isHead
      rw [isOne] at notDigit
      cases notDigit
  · rintro ⟨notOnlyRun, notOnlySandbox⟩ size
    constructor
    · intro accepted
      exact parseSize_of_sizeValue accepted notOnlyRun
    · intro accepted
      have starts := parseSize_head accepted notOnlySandbox
      exact (sizeValue_of_parseSize starts accepted).2

theorem sizes_agree_sample :
    ResourceOptions.parseSize (literal "64k") 0 = (true, 65536) ∧
      SandboxOptions.parseSize (literal "64k") = some 65536 := by
  have notOnlyRun : ¬ OnlyForRun (literal "64k") := by
    intro only
    exact absurd only.suffix_unlisted (by decide +kernel)
  have notOnlySandbox : ¬ OnlyForSandbox (literal "64k") := by
    intro only
    rcases only.head with ⟨head, isHead, notDigit⟩
    cases isHead
    cases notDigit
  have accepted :
      ResourceOptions.parseSize (literal "64k") 0 = (true, 65536) := by
    decide +kernel
  exact ⟨accepted,
    ((sizes_agree _ 0).mpr ⟨notOnlyRun, notOnlySandbox⟩ 65536).mp accepted⟩

/-- `KB` is a suffix for `run` alone; a plus sign or a blank in front of the
digits is refused by `run` alone. -/
theorem sizes_differ :
    ResourceOptions.parseSize (literal "1KB") 0 = (true, 1024) ∧
      SandboxOptions.parseSize (literal "1KB") = none ∧
      ResourceOptions.parseSize (literal "+5") 0 = (false, 0) ∧
      SandboxOptions.parseSize (literal "+5") = some 5 ∧
      ResourceOptions.parseSize (literal " 5") 0 = (false, 0) ∧
      SandboxOptions.parseSize (literal " 5") = some 5 := by
  decide +kernel

end Shell.Quantities
