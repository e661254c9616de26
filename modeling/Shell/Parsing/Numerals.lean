import Mathlib.Data.List.TakeWhile
import Mathlib.Data.Nat.Digits.Defs
import Shell.Sandbox.Options

/-!
# Numerals

`strtol`, `std::stol` and `std::stoull` with base ten read the same texts: white
space, an optional sign and a word of digits.  They differ in what becomes of
the number.  `strtol` saturates at the limits of its type, `std::stol` throws
beyond them, and `std::stoull` throws beyond the largest magnitude and reduces
a negative number modulo the size of its type.
-/

namespace Shell.Numerals

open Shell.Syntax
open Shell.JobTable
open Shell.SandboxOptions

/-! ## Words of digits -/

def isDigit (character : UInt8) : Bool :=
  0x30 ≤ character && character ≤ 0x39

/-- The number that a word of decimal digits stands for. -/
def decimalValue (digits : ByteString) : Nat :=
  Nat.ofDigits 10 (digits.reverse.map fun character => character.toNat - 0x30)

theorem digitValue_of_isDigit
    {character : UInt8} (digit : isDigit character = true) :
    digitValue character = some (character.toNat - 0x30) := by
  simp only [isDigit, Bool.and_eq_true, decide_eq_true_eq] at digit
  exact if_pos digit

theorem digitValue_of_not_isDigit
    {character : UInt8} (other : isDigit character = false) :
    digitValue character = none := by
  apply if_neg
  rintro ⟨above, below⟩
  simp [isDigit, above, below] at other

/-- The scan takes the digits at the front and nothing else. -/
theorem scanDigits_eq (value : Nat) (text : ByteString) :
    scanDigits value text =
      ((text.takeWhile isDigit).foldl
          (fun value character => 10 * value + (character.toNat - 0x30))
          value,
        (text.takeWhile isDigit).length, text.dropWhile isDigit) := by
  induction text generalizing value with
  | nil => rfl
  | cons character text induction =>
      rw [scanDigits]
      cases digit : isDigit character with
      | true =>
          simp only [digitValue_of_isDigit digit, induction]
          simp [digit]
      | false =>
          simp only [digitValue_of_not_isDigit digit]
          simp [digit]

theorem decimalValue_eq_foldl (digits : ByteString) :
    decimalValue digits =
      digits.foldl
        (fun value character => 10 * value + (character.toNat - 0x30)) 0 := by
  rw [decimalValue, Nat.ofDigits_eq_foldr, List.foldr_map, List.foldr_reverse]
  simp only [Nat.cast_id, Nat.add_comm]

theorem scanDigits_zero (text : ByteString) :
    scanDigits 0 text =
      (decimalValue (text.takeWhile isDigit),
        (text.takeWhile isDigit).length, text.dropWhile isDigit) := by
  rw [scanDigits_eq, decimalValue_eq_foldl]

/-! ## The texts that are read -/

/-- The sign of a numeral. -/
inductive Sign where
  | absent
  | plus
  | minus
deriving DecidableEq, Repr

def Sign.text : Sign → ByteString
  | .absent => []
  | .plus => [0x2b]
  | .minus => [0x2d]

def Sign.apply : Sign → Nat → Int
  | .minus, value => -value
  | _, value => value

/-- White space, an optional sign and digits, and the number they denote. -/
inductive Numeral : ByteString → Int → Prop where
  | intro {blanks : ByteString} (sign : Sign) {digits : ByteString}
      (areBlanks : ∀ character ∈ blanks, isSpace character = true)
      (nonempty : digits ≠ [])
      (areDigits : ∀ character ∈ digits, isDigit character = true) :
      Numeral (blanks ++ (sign.text ++ digits))
        (sign.apply (decimalValue digits))

/-- The sign at the front of a text, and what follows it. -/
def takeSign : ByteString → Sign × ByteString
  | 0x2d :: rest => (.minus, rest)
  | 0x2b :: rest => (.plus, rest)
  | text => (.absent, text)

/-- What the three functions have in common: sign, magnitude and rest. -/
def scanNumeral (text : ByteString) : Option (Sign × Nat × ByteString) :=
  let (sign, text) := takeSign (text.dropWhile isSpace)
  match scanDigits 0 text with
  | (_, 0, _) => none
  | (value, _, rest) => some (sign, value, rest)

theorem takeSign_text (text : ByteString) :
    text = (takeSign text).1.text ++ (takeSign text).2 := by
  rw [takeSign.eq_def]
  split <;> rfl

theorem isDigit_bounds
    {character : UInt8} (digit : isDigit character = true) :
    0x30 ≤ character ∧ character ≤ 0x39 := by
  simpa [isDigit] using digit

/-- Digits are neither white space nor signs. -/
theorem isSpace_of_isDigit
    {character : UInt8} (digit : isDigit character = true) :
    isSpace character = false := by
  rcases isDigit_bounds digit with ⟨above, -⟩
  cases space : isSpace character with
  | false => rfl
  | true =>
      simp only [isSpace, Bool.or_eq_true, Bool.and_eq_true,
        decide_eq_true_eq] at space
      rcases space with rfl | ⟨-, below⟩
      · exact absurd above (by decide)
      · exact absurd (UInt8.le_trans above below) (by decide)

theorem takeSign_of_isDigit
    {character : UInt8} (digit : isDigit character = true)
    (rest : ByteString) :
    takeSign (character :: rest) = (.absent, character :: rest) := by
  rcases isDigit_bounds digit with ⟨above, -⟩
  rw [takeSign]
  · intro _ same
    rw [(List.cons.inj same).1] at above
    exact absurd above (by decide)
  · intro _ same
    rw [(List.cons.inj same).1] at above
    exact absurd above (by decide)

/-- The text behind the white space of a numeral. -/
theorem takeSign_numeral
    (sign : Sign) {digits : ByteString} (nonempty : digits ≠ [])
    (areDigits : ∀ character ∈ digits, isDigit character = true) :
    takeSign (sign.text ++ digits) = (sign, digits) := by
  cases sign with
  | plus | minus => rfl
  | absent =>
      cases digits with
      | nil => exact (nonempty rfl).elim
      | cons character rest =>
          exact takeSign_of_isDigit (areDigits character List.mem_cons_self)
            rest

theorem dropWhile_isSpace_numeral
    {blanks : ByteString} (sign : Sign) {digits : ByteString}
    (areBlanks : ∀ character ∈ blanks, isSpace character = true)
    (nonempty : digits ≠ [])
    (areDigits : ∀ character ∈ digits, isDigit character = true) :
    (blanks ++ (sign.text ++ digits)).dropWhile isSpace =
      sign.text ++ digits := by
  rw [List.dropWhile_append_of_pos areBlanks]
  cases sign with
  | plus | minus => rfl
  | absent =>
      cases digits with
      | nil => exact (nonempty rfl).elim
      | cons character rest =>
          have notSpace :=
            isSpace_of_isDigit (areDigits character List.mem_cons_self)
          simp [Sign.text, notSpace]

theorem scanNumeral_eq_some
    {text : ByteString} {sign : Sign} {magnitude : Nat} {rest : ByteString} :
    scanNumeral text = some (sign, magnitude, rest) ↔
      ∃ body,
        takeSign (text.dropWhile isSpace) = (sign, body) ∧
          body.takeWhile isDigit ≠ [] ∧
          decimalValue (body.takeWhile isDigit) = magnitude ∧
          body.dropWhile isDigit = rest := by
  rw [scanNumeral]
  generalize takeSign (text.dropWhile isSpace) = parts
  rcases parts with ⟨found, body⟩
  simp only [scanDigits_zero]
  cases digits : body.takeWhile isDigit with
  | nil =>
      simp only [List.length_nil, reduceCtorEq, false_iff]
      rintro ⟨_, same, nonempty, -⟩
      cases same
      exact nonempty digits
  | cons first later =>
      simp only [List.length_cons, Option.some.injEq, Prod.mk.injEq]
      constructor
      · rintro ⟨rfl, rfl, rfl⟩
        refine ⟨body, ⟨rfl, rfl⟩, ?_, congrArg decimalValue digits, rfl⟩
        rw [digits]
        exact List.cons_ne_nil first later
      · rintro ⟨_, ⟨rfl, rfl⟩, -, rfl, rfl⟩
        exact ⟨rfl, (congrArg decimalValue digits).symm, rfl⟩

/-- A text is a numeral if it is read to its end. -/
theorem numeral_iff {text : ByteString} {value : Int} :
    Numeral text value ↔
      ∃ sign magnitude,
        scanNumeral text = some (sign, magnitude, []) ∧
          value = sign.apply magnitude := by
  constructor
  · rintro ⟨sign, areBlanks, nonempty, areDigits⟩
    rename_i digits
    have takesAll := List.takeWhile_eq_self_iff.mpr areDigits
    refine ⟨sign, decimalValue digits, scanNumeral_eq_some.mpr ?_, rfl⟩
    refine ⟨digits, ?_, ?_, ?_, List.dropWhile_eq_nil_iff.mpr areDigits⟩
    · rw [dropWhile_isSpace_numeral sign areBlanks nonempty areDigits,
        takeSign_numeral sign nonempty areDigits]
    · rwa [takesAll]
    · rw [takesAll]
  · rintro ⟨sign, magnitude, scanned, rfl⟩
    rcases scanNumeral_eq_some.mp scanned with
      ⟨body, signed, nonempty, rfl, isRead⟩
    have areDigits := List.dropWhile_eq_nil_iff.mp isRead
    rw [List.takeWhile_eq_self_iff.mpr areDigits] at nonempty ⊢
    have split := takeSign_text (text.dropWhile isSpace)
    rw [signed] at split
    rw [← List.takeWhile_append_dropWhile (p := isSpace) (l := text), split]
    exact .intro sign (fun _ => List.mem_takeWhile_imp) nonempty areDigits

/-- A text is a numeral for one number only. -/
theorem Numeral.unique
    {text : ByteString} {value other : Int}
    (numeral : Numeral text value) (again : Numeral text other) :
    value = other := by
  rcases numeral_iff.mp numeral with ⟨_, _, scanned, rfl⟩
  rcases numeral_iff.mp again with ⟨_, _, scannedAgain, rfl⟩
  rw [scanned] at scannedAgain
  cases scannedAgain
  rfl

theorem numeral_ends_in_digit
    {text : ByteString} {number : Int} (numeral : Numeral text number) :
    ∃ front digit, text = front ++ [digit] ∧ isDigit digit = true := by
  rcases numeral with ⟨sign, areBlanks, nonempty, areDigits⟩
  rename_i blanks digits
  refine ⟨blanks ++ (sign.text ++ digits.dropLast), digits.getLast nonempty,
    ?_, areDigits _ (List.getLast_mem nonempty)⟩
  simp [List.dropLast_append_getLast nonempty]

/-- A numeral that starts with neither white space nor a sign is a word of
digits. -/
theorem numeral_digits
    {text : ByteString} {number : Int} (numeral : Numeral text number)
    (plain : ∀ head ∈ text.head?, isSpace head = false ∧ head ≠ 0x2b)
    (notMinus : text.head? ≠ some 0x2d) :
    text ≠ [] ∧ ∀ character ∈ text, isDigit character = true := by
  rcases numeral with ⟨sign, areBlanks, nonempty, areDigits⟩
  rename_i blanks digits
  rcases blanks with - | ⟨blank, blanks⟩
  · cases sign with
    | absent => exact ⟨nonempty, areDigits⟩
    | plus => exact absurd rfl (plain 0x2b rfl).2
    | minus => exact absurd rfl notMinus
  · have isBlank := areBlanks blank List.mem_cons_self
    rw [(plain blank rfl).1] at isBlank
    cases isBlank

/-! ## What the functions return -/

/-- A text starts with a minus sign, with a plus sign or with neither. -/
theorem takeSign_cases (text : ByteString) :
    (∃ rest, text = 0x2d :: rest ∧ takeSign text = (.minus, rest)) ∨
      (∃ rest, text = 0x2b :: rest ∧ takeSign text = (.plus, rest)) ∨
      (∀ rest, text ≠ 0x2d :: rest) ∧ (∀ rest, text ≠ 0x2b :: rest) ∧
        takeSign text = (.absent, text) := by
  rw [takeSign.eq_def]
  split
  · exact Or.inl ⟨_, rfl, rfl⟩
  · exact Or.inr (Or.inl ⟨_, rfl, rfl⟩)
  · rename_i notMinus notPlus
    exact Or.inr (Or.inr ⟨notMinus, notPlus, rfl⟩)

theorem strtol_eq (text : ByteString) :
    strtol text =
      (scanNumeral text).map fun (sign, magnitude, rest) =>
        (clampLong (sign.apply magnitude), rest) := by
  simp only [strtol, scanNumeral]
  generalize text.dropWhile isSpace = body
  rcases takeSign_cases body with
    ⟨rest, rfl, signed⟩ | ⟨rest, rfl, signed⟩ | ⟨notMinus, notPlus, signed⟩
  · simp only [signed]
    rcases scanDigits 0 rest with ⟨value, - | count, later⟩ <;> rfl
  · simp only [signed]
    rcases scanDigits 0 rest with ⟨value, - | count, later⟩ <;> rfl
  · simp only [signed]
    rcases scanDigits 0 body with ⟨value, - | count, later⟩ <;> rfl

theorem stoull_eq (text : ByteString) :
    stoull text =
      (scanNumeral text).bind fun (sign, magnitude, rest) =>
        if 0xffffffffffffffff < magnitude then none
        else
          some ((sign.apply magnitude % 0x10000000000000000).toNat, rest) := by
  have reduced (value : Nat) (fits : ¬ 0xffffffffffffffff < value) :
      ((value : Int) % 0x10000000000000000).toNat = value := by
    omega
  have negated (value : Nat) (fits : ¬ 0xffffffffffffffff < value) :
      (-(value : Int) % 0x10000000000000000).toNat =
        (0x10000000000000000 - value) % 0x10000000000000000 := by
    omega
  simp only [stoull, scanNumeral]
  generalize text.dropWhile isSpace = body
  rcases takeSign_cases body with
    ⟨rest, rfl, signed⟩ | ⟨rest, rfl, signed⟩ | ⟨notMinus, notPlus, signed⟩
  · simp only [signed]
    rcases scanDigits 0 rest with ⟨value, - | count, later⟩
    · rfl
    · by_cases tooLarge : 0xffffffffffffffff < value
      · simp [tooLarge]
      · simp [tooLarge, Sign.apply, negated value tooLarge]
  · simp only [signed]
    rcases scanDigits 0 rest with ⟨value, - | count, later⟩
    · rfl
    · by_cases tooLarge : 0xffffffffffffffff < value
      · simp [tooLarge]
      · simp [tooLarge, Sign.apply, reduced value tooLarge]
  · simp only [signed]
    rcases scanDigits 0 body with ⟨value, - | count, later⟩
    · rfl
    · by_cases tooLarge : 0xffffffffffffffff < value
      · simp [tooLarge]
      · simp [tooLarge, Sign.apply, reduced value tooLarge]

/-- `std::stol` with base ten: the value and the text behind the numeral, or
nothing when it throws. -/
def stol (text : ByteString) : Option (Int × ByteString) :=
  match scanNumeral text with
  | none => none
  | some (sign, magnitude, rest) =>
      let value := sign.apply magnitude
      if clampLong value = value then some (value, rest) else none

/-- `strtol` reads a numeral to its end and saturates its value. -/
theorem strtol_full {text : ByteString} {value : Int} :
    strtol text = some (value, []) ↔
      ∃ number, Numeral text number ∧ value = clampLong number := by
  rw [strtol_eq, Option.map_eq_some_iff]
  constructor
  · rintro ⟨⟨sign, magnitude, rest⟩, scanned, equal⟩
    cases equal
    exact ⟨_, numeral_iff.mpr ⟨sign, magnitude, scanned, rfl⟩, rfl⟩
  · rintro ⟨number, numeral, rfl⟩
    rcases numeral_iff.mp numeral with ⟨sign, magnitude, scanned, rfl⟩
    exact ⟨_, scanned, rfl⟩

/-- `std::stoull` reads a numeral to its end, if its magnitude fits, and
reduces its value. -/
theorem stoull_full {text : ByteString} {value : Nat} :
    stoull text = some (value, []) ↔
      ∃ number,
        Numeral text number ∧ number.natAbs ≤ 0xffffffffffffffff ∧
          (value : Int) = number % 0x10000000000000000 := by
  rw [stoull_eq, Option.bind_eq_some_iff]
  have magnitude_eq (sign : Sign) (magnitude : Nat) :
      (sign.apply magnitude).natAbs = magnitude := by
    cases sign <;> simp [Sign.apply]
  constructor
  · rintro ⟨⟨sign, magnitude, rest⟩, scanned, equal⟩
    simp only [Option.ite_none_left_eq_some, Option.some.injEq,
      Prod.mk.injEq] at equal
    rcases equal with ⟨fits, rfl, rfl⟩
    refine ⟨_, numeral_iff.mpr ⟨sign, magnitude, scanned, rfl⟩, ?_, ?_⟩
    · rw [magnitude_eq]
      exact Nat.le_of_not_lt fits
    · apply Int.toNat_of_nonneg
      exact Int.emod_nonneg _ (by decide)
  · rintro ⟨number, numeral, fits, equal⟩
    rcases numeral_iff.mp numeral with ⟨sign, magnitude, scanned, rfl⟩
    rw [magnitude_eq] at fits
    refine ⟨_, scanned, ?_⟩
    simp only [Nat.not_lt.mpr fits, if_false, ← equal, Int.toNat_natCast]

/-- `parse_unsigned` takes a numeral that does not start with a minus sign. -/
theorem parseUnsigned_eq_some
    {text : ByteString} {allowZero : Bool} {value : Nat} :
    parseUnsigned text allowZero = some value ↔
      text.head? ≠ some 0x2d ∧
        (∃ number,
          Numeral text number ∧ number.natAbs ≤ 0xffffffffffffffff ∧
            (value : Int) = number % 0x10000000000000000) ∧
        (allowZero = true ∨ value ≠ 0) := by
  rw [← stoull_full, parseUnsigned]
  by_cases refused : text.head? = none ∨ text.head? = some 0x2d
  · rw [if_pos refused]
    simp only [reduceCtorEq, false_iff]
    rintro ⟨notMinus, read, -⟩
    rcases refused with isNil | isMinus
    · rw [List.head?_eq_none_iff.mp isNil] at read
      cases read
    · exact notMinus isMinus
  · rw [if_neg refused]
    rw [not_or] at refused
    generalize stoull text = result
    rcases result with - | ⟨parsed, - | ⟨head, rest⟩⟩
    · simp
    · have accepts :
          (!allowZero && decide (parsed = 0)) = true ↔
            ¬ (allowZero = true ∨ parsed ≠ 0) := by
        cases allowZero <;> simp
      simp only [accepts, Option.ite_none_left_eq_some, not_not,
        Option.some.injEq, Prod.mk.injEq, and_true]
      constructor
      · rintro ⟨allowed, rfl⟩
        exact ⟨refused.2, rfl, allowed⟩
      · rintro ⟨-, rfl, allowed⟩
        exact ⟨allowed, rfl⟩
    · simp

theorem numeral_of_digits
    {digits : ByteString} (nonempty : digits ≠ [])
    (areDigits : ∀ character ∈ digits, isDigit character = true) :
    Numeral digits (decimalValue digits) := by
  have noBlanks : ∀ character ∈ ([] : ByteString), isSpace character = true :=
    nofun
  exact .intro .absent noBlanks nonempty areDigits

/-- What `parse_unsigned` makes of a word of digits. -/
theorem parseUnsigned_digits
    {digits : ByteString} (nonempty : digits ≠ [])
    (areDigits : ∀ character ∈ digits, isDigit character = true) :
    parseUnsigned digits true =
      if decimalValue digits ≤ 0xffffffffffffffff then
        some (decimalValue digits)
      else
        none := by
  have numeral := numeral_of_digits nonempty areDigits
  have notMinus : digits.head? ≠ some 0x2d := by
    intro isMinus
    exact absurd (areDigits 0x2d (List.mem_of_mem_head? isMinus)) (by decide)
  ext value
  rw [parseUnsigned_eq_some, Option.ite_none_right_eq_some]
  constructor
  · rintro ⟨-, ⟨number, read, fits, equal⟩, -⟩
    rw [read.unique numeral, Int.natAbs_natCast] at fits
    rw [read.unique numeral] at equal
    exact ⟨fits, congrArg some (by omega)⟩
  · rintro ⟨fits, same⟩
    cases same
    exact ⟨notMinus, ⟨_, numeral, by omega, by omega⟩, Or.inl rfl⟩

end Shell.Numerals
