import Mathlib.Data.Int.Log
import Mathlib.Data.Rat.Floor
import Mathlib.Tactic.Linarith
import Mathlib.Tactic.Positivity

/-!
# Rounding

Rounding of rational numbers to the nearest integer, and to the nearest number
with so many binary digits; of two that are equally near, the even one is taken.
Numbers have any exponent here, so there is no overflow and no underflow.
-/

namespace Shell.Rounding

/-! ## Integers -/

/-- The nearest integer, and of two the even one. -/
def roundEven (value : ℚ) : ℤ :=
  if value - ⌊value⌋ < 1 / 2 ∨
      value - ⌊value⌋ = 1 / 2 ∧ ⌊value⌋ % 2 = 0 then
    ⌊value⌋
  else
    ⌊value⌋ + 1

theorem abs_roundEven_sub_le (value : ℚ) :
    |(roundEven value : ℚ) - value| ≤ 1 / 2 := by
  have below := Int.floor_le value
  have above := Int.lt_floor_add_one value
  unfold roundEven
  split_ifs with down
  · have half : value - ⌊value⌋ ≤ 1 / 2 := by
      rcases down with less | ⟨equal, -⟩
      · exact less.le
      · exact equal.le
    rw [abs_le]
    constructor <;> linarith
  · have half : 1 / 2 ≤ value - ⌊value⌋ :=
      not_lt.mp fun less => down (Or.inl less)
    push_cast
    rw [abs_le]
    constructor <;> linarith

/-- Less than one half away there is no other integer. -/
theorem roundEven_eq_of_abs_lt
    {value : ℚ} {integer : ℤ} (near : |(integer : ℚ) - value| < 1 / 2) :
    roundEven value = integer := by
  have rounded := abs_le.mp (abs_roundEven_sub_le value)
  have close := abs_lt.mp near
  have less : (roundEven value : ℚ) < integer + 1 := by
    linarith
  have more : (integer : ℚ) < roundEven value + 1 := by
    linarith
  have less : roundEven value < integer + 1 := by
    exact_mod_cast less
  have more : integer < roundEven value + 1 := by
    exact_mod_cast more
  omega

@[simp]
theorem roundEven_intCast (integer : ℤ) :
    roundEven (integer : ℚ) = integer := by
  apply roundEven_eq_of_abs_lt
  rw [sub_self, abs_zero]
  norm_num

theorem roundEven_mono {lower upper : ℚ} (ordered : lower ≤ upper) :
    roundEven lower ≤ roundEven upper := by
  by_contra crossed
  have apart : roundEven upper + 1 ≤ roundEven lower := not_le.mp crossed
  have apart : (roundEven upper : ℚ) + 1 ≤ roundEven lower := by
    exact_mod_cast apart
  have belowUpper := abs_le.mp (abs_roundEven_sub_le upper)
  have aboveLower := abs_le.mp (abs_roundEven_sub_le lower)
  -- Both errors are one half, so that the two numbers are the same.
  have same : lower = upper := by
    linarith
  exact crossed (same ▸ le_refl _)

theorem roundEven_nonneg {value : ℚ} (nonnegative : 0 ≤ value) :
    0 ≤ roundEven value := by
  have ordered := roundEven_mono nonnegative
  rwa [← Int.cast_zero, roundEven_intCast] at ordered

/-! ## Binary digits -/

/-- The distance of the numbers with `precision` digits next to a value. -/
def spacing (precision : ℕ) (value : ℚ) : ℚ :=
  2 ^ (Int.log 2 value + 1 - precision)

/-- The nearest number with `precision` binary digits. -/
def roundBinary (precision : ℕ) (value : ℚ) : ℚ :=
  if value = 0 then 0
  else roundEven (value / spacing precision value) * spacing precision value

variable {precision : ℕ} {value : ℚ}

theorem spacing_pos (precision : ℕ) (value : ℚ) :
    0 < spacing precision value := by
  exact zpow_pos two_pos _

@[simp]
theorem roundBinary_zero (precision : ℕ) : roundBinary precision 0 = 0 :=
  if_pos rfl

theorem roundBinary_of_pos (positive : 0 < value) :
    roundBinary precision value =
      roundEven (value / spacing precision value) *
        spacing precision value :=
  if_neg positive.ne'

theorem mul_spacing (precision : ℕ) (value : ℚ) :
    2 ^ precision * spacing precision value =
      2 ^ (Int.log 2 value + 1) := by
  unfold spacing
  rw [← zpow_natCast, ← zpow_add₀ two_ne_zero]
  congr 1
  omega

theorem spacing_le (positive : 0 < value) :
    2 ^ precision * spacing precision value ≤ 2 * value := by
  rw [mul_spacing, zpow_add_one₀ two_ne_zero, mul_comm]
  exact mul_le_mul_of_nonneg_left
    (Int.zpow_log_le_self one_lt_two positive) zero_le_two

theorem lt_mul_spacing (value : ℚ) :
    value < 2 ^ precision * spacing precision value := by
  rw [mul_spacing]
  exact Int.lt_zpow_succ_log_self one_lt_two value

/-- The error of a rounded number, relative to the number. -/
theorem abs_roundBinary_sub_le (nonnegative : 0 ≤ value) :
    |roundBinary precision value - value| ≤ value / 2 ^ precision := by
  rcases nonnegative.eq_or_lt with rfl | positive
  · simp
  have wide := spacing_pos precision value
  have power : (0 : ℚ) < 2 ^ precision := by
    positivity
  have split :
      roundBinary precision value - value =
        (roundEven (value / spacing precision value) -
            value / spacing precision value) *
          spacing precision value := by
    rw [roundBinary_of_pos positive, sub_mul, div_mul_cancel₀ _ wide.ne']
  have small : 2 ^ precision * spacing precision value ≤ 2 * value :=
    spacing_le positive
  calc
    |roundBinary precision value - value|
        = |(roundEven (value / spacing precision value) : ℚ) -
            value / spacing precision value| *
          spacing precision value := by
      rw [split, abs_mul, abs_of_pos wide]
    _ ≤ 1 / 2 * spacing precision value :=
      mul_le_mul_of_nonneg_right (abs_roundEven_sub_le _) wide.le
    _ ≤ value / 2 ^ precision := by
      rw [le_div_iff₀ power]
      linarith

/-- A number with so many digits is not changed. -/
theorem roundBinary_exact
    {digits : ℕ} {exponent : ℤ} (few : digits < 2 ^ precision) :
    roundBinary precision (digits * 2 ^ exponent) =
      digits * 2 ^ exponent := by
  rcases Nat.eq_zero_or_pos digits with rfl | some
  · simp
  have positive : (0 : ℚ) < digits * 2 ^ exponent :=
    mul_pos (Nat.cast_pos.mpr some) (zpow_pos two_pos _)
  -- The exponent of the spacing is at most that of the number.
  have fine :
      Int.log 2 ((digits : ℚ) * 2 ^ exponent) + 1 - precision ≤ exponent := by
    have less : (digits : ℚ) * 2 ^ exponent < 2 ^ (precision + exponent) := by
      rw [zpow_add₀ two_ne_zero, zpow_natCast]
      exact mul_lt_mul_of_pos_right (by exact_mod_cast few)
        (zpow_pos two_pos _)
    have bounded :
        Int.log 2 ((digits : ℚ) * 2 ^ exponent) < precision + exponent := by
      rw [← Int.lt_zpow_iff_log_lt one_lt_two positive]
      exact_mod_cast less
    omega
  rcases Int.eq_ofNat_of_zero_le (sub_nonneg.mpr fine) with ⟨shift, isShift⟩
  have whole :
      (digits : ℚ) * 2 ^ exponent =
        ((digits * 2 ^ shift : ℕ) : ℤ) *
          spacing precision (digits * 2 ^ exponent) := by
    have sum :
        exponent =
          shift +
            (Int.log 2 ((digits : ℚ) * 2 ^ exponent) + 1 - precision) := by
      omega
    rw [spacing]
    nth_rewrite 1 [sum]
    rw [zpow_add₀ two_ne_zero, zpow_natCast]
    push_cast
    ring
  rw [roundBinary_of_pos positive]
  have quotient :
      (digits : ℚ) * 2 ^ exponent /
          spacing precision (digits * 2 ^ exponent) =
        ((digits * 2 ^ shift : ℕ) : ℤ) :=
    (div_eq_iff (spacing_pos _ _).ne').mpr whole
  rw [quotient, roundEven_intCast]
  exact whole.symm

theorem roundBinary_natCast {number : ℕ} (few : number < 2 ^ precision) :
    roundBinary precision number = number := by
  have unscaled : (number : ℚ) = number * 2 ^ (0 : ℤ) := by
    rw [zpow_zero, mul_one]
  rw [unscaled]
  exact roundBinary_exact few

theorem roundBinary_le_zpow (positive : 0 < value) :
    roundBinary precision value ≤ 2 ^ (Int.log 2 value + 1) := by
  have wide := spacing_pos precision value
  have below : value / spacing precision value ≤ ((2 ^ precision : ℕ) : ℤ) := by
    rw [div_le_iff₀ wide]
    push_cast
    exact (lt_mul_spacing value).le
  have rounded := roundEven_mono below
  rw [roundEven_intCast] at rounded
  rw [roundBinary_of_pos positive, ← mul_spacing precision value]
  refine mul_le_mul_of_nonneg_right ?_ wide.le
  exact_mod_cast rounded

theorem zpow_log_le_roundBinary
    (positive : 0 < value) (some : 0 < precision) :
    2 ^ Int.log 2 value ≤ roundBinary precision value := by
  have wide := spacing_pos precision value
  have half :
      2 ^ (precision - 1) * spacing precision value =
        2 ^ Int.log 2 value := by
    rw [spacing, ← zpow_natCast, ← zpow_add₀ two_ne_zero]
    congr 1
    omega
  have above :
      (((2 ^ (precision - 1) : ℕ) : ℤ) : ℚ) ≤
        value / spacing precision value := by
    rw [le_div_iff₀ wide]
    push_cast
    rw [half]
    exact Int.zpow_log_le_self one_lt_two positive
  have rounded := roundEven_mono above
  rw [roundEven_intCast] at rounded
  rw [roundBinary_of_pos positive, ← half]
  refine mul_le_mul_of_nonneg_right ?_ wide.le
  exact_mod_cast rounded

/-- A rounded number has so many digits. -/
theorem exists_roundBinary_eq
    (some : 0 < precision) (nonnegative : 0 ≤ value) :
    ∃ (digits : ℕ) (exponent : ℤ),
      digits < 2 ^ precision ∧
        roundBinary precision value = digits * 2 ^ exponent := by
  rcases nonnegative.eq_or_lt with rfl | positive
  · exact ⟨0, 0, by positivity, by simp⟩
  have wide := spacing_pos precision value
  rcases Int.eq_ofNat_of_zero_le
      (roundEven_nonneg (div_nonneg nonnegative wide.le)) with
    ⟨digits, rounded⟩
  have bounded : roundBinary precision value ≤ _ :=
    roundBinary_le_zpow positive
  rw [roundBinary_of_pos positive, rounded] at *
  rw [← mul_spacing precision value] at bounded
  have atMost : digits ≤ 2 ^ precision := by
    exact_mod_cast le_of_mul_le_mul_right bounded wide
  rcases atMost.lt_or_eq with few | full
  · exact ⟨digits, _, few, rfl⟩
  -- All digits are used up: the number is the next power of two.
  · refine ⟨1, Int.log 2 value + 1, Nat.one_lt_two_pow some.ne', ?_⟩
    rw [full, ← mul_spacing precision value]
    push_cast
    ring

/-- Halving a rounded number any number of times is exact. -/
theorem roundBinary_div_pow
    (some : 0 < precision) (nonnegative : 0 ≤ value) (halvings : ℕ) :
    roundBinary precision (roundBinary precision value / 2 ^ halvings) =
      roundBinary precision value / 2 ^ halvings := by
  rcases exists_roundBinary_eq some nonnegative with
    ⟨digits, exponent, few, rounded⟩
  have shifted :
      (digits : ℚ) * 2 ^ exponent / 2 ^ halvings =
        digits * 2 ^ (exponent - halvings) := by
    rw [zpow_sub₀ two_ne_zero, zpow_natCast, mul_div_assoc]
  rw [rounded, shifted]
  exact roundBinary_exact few

/-- Between two powers of two the spacing is the same, and a power of two is not
passed. -/
theorem roundBinary_mono
    (some : 0 < precision) {lower upper : ℚ} (nonnegative : 0 ≤ lower)
    (ordered : lower ≤ upper) :
    roundBinary precision lower ≤ roundBinary precision upper := by
  rcases nonnegative.eq_or_lt with rfl | positive
  · rcases ordered.eq_or_lt with rfl | positive
    · exact le_refl _
    · rw [roundBinary_zero]
      exact (zpow_pos two_pos _).le.trans
        (zpow_log_le_roundBinary positive some)
  have upperPositive := positive.trans_le ordered
  rcases (Int.log_mono_right positive ordered).eq_or_lt with same | apart
  · have sameSpacing : spacing precision lower = spacing precision upper := by
      rw [spacing, spacing, same]
    rw [roundBinary_of_pos positive, roundBinary_of_pos upperPositive,
      sameSpacing]
    have wide := spacing_pos precision upper
    refine mul_le_mul_of_nonneg_right ?_ wide.le
    exact_mod_cast roundEven_mono
      (div_le_div_of_nonneg_right ordered wide.le)
  · calc
      roundBinary precision lower ≤ 2 ^ (Int.log 2 lower + 1) :=
        roundBinary_le_zpow positive
      _ ≤ 2 ^ Int.log 2 upper := zpow_le_zpow_right₀ one_le_two apart
      _ ≤ roundBinary precision upper :=
        zpow_log_le_roundBinary upperPositive some

end Shell.Rounding
