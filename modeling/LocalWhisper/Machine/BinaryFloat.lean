import Mathlib.Algebra.Order.Floor.Ring
import Mathlib.Data.Int.Log
import Mathlib.Data.Rat.Floor
import Mathlib.Tactic.Linarith

/-! Rounding to a binary floating-point number of so many bits, to nearest with ties
to even, as long as the exponent stays in range. -/

namespace LocalWhisper.Machine

/-- The nearest integer, the even one of two. -/
def roundEven (value : Rat) : Int :=
  let lower := ⌊value⌋
  if value - lower < 1 / 2 then lower
  else if 1 / 2 < value - lower then lower + 1
  else if lower % 2 = 0 then lower else lower + 1

theorem roundEven_near (value : Rat) : |(roundEven value : Rat) - value| ≤ 1 / 2 := by
  have lower := Int.floor_le value
  have upper := Int.lt_floor_add_one value
  rw [abs_le]
  simp only [roundEven]
  split
  · constructor <;> linarith
  · rename_i atLeast
    split
    · push_cast
      constructor <;> linarith
    · split
      · constructor <;> linarith
      · push_cast
        constructor <;> linarith

@[simp] theorem roundEven_intCast (value : Int) : roundEven value = value := by
  simp [roundEven]

theorem roundEven_eq {value : Rat} {number : Int} (near : |(number : Rat) - value| < 1 / 2) :
    roundEven value = number := by
  have rounded := abs_le.mp (roundEven_near value)
  have given := abs_lt.mp near
  have upper : (roundEven value : Rat) < (number + 1 : Int) := by
    push_cast
    linarith
  have lower : (number : Rat) < (roundEven value + 1 : Int) := by
    push_cast
    linarith
  have upperInt : roundEven value < number + 1 := by exact_mod_cast upper
  have lowerInt : number < roundEven value + 1 := by exact_mod_cast lower
  omega

theorem roundEven_mono {first second : Rat} (ordered : first ≤ second) :
    roundEven first ≤ roundEven second := by
  by_contra! above
  have step : (roundEven second : Rat) + 1 ≤ roundEven first := by exact_mod_cast above
  have firstNear := abs_le.mp (roundEven_near first)
  have secondNear := abs_le.mp (roundEven_near second)
  -- Only a tie is as far from two integers.
  have same : first = second := by linarith
  rw [same] at above
  exact lt_irrefl _ above

/-- The distance of the numbers with `precision` bits around a value. -/
def binaryUnit (precision : Nat) (value : Rat) : Rat :=
  2 ^ (Int.log 2 |value| - precision + 1)

/-- The nearest number with `precision` bits. -/
def roundBinary (precision : Nat) (value : Rat) : Rat :=
  roundEven (value / binaryUnit precision value) * binaryUnit precision value

/-- A `double` result. -/
abbrev binary64 : Rat → Rat := roundBinary 53

/-- A `float` result. -/
abbrev binary32 : Rat → Rat := roundBinary 24

section Rounding

variable {precision : Nat} {value first second : Rat}

theorem binaryUnit_pos : 0 < binaryUnit precision value := zpow_pos two_pos _

theorem le_unit_mul (positive : 0 < value) :
    (2 : Rat) ^ ((precision : Int) - 1) * binaryUnit precision value ≤ value := by
  have bits : (precision : Int) - 1 + (Int.log 2 |value| - precision + 1) = Int.log 2 |value| := by
    omega
  have lower := Int.zpow_log_le_self (b := 2) Nat.one_lt_two (abs_pos.mpr positive.ne')
  rw [Nat.cast_ofNat] at lower
  rw [binaryUnit, ← zpow_add₀ two_ne_zero, bits]
  rwa [abs_of_pos positive] at lower ⊢

private theorem lt_unit_mul (nonneg : 0 ≤ value) :
    value < (2 : Rat) ^ precision * binaryUnit precision value := by
  have bits : (precision : Int) + (Int.log 2 |value| - precision + 1) = Int.log 2 |value| + 1 := by
    omega
  have upper := Int.lt_zpow_succ_log_self (b := 2) Nat.one_lt_two |value|
  rw [Nat.cast_ofNat] at upper
  rw [binaryUnit, ← zpow_natCast, ← zpow_add₀ two_ne_zero, bits]
  rwa [abs_of_nonneg nonneg] at upper ⊢

@[simp] theorem roundBinary_zero : roundBinary precision 0 = 0 := by
  have zero := roundEven_intCast 0
  rw [Int.cast_zero] at zero
  rw [roundBinary, zero_div, zero, Int.cast_zero, zero_mul]

private theorem roundBinary_near_unit :
    |roundBinary precision value - value| ≤ binaryUnit precision value / 2 := by
  have positive := @binaryUnit_pos precision value
  have near := roundEven_near (value / binaryUnit precision value)
  have scaled : roundBinary precision value - value =
      ((roundEven (value / binaryUnit precision value) : Rat) -
        value / binaryUnit precision value) * binaryUnit precision value := by
    rw [roundBinary, sub_mul, div_mul_cancel₀ _ positive.ne']
  rw [scaled, abs_mul, abs_of_pos positive]
  have product := mul_le_mul_of_nonneg_right near positive.le
  linarith

/-- The relative error of a rounding. -/
theorem roundBinary_near (positive : 0 < value) :
    |roundBinary precision value - value| ≤ value / 2 ^ precision := by
  have unit := @le_unit_mul precision value positive
  have half : (2 : Rat) ^ ((precision : Int) - 1) * 2 = 2 ^ precision := by
    rw [← zpow_add_one₀ two_ne_zero, sub_add_cancel, zpow_natCast]
  have near := @roundBinary_near_unit precision value
  rw [le_div_iff₀ (pow_pos two_pos _), ← half]
  have scale : (0 : Rat) < 2 ^ ((precision : Int) - 1) := zpow_pos two_pos _
  nlinarith

theorem roundBinary_nonneg (nonneg : 0 ≤ value) : 0 ≤ roundBinary precision value := by
  have quotient : (0 : Rat) ≤ value / binaryUnit precision value :=
    div_nonneg nonneg binaryUnit_pos.le
  have rounded := roundEven_mono quotient
  have zero := roundEven_intCast 0
  rw [Int.cast_zero] at zero
  rw [zero] at rounded
  exact mul_nonneg (by exact_mod_cast rounded) binaryUnit_pos.le

theorem roundBinary_nonpos (nonpos : value ≤ 0) : roundBinary precision value ≤ 0 := by
  have quotient : value / binaryUnit precision value ≤ 0 :=
    div_nonpos_of_nonpos_of_nonneg nonpos binaryUnit_pos.le
  have rounded := roundEven_mono quotient
  have zero := roundEven_intCast 0
  rw [Int.cast_zero] at zero
  rw [zero] at rounded
  exact mul_nonpos_of_nonpos_of_nonneg (by exact_mod_cast rounded) binaryUnit_pos.le

/-- Numbers of at most `precision` bits stay. -/
theorem roundBinary_exact {mantissa exponent : Int} (bits : |mantissa| < 2 ^ precision) :
    roundBinary precision (mantissa * 2 ^ exponent) = mantissa * 2 ^ exponent := by
  by_cases zero : mantissa = 0
  · rw [zero, Int.cast_zero, zero_mul, roundBinary_zero]
  · obtain ⟨value, valueIs⟩ : ∃ value : Rat, value = mantissa * 2 ^ exponent := ⟨_, rfl⟩
    have positive : 0 < |value| := by
      rw [valueIs]
      exact abs_pos.mpr (mul_ne_zero (by exact_mod_cast zero) (zpow_pos two_pos _).ne')
    have size : |value| < 2 ^ ((precision : Int) + exponent) := by
      have scale : (0 : Rat) < 2 ^ exponent := zpow_pos two_pos exponent
      rw [valueIs, abs_mul, abs_of_pos scale, zpow_add₀ two_ne_zero, zpow_natCast]
      exact mul_lt_mul_of_pos_right (by exact_mod_cast bits) (zpow_pos two_pos exponent)
    -- The unit divides the last bit of the mantissa.
    have lower := Int.zpow_log_le_self (b := 2) Nat.one_lt_two positive
    rw [Nat.cast_ofNat] at lower
    have below := (zpow_lt_zpow_iff_right₀ one_lt_two).mp (lower.trans_lt size)
    obtain ⟨shift, shiftIs⟩ := Int.eq_ofNat_of_zero_le
      (a := exponent - (Int.log 2 |value| - precision + 1)) (by omega)
    have whole : value / binaryUnit precision value = ((mantissa * 2 ^ shift : Int) : Rat) := by
      rw [div_eq_iff binaryUnit_pos.ne', binaryUnit, Int.cast_mul, mul_assoc, Int.cast_pow,
        Int.cast_ofNat, ← zpow_natCast, ← zpow_add₀ two_ne_zero, ← shiftIs, sub_add_cancel,
        valueIs]
    rw [← valueIs, roundBinary, whole, roundEven_intCast, ← whole,
      div_mul_cancel₀ _ binaryUnit_pos.ne']

/-- The mantissa of a value whose exponent is known. -/
theorem roundBinary_eq {mantissa exponent : Int}
    (lower : (2 : Rat) ^ (precision - 1 + exponent) ≤ value)
    (upper : value < (2 : Rat) ^ (precision + exponent))
    (near : |(mantissa : Rat) - value / 2 ^ exponent| < 1 / 2) :
    roundBinary precision value = mantissa * 2 ^ exponent := by
  have positive : 0 < value := (zpow_pos two_pos _).trans_le lower
  have above : precision - 1 + exponent ≤ Int.log 2 value :=
    (Int.zpow_le_iff_le_log Nat.one_lt_two positive).mp (by exact_mod_cast lower)
  have below : Int.log 2 value < precision + exponent :=
    (Int.lt_zpow_iff_log_lt Nat.one_lt_two positive).mp (by exact_mod_cast upper)
  have unit : binaryUnit precision value = 2 ^ exponent := by
    rw [binaryUnit, abs_of_pos positive]
    congr 1
    omega
  rw [roundBinary, unit, roundEven_eq near]

theorem roundBinary_intCast {value : Int} (bits : |value| < 2 ^ precision) :
    roundBinary precision value = value := by
  have exact : roundBinary precision (value * 2 ^ (0 : Int)) = value * 2 ^ (0 : Int) :=
    roundBinary_exact bits
  simpa using exact

private theorem roundBinary_le_of_lt {exponent : Int} (nonneg : 0 ≤ value)
    (unit : binaryUnit precision value = 2 ^ exponent) :
    roundBinary precision value ≤ 2 ^ (precision + exponent) := by
  have positive := @binaryUnit_pos precision value
  have below := @lt_unit_mul precision value nonneg
  have quotient : value / binaryUnit precision value ≤ ((2 ^ precision : Int) : Rat) := by
    rw [div_le_iff₀ positive]
    push_cast
    exact below.le
  have rounded := roundEven_mono quotient
  rw [roundEven_intCast] at rounded
  rw [roundBinary, zpow_add₀ two_ne_zero, zpow_natCast, ← unit]
  exact mul_le_mul_of_nonneg_right (by exact_mod_cast rounded) positive.le

private theorem le_roundBinary {exponent : Int} (positive : 0 < value)
    (unit : binaryUnit (precision + 1) value = 2 ^ exponent) :
    2 ^ (precision + exponent) ≤ roundBinary (precision + 1) value := by
  have unitPositive := @binaryUnit_pos (precision + 1) value
  have above := @le_unit_mul (precision + 1) value positive
  rw [Nat.cast_add, Nat.cast_one, add_sub_cancel_right, zpow_natCast] at above
  have quotient : ((2 ^ precision : Int) : Rat) ≤ value / binaryUnit (precision + 1) value := by
    rw [le_div_iff₀ unitPositive]
    push_cast
    exact above
  have rounded := roundEven_mono quotient
  rw [roundEven_intCast] at rounded
  rw [roundBinary, zpow_add₀ two_ne_zero, zpow_natCast, ← unit]
  exact mul_le_mul_of_nonneg_right (by exact_mod_cast rounded) unitPositive.le

theorem roundBinary_mono (nonneg : 0 ≤ first) (ordered : first ≤ second) :
    roundBinary (precision + 1) first ≤ roundBinary (precision + 1) second := by
  rcases nonneg.eq_or_lt with rfl | positive
  · rw [roundBinary_zero]
    exact roundBinary_nonneg ordered
  · have secondPositive := positive.trans_le ordered
    have logs : Int.log 2 |first| ≤ Int.log 2 |second| := by
      rw [abs_of_pos positive, abs_of_pos secondPositive]
      exact Int.log_mono_right positive ordered
    rcases logs.eq_or_lt with same | smaller
    · have units : binaryUnit (precision + 1) first = binaryUnit (precision + 1) second := by
        rw [binaryUnit, binaryUnit, same]
      have rounded : roundEven (first / binaryUnit (precision + 1) second) ≤
          roundEven (second / binaryUnit (precision + 1) second) :=
        roundEven_mono (div_le_div_of_nonneg_right ordered binaryUnit_pos.le)
      rw [roundBinary, roundBinary, units]
      exact mul_le_mul_of_nonneg_right (by exact_mod_cast rounded) binaryUnit_pos.le
    · -- A power of two lies between the two values, and both stay on their side of it.
      calc roundBinary (precision + 1) first
          ≤ 2 ^ (((precision + 1 : Nat) : Int) + (Int.log 2 |first| - (precision + 1 : Nat) + 1)) :=
            roundBinary_le_of_lt nonneg rfl
        _ ≤ 2 ^ ((precision : Int) + (Int.log 2 |second| - (precision + 1 : Nat) + 1)) :=
            zpow_le_zpow_right₀ one_le_two (by push_cast; omega)
        _ ≤ roundBinary (precision + 1) second := le_roundBinary secondPositive rfl

end Rounding

end LocalWhisper.Machine
