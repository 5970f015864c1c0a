import Mathlib.Algebra.Group.Int.Defs
import Mathlib.Algebra.Group.Nat.Defs
import Mathlib.Order.Lattice
import Mathlib.Order.Basic
import Mathlib.Tactic.Common

/-! The Java `float` values that are numbers, in the order of `Math.min` and
`Math.max`: the negative zero stands below the positive one. -/

namespace LocalWhisper.Machine

/-- The bits of a `float` other than NaN. -/
structure JavaFloat where
  bits : UInt32
  number : bits.toNat % 2 ^ 31 ≤ 0x7F800000
  deriving DecidableEq

namespace JavaFloat

/-- The place in the order; the bits of a negative number count downwards. -/
def rank (value : JavaFloat) : Int :=
  if value.bits.toNat < 2 ^ 31 then value.bits.toNat else 2 ^ 31 - 1 - value.bits.toNat

private theorem rank_injective : Function.Injective rank := by
  intro first second same
  have firstRange := first.bits.toNat_lt
  have secondRange := second.bits.toNat_lt
  have bits : first.bits.toNat = second.bits.toNat := by
    simp only [rank] at same
    split at same <;> split at same <;> omega
  cases first
  cases second
  simp only [mk.injEq]
  exact UInt32.toNat_inj.mp bits

instance : LinearOrder JavaFloat := LinearOrder.lift' rank rank_injective

/-- `0.0f`. -/
def zero : JavaFloat := ⟨0, by decide⟩

/-- `1.0f`. -/
def one : JavaFloat := ⟨0x3F800000, by decide⟩

theorem zero_le_one : zero ≤ one := by decide

end JavaFloat

/-- A value inside its bounds stays. -/
theorem max_min_of_mem {α : Type} [LinearOrder α] {lower upper value : α} (above : lower ≤ value)
    (below : value ≤ upper) : max lower (min upper value) = value := by
  rw [min_eq_right below, max_eq_right above]

theorem max_min_mem {α : Type} [LinearOrder α] {lower upper : α} (range : lower ≤ upper)
    (value : α) : lower ≤ max lower (min upper value) ∧ max lower (min upper value) ≤ upper :=
  ⟨le_max_left .., max_le range (min_le_left ..)⟩

end LocalWhisper.Machine
