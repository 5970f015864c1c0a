import Mathlib.Algebra.BigOperators.Intervals
import Mathlib.Algebra.BigOperators.Ring.Finset
import Mathlib.Tactic.Ring

/-! The discrete Fourier transform over a commutative ring, and how a transform
of `factor * size` samples is made of `factor` transforms of `size`. -/

namespace LocalWhisper.Machine

universe u

variable {Ring : Type u} [CommRing Ring]

/-- The coefficient of frequency `k` in a transform of `count` samples. -/
def dft (root : Ring) (input : Nat → Ring) (count k : Nat) : Ring :=
  ∑ t ∈ Finset.range count, input t * root ^ (k * t)

theorem dft_congr {root : Ring} {input other : Nat → Ring} {count : Nat} (k : Nat)
    (same : ∀ t < count, input t = other t) : dft root input count k = dft root other count k := by
  apply Finset.sum_congr rfl
  intro t member
  rw [same t (Finset.mem_range.mp member)]

theorem pow_mod_of_root {root : Ring} {count : Nat} (unity : root ^ count = 1) (exponent : Nat) :
    root ^ (exponent % count) = root ^ exponent := by
  calc root ^ (exponent % count)
      = root ^ (exponent % count) * (root ^ count) ^ (exponent / count) := by
        rw [unity, one_pow, mul_one]
    _ = root ^ (exponent % count + count * (exponent / count)) := by
        rw [← pow_mul, ← pow_add]
    _ = root ^ exponent := by rw [Nat.mod_add_div]

private theorem dft_mod {root : Ring} {count : Nat} (unity : root ^ count = 1) (input : Nat → Ring)
    (k : Nat) : dft root input count (k % count) = dft root input count k := by
  apply Finset.sum_congr rfl
  intro t _
  rw [pow_mul, pow_mod_of_root unity, ← pow_mul]

private theorem sum_range_factor (factor size : Nat) (term : Nat → Ring) :
    ∑ t ∈ Finset.range (factor * size), term t =
      ∑ part ∈ Finset.range factor, ∑ j ∈ Finset.range size, term (part + factor * j) := by
  induction size with
  | zero => simp
  | succ size ih =>
    have block : ∑ t ∈ Finset.range factor, term (factor * size + t) =
        ∑ part ∈ Finset.range factor, term (part + factor * size) := by
      apply Finset.sum_congr rfl
      intro part _
      rw [Nat.add_comm]
    simp only [Finset.sum_range_succ, Finset.sum_add_distrib]
    rw [Nat.mul_succ, Finset.sum_range_add, ih, block]

/-- One level of the mixed-radix transform. -/
theorem dft_factor (root : Ring) (input : Nat → Ring) (factor size k : Nat)
    (unity : root ^ (factor * size) = 1) :
    dft root input (factor * size) k =
      ∑ part ∈ Finset.range factor,
        dft (root ^ factor) (fun j => input (part + factor * j)) size (k % size) *
          root ^ (part * k) := by
  have period : (root ^ factor) ^ size = 1 := by rw [← pow_mul, unity]
  rw [dft, sum_range_factor]
  apply Finset.sum_congr rfl
  intro part _
  rw [dft_mod period, dft, Finset.sum_mul]
  apply Finset.sum_congr rfl
  intro j _
  rw [mul_assoc, ← pow_mul, ← pow_add]
  congr 2
  ring

section Halves

variable {root : Ring} {half k : Nat}

/-- A transform of an even number of samples from those of the samples at even and at odd
places. -/
theorem dft_halves (unity : root ^ (2 * half) = 1) (input : Nat → Ring) (k : Nat) :
    dft root input (2 * half) k =
      dft (root ^ 2) (fun j => input (2 * j)) half (k % half) +
        dft (root ^ 2) (fun j => input (2 * j + 1)) half (k % half) * root ^ k := by
  rw [dft_factor root input 2 half k unity, Finset.sum_range_succ, Finset.sum_range_one]
  simp only [Nat.zero_add, Nat.zero_mul, pow_zero, mul_one, Nat.one_mul, Nat.add_comm 1]

variable (turn : root ^ half = -1) (input : Nat → Ring) (below : k < half)
include turn below

theorem dft_first_half : dft root input (2 * half) k =
    dft (root ^ 2) (fun j => input (2 * j)) half k +
      dft (root ^ 2) (fun j => input (2 * j + 1)) half k * root ^ k := by
  have unity : root ^ (2 * half) = 1 := by rw [Nat.mul_comm, pow_mul, turn, neg_one_sq]
  rw [dft_halves unity, Nat.mod_eq_of_lt below]

/-- Half a turn later the sign changes. -/
theorem dft_second_half : dft root input (2 * half) (k + half) =
    dft (root ^ 2) (fun j => input (2 * j)) half k -
      dft (root ^ 2) (fun j => input (2 * j + 1)) half k * root ^ k := by
  have unity : root ^ (2 * half) = 1 := by rw [Nat.mul_comm, pow_mul, turn, neg_one_sq]
  rw [dft_halves unity, Nat.add_mod_right, Nat.mod_eq_of_lt below, pow_add, turn, mul_neg_one,
    mul_neg, sub_eq_add_neg]

end Halves

end LocalWhisper.Machine
