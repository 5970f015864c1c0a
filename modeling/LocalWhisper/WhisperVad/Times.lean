import LocalWhisper.WhisperVad.Scan
import Mathlib.Tactic.NormNum

/-! Centiseconds and samples, which `double` arithmetic converts into each other. -/

namespace LocalWhisper.WhisperVad

open LocalWhisper.Machine
open LocalWhisper.Record.Pcm (maxInt truncate)

/-- `cs_to_samples`. -/
def csToSamples (cs : Int) : Int :=
  truncate (binary64 (binary64 (binary64 (cs / 100) * sampleRate) + 1 / 2))

/-- `samples_to_cs`. -/
def samplesToCs (samples : Int) : Int :=
  truncate (binary64 (binary64 (binary64 (samples / sampleRate) * 100) + 1 / 2))

theorem binary64_near_of_le {value bound : Rat} (positive : 0 < value) (below : value ≤ bound) :
    -(bound / 2 ^ 53) ≤ binary64 value - value ∧ binary64 value - value ≤ bound / 2 ^ 53 := by
  have near : |binary64 value - value| ≤ value / 2 ^ 53 := roundBinary_near positive
  exact abs_le.mp (near.trans (div_le_div_of_nonneg_right below (by norm_num)))

/-- A product and the half added to it stay close to the exact result in `double`
arithmetic. -/
theorem binary64_near {value factor : Rat} (positive : 0 < value) (grows : 0 < factor)
    (small : value * factor ≤ 2 ^ 32) :
    value * factor + 1 / 2 - 1 / 2 ^ 16 ≤
        binary64 (binary64 (binary64 value * factor) + 1 / 2) ∧
      binary64 (binary64 (binary64 value * factor) + 1 / 2) ≤
        value * factor + 1 / 2 + 1 / 2 ^ 16 := by
  obtain ⟨first, firstIs⟩ : ∃ first, first = binary64 value := ⟨_, rfl⟩
  obtain ⟨second, secondIs⟩ : ∃ second, second = binary64 (first * factor) := ⟨_, rfl⟩
  obtain ⟨third, thirdIs⟩ : ∃ third, third = binary64 (second + 1 / 2) := ⟨_, rfl⟩
  have firstNear := binary64_near_of_le positive le_rfl
  rw [← firstIs] at firstNear
  have lower := mul_le_mul_of_nonneg_right firstNear.1 grows.le
  have upper := mul_le_mul_of_nonneg_right firstNear.2 grows.le
  have product : 0 < value * factor := mul_pos positive grows
  have firstPositive : 0 < first * factor := by
    norm_num at lower
    nlinarith
  have secondNear := binary64_near_of_le firstPositive
    (show first * factor ≤ 2 ^ 33 by norm_num at upper small ⊢; nlinarith)
  rw [← secondIs] at secondNear
  have secondNonneg : 0 ≤ second := secondIs ▸ roundBinary_nonneg firstPositive.le
  have thirdNear := binary64_near_of_le (show 0 < second + 1 / 2 by linarith)
    (show second + 1 / 2 ≤ 2 ^ 34 by norm_num at upper small secondNear ⊢; nlinarith)
  rw [← thirdIs] at thirdNear
  rw [← firstIs, ← secondIs, ← thirdIs]
  norm_num at lower upper secondNear thirdNear small ⊢
  constructor <;> nlinarith

theorem truncate_near {value exact : Rat} {number : Int} (nonneg : 0 ≤ value)
    (lower : exact + 1 / 2 - 1 / 2 ^ 16 ≤ value) (upper : value ≤ exact + 1 / 2 + 1 / 2 ^ 16)
    (truncated : number = truncate value) :
    exact - 1 / 2 - 1 / 2 ^ 16 < number ∧ (number : Rat) ≤ exact + 1 / 2 + 1 / 2 ^ 16 := by
  rw [truncate, if_pos nonneg] at truncated
  have below := Rat.floor_le value
  have above := Rat.lt_floor_add_one value
  rw [← truncated] at below above
  push_cast at above
  norm_num at lower upper ⊢
  constructor <;> linarith

theorem binary64_mono {first second : Rat} (nonneg : 0 ≤ first) (ordered : first ≤ second) :
    binary64 first ≤ binary64 second := roundBinary_mono nonneg ordered

theorem binary32_mono {first second : Rat} (nonneg : 0 ≤ first) (ordered : first ≤ second) :
    binary32 first ≤ binary32 second := roundBinary_mono nonneg ordered

theorem convert_nonneg {value factor : Rat} (nonneg : 0 ≤ value) (grows : 0 ≤ factor) :
    0 ≤ binary64 (binary64 (binary64 value * factor) + 1 / 2) := by
  have product := mul_nonneg (roundBinary_nonneg nonneg : 0 ≤ binary64 value) grows
  have second : 0 ≤ binary64 (binary64 value * factor) := roundBinary_nonneg product
  exact roundBinary_nonneg (by linarith)

theorem convert_mono {first second factor : Rat} (nonneg : 0 ≤ first) (ordered : first ≤ second)
    (grows : 0 ≤ factor) :
    binary64 (binary64 (binary64 first * factor) + 1 / 2) ≤
      binary64 (binary64 (binary64 second * factor) + 1 / 2) := by
  have scaled := mul_le_mul_of_nonneg_right (binary64_mono nonneg ordered) grows
  have product := mul_nonneg (roundBinary_nonneg nonneg : 0 ≤ binary64 first) grows
  have rounded := binary64_mono product scaled
  have positive : 0 ≤ binary64 (binary64 first * factor) := roundBinary_nonneg product
  exact binary64_mono (by linarith) (by linarith)

theorem truncate_mono {first second : Rat} (nonneg : 0 ≤ first) (ordered : first ≤ second) :
    truncate first ≤ truncate second := by
  rw [truncate, truncate, if_pos nonneg, if_pos (nonneg.trans ordered)]
  exact Rat.floor_monotone ordered

theorem samplesToCs_mono {first second : Int} (nonneg : 0 ≤ first) (ordered : first ≤ second) :
    samplesToCs first ≤ samplesToCs second := by
  have rate : (0 : Rat) < sampleRate := by norm_num [sampleRate]
  have firstNonneg : (0 : Rat) ≤ first / sampleRate :=
    div_nonneg (by exact_mod_cast nonneg) rate.le
  have quotients : (first : Rat) / sampleRate ≤ second / sampleRate :=
    div_le_div_of_nonneg_right (by exact_mod_cast ordered) rate.le
  exact truncate_mono (convert_nonneg firstNonneg (by norm_num))
    (convert_mono firstNonneg quotients (by norm_num))

theorem csToSamples_mono {first second : Int} (nonneg : 0 ≤ first) (ordered : first ≤ second) :
    csToSamples first ≤ csToSamples second := by
  have rate : (0 : Rat) ≤ sampleRate := by norm_num [sampleRate]
  have firstNonneg : (0 : Rat) ≤ first / 100 :=
    div_nonneg (by exact_mod_cast nonneg) (by norm_num)
  have quotients : (first : Rat) / 100 ≤ second / 100 :=
    div_le_div_of_nonneg_right (by exact_mod_cast ordered) (by norm_num)
  exact truncate_mono (convert_nonneg firstNonneg rate) (convert_mono firstNonneg quotients rate)

theorem convert_zero (factor : Rat) :
    truncate (binary64 (binary64 (binary64 0 * factor) + 1 / 2)) = 0 := by
  have half : roundBinary 53 (1 / 2) = 1 / 2 := by
    have exact : roundBinary 53 ((1 : Int) * 2 ^ (-1 : Int)) = (1 : Int) * 2 ^ (-1 : Int) :=
      roundBinary_exact (by norm_num)
    norm_num at exact ⊢
    exact exact
  have floor : (1 / 2 : Rat).floor = 0 := by
    show ⌊(1 / 2 : Rat)⌋ = 0
    norm_num
  simp only [binary64, roundBinary_zero, zero_mul, zero_add]
  rw [half, truncate, if_pos (by norm_num), floor]

@[simp] theorem samplesToCs_zero : samplesToCs 0 = 0 := by
  rw [samplesToCs, Int.cast_zero, zero_div, convert_zero]

theorem csToSamples_nonneg {cs : Int} (nonneg : 0 ≤ cs) : 0 ≤ csToSamples cs := by
  have monotone := csToSamples_mono (Int.le_refl 0) nonneg
  rwa [csToSamples, Int.cast_zero, zero_div, convert_zero] at monotone

/-- A time in centiseconds lies at most half a centisecond away from the sample. -/
theorem samplesToCs_near {samples : Int} (nonneg : 0 ≤ samples) (small : samples ≤ 2 ^ 31) :
    samples - 80 ≤ 160 * samplesToCs samples ∧ 160 * samplesToCs samples ≤ samples + 80 := by
  rcases nonneg.eq_or_lt with rfl | positive
  · rw [samplesToCs_zero]
    omega
  · have counted : (0 : Rat) < samples := by exact_mod_cast positive
    have limit : (samples : Rat) ≤ 2 ^ 31 := by exact_mod_cast small
    have quotient : (0 : Rat) < samples / sampleRate := by
      unfold sampleRate
      positivity
    have exact : (samples : Rat) / sampleRate * 100 = samples / 160 := by
      unfold sampleRate
      push_cast
      ring
    have near := binary64_near quotient (show (0 : Rat) < 100 by norm_num) (by
      rw [exact]
      norm_num at limit ⊢
      linarith)
    rw [exact] at near
    obtain ⟨above, below⟩ := truncate_near
      (convert_nonneg quotient.le (show (0 : Rat) ≤ 100 by norm_num)) near.1 near.2
      (rfl : samplesToCs samples = _)
    have lower : ((samples - 81 : Int) : Rat) < (160 * samplesToCs samples : Int) := by
      push_cast
      norm_num at above
      linarith
    have upper : ((160 * samplesToCs samples : Int) : Rat) < (samples + 81 : Int) := by
      push_cast
      norm_num at below
      linarith
    have lowerInt : samples - 81 < 160 * samplesToCs samples := by exact_mod_cast lower
    have upperInt : 160 * samplesToCs samples < samples + 81 := by exact_mod_cast upper
    omega

theorem samplesToCs_nonneg {samples : Int} (nonneg : 0 ≤ samples) : 0 ≤ samplesToCs samples := by
  have monotone := samplesToCs_mono (Int.le_refl 0) nonneg
  rwa [samplesToCs_zero] at monotone

theorem csToSamples_eq {cs : Int} (nonneg : 0 ≤ cs) (small : 160 * cs ≤ 2 ^ 31) :
    csToSamples cs = 160 * cs := by
  rcases nonneg.eq_or_lt with rfl | positive
  · rw [csToSamples, Int.cast_zero, zero_div, convert_zero, mul_zero]
  · have counted : (0 : Rat) < cs := by exact_mod_cast positive
    have limit : 160 * (cs : Rat) ≤ 2 ^ 31 := by exact_mod_cast small
    have rate : (0 : Rat) < sampleRate := by norm_num [sampleRate]
    have quotient : (0 : Rat) < cs / 100 := by positivity
    have exact : (cs : Rat) / 100 * sampleRate = 160 * cs := by
      unfold sampleRate
      push_cast
      ring
    have near := binary64_near quotient rate (by
      rw [exact]
      norm_num at limit ⊢
      linarith)
    rw [exact] at near
    obtain ⟨above, below⟩ := truncate_near (convert_nonneg quotient.le rate.le) near.1 near.2
      (rfl : csToSamples cs = _)
    have lower : ((160 * cs - 1 : Int) : Rat) < (csToSamples cs : Int) := by
      push_cast
      norm_num at above
      linarith
    have upper : ((csToSamples cs : Int) : Rat) < (160 * cs + 1 : Int) := by
      push_cast
      norm_num at below
      linarith
    have lowerInt : 160 * cs - 1 < csToSamples cs := by exact_mod_cast lower
    have upperInt : csToSamples cs < 160 * cs + 1 := by exact_mod_cast upper
    omega

end LocalWhisper.WhisperVad
