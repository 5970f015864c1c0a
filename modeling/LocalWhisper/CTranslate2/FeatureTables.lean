import LocalWhisper.CTranslate2.WhisperFeatures
import Mathlib.Analysis.SpecialFunctions.Log.Base
import Mathlib.Analysis.SpecialFunctions.Trigonometric.Basic

/-! The tables of the feature extractor as the code computes them, and the extractor
that has them over the real numbers. -/

namespace LocalWhisper.CTranslate2

variable {Value : Type} [Field Value]

/-- `fft_roots`. -/
def fftRoots (cos sin : Value → Value) (pi : Value) (index : Nat) : Complex Value :=
  let angle := -2 * pi * index * (1 / (kFftSize : Value))
  ⟨cos angle, sin angle⟩

/-- `workspace.hann`. -/
def hannWindow (cos : Value → Value) (pi : Value) : List Value :=
  (List.range kFftSize).map fun index : Nat =>
    1 / 2 - 1 / 2 * cos (2 * pi * index * (1 / (kFftSize : Value)))

private theorem length_hannWindow (cos : Value → Value) (pi : Value) :
    (hannWindow cos pi).length = kFftSize := by
  rw [hannWindow, List.length_map, List.length_range]

variable [LinearOrder Value]

/-- `hz_to_mel`, with `kMinLogHz` and `kMinLogMel`. -/
def hzToMel (log : Value → Value) (frequency : Value) : Value :=
  if frequency < 1000 then frequency * (1 / kHzPerLinearMel)
  else 15 + log (frequency * (1 / 1000)) * (1 / kMelLogStep)

/-- `mel_to_hz`. -/
def melToHz (exp : Value → Value) (mel : Value) : Value :=
  if mel < 15 then mel * kHzPerLinearMel else 1000 * exp (kMelLogStep * (mel - 15))

/-- `make_mel_filters`; `kSampleRate` is 16000. -/
def makeMelFilters (log exp : Value → Value) (nMels : Nat) : List Value :=
  let kMaxMel := hzToMel log (16000 * (1 / 2))
  let invFrequencyIntervals : Value :=
    if nMels = 80 then 1 / 81 else if nMels = 128 then 1 / 129 else 1 / ((nMels + 1 : Nat) : Value)
  let frequencies (index : Nat) : Value := melToHz exp (kMaxMel * index * invFrequencyIntervals)
  (List.range nMels).flatMap fun mel =>
    let invMelSpan := 1 / (frequencies (mel + 2) - frequencies mel)
    let invLowerSpan := 1 / (frequencies (mel + 1) - frequencies mel)
    let invUpperSpan := 1 / (frequencies (mel + 2) - frequencies (mel + 1))
    let normalization := 2 * invMelSpan
    (List.range kFftBins).map fun bin =>
      let hz : Value := ((bin * 16000 : Nat) : Value) * (1 / (kFftSize : Value))
      let lower := (hz - frequencies mel) * invLowerSpan
      let upper := (frequencies (mel + 2) - hz) * invUpperSpan
      normalization * max 0 (min lower upper)

theorem length_makeMelFilters (log exp : Value → Value) (nMels : Nat) :
    (makeMelFilters log exp nMels).length = nMels * kFftBins := by
  simp [makeMelFilters, List.length_flatMap]

/-- The table holds the powers of its second entry. -/
theorem fftRoots_eq_pow (index : Nat) :
    fftRoots Real.cos Real.sin Real.pi index = fftRoots Real.cos Real.sin Real.pi 1 ^ index := by
  induction index with
  | zero =>
    rw [pow_zero, fftRoots, Nat.cast_zero, mul_zero, zero_mul, Real.cos_zero, Real.sin_zero]
    rfl
  | succ index inductionHypothesis =>
    obtain ⟨step, stepIs⟩ : ∃ step, -2 * Real.pi * (1 / (kFftSize : ℝ)) = step := ⟨_, rfl⟩
    have angles (count : Nat) : -2 * Real.pi * count * (1 / (kFftSize : ℝ)) = count * step := by
      rw [← stepIs]
      ring
    rw [pow_succ, ← inductionHypothesis]
    simp only [fftRoots, angles]
    ext
    · rw [QuadraticAlgebra.re_mul, Nat.cast_succ, add_mul, Nat.cast_one, Real.cos_add]
      ring
    · rw [QuadraticAlgebra.im_mul, Nat.cast_succ, add_mul, Nat.cast_one, Real.sin_add]
      ring

private theorem fftRoots_unity : fftRoots Real.cos Real.sin Real.pi 1 ^ kFftSize = 1 := by
  have whole : -2 * Real.pi * (kFftSize : ℝ) * (1 / (kFftSize : ℝ)) = -(2 * Real.pi) := by
    rw [kFftSize]
    ring
  rw [← fftRoots_eq_pow, fftRoots, whole, Real.cos_neg, Real.sin_neg, Real.cos_two_pi,
    Real.sin_two_pi, neg_zero]
  rfl

/-- The extractor of the code over the real numbers. -/
noncomputable def realExtractor (neon : Bool) : Extractor ℝ where
  neon := neon
  root := fftRoots Real.cos Real.sin Real.pi 1
  unity := fftRoots_unity
  hann := hannWindow Real.cos Real.pi
  hannSize := length_hannWindow _ _
  makeMelFilters := makeMelFilters Real.log Real.exp
  filtersSize := length_makeMelFilters _ _
  log10 := Real.logb (10 : Nat)

theorem log10_minimum (neon : Bool) :
    (realExtractor neon).log10 kMinimumMelEnergy = kInitialLogMel := by
  change Real.logb (10 : Nat) (1 / 10 ^ 10) = -10
  rw [Nat.cast_ofNat, one_div, Real.logb_inv, Real.logb_pow, Real.logb_self_eq_one (by norm_num),
    mul_one]
  norm_num

end LocalWhisper.CTranslate2
