import LocalWhisper.CTranslate2.FeatureKernels
import LocalWhisper.Machine.Loop

/-! Reading outside an array by reflection: the loop ends, and the place that is read is
the one of a path that runs from end to end and back. -/

namespace LocalWhisper.CTranslate2

open Machine

/-- The place of `index` on a path that runs over the array and back again, with neither
end visited twice. -/
def mirror (size index : Int) : Int :=
  let place := index % (2 * (size - 1))
  if place < size then place else 2 * (size - 1) - place

section Mirror

variable {size : Int}

theorem mirror_of_inside {index : Int} (inside : 0 ≤ index ∧ index < size) :
    mirror size index = index := by
  unfold mirror
  by_cases single : size = 1
  · subst single
    obtain rfl : index = 0 := by omega
    decide
  · rw [Int.emod_eq_of_lt inside.1 (by omega)]
    exact if_pos inside.2

theorem mirror_inside (several : 2 ≤ size) (index : Int) :
    0 ≤ mirror size index ∧ mirror size index < size := by
  have lower := Int.emod_nonneg index (show 2 * (size - 1) ≠ 0 by omega)
  have upper := Int.emod_lt_of_pos index (show 0 < 2 * (size - 1) by omega)
  unfold mirror
  dsimp only
  split_ifs <;> omega

theorem mirror_add_period (index turns : Int) :
    mirror size (index + 2 * (size - 1) * turns) = mirror size index := by
  unfold mirror
  rw [Int.add_mul_emod_self_left]

theorem mirror_neg (several : 2 ≤ size) (index : Int) :
    mirror size (-index) = mirror size index := by
  have lower := Int.emod_nonneg index (show 2 * (size - 1) ≠ 0 by omega)
  have upper := Int.emod_lt_of_pos index (show 0 < 2 * (size - 1) by omega)
  have opposite : (-index) % (2 * (size - 1)) =
      if index % (2 * (size - 1)) = 0 then 0
      else 2 * (size - 1) - index % (2 * (size - 1)) := by
    rw [Int.neg_emod]
    split_ifs <;> omega
  unfold mirror
  dsimp only
  rw [opposite]
  split_ifs <;> omega

theorem mirror_last (several : 2 ≤ size) (distance : Int) :
    mirror size (size - 1 + distance) = mirror size (size - 1 - distance) := by
  have across : size - 1 + distance = -(size - 1 - distance) + 2 * (size - 1) * 1 := by omega
  rw [across, mirror_add_period, mirror_neg several]

end Mirror

/-- The condition of the loop of `reflected_sample`. -/
def outside (size index : Int) : Bool := decide (index < 0 ∨ index ≥ size)

/-- The body of the loop of `reflected_sample`. -/
def reflect (size index : Int) : Int := if index < 0 then -index else 2 * size - index - 2

/-- What gets smaller: the distance from zero, and at one distance the index below zero
comes first. -/
def reflectMeasure (index : Int) : Nat := 2 * index.natAbs + if index < 0 then 1 else 0

section Loop

variable {size : Int}

theorem outside_eq_false {index : Int} : outside size index = false ↔ 0 ≤ index ∧ index < size := by
  simp only [outside, decide_eq_false_iff_not]
  omega

/-- A round leaves the place and makes the measure smaller. With two samples the index
only comes two closer. -/
theorem reflect_step (several : 2 ≤ size) {index : Int} (out : outside size index = true) :
    mirror size (reflect size index) = mirror size index ∧
      reflectMeasure (reflect size index) < reflectMeasure index := by
  have far : index < 0 ∨ index ≥ size := of_decide_eq_true out
  unfold reflect
  split_ifs with below
  · refine ⟨mirror_neg several index, ?_⟩
    unfold reflectMeasure
    split_ifs <;> omega
  · have across : 2 * size - index - 2 = size - 1 + (size - 1 - index) := by omega
    refine ⟨?_, ?_⟩
    · rw [across, mirror_last several]
      congr 1
      omega
    · unfold reflectMeasure
      split_ifs <;> omega

private theorem whileLoop_reflect (several : 2 ≤ size) (index : Int) {rounds : Nat}
    (enough : reflectMeasure index ≤ rounds) :
    whileLoop (outside size) (reflect size) rounds index = some (mirror size index) := by
  obtain ⟨last, ended, same, left⟩ := whileLoop_ends
    (fun later => mirror size later = mirror size index) reflectMeasure
    (fun later same out =>
      ⟨(reflect_step several out).1.trans same, (reflect_step several out).2⟩) rfl enough
  rw [ended, ← same, mirror_of_inside (outside_eq_false.mp left)]

private theorem reflectIndex_eq_mirror (several : 2 ≤ size) (index : Int) :
    reflectIndex size index = mirror size index := by
  fun_induction reflectIndex size index with
  | case1 index out inductionHypothesis =>
    exact inductionHypothesis.trans (reflect_step several (decide_eq_true out.2)).1
  | case2 index inside => rw [mirror_of_inside (by omega)]

end Loop

variable {Value : Type} [Field Value]

theorem reflectedSample_eq_getElem? {audio : List Value} (several : 1 < audio.length)
    (index : Int) :
    audio[(mirror audio.length index).toNat]? = some (reflectedSample audio index) := by
  have inside := mirror_inside (show (2 : Int) ≤ audio.length by omega) index
  rw [reflectedSample, if_neg (by omega), reflectIndex_eq_mirror (by omega),
    getElem?_eq_getD (by omega)]

/-- Whatever the index, the loop ends, and what is read is the sample at its remainder by
the period or, beyond the end, at its mirror image; so the samples on both sides of an end
are the same. -/
theorem reflectedSample_reflects (audio : List Value) (several : 1 < audio.length) (index : Int) :
    (∃ rounds, ∀ more, rounds ≤ more →
      whileLoop (outside audio.length) (reflect audio.length) more index =
        some (mirror audio.length index)) ∧
      0 ≤ mirror audio.length index ∧ mirror audio.length index < audio.length ∧
      audio[(mirror audio.length index).toNat]? = some (reflectedSample audio index) ∧
      reflectedSample audio (-index) = reflectedSample audio index ∧
      reflectedSample audio (audio.length - 1 + index) =
        reflectedSample audio (audio.length - 1 - index) ∧
      ∀ turns, reflectedSample audio (index + 2 * (audio.length - 1) * turns) =
        reflectedSample audio index := by
  have two : (2 : Int) ≤ audio.length := by omega
  have read {first second : Int} (same : mirror audio.length first = mirror audio.length second) :
      reflectedSample audio first = reflectedSample audio second := by
    apply Option.some.inj
    rw [← reflectedSample_eq_getElem? several, same, reflectedSample_eq_getElem? several]
  refine ⟨⟨reflectMeasure index, fun more => whileLoop_reflect two index⟩,
    (mirror_inside two index).1, (mirror_inside two index).2,
    reflectedSample_eq_getElem? several index, read (mirror_neg two index),
    read (mirror_last two index), fun turns => read (mirror_add_period index turns)⟩

/-- Two samples: an index far outside reads one of them. -/
theorem reflectedSample_reflects_two :
    1 < [(3 : ℚ), 5].length ∧ reflectedSample [(3 : ℚ), 5] (-7) = 5 := by
  refine ⟨by decide, ?_⟩
  have found := (reflectedSample_reflects [(3 : ℚ), 5] (by decide) (-7)).2.2.2.1
  exact (Option.some.inj found).symm

end LocalWhisper.CTranslate2
