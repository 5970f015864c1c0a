import LocalWhisper.WhisperMel.Spectrogram

/-! The levels of the padded samples, and that a thread computes those of a frame whatever
earlier frames left in its arrays. -/

namespace LocalWhisper.WhisperMel

open CTranslate2 (Complex norm)
open Machine

section Levels

variable {Value : Type} [Field Value] (job : MelJob Value) (root : Complex Value)

def frameSample (frame index : Nat) : Value :=
  job.cache.hannWindow.getD index 0 * job.samples.getD (frame * whisperHopLength + index) 0

def framePower (frame k : Nat) : Value :=
  norm (realDft root (frameSample job frame) whisperNFft k)

def melEnergy (mel frame : Nat) : Value :=
  ∑ k ∈ Finset.range job.filters.nFft,
    framePower job root frame k * job.filters.data.getD (mel * job.filters.nFft + k) 0

/-- The level of one filter in one frame, for every frame in the same way. -/
def melLevel [LinearOrder Value] (mel frame : Nat) : Value :=
  job.log10 (max (melEnergy job root mel frame) smallestEnergy)

structure MelJob.Sized : Prop where
  turning : Turning job.cache root
  hann : job.cache.hannWindow.length = whisperNFft
  bins : job.filters.nFft = 1 + whisperNFft / 2
  filters : job.filters.data.length = job.filters.nMel * job.filters.nFft
  threads : 0 < job.nThreads
  inside : job.nSamples ≤ job.samples.length
  silent : ∀ index, job.nSamples ≤ index → job.samples.getD index 0 = 0

end Levels

section Frame

variable {Value : Type} [Field Value] {job : MelJob Value} {root : Complex Value}

/-- The frame is filled, whatever was in its array. -/
theorem fillFrame_eq (sized : job.Sized root) {frame : Nat}
    (inside : frame * whisperHopLength ≤ job.nSamples) (memory : Memory MelArea Value) :
    ∃ after, fillFrame job (frame * whisperHopLength) memory = some after ∧
      ∀ index < whisperNFft, after.get ⟨.fftIn, index⟩ = frameSample job frame index := by
  have samplesInside := sized.inside
  have cells (first second : Nat) (same : (⟨.fftIn, first⟩ : Pointer MelArea) = ⟨.fftIn, second⟩) :
      first = second := by cases same; rfl
  obtain ⟨rest, restIs⟩ : ∃ rest, job.nSamples - frame * whisperHopLength = rest := ⟨_, rfl⟩
  obtain ⟨middle, ran, filled, -⟩ := @forRange_sets MelArea Value _ (min whisperNFft rest)
    (fun j => ⟨.fftIn, j⟩) (frameSample job frame)
    (windowSample job (frame * whisperHopLength)) memory
    (fun first _ second _ => cells first second) (by
      intro j below now _
      have factor := getElem?_eq_getD
        (show j < job.cache.hannWindow.length by rw [sized.hann]; omega)
      have sample := getElem?_eq_getD
        (show frame * whisperHopLength + j < job.samples.length by omega)
      simp only [windowSample, factor, sample, bind, Option.bind_some]
      exact store_inside now _ (show j < whisperNFft * 2 by omega))
  obtain ⟨after, cleared, zeros, kept⟩ := @forRange_sets MelArea Value _
    (if rest < whisperNFft then MelArea.fftIn.room - rest else 0)
    (fun j => ⟨.fftIn, rest + j⟩) (fun _ => 0) (fun j memory => store memory ⟨.fftIn, rest + j⟩ 0)
    middle (fun first _ second _ same => Nat.add_left_cancel (cells _ _ same)) (by
      intro j below now _
      apply store_inside now
      change rest + j < MelArea.fftIn.room
      split at below <;> omega)
  refine ⟨after, ?_, ?_⟩
  · simp only [fillFrame, restIs, ran, bind, Option.bind_some, cleared]
  · intro index below
    by_cases given : index < rest
    · rw [kept]
      · exact filled index (by omega)
      · intro j _ same
        have := cells _ _ same
        omega
    · have zero := zeros (index - rest) (by
        have room : MelArea.fftIn.room = whisperNFft * 2 := rfl
        rw [if_pos (by omega)]
        omega)
      rw [Nat.add_sub_cancel' (Nat.le_of_not_lt given)] at zero
      rw [zero, frameSample, sized.silent _ (by omega), mul_zero]

theorem squareModuli_eq {values : Nat → Complex Value} {count : Nat} (room : 2 * count ≤ 800)
    {memory : Memory MelArea Value}
    (points : ∀ index < 2 * count, memory.get ⟨.fftOut, index⟩ = interleaved values index) :
    ∃ after, forRange count squareModulus memory = some after ∧
      ∀ j < count, after.get ⟨.fftOut, j⟩ = norm (values j) := by
  obtain ⟨after, ran, squares, -⟩ := @forRange_invariant _
    (fun passes (now : Memory MelArea Value) =>
      (∀ j < passes, now.get ⟨.fftOut, j⟩ = norm (values j)) ∧
      ∀ index, passes ≤ index → now.get ⟨.fftOut, index⟩ = memory.get ⟨.fftOut, index⟩)
    count squareModulus memory
    ⟨fun j below => absurd below (Nat.not_lt_zero j), fun index _ => rfl⟩ (by
      rintro j below now ⟨done, rest⟩
      have room : MelArea.fftOut.room = 3200 := rfl
      have point (index : Nat) (behind : j ≤ index) (small : index < 2 * count) :
          load now ⟨.fftOut, index⟩ = some (interleaved values index) := by
        rw [← points index small, ← rest index behind]
        exact load_inside now (show index < MelArea.fftOut.room by omega)
      have re : load now ⟨.fftOut, 2 * j⟩ = some (values j).re := by
        rw [point _ (by omega) (by omega), interleaved_re]
      have im : load now ⟨.fftOut, 2 * j + 1⟩ = some (values j).im := by
        rw [point _ (by omega) (by omega), interleaved_im]
      refine ⟨now.set ⟨.fftOut, j⟩ (norm (values j)), ?_, ?_, ?_⟩
      · simp only [squareModulus, re, im, bind, Option.bind_some]
        exact store_inside now _ (show j < MelArea.fftOut.room by omega)
      · intro earlier upTo
        rcases Nat.lt_succ_iff_lt_or_eq.mp upTo with old | rfl
        · rw [Memory.get_set_of_ne _ _ fun same => ?_]
          · exact done earlier old
          · cases same
            omega
        · exact Memory.get_set_self _ _ _
      · intro index behind
        rw [Memory.get_set_of_ne _ _ fun same => ?_]
        · exact rest index (by omega)
        · cases same
          omega)
  exact ⟨after, ran, squares⟩

/-- The array of the output starts with the powers of the frame. -/
def Powered (job : MelJob Value) (root : Complex Value) (frame : Nat)
    (memory : Memory MelArea Value) : Prop :=
  ∀ k < job.filters.nFft, memory.get ⟨.fftOut, k⟩ = framePower job root frame k

theorem transformFrame_eq (sized : job.Sized root) {frame : Nat}
    (inside : frame * whisperHopLength ≤ job.nSamples) (memory : Memory MelArea Value) :
    ∃ after, transformFrame job frame memory = some after ∧ Powered job root frame after := by
  have start (area : MelArea) (index : Nat) :
      (⟨area, 0⟩ : Pointer MelArea).advance index = ⟨area, index⟩ := by
    rw [Pointer.advance, Nat.zero_add]
  have call : FftCall ⟨.fftIn, 0⟩ whisperNFft ⟨.fftOut, 0⟩ :=
    ⟨rfl, rfl, by decide, by decide⟩
  obtain ⟨full, ranFill, filled⟩ := fillFrame_eq sized inside memory
  obtain ⟨transformed, ranFft, points, -⟩ :=
    transforms sized.turning (by decide) (Nat.dvd_refl _) call full
  have samples (k : Nat) : realDft (root ^ (whisperNFft / whisperNFft))
      (fun t => full.get ((⟨.fftIn, 0⟩ : Pointer MelArea).advance t)) whisperNFft k =
        realDft root (frameSample job frame) whisperNFft k := by
    rw [Nat.div_self (by decide), pow_one]
    exact realDft_congr k fun t below => by rw [start, filled t below]
  obtain ⟨after, ranSquares, squares⟩ := @squareModuli_eq Value _
    (realDft root (frameSample job frame) whisperNFft) job.filters.nFft
    (by rw [sized.bins]; decide) transformed (by
      intro index below
      have small : 2 * job.filters.nFft ≤ 2 * whisperNFft := by
        rw [sized.bins]
        decide
      have point := points index (Nat.lt_of_lt_of_le below small)
      rw [start] at point
      rw [point]
      congr 1
      funext k
      exact samples k)
  refine ⟨after, ?_, squares⟩
  simp only [transformFrame, ranFill, ranFft, bind, Option.bind_some]
  exact ranSquares

/-- Four products at once make the same sum. -/
theorem melSum_eq (sized : job.Sized root) {mel frame : Nat} (below : mel < job.filters.nMel)
    {memory : Memory MelArea Value} (powered : Powered job root frame memory) :
    melSum job memory mel = some (melEnergy job root mel frame) := by
  have product {k : Nat} (small : k < job.filters.nFft) :
      filtered job memory mel k = some (framePower job root frame k *
        job.filters.data.getD (mel * job.filters.nFft + k) 0) := by
    have room : k < MelArea.fftOut.room := by
      have bins := sized.bins
      change k < 3200
      change _ = 201 at bins
      omega
    have factor := getElem?_eq_getD
      (show mel * job.filters.nFft + k < job.filters.data.length by
        rw [sized.filters]
        calc mel * job.filters.nFft + k < mel * job.filters.nFft + job.filters.nFft :=
              Nat.add_lt_add_left small _
          _ = (mel + 1) * job.filters.nFft := (Nat.succ_mul _ _).symm
          _ ≤ job.filters.nMel * job.filters.nFft := Nat.mul_le_mul_right _ below)
    simp only [filtered, load_inside memory (show (⟨.fftOut, k⟩ : Pointer MelArea).offset < _ from
      room), factor, powered k small, bind, Option.bind_some, pure]
  apply vectorised_states true (by decide) fun count => ∑ k ∈ Finset.range count,
    framePower job root frame k * job.filters.data.getD (mel * job.filters.nFft + k) 0
  · intro k inside
    simp only [product (show k < _ by omega), product (show k + 1 < _ by omega),
      product (show k + 2 < _ by omega), product (show k + 3 < _ by omega), bind, Option.bind_some,
      pure, Finset.sum_range_succ]
    congr 1
    ring
  · intro k inside
    simp only [product (show k < _ by omega), bind, Option.bind_some, pure, Finset.sum_range_succ]

/-- Behind the samples every level is the smallest. -/
theorem melLevel_silent [LinearOrder Value] [IsStrictOrderedRing Value] (sized : job.Sized root)
    {frame : Nat} (behind : job.nSamples ≤ frame * whisperHopLength) (mel : Nat) :
    melLevel job root mel frame = job.log10 smallestEnergy := by
  have quiet (k : Nat) : framePower job root frame k = 0 := by
    have zero : realDft root (frameSample job frame) whisperNFft k = 0 := by
      unfold realDft Machine.dft
      apply Finset.sum_eq_zero
      intro t _
      have sample : frameSample job frame t = 0 := by
        rw [frameSample, sized.silent _ (by omega), mul_zero]
      simp only [sample]
      exact zero_mul _
    rw [framePower, zero, CTranslate2.norm, QuadraticAlgebra.re_zero, QuadraticAlgebra.im_zero,
      mul_zero, add_zero]
  have energy : melEnergy job root mel frame = 0 := by
    apply Finset.sum_eq_zero
    intro k _
    rw [quiet, zero_mul]
  have positive : (0 : Value) ≤ smallestEnergy := by
    unfold smallestEnergy
    positivity
  rw [melLevel, energy, max_eq_right positive]

end Frame

end LocalWhisper.WhisperMel
