import LocalWhisper.WhisperMel.SpectrogramRuns
import LocalWhisper.CTranslate2.SilentFrames

/-! The two engines see the same audio: for less than 30 seconds the spectrogram of
`whisper.cpp` begins with the features that CTranslate2 is given, if the file of its model
holds the filters that the feature extractor makes. -/

namespace LocalWhisper.WhisperMel

open CTranslate2 (Complex kFrames kChunkSamples kFftSize kFftBins kHopLength kFftHalfSize
  featureJob realExtractor reflectedSample reflectIndex kInitialLogMel)
open Machine

section Samples

variable {Value : Type} [Field Value]

private theorem getD_paddedOf_front (samples : List Value) {index : Nat} (front : index < 200) :
    (paddedOf samples).getD index 0 = samples.getD (200 - index) 0 := by
  rw [paddedOf, List.append_assoc, List.getD_eq_getElem?_getD, List.getElem?_append_left
    (by rw [List.length_map, List.length_range]; exact front),
    getElem?_tabulated _ front, Option.getD_some]

private theorem getD_paddedOf_inside (samples : List Value) {index : Nat}
    (inside : index < samples.length) :
    (paddedOf samples).getD (200 + index) 0 = samples.getD index 0 := by
  have length : ((List.range 200).map fun place => samples.getD (200 - place) 0).length = 200 := by
    rw [List.length_map, List.length_range]
  rw [paddedOf, List.append_assoc, List.getD_eq_getElem?_getD, List.getElem?_append_right
    (by rw [length]; omega), length, Nat.add_sub_cancel_left, List.getElem?_append_left inside,
    List.getD_eq_getElem?_getD]

variable {extractor : CTranslate2.Extractor Value} {samples : List Value} {nMels : Nat}

private theorem getD_audio_inside {index : Nat} (inside : index < samples.length)
    (room : index < kChunkSamples) :
    (featureJob extractor samples nMels).audio.getD index 0 = samples.getD index 0 := by
  rw [featureJob, List.getD_eq_getElem?_getD, List.getElem?_append_left
    (by rw [List.length_take]; exact lt_min room inside), List.getElem?_take_of_lt room,
    List.getD_eq_getElem?_getD]

private theorem sample_agrees (enough : 200 < samples.length) (most : samples.length ≤ 479800)
    {frame index : Nat} (below : frame < kFrames) (inside : index < kFftSize) :
    reflectedSample (featureJob extractor samples nMels).audio
      ((frame * kHopLength : Nat) - (kFftHalfSize : Int) + index) =
        (paddedOf samples).getD (frame * whisperHopLength + index) 0 := by
  obtain ⟨place, placeIs⟩ : ∃ place, frame * whisperHopLength + index = place := ⟨_, rfl⟩
  have start : ((frame * kHopLength : Nat) - (kFftHalfSize : Int) + index) =
      (place : Int) - 200 := by
    rw [← placeIs, kHopLength, kFftHalfSize, whisperHopLength]
    push_cast
    ring
  have last : place < 480240 := by
    unfold kFrames kFftSize at *
    unfold whisperHopLength at placeIs
    omega
  have room : kChunkSamples = 480000 := rfl
  rw [start, placeIs]
  by_cases behind : samples.length + 200 ≤ place
  · rw [getD_paddedOf_behind samples behind]
    apply CTranslate2.reflectedSample_silent
    · omega
    · omega
  · have read {source : Nat} (here : source < samples.length)
        (reflected : reflectIndex kChunkSamples ((place : Int) - 200) = source) :
        reflectedSample (featureJob extractor samples nMels).audio ((place : Int) - 200) =
          samples.getD source 0 := by
      unfold reflectedSample
      rw [CTranslate2.length_audio]
      dsimp only
      rw [if_neg (by decide), reflected, Int.toNat_natCast, getD_audio_inside here (by omega)]
    by_cases front : place < 200
    · rw [getD_paddedOf_front samples front]
      apply read (by omega)
      rw [reflectIndex, if_pos (by omega), if_pos (by omega),
        CTranslate2.reflectIndex_of_inside (by omega)]
      omega
    · obtain ⟨source, rfl⟩ := Nat.exists_eq_add_of_le (Nat.not_lt.mp front)
      rw [getD_paddedOf_inside samples (by omega)]
      apply read (by omega)
      rw [CTranslate2.reflectIndex_of_inside (by omega)]
      push_cast
      ring

end Samples

section Levels

/-- A model file whose filters are those of the feature extractor. -/
noncomputable def melFilters (nMels : Nat) : Filters ℝ where
  nMel := nMels
  nFft := kFftBins
  data := CTranslate2.makeMelFilters Real.log Real.exp nMels

theorem sized_melFilters {nThreads : Nat} (threads : nThreads ≠ 0) (samples : List ℝ)
    (nMels : Nat) :
    (callJob realCache (Real.logb (10 : Nat)) (melFilters nMels) nThreads samples).Sized realRoot :=
  sized_callJob turning_real length_realHann rfl
    (CTranslate2.length_makeMelFilters Real.log Real.exp nMels) threads _ samples

/-- What the threads of `whisper.cpp` read for these samples. -/
noncomputable def fileJob (samples : List ℝ) (nMels : Nat) : MelJob ℝ :=
  callJob realCache (Real.logb (10 : Nat)) (melFilters nMels) 1 samples

private theorem hann_agrees (neon : Bool) {index : Nat} (inside : index < kFftSize) :
    (realExtractor neon).hann.getD index 0 = realCache.hannWindow.getD index 0 := by
  change (CTranslate2.hannWindow Real.cos Real.pi).getD index 0 = _
  have fileEntry : realCache.hannWindow.getD index 0 =
      1 / (2 : Nat) * (1 - Real.cos ((2 : Nat) * Real.pi * index / whisperNFft)) :=
    getD_tabulated _ _ inside
  rw [CTranslate2.hannWindow, getD_tabulated _ _ inside, fileEntry, kFftSize,
    whisperNFft]
  push_cast
  ring_nf

variable {samples : List ℝ} {nMels : Nat}

private theorem framePower_agrees (neon : Bool) (enough : 200 < samples.length)
    (most : samples.length ≤ 479800) {frame : Nat} (below : frame < kFrames) {bin : Nat}
    (inside : bin < kFftBins) :
    (CTranslate2.framePower (realExtractor neon) (featureJob (realExtractor neon) samples nMels)
      frame).getD bin 0 = framePower (fileJob samples nMels) realRoot frame bin := by
  have spectra : CTranslate2.spectrum (realExtractor neon)
      (featureJob (realExtractor neon) samples nMels) frame bin =
        realDft realRoot (frameSample (fileJob samples nMels) frame) whisperNFft bin := by
    unfold CTranslate2.spectrum realDft Machine.dft
    apply Finset.sum_congr (show Finset.range kFftSize = Finset.range whisperNFft from rfl)
    intro index member
    have small := Finset.mem_range.mp member
    congr 1
    rw [CTranslate2.frameSample, CTranslate2.windowed, sample_agrees enough most below small]
    have window := hann_agrees neon small
    simp only [frameSample, fileJob, callJob, jobOf, featureJob, window, mul_comm]
  rw [CTranslate2.framePower, getD_tabulated _ _ inside, spectra, framePower]

theorem smallestEnergy_agrees : (smallestEnergy : ℝ) = CTranslate2.kMinimumMelEnergy := by
  rw [smallestEnergy, CTranslate2.kMinimumMelEnergy]
  norm_num

theorem level_agrees (neon : Bool) (enough : 200 < samples.length)
    (most : samples.length ≤ 479800) {frame : Nat} (below : frame < kFrames) (mel : Nat) :
    CTranslate2.logMel (realExtractor neon) (featureJob (realExtractor neon) samples nMels)
      (mel, frame) = melLevel (fileJob samples nMels) realRoot mel frame := by
  have energies : CTranslate2.scalarProduct
      ((featureJob (realExtractor neon) samples nMels).filters.drop (mel * kFftBins))
      (CTranslate2.framePower (realExtractor neon)
        (featureJob (realExtractor neon) samples nMels) frame) kFftBins =
          melEnergy (fileJob samples nMels) realRoot mel frame := by
    apply Finset.sum_congr rfl
    intro bin member
    rw [framePower_agrees neon enough most below (Finset.mem_range.mp member), mul_comm,
      List.getD_eq_getElem?_getD, List.getElem?_drop, ← List.getD_eq_getElem?_getD]
    rfl
  rw [CTranslate2.logMel, energies, melLevel, smallestEnergy_agrees]
  rfl

theorem level_behind (most : samples.length ≤ 479800) {frame : Nat} (behind : kFrames ≤ frame)
    (mel : Nat) : melLevel (fileJob samples nMels) realRoot mel frame = kInitialLogMel := by
  have sized : (fileJob samples nMels).Sized realRoot :=
    sized_melFilters Nat.one_ne_zero samples nMels
  have silent : (fileJob samples nMels).nSamples ≤ frame * whisperHopLength := by
    change samples.length + 200 ≤ frame * 160
    unfold kFrames at behind
    omega
  rw [melLevel_silent sized silent, smallestEnergy_agrees]
  exact CTranslate2.log10_minimum true

end Levels

section Spectrograms

variable {samples : List ℝ} {nMels : Nat}

theorem kFrames_lt_nLen (nMels : Nat) (enough : 200 < samples.length) :
    kFrames < (fileJob samples nMels).nLen := by
  change 3000 < ((paddedOf samples).length - 400) / 160
  rw [length_paddedOf, whisperSampleRate]
  omega

/-- The frames of zeros give `whisper.cpp` the level that the feature extractor starts
its maximum with. -/
theorem maximum_agrees (neon : Bool) (enough : 200 < samples.length)
    (most : samples.length ≤ 479800) (positive : nMels ≠ 0) {maximum : ℝ}
    (greatest : IsGreatest (CTranslate2.levels (realExtractor neon)
      (featureJob (realExtractor neon) samples nMels) kFrames) maximum) :
    IsGreatest {level | level ∈ -((10 ^ 20 : Nat) : ℝ) ::
      levelsOf (fileJob samples nMels) realRoot} maximum := by
  have frames := kFrames_lt_nLen nMels enough
  obtain ⟨member, upper⟩ := greatest
  have initial : kInitialLogMel ≤ maximum := upper (Set.mem_insert _ _)
  constructor
  · apply List.mem_cons_of_mem
    rw [mem_levelsOf]
    rcases member with same | ⟨⟨mel, frame⟩, ⟨below, inside⟩, rfl⟩
    · exact ⟨0, Nat.pos_of_ne_zero positive, kFrames, frames,
        same.trans (level_behind most le_rfl 0).symm⟩
    · exact ⟨mel, below, frame, inside.trans frames, level_agrees neon enough most inside mel⟩
  · rintro level (_ | ⟨_, listed⟩)
    · apply le_trans _ initial
      rw [kInitialLogMel]
      norm_num
    · obtain ⟨mel, below, frame, -, rfl⟩ := mem_levelsOf.mp listed
      by_cases inside : frame < kFrames
      · rw [← level_agrees neon enough most inside mel]
        exact upper (Set.mem_insert_of_mem _ ⟨(mel, frame), ⟨below, inside⟩, rfl⟩)
      · rw [level_behind most (Nat.not_lt.mp inside) mel]
        exact initial

private theorem clamped_agrees (maximum level : ℝ) : clamped (maximum - (8 : Nat)) level =
    CTranslate2.normalized (CTranslate2.floorOf maximum) level := by
  rw [clamped, CTranslate2.normalized, CTranslate2.floorOf, max_def_lt]
  push_cast
  ring

/-- For audio of more than 200 samples and at most 29.9875 seconds, however often the
workspace was used, however many threads there are on either side and in whichever order
they make their steps, both engines compute, and every feature of the one is the value of
the same cell of the other. -/
theorem engines_agree (enough : 200 < samples.length) (most : samples.length ≤ 479800)
    (positive : nMels ≠ 0) {neon : Bool} {workspace : CTranslate2.Workspace ℝ}
    (history : Reachable (CTranslate2.callStep (realExtractor neon)) {} workspace)
    (output : List ℝ) {parallelFor : CTranslate2.ParallelFor} {featureSchedule : List Nat}
    (featureOrder : CTranslate2.OrderOf nMels (parallelFor.ranges
      (CTranslate2.activeFrames (min samples.length kChunkSamples)) workspace.numThreads)
      featureSchedule)
    {nThreads : Nat} (threads : nThreads ≠ 0) {schedule : List Nat}
    (order : OrderOf (callJob realCache (Real.logb (10 : Nat)) (melFilters nMels) nThreads samples)
      schedule) (before : Mel ℝ) :
    ∃ features after mel,
      CTranslate2.makeWhisperFeatures (realExtractor neon) samples nMels output workspace
        parallelFor featureSchedule = some (.ok (features, after)) ∧
      logMelSpectrogram realCache (Real.logb (10 : Nat)) (melFilters nMels) nThreads samples before
        schedule = some mel ∧
      ∀ row < nMels, ∀ frame < kFrames, ∃ value,
        features[row * kFrames + frame]? = some value ∧
          mel.data[row * mel.nLen + frame]? = some value := by
  have log := CTranslate2.log10_minimum neon
  obtain ⟨someFrames, last⟩ :=
    CTranslate2.activeFrames_pos (min samples.length kChunkSamples)
  obtain ⟨maximum, after, greatest, made, -⟩ :=
    CTranslate2.makeFeatures_eq _ _ (CTranslate2.valid_of_reachable history) positive rfl
      someFrames last output featureOrder
  rw [← CTranslate2.levels_silent log] at greatest
  rw [← CTranslate2.features_silent log] at made
  have sized := sized_melFilters threads samples nMels
  have same := (maximum_agrees neon enough most positive greatest).unique
    (largestLevel_greatest (levelsOf (fileJob samples nMels) realRoot))
  refine ⟨_, after, _, made, logMelSpectrogram_of threads enough sized before order, ?_⟩
  intro row below frame inside
  have frames := kFrames_lt_nLen nMels enough
  refine ⟨_, getElem?_tabulated _ (cell_inside below inside), ?_⟩
  have cell : (levelsOf (fileJob samples nMels) realRoot)[
      row * (fileJob samples nMels).nLen + frame]? =
        some (melLevel (fileJob samples nMels) realRoot row frame) :=
    levelsOf_cell below (inside.trans frames)
  change ((levelsOf (fileJob samples nMels) realRoot).map (clamped
    (largestLevel (levelsOf (fileJob samples nMels) realRoot) - (8 : Nat))))[
      row * (fileJob samples nMels).nLen + frame]? = _
  rw [List.getElem?_map, cell, ← same, Option.map_some, clamped_agrees, cell_column inside,
    cell_row inside, if_pos inside, level_agrees neon enough most inside row]

/-- A fifth of a second in two threads, on a workspace that was made for three filters. -/
theorem engines_agree_short : ∃ used features after mel, used.customFilterMels = 3 ∧
    CTranslate2.makeWhisperFeatures (realExtractor true) (List.replicate 3200 1) 1 [7] used .pool
      (inTurn (CTranslate2.stepsOf 1 [(0, 11), (11, 22)]) 2).reverse =
        some (.ok (features, after)) ∧
    logMelSpectrogram realCache (Real.logb (10 : Nat)) (melFilters 1) 2 (List.replicate 3200 1)
      ⟨0, 0, 0, []⟩ (inTurn (fun ith => if ith < 2 then
        framesLeft (callJob realCache (Real.logb (10 : Nat)) (melFilters 1) 2
          (List.replicate 3200 1)) ith * (1 + 2) + 1 else 0) 2).reverse = some mel ∧
    ∃ value, features[(2999 : Nat)]? = some value ∧ mel.data[(2999 : Nat)]? = some value := by
  have frames : CTranslate2.activeFrames
      (min (List.replicate 3200 (1 : ℝ)).length kChunkSamples) = 22 := by
    rw [List.length_replicate]
    decide
  obtain ⟨used, history, two, three⟩ := CTranslate2.reachable_used
  have halves : CTranslate2.ParallelFor.pool.ranges 22 2 = [(0, 11), (11, 22)] := by decide
  obtain ⟨features, after, mel, made, heard, same⟩ := @engines_agree (List.replicate 3200 1) 1
    (by rw [List.length_replicate]; decide) (by rw [List.length_replicate]; decide) (by decide)
    true used history [7] .pool (inTurn (CTranslate2.stepsOf 1 [(0, 11), (11, 22)]) 2).reverse
    (by rw [frames, two, halves]; exact (CTranslate2.orderOf_inTurn 1 _).reverse) 2 (by decide) _
    (complete_inTurn fun worker others => if_neg (Nat.not_lt.mpr others)).reverse ⟨0, 0, 0, []⟩
  refine ⟨used, features, after, mel, three, made, heard, ?_⟩
  simpa only [Nat.zero_mul, Nat.zero_add] using same 0 Nat.one_pos 2999 (by decide)

end Spectrograms

end LocalWhisper.WhisperMel
