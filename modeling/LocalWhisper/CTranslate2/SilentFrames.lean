import LocalWhisper.CTranslate2.FeatureRuns
import Mathlib.Algebra.Order.Ring.Defs
import Mathlib.Tactic.Positivity

/-! The frames behind the samples: the code leaves them out, and their values are those
the output is filled with. -/

namespace LocalWhisper.CTranslate2

open Machine

variable {Value : Type} [Field Value] {extractor : Extractor Value} {samples : List Value}
variable {nMels : Nat}

theorem length_audio (extractor : Extractor Value) (samples : List Value) (nMels : Nat) :
    (featureJob extractor samples nMels).audio.length = kChunkSamples := by
  rw [featureJob, List.length_append, List.length_take, List.length_drop, List.length_replicate]
  omega

private theorem getD_audio {position : Nat} (behind : min samples.length kChunkSamples ≤ position) :
    (featureJob extractor samples nMels).audio.getD position 0 = 0 := by
  rw [featureJob, List.getD_eq_getElem?_getD, List.getElem?_append_right
    (by rw [List.length_take, Nat.min_comm]; exact behind), List.drop_replicate,
    List.getElem?_replicate]
  split <;> rfl

theorem frame_behind {copiedSamples frame : Nat} (silent : activeFrames copiedSamples ≤ frame)
    (below : frame < kFrames) : copiedSamples + kFftHalfSize ≤ frame * kHopLength := by
  unfold activeFrames kFrames kFftHalfSize kHopLength at *
  omega

/-- Behind the samples an index reads silence, also where it is reflected. -/
theorem reflectedSample_silent {index : Int}
    (behind : (min samples.length kChunkSamples : Nat) ≤ index)
    (near : (min samples.length kChunkSamples : Nat) + index + 2 ≤ 2 * (kChunkSamples : Int)) :
    reflectedSample (featureJob extractor samples nMels).audio index = 0 := by
  unfold reflectedSample
  rw [length_audio]
  dsimp only
  rw [if_neg (by decide)]
  apply getD_audio
  by_cases inside : index < kChunkSamples
  · rw [reflectIndex_of_inside (by omega)]
    omega
  · unfold kChunkSamples at *
    rw [reflectIndex, if_pos (by omega), if_neg (by omega), reflectIndex_of_inside (by omega)]
    omega

theorem frame_silent {frame index : Nat}
    (silent : activeFrames (min samples.length kChunkSamples) ≤ frame) (below : frame < kFrames)
    (inside : index < kFftSize) : reflectedSample (featureJob extractor samples nMels).audio
      ((frame * kHopLength : Nat) - (kFftHalfSize : Int) + index) = 0 := by
  have behind := frame_behind silent below
  unfold kFrames kFftSize at *
  apply reflectedSample_silent
  · omega
  · unfold kFftHalfSize kHopLength kChunkSamples at *
    omega

private theorem framePower_silent {frame : Nat}
    (silent : activeFrames (min samples.length kChunkSamples) ≤ frame) (below : frame < kFrames) :
    framePower extractor (featureJob extractor samples nMels) frame =
      List.replicate kFftBins 0 := by
  have zeros (bin : Nat) :
      spectrum extractor (featureJob extractor samples nMels) frame bin = 0 := by
    apply Finset.sum_eq_zero
    intro index inside
    have sample : frameSample (featureJob extractor samples nMels) frame index = 0 := by
      rw [frameSample, windowed, frame_silent silent below (Finset.mem_range.mp inside), zero_mul]
      rfl
    rw [sample, zero_mul]
  have powers : norm (0 : Complex Value) = 0 := by
    simp [norm]
  simp only [framePower, zeros, powers, List.map_const', List.length_range]

private theorem scalarProduct_zeros (left : List Value) (count size : Nat) :
    scalarProduct left (List.replicate size 0) count = 0 := by
  apply Finset.sum_eq_zero
  intro index _
  have zero : (List.replicate size (0 : Value)).getD index 0 = 0 := by
    rw [List.getD_eq_getElem?_getD, List.getElem?_replicate]
    split <;> rfl
  rw [zero, mul_zero]

variable [LinearOrder Value] [IsStrictOrderedRing Value]

theorem logMel_silent (log : extractor.log10 kMinimumMelEnergy = kInitialLogMel) {frame : Nat}
    (silent : activeFrames (min samples.length kChunkSamples) ≤ frame) (below : frame < kFrames)
    (mel : Nat) : logMel extractor (featureJob extractor samples nMels) (mel, frame) =
      kInitialLogMel := by
  have positive : (0 : Value) ≤ kMinimumMelEnergy := by
    unfold kMinimumMelEnergy
    positivity
  rw [logMel, framePower_silent silent below, scalarProduct_zeros, max_eq_right positive, log]

/-- The frames that are left out change neither the maximum nor the features. -/
theorem levels_silent (log : extractor.log10 kMinimumMelEnergy = kInitialLogMel) :
    levels extractor (featureJob extractor samples nMels) kFrames =
      levels extractor (featureJob extractor samples nMels)
        (activeFrames (min samples.length kChunkSamples)) := by
  apply Set.Subset.antisymm
  · rintro level (rfl | ⟨⟨mel, frame⟩, ⟨inside, below⟩, rfl⟩)
    · exact Set.mem_insert _ _
    · by_cases active : frame < activeFrames (min samples.length kChunkSamples)
      · exact Set.mem_insert_of_mem _ ⟨(mel, frame), ⟨inside, active⟩, rfl⟩
      · rw [logMel_silent log (Nat.le_of_not_lt active) below]
        exact Set.mem_insert _ _
  · apply Set.insert_subset_insert (Set.image_mono _)
    rintro cell ⟨inside, active⟩
    exact ⟨inside, Nat.lt_of_lt_of_le active (activeFrames_pos _).2⟩

theorem features_silent (log : extractor.log10 kMinimumMelEnergy = kInitialLogMel)
    (maximum : Value) :
    features extractor (featureJob extractor samples nMels) kFrames maximum =
      features extractor (featureJob extractor samples nMels)
        (activeFrames (min samples.length kChunkSamples)) maximum := by
  apply List.map_congr_left
  intro index _
  have below : index % kFrames < kFrames := Nat.mod_lt _ (by decide)
  congr 1
  rw [if_pos below]
  split
  · rfl
  · next silent => exact logMel_silent log (Nat.le_of_not_lt silent) below _

/-- Leaving out the frames behind the samples is exact: they read only zeros, their
values are the initial one, the maximum is the same without them, and the call gives
what it gives with all frames. -/
theorem makeWhisperFeatures_silent (log : extractor.log10 kMinimumMelEnergy = kInitialLogMel)
    {workspace : Workspace Value} (history : Reachable (callStep extractor) {} workspace)
    (samples : List Value) (nMels : Nat) (positive : 0 < nMels) (output : List Value)
    (parallelFor fullFor : ParallelFor) (schedule fullSchedule : List Nat)
    (order : OrderOf nMels (parallelFor.ranges
      (activeFrames (min samples.length kChunkSamples)) workspace.numThreads) schedule)
    (fullOrder : OrderOf nMels (fullFor.ranges kFrames workspace.numThreads) fullSchedule) :
    (∀ prepared, prepareWhisperFeatureWorkspace extractor nMels workspace 0 = .ok prepared →
      (∀ frame, activeFrames (min samples.length kChunkSamples) ≤ frame → frame < kFrames →
        (∀ index < kFftSize, reflectedSample (jobOf extractor samples nMels prepared).audio
          ((frame * kHopLength : Nat) - (kFftHalfSize : Int) + index) = 0) ∧
        ∀ mel < nMels, logMel extractor (jobOf extractor samples nMels prepared) (mel, frame) =
          kInitialLogMel) ∧
      ∀ maximum,
        IsGreatest (levels extractor (jobOf extractor samples nMels prepared) kFrames) maximum ↔
          IsGreatest (levels extractor (jobOf extractor samples nMels prepared)
            (activeFrames (min samples.length kChunkSamples))) maximum) ∧
    ∃ features after fullAfter,
      makeWhisperFeatures extractor samples nMels output workspace parallelFor schedule =
        some (.ok (features, after)) ∧
      makeFeatures (fun _ => kFrames) extractor samples nMels output workspace fullFor
        fullSchedule = some (.ok (features, fullAfter)) := by
  have valid := valid_of_reachable history
  obtain ⟨someFrames, most⟩ := activeFrames_pos (min samples.length kChunkSamples)
  constructor
  · intro prepared ran
    obtain ⟨same, prepares, -, ready, -⟩ := valid.prepare positive.ne' 0
    rw [ran] at prepares
    cases prepares
    rw [ready.jobOf_eq]
    refine ⟨fun frame silent below => ⟨fun index inside => frame_silent silent below inside,
      fun mel _ => logMel_silent log silent below mel⟩, fun maximum => ?_⟩
    rw [levels_silent log]
  · obtain ⟨maximum, after, greatest, made, -⟩ :=
      makeFeatures_eq _ _ valid positive.ne' rfl someFrames most output order
    obtain ⟨fullMaximum, fullAfter, fullGreatest, fullMade, -⟩ :=
      makeFeatures_eq (fun _ => kFrames) samples valid positive.ne' rfl (by decide) le_rfl output
        fullOrder
    rw [levels_silent log] at fullGreatest
    obtain rfl := greatest.unique fullGreatest
    rw [features_silent log] at fullMade
    exact ⟨_, after, fullAfter, made, fullMade⟩

/-- A hundred samples make two frames active. -/
theorem makeWhisperFeatures_silent_short : ∃ features after fullAfter,
    makeWhisperFeatures (realExtractor true) (List.replicate 100 1) 1 [] {} .openMp
      (inTurn (stepsOf 1 [(0, 2)]) 1) = some (.ok (features, after)) ∧
    makeFeatures (fun _ => kFrames) (realExtractor true) (List.replicate 100 1) 1 [] {} .pool
      (inTurn (stepsOf 1 [(0, 3000)]) 1) = some (.ok (features, fullAfter)) := by
  have frames : activeFrames (min (List.replicate 100 (1 : ℝ)).length kChunkSamples) = 2 := by
    rw [List.length_replicate]
    decide
  have few : ParallelFor.openMp.ranges 2 1 = [(0, 2)] := by decide
  have all : ParallelFor.pool.ranges kFrames 1 = [(0, 3000)] := by decide
  exact (makeWhisperFeatures_silent (log10_minimum true) .start (List.replicate 100 1) 1
    Nat.one_pos [] .openMp .pool _ _ (by rw [frames, few]; exact orderOf_inTurn 1 _)
    (by rw [all]; exact orderOf_inTurn 1 _)).2

end LocalWhisper.CTranslate2
