import LocalWhisper.Machine.Interpolation
import Mathlib.Data.List.Destutter

/-! The table of processed and original times, and the times of the segments of the
result, which are read off it. -/

namespace LocalWhisper.WhisperVad

open LocalWhisper.Machine

/-- `vad_time_mapping`. -/
structure VadTimeMapping where
  processedTime : Int
  originalTime : Int
  deriving DecidableEq, Repr

/-- `std::unique` with equal processed times. -/
def uniqueTimes (table : List VadTimeMapping) : List VadTimeMapping :=
  table.destutter fun first second => first.processedTime ≠ second.processedTime

/-- `map_processed_to_original_time`; `std::lower_bound` is the place of the first entry
that does not come before. -/
def mapProcessedToOriginalTime (processedTime : Int) (table : List VadTimeMapping) : Int :=
  match table.head?, table.getLast? with
  | some front, some back =>
    if processedTime ≤ front.processedTime then front.originalTime
    else if back.processedTime ≤ processedTime then back.originalTime
    else
      let index := table.findIdx fun entry => processedTime ≤ entry.processedTime
      match table[index]?, table[index - 1]? with
      | some upper, some lower =>
        if upper.processedTime = processedTime then upper.originalTime
        else
          let processedDiff := upper.processedTime - lower.processedTime
          let originalDiff := upper.originalTime - lower.originalTime
          let offset := processedTime - lower.processedTime
          if processedDiff = 0 then lower.originalTime
          else lower.originalTime + (offset * originalDiff).tdiv processedDiff
      | _, _ => back.originalTime
  | _, _ => processedTime

/-- What `whisper_vad` leaves in the state. -/
structure WhisperState where
  hasVadSegments : Bool
  vadMappingTable : List VadTimeMapping
  deriving DecidableEq, Repr

def WhisperState.original (state : WhisperState) (time : Int) : Int :=
  if !state.hasVadSegments || state.vadMappingTable.isEmpty then time
  else mapProcessedToOriginalTime time state.vadMappingTable

/-- `whisper_full_get_segment_t0_from_state`, of a segment with its processed times. -/
def WhisperState.segmentT0 (state : WhisperState) (segment : Int × Int) : Int :=
  state.original segment.1

/-- `whisper_full_get_segment_t1_from_state`; mapped segments last at least ten
centiseconds. -/
def WhisperState.segmentT1 (state : WhisperState) (segment : Int × Int) : Int :=
  let originalT1 := state.original segment.2
  if !state.hasVadSegments || state.vadMappingTable.isEmpty then originalT1
  else
    let originalT0 := state.segmentT0 segment
    if originalT1 - originalT0 < 10 then originalT0 + 10 else originalT1

abbrev AscendingTimes (table : List VadTimeMapping) : Prop :=
  Ascending VadTimeMapping.processedTime VadTimeMapping.originalTime table

/-- The order in which `whisper_vad` writes a table. -/
abbrev RisingTimes (table : List VadTimeMapping) : Prop :=
  Rising VadTimeMapping.processedTime VadTimeMapping.originalTime table

/-- However `std::sort` places equal times, what `std::unique` leaves can be searched. -/
theorem RisingTimes.uniqueTimes {table sorted : List VadTimeMapping} (rising : RisingTimes table)
    (same : sorted.Perm table)
    (inOrder : sorted.Pairwise fun first second => first.processedTime ≤ second.processedTime) :
    AscendingTimes (uniqueTimes sorted) := Rising.ascending rising same inOrder

theorem mapProcessedToOriginalTime_reads {table : List VadTimeMapping}
    (ascending : AscendingTimes table) (entries : table ≠ []) (processedTime : Int) :
    Reads VadTimeMapping.processedTime VadTimeMapping.originalTime table processedTime
      (mapProcessedToOriginalTime processedTime table) := by
  obtain ⟨front, isFront⟩ : ∃ front, table.head? = some front := by
    cases table with
    | nil => exact absurd rfl entries
    | cons front rest => exact ⟨front, rfl⟩
  obtain ⟨back, isBack⟩ : ∃ back, table.getLast? = some back :=
    ⟨table.getLast entries, List.getLast?_eq_some_getLast entries⟩
  unfold mapProcessedToOriginalTime
  simp only [isFront, isBack]
  split
  · rename_i before
    exact .front isFront before
  · rename_i past
    split
    · rename_i after
      exact .back isBack after
    · rename_i inside
      obtain ⟨index, indexIs⟩ : ∃ index, index =
          table.findIdx fun entry => decide (processedTime ≤ entry.processedTime) := ⟨_, rfl⟩
      have found : index < table.length := by
        rw [indexIs]
        refine List.findIdx_lt_length_of_exists ⟨back, List.mem_of_getLast? isBack, ?_⟩
        rw [decide_eq_true_iff]
        omega
      obtain ⟨upper, atUpper⟩ : ∃ upper, table[index]? = some upper :=
        ⟨table[index], List.getElem?_eq_getElem found⟩
      have ahead : processedTime ≤ upper.processedTime := by
        have holds : decide (processedTime ≤ upper.processedTime) = true := by
          rw [indexIs] at atUpper
          exact List.findIdx_of_getElem?_eq_some
            (p := fun entry : VadTimeMapping => decide (processedTime ≤ entry.processedTime)) atUpper
        exact of_decide_eq_true holds
      have positive : index ≠ 0 := by
        intro first
        rw [first, ← List.head?_eq_getElem?, isFront] at atUpper
        obtain rfl := Option.some.inj atUpper
        omega
      obtain ⟨previous, previousIs⟩ : ∃ previous, index = previous + 1 := ⟨index - 1, by omega⟩
      obtain ⟨lower, atLower⟩ : ∃ lower, table[previous]? = some lower :=
        ⟨table[previous], List.getElem?_eq_getElem (by omega)⟩
      have behind : lower.processedTime < processedTime := by
        have notFound := List.not_of_lt_findIdx (show previous < table.findIdx fun entry =>
          decide (processedTime ≤ entry.processedTime) by omega)
        obtain ⟨_, isLower⟩ := List.getElem?_eq_some_iff.mp atLower
        rw [isLower] at notFound
        simpa using notFound
      rw [← indexIs, atUpper, show index - 1 = previous by omega, atLower]
      rw [previousIs] at atUpper
      have wide := ascending.getElem_lt (Nat.lt_succ_self previous) atLower atUpper
      have inside : Reads VadTimeMapping.processedTime VadTimeMapping.originalTime table
          processedTime _ := .inside atLower atUpper behind ahead
      simp only
      split
      · rename_i exactly
        rwa [← exactly, onLine_upper wide, exactly] at inside
      · rw [if_neg (by omega)]
        exact inside

section Segments

variable {state : WhisperState} {first second : Int × Int}

theorem WhisperState.original_mono (ascending : AscendingTimes state.vadMappingTable)
    {earlier later : Int} (ordered : earlier ≤ later) :
    state.original earlier ≤ state.original later := by
  unfold WhisperState.original
  split
  · exact ordered
  · rename_i mapped
    have entries : state.vadMappingTable ≠ [] := by
      rintro empty
      simp [empty] at mapped
    exact (mapProcessedToOriginalTime_reads ascending entries earlier).mono ascending
      (mapProcessedToOriginalTime_reads ascending entries later) ordered

theorem WhisperState.segmentT1_eq (state : WhisperState) (segment : Int × Int) :
    state.segmentT1 segment =
      if !state.hasVadSegments || state.vadMappingTable.isEmpty then state.original segment.2
      else max (state.original segment.2) (state.original segment.1 + 10) := by
  have start : state.segmentT0 segment = state.original segment.1 := rfl
  unfold WhisperState.segmentT1
  rw [start]
  simp only
  split
  · rfl
  · split <;> omega

/-- Segments that follow one another in the processed audio begin and end in that order
in the original, and none ends before it begins. -/
theorem WhisperState.segments_mono (ascending : AscendingTimes state.vadMappingTable)
    (forward : first.1 ≤ first.2) (starts : first.1 ≤ second.1) (ends : first.2 ≤ second.2) :
    state.segmentT0 first ≤ state.segmentT0 second ∧
      state.segmentT1 first ≤ state.segmentT1 second ∧
      state.segmentT0 first ≤ state.segmentT1 first := by
  have startOrder := state.original_mono ascending starts
  have endOrder := state.original_mono ascending ends
  have within := state.original_mono ascending forward
  rw [state.segmentT1_eq, state.segmentT1_eq]
  refine ⟨startOrder, ?_, ?_⟩
  · split
    · exact endOrder
    · omega
  · split
    · exact within
    · exact Int.le_trans (by omega : state.original first.1 ≤ state.original first.1 + 10)
        (Int.le_max_right _ _)

end Segments

end LocalWhisper.WhisperVad
