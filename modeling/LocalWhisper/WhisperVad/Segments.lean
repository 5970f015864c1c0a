import LocalWhisper.WhisperVad.Times
import LocalWhisper.WhisperVad.Runs

/-! `whisper_vad_segments_from_probs` after its loop: merging, the minimum duration,
padding and the conversion to centiseconds. -/

namespace LocalWhisper.WhisperVad

open LocalWhisper.Machine

/-- `max_merge_gap_samples`: 200 ms. -/
def maxMergeGapSamples : Int := (sampleRate * 200).tdiv 1000

/-- Merge adjacent segments with small gaps in between. -/
def mergeAdjacent : List Interval → List Interval
  | [] => []
  | first :: rest => Interval.mergeClose maxMergeGapSamples first rest

/-- Double-check for minimum speech duration. -/
def dropShort (limits : Limits) (speeches : List Interval) : List Interval :=
  speeches.filter fun segment => ¬ segment.finish - segment.start < limits.minSpeechSamples

def padStart (speechPadSamples : Int) (segment : Interval) : Interval :=
  { segment with
    start := if speechPadSamples < segment.start then segment.start - speechPadSamples else 0 }

def padEnd (speechPadSamples audioLengthSamples : Int) (segment : Interval) : Interval :=
  { segment with
    finish :=
      if int (segment.finish + speechPadSamples) < audioLengthSamples then
        int (segment.finish + speechPadSamples)
      else audioLengthSamples }

@[simp] theorem padStart_start (pad : Int) (segment : Interval) :
    (padStart pad segment).start = max 0 (segment.start - pad) := by
  unfold padStart
  dsimp only
  split <;> omega

@[simp] theorem padStart_finish (pad : Int) (segment : Interval) :
    (padStart pad segment).finish = segment.finish := rfl

@[simp] theorem padEnd_start (pad audio : Int) (segment : Interval) :
    (padEnd pad audio segment).start = segment.start := rfl

theorem padEnd_finish {pad audio : Int} {segment : Interval} (forward : 0 ≤ segment.finish + pad)
    (room : segment.finish + pad < 2 ^ 31) :
    (padEnd pad audio segment).finish = min audio (segment.finish + pad) := by
  unfold padEnd
  dsimp only
  rw [int_eq (by omega) room]
  split <;> omega

/-- Handle spacing between segments: segments that are close split the difference. -/
def padBetween (speechPadSamples audioLengthSamples : Int) : Interval → List Interval → List Interval
  | segment, [] => [padEnd speechPadSamples audioLengthSamples segment]
  | segment, next :: rest =>
    let silenceDuration := next.start - segment.finish
    if silenceDuration < 2 * speechPadSamples then
      { segment with finish := segment.finish + silenceDuration.tdiv 2 } ::
        padBetween speechPadSamples audioLengthSamples (padStart (silenceDuration.tdiv 2) next) rest
    else
      padEnd speechPadSamples audioLengthSamples segment ::
        padBetween speechPadSamples audioLengthSamples (padStart speechPadSamples next) rest

def applyPadding (speechPadSamples audioLengthSamples : Int) : List Interval → List Interval
  | [] => []
  | first :: rest =>
    padBetween speechPadSamples audioLengthSamples (padStart speechPadSamples first) rest

/-- The segments in samples, before the conversion. -/
def segmentSamples (limits : Limits) (frames : List Frame) : List Interval :=
  applyPadding limits.speechPadSamples (frames.length * limits.nWindow)
    (dropShort limits (mergeAdjacent (speeches limits frames)))

/-- A segment in centiseconds: `whisper_vad_segment`. -/
def toCs (segment : Interval) : Interval :=
  ⟨samplesToCs segment.start, samplesToCs segment.finish⟩

/-- `whisper_vad_segments_from_probs`. -/
def whisperVadSegmentsFromProbs (nWindow : Nat) (params : VadParams) (probs : List (Option Rat)) :
    List Interval :=
  (segmentSamples (params.limits nWindow) (probs.map params.frame)).map toCs

section Order

variable {pad audio lower gap : Int} {segment : Interval} {rest segments : List Interval}

theorem padBetween_ordered (padded : 0 ≤ pad) (room : audio + pad < 2 ^ 31) (apart : 0 ≤ gap)
    (positive : 0 ≤ lower) (ordered : Interval.Ordered gap audio lower (segment :: rest)) :
    Interval.Ordered 0 audio lower (padBetween pad audio segment rest) := by
  induction rest generalizing segment lower with
  | nil =>
    obtain ⟨after, forward, inside, -⟩ := ordered
    have finish := @padEnd_finish pad audio segment (by omega) (by omega)
    refine ⟨after, ?_, ?_, trivial⟩ <;> simp only [padEnd_start, finish] <;> omega
  | cons next rest ih =>
    obtain ⟨after, forward, inside, nextAfter, nextForward, nextInside, later⟩ := ordered
    simp only [padBetween]
    obtain ⟨half, halfIs⟩ : ∃ half, half = (next.start - segment.finish).tdiv 2 := ⟨_, rfl⟩
    have halves : 0 ≤ half ∧ 2 * half ≤ next.start - segment.finish := by
      rw [halfIs, Int.tdiv_eq_ediv_of_nonneg (by omega)]
      omega
    rw [← halfIs]
    split
    · refine ⟨after, by simp only; omega, by simp only; omega, ?_⟩
      refine ih ?_ ⟨?_, ?_, nextInside, later⟩ <;> simp only [padStart_start, padStart_finish] <;>
        omega
    · have finish := @padEnd_finish pad audio segment (by omega) (by omega)
      refine ⟨after, ?_, ?_, ?_⟩
      · simp only [padEnd_start, finish]
        omega
      · simp only [finish]
        omega
      · refine ih ?_ ⟨?_, ?_, nextInside, later⟩ <;>
          simp only [finish, padStart_start, padStart_finish] <;> omega

theorem mergeAdjacent_ordered (ordered : Interval.Ordered 0 audio lower segments) :
    Interval.Ordered maxMergeGapSamples audio lower (mergeAdjacent segments) := by
  cases segments with
  | nil => trivial
  | cons first rest => exact Interval.mergeClose_ordered ordered

theorem applyPadding_ordered (padded : 0 ≤ pad) (room : audio + pad < 2 ^ 31) (apart : 0 ≤ gap)
    (ordered : Interval.Ordered gap audio 0 segments) :
    Interval.Ordered 0 audio 0 (applyPadding pad audio segments) := by
  cases segments with
  | nil => trivial
  | cons first rest =>
    obtain ⟨after, forward, inside, later⟩ := ordered
    refine padBetween_ordered padded room apart (Int.le_refl 0) ⟨?_, ?_, inside, later⟩ <;>
      simp only [padStart_start, padStart_finish] <;> omega

theorem segmentSamples_ordered {limits : Limits} {frames : List Frame}
    (window : 0 ≤ limits.nWindow) (padded : 0 ≤ limits.speechPadSamples)
    (room : frames.length * limits.nWindow + limits.speechPadSamples < 2 ^ 31) :
    Interval.Ordered 0 (frames.length * limits.nWindow) 0 (segmentSamples limits frames) := by
  have apart : 0 ≤ maxMergeGapSamples := by decide
  refine applyPadding_ordered padded room apart ?_
  exact (mergeAdjacent_ordered (speeches_ordered window frames)).sublist apart
    List.filter_sublist

end Order

private theorem length_padBetween (pad audio : Int) (segment : Interval) (rest : List Interval) :
    (padBetween pad audio segment rest).length = rest.length + 1 := by
  induction rest generalizing segment with
  | nil => rfl
  | cons next rest ih =>
    simp only [padBetween]
    split <;> rw [List.length_cons, ih, List.length_cons]

private theorem length_applyPadding (pad audio : Int) (segments : List Interval) :
    (applyPadding pad audio segments).length = segments.length := by
  cases segments with
  | nil => rfl
  | cons first rest => exact length_padBetween ..

/-- After merging, 200 ms lie between two segments, so there are not many. -/
theorem length_whisperVadSegmentsFromProbs_le {nWindow : Nat} (params : VadParams)
    (probs : List (Option Rat)) :
    (((whisperVadSegmentsFromProbs nWindow params probs).length - 1 : Nat) : Int) * 3200 ≤
      probs.length * nWindow := by
  have window : 0 ≤ (params.limits nWindow).nWindow := Int.natCast_nonneg nWindow
  have merged := mergeAdjacent_ordered (speeches_ordered window (probs.map params.frame))
  have apart : 0 ≤ maxMergeGapSamples := by decide
  have bound := (merged.sublist apart (List.filter_sublist (p := fun segment =>
    ¬ segment.finish - segment.start < (params.limits nWindow).minSpeechSamples))).length_le apart
  have positive : (0 : Int) ≤ probs.length * nWindow :=
    Int.mul_nonneg (Int.natCast_nonneg _) (Int.natCast_nonneg _)
  rw [List.length_map, VadParams.limits_nWindow, Int.sub_zero, Int.max_eq_right positive] at bound
  rw [whisperVadSegmentsFromProbs, List.length_map, segmentSamples, length_applyPadding]
  exact bound

theorem samplesOf_eq {durationMs : Int} (nonneg : 0 ≤ durationMs) (short : durationMs ≤ 134217) :
    samplesOf durationMs = 16 * durationMs := by
  unfold samplesOf sampleRate
  rw [int_eq (by omega) (by omega), Int.tdiv_eq_ediv_of_nonneg (by omega)]
  omega

/-- Whatever the probabilities and the limits are, the segments follow one another and lie
inside the audio, also in centiseconds. -/
theorem whisperVadSegmentsFromProbs_ordered {nWindow : Nat} {params : VadParams}
    {probs : List (Option Rat)} (padded : 0 ≤ params.speechPadMs)
    (short : params.speechPadMs ≤ 134217) (small : (probs.length : Int) * nWindow ≤ 2 ^ 30) :
    Interval.Ordered 0 (samplesToCs (probs.length * nWindow)) 0
      (whisperVadSegmentsFromProbs nWindow params probs) := by
  have pad : (params.limits nWindow).speechPadSamples = 16 * params.speechPadMs :=
    samplesOf_eq padded short
  have ordered : Interval.Ordered 0 _ 0
      (segmentSamples (params.limits nWindow) (probs.map params.frame)) :=
    segmentSamples_ordered (Int.natCast_nonneg nWindow) (by omega)
      (by rw [List.length_map, VadParams.limits_nWindow]; omega)
  rw [List.length_map] at ordered
  have mapped := ordered.map (fun first second above ordered _ => samplesToCs_mono above ordered)
    (Int.le_refl 0)
  rw [samplesToCs_zero] at mapped
  exact mapped

/-- The segments lie in the audio, and none reaches into a later one, as long as the sums
and products of the padding fit an `int`. -/
theorem whisperVadSegmentsFromProbs_disjoint {nWindow : Nat} {params : VadParams}
    {probs : List (Option Rat)} (padded : 0 ≤ params.speechPadMs)
    (short : params.speechPadMs ≤ 134217) (small : (probs.length : Int) * nWindow ≤ 2 ^ 30) :
    (∀ segment ∈ whisperVadSegmentsFromProbs nWindow params probs,
      0 ≤ segment.start ∧ segment.start ≤ segment.finish ∧
        segment.finish ≤ samplesToCs (probs.length * nWindow)) ∧
      (whisperVadSegmentsFromProbs nWindow params probs).Pairwise
        fun earlier later => earlier.finish ≤ later.start := by
  have ordered := whisperVadSegmentsFromProbs_ordered padded short small
  refine ⟨fun segment member => ordered.mem (Int.le_refl 0) member, ?_⟩
  exact (ordered.pairwise (Int.le_refl 0)).imp fun before => by omega

/-- Speech, a pause of half a second, a frame that is not a number, and quieter speech. -/
def speechPauseSpeech : List (Option Rat) :=
  List.replicate 10 (some 1) ++ List.replicate 15 (some 0) ++ [none] ++
    List.replicate 10 (some (3 / 4))

theorem whisperVadSegmentsFromProbs_disjoint_pause :
    whisperVadSegmentsFromProbs 512 vadDefaultParams speechPauseSpeech = [⟨0, 35⟩, ⟨80, 115⟩] ∧
      (whisperVadSegmentsFromProbs 512 vadDefaultParams speechPauseSpeech).Pairwise
        fun earlier later => earlier.finish ≤ later.start :=
  ⟨by decide +kernel,
    (whisperVadSegmentsFromProbs_disjoint (by decide) (by decide) (by decide)).2⟩

section Margin

variable {pad audio gap lower margin : Int} {segment padded : Interval}
  {rest segments : List Interval}

private theorem padBetween_margin (nonneg : 0 ≤ margin) (padding : margin ≤ pad)
    (room : audio + pad < 2 ^ 31) (wide : 2 * margin ≤ gap) (positive : 0 ≤ lower)
    (ordered : Interval.Ordered gap audio lower (segment :: rest))
    (member : padded ∈ padBetween pad audio segment rest) :
    (padded.start = segment.start ∧ segment.finish ≤ padded.finish) ∨
      ∃ original ∈ rest, padded.start ≤ max 0 (original.start - margin) ∧
        original.finish ≤ padded.finish := by
  induction rest generalizing segment lower with
  | nil =>
    obtain ⟨after, forward, inside, -⟩ := ordered
    obtain rfl := List.mem_singleton.mp member
    exact .inl ⟨rfl, by rw [padEnd_finish (by omega) (by omega)]; omega⟩
  | cons next rest ih =>
    obtain ⟨after, forward, inside, nextAfter, nextForward, nextInside, later⟩ := ordered
    simp only [padBetween] at member
    obtain ⟨half, halfIs⟩ : ∃ half, half = (next.start - segment.finish).tdiv 2 := ⟨_, rfl⟩
    have halves : margin ≤ half ∧ 2 * half ≤ next.start - segment.finish := by
      rw [halfIs, Int.tdiv_eq_ediv_of_nonneg (by omega)]
      omega
    rw [← halfIs] at member
    -- What `padBetween` makes of the rest, with the padding that the next segment has got.
    have further {moved : Int} (least : margin ≤ moved)
        (member : padded ∈ padBetween pad audio (padStart moved next) rest) :
        ∃ original ∈ next :: rest, padded.start ≤ max 0 (original.start - margin) ∧
          original.finish ≤ padded.finish := by
      have shifted : Interval.Ordered gap audio 0 (padStart moved next :: rest) := by
        refine ⟨?_, ?_, nextInside, later⟩ <;> simp only [padStart_start, padStart_finish] <;> omega
      rcases ih (Int.le_refl 0) shifted member with ⟨start, finish⟩ | ⟨original, isOne, bounds⟩
      · refine ⟨next, List.mem_cons_self, ?_, finish⟩
        rw [start, padStart_start]
        omega
      · exact ⟨original, List.mem_cons_of_mem _ isOne, bounds⟩
    split at member
    · rcases List.mem_cons.mp member with rfl | later
      · exact .inl ⟨rfl, by simp only; omega⟩
      · exact .inr (further halves.1 later)
    · rcases List.mem_cons.mp member with rfl | later
      · exact .inl ⟨rfl, by rw [padEnd_finish (by omega) (by omega)]; omega⟩
      · exact .inr (further padding later)

private theorem applyPadding_margin (nonneg : 0 ≤ margin) (padding : margin ≤ pad)
    (room : audio + pad < 2 ^ 31) (wide : 2 * margin ≤ gap)
    (ordered : Interval.Ordered gap audio 0 segments)
    (member : padded ∈ applyPadding pad audio segments) :
    ∃ original ∈ segments, padded.start ≤ max 0 (original.start - margin) ∧
      original.finish ≤ padded.finish := by
  cases segments with
  | nil => cases member
  | cons first rest =>
    obtain ⟨after, forward, inside, later⟩ := ordered
    have moved : Interval.Ordered gap audio 0 (padStart pad first :: rest) := by
      refine ⟨?_, ?_, inside, later⟩ <;> simp only [padStart_start, padStart_finish] <;> omega
    rcases padBetween_margin nonneg padding room wide (Int.le_refl 0) moved member with
      ⟨start, finish⟩ | ⟨original, isOne, bounds⟩
    · refine ⟨first, List.mem_cons_self, ?_, finish⟩
      rw [start, padStart_start]
      omega
    · exact ⟨original, List.mem_cons_of_mem _ isOne, bounds⟩

/-- Every segment begins 80 samples before the last frame, or with the audio, and is not
shorter than the minimum. -/
theorem segmentSamples_margin {limits : Limits} (window : 0 ≤ limits.nWindow)
    (padding : 80 ≤ limits.speechPadSamples) {frames : List Frame} {segment : Interval}
    (room : frames.length * limits.nWindow + limits.speechPadSamples < 2 ^ 31)
    (member : segment ∈ segmentSamples limits frames) :
    segment.start ≤ max 0 ((frames.length - 1) * limits.nWindow - 80) ∧
      segment.start + limits.minSpeechSamples ≤ segment.finish := by
  have ordered := mergeAdjacent_ordered (speeches_ordered window frames)
  have apart : 0 ≤ maxMergeGapSamples := by decide
  obtain ⟨original, isOne, start, finish⟩ := applyPadding_margin (show (0 : Int) ≤ 80 by decide)
    padding room (show 2 * 80 ≤ maxMergeGapSamples by decide)
    (ordered.sublist apart List.filter_sublist) member
  obtain ⟨merged, notShort⟩ := List.mem_filter.mp isOne
  have least : limits.minSpeechSamples ≤ original.finish - original.start := by
    simpa using notShort
  have positive := (ordered.mem apart merged).1
  have bound : original.start ≤ (frames.length - 1) * limits.nWindow := by
    obtain ⟨first, isFirst, same⟩ : ∃ first ∈ speeches limits frames,
        original.start = first.start := by
      cases found : speeches limits frames with
      | nil =>
        rw [found] at merged
        cases merged
      | cons first rest =>
        rw [found] at merged
        exact Interval.exists_start_mergeClose merged
    rw [same]
    exact speeches_start_le window isFirst
  omega

end Margin

section Starts

variable {nWindow : Nat} {params : VadParams} {probs : List (Option Rat)} {segment : Interval}

/-- With at least five milliseconds of padding every segment begins at the last frame or
before it, in centiseconds too. -/
theorem whisperVadSegmentsFromProbs_start (padding : 5 ≤ params.speechPadMs)
    (short : params.speechPadMs ≤ 134217) (small : (probs.length : Int) * nWindow ≤ 2 ^ 30)
    (member : segment ∈ whisperVadSegmentsFromProbs nWindow params probs) :
    160 * segment.start ≤ max 0 (((probs.length : Int) - 1) * nWindow) := by
  obtain ⟨inSamples, isOne, rfl⟩ := List.mem_map.mp member
  have pad : (params.limits nWindow).speechPadSamples = 16 * params.speechPadMs :=
    samplesOf_eq (by omega) short
  have window : 0 ≤ (params.limits nWindow).nWindow := Int.natCast_nonneg nWindow
  have room : (probs.map params.frame).length * (params.limits nWindow).nWindow +
      (params.limits nWindow).speechPadSamples < 2 ^ 31 := by
    rw [List.length_map, VadParams.limits_nWindow]
    omega
  have start := (segmentSamples_margin window (by omega) room isOne).1
  have positive := ((segmentSamples_ordered window (by omega) room).mem (Int.le_refl _) isOne).1
  rw [List.length_map] at start
  have less : ((probs.length : Int) - 1) * nWindow ≤ probs.length * nWindow :=
    Int.mul_le_mul_of_nonneg_right (by omega) (Int.natCast_nonneg _)
  rw [VadParams.limits_nWindow] at start
  have near := samplesToCs_near positive (by omega)
  have zero : inSamples.start = 0 → samplesToCs inSamples.start = 0 := by
    intro first
    rw [first, samplesToCs_zero]
  simp only [toCs]
  omega

/-- Speech of at least 15 milliseconds is a segment of at least one centisecond. -/
theorem whisperVadSegmentsFromProbs_long (padding : 5 ≤ params.speechPadMs)
    (short : params.speechPadMs ≤ 134217) (least : 15 ≤ params.minSpeechDurationMs)
    (most : params.minSpeechDurationMs ≤ 134217)
    (small : (probs.length : Int) * nWindow ≤ 2 ^ 30)
    (member : segment ∈ whisperVadSegmentsFromProbs nWindow params probs) :
    segment.start < segment.finish := by
  obtain ⟨inSamples, isOne, rfl⟩ := List.mem_map.mp member
  have pad : (params.limits nWindow).speechPadSamples = 16 * params.speechPadMs :=
    samplesOf_eq (by omega) short
  have minimum : (params.limits nWindow).minSpeechSamples = 16 * params.minSpeechDurationMs :=
    samplesOf_eq (by omega) most
  have window : 0 ≤ (params.limits nWindow).nWindow := Int.natCast_nonneg nWindow
  have room : (probs.map params.frame).length * (params.limits nWindow).nWindow +
      (params.limits nWindow).speechPadSamples < 2 ^ 31 := by
    rw [List.length_map, VadParams.limits_nWindow]
    omega
  have long := (segmentSamples_margin window (by omega) room isOne).2
  have bounds := (segmentSamples_ordered window (by omega) room).mem (Int.le_refl _) isOne
  rw [List.length_map] at bounds
  rw [VadParams.limits_nWindow] at bounds
  have startNear := samplesToCs_near bounds.1 (by omega)
  have finishNear := samplesToCs_near (show 0 ≤ inSamples.finish by omega) (by omega)
  simp only [toCs]
  omega

end Starts

/-- Full padding on both sides, inside the audio. -/
def widen (pad audio : Int) (segment : Interval) : Interval :=
  ⟨max 0 (segment.start - pad), min audio (segment.finish + pad)⟩

section Apart

variable {pad audio lower : Int} {segment : Interval} {rest segments : List Interval}

theorem padEnd_padStart (forward : 0 ≤ segment.finish + pad)
    (room : segment.finish + pad < 2 ^ 31) :
    padEnd pad audio (padStart pad segment) = widen pad audio segment := by
  rw [widen, ← padStart_start, ← padEnd_finish forward room]
  rfl

theorem padBetween_of_apart (padded : 0 ≤ pad) (room : audio + pad < 2 ^ 31) (positive : 0 ≤ lower)
    (ordered : Interval.Ordered (2 * pad) audio lower (segment :: rest)) :
    padBetween pad audio segment rest = padEnd pad audio segment :: rest.map (widen pad audio) := by
  induction rest generalizing segment lower with
  | nil => rfl
  | cons next rest ih =>
    obtain ⟨after, forward, inside, nextAfter, nextForward, nextInside, later⟩ := ordered
    have moved : Interval.Ordered (2 * pad) audio 0 (padStart pad next :: rest) := by
      refine ⟨?_, ?_, nextInside, later⟩ <;> simp only [padStart_start, padStart_finish] <;> omega
    simp only [padBetween]
    rw [if_neg (by omega), ih (Int.le_refl 0) moved, padEnd_padStart (by omega) (by omega),
      List.map_cons]

theorem applyPadding_of_apart (padded : 0 ≤ pad) (room : audio + pad < 2 ^ 31)
    (ordered : Interval.Ordered (2 * pad) audio 0 segments) :
    applyPadding pad audio segments = segments.map (widen pad audio) := by
  cases segments with
  | nil => rfl
  | cons first rest =>
    obtain ⟨after, forward, inside, later⟩ := ordered
    have moved : Interval.Ordered (2 * pad) audio 0 (padStart pad first :: rest) := by
      refine ⟨?_, ?_, inside, later⟩ <;> simp only [padStart_start, padStart_finish] <;> omega
    rw [applyPadding, padBetween_of_apart padded room (Int.le_refl 0) moved,
      padEnd_padStart (by omega) (by omega), List.map_cons]

end Apart

/-- The runs as segments are as far apart as the shortest silence that ends one. -/
theorem segments_ordered {limits : Limits} (window : 0 < limits.nWindow) (signals : List Signal) :
    Interval.Ordered limits.minSilenceSamples (limits.nWindow * signals.length) 0
      (limits.segments (Detector.detect limits.long signals)) := by
  have shrinks := limits.shrinks (Int.le_of_lt window)
  have scaled {one two : Nat} (ordered : one ≤ two) : limits.nWindow * one ≤ limits.nWindow * two :=
    Int.mul_le_mul_of_nonneg_left (Int.ofNat_le.mpr ordered) (Int.le_of_lt window)
  refine Interval.Ordered.of_pairwise ?_ ?_
  · intro segment member
    obtain ⟨run, runMember, rfl, _⟩ := mem_segments.mp member
    obtain ⟨forward, inside⟩ := detect_forward shrinks runMember
    exact ⟨Int.mul_nonneg (Int.le_of_lt window) (Int.natCast_nonneg _),
      scaled (Nat.le_of_lt forward), scaled inside⟩
  · refine List.Pairwise.filter _ (List.pairwise_map.mpr ((detect_apart shrinks).imp ?_))
    rintro earlier later ⟨index, before, bound, isLong⟩
    have enough := limits.long_iff.mp isLong
    have next := scaled (Nat.le_of_lt before)
    simp only [Limits.samples]
    omega

end LocalWhisper.WhisperVad
