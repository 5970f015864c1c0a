import LocalWhisper.Machine.Hysteresis
import LocalWhisper.WhisperVad.Scan

/-! What the loop finds where no segment is split: the runs of frames that are held by
speech until a long silence, as far as they are long enough. -/

namespace LocalWhisper.WhisperVad

open LocalWhisper.Machine

/-- A frame that does not compare as speech and as silence at once. -/
def Frame.Distinct (frame : Frame) : Prop := ¬ (frame.speech = true ∧ frame.silent = true)

def Frame.signal (frame : Frame) : Signal :=
  if frame.speech then .loud else if frame.silent then .quiet else .between

theorem Frame.Distinct.cases {frame : Frame} (distinct : frame.Distinct) :
    frame.signal = .loud ∧ frame.speech = true ∧ frame.silent = false ∨
      frame.signal = .quiet ∧ frame.speech = false ∧ frame.silent = true ∨
      frame.signal = .between ∧ frame.speech = false ∧ frame.silent = false := by
  obtain ⟨speech, silent⟩ := frame
  cases speech <;> cases silent
  · exact .inr (.inr ⟨rfl, rfl, rfl⟩)
  · exact .inr (.inl ⟨rfl, rfl, rfl⟩)
  · exact .inl ⟨rfl, rfl, rfl⟩
  · exact absurd ⟨rfl, rfl⟩ distinct

theorem VadParams.frame_distinct {params : VadParams}
    (lower : params.negThreshold ≤ params.threshold) (prob : Option Rat) :
    (params.frame prob).Distinct := by
  rintro ⟨speech, silent⟩
  cases prob with
  | none => cases speech
  | some prob =>
    have above : params.threshold ≤ prob := by simpa [VadParams.frame] using speech
    have below : prob < params.negThreshold := by simpa [VadParams.frame] using silent
    exact absurd (lower.trans above) (not_le.mpr below)

variable {limits : Limits}

/-- The silence between two frames is long enough to end a segment. -/
def Limits.long (limits : Limits) (since index : Nat) : Bool :=
  limits.minSilenceSamples ≤ limits.nWindow * (index - since)

theorem Limits.long_iff {since index : Nat} : limits.long since index = true ↔
    limits.minSilenceSamples ≤ limits.nWindow * index - limits.nWindow * since := by
  rw [Limits.long, decide_eq_true_iff, Int.mul_sub]

theorem Limits.shrinks (window : 0 ≤ limits.nWindow) : Shrinks limits.long := by
  intro first second index ordered isLong
  rw [limits.long_iff] at isLong ⊢
  have less : limits.nWindow * first ≤ limits.nWindow * second :=
    Int.mul_le_mul_of_nonneg_left (Int.ofNat_le.mpr ordered) window
  omega

def Limits.samples (limits : Limits) (run : Nat × Nat) : Interval :=
  ⟨limits.nWindow * run.1, limits.nWindow * run.2⟩

/-- The segments of the runs that last longer than `min_speech_samples`. -/
def Limits.segments (limits : Limits) (runs : List (Nat × Nat)) : List Interval :=
  (runs.map limits.samples).filter fun segment =>
    limits.minSpeechSamples < segment.finish - segment.start

theorem Limits.segments_append (limits : Limits) (runs : List (Nat × Nat)) (run : Nat × Nat) :
    limits.segments (runs ++ [run]) =
      if limits.minSpeechSamples < limits.nWindow * run.2 - limits.nWindow * run.1 then
        limits.segments runs ++ [limits.samples run]
      else limits.segments runs := by
  rw [Limits.segments, List.map_append, List.filter_append]
  simp only [List.map_cons, List.map_nil, List.filter_cons, List.filter_nil, decide_eq_true_eq,
    Limits.samples]
  split
  · rfl
  · exact List.append_nil _

/-- The variables of the loop before the frame `index` as those of a detector. -/
inductive Scan.Follows (limits : Limits) (index : Nat) (state : Scan) : Detector → Prop where
  | idle {runs : List (Nat × Nat)} (speeches : state.speeches = limits.segments runs)
      (segment : state.isSpeechSegment = false) (current : state.hasCurrSpeech = false)
      (tempEnd : state.tempEnd = 0) : Follows limits index state ⟨runs, none⟩
  | speaking {runs : List (Nat × Nat)} {start : Nat} (speeches : state.speeches = limits.segments runs)
      (segment : state.isSpeechSegment = true) (current : state.hasCurrSpeech = true)
      (begun : state.currSpeechStart = limits.nWindow * start) (tempEnd : state.tempEnd = 0)
      (before : start < index) : Follows limits index state ⟨runs, some ⟨start, none⟩⟩
  | fading {runs : List (Nat × Nat)} {start since : Nat}
      (speeches : state.speeches = limits.segments runs)
      (segment : state.isSpeechSegment = true) (current : state.hasCurrSpeech = true)
      (begun : state.currSpeechStart = limits.nWindow * start)
      (tempEnd : state.tempEnd = limits.nWindow * since) (later : 0 < since)
      (before : start < index) : Follows limits index state ⟨runs, some ⟨start, some since⟩⟩

namespace Scan

variable {state : Scan} {frame : Frame} {index : Nat} {runs : List (Nat × Nat)} {start : Nat}

theorem backToSpeech_of_unmarked (unmarked : state.tempEnd = 0) (frame : Frame)
    (currSample : Int) : state.backToSpeech frame currSample = state :=
  if_neg fun back => back.2 unmarked

theorem backToSpeech_of_not_speech (notSpeech : frame.speech = false) (currSample : Int) :
    state.backToSpeech frame currSample = state :=
  if_neg fun back => by simp [notSpeech] at back

theorem silence_of_not_silent (notSilent : frame.silent = false) (currSample : Int) :
    state.silence limits frame currSample = state :=
  if_neg fun silent => by simp [notSilent] at silent

theorem not_tooLong {currSample : Int} (begun : state.isSpeechSegment → 0 ≤ state.currSpeechStart)
    (short : currSample ≤ limits.maxSpeechSamples) : ¬ state.TooLong limits currSample := by
  rintro ⟨inside, long⟩
  have positive := begun inside
  omega

theorem round_outside (segment : state.isSpeechSegment = false) (unmarked : state.tempEnd = 0)
    (currSample : Int) : state.round limits frame currSample =
      if frame.speech then state.startSegment currSample else state := by
  have short : ¬ state.TooLong limits currSample := fun long => by
    simp [TooLong, segment] at long
  have noSilence : ¬ (frame.silent = true ∧ state.isSpeechSegment = true) := by simp [segment]
  rw [Scan.round, backToSpeech_of_unmarked unmarked]
  simp only [segment, Bool.not_false, and_true]
  rw [if_neg short, Scan.silence, if_neg noSilence]

theorem round_inside {currSample : Int} (segment : state.isSpeechSegment = true)
    (begun : 0 ≤ state.currSpeechStart) (short : currSample ≤ limits.maxSpeechSamples) :
    state.round limits frame currSample =
      (state.backToSpeech frame currSample).silence limits frame currSample := by
  have kept : (state.backToSpeech frame currSample).isSpeechSegment = true ∧
      0 ≤ (state.backToSpeech frame currSample).currSpeechStart := by
    unfold backToSpeech
    split <;> exact ⟨segment, begun⟩
  simp only [round, kept.1, Bool.not_true, Bool.false_eq_true, and_false, ↓reduceIte]
  rw [if_neg (not_tooLong (fun _ => kept.2) short)]

theorem silence_follows {since : Nat} (silent : frame.silent = true)
    (speeches : state.speeches = limits.segments runs) (segment : state.isSpeechSegment = true)
    (current : state.hasCurrSpeech = true) (begun : state.currSpeechStart = limits.nWindow * start)
    (tempEnd : (if state.tempEnd = 0 then limits.nWindow * index else state.tempEnd) =
      limits.nWindow * since) (later : 0 < since) (before : start < index) :
    (state.silence limits frame (limits.nWindow * index)).Follows limits (index + 1)
      (if limits.long since index then ⟨runs ++ [(start, since)], none⟩
        else ⟨runs, some ⟨start, some since⟩⟩) := by
  have both : (frame.silent = true ∧ state.isSpeechSegment = true) := ⟨silent, segment⟩
  simp only [silence, if_pos both, tempEnd]
  by_cases isLong : limits.long since index = true
  · have enough := limits.long_iff.mp isLong
    rw [if_neg (by omega), if_pos isLong]
    refine .idle ?_ ?_ ?_ ?_
    · rw [limits.segments_append, begun]
      split
      · simp only [push, leave, begun, speeches, Limits.samples]
      · exact speeches
    all_goals split <;> rfl
  · have notEnough : ¬ limits.minSilenceSamples ≤
        limits.nWindow * index - limits.nWindow * since := fun enough =>
      isLong (limits.long_iff.mpr enough)
    rw [if_pos (by omega), if_neg isLong]
    exact .fading speeches segment current begun rfl later (Nat.lt_succ_of_lt before)

theorem Follows.round {detector : Detector} (window : 0 < limits.nWindow)
    (follows : state.Follows limits index detector) (distinct : frame.Distinct)
    (short : limits.nWindow * index ≤ limits.maxSpeechSamples) :
    (state.round limits frame (limits.nWindow * index)).Follows limits (index + 1)
      (detector.step limits.long index frame.signal) := by
  have positive (number : Nat) : 0 ≤ limits.nWindow * number :=
    Int.mul_nonneg (Int.le_of_lt window) (Int.natCast_nonneg _)
  have frames := distinct.cases
  cases follows with
  | idle speeches segment current tempEnd =>
    rw [round_outside segment tempEnd]
    rcases frames with ⟨signal, speech, _⟩ | ⟨signal, speech, _⟩ | ⟨signal, speech, _⟩
    · rw [signal, speech]
      exact .speaking speeches rfl rfl rfl tempEnd (Nat.lt_succ_self index)
    all_goals
      rw [signal, speech]
      exact .idle speeches segment current tempEnd
  | speaking speeches segment current begun tempEnd before =>
    rw [round_inside segment (begun ▸ positive _) short, backToSpeech_of_unmarked tempEnd]
    rcases frames with ⟨signal, _, silent⟩ | ⟨signal, _, silent⟩ | ⟨signal, _, silent⟩
    · rw [signal, silence_of_not_silent silent]
      exact .speaking speeches segment current begun tempEnd (Nat.lt_succ_of_lt before)
    · rw [signal]
      exact silence_follows silent speeches segment current begun (if_pos tempEnd)
        (Nat.zero_lt_of_lt before) before
    · rw [signal, silence_of_not_silent silent]
      exact .speaking speeches segment current begun tempEnd (Nat.lt_succ_of_lt before)
  | @fading _ _ since speeches segment current begun tempEnd later before =>
    have marked : state.tempEnd ≠ 0 := by
      have product := Int.mul_pos window (Int.natCast_pos.mpr later)
      omega
    rw [round_inside segment (begun ▸ positive _) short]
    rcases frames with ⟨signal, speech, silent⟩ | ⟨signal, speech, silent⟩ | ⟨signal, speech, silent⟩
    · rw [signal, silence_of_not_silent silent, Scan.backToSpeech, if_pos ⟨speech, marked⟩]
      exact .speaking speeches segment current begun rfl (Nat.lt_succ_of_lt before)
    · rw [signal, backToSpeech_of_not_speech speech]
      exact silence_follows silent speeches segment current begun
        ((if_neg marked).trans tempEnd) later before
    · rw [signal, backToSpeech_of_not_speech speech, silence_of_not_silent silent]
      exact .fading speeches segment current begun tempEnd later (Nat.lt_succ_of_lt before)

theorem Follows.frames {rest : List Frame} {detector : Detector} (window : 0 < limits.nWindow)
    (follows : state.Follows limits index detector) (distinct : ∀ frame ∈ rest, frame.Distinct)
    (short : limits.nWindow * (index + rest.length : Nat) ≤ limits.maxSpeechSamples) :
    (state.frames limits index rest).Follows limits (index + rest.length)
      (Detector.steps limits.long index (rest.map Frame.signal) detector) := by
  induction rest generalizing index state detector with
  | nil => exact follows
  | cons frame rest ih =>
    have count : index + (frame :: rest).length = index + 1 + rest.length := by
      rw [List.length_cons]
      omega
    rw [count] at short ⊢
    have less : limits.nWindow * index ≤ limits.nWindow * (index + 1 + rest.length : Nat) :=
      Int.mul_le_mul_of_nonneg_left (by omega) (Int.le_of_lt window)
    exact ih (follows.round window (distinct frame List.mem_cons_self) (Int.le_trans less short))
      (fun other member => distinct other (List.mem_cons_of_mem _ member)) short

theorem Follows.finish {detector : Detector} (follows : state.Follows limits index detector) :
    state.finish limits (limits.nWindow * index) = limits.segments (detector.finish index) := by
  have pushed {runs : List (Nat × Nat)} {start : Nat} (speeches : state.speeches = limits.segments runs)
      (current : state.hasCurrSpeech = true) (begun : state.currSpeechStart = limits.nWindow * start) :
      state.finish limits (limits.nWindow * index) = limits.segments (runs ++ [(start, index)]) := by
    rw [Scan.finish, current, begun, limits.segments_append, push, begun, speeches]
    simp only [true_and]
    rfl
  cases follows with
  | idle speeches segment current tempEnd =>
    rw [Scan.finish, current, if_neg (by simp)]
    exact speeches
  | speaking speeches segment current begun tempEnd before => exact pushed speeches current begun
  | fading speeches segment current begun tempEnd later before => exact pushed speeches current begun

end Scan

/-- Where no segment is split, the segments are those of the detector's runs. -/
theorem speeches_eq_segments (window : 0 < limits.nWindow) {frames : List Frame}
    (distinct : ∀ frame ∈ frames, frame.Distinct)
    (short : frames.length * limits.nWindow ≤ limits.maxSpeechSamples) :
    speeches limits frames =
      limits.segments (Detector.detect limits.long (frames.map Frame.signal)) := by
  have start : Scan.start.Follows limits 0 ⟨[], none⟩ := .idle rfl rfl rfl rfl
  rw [Int.mul_comm] at short
  have last := (start.frames window distinct (by rw [Nat.zero_add]; exact short)).finish
  rw [Nat.zero_add] at last
  rw [speeches, Int.mul_comm, last, Detector.detect, List.length_map]

theorem mem_segments {runs : List (Nat × Nat)} {segment : Interval} :
    segment ∈ limits.segments runs ↔ ∃ run ∈ runs, limits.samples run = segment ∧
      limits.minSpeechSamples < limits.nWindow * run.2 - limits.nWindow * run.1 := by
  rw [Limits.segments, List.mem_filter, List.mem_map, decide_eq_true_iff]
  constructor
  · rintro ⟨⟨run, member, rfl⟩, wide⟩
    exact ⟨run, member, rfl, wide⟩
  · rintro ⟨run, member, rfl, wide⟩
    exact ⟨⟨run, member, rfl⟩, wide⟩

/-- A frame lies in a segment exactly if it belongs to frames without a break that are
held by speech and last longer than `min_speech_samples`. -/
theorem mem_speeches_iff (window : 0 < limits.nWindow) {frames : List Frame}
    (distinct : ∀ frame ∈ frames, frame.Distinct)
    (short : frames.length * limits.nWindow ≤ limits.maxSpeechSamples) {index : Nat} :
    (∃ segment ∈ speeches limits frames, segment.start ≤ limits.nWindow * index ∧
        limits.nWindow * (index + 1 : Nat) ≤ segment.finish) ↔
      ∃ first last, first ≤ index ∧ index < last ∧ last ≤ frames.length ∧
        limits.minSpeechSamples < limits.nWindow * last - limits.nWindow * first ∧
        ∀ middle, first ≤ middle → middle < last →
          IsHeld limits.long (frames.map Frame.signal) middle := by
  have shrinks := limits.shrinks (Int.le_of_lt window)
  rw [speeches_eq_segments window distinct short]
  constructor
  · rintro ⟨segment, member, starts, ends⟩
    obtain ⟨run, runMember, rfl, wide⟩ := mem_segments.mp member
    obtain ⟨forward, inside⟩ := detect_forward shrinks runMember
    rw [List.length_map] at inside
    have after := Int.ofNat_le.mp (Int.le_of_mul_le_mul_left starts window)
    have before := Int.ofNat_le.mp (Int.le_of_mul_le_mul_left ends window)
    refine ⟨run.1, run.2, after, before, inside, wide, fun middle above below => ?_⟩
    exact (mem_detect shrinks (by rw [List.length_map]; omega)).mp
      ⟨run, runMember, above, below⟩
  · rintro ⟨first, last, after, before, inside, wide, held⟩
    obtain ⟨run, member, starts, ends⟩ := exists_detect_of_held shrinks
      (Nat.lt_of_le_of_lt after before) (by rw [List.length_map]; exact inside) held
    have scaled {one two : Nat} (ordered : one ≤ two) :
        limits.nWindow * one ≤ limits.nWindow * two :=
      Int.mul_le_mul_of_nonneg_left (Int.ofNat_le.mpr ordered) (Int.le_of_lt window)
    have early := scaled starts
    have late := scaled ends
    exact ⟨limits.samples run, mem_segments.mpr ⟨run, member, rfl, by omega⟩,
      scaled (Nat.le_trans starts after), scaled (Nat.le_trans before ends)⟩

/-- Speech with a short silence in it, a long silence and too little speech after it. -/
def pausedFrames : List Frame :=
  List.replicate 10 ⟨true, false⟩ ++ List.replicate 2 ⟨false, true⟩ ++
    [⟨false, false⟩, ⟨true, false⟩] ++ List.replicate 6 ⟨false, true⟩ ++
    List.replicate 3 ⟨true, false⟩

def pausedLimits : Limits := ⟨512, 1600, 4000, 480, 1073741823⟩

/-- The short silence belongs to a segment, the speech at the end to none. -/
theorem mem_speeches_iff_paused :
    (∃ first last : Nat, first ≤ 11 ∧ 11 < last ∧ last ≤ pausedFrames.length ∧
      pausedLimits.minSpeechSamples < pausedLimits.nWindow * last - pausedLimits.nWindow * first ∧
      ∀ middle, first ≤ middle → middle < last →
        IsHeld pausedLimits.long (pausedFrames.map Frame.signal) middle) ∧
      ¬ ∃ first last : Nat, first ≤ 21 ∧ 21 < last ∧ last ≤ pausedFrames.length ∧
        pausedLimits.minSpeechSamples < pausedLimits.nWindow * last - pausedLimits.nWindow * first ∧
        ∀ middle, first ≤ middle → middle < last →
          IsHeld pausedLimits.long (pausedFrames.map Frame.signal) middle := by
  have distinct : ∀ frame ∈ pausedFrames, frame.Distinct := by
    simp [pausedFrames, Frame.Distinct]
  have found : speeches pausedLimits pausedFrames = [⟨0, 7168⟩] := by decide +kernel
  have decided (index : Nat) := @mem_speeches_iff pausedLimits (by decide) pausedFrames distinct
    (by decide) index
  simp only [found] at decided
  exact ⟨(decided 11).mp (by decide), mt (decided 21).mpr (by decide)⟩

end LocalWhisper.WhisperVad
