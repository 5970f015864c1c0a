import LocalWhisper.Machine.Intervals
import LocalWhisper.Machine.BinaryFloat
import LocalWhisper.Record.Buffer.Pcm16Builder

/-! The loop of `whisper_vad_segments_from_probs` over the probabilities of the frames. -/

namespace LocalWhisper.WhisperVad

open LocalWhisper.Machine
open LocalWhisper.Record.Pcm (maxInt truncate)

/-- `WHISPER_SAMPLE_RATE`. -/
def sampleRate : Int := 16000

/-- `whisper_vad_params`. -/
structure VadParams where
  threshold : Rat
  minSpeechDurationMs : Int
  minSilenceDurationMs : Int
  maxSpeechDurationS : Rat
  speechPadMs : Int
  samplesOverlap : Rat
  deriving DecidableEq, Repr

/-- `FLT_MAX`. -/
def floatMax : Rat := (2 ^ 24 - 1) * 2 ^ 104

/-- `whisper_vad_default_params`. -/
def vadDefaultParams : VadParams where
  threshold := 1 / 2
  minSpeechDurationMs := 250
  minSilenceDurationMs := 100
  maxSpeechDurationS := floatMax
  speechPadMs := 30
  samplesOverlap := binary32 (binary64 (1 / 10))

/-- A result of `int` arithmetic, which wraps around. -/
def int (value : Int) : Int := value.bmod (2 ^ 32)

theorem int_eq {value : Int} (low : -2 ^ 31 ≤ value) (high : value < 2 ^ 31) : int value = value :=
  Int.bmod_eq_of_le (by omega) (by omega)

theorem int_add_int (first second : Int) : int (first + int second) = int (first + second) :=
  Int.add_bmod_bmod

theorem int_int_add (first second : Int) : int (int first + second) = int (first + second) :=
  Int.bmod_add_bmod

/-- The samples of a duration; from 134218 milliseconds on the product wraps around. -/
def samplesOf (durationMs : Int) : Int := (int (sampleRate * durationMs)).tdiv 1000

/-- The numbers of samples that the loop compares with. -/
structure Limits where
  nWindow : Int
  minSilenceSamples : Int
  minSpeechSamples : Int
  speechPadSamples : Int
  maxSpeechSamples : Int
  deriving DecidableEq, Repr

/-- `INT_MAX / 2` stands for no limit. -/
def maxSpeechSamples (nWindow speechPadSamples : Int) (maxSpeechDurationS : Rat) : Int :=
  if 100000 < maxSpeechDurationS then (maxInt : Int) / 2
  else
    let temp := sampleRate * truncate maxSpeechDurationS - nWindow - 2 * speechPadSamples
    let samples := if (maxInt : Int) < temp then (maxInt : Int) / 2 else int temp
    if samples < 0 then (maxInt : Int) / 2 else samples

def VadParams.limits (params : VadParams) (nWindow : Nat) : Limits where
  nWindow := nWindow
  minSilenceSamples := samplesOf params.minSilenceDurationMs
  minSpeechSamples := samplesOf params.minSpeechDurationMs
  speechPadSamples := samplesOf params.speechPadMs
  maxSpeechSamples :=
    maxSpeechSamples nWindow (samplesOf params.speechPadMs) params.maxSpeechDurationS

section Limits

variable (params : VadParams) (nWindow : Nat)

@[simp] theorem VadParams.limits_nWindow : (params.limits nWindow).nWindow = nWindow := rfl

@[simp] theorem VadParams.limits_minSpeechSamples :
    (params.limits nWindow).minSpeechSamples = samplesOf params.minSpeechDurationMs := rfl

@[simp] theorem VadParams.limits_speechPadSamples :
    (params.limits nWindow).speechPadSamples = samplesOf params.speechPadMs := rfl

end Limits

/-- `min_silence_samples_at_max_speech`. -/
def minSilenceSamplesAtMaxSpeech : Int := (sampleRate * 98).tdiv 1000

/-- `neg_threshold`, with `0.15f` and `0.01f`. -/
def VadParams.negThreshold (params : VadParams) : Rat :=
  let negThreshold := binary32 (params.threshold - binary32 (15 / 100))
  if negThreshold < binary32 (1 / 100) then binary32 (1 / 100) else negThreshold

/-- How a probability compares with the two thresholds. -/
structure Frame where
  speech : Bool
  silent : Bool
  deriving DecidableEq, Repr

/-- Of NaN, `none`, every comparison is false. -/
def VadParams.frame (params : VadParams) (prob : Option Rat) : Frame where
  speech := prob.any fun prob => params.threshold ≤ prob
  silent := prob.any fun prob => prob < params.negThreshold

structure Scan where
  speeches : List Interval
  isSpeechSegment : Bool
  tempEnd : Int
  prevEnd : Int
  nextStart : Int
  currSpeechStart : Int
  hasCurrSpeech : Bool
  deriving DecidableEq, Repr

namespace Scan

def start : Scan := ⟨[], false, 0, 0, 0, 0, false⟩

/-- Reset `temp_end` when we get back to speech. -/
def backToSpeech (state : Scan) (frame : Frame) (currSample : Int) : Scan :=
  if frame.speech ∧ state.tempEnd ≠ 0 then
    { state with
      tempEnd := 0
      nextStart := if state.nextStart < state.prevEnd then currSample else state.nextStart }
  else state

def startSegment (state : Scan) (currSample : Int) : Scan :=
  { state with isSpeechSegment := true, currSpeechStart := currSample, hasCurrSpeech := true }

def push (state : Scan) (finish : Int) : Scan :=
  { state with speeches := state.speeches ++ [⟨state.currSpeechStart, finish⟩] }

/-- `prev_end = next_start = temp_end = 0` outside a segment. -/
def leave (state : Scan) : Scan :=
  { state with
    isSpeechSegment := false
    tempEnd := 0
    prevEnd := 0
    nextStart := 0
    hasCurrSpeech := false }

/-- Handle maximum speech duration at a place where a silence was seen. -/
def splitAtSilence (state : Scan) : Scan :=
  if state.nextStart < state.prevEnd then (state.push state.prevEnd).leave
  else
    { state.push state.prevEnd with
      tempEnd := 0
      prevEnd := 0
      nextStart := 0
      currSpeechStart := state.nextStart
      hasCurrSpeech := true }

/-- Handle silence after speech. -/
def silence (limits : Limits) (state : Scan) (frame : Frame) (currSample : Int) : Scan :=
  if frame.silent ∧ state.isSpeechSegment then
    let tempEnd := if state.tempEnd = 0 then currSample else state.tempEnd
    let prevEnd :=
      if minSilenceSamplesAtMaxSpeech < currSample - tempEnd then tempEnd else state.prevEnd
    if currSample - tempEnd < limits.minSilenceSamples then
      { state with tempEnd := tempEnd, prevEnd := prevEnd }
    else if limits.minSpeechSamples < tempEnd - state.currSpeechStart then
      (state.push tempEnd).leave
    else state.leave
  else state

/-- The segment is longer than `max_speech_samples`. -/
def TooLong (limits : Limits) (state : Scan) (currSample : Int) : Prop :=
  state.isSpeechSegment ∧ limits.maxSpeechSamples < currSample - state.currSpeechStart

instance (limits : Limits) (state : Scan) (currSample : Int) :
    Decidable (state.TooLong limits currSample) := inferInstanceAs (Decidable (_ ∧ _))

/-- One frame. -/
def round (limits : Limits) (state : Scan) (frame : Frame) (currSample : Int) : Scan :=
  let state := state.backToSpeech frame currSample
  if frame.speech ∧ !state.isSpeechSegment then state.startSegment currSample
  else if state.TooLong limits currSample then
    if state.prevEnd ≠ 0 then state.splitAtSilence.silence limits frame currSample
    else (state.push currSample).leave
  else state.silence limits frame currSample

/-- The frames from number `index` on. -/
def frames (limits : Limits) : Nat → List Frame → Scan → Scan
  | _, [], state => state
  | index, frame :: rest, state =>
    frames limits (index + 1) rest (state.round limits frame (limits.nWindow * index))

/-- Handle the case if we're still in a speech segment at the end. -/
def finish (limits : Limits) (state : Scan) (audioLengthSamples : Int) : List Interval :=
  if state.hasCurrSpeech ∧ limits.minSpeechSamples < audioLengthSamples - state.currSpeechStart then
    (state.push audioLengthSamples).speeches
  else state.speeches

end Scan

/-- `speeches` after the loop and the end of the audio. -/
def speeches (limits : Limits) (frames : List Frame) : List Interval :=
  (Scan.start.frames limits 0 frames).finish limits (frames.length * limits.nWindow)

namespace Scan

/-- What holds before the frame at `currSample`: the segments follow one another, and
the marks of the open one lie between its start and that frame. -/
structure InOrder (currSample : Int) (state : Scan) : Prop where
  both : state.hasCurrSpeech = state.isSpeechSegment
  ordered : Interval.Ordered 0 (if state.isSpeechSegment then state.currSpeechStart else currSample)
    0 state.speeches
  start : state.isSpeechSegment → 0 ≤ state.currSpeechStart ∧ state.currSpeechStart ≤ currSample
  tempEnd : state.isSpeechSegment → state.tempEnd ≠ 0 →
    state.currSpeechStart ≤ state.tempEnd ∧ state.tempEnd ≤ currSample
  prevEnd : state.isSpeechSegment → state.prevEnd ≠ 0 →
    state.currSpeechStart ≤ state.prevEnd ∧ state.prevEnd ≤ currSample
  nextStart : state.isSpeechSegment → state.nextStart ≤ currSample
  idle : ¬ state.isSpeechSegment → state.tempEnd = 0 ∧ state.prevEnd = 0 ∧ state.nextStart = 0

variable {limits : Limits} {state : Scan} {frame : Frame} {currSample : Int}

theorem inOrder_start : start.InOrder 0 where
  both := rfl
  ordered := trivial
  start := nofun
  tempEnd := nofun
  prevEnd := nofun
  nextStart := nofun
  idle _ := ⟨rfl, rfl, rfl⟩

theorem InOrder.later (inOrder : state.InOrder currSample) {next : Int}
    (after : currSample ≤ next) : state.InOrder next where
  both := inOrder.both
  ordered := by
    have ordered := inOrder.ordered
    cases inside : state.isSpeechSegment with
    | false =>
      rw [inside] at ordered
      exact ordered.of_bounds (Int.le_refl _) after
    | true =>
      rw [inside] at ordered
      exact ordered
  start inside := by have := inOrder.start inside; omega
  tempEnd inside marked := by have := inOrder.tempEnd inside marked; omega
  prevEnd inside marked := by have := inOrder.prevEnd inside marked; omega
  nextStart inside := by have := inOrder.nextStart inside; omega
  idle := inOrder.idle

theorem InOrder.backToSpeech (inOrder : state.InOrder currSample) (frame : Frame) :
    (state.backToSpeech frame currSample).InOrder currSample := by
  unfold Scan.backToSpeech
  split
  · rename_i back
    have inside : state.isSpeechSegment = true := by
      by_contra outside
      exact back.2 (inOrder.idle outside).1
    exact { inOrder with
      tempEnd := fun _ marked => absurd rfl marked
      nextStart := fun _ => by
        have bound := inOrder.nextStart inside
        simp only
        split <;> omega
      idle := fun outside => absurd inside outside }
  · exact inOrder

theorem InOrder.startSegment (inOrder : state.InOrder currSample) (positive : 0 ≤ currSample)
    (outside : state.isSpeechSegment = false) :
    (state.startSegment currSample).InOrder currSample := by
  obtain ⟨tempEnd, prevEnd, nextStart⟩ := inOrder.idle (by simp [outside])
  have ordered := inOrder.ordered
  rw [outside] at ordered
  exact {
    both := rfl
    ordered := ordered
    start := fun _ => ⟨positive, Int.le_refl _⟩
    tempEnd := fun _ marked => absurd tempEnd marked
    prevEnd := fun _ marked => absurd prevEnd marked
    nextStart := fun _ => by simp only [Scan.startSegment, nextStart, positive]
    idle := fun idle => absurd rfl idle }

theorem InOrder.ordered_push (inOrder : state.InOrder currSample)
    (inside : state.isSpeechSegment = true) {finish bound : Int}
    (forward : state.currSpeechStart ≤ finish) (below : finish ≤ bound) :
    Interval.Ordered 0 bound 0 (state.push finish).speeches := by
  have ordered := inOrder.ordered
  rw [inside] at ordered
  obtain ⟨positive, _⟩ := inOrder.start inside
  have pushed : Interval.Ordered 0 bound state.currSpeechStart [⟨state.currSpeechStart, finish⟩] :=
    ⟨Int.le_refl _, forward, below, trivial⟩
  refine (ordered.of_bounds (Int.le_refl _) (by simp only [↓reduceIte]; omega)).append pushed
    positive ?_
  intro interval member
  have bounds := (ordered.mem (Int.le_refl _) member).2.2
  simp only [↓reduceIte] at bounds
  omega

theorem inOrder_leave (both : Interval.Ordered 0 currSample 0 state.speeches) :
    state.leave.InOrder currSample where
  both := rfl
  ordered := both
  start := nofun
  tempEnd := nofun
  prevEnd := nofun
  nextStart := nofun
  idle _ := ⟨rfl, rfl, rfl⟩

theorem InOrder.splitAtSilence (inOrder : state.InOrder currSample)
    (inside : state.isSpeechSegment = true) (marked : state.prevEnd ≠ 0) :
    state.splitAtSilence.InOrder currSample := by
  obtain ⟨forward, below⟩ := inOrder.prevEnd inside marked
  have positive := (inOrder.start inside).1
  unfold Scan.splitAtSilence
  split
  · exact inOrder_leave (inOrder.ordered_push inside forward below)
  · rename_i next
    have bound := inOrder.nextStart inside
    exact {
      both := inside.symm
      ordered := by
        simp only [Scan.push, inside, ↓reduceIte]
        exact inOrder.ordered_push inside forward (by omega)
      start := fun _ => ⟨by simp only; omega, bound⟩
      tempEnd := fun _ marked => absurd rfl marked
      prevEnd := fun _ marked => absurd rfl marked
      nextStart := fun _ => by simp only; omega
      idle := fun outside => absurd inside outside }

theorem InOrder.silence (inOrder : state.InOrder currSample) (limits : Limits) (frame : Frame) :
    (state.silence limits frame currSample).InOrder currSample := by
  unfold Scan.silence
  split
  · rename_i silent
    have inside := silent.2
    have started := inOrder.start inside
    obtain ⟨tempEnd, tempEndIs⟩ :
        ∃ tempEnd, tempEnd = if state.tempEnd = 0 then currSample else state.tempEnd := ⟨_, rfl⟩
    have bounds : state.currSpeechStart ≤ tempEnd ∧ tempEnd ≤ currSample := by
      rw [tempEndIs]
      split
      · omega
      · rename_i marked
        exact inOrder.tempEnd inside marked
    simp only [← tempEndIs]
    split
    · exact { inOrder with
        tempEnd := fun _ _ => bounds
        prevEnd := fun _ => by
          simp only
          split
          · exact fun _ => bounds
          · exact inOrder.prevEnd inside
        idle := fun outside => absurd inside outside }
    · split
      · exact inOrder_leave (inOrder.ordered_push inside bounds.1 bounds.2)
      · refine inOrder_leave ?_
        have ordered := inOrder.ordered
        rw [inside] at ordered
        exact ordered.of_bounds (Int.le_refl _) started.2
  · exact inOrder

theorem InOrder.round (inOrder : state.InOrder currSample) (positive : 0 ≤ currSample)
    (limits : Limits) (frame : Frame) :
    (state.round limits frame currSample).InOrder currSample := by
  have back := inOrder.backToSpeech frame
  simp only [Scan.round]
  split
  · rename_i starts
    exact back.startSegment positive (by simpa using starts.2)
  · split
    · rename_i long
      split
      · rename_i marked
        exact (back.splitAtSilence long.1 marked).silence limits frame
      · exact inOrder_leave (back.ordered_push long.1 (back.start long.1).2 (Int.le_refl _))
    · exact back.silence limits frame

theorem InOrder.frames (window : 0 ≤ limits.nWindow) {rest : List Frame} {index : Nat}
    (inOrder : state.InOrder (limits.nWindow * index)) :
    (state.frames limits index rest).InOrder (limits.nWindow * (index + rest.length)) := by
  induction rest generalizing index state with
  | nil => exact inOrder
  | cons frame rest ih =>
    have positive : 0 ≤ limits.nWindow * index := Int.mul_nonneg window (Int.natCast_nonneg _)
    have step : limits.nWindow * index ≤ limits.nWindow * (index + 1 : Nat) :=
      Int.mul_le_mul_of_nonneg_left (by omega) window
    have later := ih ((inOrder.round positive limits frame).later step)
    rw [List.length_cons]
    rw [show ((index : Int) + (rest.length + 1 : Nat)) = (index + 1 : Nat) + rest.length by omega]
    exact later

theorem InOrder.frames_last (window : 0 ≤ limits.nWindow) {rest : List Frame} {index : Nat}
    (inOrder : state.InOrder (limits.nWindow * index)) (more : rest ≠ []) :
    (state.frames limits index rest).InOrder (limits.nWindow * (index + rest.length - 1)) := by
  induction rest generalizing index state with
  | nil => exact absurd rfl more
  | cons frame rest ih =>
    have positive : 0 ≤ limits.nWindow * index := Int.mul_nonneg window (Int.natCast_nonneg _)
    have step : limits.nWindow * index ≤ limits.nWindow * (index + 1 : Nat) :=
      Int.mul_le_mul_of_nonneg_left (by omega) window
    have here := inOrder.round positive limits frame
    rw [List.length_cons]
    cases rest with
    | nil =>
      rw [List.length_nil, show ((index : Int) + (0 + 1 : Nat) - 1) = index by omega]
      exact here
    | cons next rest =>
      have later := ih (here.later step) (List.cons_ne_nil next rest)
      rw [List.length_cons] at later
      rw [List.length_cons, show ((index : Int) + (rest.length + 1 + 1 : Nat) - 1) =
        (index + 1 : Nat) + (rest.length + 1 : Nat) - 1 by omega]
      exact later

theorem InOrder.start_le (inOrder : state.InOrder currSample) {limits : Limits}
    {audioLengthSamples : Int} {segment : Interval}
    (member : segment ∈ state.finish limits audioLengthSamples) : segment.start ≤ currSample := by
  have pushed (member : segment ∈ state.speeches) : segment.start ≤ currSample := by
    have bounds := inOrder.ordered.mem (Int.le_refl _) member
    split at bounds
    · rename_i inside
      have started := inOrder.start inside
      omega
    · omega
  unfold Scan.finish at member
  split at member
  · rename_i last
    rcases List.mem_append.mp member with earlier | here
    · exact pushed earlier
    · obtain rfl := List.mem_singleton.mp here
      exact (inOrder.start (inOrder.both ▸ last.1)).2
  · exact pushed member

theorem InOrder.finish (inOrder : state.InOrder currSample) (limits : Limits) :
    Interval.Ordered 0 currSample 0 (state.finish limits currSample) := by
  have ordered := inOrder.ordered
  unfold Scan.finish
  split
  · rename_i last
    have inside : state.isSpeechSegment = true := inOrder.both ▸ last.1
    exact inOrder.ordered_push inside (inOrder.start inside).2 (Int.le_refl _)
  · cases inside : state.isSpeechSegment with
    | false =>
      rw [inside] at ordered
      exact ordered
    | true =>
      rw [inside] at ordered
      exact ordered.of_bounds (Int.le_refl _) (inOrder.start inside).2

end Scan

/-- Whatever the probabilities are, the segments follow one another inside the audio. -/
theorem speeches_ordered {limits : Limits} (window : 0 ≤ limits.nWindow) (frames : List Frame) :
    Interval.Ordered 0 (frames.length * limits.nWindow) 0 (speeches limits frames) := by
  have start : Scan.start.InOrder (limits.nWindow * (0 : Nat)) := by
    rw [Int.natCast_zero, Int.mul_zero]
    exact Scan.inOrder_start
  have last := (Scan.InOrder.frames window start : (Scan.start.frames limits 0 frames).InOrder _).finish
    limits
  rw [Int.natCast_zero, Int.zero_add, Int.mul_comm] at last
  exact last

/-- Every segment begins at the last frame or before. -/
theorem speeches_start_le {limits : Limits} (window : 0 ≤ limits.nWindow) {frames : List Frame}
    {segment : Interval} (member : segment ∈ speeches limits frames) :
    segment.start ≤ (frames.length - 1) * limits.nWindow := by
  have start : Scan.start.InOrder (limits.nWindow * (0 : Nat)) := by
    rw [Int.natCast_zero, Int.mul_zero]
    exact Scan.inOrder_start
  cases frames with
  | nil => cases member
  | cons frame rest =>
    have last : (Scan.start.frames limits 0 (frame :: rest)).InOrder _ :=
      Scan.InOrder.frames_last window start (List.cons_ne_nil frame rest)
    rw [Int.natCast_zero, Int.zero_add, Int.mul_comm] at last
    exact last.start_le member

end LocalWhisper.WhisperVad
