import LocalWhisper.WhisperVad.SpeechFilter
import LocalWhisper.WhisperVad.Mapping

/-! `whisper_vad`: the speech segments of the audio with short silences between them, and
the table that leads from times in it back to the original ones. -/

namespace LocalWhisper.WhisperVad

open LocalWhisper.Machine
open LocalWhisper.Record.Pcm (truncate)

variable {Sample State : Type}

/-- Why `whisper_vad` does not return. -/
inductive VadFailure where
  | lengthError
  | outOfBounds
  deriving DecidableEq, Repr

/-- `overlap_seconds * WHISPER_SAMPLE_RATE`, a `float` product that an `int` can hold. -/
def overlapSamples (samplesOverlap : Rat) : Int :=
  truncate (binary32 (samplesOverlap * sampleRate))

/-- `0.1 * WHISPER_SAMPLE_RATE`, a `double` product. -/
def silenceSamples : Nat := (truncate (binary64 (binary64 (1 / 10) * sampleRate))).toNat

/-- The length of the segments as the first loop counts it. -/
def filteredLength (overlap nSamples : Int) : List Interval → Int
  | [] => 0
  | segment :: rest =>
    let finish := csToSamples segment.finish
    int (min (if rest.isEmpty then finish else int (finish + overlap)) (nSamples - 1) -
      csToSamples segment.start + filteredLength overlap nSamples rest)

/-- `total_samples_needed`. -/
def totalSamplesNeeded (overlap nSamples : Int) (segments : List Interval) : Int :=
  int (filteredLength overlap nSamples segments +
    int (if 1 < segments.length then ((segments.length - 1) * silenceSamples : Nat) else 0))

/-- `memcpy` or `memset` into `filtered_samples`. -/
def writeSamples (buffer : List Sample) (offset : Nat) (data : List Sample) :
    Except VadFailure (List Sample) :=
  if offset + data.length ≤ buffer.length then
    .ok (buffer.take offset ++ data ++ buffer.drop (offset + data.length))
  else .error .outOfBounds

/-- The part of the audio that `memcpy` reads. -/
def readSamples (samples : List Sample) (start length : Int) : Except VadFailure (List Sample) :=
  if 0 ≤ start ∧ start + length ≤ samples.length then
    .ok ((samples.drop start.toNat).take length.toNat)
  else .error .outOfBounds

/-- The variables of the second loop. -/
structure Filling (Sample : Type) where
  filteredSamples : List Sample
  offset : Nat
  table : List VadTimeMapping

/-- Add silence after this segment (except after the last segment). -/
def Filling.addSilence [Zero Sample] (filling : Filling Sample) (segment : Interval) :
    Option Interval → Except VadFailure (Filling Sample)
  | none => .ok filling
  | some next => do
    let filtered ← writeSamples filling.filteredSamples filling.offset
      (List.replicate silenceSamples 0)
    return {
      filteredSamples := filtered
      offset := filling.offset + silenceSamples
      table := filling.table ++
        [⟨samplesToCs filling.offset, segment.finish⟩,
          ⟨samplesToCs (filling.offset + silenceSamples : Nat), next.start⟩] }

/-- `segment_start_samples`, `segment_end_samples` and, with the overlap, how far the
segment is copied. -/
structure Extent where
  start : Int
  finish : Int
  beyond : Int

def extentOf (overlap last : Int) (isLast : Bool) (segment : Interval) : Extent :=
  let finish := min (csToSamples segment.finish) last
  ⟨min (csToSamples segment.start) last, finish,
    if isLast then finish else min (int (finish + overlap)) last⟩

/-- Add the segment boundaries to the table and copy this speech segment. -/
def Filling.copySegment (filling : Filling Sample) (samples : List Sample) (extent : Extent)
    (segment : Interval) : Except VadFailure (Filling Sample) := do
  let originalLength := extent.finish - extent.start
  let length := extent.beyond - extent.start
  let data ← readSamples samples extent.start length
  let filtered ← writeSamples filling.filteredSamples filling.offset data
  return {
    filteredSamples := filtered
    offset := filling.offset + length.toNat
    table := filling.table ++
      [⟨samplesToCs filling.offset, segment.start⟩,
        ⟨samplesToCs (filling.offset + originalLength), segment.finish⟩] }

/-- The second loop. -/
def fillSegments [Zero Sample] (samples : List Sample) (overlap : Int) :
    List Interval → Filling Sample → Except VadFailure (Filling Sample)
  | [], filling => .ok filling
  | segment :: rest, filling =>
    let extent := extentOf overlap (samples.length - 1) rest.isEmpty segment
    if 0 < extent.beyond - extent.start then do
      let filling ← filling.copySegment samples extent segment
      let filling ← filling.addSilence segment rest.head?
      fillSegments samples overlap rest filling
    else fillSegments samples overlap rest filling

/-- What `whisper_vad` leaves behind. -/
structure Processed (Sample : Type) extends WhisperState where
  filteredSamples : List Sample

/-- `whisper_vad` with the segments it has found. `std::sort` is the parameter `sort`. -/
def processSegments [Zero Sample] (sort : List VadTimeMapping → List VadTimeMapping)
    (overlap : Int) (samples : List Sample) (segments : List Interval) :
    Except VadFailure (Processed Sample) :=
  if segments.isEmpty then .ok ⟨⟨false, []⟩, []⟩
  else
    let total := totalSamplesNeeded overlap samples.length segments
    if total < 0 then .error .lengthError
    else do
      let filling ← fillSegments samples overlap segments ⟨List.replicate total.toNat 0, 0, []⟩
      return ⟨⟨true, uniqueTimes (sort filling.table)⟩, filling.filteredSamples⟩

/-- `whisper_vad`; nothing when the speech could not be detected. -/
def whisperVad [Zero Sample] (sort : List VadTimeMapping → List VadTimeMapping)
    (network : Network Sample State) (context : VadContext) (params : VadParams)
    (samples : List Sample) : Except VadFailure (Option (Processed Sample × VadContext)) :=
  match context.detectSpeech network samples with
  | none => .ok none
  | some context => do
    let processed ← processSegments sort (overlapSamples params.samplesOverlap) samples
      (whisperVadSegmentsFromProbs context.nWindow params context.probs)
    return some (processed, context)

theorem silenceSamples_eq : silenceSamples = 1600 := by
  have tenth : binary64 (1 / 10) = (7205759403792794 : Int) * 2 ^ (-56 : Int) :=
    roundBinary_eq (by norm_num) (by norm_num) (by norm_num [abs_lt])
  have product : binary64 (binary64 (1 / 10) * sampleRate) =
      (7036874417766400 : Int) * 2 ^ (-42 : Int) := by
    rw [tenth]
    exact roundBinary_eq (by norm_num [sampleRate]) (by norm_num [sampleRate])
      (by norm_num [sampleRate, abs_lt])
  have whole : ((7036874417766400 : Int) * 2 ^ (-42 : Int) : Rat) = (1600 : Int) := by norm_num
  rw [silenceSamples, product, whole, truncate, if_pos (by norm_num), Rat.floor_intCast]
  rfl

def Extent.audio (extent : Extent) (samples : List Sample) : List Sample :=
  (samples.drop extent.start.toNat).take (extent.beyond - extent.start).toNat

def silenceAfter [Zero Sample] : Option Interval → List Sample
  | none => []
  | some _ => List.replicate silenceSamples 0

def silenceTimes (offset : Nat) (segment : Interval) : Option Interval → List VadTimeMapping
  | none => []
  | some next =>
    [⟨samplesToCs offset, segment.finish⟩,
      ⟨samplesToCs (offset + silenceSamples : Nat), next.start⟩]

def Extent.times (extent : Extent) (offset : Nat) (segment : Interval) : List VadTimeMapping :=
  [⟨samplesToCs offset, segment.start⟩,
    ⟨samplesToCs (offset + (extent.finish - extent.start)), segment.finish⟩]

/-- The audio and the table of the segments from an offset on. -/
def layout [Zero Sample] (samples : List Sample) (overlap : Int) :
    Nat → List Interval → List Sample × List VadTimeMapping
  | _, [] => ([], [])
  | offset, segment :: rest =>
    let extent := extentOf overlap (samples.length - 1) rest.isEmpty segment
    if 0 < extent.beyond - extent.start then
      let audio := extent.audio samples
      let silence := silenceAfter rest.head?
      let later := layout samples overlap (offset + audio.length + silence.length) rest
      (audio ++ silence ++ later.1,
        extent.times offset segment ++ silenceTimes (offset + audio.length) segment rest.head? ++
          later.2)
    else layout samples overlap offset rest

def Filling.of [Zero Sample] (written : List Sample) (room : Nat) (table : List VadTimeMapping) :
    Filling Sample :=
  ⟨written ++ List.replicate room 0, written.length, table⟩

theorem Extent.audio_length {extent : Extent} {samples : List Sample} (start : 0 ≤ extent.start)
    (forward : extent.start ≤ extent.beyond) (inside : extent.beyond ≤ samples.length) :
    (extent.audio samples).length = (extent.beyond - extent.start).toNat := by
  rw [Extent.audio, List.length_take, List.length_drop]
  omega

theorem Extent.audio_getElem? {extent : Extent} {samples : List Sample} {index : Nat}
    (inside : index < (extent.audio samples).length) :
    (extent.audio samples)[index]? = samples[extent.start.toNat + index]? := by
  rw [Extent.audio, List.length_take] at inside
  rw [Extent.audio, List.getElem?_take_of_lt (by omega), List.getElem?_drop]

section Filling

variable [Zero Sample] {samples written data : List Sample} {overlap : Int} {room : Nat}
  {table : List VadTimeMapping} {segment : Interval} {rest segments : List Interval}
  {extent : Extent}

theorem writeSamples_of (fits : data.length ≤ room) :
    writeSamples (written ++ List.replicate room (0 : Sample)) written.length data =
      .ok ((written ++ data) ++ List.replicate (room - data.length) 0) := by
  rw [writeSamples, if_pos (by simp only [List.length_append, List.length_replicate]; omega),
    List.take_left, List.drop_length_add_append, List.drop_replicate]

theorem Filling.copySegment_of (start : 0 ≤ extent.start) (forward : extent.start ≤ extent.beyond)
    (inside : extent.beyond ≤ samples.length) (fits : (extent.audio samples).length ≤ room) :
    (Filling.of written room table).copySegment samples extent segment =
      .ok (.of (written ++ extent.audio samples) (room - (extent.audio samples).length)
        (table ++ extent.times written.length segment)) := by
  have counted := extent.audio_length start forward inside
  have read : readSamples samples extent.start (extent.beyond - extent.start) =
      .ok (extent.audio samples) := if_pos ⟨start, by omega⟩
  have wrote : writeSamples (written ++ List.replicate room 0) written.length
      (extent.audio samples) = _ := writeSamples_of fits
  simp only [Filling.copySegment, Filling.of, read, bind, Except.bind, wrote, pure, Except.pure,
    ← counted, List.length_append, Extent.times]

theorem Filling.addSilence_of {next : Option Interval}
    (fits : (silenceAfter next : List Sample).length ≤ room) :
    (Filling.of written room table).addSilence segment next =
      .ok (.of (written ++ silenceAfter next) (room - (silenceAfter next : List Sample).length)
        (table ++ silenceTimes written.length segment next)) := by
  cases next with
  | none =>
    simp only [Filling.addSilence, silenceAfter, silenceTimes, List.append_nil, List.length_nil,
      Nat.sub_zero]
  | some next =>
    have wrote : writeSamples (written ++ List.replicate room 0) written.length
        (silenceAfter (some next)) = _ := writeSamples_of fits
    simp only [silenceAfter] at wrote
    simp only [Filling.addSilence, Filling.of, silenceAfter, bind, Except.bind, wrote, pure,
      Except.pure, silenceTimes, List.length_append, List.length_replicate]

section Room

variable {last upper lower : Int} {isLast : Bool}

theorem extentOf_start (inside : csToSamples segment.start ≤ last) :
    (extentOf overlap last isLast segment).start = csToSamples segment.start :=
  Int.min_eq_left inside

theorem extentOf_beyond (nonneg : 0 ≤ overlap) (least : -1 ≤ last)
    (positive : 0 ≤ csToSamples segment.finish)
    (room : csToSamples segment.finish + overlap < 2 ^ 31) :
    (extentOf overlap last isLast segment).beyond =
      min (if isLast then csToSamples segment.finish else csToSamples segment.finish + overlap)
        last := by
  unfold extentOf
  have same : int (min (csToSamples segment.finish) last + overlap) =
      min (csToSamples segment.finish) last + overlap := int_eq (by omega) (by omega)
  simp only [same]
  split <;> omega

/-- `total_samples_needed` where nothing wraps around. -/
def samplesNeeded (overlap nSamples : Int) : List Interval → Int
  | [] => 0
  | [segment] => min (csToSamples segment.finish) (nSamples - 1) - csToSamples segment.start
  | segment :: next :: rest =>
    min (csToSamples segment.finish + overlap) (nSamples - 1) - csToSamples segment.start +
      silenceSamples + samplesNeeded overlap nSamples (next :: rest)

theorem totalSamplesNeeded_eq_int {nSamples : Int} (nonneg : 0 ≤ overlap) (positive : 0 ≤ lower)
    (ordered : Interval.Ordered 0 upper lower segments)
    (room : csToSamples upper + overlap < 2 ^ 31) :
    totalSamplesNeeded overlap nSamples segments = int (samplesNeeded overlap nSamples segments) := by
  induction segments generalizing lower with
  | nil => rfl
  | cons segment rest ih =>
    obtain ⟨after, forward, inside, later⟩ := ordered
    cases rest with
    | nil =>
      rw [totalSamplesNeeded, filteredLength, filteredLength, samplesNeeded]
      simp only [List.isEmpty_nil, ↓reduceIte, List.length_singleton, Nat.lt_irrefl, Int.add_zero]
      rw [show int 0 = 0 from rfl, Int.add_zero]
      exact Int.bmod_bmod
    | cons next rest =>
      have ends := csToSamples_nonneg (show 0 ≤ segment.finish by omega)
      have bound := csToSamples_mono (show 0 ≤ segment.finish by omega) inside
      have silences : (if 1 < (next :: rest).length then
          (((next :: rest).length - 1) * silenceSamples : Nat) else 0 : Int) =
            (rest.length * silenceSamples : Nat) := by
        cases rest with
        | nil => simp
        | cons other rest => rfl
      have more : ((rest.length + 1) * silenceSamples : Nat) =
          (silenceSamples : Int) + (rest.length * silenceSamples : Nat) := by
        push_cast
        ring
      have same := ih (by omega) later
      rw [totalSamplesNeeded, silences, int_add_int] at same
      have unwrapped : int (csToSamples segment.finish + overlap) = csToSamples segment.finish + overlap :=
        int_eq (by omega) (by omega)
      rw [totalSamplesNeeded, filteredLength, if_neg (by simp), unwrapped,
        if_pos (by simp), show (segment :: next :: rest).length - 1 = rest.length + 1 from rfl, more,
        int_add_int, int_int_add, samplesNeeded, ← int_add_int _ (samplesNeeded _ _ _), ← same,
        int_add_int]
      congr 1
      ring

/-- The room that a list of segments needs is hardly more than the audio they span, with
the overlap and the silence between them. -/
theorem samplesNeeded_le {nSamples : Int} (positive : 0 ≤ lower)
    (ordered : Interval.Ordered 0 upper lower segments) :
    samplesNeeded overlap nSamples segments ≤ max 0 (csToSamples upper - csToSamples lower) +
      ((segments.length - 1 : Nat) : Int) * (overlap + silenceSamples) := by
  induction segments generalizing lower with
  | nil => simp [samplesNeeded]
  | cons segment rest ih =>
    obtain ⟨after, forward, inside, later⟩ := ordered
    have first := csToSamples_mono positive after
    have ends := csToSamples_mono (show 0 ≤ segment.finish by omega) inside
    cases rest with
    | nil =>
      rw [samplesNeeded, List.length_singleton, Nat.sub_self, Int.natCast_zero, Int.zero_mul]
      omega
    | cons next rest =>
      have bound := ih (by omega) later
      rw [Int.add_zero] at bound
      have more : (((segment :: next :: rest).length - 1 : Nat) : Int) * (overlap + silenceSamples) =
          overlap + silenceSamples +
            (((next :: rest).length - 1 : Nat) : Int) * (overlap + silenceSamples) := by
        simp only [List.length_cons, Nat.add_sub_cancel]
        push_cast
        ring
      rw [samplesNeeded, more]
      omega

theorem length_layout_le (nonneg : 0 ≤ overlap) (positive : 0 ≤ lower) (found : segments ≠ [])
    (ordered : Interval.Ordered 0 upper lower segments)
    (room : csToSamples upper + overlap < 2 ^ 31)
    (starts : ∀ segment ∈ segments, csToSamples segment.start ≤ (samples.length : Int) - 1)
    (offset : Nat) :
    ((layout samples overlap offset segments).1.length : Int) ≤
      samplesNeeded overlap samples.length segments := by
  induction segments generalizing offset lower with
  | nil => exact absurd rfl found
  | cons segment rest ih =>
    obtain ⟨after, forward, inside, later⟩ := ordered
    have begins := starts segment List.mem_cons_self
    have first := csToSamples_nonneg (show 0 ≤ segment.start by omega)
    have ends := csToSamples_mono (by omega) forward
    have below := csToSamples_mono (show 0 ≤ segment.finish by omega) inside
    obtain ⟨extent, extentIs⟩ : ∃ extent,
        extent = extentOf overlap (samples.length - 1) rest.isEmpty segment := ⟨_, rfl⟩
    have start : extent.start = csToSamples segment.start := by rw [extentIs, extentOf_start begins]
    have beyond : extent.beyond =
        min (if rest.isEmpty then csToSamples segment.finish
          else csToSamples segment.finish + overlap) (samples.length - 1) := by
      rw [extentIs, extentOf_beyond nonneg (by omega) (by omega) (by omega)]
    have forwards : extent.start ≤ extent.beyond ∧ extent.beyond ≤ samples.length := by
      rw [start, beyond]
      split <;> omega
    have audio : (extent.audio samples).length = (extent.beyond - extent.start).toNat :=
      extent.audio_length (by omega) forwards.1 forwards.2
    simp only [layout, ← extentIs]
    cases rest with
    | nil =>
      rw [samplesNeeded]
      simp only [List.isEmpty_nil, ↓reduceIte] at beyond
      split
      · simp only [layout, List.head?_nil, silenceAfter, List.append_nil, audio]
        omega
      · simp only [layout, List.length_nil]
        omega
    | cons next rest =>
      have remaining := ih (by omega) (List.cons_ne_nil next rest) later
        fun segment member => starts segment (List.mem_cons_of_mem _ member)
      rw [samplesNeeded]
      simp only [List.isEmpty_cons, Bool.false_eq_true, ↓reduceIte] at beyond
      split
      · have rest := remaining (offset + (extent.audio samples).length +
          (silenceAfter (next :: rest).head? : List Sample).length)
        simp only [List.length_append, audio] at rest ⊢
        simp only [List.head?_cons, silenceAfter, List.length_replicate] at rest ⊢
        omega
      · have rest := remaining offset
        omega

end Room

theorem fillSegments_of (audio : samples ≠ []) (positive : ∀ segment ∈ segments, 0 ≤ segment.start)
    (fits : (layout samples overlap written.length segments).1.length ≤ room) :
    fillSegments samples overlap segments (.of written room table) =
      .ok (.of (written ++ (layout samples overlap written.length segments).1)
        (room - (layout samples overlap written.length segments).1.length)
        (table ++ (layout samples overlap written.length segments).2)) := by
  induction segments generalizing written room table with
  | nil => simp only [fillSegments, layout, List.append_nil, List.length_nil, Nat.sub_zero]
  | cons segment rest ih =>
    have later := fun segment member => positive segment (List.mem_cons_of_mem _ member)
    obtain ⟨extent, extentIs⟩ : ∃ extent,
        extent = extentOf overlap (samples.length - 1) rest.isEmpty segment := ⟨_, rfl⟩
    have size := List.length_pos_iff.mpr audio
    have start : 0 ≤ extent.start := by
      have first := csToSamples_nonneg (positive segment List.mem_cons_self)
      rw [extentIs, extentOf]
      simp only
      omega
    have inside : extent.beyond ≤ samples.length := by
      rw [extentIs, extentOf]
      simp only
      split <;> omega
    simp only [layout, ← extentIs] at fits ⊢
    rw [fillSegments]
    simp only [← extentIs]
    split
    · rename_i copied
      rw [if_pos copied] at fits
      simp only [List.length_append] at fits
      rw [Filling.copySegment_of start (by omega) inside (by omega)]
      simp only [bind, Except.bind]
      rw [Filling.addSilence_of (by omega)]
      simp only
      rw [ih later (by simp only [List.length_append]; omega)]
      simp only [List.length_append, List.append_assoc, Nat.add_assoc, Nat.sub_sub]
    · rename_i empty
      rw [if_neg empty] at fits
      exact ih later fits

theorem extentOf_forward {last : Int} {isLast : Bool} (nonneg : 0 ≤ overlap) (least : -1 ≤ last)
    (positive : 0 ≤ segment.start) (forward : segment.start ≤ segment.finish)
    (room : csToSamples segment.finish + overlap < 2 ^ 31)
    (isExtent : extent = extentOf overlap last isLast segment)
    (copied : 0 < extent.beyond - extent.start) :
    0 ≤ extent.start ∧ extent.start ≤ extent.finish ∧ extent.finish ≤ extent.beyond ∧
      extent.beyond ≤ last := by
  have first := csToSamples_nonneg positive
  have ends := csToSamples_mono positive forward
  have beyond := @extentOf_beyond overlap segment last isLast nonneg least (by omega) room
  rw [isExtent] at copied ⊢
  rw [beyond] at copied ⊢
  revert copied
  simp only [extentOf]
  split <;> omega

theorem layout_rising {upper lower : Int} (nonneg : 0 ≤ overlap) (positive : 0 ≤ lower)
    (ordered : Interval.Ordered 0 upper lower segments)
    (room : csToSamples upper + overlap < 2 ^ 31) (offset : Nat) :
    RisingTimes (layout samples overlap offset segments).2 ∧
      ∀ entry ∈ (layout samples overlap offset segments).2,
        samplesToCs offset ≤ entry.processedTime ∧ lower ≤ entry.originalTime := by
  induction segments generalizing offset lower with
  | nil => exact ⟨.nil, nofun⟩
  | cons segment rest ih =>
    obtain ⟨after, forward, inside, later⟩ := ordered
    obtain ⟨extent, extentIs⟩ : ∃ extent,
        extent = extentOf overlap (samples.length - 1) rest.isEmpty segment := ⟨_, rfl⟩
    simp only [layout, ← extentIs]
    split
    · rename_i copied
      have below := csToSamples_mono (show 0 ≤ segment.finish by omega) inside
      obtain ⟨start, finish, beyond, last⟩ :=
        extentOf_forward nonneg (by omega) (by omega) forward (by omega) extentIs copied
      have audio : (extent.audio samples).length = (extent.beyond - extent.start).toNat :=
        extent.audio_length start (by omega) (by omega)
      have toFinish : samplesToCs offset ≤ samplesToCs (offset + (extent.finish - extent.start)) :=
        samplesToCs_mono (by omega) (by omega)
      have toBeyond : samplesToCs (offset + (extent.finish - extent.start)) ≤
          samplesToCs (offset + (extent.audio samples).length : Nat) :=
        samplesToCs_mono (by omega) (by omega)
      have rising : RisingTimes (extent.times offset segment ++
          silenceTimes (offset + (extent.audio samples).length) segment rest.head? ++
          (layout samples overlap (offset + (extent.audio samples).length +
            (silenceAfter rest.head? : List Sample).length) rest).2) := by
        cases rest with
        | nil => exact .cons (List.pairwise_singleton _ _) toFinish forward
        | cons next more =>
          obtain ⟨nextAfter, nextInside⟩ := later
          obtain ⟨rising, bounds⟩ := ih (show 0 ≤ next.start by omega) ⟨Int.le_refl _, nextInside⟩
            (offset + (extent.audio samples).length +
              (silenceAfter (next :: more).head? : List Sample).length)
          have toNext : samplesToCs (offset + (extent.audio samples).length : Nat) ≤
              samplesToCs (offset + (extent.audio samples).length + silenceSamples : Nat) :=
            samplesToCs_mono (by omega) (by omega)
          have silence : (silenceAfter (next :: more).head? : List Sample).length =
              silenceSamples := List.length_replicate
          rw [silence] at rising bounds ⊢
          exact .cons (.cons (.cons (List.pairwise_cons.mpr ⟨bounds, rising⟩) toNext (by
            simp only
            omega)) toBeyond (Int.le_refl _)) toFinish forward
      refine ⟨rising, fun entry member => ?_⟩
      rcases List.mem_cons.mp member with rfl | member
      · exact ⟨Int.le_refl _, after⟩
      · have bounds := (List.pairwise_cons.mp rising).1 entry member
        exact ⟨bounds.1, Int.le_trans after bounds.2⟩
    · obtain ⟨rising, bounds⟩ := ih (by omega) later offset
      refine ⟨rising, fun entry member => ?_⟩
      obtain ⟨processed, original⟩ := bounds entry member
      exact ⟨processed, by omega⟩

/-- What `whisper_vad` makes of its segments: their layout, and zeros where the buffer is
longer. -/
def processedOf (sort : List VadTimeMapping → List VadTimeMapping) (overlap : Int)
    (samples : List Sample) (segments : List Interval) : Processed Sample where
  hasVadSegments := true
  vadMappingTable := uniqueTimes (sort (layout samples overlap 0 segments).2)
  filteredSamples := (layout samples overlap 0 segments).1 ++ List.replicate
    ((totalSamplesNeeded overlap samples.length segments).toNat -
      (layout samples overlap 0 segments).1.length) 0

private theorem processSegments_of {upper : Int} (sort : List VadTimeMapping → List VadTimeMapping)
    (nonneg : 0 ≤ overlap) (found : segments ≠ []) (ordered : Interval.Ordered 0 upper 0 segments)
    (room : csToSamples upper + overlap < 2 ^ 31)
    (fits : samplesNeeded overlap samples.length segments < 2 ^ 31)
    (starts : ∀ segment ∈ segments, csToSamples segment.start ≤ (samples.length : Int) - 1) :
    processSegments sort overlap samples segments =
      .ok (processedOf sort overlap samples segments) := by
  have positive (segment : Interval) (member : segment ∈ segments) : 0 ≤ segment.start :=
    (ordered.mem (Int.le_refl _) member).1
  have audio : samples ≠ [] := by
    rintro rfl
    obtain ⟨segment, member⟩ := List.exists_mem_of_ne_nil segments found
    have first := csToSamples_nonneg (positive segment member)
    have begins := starts segment member
    simp only [List.length_nil] at begins
    omega
  have laid := length_layout_le nonneg (Int.le_refl 0) found ordered room starts 0
  have unwrapped := @totalSamplesNeeded_eq_int overlap segments upper 0 samples.length nonneg
    (Int.le_refl 0) ordered room
  rw [int_eq (by omega) fits] at unwrapped
  rw [← unwrapped] at laid
  obtain ⟨total, totalIs⟩ : ∃ total, totalSamplesNeeded overlap samples.length segments = total :=
    ⟨_, rfl⟩
  rw [totalIs] at laid
  have filled : fillSegments samples overlap segments ⟨List.replicate total.toNat 0, 0, []⟩ =
      .ok (.of (layout samples overlap 0 segments).1
        (total.toNat - (layout samples overlap 0 segments).1.length)
        (layout samples overlap 0 segments).2) :=
    @fillSegments_of Sample _ samples [] overlap total.toNat [] segments audio positive
      (by rw [List.length_nil]; omega)
  simp only [processSegments, processedOf, totalIs]
  rw [if_neg (by simpa using found), if_neg (by omega), filled]
  rfl

theorem samplesToCs_lt {first second : Int} (nonneg : 0 ≤ first) (apart : first + 1600 ≤ second)
    (small : second ≤ 2 ^ 31) : samplesToCs first < samplesToCs second := by
  have firstNear := samplesToCs_near nonneg (by omega)
  have secondNear := samplesToCs_near (show 0 ≤ second by omega) small
  omega

/-- Where a segment stands in a layout that begins at `first`: its entries of the table
with those before and after them, and its samples. -/
structure Placed (samples : List Sample) (first : Nat)
    (layout : List Sample × List VadTimeMapping) (segment : Interval) (extent : Extent)
    (offset : Nat) : Prop where
  after : first ≤ offset
  times : ∃ before after, layout.2 = before ++ extent.times offset segment ++ after ∧
    (∀ entry ∈ before,
      entry.processedTime < samplesToCs offset ∨ entry.originalTime = segment.start) ∧
    ∀ entry ∈ after,
      samplesToCs (offset + (extent.finish - extent.start)) < entry.processedTime ∨
        entry.originalTime = segment.finish
  copied : ∀ index < (extent.audio samples).length,
    layout.1[offset - first + index]? = samples[extent.start.toNat + index]?

theorem placed_head {first : Nat} {next : Option Interval} {later : List Sample}
    {laterTimes : List VadTimeMapping}
    (forward : samplesToCs (first + (extent.finish - extent.start)) ≤
      samplesToCs (first + (extent.audio samples).length : Nat))
    (silence : next.isSome → samplesToCs (first + (extent.audio samples).length : Nat) <
      samplesToCs (first + (extent.audio samples).length + silenceSamples : Nat))
    (bounds : ∀ entry ∈ laterTimes, next.isSome ∧
      samplesToCs (first + (extent.audio samples).length + silenceSamples : Nat) ≤
        entry.processedTime) :
    Placed samples first (extent.audio samples ++ silenceAfter next ++ later,
      extent.times first segment ++
        silenceTimes (first + (extent.audio samples).length) segment next ++ laterTimes)
      segment extent first where
  after := Nat.le_refl _
  times := by
    refine ⟨[], _, List.append_assoc _ _ _, nofun, fun entry member => ?_⟩
    rcases List.mem_append.mp member with here | later
    · cases next with
      | none => cases here
      | some next =>
        have wide := silence rfl
        rcases List.mem_cons.mp here with rfl | here
        · exact .inr rfl
        · obtain rfl := List.mem_singleton.mp here
          exact .inl (by simp only; omega)
    · obtain ⟨more, bound⟩ := bounds entry later
      have wide := silence more
      exact .inl (by omega)
  copied index inside := by
    rw [Nat.sub_self, Nat.zero_add, List.append_assoc, List.getElem?_append_left inside,
      Extent.audio_getElem? inside]

omit [Zero Sample] in
/-- A segment further on keeps its place. -/
theorem Placed.later {first middle offset : Nat} {audio : List Sample}
    {times : List VadTimeMapping} {rest : List Sample × List VadTimeMapping}
    (placed : Placed samples middle rest segment extent offset)
    (reach : middle = first + audio.length)
    (earlier : ∀ entry ∈ times,
      entry.processedTime < samplesToCs offset ∨ entry.originalTime = segment.start) :
    Placed samples first (audio ++ rest.1, times ++ rest.2) segment extent offset where
  after := by
    have after := placed.after
    omega
  times := by
    obtain ⟨before, after, split, before_, after_⟩ := placed.times
    refine ⟨times ++ before, after, ?_, fun entry member => ?_, after_⟩
    · simp only [split, List.append_assoc]
    · rcases List.mem_append.mp member with here | there
      · exact earlier entry here
      · exact before_ entry there
  copied index inside := by
    have after := placed.after
    rw [List.getElem?_append_right (by omega), ← placed.copied index inside]
    congr 1
    omega

private theorem exists_placed {upper lower : Int} (nonneg : 0 ≤ overlap) (positive : 0 ≤ lower)
    (ordered : Interval.Ordered 0 upper lower segments)
    (fits : csToSamples upper + overlap < 2 ^ 31)
    (long : ∀ segment ∈ segments, csToSamples segment.start < csToSamples segment.finish)
    {offset : Nat}
    (small : offset + (layout samples overlap offset segments).1.length ≤ 2 ^ 31)
    (member : segment ∈ segments)
    (begins : csToSamples segment.start < (samples.length : Int) - 1) :
    ∃ isLast place, Placed samples offset (layout samples overlap offset segments) segment
        (extentOf overlap (samples.length - 1) isLast segment) place ∧
      (samplesToCs offset < samplesToCs place ∨ segments.head? = some segment) := by
  induction segments generalizing offset lower with
  | nil => cases member
  | cons first rest ih =>
    obtain ⟨after, forward, inside, later⟩ := ordered
    obtain ⟨extent, extentIs⟩ : ∃ extent,
        extent = extentOf overlap (samples.length - 1) rest.isEmpty first := ⟨_, rfl⟩
    have firstLong := long first List.mem_cons_self
    -- A segment after the first one begins where that one ends or later.
    have firstBegins : csToSamples first.start < (samples.length : Int) - 1 := by
      rcases List.mem_cons.mp member with rfl | further
      · exact begins
      · have starts := (later.mem (Int.le_refl _) further).1
        have bound := csToSamples_mono (show 0 ≤ first.finish by omega)
          (show first.finish ≤ segment.start by omega)
        omega
    have positiveStart := csToSamples_nonneg (show 0 ≤ first.start by omega)
    have below := csToSamples_mono (show 0 ≤ first.finish by omega) inside
    have copied : 0 < extent.beyond - extent.start := by
      rw [extentIs, extentOf_start (Int.le_of_lt firstBegins),
        extentOf_beyond nonneg (by omega) (by omega) (by omega)]
      split <;> omega
    obtain ⟨start, finish, beyond, last⟩ :=
      extentOf_forward nonneg (by omega) (by omega) forward (by omega) extentIs copied
    have audio : (extent.audio samples).length = (extent.beyond - extent.start).toNat :=
      extent.audio_length start (by omega) (by omega)
    simp only [layout, ← extentIs] at small ⊢
    rw [if_pos copied] at small ⊢
    simp only [List.length_append] at small
    have toFinish : samplesToCs (offset + (extent.finish - extent.start)) ≤
        samplesToCs (offset + (extent.audio samples).length : Nat) :=
      samplesToCs_mono (by omega) (by omega)
    cases rest with
    | nil =>
      obtain rfl := List.mem_singleton.mp member
      exact ⟨true, offset, extentIs ▸ placed_head toFinish nofun nofun, .inr rfl⟩
    | cons next more =>
      have silence : (silenceAfter (next :: more).head? : List Sample).length = silenceSamples :=
        List.length_replicate
      rw [silence] at small
      have wide : samplesToCs (offset + (extent.audio samples).length : Nat) <
          samplesToCs (offset + (extent.audio samples).length + silenceSamples : Nat) :=
        samplesToCs_lt (by omega) (by rw [silenceSamples_eq]; omega) (by omega)
      rw [silence]
      rcases List.mem_cons.mp member with rfl | further
      · refine ⟨false, offset, extentIs ▸ placed_head toFinish (fun _ => wide) ?_, .inr rfl⟩
        intro entry isLater
        exact ⟨rfl, ((layout_rising nonneg (by omega) later fits _).2 entry isLater).1⟩
      · have room : offset + (extent.audio samples).length + silenceSamples +
            (layout samples overlap (offset + (extent.audio samples).length + silenceSamples)
              (next :: more)).1.length ≤ 2 ^ 31 := by omega
        obtain ⟨isLast, place, placed, distance⟩ := ih (by omega) later
          (fun segment member => long segment (List.mem_cons_of_mem _ member)) room further
        have reached : samplesToCs (offset + (extent.audio samples).length + silenceSamples : Nat) ≤
            samplesToCs place := samplesToCs_mono (by omega) (Int.ofNat_le.mpr placed.after)
        have toFirst : samplesToCs offset ≤ samplesToCs (offset + (extent.finish - extent.start)) :=
          samplesToCs_mono (by omega) (by omega)
        refine ⟨isLast, place, placed.later ?_ fun entry member => ?_, .inl (by omega)⟩
        · rw [List.length_append, silence]
          omega
        · simp only [Extent.times, List.head?_cons, silenceTimes, List.cons_append, List.nil_append,
            List.mem_cons, List.not_mem_nil, or_false] at member
          rcases member with rfl | rfl | rfl | rfl
          · exact .inl (by simp only; omega)
          · exact .inl (by simp only; omega)
          · exact .inl (by simp only; omega)
          · rcases distance with before | here
            · exact .inl before
            · obtain rfl := Option.some.inj here
              exact .inr rfl

omit [Zero Sample] in
/-- The time of a sample of a segment, as it is read off the table, is off by at most two
centiseconds and by what the end of the segment lies beyond the audio. -/
theorem Placed.near {sorted : List VadTimeMapping} {placement : List Sample × List VadTimeMapping}
    {offset sample : Nat} {isLast : Bool}
    (placed : Placed samples 0 placement segment
      (extentOf overlap (samples.length - 1) isLast segment) offset)
    (nonneg : 0 ≤ overlap) (positive : 0 ≤ segment.start)
    (small : 160 * segment.finish + overlap < 2 ^ 31)
    (fits : placement.1.length ≤ 2 ^ 31) (rising : RisingTimes placement.2)
    (same : sorted.Perm placement.2)
    (inOrder : sorted.Pairwise fun first second => first.processedTime ≤ second.processedTime)
    (after : 160 * segment.start ≤ sample) (before : sample < 160 * segment.finish)
    (inside : sample + 1 < samples.length) :
    ∃ place : Nat, placement.1[place]? = samples[sample]? ∧
      -320 ≤ 160 * WhisperState.original ⟨true, uniqueTimes sorted⟩ (samplesToCs place) - sample ∧
      160 * WhisperState.original ⟨true, uniqueTimes sorted⟩ (samplesToCs place) - sample ≤
        320 + max 0 (160 * segment.finish - (samples.length - 1)) := by
  obtain ⟨extent, extentIs⟩ : ∃ extent,
      extent = extentOf overlap (samples.length - 1) isLast segment := ⟨_, rfl⟩
  have startSamples := csToSamples_eq positive (by omega)
  have finishSamples := csToSamples_eq (show 0 ≤ segment.finish by omega) (by omega)
  have start : extent.start = 160 * segment.start := by
    rw [extentIs, extentOf_start (by omega), startSamples]
  have finish : extent.finish = min (160 * segment.finish) (samples.length - 1) := by
    rw [extentIs, extentOf, finishSamples]
  have beyond : extent.finish ≤ extent.beyond ∧ extent.beyond ≤ (samples.length : Int) - 1 := by
    rw [finish, extentIs, extentOf_beyond nonneg (by omega) (by omega) (by omega), finishSamples]
    split <;> omega
  rw [← extentIs] at placed
  have audio : (extent.audio samples).length = (extent.beyond - extent.start).toNat :=
    extent.audio_length (by omega) (by omega) (by omega)
  obtain ⟨distance, distanceIs⟩ := Int.eq_ofNat_of_zero_le
    (show 0 ≤ (sample : Int) - 160 * segment.start by omega)
  have copied := placed.copied distance (by omega)
  rw [show extent.start.toNat + distance = sample by omega, Nat.sub_zero] at copied
  refine ⟨offset + distance, copied, ?_⟩
  -- The last copied sample is still in the layout.
  have room : offset + (extent.audio samples).length ≤ placement.1.length := by
    have last := placed.copied ((extent.audio samples).length - 1) (by omega)
    rw [List.getElem?_eq_getElem (show extent.start.toNat +
      ((extent.audio samples).length - 1) < samples.length by omega)] at last
    have bound := (List.getElem?_eq_some_iff.mp last).1
    omega
  obtain ⟨front, back, split, earlier, later⟩ := placed.times
  rw [split] at rising same
  have behind : samplesToCs offset ≤ samplesToCs (offset + distance : Nat) :=
    samplesToCs_mono (by omega) (by omega)
  have ahead : samplesToCs (offset + distance : Nat) ≤
      samplesToCs (offset + (extent.finish - extent.start)) :=
    samplesToCs_mono (by omega) (by omega)
  have entries : uniqueTimes sorted ≠ [] := by
    intro empty
    have none := (List.destutter_eq_nil _).mp empty
    rw [none] at same
    simp [Extent.times] at same
  have mapped : WhisperState.original ⟨true, uniqueTimes sorted⟩
      (samplesToCs (offset + distance : Nat)) =
        mapProcessedToOriginalTime (samplesToCs (offset + distance : Nat)) (uniqueTimes sorted) :=
    if_neg (by simpa using entries)
  rw [mapped]
  have near := Rising.near rising same inOrder earlier later
    (mapProcessedToOriginalTime_reads (RisingTimes.uniqueTimes rising same inOrder) entries _)
    behind ahead
  have offsetNear := samplesToCs_near (show (0 : Int) ≤ offset by omega) (by omega)
  have placeNear := samplesToCs_near (show (0 : Int) ≤ (offset + distance : Nat) by omega) (by omega)
  have finishNear := samplesToCs_near
    (show (0 : Int) ≤ offset + (extent.finish - extent.start) by omega) (by omega)
  simp only [drift] at near
  omega

end Filling

theorem overlapSamples_nonneg {samplesOverlap : Rat} (nonneg : 0 ≤ samplesOverlap) :
    0 ≤ overlapSamples samplesOverlap := by
  have rate : (0 : Rat) ≤ sampleRate := by norm_num [sampleRate]
  have rounded : 0 ≤ binary32 (samplesOverlap * sampleRate) :=
    roundBinary_nonneg (mul_nonneg nonneg rate)
  rw [overlapSamples, truncate, if_pos rounded]
  exact Rat.floor_monotone rounded

theorem overlapSamples_le {samplesOverlap : Rat} (nonneg : 0 ≤ samplesOverlap)
    (brief : samplesOverlap ≤ 1) : overlapSamples samplesOverlap ≤ 16000 := by
  have rate : (sampleRate : Rat) = (16000 : Int) := rfl
  have product : 0 ≤ samplesOverlap * sampleRate :=
    mul_nonneg nonneg (by rw [rate]; norm_num)
  have bound : binary32 (samplesOverlap * sampleRate) ≤ (16000 : Int) := by
    have whole : binary32 ((16000 : Int) : Rat) = (16000 : Int) :=
      roundBinary_intCast (by norm_num [abs_lt])
    rw [← whole]
    refine binary32_mono product ?_
    rw [rate]
    push_cast
    linarith
  rw [overlapSamples, truncate, if_pos (roundBinary_nonneg product)]
  have floored := Rat.floor_monotone bound
  rwa [Rat.floor_intCast] at floored

/-- Parameters with which no `int` overflows: padding of five milliseconds to two minutes
and an overlap of a second at most. -/
structure VadParams.Moderate (params : VadParams) : Prop where
  padding : 5 ≤ params.speechPadMs
  short : params.speechPadMs ≤ 134217
  overlap : 0 ≤ params.samplesOverlap
  brief : params.samplesOverlap ≤ 1

section Whole

variable {nWindow : Nat} {params : VadParams} {probs : List (Option Rat)} {segment : Interval}
  {nSamples : Nat}

theorem segments_bounds (window : 0 < nWindow) (counted : probs.length = chunkCount nWindow nSamples)
    (moderate : params.Moderate) (small : nSamples + nWindow ≤ 2 ^ 30)
    (member : segment ∈ whisperVadSegmentsFromProbs nWindow params probs) :
    0 ≤ segment.start ∧ 160 * segment.start ≤ (nSamples : Int) - 1 ∧
      160 * segment.finish < (nSamples : Int) + nWindow + 80 := by
  have count := chunkCount_bounds window nSamples
  rw [← counted] at count
  have cast : ((nWindow * probs.length : Nat) : Int) = probs.length * nWindow := by
    rw [Nat.mul_comm, Nat.cast_mul]
  have less : ((probs.length : Int) - 1) * nWindow = probs.length * nWindow - nWindow := by
    rw [Int.sub_mul, Int.one_mul]
  have padding := moderate.padding
  have bounds := (whisperVadSegmentsFromProbs_ordered (by omega) moderate.short (by omega)).mem
    (Int.le_refl _) member
  have start := whisperVadSegmentsFromProbs_start padding moderate.short (by omega) member
  have finish := samplesToCs_near (show (0 : Int) ≤ probs.length * nWindow by omega) (by omega)
  have audio : 0 < nSamples := by
    by_contra none
    have empty : probs = [] := by
      have few : probs.length < 1 := Nat.lt_of_mul_lt_mul_left (by omega :
        nWindow * probs.length < nWindow * 1)
      exact List.eq_nil_of_length_eq_zero (by omega)
    rw [empty] at member
    cases member
  omega

theorem segments_fit (window : 0 < nWindow) (counted : probs.length = chunkCount nWindow nSamples)
    (moderate : params.Moderate) (small : nSamples + nWindow ≤ 2 ^ 28) :
    csToSamples (samplesToCs (probs.length * nWindow)) + overlapSamples params.samplesOverlap <
        2 ^ 31 ∧
      samplesNeeded (overlapSamples params.samplesOverlap) nSamples
        (whisperVadSegmentsFromProbs nWindow params probs) < 2 ^ 31 := by
  have padding := moderate.padding
  have covers := overlapSamples_nonneg moderate.overlap
  have brief := overlapSamples_le moderate.overlap moderate.brief
  have count := (chunkCount_bounds window nSamples).2
  rw [← counted] at count
  have cast : ((nWindow * probs.length : Nat) : Int) = probs.length * nWindow := by
    rw [Nat.mul_comm, Nat.cast_mul]
  have many := @length_whisperVadSegmentsFromProbs_le nWindow params probs
  have room := @samplesNeeded_le (overlapSamples params.samplesOverlap) _ _ _ nSamples
    (Int.le_refl 0) (whisperVadSegmentsFromProbs_ordered (by omega) moderate.short
      (by omega : (probs.length : Int) * nWindow ≤ 2 ^ 30))
  have finish := samplesToCs_near (show (0 : Int) ≤ probs.length * nWindow by omega) (by omega)
  have positive := samplesToCs_nonneg (show (0 : Int) ≤ probs.length * nWindow by omega)
  have zero : csToSamples 0 = 0 := csToSamples_eq (Int.le_refl 0) (by decide)
  rw [csToSamples_eq positive (by omega), zero, silenceSamples_eq] at room
  rw [csToSamples_eq positive (by omega)]
  obtain ⟨between, betweenIs⟩ : ∃ between,
      between = (whisperVadSegmentsFromProbs nWindow params probs).length - 1 := ⟨_, rfl⟩
  rw [← betweenIs] at many room
  have spaces : (between : Int) * (overlapSamples params.samplesOverlap + 1600) ≤
      between * 17600 := Int.mul_le_mul_of_nonneg_left (by omega) (Int.natCast_nonneg _)
  refine ⟨by omega, ?_⟩
  push_cast at room
  omega

end Whole

section Result

variable [Zero Sample] {sort : List VadTimeMapping → List VadTimeMapping}
  {network : Network Sample State} {context : VadContext} {params : VadParams}
  {samples : List Sample}

theorem processSegments_cases (sort : List VadTimeMapping → List VadTimeMapping)
    (counted : context.probs.length = chunkCount context.nWindow samples.length)
    (moderate : params.Moderate) (small : samples.length + context.nWindow ≤ 2 ^ 28)
    {segments : List Interval}
    (segmentsAre : segments = whisperVadSegmentsFromProbs context.nWindow params context.probs) :
    processSegments sort (overlapSamples params.samplesOverlap) samples segments =
      .ok (if segments = [] then ⟨⟨false, []⟩, []⟩
        else processedOf sort (overlapSamples params.samplesOverlap) samples segments) := by
  split
  · rename_i none
    rw [none]
    rfl
  · rename_i found
    have padding := moderate.padding
    have ordered := whisperVadSegmentsFromProbs_ordered (by omega) moderate.short
      (windows_small context.positive counted (by omega))
    obtain ⟨room, fits⟩ := segments_fit context.positive counted moderate small
    rw [← segmentsAre] at ordered fits
    refine processSegments_of sort (overlapSamples_nonneg moderate.overlap) found ordered room fits ?_
    intro segment member
    rw [segmentsAre] at member
    obtain ⟨positive, start, _⟩ :=
      segments_bounds context.positive counted moderate (by omega) member
    rw [csToSamples_eq positive (by omega)]
    exact start

/-- No sample is read or written outside its array, whatever the network says and
whatever an earlier call has left. -/
theorem whisperVad_ok (moderate : params.Moderate)
    (small : samples.length + context.nWindow ≤ 2 ^ 28) :
    ∃ result, whisperVad sort network context params samples = .ok result := by
  unfold whisperVad
  cases detecting : context.detectSpeech network samples with
  | none => exact ⟨none, rfl⟩
  | some detected =>
    obtain ⟨window, counted⟩ := VadContext.detectSpeech_eq detecting
    rw [← window] at counted small
    have done := processSegments_cases sort counted moderate small rfl
    exact ⟨some (_, detected), by simp only [done]; rfl⟩

/-- An order of the table that `std::sort` may give. -/
def sortTimes (table : List VadTimeMapping) : List VadTimeMapping :=
  table.mergeSort fun first second => first.processedTime ≤ second.processedTime

theorem sortTimes_sorts (table : List VadTimeMapping) : (sortTimes table).Perm table ∧
    (sortTimes table).Pairwise fun first second => first.processedTime ≤ second.processedTime := by
  refine ⟨List.mergeSort_perm _ _, ?_⟩
  have inOrder := @List.pairwise_mergeSort _ (fun first second : VadTimeMapping =>
    decide (first.processedTime ≤ second.processedTime)) (by simp; omega) (by simp; omega) table
  exact inOrder.imp fun ordered => of_decide_eq_true ordered

theorem vadDefaultParams_moderate : vadDefaultParams.Moderate where
  padding := by decide
  short := by decide
  overlap := by decide +kernel
  brief := by decide +kernel

/-- Almost twelve seconds of different samples. -/
def twelveSeconds : List Int := (List.range 190000).map Int.ofNat

theorem length_twelveSeconds : twelveSeconds.length = 190000 := by
  rw [twelveSeconds, List.length_map, List.length_range]

theorem whisperVad_ok_twelveSeconds : ∃ result,
    whisperVad sortTimes (Network.pulses 1) ⟨8000, by decide, [some 1]⟩ vadDefaultParams
      twelveSeconds = .ok result :=
  whisperVad_ok vadDefaultParams_moderate (by rw [length_twelveSeconds]; decide)

theorem whisperVadSegmentsFromProbs_pulses :
    whisperVadSegmentsFromProbs 8000 vadDefaultParams (pulseProbs 1) = [⟨0, 53⟩, ⟨597, 653⟩] := by
  decide +kernel

theorem whisperVad_twelveSeconds : ∃ processed,
    whisperVad sortTimes (Network.pulses 1) ⟨8000, by decide, [some 1]⟩ vadDefaultParams
      twelveSeconds = .ok (some (processed, ⟨8000, by decide, pulseProbs 1⟩)) := by
  have detected : VadContext.detectSpeech ⟨8000, by decide, [some 1]⟩ (Network.pulses 1)
      twelveSeconds = some ⟨8000, by decide, pulseProbs 1⟩ := by
    simp only [VadContext.detectSpeech, length_twelveSeconds]
    rfl
  have done := @processSegments_cases _ _ ⟨8000, by decide, pulseProbs 1⟩ vadDefaultParams
    twelveSeconds sortTimes (by rw [length_twelveSeconds]; rfl) vadDefaultParams_moderate
    (by rw [length_twelveSeconds]; decide) _ whisperVadSegmentsFromProbs_pulses.symm
  rw [if_neg (List.cons_ne_nil _ _)] at done
  refine ⟨processedOf sortTimes (overlapSamples vadDefaultParams.samplesOverlap) twelveSeconds
    [⟨0, 53⟩, ⟨597, 653⟩], ?_⟩
  rw [whisperVad, detected]
  simp only [whisperVadSegmentsFromProbs_pulses, done]
  rfl

theorem whisperVad_cases {processed : Processed Sample} {after : VadContext}
    (moderate : params.Moderate) (small : samples.length + context.nWindow ≤ 2 ^ 28)
    (done : whisperVad sort network context params samples = .ok (some (processed, after))) :
    after.nWindow = context.nWindow ∧
      after.probs.length = chunkCount after.nWindow samples.length ∧
      processed =
        if whisperVadSegmentsFromProbs after.nWindow params after.probs = [] then
          ⟨⟨false, []⟩, []⟩
        else processedOf sort (overlapSamples params.samplesOverlap) samples
          (whisperVadSegmentsFromProbs after.nWindow params after.probs) := by
  unfold whisperVad at done
  cases detecting : context.detectSpeech network samples with
  | none =>
    rw [detecting] at done
    cases done
  | some detected =>
    rw [detecting] at done
    obtain ⟨window, counted⟩ := VadContext.detectSpeech_eq detecting
    rw [← window] at counted small
    have result := processSegments_cases sort counted moderate small rfl
    simp only [result] at done
    cases done
    exact ⟨window, counted, rfl⟩

/-- However equal times are sorted, segments that follow one another in the processed audio
begin and end in that order in the original, and none ends before it begins. -/
theorem whisperVad_times_mono {processed : Processed Sample} {after : VadContext}
    {first second : Int × Int} (moderate : params.Moderate)
    (small : samples.length + context.nWindow ≤ 2 ^ 28)
    (sorts : ∀ table, (sort table).Perm table ∧
      (sort table).Pairwise fun first second => first.processedTime ≤ second.processedTime)
    (done : whisperVad sort network context params samples = .ok (some (processed, after)))
    (forward : first.1 ≤ first.2) (starts : first.1 ≤ second.1) (ends : first.2 ≤ second.2) :
    processed.segmentT0 first ≤ processed.segmentT0 second ∧
      processed.segmentT1 first ≤ processed.segmentT1 second ∧
      processed.segmentT0 first ≤ processed.segmentT1 first := by
  refine WhisperState.segments_mono ?_ forward starts ends
  obtain ⟨window, counted, rfl⟩ := whisperVad_cases moderate small done
  rw [← window] at small
  split
  · exact .nil
  · have padding := moderate.padding
    obtain ⟨same, inOrder⟩ := sorts (layout samples (overlapSamples params.samplesOverlap) 0
      (whisperVadSegmentsFromProbs after.nWindow params after.probs)).2
    exact (layout_rising (overlapSamples_nonneg moderate.overlap) (Int.le_refl 0)
      (whisperVadSegmentsFromProbs_ordered (by omega) moderate.short
        (windows_small after.positive counted (by omega)))
      (segments_fit after.positive counted moderate small).1 0).1.uniqueTimes same inOrder

theorem whisperVad_times_mono_twelveSeconds : ∃ processed after,
    whisperVad sortTimes (Network.pulses 1) ⟨8000, by decide, [some 1]⟩ vadDefaultParams
        twelveSeconds = .ok (some (processed, after)) ∧
      processed.segmentT0 (10, 50) ≤ processed.segmentT0 (60, 100) ∧
      processed.segmentT1 (10, 50) ≤ processed.segmentT1 (60, 100) ∧
      processed.segmentT0 (10, 50) ≤ processed.segmentT1 (10, 50) := by
  obtain ⟨processed, done⟩ := whisperVad_twelveSeconds
  exact ⟨processed, _, done, whisperVad_times_mono vadDefaultParams_moderate
    (by rw [length_twelveSeconds]; decide) sortTimes_sorts done
    (by decide : ((10 : Int), (50 : Int)).1 ≤ _) (by decide : _ ≤ ((60 : Int), (100 : Int)).1)
    (by decide)⟩

/-- Every sample of a segment is found in the processed audio at a place whose time leads
back to it: up to two centiseconds, and what the segment lies beyond the audio. -/
theorem whisperVad_near {processed : Processed Sample} {after : VadContext} {segment : Interval}
    {sample : Nat} (moderate : params.Moderate) (least : 15 ≤ params.minSpeechDurationMs)
    (most : params.minSpeechDurationMs ≤ 134217)
    (small : samples.length + context.nWindow ≤ 2 ^ 28)
    (sorts : ∀ table, (sort table).Perm table ∧
      (sort table).Pairwise fun first second => first.processedTime ≤ second.processedTime)
    (done : whisperVad sort network context params samples = .ok (some (processed, after)))
    (member : segment ∈ whisperVadSegmentsFromProbs after.nWindow params after.probs)
    (starts : 160 * segment.start ≤ sample) (before : sample < 160 * segment.finish)
    (inside : sample + 1 < samples.length) :
    ∃ place : Nat, processed.filteredSamples[place]? = samples[sample]? ∧
      -320 ≤ 160 * processed.original (samplesToCs place) - sample ∧
      160 * processed.original (samplesToCs place) - sample ≤
        320 + max 0 (160 * segment.finish - (samples.length - 1)) := by
  have covers := overlapSamples_nonneg moderate.overlap
  have padding := moderate.padding
  obtain ⟨window, counted, rfl⟩ := whisperVad_cases moderate small done
  rw [← window] at small
  by_cases none : whisperVadSegmentsFromProbs after.nWindow params after.probs = []
  · rw [none] at member
    cases member
  · rw [if_neg none]
    have ordered := whisperVadSegmentsFromProbs_ordered (by omega) moderate.short
      (windows_small after.positive counted (by omega))
    obtain ⟨room, fits⟩ := segments_fit after.positive counted moderate small
    obtain ⟨segments, segmentsAre⟩ : ∃ segments,
        segments = whisperVadSegmentsFromProbs after.nWindow params after.probs := ⟨_, rfl⟩
    have bounds {other : Interval} (isOne : other ∈ segments) : 0 ≤ other.start ∧
        160 * other.start ≤ (samples.length : Int) - 1 ∧ other.start < other.finish ∧
        160 * other.finish < 2 ^ 28 + 80 := by
      rw [segmentsAre] at isOne
      obtain ⟨positive, start, finish⟩ :=
        segments_bounds after.positive counted moderate (by omega) isOne
      have forward := whisperVadSegmentsFromProbs_long padding moderate.short least most
        (windows_small after.positive counted (by omega)) isOne
      exact ⟨positive, start, forward, by omega⟩
    rw [← segmentsAre] at member ordered fits none ⊢
    obtain ⟨positive, _, forward, finish⟩ := bounds member
    have begun (other : Interval) (isOne : other ∈ segments) :
        csToSamples other.start ≤ (samples.length : Int) - 1 := by
      obtain ⟨positive, start, forward, finish⟩ := bounds isOne
      rw [csToSamples_eq positive (by omega)]
      exact start
    have long (other : Interval) (isOne : other ∈ segments) :
        csToSamples other.start < csToSamples other.finish := by
      obtain ⟨positive, _, forward, finish⟩ := bounds isOne
      rw [csToSamples_eq positive (by omega), csToSamples_eq (by omega) (by omega)]
      omega
    have begins : csToSamples segment.start < (samples.length : Int) - 1 := by
      rw [csToSamples_eq positive (by omega)]
      omega
    have laid := length_layout_le covers (Int.le_refl 0) none ordered room begun 0
    obtain ⟨isLast, place, placed, _⟩ := @exists_placed _ _ samples _ _ _ _ _ covers
      (Int.le_refl 0) ordered room long 0 (by omega) member begins
    obtain ⟨same, inOrder⟩ := sorts (layout samples (overlapSamples params.samplesOverlap) 0
      segments).2
    have brief := overlapSamples_le moderate.overlap moderate.brief
    obtain ⟨found, copied, near⟩ := placed.near covers positive (by omega) (by omega)
      (layout_rising covers (Int.le_refl 0) ordered room 0).1 same inOrder starts before inside
    have there := copied.trans (List.getElem?_eq_getElem (show sample < samples.length by omega))
    refine ⟨found, ?_, near⟩
    rw [processedOf, List.getElem?_append_left (List.getElem?_eq_some_iff.mp there).1, copied]

theorem whisperVad_near_twelveSeconds : ∃ processed after,
    whisperVad sortTimes (Network.pulses 1) ⟨8000, by decide, [some 1]⟩ vadDefaultParams
        twelveSeconds = .ok (some (processed, after)) ∧
      ∃ place : Nat, processed.filteredSamples[place]? = twelveSeconds[100000]? ∧
        -320 ≤ 160 * processed.original (samplesToCs place) - 100000 ∧
        160 * processed.original (samplesToCs place) - 100000 ≤ 320 := by
  obtain ⟨processed, done⟩ := whisperVad_twelveSeconds
  have member : (⟨597, 653⟩ : Interval) ∈
      whisperVadSegmentsFromProbs 8000 vadDefaultParams (pulseProbs 1) := by
    rw [whisperVadSegmentsFromProbs_pulses]
    decide
  obtain ⟨place, same, above, below⟩ := @whisperVad_near _ _ _ _ _ _ _ _ _ _ _ 100000
    vadDefaultParams_moderate (by decide) (by decide) (by rw [length_twelveSeconds]; decide)
    sortTimes_sorts done member (by decide) (by decide) (by rw [length_twelveSeconds]; decide)
  rw [length_twelveSeconds] at below
  exact ⟨processed, _, done, place, same, above, below⟩

end Result

end LocalWhisper.WhisperVad
