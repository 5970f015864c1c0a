import LocalWhisper.Record.Utility.ChunkTiling
import Mathlib.Data.Rat.Cast.Order
import Mathlib.Tactic.Linarith
import Mathlib.Tactic.Positivity

/-! `decodeTrack` of `AudioFilePcmDecoder`: the results of the codec one after
another. Of a new output format the loop hands the channel count and the encoding
on with each buffer; the sample rate stays with the emitter made at the first one. -/

namespace LocalWhisper.Record.Pcm

open LocalWhisper.Record.Buffer
open LocalWhisper.Transcription (WhisperTranscriptionWorker.defaultSampleRate)

structure OutputFormat where
  sampleRate : Int
  channelCount : Int
  pcmEncoding : Int
  deriving DecidableEq, Repr

/-- The entries of a new output format, any of which may be missing. -/
structure FormatChange where
  sampleRate : Option Int
  channelCount : Option Int
  pcmEncoding : Option Int
  deriving DecidableEq, Repr

/-- `readInt` of each entry. -/
def OutputFormat.update (format : OutputFormat) (change : FormatChange) : OutputFormat :=
  ⟨change.sampleRate.getD format.sampleRate, change.channelCount.getD format.channelCount,
    change.pcmEncoding.getD format.pcmEncoding⟩

/-- An output buffer of the codec with the range of its `BufferInfo`. -/
structure CodecBuffer where
  buffer : ByteBuffer
  offset : Nat
  size : Nat
  inside : offset + size ≤ buffer.limit

def CodecBuffer.inFormat (given : CodecBuffer) (format : OutputFormat) : DecoderBuffer :=
  { given with channelCount := format.channelCount, pcmEncoding := format.pcmEncoding }

/-- What `dequeueOutputBuffer` returns: an information code or a buffer, which may
be missing and may carry the end-of-stream flag. -/
inductive CodecResult where
  | tryAgainLater
  | outputFormatChanged (change : FormatChange)
  | outputBuffersChanged
  | output (outputBuffer : Option CodecBuffer) (endOfStream : Bool)

/-- The loop of `decodeTrack` on a thread that is not interrupted; it still runs when
the results are used up. -/
def decodeLoop (double : Rounding) (fuel : Nat) (chunkDurationMs : Int) :
    OutputFormat → Option WhisperPcmChunkEmitter → List CodecResult →
      Except Failure (WhisperPcmChunkEmitter × DecodeSummary)
  | _, _, [] => .error .running
  | format, emitter, .tryAgainLater :: rest =>
    decodeLoop double fuel chunkDurationMs format emitter rest
  | format, emitter, .outputFormatChanged change :: rest =>
    decodeLoop double fuel chunkDurationMs (format.update change) emitter rest
  | format, emitter, .outputBuffersChanged :: rest =>
    decodeLoop double fuel chunkDurationMs format emitter rest
  | format, emitter, .output outputBuffer endOfStream :: rest => do
    let emitter ← match emitter with
      | some emitter => .ok emitter
      | none => WhisperPcmChunkEmitter.create format.sampleRate chunkDurationMs
    let emitter ← emitter.append double fuel
      (.codec (outputBuffer.map fun given => given.inFormat format))
    if endOfStream then emitter.finish double
    else decodeLoop double fuel chunkDurationMs format (some emitter) rest

/-- `decodeTrack`; `AudioFormat.ENCODING_PCM_16BIT` is in force at the start. -/
def decodeTrack (double : Rounding) (fuel : Nat) (sampleRate channelCount chunkDurationMs : Int)
    (results : List CodecResult) : Except Failure (WhisperPcmChunkEmitter × DecodeSummary) :=
  decodeLoop double fuel chunkDurationMs ⟨sampleRate, channelCount, 2⟩ none results

/-- A frame with the rate that was in force when its buffer was dequeued. -/
structure RatedFrame where
  frame : Frame
  sampleRate : Int

def RatedFrame.mono (rated : RatedFrame) : Int16 := rated.frame.mono

def outputFrames (format : OutputFormat) (outputBuffer : Option CodecBuffer) : List RatedFrame :=
  (WhisperPcmChunkEmitter.Output.codec
    (outputBuffer.map fun given => given.inFormat format)).frames.map
      fun frame => ⟨frame, format.sampleRate⟩

/-- The frames up to the end of the stream, each in the latest format. -/
def framesInForce : OutputFormat → List CodecResult → List RatedFrame
  | _, [] => []
  | format, .tryAgainLater :: rest => framesInForce format rest
  | format, .outputFormatChanged change :: rest => framesInForce (format.update change) rest
  | format, .outputBuffersChanged :: rest => framesInForce format rest
  | format, .output outputBuffer endOfStream :: rest =>
    outputFrames format outputBuffer ++
      if endOfStream then [] else framesInForce format rest

/-- The rate in force at the first output buffer. -/
def firstRate : OutputFormat → List CodecResult → Int
  | format, [] => format.sampleRate
  | format, .tryAgainLater :: rest => firstRate format rest
  | format, .outputFormatChanged change :: rest => firstRate (format.update change) rest
  | format, .outputBuffersChanged :: rest => firstRate format rest
  | format, .output _ _ :: _ => format.sampleRate

theorem bind_eq_ok {First Second : Type} {value : Except Failure First}
    {next : First → Except Failure Second} {result : Second} (done : value >>= next = .ok result) :
    ∃ middle, value = .ok middle ∧ next middle = .ok result := by
  cases value with
  | error failure => cases done
  | ok middle => exact ⟨middle, rfl, done⟩

theorem Mixer.length_of_mix (mixer : Mixer) {channels : Nat} {bytes : List UInt8}
    {mixed : mixer.Mixed} {result : mixer.Mixed × List UInt8}
    (done : mixer.mix channels bytes mixed = .ok result) :
    channels * mixer.sampleBytes ≤ bytes.length := by
  induction channels generalizing bytes mixed with
  | zero =>
    rw [Nat.zero_mul]
    exact Nat.zero_le _
  | succ channels ih =>
    obtain ⟨⟨channel, rest⟩, taken, later⟩ := bind_eq_ok done
    have shorter := ih later
    unfold takeBytes at taken
    split at taken
    · cases taken
    · rename_i enough
      cases taken
      rw [List.length_drop] at shorter
      rw [Nat.succ_mul]
      omega

theorem ByteBuffer.length_of_range {buffer : ByteBuffer} {offset size : Int} {bytes : List UInt8}
    (done : buffer.range offset size = .ok bytes) : bytes.length ≤ maxInt := by
  have small := buffer.small
  unfold ByteBuffer.range at done
  split at done
  · cases done
  · rename_i position
    generalize javaInt (offset + size) = limit at done
    simp only at done
    split at done
    · cases done
    · cases done
      rw [length_readSpan]
      omega

/-- A frame of more bytes than a buffer can hold is never read. -/
theorem appendMonoPcm16_wide {buffer : ByteBuffer} {offset size channelCount pcmEncoding : Int}
    {encoding : PcmEncoding} (encoded : PcmEncoding.of pcmEncoding = .ok encoding)
    (wide : maxInt < channelCount.toNat * encoding.bytesPerSample)
    {output appended : DirectPcm16Builder}
    (done : appendMonoPcm16 buffer offset size channelCount pcmEncoding output = .ok appended) :
    appended = output := by
  unfold appendMonoPcm16 at done
  split at done
  · cases done
  · obtain ⟨bytes, ranged, later⟩ := bind_eq_ok done
    rw [encoded] at later
    change (if _ then _ else _) = _ at later
    split at later
    · cases later
    · have short := ByteBuffer.length_of_range ranged
      revert later
      generalize ((bytes.length : Int).tdiv _).toNat = frames
      intro later
      cases frames with
      | zero =>
        cases later
        rfl
      | succ frames =>
        obtain ⟨_, mixed, -⟩ := bind_eq_ok later
        have enough := encoding.mixer.length_of_mix mixed
        rw [PcmEncoding.mixer_sampleBytes] at enough
        omega

namespace WhisperPcmChunkEmitter

theorem appendFrom_cases {double : Rounding} {buffer : ByteBuffer}
    {channelCount pcmEncoding bytesPerFrame byteEnd byteOffset : Int} {fuel : Nat}
    {emitter appended : WhisperPcmChunkEmitter}
    (done : appendFrom double buffer channelCount pcmEncoding bytesPerFrame byteEnd (fuel + 1)
      byteOffset emitter = .ok appended) :
    byteEnd < javaInt (byteOffset + bytesPerFrame) ∧ appended = emitter ∨
      ∃ size sourceSamples extended,
        size = javaInt (min ((byteEnd - byteOffset).tdiv bytesPerFrame)
          ((emitter.sourceSamplesPerChunk : Int) - emitter.sourceSamples.size) * bytesPerFrame) ∧
        appendMonoPcm16 buffer byteOffset size channelCount pcmEncoding emitter.sourceSamples =
          .ok sourceSamples ∧
        ({ emitter with sourceSamples := sourceSamples } : WhisperPcmChunkEmitter).prepareFull
          double = .ok extended ∧
        appendFrom double buffer channelCount pcmEncoding bytesPerFrame byteEnd fuel
          (javaInt (byteOffset + size)) extended = .ok appended := by
  unfold appendFrom at done
  split at done
  · rename_i beyond
    cases done
    exact .inl ⟨beyond, rfl⟩
  · split at done
    · cases done
    · obtain ⟨sourceSamples, mixed, prepared⟩ := bind_eq_ok done
      obtain ⟨extended, filled, later⟩ := bind_eq_ok prepared
      exact .inr ⟨_, sourceSamples, extended, rfl, mixed, filled, later⟩

section Appending

variable {double : Rounding} {sourceSampleRate : Int} {length : Nat}

/-- A builder that does not complete the chunk changes nothing else. -/
theorem Holds.prepareFull_short {emitter : WhisperPcmChunkEmitter} {full : List (List Int16)}
    {rest : List Int16} (holds : Holds double sourceSampleRate length emitter full rest) :
    emitter.prepareFull double = .ok emitter := by
  have short := holds.short
  unfold prepareFull
  rw [if_neg]
  rw [holds.stores.size, holds.perChunk]
  omega

theorem Holds.appendFrom_wide {buffer : ByteBuffer} {encoding : PcmEncoding}
    {channelCount pcmEncoding bytesPerFrame byteEnd : Int}
    (encoded : PcmEncoding.of pcmEncoding = .ok encoding)
    (wide : maxInt < channelCount.toNat * encoding.bytesPerSample) (fuel : Nat)
    {byteOffset : Int} {emitter appended : WhisperPcmChunkEmitter} {full : List (List Int16)}
    {rest : List Int16} (holds : Holds double sourceSampleRate length emitter full rest)
    (done : WhisperPcmChunkEmitter.appendFrom double buffer channelCount pcmEncoding bytesPerFrame
      byteEnd fuel byteOffset emitter = .ok appended) : appended = emitter := by
  induction fuel generalizing byteOffset with
  | zero => cases done
  | succ fuel ih =>
    rcases appendFrom_cases done with
      ⟨-, same⟩ | ⟨size, sourceSamples, extended, -, mixed, filled, later⟩
    · exact same
    · have unread := appendMonoPcm16_wide encoded wide mixed
      subst unread
      have unchanged := holds.prepareFull_short
      have same : extended = emitter := Except.ok.inj (filled.symm.trans unchanged)
      subst same
      exact ih later

/-- Where the loop over a buffer ends, it has consumed all its frames. It is by
induction on the fuel; a round at the end of the `int` range takes none. -/
theorem Holds.appendFrom_ok {buffer : ByteBuffer} {encoding : PcmEncoding}
    {channelCount pcmEncoding : Int} (encoded : PcmEncoding.of pcmEncoding = .ok encoding)
    (channels : 0 < channelCount) {bytesPerFrame : Nat}
    (perFrame : (bytesPerFrame : Int) = encoding.bytesPerSample * channelCount)
    (frameBytes : 0 < bytesPerFrame) (bounded : bytesPerFrame ≤ maxInt) {byteEnd : Nat}
    (inside : byteEnd ≤ buffer.limit) (positive : 0 < sourceSampleRate) (small : length ≤ maxInt)
    (room : RoomFor double sourceSampleRate length) (fuel : Nat) {appended : WhisperPcmChunkEmitter} :
    ∀ {count offset : Nat} {emitter : WhisperPcmChunkEmitter} {full : List (List Int16)}
      {rest : List Int16}, offset + count * bytesPerFrame ≤ byteEnd →
      byteEnd < offset + count * bytesPerFrame + bytesPerFrame →
      Holds double sourceSampleRate length emitter full rest →
      WhisperPcmChunkEmitter.appendFrom double buffer channelCount pcmEncoding bytesPerFrame
        byteEnd fuel offset emitter = .ok appended →
      ∃ fuller left, Holds double sourceSampleRate length appended fuller left ∧
        fuller.flatten ++ left = full.flatten ++ rest ++
          (framesFrom buffer.get bytesPerFrame count offset).map
            (encoding.mixer.mono channelCount) := by
  induction fuel with
  | zero =>
    intro count offset emitter full rest lower upper holds done
    cases done
  | succ fuel ih =>
    intro count offset emitter full rest lower upper holds done
    rcases Nat.eq_zero_or_pos count with none | some
    · subst none
      rcases appendFrom_cases done with
        ⟨-, same⟩ | ⟨size, sourceSamples, extended, sizeIs, mixed, filled, later⟩
      · exact ⟨full, rest, same ▸ holds, by simp [framesFrom]⟩
      · have short := holds.short
        have noFrames := min_available lower upper (Nat.le_of_lt short)
        rw [holds.perChunk, holds.stores.size, noFrames, Nat.zero_min, Int.natCast_zero,
          Int.zero_mul, javaInt_zero] at sizeIs
        subst sizeIs
        obtain ⟨same, again, stores⟩ := appendMonoPcm16_ok buffer encoded channels perFrame
          frameBytes bounded (show offset + 0 * bytesPerFrame ≤ buffer.limit by omega) holds.stores
        rw [Nat.zero_mul] at again
        have unread : sourceSamples = same := Except.ok.inj (mixed.symm.trans again)
        subst unread
        obtain ⟨other, fuller, left, refilled, kept, -, flat⟩ :=
          holds.extend positive small stores (by simpa [framesFrom] using Nat.le_of_lt short)
            (fun _ => room)
        have one : extended = other := Except.ok.inj (filled.symm.trans refilled)
        subst one
        have offsetSmall : offset ≤ maxInt := by
          have within := buffer.inside
          have intRange := buffer.small
          omega
        rw [Int.add_zero, javaInt_natCast offsetSmall] at later
        obtain ⟨fullest, last, lastHolds, lastFlat⟩ := ih lower upper kept later
        refine ⟨fullest, last, lastHolds, ?_⟩
        rw [lastFlat, flat]
        simp [framesFrom]
    · obtain ⟨taken, extended, fuller, left, one, most, round, kept, -, flat⟩ :=
        holds.round encoded channels perFrame frameBytes inside positive small some lower upper
          (fun _ => room)
      rw [round] at done
      have split : count = taken + (count - taken) := by omega
      have bytes : count * bytesPerFrame =
          taken * bytesPerFrame + (count - taken) * bytesPerFrame := by
        rw [← Nat.add_mul, ← split]
      obtain ⟨fullest, last, lastHolds, lastFlat⟩ :=
        ih (show offset + taken * bytesPerFrame + (count - taken) * bytesPerFrame ≤ byteEnd by
          omega) (by omega) kept done
      refine ⟨fullest, last, lastHolds, ?_⟩
      rw [lastFlat, flat]
      conv => rhs; rw [split, framesFrom_add, List.map_append, ← List.append_assoc]

/-- A buffer that was consumed without an exception has given all its frames. -/
theorem Holds.appendBuffer_ok {given : DecoderBuffer} (positive : 0 < sourceSampleRate)
    (small : length ≤ maxInt) (room : RoomFor double sourceSampleRate length) {fuel : Nat}
    {emitter appended : WhisperPcmChunkEmitter} {full : List (List Int16)} {rest : List Int16}
    (holds : Holds double sourceSampleRate length emitter full rest)
    (done : emitter.appendBuffer double fuel given = .ok appended) :
    ∃ fuller left, Holds double sourceSampleRate length appended fuller left ∧
      fuller.flatten ++ left = full.flatten ++ rest ++ given.frames.map Frame.mono := by
  have within := given.inside
  have limited := given.buffer.inside
  have intRange := given.buffer.small
  unfold WhisperPcmChunkEmitter.appendBuffer at done
  split at done
  · cases done
  · rename_i some
    have channels : 0 < given.channelCount := by omega
    obtain ⟨encoding, encoded, looped⟩ := bind_eq_ok done
    obtain ⟨bytesPerFrame, bytesIs⟩ :
        ∃ bytesPerFrame, bytesPerFrame = given.bytesPerFrame encoding := ⟨_, rfl⟩
    have frameBytes : 0 < bytesPerFrame := by
      rw [bytesIs]
      apply Nat.mul_pos
      · cases encoding <;> decide
      · omega
    have framesIs : given.frames = (framesFrom given.buffer.get bytesPerFrame
        (given.size / bytesPerFrame) given.offset).map (Frame.mk encoding given.channelCount) := by
      unfold DecoderBuffer.frames
      rw [encoded, bytesIs]
    by_cases wide : maxInt < given.channelCount.toNat * encoding.bytesPerSample
    · have same := holds.appendFrom_wide encoded wide fuel looped
      have none : given.size / bytesPerFrame = 0 := by
        rw [bytesIs, DecoderBuffer.bytesPerFrame, Nat.mul_comm]
        apply Nat.div_eq_of_lt
        omega
      refine ⟨full, rest, same ▸ holds, ?_⟩
      simp [framesIs, none, framesFrom]
    · have perFrame : (bytesPerFrame : Int) = encoding.bytesPerSample * given.channelCount := by
        rw [bytesIs, DecoderBuffer.bytesPerFrame, Int.natCast_mul,
          Int.toNat_of_nonneg (Int.le_of_lt channels)]
      have bounded : bytesPerFrame ≤ maxInt := by
        rw [bytesIs, DecoderBuffer.bytesPerFrame, Nat.mul_comm]
        exact Nat.le_of_not_lt wide
      have lower := Nat.div_mul_le_self given.size bytesPerFrame
      have upper := Nat.lt_div_mul_add (a := given.size) frameBytes
      have ended : javaInt ((given.offset : Int) + given.size) =
          ((given.offset + given.size : Nat) : Int) := by
        rw [← Int.natCast_add]
        exact javaInt_natCast (by omega)
      rw [ended, ← perFrame, javaInt_natCast bounded] at looped
      obtain ⟨fuller, left, kept, flat⟩ :=
        Holds.appendFrom_ok encoded channels perFrame frameBytes bounded given.inside positive small
          room fuel
          (show given.offset + given.size / bytesPerFrame * bytesPerFrame ≤
            given.offset + given.size by omega) (by omega) holds looped
      refine ⟨fuller, left, kept, ?_⟩
      rw [flat, framesIs, List.map_map]
      rfl

theorem Holds.append_ok {format : OutputFormat} {outputBuffer : Option CodecBuffer}
    (positive : 0 < sourceSampleRate) (small : length ≤ maxInt)
    (room : RoomFor double sourceSampleRate length) {fuel : Nat}
    {emitter appended : WhisperPcmChunkEmitter} {full : List (List Int16)} {rest : List Int16}
    (holds : Holds double sourceSampleRate length emitter full rest)
    (done : emitter.append double fuel
      (.codec (outputBuffer.map fun given => given.inFormat format)) = .ok appended) :
    ∃ fuller left, Holds double sourceSampleRate length appended fuller left ∧
      fuller.flatten ++ left =
        full.flatten ++ rest ++ (outputFrames format outputBuffer).map RatedFrame.mono := by
  have monos : ∀ frames : List Frame,
      (frames.map fun frame => RatedFrame.mk frame format.sampleRate).map RatedFrame.mono =
        frames.map Frame.mono := fun frames => List.map_map
  unfold outputFrames
  rw [monos]
  cases outputBuffer with
  | none =>
    cases done
    exact ⟨full, rest, holds, (List.append_nil _).symm⟩
  | some given =>
    by_cases empty : 0 < given.size
    · exact holds.appendBuffer_ok positive small room ((if_pos empty).symm.trans done)
    · cases (if_neg empty).symm.trans done
      have none := (given.inFormat format).frames_eq_nil (Nat.eq_zero_of_not_pos empty)
      refine ⟨full, rest, holds, ?_⟩
      show full.flatten ++ rest = full.flatten ++ rest ++
        (given.inFormat format).frames.map Frame.mono
      rw [none, List.map_nil, List.append_nil]

end Appending

end WhisperPcmChunkEmitter

/-- The relative error of a `double` operation whose exact result lies among the
normal numbers. -/
def Rounding.Nearest (double : Rounding) : Prop :=
  ∀ value : Rat, 1 / 2 ^ 1022 ≤ value → value ≤ 2 ^ 1023 →
    |double.round value - value| ≤ value / 2 ^ 53

theorem Rounding.nearest_rational : Rounding.rational.Nearest := by
  intro value lower _
  have positive : 0 ≤ value := le_trans (by positivity) lower
  show |value - value| ≤ value / 2 ^ 53
  rw [sub_self, abs_zero]
  positivity

private theorem mathRound_near (value : Rat) : |(mathRound value : Rat) - value| ≤ 1 / 2 := by
  have lower := Rat.floor_le (value + 1 / 2)
  have upper := Rat.lt_floor_add_one (value + 1 / 2)
  push_cast at upper
  unfold mathRound
  rw [abs_le]
  constructor <;> linarith

private theorem resampledLength_near {double : Rounding} (nearest : double.Nearest) {count : Nat}
    {sampleRate : Int} (some : 0 < count) (positive : 0 < sampleRate) (small : count ≤ maxInt)
    (slow : sampleRate ≤ 2 ^ 41) (bounded : (count : Int) * 16000 ≤ 4800000 * sampleRate) :
    ∃ length : Nat, resampledLength double count sampleRate
        (WhisperTranscriptionWorker.defaultSampleRate : Nat) = .ok (length : Int) ∧
      length ≤ maxInt / 2 ∧ |(length : Rat) - count * 16000 / sampleRate| ≤ 1 := by
  have rate : (0 : Rat) < sampleRate := by exact_mod_cast positive
  have counted : (1 : Rat) ≤ count := by exact_mod_cast some
  obtain ⟨exact, exactIs⟩ : ∃ exact : Rat, exact = count * 16000 / sampleRate := ⟨_, rfl⟩
  have lower : 1 / 2 ^ 41 ≤ exact := by
    rw [exactIs, div_le_div_iff₀ (by positivity) rate, one_mul]
    have slowRat : (sampleRate : Rat) ≤ 2 ^ 41 := by exact_mod_cast slow
    nlinarith
  have upper : exact ≤ 4800000 := by
    rw [exactIs, div_le_iff₀ rate]
    exact_mod_cast bounded
  have near : |double.round exact - exact| ≤ 1 / 4 := by
    refine le_trans (nearest exact (le_trans ?_ lower) (le_trans upper ?_)) ?_
    · exact one_div_le_one_div_of_le (by positivity) (pow_le_pow_right₀ (by norm_num) (by norm_num))
    · calc (4800000 : Rat) ≤ 2 ^ 23 := by norm_num
        _ ≤ 2 ^ 1023 := pow_le_pow_right₀ (by norm_num) (by norm_num)
    · rw [div_le_iff₀ (by positivity)]
      norm_num
      linarith
  obtain ⟨rounded, roundedIs⟩ : ∃ rounded, rounded = mathRound (double.round exact) := ⟨_, rfl⟩
  have close := mathRound_near (double.round exact)
  rw [← roundedIs] at close
  have positiveExact : 0 < exact := lt_of_lt_of_le (by positivity) lower
  rw [abs_le] at near close
  have roundedLower : (-1 : Rat) < rounded := by linarith [near.1, close.1]
  have roundedUpper : (rounded : Rat) < 4800001 := by linarith [near.2, close.2]
  have inRange : 0 ≤ rounded ∧ rounded ≤ 4800000 := by
    have above : (-1 : Int) < rounded := by exact_mod_cast roundedLower
    have below : rounded < 4800001 := by exact_mod_cast roundedUpper
    omega
  have fits : rounded ≤ maxInt := by
    unfold maxInt
    omega
  have computed : resampledLength double count sampleRate
      (WhisperTranscriptionWorker.defaultSampleRate : Nat) = .ok (max 1 rounded) := by
    have target : ((WhisperTranscriptionWorker.defaultSampleRate : Nat) : Int) = 16000 := rfl
    have scaled : double.round (((count : Int) * 16000 : Int) : Rat) =
        (((count : Int) * 16000 : Int) : Rat) := by
      apply double.exact
      unfold maxInt at small
      omega
    unfold resampledLength
    rw [target, if_neg (by omega), if_neg (by omega)]
    simp only [scaled]
    push_cast
    rw [← exactIs, ← roundedIs, javaInt_of_range inRange.1 fits]
  refine ⟨(max 1 rounded).toNat, ?_, ?_, ?_⟩
  · rw [computed, Int.toNat_of_nonneg (by omega)]
  · unfold maxInt
    omega
  · rw [← exactIs]
    rcases Int.lt_or_le 0 rounded with one | none
    · have same : (max 1 rounded).toNat = rounded.toNat := by omega
      have cast : ((rounded.toNat : Nat) : Rat) = rounded := by
        exact_mod_cast Int.toNat_of_nonneg inRange.1
      rw [same, cast, abs_le]
      constructor <;> linarith [near.1, near.2, close.1, close.2]
    · have zero : rounded = 0 := by omega
      rw [zero, Int.cast_zero] at close
      rw [zero, abs_le]
      have one : ((max 1 (0 : Int)).toNat : Rat) = 1 := by norm_num
      rw [one]
      constructor <;> linarith [near.1, near.2, close.1, close.2]

private theorem flatten_blocks {Value : Type} {length : Nat} (positive : 0 < length)
    (values : List Value) : (blocks length values).flatten = values := by
  fun_induction blocks length values with
  | case1 values more ih => rw [List.flatten_cons, ih, List.take_append_drop]
  | case2 values none =>
    by_contra some
    exact none ⟨fun empty => some empty.symm, positive⟩

private theorem length_of_mem_blocks {Value : Type} {length : Nat} {values block : List Value}
    (member : block ∈ blocks length values) : 0 < block.length ∧ block.length ≤ length := by
  fun_induction blocks length values with
  | case1 values more ih =>
    rcases List.mem_cons.mp member with first | later
    · have some := List.length_pos_of_ne_nil more.1
      rw [first, List.length_take]
      omega
    · exact ih later
  | case2 values none => cases member

theorem map_pcm_chunkCalls (start : Nat) (outputs : List (List Int16)) :
    (chunkCalls start outputs).map (·.pcm) = outputs := by
  induction outputs generalizing start with
  | nil => rfl
  | cons output rest ih => rw [chunkCalls, List.map_cons, ih]

/-- A rate and a window whose blocks keep their duration up to a sample. -/
structure Windowed (double : Rounding) (sampleRate : Int) (length : Nat) : Prop where
  positive : 0 < sampleRate
  chunked : 0 < length
  small : length ≤ maxInt
  near : ∀ count, 0 < count → count ≤ length → ∃ outputLength : Nat,
    resampledLength double count sampleRate (WhisperTranscriptionWorker.defaultSampleRate : Nat) =
      .ok (outputLength : Int) ∧
    outputLength ≤ maxInt / 2 ∧ |(outputLength : Rat) - count * 16000 / sampleRate| ≤ 1

namespace Windowed

variable {double : Rounding} {sampleRate : Int} {length : Nat}

theorem room (windowed : Windowed double sampleRate length) {count : Nat} (some : 0 < count)
    (within : count ≤ length) : WhisperPcmChunkEmitter.RoomFor double sampleRate count := by
  intro outputLength computed
  obtain ⟨near, nearComputed, fits, -⟩ := windowed.near count some within
  rw [computed] at nearComputed
  injection nearComputed with same
  omega

/-- The output of a block. -/
theorem block (windowed : Windowed double sampleRate length) {values : List Int16}
    (some : 0 < values.length) (within : values.length ≤ length) :
    |((resampleBlock double sampleRate (WhisperTranscriptionWorker.defaultSampleRate : Nat)
      values).length : Rat) - values.length * 16000 / sampleRate| ≤ 1 := by
  obtain ⟨outputLength, computed, -, near⟩ := windowed.near values.length some within
  have rated := WhisperPcmChunkEmitter.rated_default double windowed.positive
    (Nat.le_trans within windowed.small)
  rw [length_resampleBlock rated computed]
  exact near

/-- The outputs of all blocks: each adds at most a sample of error. -/
theorem blocks (windowed : Windowed double sampleRate length) {all : List (List Int16)}
    (sized : ∀ block ∈ all, 0 < block.length ∧ block.length ≤ length) :
    |(totalLength (all.map (resampleBlock double sampleRate
        (WhisperTranscriptionWorker.defaultSampleRate : Nat))) : Rat) -
      all.flatten.length * 16000 / sampleRate| ≤ all.length := by
  induction all with
  | nil => simp [totalLength]
  | cons block rest ih =>
    obtain ⟨some, within⟩ := sized block List.mem_cons_self
    have first := windowed.block some within
    have later := ih fun other member => sized other (List.mem_cons_of_mem block member)
    have total : ∀ outputs : List (List Int16), ∀ output : List Int16,
        totalLength (output :: outputs) = output.length + totalLength outputs := by
      intro outputs output
      simp [totalLength]
    rw [List.map_cons, total, List.flatten_cons, List.length_append, List.length_cons]
    push_cast
    rw [abs_le] at first later ⊢
    rw [add_mul, add_div]
    constructor <;> linarith [first.1, first.2, later.1, later.2]

end Windowed

/-- `sourceSamplesPerChunk` of a new emitter. -/
def samplesPerChunk (sampleRate chunkDurationMs : Int) : Nat :=
  (max 1 (sampleRate * chunkDurationMs / 1000)).toNat

/-- The largest window of the settings for files keeps durations at every rate that
the emitter accepts. -/
theorem windowed_create {double : Rounding} (nearest : double.Nearest)
    {sampleRate chunkDurationMs : Int} (window : chunkDurationMs ≤ 300000)
    {emitter : WhisperPcmChunkEmitter}
    (accepted : WhisperPcmChunkEmitter.create sampleRate chunkDurationMs = .ok emitter) :
    emitter.sourceSamplesPerChunk = samplesPerChunk sampleRate chunkDurationMs ∧
      Windowed double sampleRate (samplesPerChunk sampleRate chunkDurationMs) := by
  obtain ⟨positive, small, holds⟩ := WhisperPcmChunkEmitter.create_holds double accepted
  have short := holds.short
  unfold WhisperPcmChunkEmitter.create at accepted
  split at accepted
  · cases accepted
  · rename_i valid
    simp only at accepted
    split at accepted
    · cases accepted
    · rename_i fits
      injection accepted with made
      have perChunk : emitter.sourceSamplesPerChunk =
          samplesPerChunk sampleRate chunkDurationMs := by
        rw [← made, samplesPerChunk]
      have longer : sampleRate * 1 ≤ sampleRate * chunkDurationMs :=
        Int.mul_le_mul_of_nonneg_left (by omega) (by omega)
      have shorter : sampleRate * chunkDurationMs ≤ sampleRate * 300000 :=
        Int.mul_le_mul_of_nonneg_left window (by omega)
      rw [perChunk] at short small
      refine ⟨perChunk, positive, Nat.lt_of_le_of_lt (Nat.zero_le _) short, small, ?_⟩
      intro count some within
      unfold samplesPerChunk at within
      apply resampledLength_near nearest some positive (Nat.le_trans within small)
      · unfold maxInt at fits
        omega
      · omega

/-- What an emitter holds that took these frames in. -/
structure Consumed (double : Rounding) (sampleRate : Int) (length : Nat)
    (frames : List RatedFrame) (emitter : WhisperPcmChunkEmitter) : Prop where
  windowed : Windowed double sampleRate length
  holds : ∃ full rest, WhisperPcmChunkEmitter.Holds double sampleRate length emitter full rest ∧
    full.flatten ++ rest = frames.map RatedFrame.mono

/-- What a track has become at the end of the stream: blocks of its mono samples,
each resampled from one rate. -/
structure Converted (double : Rounding) (sampleRate : Int) (length : Nat)
    (frames : List RatedFrame) (finished : WhisperPcmChunkEmitter) (summary : DecodeSummary) :
    Prop where
  rate : finished.sourceSampleRate = sampleRate
  perChunk : finished.sourceSamplesPerChunk = length
  windowed : Windowed double sampleRate length
  calls : finished.calls = chunkCalls 0
    ((blocks finished.sourceSamplesPerChunk (frames.map RatedFrame.mono)).map
      (resampleBlock double finished.sourceSampleRate
        (WhisperTranscriptionWorker.defaultSampleRate : Nat)))
  summary : summary = ⟨Int64.ofNat (totalLength (finished.calls.map (·.pcm))),
    (WhisperTranscriptionWorker.defaultSampleRate : Nat), Int32.ofNat finished.calls.length⟩

section Track

variable {double : Rounding} {fuel length : Nat} {chunkDurationMs sampleRate : Int}
variable {finished : WhisperPcmChunkEmitter} {summary : DecodeSummary}

private theorem consumed_create (nearest : double.Nearest) (window : chunkDurationMs ≤ 300000)
    {emitter : WhisperPcmChunkEmitter}
    (accepted : WhisperPcmChunkEmitter.create sampleRate chunkDurationMs = .ok emitter) :
    Consumed double sampleRate (samplesPerChunk sampleRate chunkDurationMs) [] emitter := by
  obtain ⟨-, -, holds⟩ := WhisperPcmChunkEmitter.create_holds double accepted
  obtain ⟨perChunk, windowed⟩ := windowed_create nearest window accepted
  exact ⟨windowed, [], [], perChunk ▸ holds, rfl⟩

theorem Consumed.append {frames : List RatedFrame} {emitter appended : WhisperPcmChunkEmitter}
    (consumed : Consumed double sampleRate length frames emitter) {format : OutputFormat}
    {outputBuffer : Option CodecBuffer}
    (done : emitter.append double fuel
      (.codec (outputBuffer.map fun given => given.inFormat format)) = .ok appended) :
    Consumed double sampleRate length (frames ++ outputFrames format outputBuffer) appended := by
  obtain ⟨full, rest, holds, flat⟩ := consumed.holds
  have windowed := consumed.windowed
  obtain ⟨fuller, left, kept, grown⟩ := holds.append_ok windowed.positive windowed.small
    (windowed.room windowed.chunked (Nat.le_refl _)) done
  refine ⟨windowed, fuller, left, kept, ?_⟩
  rw [grown, flat, List.map_append]

theorem Consumed.finish {frames : List RatedFrame} {emitter : WhisperPcmChunkEmitter}
    (consumed : Consumed double sampleRate length frames emitter)
    (done : emitter.finish double = .ok (finished, summary)) :
    Converted double sampleRate length frames finished summary := by
  obtain ⟨full, rest, holds, flat⟩ := consumed.holds
  have windowed := consumed.windowed
  have short := holds.short
  obtain ⟨other, result, calls, rate, perChunk⟩ := holds.finish windowed.positive windowed.small
    (fun some => windowed.room (List.length_pos_of_ne_nil some) (Nat.le_of_lt short)) rfl
  rw [done] at result
  injection result with same
  injection same with emitterIs summaryIs
  subst emitterIs
  rw [flat] at calls summaryIs
  have pcms := congrArg (List.map (·.pcm)) calls
  rw [map_pcm_chunkCalls] at pcms
  have count := congrArg List.length calls
  rw [length_chunkCalls] at count
  refine ⟨rate, perChunk, windowed, ?_, ?_⟩
  · rw [rate, perChunk]
    exact calls
  · rw [summaryIs, pcms, count]

/-- The results that follow a buffer, for a loop that goes on as `later` says. -/
theorem Consumed.output {frames : List RatedFrame} {emitter : WhisperPcmChunkEmitter}
    (consumed : Consumed double sampleRate length frames emitter) {format : OutputFormat}
    {outputBuffer : Option CodecBuffer} {endOfStream : Bool} {rest : List CodecResult}
    (later : ∀ {frames emitter}, Consumed double sampleRate length frames emitter →
      decodeLoop double fuel chunkDurationMs format (some emitter) rest = .ok (finished, summary) →
      Converted double sampleRate length (frames ++ framesInForce format rest) finished summary)
    (done : decodeLoop double fuel chunkDurationMs format (some emitter)
      (.output outputBuffer endOfStream :: rest) = .ok (finished, summary)) :
    Converted double sampleRate length
      (frames ++ framesInForce format (.output outputBuffer endOfStream :: rest))
      finished summary := by
  obtain ⟨_, unchanged, opened⟩ := bind_eq_ok done
  cases unchanged
  obtain ⟨appended, taken, remaining⟩ := bind_eq_ok opened
  have grown := consumed.append taken
  rw [framesInForce, ← List.append_assoc]
  cases endOfStream with
  | true =>
    rw [if_pos rfl, List.append_nil]
    exact grown.finish remaining
  | false => exact later grown remaining

/-- The loop with an emitter, by induction on the results. -/
theorem Consumed.decodeLoop {results : List CodecResult} {format : OutputFormat}
    {frames : List RatedFrame} {emitter : WhisperPcmChunkEmitter}
    (consumed : Consumed double sampleRate length frames emitter)
    (done : decodeLoop double fuel chunkDurationMs format (some emitter) results =
      .ok (finished, summary)) :
    Converted double sampleRate length (frames ++ framesInForce format results) finished summary := by
  induction results generalizing format frames emitter with
  | nil => cases done
  | cons result rest ih =>
    cases result with
    | tryAgainLater => exact ih consumed done
    | outputFormatChanged change => exact ih consumed done
    | outputBuffersChanged => exact ih consumed done
    | output outputBuffer endOfStream => exact consumed.output ih done

theorem decodeLoop_output {emitter appended : WhisperPcmChunkEmitter} {format : OutputFormat}
    {outputBuffer : Option CodecBuffer} {endOfStream : Bool} {rest : List CodecResult}
    (taken : emitter.append double fuel
      (.codec (outputBuffer.map fun given => given.inFormat format)) = .ok appended) :
    decodeLoop double fuel chunkDurationMs format (some emitter)
        (.output outputBuffer endOfStream :: rest) =
      if endOfStream then appended.finish double
      else decodeLoop double fuel chunkDurationMs format (some appended) rest := by
  show (emitter.append double fuel _ >>= _) = _
  rw [taken]
  rfl

theorem decodeLoop_converted (nearest : double.Nearest) (window : chunkDurationMs ≤ 300000)
    {results : List CodecResult} {format : OutputFormat}
    (done : decodeLoop double fuel chunkDurationMs format none results = .ok (finished, summary)) :
    Converted double (firstRate format results)
      (samplesPerChunk (firstRate format results) chunkDurationMs)
      (framesInForce format results) finished summary := by
  induction results generalizing format with
  | nil => cases done
  | cons result rest ih =>
    cases result with
    | tryAgainLater => exact ih done
    | outputFormatChanged change => exact ih done
    | outputBuffersChanged => exact ih done
    | output outputBuffer endOfStream =>
      obtain ⟨emitter, accepted, remaining⟩ := bind_eq_ok done
      have consumed := consumed_create nearest window accepted
      exact consumed.output Consumed.decodeLoop remaining

end Track

/-- The duration of frames that each last one period of their own rate. -/
def duration (frames : List RatedFrame) : Rat :=
  (frames.map fun rated => 1 / (rated.sampleRate : Rat)).sum

theorem duration_of_rate {frames : List RatedFrame} {sampleRate : Int}
    (rates : ∀ rated ∈ frames, rated.sampleRate = sampleRate) :
    duration frames = frames.length / sampleRate := by
  induction frames with
  | nil => simp [duration]
  | cons rated rest ih =>
    have later := ih fun other member => rates other (List.mem_cons_of_mem rated member)
    unfold duration at later ⊢
    rw [List.map_cons, List.sum_cons, later, rates rated List.mem_cons_self, List.length_cons]
    push_cast
    rw [add_div, add_comm]

private theorem duration_append (first second : List RatedFrame) :
    duration (first ++ second) = duration first + duration second := by
  rw [duration, List.map_append, List.sum_append]
  rfl

/-- Every frame is mixed down in its own format, resampled from its own rate, and
lasts in the output as long as at that rate, up to one sample for each chunk. -/
structure Honoured (double : Rounding) (frames : List RatedFrame)
    (finished : WhisperPcmChunkEmitter) (summary : DecodeSummary) : Prop where
  rates : ∀ rated ∈ frames, rated.sampleRate = finished.sourceSampleRate
  calls : finished.calls = chunkCalls 0
    ((blocks finished.sourceSamplesPerChunk (frames.map RatedFrame.mono)).map
      (resampleBlock double finished.sourceSampleRate
        (WhisperTranscriptionWorker.defaultSampleRate : Nat)))
  summary : summary = ⟨Int64.ofNat (totalLength (finished.calls.map (·.pcm))),
    (WhisperTranscriptionWorker.defaultSampleRate : Nat), Int32.ofNat finished.calls.length⟩
  lasts : |(totalLength (finished.calls.map (·.pcm)) : Rat) / 16000 - duration frames| ≤
    finished.calls.length / 16000

/-- No buffer with a frame comes under another rate than the first buffer. -/
def RateKept (format : OutputFormat) (results : List CodecResult) : Prop :=
  ∀ rated ∈ framesInForce format results, rated.sampleRate = firstRate format results

/-- The output is as long as all the frames at the one rate, up to one sample for each
chunk. -/
theorem Converted.near {double : Rounding} {sampleRate : Int} {length : Nat}
    {frames : List RatedFrame} {finished : WhisperPcmChunkEmitter} {summary : DecodeSummary}
    (converted : Converted double sampleRate length frames finished summary) :
    finished.calls.length = (blocks length (frames.map RatedFrame.mono)).length ∧
      |(totalLength (finished.calls.map (·.pcm)) : Rat) - frames.length * 16000 / sampleRate| ≤
        finished.calls.length := by
  have windowed := converted.windowed
  have near := windowed.blocks fun block
    (member : block ∈ blocks length (frames.map RatedFrame.mono)) => length_of_mem_blocks member
  have pcms := congrArg (List.map (·.pcm)) converted.calls
  rw [map_pcm_chunkCalls, converted.rate, converted.perChunk] at pcms
  have count := congrArg List.length pcms
  rw [List.length_map, List.length_map] at count
  rw [← pcms, flatten_blocks windowed.chunked, List.length_map, ← count] at near
  exact ⟨count, near⟩

theorem Converted.honoured {double : Rounding} {sampleRate : Int} {length : Nat}
    {frames : List RatedFrame} {finished : WhisperPcmChunkEmitter} {summary : DecodeSummary}
    (converted : Converted double sampleRate length frames finished summary)
    (rates : ∀ rated ∈ frames, rated.sampleRate = sampleRate) :
    Honoured double frames finished summary where
  rates := by
    rw [converted.rate]
    exact rates
  calls := converted.calls
  summary := converted.summary
  lasts := by
    have scaled : (frames.length : Rat) * 16000 / sampleRate / 16000 =
        frames.length / sampleRate := by
      rw [mul_div_right_comm, mul_div_cancel_right₀ _ (by norm_num)]
    rw [duration_of_rate rates, ← scaled, ← sub_div, abs_div,
      abs_of_pos (show (0 : Rat) < 16000 by norm_num)]
    exact div_le_div_of_nonneg_right converted.near.2 (by norm_num)

/-- A track that is decoded to its end is converted with the formats in force exactly
when the sample rate of the first buffer is kept. -/
theorem decodeTrack_honoured_iff {double : Rounding} (nearest : double.Nearest) {fuel : Nat}
    {sampleRate channelCount chunkDurationMs : Int} (window : chunkDurationMs ≤ 300000)
    {results : List CodecResult} {finished : WhisperPcmChunkEmitter} {summary : DecodeSummary}
    (done : decodeTrack double fuel sampleRate channelCount chunkDurationMs results =
      .ok (finished, summary)) :
    Honoured double (framesInForce ⟨sampleRate, channelCount, 2⟩ results) finished summary ↔
      RateKept ⟨sampleRate, channelCount, 2⟩ results := by
  have converted := decodeLoop_converted nearest window done
  constructor
  · intro honoured rated member
    rw [honoured.rates rated member, converted.rate]
  · exact converted.honoured

/-- Silence from the codec, in 16-bit mono at the format in force. -/
def silentOutput (size : Nat) (small : size ≤ maxInt) : CodecBuffer :=
  ⟨⟨fun _ => 0, size, size, Nat.le_refl _, small⟩, 0, size, Nat.le_of_eq (Nat.zero_add _)⟩

theorem fits_int : 2 ≤ maxInt ∧ 200 ≤ maxInt := by decide

/-- A frame at 16000 Hz, and a hundred after a change of the rate. -/
def changedTrack (sampleRate : Int) : List CodecResult :=
  [.tryAgainLater, .output (some (silentOutput 2 fits_int.1)) false,
    .outputFormatChanged ⟨some sampleRate, none, none⟩,
    .output (some (silentOutput 200 fits_int.2)) true]

private theorem fed_silentOutput {size fuel : Nat} {small : size ≤ maxInt} (format : OutputFormat)
    (mono : format.channelCount = 1) (pcm16 : format.pcmEncoding = 2) (range : size + 2 ≤ maxInt)
    (fueled : size < fuel) :
    WhisperPcmChunkEmitter.Fed fuel ((silentOutput size small).inFormat format) := by
  refine ⟨⟨.pcm16, ⟨?_, ?_⟩, ?_⟩, fueled⟩
  · show 0 < format.channelCount
    rw [mono]
    exact Int.zero_lt_one
  · show PcmEncoding.of format.pcmEncoding = _
    rw [pcm16]
    rfl
  · show 0 + size + 2 * format.channelCount.toNat ≤ maxInt
    rw [mono, Nat.zero_add]
    exact range

theorem decodeTrack_changedTrack (sampleRate : Int) : ∃ finished summary,
    decodeTrack .rational 300 16000 1 30000 (changedTrack sampleRate) = .ok (finished, summary) := by
  obtain ⟨emitter, made⟩ : ∃ emitter, WhisperPcmChunkEmitter.create 16000 30000 = .ok emitter :=
    ⟨_, rfl⟩
  obtain ⟨positive, small, holds⟩ := WhisperPcmChunkEmitter.create_holds .rational made
  have perChunk : emitter.sourceSamplesPerChunk = 480000 := by
    injection made with same
    rw [← same]
    rfl
  have room : ∀ count, count ≤ 480000 → WhisperPcmChunkEmitter.RoomFor .rational 16000 count :=
    fun count within => WhisperPcmChunkEmitter.roomFor_target .rational
      (Nat.le_trans within (by decide))
  rw [perChunk] at holds small
  have fed : ∀ format size (small : size ≤ maxInt), format.channelCount = 1 →
      format.pcmEncoding = 2 → size ≤ 200 → WhisperPcmChunkEmitter.Output.Every
        (WhisperPcmChunkEmitter.Fed 300)
        (.codec ((some (silentOutput size small)).map fun given => given.inFormat format)) :=
    fun format size _ mono pcm16 few => fed_silentOutput format mono pcm16
      (Nat.le_trans (Nat.add_le_add_right few 2) (by decide)) (by omega)
  obtain ⟨first, full, rest, taken, kept, -⟩ :=
    holds.append (fed ⟨16000, 1, 2⟩ 2 fits_int.1 rfl rfl (by decide)) positive small
      (fun _ => room _ (Nat.le_refl _))
  obtain ⟨second, fuller, left, takenNext, keptNext, -⟩ :=
    kept.append (fed ⟨sampleRate, 1, 2⟩ 200 fits_int.2 rfl rfl (by decide)) positive small
      (fun _ => room _ (Nat.le_refl _))
  obtain ⟨finished, done, -⟩ := keptNext.finish positive small
    (fun _ => room _ (Nat.le_of_lt keptNext.short)) rfl
  obtain ⟨summary, summarised⟩ : ∃ summary, second.finish .rational = .ok (finished, summary) :=
    ⟨_, done⟩
  refine ⟨finished, summary, ?_⟩
  show (WhisperPcmChunkEmitter.create 16000 30000 >>= _) = _
  rw [made]
  show decodeLoop .rational 300 30000 ⟨16000, 1, 2⟩ (some emitter) (changedTrack sampleRate).tail =
    _
  rw [changedTrack, List.tail_cons, decodeLoop_output taken, if_neg Bool.false_ne_true]
  rw [decodeLoop]
  exact (decodeLoop_output takenNext).trans summarised

theorem framesInForce_changedTrack (sampleRate : Int) :
    framesInForce ⟨16000, 1, 2⟩ (changedTrack sampleRate) =
      outputFrames ⟨16000, 1, 2⟩ (some (silentOutput 2 fits_int.1)) ++
        outputFrames ⟨sampleRate, 1, 2⟩ (some (silentOutput 200 fits_int.2)) := by
  rw [changedTrack, framesInForce, framesInForce, framesInForce, framesInForce]
  rw [if_neg Bool.false_ne_true, if_pos rfl, List.append_nil]
  rfl

theorem sampleRate_of_mem_outputFrames {format : OutputFormat} {outputBuffer : Option CodecBuffer}
    {rated : RatedFrame} (member : rated ∈ outputFrames format outputBuffer) :
    rated.sampleRate = format.sampleRate := by
  obtain ⟨frame, -, rfl⟩ := List.mem_map.mp member
  rfl

theorem length_outputFrames_silent (sampleRate : Int) {size : Nat} (small : size ≤ maxInt) :
    (outputFrames ⟨sampleRate, 1, 2⟩ (some (silentOutput size small))).length = size / 2 := by
  show (List.map _ (List.map _ (framesFrom _ 2 (size / 2) 0))).length = _
  rw [List.length_map, List.length_map, length_framesFrom]

/-- A rate given once more at the change is kept. -/
theorem decodeTrack_honoured_iff_same_rate : ∃ finished summary,
    Honoured .rational (framesInForce ⟨16000, 1, 2⟩ (changedTrack 16000)) finished summary := by
  obtain ⟨finished, summary, done⟩ := decodeTrack_changedTrack 16000
  refine ⟨finished, summary, (decodeTrack_honoured_iff Rounding.nearest_rational (by decide)
    done).mpr ?_⟩
  intro rated member
  rw [framesInForce_changedTrack] at member
  rcases List.mem_append.mp member with first | second
  · exact sampleRate_of_mem_outputFrames first
  · exact sampleRate_of_mem_outputFrames second

/-- After the change to half the rate the frames last half as long in the output. -/
theorem decodeTrack_ignores_new_rate : ¬ ∀ (double : Rounding) (fuel : Nat)
    (sampleRate channelCount chunkDurationMs : Int) (results : List CodecResult)
    (finished : WhisperPcmChunkEmitter) (summary : DecodeSummary), double.Nearest →
      decodeTrack double fuel sampleRate channelCount chunkDurationMs results =
        .ok (finished, summary) →
      |(totalLength (finished.calls.map (·.pcm)) : Rat) / 16000 -
          duration (framesInForce ⟨sampleRate, channelCount, 2⟩ results)| ≤
        finished.calls.length / 16000 := by
  intro always
  obtain ⟨finished, summary, done⟩ := decodeTrack_changedTrack 8000
  have lasts := always _ _ _ _ _ _ _ _ Rounding.nearest_rational done
  obtain ⟨count, near⟩ := (decodeLoop_converted Rounding.nearest_rational (by decide) done).near
  have before := length_outputFrames_silent 16000 fits_int.1
  have after := length_outputFrames_silent 8000 fits_int.2
  have frames := framesInForce_changedTrack 8000
  have length : (framesInForce ⟨16000, 1, 2⟩ (changedTrack 8000)).length = 101 := by
    rw [frames, List.length_append, before, after]
  have one : finished.calls.length = 1 := by
    have monos : ((framesInForce ⟨16000, 1, 2⟩ (changedTrack 8000)).map
        RatedFrame.mono).length = 101 := by
      rw [List.length_map, length]
    rw [count, blocks_short]
    · rfl
    · exact List.ne_nil_of_length_pos (by omega)
    · rw [monos]
      decide
  have lasting : duration (framesInForce ⟨16000, 1, 2⟩ (changedTrack 8000)) = 201 / 16000 := by
    rw [frames, duration_append, duration_of_rate fun _ => sampleRate_of_mem_outputFrames,
      duration_of_rate fun _ => sampleRate_of_mem_outputFrames, before, after]
    norm_num
  have rate : firstRate ⟨16000, 1, 2⟩ (changedTrack 8000) = 16000 := rfl
  rw [lasting, one, abs_le] at lasts
  rw [length, rate, one, abs_le] at near
  push_cast at lasts near
  linarith [lasts.1, near.2]

end LocalWhisper.Record.Pcm
