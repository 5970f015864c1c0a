import LocalWhisper.Record.Buffer.Pcm16Builder
import LocalWhisper.Record.Buffer.RingBuffer
import LocalWhisper.Transcription.Worker

/-! `WhisperPcmChunkEmitter`: decoder output, mixed down to mono samples and
cut into chunks for the consumer. The direct storages have addresses, so that
the reuse of a delivered chunk's storage is visible. -/

namespace LocalWhisper.Record.Pcm

open LocalWhisper.Record.Buffer
open LocalWhisper.Transcription (WhisperTranscriptionWorker.defaultSampleRate)

/-- What differs between the three loops of `Pcm16AudioConverter`: the bytes of
one channel, the running sum, and the sample made of it. -/
structure Mixer where
  sampleBytes : Nat
  Mixed : Type
  zero : Mixed
  add : Mixed → List UInt8 → Mixed
  sample : Mixed → Int → Int16

/-- `Math.round(float)`. -/
def roundFloat (value : Float32) : Int :=
  let lower := value.floor
  (if 0.5 ≤ value - lower then lower + 1 else lower).toInt32.toInt

/-- `ByteBuffer.getShort`, little endian. -/
def littleShort : List UInt8 → Int16
  | [low, high] => (low.toUInt16 ||| (high.toUInt16 <<< 8)).toInt16
  | _ => 0

/-- `ByteBuffer.getFloat`, little endian. -/
def littleFloat : List UInt8 → Float32
  | [first, second, third, fourth] =>
    Float32.ofBits (first.toUInt32 ||| (second.toUInt32 <<< 8) ||| (third.toUInt32 <<< 16) |||
      (fourth.toUInt32 <<< 24))
  | _ => 0

def floatOfInt (value : Int) : Float32 := (Int32.ofInt value).toFloat32

/-- `Math.min(float, float)`, which keeps a NaN. -/
def floatMin (left right : Float32) : Float32 :=
  if left.isNaN then left else if right.isNaN then right else if left ≤ right then left else right

def floatMax (left right : Float32) : Float32 :=
  if left.isNaN then left else if right.isNaN then right else if left ≤ right then right else left

def floatToPcm16 (value : Float32) : Int16 :=
  let clamped := floatMax (-1.0) (floatMin 1.0 value)
  clampToShort (roundFloat (clamped * (if clamped < 0 then 32768.0 else 32767.0)))

/-- `appendPcm16`. -/
def mixPcm16 : Mixer where
  sampleBytes := 2
  Mixed := Int32
  zero := 0
  add mixed bytes := mixed + (littleShort bytes).toInt32
  sample mixed channelCount := clampToShort (roundFloat (mixed.toFloat32 / floatOfInt channelCount))

/-- `appendPcmFloat`. -/
def mixPcmFloat : Mixer where
  sampleBytes := 4
  Mixed := Float32
  zero := 0
  add mixed bytes := mixed + littleFloat bytes
  sample mixed channelCount := floatToPcm16 (mixed / floatOfInt channelCount)

/-- `appendPcm8`. -/
def mixPcm8 : Mixer where
  sampleBytes := 1
  Mixed := Int32
  zero := 0
  add mixed bytes := mixed + (Int32.ofNat (bytes.headD 0).toNat - 128)
  sample mixed channelCount :=
    clampToShort (roundFloat (mixed.toFloat32 * 256.0 / floatOfInt channelCount))

/-- The encodings that both the emitter and the converter know. -/
inductive PcmEncoding where
  | pcm16
  | pcmFloat
  | pcm8
  deriving DecidableEq, Repr

namespace PcmEncoding

/-- `AudioFormat.ENCODING_PCM_16BIT`, `ENCODING_PCM_FLOAT` and
`ENCODING_PCM_8BIT`, in the order in which the source tests them. -/
def of (pcmEncoding : Int) : Except Failure PcmEncoding :=
  if pcmEncoding = 2 then .ok .pcm16
  else if pcmEncoding = 4 then .ok .pcmFloat
  else if pcmEncoding = 3 then .ok .pcm8
  else .error (.illegalArgument s!"Unsupported PCM encoding: {pcmEncoding}")

def bytesPerSample : PcmEncoding → Nat
  | pcm16 => 2
  | pcmFloat => 4
  | pcm8 => 1

def mixer : PcmEncoding → Mixer
  | pcm16 => mixPcm16
  | pcmFloat => mixPcmFloat
  | pcm8 => mixPcm8

@[simp] theorem mixer_sampleBytes (encoding : PcmEncoding) :
    encoding.mixer.sampleBytes = encoding.bytesPerSample := by
  cases encoding <;> rfl

end PcmEncoding

def takeBytes (count : Nat) (bytes : List UInt8) : Except Failure (List UInt8 × List UInt8) :=
  if bytes.length < count then .error .bufferUnderflow
  else .ok (bytes.take count, bytes.drop count)

namespace Mixer

/-- The loop over the channels of one frame. -/
def mix (mixer : Mixer) :
    Nat → List UInt8 → mixer.Mixed → Except Failure (mixer.Mixed × List UInt8)
  | 0, bytes, mixed => .ok (mixed, bytes)
  | channels + 1, bytes, mixed => do
    let (channel, rest) ← takeBytes mixer.sampleBytes bytes
    mixer.mix channels rest (mixer.add mixed channel)

/-- The loop over the frames. -/
def appendFrames (mixer : Mixer) (channelCount : Int) :
    Nat → List UInt8 → DirectPcm16Builder → Except Failure DirectPcm16Builder
  | 0, _, output => .ok output
  | frames + 1, bytes, output => do
    let (mixed, rest) ← mixer.mix channelCount.toNat bytes mixer.zero
    let output ← output.append (mixer.sample mixed channelCount)
    mixer.appendFrames channelCount frames rest output

end Mixer

structure ByteBuffer where
  get : Nat → UInt8
  limit : Nat
  capacity : Nat
  inside : limit ≤ capacity
  small : capacity ≤ maxInt

/-- The bytes of a duplicate whose position and limit are set to a range. -/
def ByteBuffer.range (buffer : ByteBuffer) (offset size : Int) :
    Except Failure (List UInt8) :=
  if offset < 0 ∨ (buffer.limit : Int) < offset then
    .error (.illegalArgument s!"position {offset}")
  else
    let limit := javaInt (offset + size)
    if limit < 0 ∨ (buffer.capacity : Int) < limit then
      .error (.illegalArgument s!"limit {limit}")
    else .ok (readSpan buffer.get offset.toNat (limit - offset).toNat)

/-- `Pcm16AudioConverter.appendMonoPcm16`. The encoding selects the loop after
the range is set; a supported encoding cannot fail there. -/
def appendMonoPcm16 (buffer : ByteBuffer) (offset size channelCount pcmEncoding : Int)
    (output : DirectPcm16Builder) : Except Failure DirectPcm16Builder :=
  if channelCount ≤ 0 then .error (.illegalArgument "channelCount must be positive")
  else do
    let bytes ← buffer.range offset size
    let encoding ← PcmEncoding.of pcmEncoding
    let bytesPerFrame := javaInt (encoding.mixer.sampleBytes * channelCount)
    if bytesPerFrame = 0 then .error .divisionByZero
    else
      encoding.mixer.appendFrames channelCount ((bytes.length : Int).tdiv bytesPerFrame).toNat bytes
        output

structure DecodedAudio where
  samples : Nat
  sampleCount : Nat
  sampleRate : Int

def DecodedAudio.create (storages : Storages) (samples sampleCount : Nat) (sampleRate : Int) :
    Except Failure DecodedAudio :=
  if (storages.get samples).length < sampleCount then
    .error (.illegalArgument "sampleCount is outside samples")
  else if sampleRate ≤ 0 then .error (.illegalArgument "sampleRate must be positive")
  else .ok ⟨samples, sampleCount, sampleRate⟩

/-- The samples a reader of the audio finds in the storage. -/
def DecodedAudio.read (audio : DecodedAudio) (storages : Storages) : List Int16 :=
  (storages.get audio.samples).take audio.sampleCount

structure PendingChunk where
  audio : DecodedAudio
  startSample : Int64

/-- One `onChunk` call, with the samples the consumer finds in the storage. -/
structure ChunkCall where
  pcm : List Int16
  startSample : Int64
  finalChunk : Bool
  deriving DecidableEq

structure DecodeSummary where
  sampleCount : Int64
  sampleRate : Int
  chunkCount : Int32
  deriving DecidableEq

structure WhisperPcmChunkEmitter where
  sourceSampleRate : Int
  targetSampleRate : Int
  sourceSamplesPerChunk : Nat
  sourceSamples : DirectPcm16Builder
  storages : Storages
  pending : Option PendingChunk
  spareOutput : Option DirectPcm16Buffer
  emittedSampleCount : Int64
  chunkCount : Int32
  /-- What the consumer was called with. -/
  calls : List ChunkCall

namespace WhisperPcmChunkEmitter

def create (sourceSampleRate chunkDurationMs : Int) : Except Failure WhisperPcmChunkEmitter :=
  if sourceSampleRate ≤ 0 ∨ chunkDurationMs ≤ 0 then
    .error (.illegalArgument "sample rate and chunk duration must be positive")
  else
    let sourceChunkSamples := sourceSampleRate * chunkDurationMs / 1000
    if (maxInt : Int) < sourceChunkSamples then
      .error (.illegalArgument "PCM chunk is too large")
    else
      .ok
        { sourceSampleRate
          targetSampleRate := (WhisperTranscriptionWorker.defaultSampleRate : Nat)
          sourceSamplesPerChunk := (max 1 sourceChunkSamples).toNat
          sourceSamples := ⟨DirectPcm16Builder.defaultChunkSamples, [], 0⟩
          storages := .empty
          pending := none
          spareOutput := none
          emittedSampleCount := 0
          chunkCount := 0
          calls := [] }

def onChunk (emitter : WhisperPcmChunkEmitter) (pending : PendingChunk) (finalChunk : Bool) :
    WhisperPcmChunkEmitter :=
  { emitter with
    calls := emitter.calls ++
      [⟨pending.audio.read emitter.storages, pending.startSample, finalChunk⟩] }

/-- The spare storage where it is large enough, else a new one. -/
def chooseOutput (emitter : WhisperPcmChunkEmitter) (outputLength : Int) :
    Except Failure (Storages × DirectPcm16Buffer) :=
  match emitter.spareOutput with
  | some spare =>
    if outputLength ≤ spare.sampleCapacity emitter.storages then .ok (emitter.storages, spare)
    else DirectPcm16Buffer.create emitter.storages (max 1 outputLength)
  | none => DirectPcm16Buffer.create emitter.storages (max 1 outputLength)

/-- The pending chunk goes to the consumer and its storage becomes the spare. -/
def deliverPending (emitter : WhisperPcmChunkEmitter) : Except Failure WhisperPcmChunkEmitter :=
  match emitter.pending with
  | none => .ok emitter
  | some pending => do
    let emitter := emitter.onChunk pending false
    let spare ← DirectPcm16Buffer.wrap emitter.storages pending.audio.samples
    return { emitter with spareOutput := some spare }

def preparePendingChunk (emitter : WhisperPcmChunkEmitter) (double : Rounding) :
    Except Failure WhisperPcmChunkEmitter := do
  let outputLength ← resampledLength double emitter.sourceSamples.size
    emitter.sourceSampleRate emitter.targetSampleRate
  let (storages, output) ← emitter.chooseOutput outputLength
  let (storages, output) ← emitter.sourceSamples.resampleInto double
    emitter.sourceSampleRate emitter.targetSampleRate storages output
  let emitter := { emitter with
    storages := storages
    spareOutput := none
    sourceSamples := emitter.sourceSamples.clear }
  let emitter ← emitter.deliverPending
  let audio ← DecodedAudio.create emitter.storages output.bytes output.sampleCount
    emitter.targetSampleRate
  return { emitter with
    pending := some ⟨audio, emitter.emittedSampleCount⟩
    emittedSampleCount := emitter.emittedSampleCount + Int64.ofNat output.sampleCount
    chunkCount := emitter.chunkCount + 1 }

/-- The end of a round of `appendBuffer`. -/
def prepareFull (emitter : WhisperPcmChunkEmitter) (double : Rounding) :
    Except Failure WhisperPcmChunkEmitter :=
  if emitter.sourceSamples.size = emitter.sourceSamplesPerChunk then
    emitter.preparePendingChunk double
  else .ok emitter

/-- The start of `finish`: the samples of a last short window. -/
def prepareRest (emitter : WhisperPcmChunkEmitter) (double : Rounding) :
    Except Failure WhisperPcmChunkEmitter :=
  if 0 < emitter.sourceSamples.size then emitter.preparePendingChunk double else .ok emitter

/-- The loop of `appendBuffer` from `byteOffset` on, with `int` arithmetic. -/
def appendFrom (double : Rounding) (buffer : ByteBuffer)
    (channelCount pcmEncoding bytesPerFrame byteEnd : Int) :
    Nat → Int → WhisperPcmChunkEmitter → Except Failure WhisperPcmChunkEmitter
  | 0, _, _ => .error .running
  | fuel + 1, byteOffset, emitter =>
    if byteEnd < javaInt (byteOffset + bytesPerFrame) then .ok emitter
    else if bytesPerFrame = 0 then .error .divisionByZero
    else do
      let availableFrames := (byteEnd - byteOffset).tdiv bytesPerFrame
      let chunkSpace : Int := emitter.sourceSamplesPerChunk - emitter.sourceSamples.size
      let frames := min availableFrames chunkSpace
      let size := javaInt (frames * bytesPerFrame)
      let sourceSamples ← appendMonoPcm16 buffer byteOffset size channelCount pcmEncoding
        emitter.sourceSamples
      let emitter := { emitter with sourceSamples := sourceSamples }
      let emitter ← emitter.prepareFull double
      appendFrom double buffer channelCount pcmEncoding bytesPerFrame byteEnd fuel
        (javaInt (byteOffset + size)) emitter

end WhisperPcmChunkEmitter

/-- What the decoder hands over at once: a range of a buffer and the format in
force. -/
structure DecoderBuffer where
  buffer : ByteBuffer
  offset : Nat
  size : Nat
  inside : offset + size ≤ buffer.limit
  channelCount : Int
  pcmEncoding : Int

namespace WhisperPcmChunkEmitter

def appendBuffer (emitter : WhisperPcmChunkEmitter) (double : Rounding) (fuel : Nat)
    (given : DecoderBuffer) : Except Failure WhisperPcmChunkEmitter :=
  if given.channelCount ≤ 0 then .error (.illegalArgument "channelCount must be positive")
  else do
    let encoding ← PcmEncoding.of given.pcmEncoding
    let bytesPerFrame := javaInt (encoding.bytesPerSample * given.channelCount)
    let byteEnd := javaInt (given.offset + given.size)
    appendFrom double given.buffer given.channelCount given.pcmEncoding bytesPerFrame byteEnd
      fuel given.offset emitter

/-- A codec's output is skipped where it is empty, a raw one is not. -/
inductive Output where
  | codec (outputBuffer : Option DecoderBuffer)
  | raw (buffer : DecoderBuffer)

/-- `appendCodecOutput` and `appendRawOutput`. -/
def append (emitter : WhisperPcmChunkEmitter) (double : Rounding) (fuel : Nat) :
    Output → Except Failure WhisperPcmChunkEmitter
  | .codec none => .ok emitter
  | .codec (some given) =>
    if 0 < given.size then emitter.appendBuffer double fuel given else .ok emitter
  | .raw given => emitter.appendBuffer double fuel given

/-- The last chunk goes to the consumer at the end of `finish`. -/
def deliverLast (emitter : WhisperPcmChunkEmitter) : WhisperPcmChunkEmitter :=
  match emitter.pending with
  | none => emitter
  | some pending => { emitter.onChunk pending true with pending := none }

def finish (emitter : WhisperPcmChunkEmitter) (double : Rounding) :
    Except Failure (WhisperPcmChunkEmitter × DecodeSummary) := do
  let emitter ← emitter.prepareRest double
  let emitter := emitter.deliverLast
  return (emitter, ⟨emitter.emittedSampleCount, emitter.targetSampleRate, emitter.chunkCount⟩)

/-- The decoder's outputs one after another, then `finish`. -/
def decode (emitter : WhisperPcmChunkEmitter) (double : Rounding) (fuel : Nat)
    (outputs : List Output) : Except Failure (WhisperPcmChunkEmitter × DecodeSummary) := do
  let emitter ← outputs.foldlM (fun emitter output => emitter.append double fuel output) emitter
  emitter.finish double

end WhisperPcmChunkEmitter

/-- `count` frames of a buffer from `offset` on. -/
def framesFrom (get : Nat → UInt8) (bytesPerFrame : Nat) : Nat → Nat → List (List UInt8)
  | 0, _ => []
  | count + 1, offset =>
    readSpan get offset bytesPerFrame ::
      framesFrom get bytesPerFrame count (offset + bytesPerFrame)

@[simp] theorem length_framesFrom (get : Nat → UInt8) (bytesPerFrame count offset : Nat) :
    (framesFrom get bytesPerFrame count offset).length = count := by
  induction count generalizing offset with
  | zero => rfl
  | succ count ih =>
    rw [framesFrom, List.length_cons, ih]

theorem framesFrom_add (get : Nat → UInt8) (bytesPerFrame first second offset : Nat) :
    framesFrom get bytesPerFrame (first + second) offset =
      framesFrom get bytesPerFrame first offset ++
        framesFrom get bytesPerFrame second (offset + first * bytesPerFrame) := by
  induction first generalizing offset with
  | zero => simp [framesFrom]
  | succ first ih =>
    have shifted : offset + bytesPerFrame + first * bytesPerFrame =
        offset + (first + 1) * bytesPerFrame := by
      rw [Nat.succ_mul]
      omega
    rw [Nat.succ_add, framesFrom, ih, framesFrom, List.cons_append, shifted]

private theorem readSpan_add {Sample : Type} (storage : Nat → Sample) (offset first second : Nat) :
    readSpan storage offset (first + second) =
      readSpan storage offset first ++ readSpan storage (offset + first) second := by
  induction first generalizing offset with
  | zero => simp [readSpan]
  | succ first ih =>
    rw [Nat.succ_add, readSpan, ih, readSpan, List.cons_append, Nat.add_right_comm offset 1 first]
    rfl

private theorem flatten_framesFrom (get : Nat → UInt8) (bytesPerFrame count offset : Nat) :
    (framesFrom get bytesPerFrame count offset).flatten =
      readSpan get offset (count * bytesPerFrame) := by
  induction count generalizing offset with
  | zero => simp [framesFrom, readSpan]
  | succ count ih =>
    rw [framesFrom, List.flatten_cons, ih, Nat.succ_mul, Nat.add_comm (count * bytesPerFrame),
      readSpan_add]

private theorem length_of_mem_framesFrom {get : Nat → UInt8} {bytesPerFrame count offset : Nat}
    {frame : List UInt8} (member : frame ∈ framesFrom get bytesPerFrame count offset) :
    frame.length = bytesPerFrame := by
  induction count generalizing offset with
  | zero => cases member
  | succ count ih =>
    cases member with
    | head => exact length_readSpan get offset bytesPerFrame
    | tail _ later => exact ih later

namespace Mixer

/-- The sum over the channels of a frame that is long enough. -/
def total (mixer : Mixer) : Nat → List UInt8 → mixer.Mixed → mixer.Mixed
  | 0, _, mixed => mixed
  | channels + 1, bytes, mixed =>
    mixer.total channels (bytes.drop mixer.sampleBytes)
      (mixer.add mixed (bytes.take mixer.sampleBytes))

def mono (mixer : Mixer) (channelCount : Int) (frame : List UInt8) : Int16 :=
  mixer.sample (mixer.total channelCount.toNat frame mixer.zero) channelCount

theorem mix_ok (mixer : Mixer) (channels : Nat) (frame rest : List UInt8) (mixed : mixer.Mixed)
    (length : frame.length = channels * mixer.sampleBytes) :
    mixer.mix channels (frame ++ rest) mixed = .ok (mixer.total channels frame mixed, rest) := by
  induction channels generalizing frame mixed with
  | zero =>
    rw [Nat.zero_mul] at length
    rw [List.eq_nil_of_length_eq_zero length]
    rfl
  | succ channels ih =>
    rw [Nat.succ_mul] at length
    have taken : takeBytes mixer.sampleBytes (frame ++ rest) =
        .ok (frame.take mixer.sampleBytes, frame.drop mixer.sampleBytes ++ rest) := by
      unfold takeBytes
      rw [if_neg (by rw [List.length_append]; omega), List.take_append_of_le_length (by omega),
        List.drop_append_of_le_length (by omega)]
    have dropped : (frame.drop mixer.sampleBytes).length = channels * mixer.sampleBytes := by
      rw [List.length_drop]
      omega
    show (takeBytes mixer.sampleBytes (frame ++ rest) >>= _) = _
    rw [taken]
    exact ih (frame.drop mixer.sampleBytes) _ dropped

private theorem appendFrames_ok (mixer : Mixer) (channelCount : Int) (frames : List (List UInt8))
    (rest : List UInt8) {output : DirectPcm16Builder} {values : List Int16}
    (stores : output.Stores values)
    (lengths : ∀ frame ∈ frames, frame.length = channelCount.toNat * mixer.sampleBytes) :
    ∃ appended, mixer.appendFrames channelCount frames.length (frames.flatten ++ rest) output =
        .ok appended ∧
      appended.Stores (values ++ frames.map (mixer.mono channelCount)) := by
  induction frames generalizing output values with
  | nil =>
    refine ⟨output, rfl, ?_⟩
    rw [List.map_nil, List.append_nil]
    exact stores
  | cons frame later ih =>
    have mixed : mixer.mix channelCount.toNat ((frame :: later).flatten ++ rest) mixer.zero =
        .ok (mixer.total channelCount.toNat frame mixer.zero, later.flatten ++ rest) := by
      rw [List.flatten_cons, List.append_assoc]
      exact mixer.mix_ok _ frame _ _ (lengths frame List.mem_cons_self)
    obtain ⟨longer, appended, longerStores⟩ := stores.append (mixer.mono channelCount frame)
    obtain ⟨last, continued, lastStores⟩ := ih longerStores
      (fun other member => lengths other (List.mem_cons_of_mem frame member))
    refine ⟨last, ?_, ?_⟩
    · show (mixer.mix channelCount.toNat _ mixer.zero >>= _) = _
      rw [mixed]
      show (output.append (mixer.mono channelCount frame) >>= _) = _
      rw [appended]
      exact continued
    · rw [List.append_assoc] at lastStores
      exact lastStores

end Mixer

/-- The samples of a byte range that holds whole frames. -/
theorem appendMonoPcm16_ok (buffer : ByteBuffer) {encoding : PcmEncoding}
    {channelCount pcmEncoding : Int} (encoded : PcmEncoding.of pcmEncoding = .ok encoding)
    (channels : 0 < channelCount) {bytesPerFrame : Nat}
    (perFrame : (bytesPerFrame : Int) = encoding.bytesPerSample * channelCount)
    (positive : 0 < bytesPerFrame) (bounded : bytesPerFrame ≤ maxInt) {offset frames : Nat}
    (inside : offset + frames * bytesPerFrame ≤ buffer.limit) {output : DirectPcm16Builder}
    {values : List Int16} (stores : output.Stores values) :
    ∃ appended, appendMonoPcm16 buffer offset ((frames * bytesPerFrame : Nat) : Int)
        channelCount pcmEncoding output = .ok appended ∧
      appended.Stores (values ++ (framesFrom buffer.get bytesPerFrame frames offset).map
        (encoding.mixer.mono channelCount)) := by
  have within := buffer.inside
  have small := buffer.small
  have read : buffer.range offset ((frames * bytesPerFrame : Nat) : Int) =
      .ok (readSpan buffer.get offset (frames * bytesPerFrame)) := by
    have limit : javaInt ((offset : Int) + ((frames * bytesPerFrame : Nat) : Int)) =
        ((offset + frames * bytesPerFrame : Nat) : Int) := by
      rw [← Int.natCast_add]
      exact javaInt_of_range (by omega) (by omega)
    have length : (((offset + frames * bytesPerFrame : Nat) : Int) - (offset : Int)).toNat =
        frames * bytesPerFrame := by
      omega
    unfold ByteBuffer.range
    rw [if_neg (by omega)]
    simp only [limit, length, Int.toNat_natCast]
    rw [if_neg (by omega)]
  have width : javaInt (encoding.mixer.sampleBytes * channelCount) = (bytesPerFrame : Int) := by
    rw [PcmEncoding.mixer_sampleBytes, ← perFrame]
    exact javaInt_of_range (by omega) (by omega)
  have count : (((readSpan buffer.get offset (frames * bytesPerFrame)).length : Int).tdiv
      (bytesPerFrame : Int)).toNat = frames := by
    rw [length_readSpan, ← Int.ofNat_tdiv, Nat.mul_div_cancel _ positive]
    rfl
  have lengths : ∀ frame ∈ framesFrom buffer.get bytesPerFrame frames offset,
      frame.length = channelCount.toNat * encoding.mixer.sampleBytes := by
    intro frame member
    have product : ((channelCount.toNat * encoding.mixer.sampleBytes : Nat) : Int) =
        (bytesPerFrame : Int) := by
      rw [Int.natCast_mul, Int.toNat_of_nonneg (Int.le_of_lt channels), Int.mul_comm, perFrame,
        PcmEncoding.mixer_sampleBytes]
    rw [length_of_mem_framesFrom member]
    exact (Int.ofNat_inj.mp product).symm
  obtain ⟨appended, all, appendedStores⟩ := encoding.mixer.appendFrames_ok channelCount
    (framesFrom buffer.get bytesPerFrame frames offset) [] stores lengths
  refine ⟨appended, ?_, appendedStores⟩
  rw [length_framesFrom, flatten_framesFrom, List.append_nil] at all
  unfold appendMonoPcm16
  rw [if_neg (by omega), read, encoded]
  show (if javaInt (encoding.mixer.sampleBytes * channelCount) = 0 then _ else _) = _
  rw [width, if_neg (by omega), count]
  exact all

structure Frame where
  encoding : PcmEncoding
  channelCount : Int
  bytes : List UInt8

def Frame.mono (frame : Frame) : Int16 := frame.encoding.mixer.mono frame.channelCount frame.bytes

namespace DecoderBuffer

def bytesPerFrame (given : DecoderBuffer) (encoding : PcmEncoding) : Nat :=
  encoding.bytesPerSample * given.channelCount.toNat

def frames (given : DecoderBuffer) : List Frame :=
  match PcmEncoding.of given.pcmEncoding with
  | .error _ => []
  | .ok encoding =>
    (framesFrom given.buffer.get (given.bytesPerFrame encoding)
      (given.size / given.bytesPerFrame encoding) given.offset).map
        (Frame.mk encoding given.channelCount)

theorem frames_eq_nil (given : DecoderBuffer) (empty : given.size = 0) : given.frames = [] := by
  unfold frames
  cases PcmEncoding.of given.pcmEncoding with
  | error failure => rfl
  | ok encoding => simp only [empty, Nat.zero_div, framesFrom, List.map_nil]

structure Decodable (given : DecoderBuffer) (encoding : PcmEncoding) : Prop where
  channels : 0 < given.channelCount
  encoded : PcmEncoding.of given.pcmEncoding = .ok encoding

/-- The position of one more frame is an `int`. -/
def InRange (given : DecoderBuffer) (encoding : PcmEncoding) : Prop :=
  given.offset + given.size + given.bytesPerFrame encoding ≤ maxInt

end DecoderBuffer

namespace WhisperPcmChunkEmitter.Output

def frames : Output → List Frame
  | .codec none => []
  | .codec (some given) => given.frames
  | .raw given => given.frames

/-- What holds of the buffer of an output, if there is one. -/
def Every (Holds : DecoderBuffer → Prop) : Output → Prop
  | .codec none => True
  | .codec (some given) => Holds given
  | .raw given => Holds given

end WhisperPcmChunkEmitter.Output

end LocalWhisper.Record.Pcm
