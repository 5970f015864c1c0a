import LocalWhisper.CTranslate2.FeatureRuns
import LocalWhisper.CTranslate2.NativeHandle
import LocalWhisper.Machine.JavaString

/-! A call of `transcribe` gives the transcription of its samples, whatever the handle
was used for before, wherever the samples lie in their buffer and however the frames are
divided among threads. -/

namespace LocalWhisper.CTranslate2

open Machine
open Machine.JavaString (ofString)
open Machine.Riff (ascii littleEndian ofLittleEndian ofLittleEndian_littleEndian)
open NativeAudio (sizeMax)
open NativeAudio.Pcm16Lanes (sampleValue convertPcm16Chunk convertPcm16Chunk_filled convertSpan
  pcm16SpansToFloatVector)
open NativeText (utf8ToUtf16ReplacingInvalid specifiedEnv specifiedEnv_specified str_units)
open WhisperVad (Network VadContext collectWhisperVadSpeech detectWindows vadWindow)

private theorem length_int16s (bytes : List UInt8) : (int16s bytes).length = bytes.length / 2 := by
  fun_induction int16s bytes with
  | case1 low high rest ih =>
    rw [List.length_cons, ih, List.length_cons, List.length_cons]
    omega
  | case2 bytes short =>
    match bytes, short with
    | [], _ => rfl
    | [only], _ => exact (Nat.div_eq_of_lt (by decide : 1 < 2)).symm
    | first :: second :: rest, short => exact absurd rfl (short first second rest)

def bytesOf (samples : List Int16) : List UInt8 :=
  samples.flatMap fun sample => littleEndian 2 sample.toUInt16.toNat

theorem length_bytesOf (samples : List Int16) : (bytesOf samples).length = 2 * samples.length := by
  induction samples with
  | nil => rfl
  | cons sample rest ih =>
    rw [bytesOf, List.flatMap_cons, List.length_append, ← bytesOf, ih, Riff.length_littleEndian,
      List.length_cons]
    omega

theorem int16s_bytesOf (samples : List Int16) : int16s (bytesOf samples) = samples := by
  induction samples with
  | nil => rfl
  | cons sample rest ih =>
    have number : ofLittleEndian (littleEndian 2 sample.toUInt16.toNat) =
        sample.toUInt16.toNat := by
      rw [ofLittleEndian_littleEndian]
      exact Nat.mod_eq_of_lt sample.toUInt16.toNat_lt
    have first : int16s (bytesOf (sample :: rest)) =
        (UInt16.ofNat (ofLittleEndian (littleEndian 2 sample.toUInt16.toNat))).toInt16 ::
          int16s (bytesOf rest) := rfl
    rw [first, ih, number, UInt16.ofNat_toNat, Int16.toInt16_toUInt16]

/-- From an even place on there are the later numbers. -/
theorem int16s_drop (bytes : List UInt8) (count : Nat) :
    int16s (bytes.drop (2 * count)) = (int16s bytes).drop count := by
  induction count generalizing bytes with
  | zero => rfl
  | succ count ih =>
    match bytes with
    | [] => rfl
    | [only] => rfl
    | low :: high :: rest => exact ih rest

/-- The span is inside a buffer of this capacity. -/
structure InsideSpan (capacity : Nat) (byteOffset sampleCount : Int32) : Prop where
  offset : 0 ≤ byteOffset.toInt
  even : byteOffset.toInt % 2 = 0
  count : 0 ≤ sampleCount.toInt
  room : byteOffset.toInt + 2 * sampleCount.toInt ≤ capacity

theorem odd_iff {value : Int32} (nonneg : 0 ≤ value.toInt) :
    value &&& 1 ≠ 0 ↔ value.toInt % 2 = 1 := by
  have same : value.toInt = value.toBitVec.toNat := by
    have signed := BitVec.toInt_eq_toNat_cond value.toBitVec
    have below := value.toBitVec.isLt
    change value.toInt = _ at signed
    split at signed <;> omega
  have bits : (value &&& 1).toBitVec.toNat = value.toBitVec.toNat % 2 := by
    rw [Int32.toBitVec_and, BitVec.toNat_and]
    exact Nat.and_one_is_mod _
  rw [ne_eq, ← Int32.toBitVec_inj, ← BitVec.toNat_inj, bits, same]
  change ¬ value.toBitVec.toNat % 2 = 0 ↔ _
  omega

theorem toNat_toUInt64 {value : Int64} (nonneg : 0 ≤ value.toInt) :
    value.toUInt64.toNat = value.toInt.toNat := by
  rw [Int64.toNat_toUInt64_of_le (Int64.le_iff_toInt_le.mpr nonneg)]
  rfl

theorem toNat_unsigned {value : Int32} (nonneg : 0 ≤ value.toInt) :
    value.toInt64.toUInt64.toNat = value.toInt.toNat := by
  have same := Int32.toInt_toInt64 value
  rw [toNat_toUInt64 (by omega), same]

/-- The sum of the source is that of the numbers, since none of them is negative. -/
theorem span_end_iff {capacity : Int64} {byteOffset sampleCount : Int32}
    (offset : 0 ≤ byteOffset.toInt) (count : 0 ≤ sampleCount.toInt) (some : 0 ≤ capacity.toInt) :
    byteOffset.toInt64.toUInt64 + sampleCount.toInt64.toUInt64 * 2 > capacity.toUInt64 ↔
      capacity.toInt < byteOffset.toInt + 2 * sampleCount.toInt := by
  have offsetSmall := Int32.toInt_lt byteOffset
  have countSmall := Int32.toInt_lt sampleCount
  rw [gt_iff_lt, UInt64.lt_iff_toNat_lt, UInt64.toNat_add, UInt64.toNat_mul,
    toNat_unsigned offset, toNat_unsigned count, toNat_toUInt64 some]
  change _ < (_ + _ * 2 % _) % _ ↔ _
  omega

theorem toInt_capacity (buffer : ByteBuffer) :
    buffer.capacity.toInt64.toInt = buffer.bytes.length := by
  have small := buffer.small
  rw [ByteBuffer.capacity, Int32.toInt_toInt64, Int32.toInt_ofNat_of_lt (by omega)]

instance (capacity : Nat) (byteOffset sampleCount : Int32) :
    Decidable (InsideSpan capacity byteOffset sampleCount) :=
  decidable_of_iff (0 ≤ byteOffset.toInt ∧ byteOffset.toInt % 2 = 0 ∧ 0 ≤ sampleCount.toInt ∧
    byteOffset.toInt + 2 * sampleCount.toInt ≤ capacity)
    ⟨fun ⟨offset, even, count, room⟩ => ⟨offset, even, count, room⟩,
      fun ⟨offset, even, count, room⟩ => ⟨offset, even, count, room⟩⟩

theorem validateSpan_eq (buffer : ByteBuffer) (byteOffset sampleCount : Int32) (name : String) :
    validateSpan buffer.capacity.toInt64 byteOffset sampleCount name =
      if InsideSpan buffer.bytes.length byteOffset sampleCount then .ok ()
      else .error (.invalidArgument (name ++ " PCM16 range is outside samples")) := by
  have zero : (0 : Int32).toInt = 0 := rfl
  have capacity := toInt_capacity buffer
  by_cases inside : InsideSpan buffer.bytes.length byteOffset sampleCount
  · rw [if_pos inside, validateSpan, if_neg]
    rintro (negative | odd | fewer | far)
    · rw [Int32.lt_iff_toInt_lt, zero] at negative
      exact absurd inside.offset (by omega)
    · rw [odd_iff inside.offset, inside.even] at odd
      exact absurd odd (by decide)
    · rw [Int32.lt_iff_toInt_lt, zero] at fewer
      exact absurd inside.count (by omega)
    · rw [span_end_iff inside.offset inside.count (by omega), capacity] at far
      exact absurd inside.room (by omega)
  · rw [if_neg inside, validateSpan, if_pos]
    by_contra passes
    rw [not_or, not_or, not_or, Int32.lt_iff_toInt_lt, Int32.lt_iff_toInt_lt, zero] at passes
    obtain ⟨offset, even, count, room⟩ := passes
    have nonneg := not_lt.mp offset
    have some := not_lt.mp count
    rw [odd_iff nonneg] at even
    rw [span_end_iff nonneg some (by omega), capacity] at room
    exact inside ⟨nonneg, by omega, some, by omega⟩

def ByteBuffer.span (buffer : ByteBuffer) (byteOffset sampleCount : Int32) : List Int16 :=
  (buffer.pcmAt byteOffset).take sampleCount.toInt.toNat

theorem InsideSpan.length_pcmAt {buffer : ByteBuffer} {byteOffset sampleCount : Int32}
    (inside : InsideSpan buffer.bytes.length byteOffset sampleCount) :
    sampleCount.toInt.toNat ≤ (buffer.pcmAt byteOffset).length := by
  have room := inside.room
  have offset := inside.offset
  rw [ByteBuffer.pcmAt, length_int16s, List.length_drop]
  omega

/-- The samples that a request is about, behind its checks. -/
def Request.samples (request : Request) : Except NativeException (List Int16) := do
  let buffer ← request.validate
  return buffer.span request.firstByteOffset request.firstSampleCount ++
    buffer.span request.secondByteOffset request.secondSampleCount

theorem Request.inside_of_validate {request : Request} {buffer : ByteBuffer}
    (valid : request.validate = .ok buffer) :
    InsideSpan buffer.bytes.length request.firstByteOffset request.firstSampleCount ∧
      InsideSpan buffer.bytes.length request.secondByteOffset request.secondSampleCount := by
  have checked {byteOffset sampleCount : Int32} {name : String} {passed : Unit} {other : ByteBuffer}
      (ran : validateSpan other.capacity.toInt64 byteOffset sampleCount name = .ok passed) :
      InsideSpan other.bytes.length byteOffset sampleCount := by
    rw [validateSpan_eq] at ran
    split at ran
    · assumption
    · cases ran
  obtain ⟨found, -, valid⟩ := of_bind_ok valid
  obtain ⟨_, first, valid⟩ := of_bind_ok valid
  obtain ⟨_, second, valid⟩ := of_bind_ok valid
  cases valid
  exact ⟨checked first, checked second⟩

/-- A request for spans that are inside passes the checks. -/
theorem Request.samples_of_inside {request : Request} {buffer : ByteBuffer}
    (given : request.pcm = some buffer) (direct : buffer.direct = true)
    (first : InsideSpan buffer.bytes.length request.firstByteOffset request.firstSampleCount)
    (second : InsideSpan buffer.bytes.length request.secondByteOffset request.secondSampleCount) :
    request.samples = .ok (buffer.span request.firstByteOffset request.firstSampleCount ++
      buffer.span request.secondByteOffset request.secondSampleCount) := by
  have found : request.buffer = .ok buffer := by
    simp only [Request.buffer, given, direct, if_true]
  have valid : request.validate = .ok buffer := by
    unfold Request.validate
    rw [found]
    simp only [bind, Except.bind, validateSpan_eq, if_pos first, if_pos second]
    rfl
  rw [Request.samples, valid]
  rfl

section Conversion

variable {Value : Type} [Field Value]

theorem convertSpan_take (neon : Bool) {input : List Int16} {output : List Value} {count : Nat}
    (inside : count ≤ input.length) (room : output.length = count) :
    convertSpan neon (some input) count output = some ((input.take count).map sampleValue) := by
  unfold convertSpan
  split
  · have places : (input.take count).map (sampleValue : Int16 → Value) =
        (List.range count).map fun position => sampleValue (input.getD position 0) := by
      apply List.ext_getElem
      · simp [inside]
      · intro position below _
        have within : position < input.length := by
          rw [List.length_map, List.length_take] at below
          omega
        simp [List.getD_eq_getElem?_getD, List.getElem?_eq_getElem within]
    have filled := @convertPcm16Chunk_filled _ _ neon input output count inside room.ge
    rw [filled_all room.le, ← places] at filled
    exact filled
  · next none =>
    obtain rfl : count = 0 := by omega
    rw [List.length_eq_zero_iff.mp room]
    rfl

private theorem pcm16SpansToFloatVector_take (neon : Bool) {first second : List Int16}
    {firstCount secondCount : Nat} (firstInside : firstCount ≤ first.length)
    (secondInside : secondCount ≤ second.length) (output : List Value)
    (countable : firstCount + secondCount ≤ sizeMax) :
    pcm16SpansToFloatVector neon (some first) firstCount (some second) secondCount output =
      some (.ok ((first.take firstCount ++ second.take secondCount).map sampleValue)) := by
  have length : (resize output (firstCount + secondCount) (0 : Value)).length =
      firstCount + secondCount := length_resize _ _ _
  unfold pcm16SpansToFloatVector
  rw [if_neg (by simp), if_neg (by omega)]
  dsimp only
  rw [convertSpan_take neon firstInside (by rw [List.length_take, length]; omega),
    Option.bind_eq_bind, Option.bind_some,
    convertSpan_take neon secondInside (by rw [List.length_drop, length]; omega),
    Option.bind_some, List.map_append]
  rfl

end Conversion

section Speech

variable {Value Memory : Type}

/-- The graph of the network is computed every time. -/
def Steady (network : Network Value Memory) : Prop :=
  ∀ state window, (network.infer state window).isSome

private theorem detectWindows_steady {network : Network Value Memory} (steady : Steady network)
    (state : Memory) {windows : List (List Value)} {first second : List (Option Rat)}
    (firstSize : first.length = windows.length) (secondSize : second.length = windows.length) :
    detectWindows network state windows first = detectWindows network state windows second := by
  induction windows generalizing state first second with
  | nil =>
    rw [List.length_eq_zero_iff.mp firstSize, List.length_eq_zero_iff.mp secondSize]
  | cons window windows ih =>
    obtain ⟨firstOld, first, rfl⟩ := List.exists_cons_of_length_eq_add_one firstSize
    obtain ⟨secondOld, second, rfl⟩ := List.exists_cons_of_length_eq_add_one secondSize
    obtain ⟨⟨prob, next⟩, inferred⟩ := Option.isSome_iff_exists.mp (steady state window)
    simp only [detectWindows, inferred]
    rw [ih next (Nat.succ.inj firstSize) (Nat.succ.inj secondSize)]

variable [Zero Value] {network : Network Value Memory}

private theorem detectSpeech_steady (steady : Steady network) {first second : VadContext}
    (same : first.nWindow = second.nWindow) (samples : List Value) :
    first.detectSpeech network samples = second.detectSpeech network samples := by
  obtain ⟨nWindow, positive, firstProbs⟩ := first
  obtain ⟨_, _, secondProbs⟩ := second
  obtain rfl : nWindow = _ := same
  have sized (probs : List (Option Rat)) (count : Nat) :
      (probs.take count ++ List.replicate (count - probs.length) (some 0)).length =
        ((List.range count).map (vadWindow nWindow samples)).length := by
    rw [List.length_append, List.length_take, List.length_replicate, List.length_map,
      List.length_range]
    omega
  unfold VadContext.detectSpeech
  simp only [detectWindows_steady steady network.reset (sized firstProbs _) (sized secondProbs _)]

private theorem collectWhisperVadSpeech_steady (steady : Steady network) {first second : VadContext}
    (same : first.nWindow = second.nWindow) (samples : List Value) (threshold : Rat) :
    (collectWhisperVadSpeech network (some first) samples threshold).map
        (fun found => (found.1, found.2.1)) =
      (collectWhisperVadSpeech network (some second) samples threshold).map
        fun found => (found.1, found.2.1) := by
  unfold collectWhisperVadSpeech
  simp only [detectSpeech_steady steady same]
  split
  · rfl
  · rfl

theorem collectWhisperVadSpeech_nWindow {context after : VadContext} {samples speech : List Value}
    {threshold : Rat} {found : Bool}
    (done : collectWhisperVadSpeech network (some context) samples threshold =
      .ok (found, speech, after)) : after.nWindow = context.nWindow := by
  unfold collectWhisperVadSpeech at done
  simp only at done
  split at done
  · cases done
    rfl
  · cases detecting : context.detectSpeech network samples with
    | none =>
      rw [detecting] at done
      cases done
    | some detected =>
      rw [detecting] at done
      cases done
      exact (VadContext.detectSpeech_eq detecting).1

end Speech

section Transcription

variable {Value Memory : Type} [Field Value] [LinearOrder Value]

/-- The log-Mel features of samples, scaled by their greatest level. -/
noncomputable def featureValues (extractor : Extractor Value) (samples : List Value)
    (nMels : Nat) : Except NativeException (List Value) :=
  let size := activeFrames (min samples.length kChunkSamples)
  let job := featureJob extractor samples nMels
  if nMels = 0 then .error (.invalidArgument "n_mels must be greater than 0")
  else .ok (features extractor job size
    (Classical.epsilon fun maximum => IsGreatest (levels extractor job size) maximum))

/-- The samples that are listened to, where there are some. -/
def heard (engine : Engine Value Memory) (context : Option VadContext) (options : Options)
    (samples : List Value) : Except NativeException (Option (List Value)) :=
  if options.vadEnabled then
    match context with
    | none => .error (.other "Silero VAD is enabled but its model is not loaded")
    | some context =>
      match (collectWhisperVadSpeech engine.network (some context) samples
          options.vadThreshold).map fun found => (found.1, found.2.1) with
      | .error text => .error (.other text)
      | .ok (hasSpeech, speech) => .ok (if hasSpeech then some speech else none)
  else .ok (some samples)

/-- The text of the samples that are listened to. -/
noncomputable def heardText (engine : Engine Value Memory) (options : Options) :
    Option (List Value) → Except NativeException (List UInt16)
  | none => .ok (utf8ToUtf16ReplacingInvalid [])
  | some audio => do
    let features ← featureValues engine.extractor audio engine.model.nMels
    recognise engine options features

/-- The text of samples, with a detector as it was created. -/
noncomputable def transcription (engine : Engine Value Memory) (context : Option VadContext)
    (options : Options) (samples : List Int16) : Except NativeException (List UInt16) := do
  let audio ← heard engine context options (samples.map sampleValue)
  heardText engine options audio

/-- What every call leaves of a handle: right tables, and a detector of the same kind. -/
structure Ready (engine : Engine Value Memory) (context : Option VadContext)
    (handle : WhisperHandle Value) : Prop where
  tables : Valid engine.extractor handle.featureWorkspace
  detector : handle.vadContext.map VadContext.nWindow = context.map VadContext.nWindow

variable {engine : Engine Value Memory} {context : Option VadContext} {request : Request}
variable {buffer : ByteBuffer} {options : Options} {samples : List Value}

omit [LinearOrder Value] in
private theorem answers_convertSpans (valid : request.validate = .ok buffer) :
    Answers (Ready engine context) (convertSpans engine buffer request)
      (.ok ((buffer.span request.firstByteOffset request.firstSampleCount ++
        buffer.span request.secondByteOffset request.secondSampleCount).map sampleValue)) := by
  intro handle ready
  obtain ⟨first, second⟩ := Request.inside_of_validate valid
  have firstSmall := Int32.toInt_lt request.firstSampleCount
  have secondSmall := Int32.toInt_lt request.secondSampleCount
  have countable : request.firstSampleCount.toInt.toNat + request.secondSampleCount.toInt.toNat ≤
      sizeMax := by
    unfold sizeMax
    omega
  rw [convertSpans, pcm16SpansToFloatVector_take engine.extractor.neon first.length_pcmAt
    second.length_pcmAt handle.pcmSamples countable]
  exact ⟨_, rfl, ⟨ready.tables, ready.detector⟩⟩

omit [LinearOrder Value] in
private theorem answers_filterSpeech (steady : options.vadEnabled = true → Steady engine.network) :
    Answers (Ready engine context) (filterSpeech engine options samples)
      (heard engine context options samples) := by
  intro handle ready
  unfold filterSpeech heard
  cases enabled : options.vadEnabled with
  | false => exact ⟨handle, rfl, ready⟩
  | true =>
    have detector := ready.detector
    cases context with
    | none =>
      rw [Option.map_none, Option.map_eq_none_iff] at detector
      simp only [if_true, detector]
      exact ⟨handle, rfl, ready⟩
    | some created =>
      rw [Option.map_some, Option.map_eq_some_iff] at detector
      obtain ⟨used, found, same⟩ := detector
      simp only [if_true, found, ← collectWhisperVadSpeech_steady (steady enabled) same]
      cases collected : collectWhisperVadSpeech engine.network (some used) samples
          options.vadThreshold with
      | error text => exact ⟨_, rfl, ⟨ready.tables, congrArg some same⟩⟩
      | ok result =>
        obtain ⟨hasSpeech, speech, after⟩ := result
        have kept := (collectWhisperVadSpeech_nWindow collected).trans same
        exact ⟨_, rfl, ⟨ready.tables, congrArg some kept⟩⟩

private theorem answers_extractFeatures (parallelFor : ParallelFor) (scheduling : Scheduling) :
    Answers (Ready engine context) (extractFeatures engine parallelFor scheduling samples)
      (featureValues engine.extractor samples engine.model.nMels) := by
  intro handle ready
  unfold extractFeatures featureValues
  by_cases zero : engine.model.nMels = 0
  · have thrown : prepareWhisperFeatureWorkspace engine.extractor engine.model.nMels
        handle.featureWorkspace 0 = .error "n_mels must be greater than 0" := if_pos zero
    simp only [makeWhisperFeatures, makeFeatures, thrown, if_pos zero]
    exact ⟨handle, rfl, ready⟩
  · obtain ⟨someFrames, most⟩ := activeFrames_pos (min samples.length kChunkSamples)
    obtain ⟨maximum, after, greatest, made, stays⟩ :=
      makeFeatures_eq activeFrames samples ready.tables zero rfl someFrames most
        handle.melFeatures (scheduling.complete engine.model.nMels (parallelFor.ranges _ _))
    have chosen := Classical.epsilon_spec
      (p := fun maximum => IsGreatest (levels engine.extractor
        (featureJob engine.extractor samples engine.model.nMels)
        (activeFrames (min samples.length kChunkSamples))) maximum) ⟨maximum, greatest⟩
    simp only [makeWhisperFeatures, made, if_neg zero]
    rw [chosen.unique greatest]
    exact ⟨_, rfl, ⟨stays, ready.detector⟩⟩

private theorem answers_transcribeHeard (parallelFor : ParallelFor) (scheduling : Scheduling)
    (audio : Option (List Value)) :
    Answers (Ready engine context) (transcribeHeard engine parallelFor scheduling options audio)
      (heardText engine options audio) := by
  cases audio with
  | none => exact answers_pure _
  | some samples =>
    exact (answers_extractFeatures parallelFor scheduling).bind fun _ _ => answers_ofExcept _

/-- A call gives the transcription of its samples, or the exception of its checks. -/
theorem answers_transcribe (request : Request) (parallelFor : ParallelFor)
    (scheduling : Scheduling)
    (steady : request.options.vadEnabled = true → Steady engine.network) :
    Answers (Ready engine context) (transcribe engine parallelFor scheduling request)
      (request.samples >>= transcription engine context request.options) := by
  have checked : request.samples >>= transcription engine context request.options =
      request.validate >>= fun buffer => transcription engine context request.options
        (buffer.span request.firstByteOffset request.firstSampleCount ++
          buffer.span request.secondByteOffset request.secondSampleCount) := by
    unfold Request.samples
    cases request.validate <;> rfl
  rw [checked]
  exact (answers_ofExcept _).bind fun buffer valid =>
    (answers_convertSpans valid).bind fun pcmSamples _ =>
      (answers_filterSpeech steady).bind fun audio _ =>
        answers_transcribeHeard parallelFor scheduling audio

end Transcription

/-- A call with the way its frames are divided and computed. -/
structure NativeCall where
  request : Request
  parallelFor : ParallelFor
  scheduling : Scheduling

section Runs

variable {Value Memory : Type} [Field Value] [LinearOrder Value]

def NativeCall.run (engine : Engine Value Memory) (call : NativeCall) :
    Native Value (List UInt16) :=
  transcribe engine call.parallelFor call.scheduling call.request

variable {env : NativeText.JNIEnv} {extractor : Extractor Value} {files : Files Value Memory}
variable {modelDirectory computeType vadModelPath : Option (List UInt16)} {threads : Int32}
variable {engine : Engine Value Memory} {handle : WhisperHandle Value}

omit [LinearOrder Value] in
theorem ready_create (created : create env extractor files modelDirectory computeType vadModelPath
    threads = .ok (engine, handle)) :
    Ready engine handle.vadContext handle ∧ engine.network = files.network := by
  unfold create at created
  obtain ⟨modelPath, -, created⟩ := of_bind_ok created
  obtain ⟨compute, -, created⟩ := of_bind_ok created
  obtain ⟨vadPath, -, created⟩ := of_bind_ok created
  split at created
  · cases created
  split at created
  · cases created
  obtain ⟨model, -, created⟩ := of_bind_ok created
  obtain ⟨document, -, created⟩ := of_bind_ok created
  obtain ⟨tokenizer, -, created⟩ := of_bind_ok created
  obtain ⟨vadContext, -, created⟩ := of_bind_ok created
  obtain ⟨workspace, prepared, created⟩ := of_bind_ok created
  cases created
  refine ⟨⟨?_, rfl⟩, rfl⟩
  by_cases zero : model.nMels = 0
  · rw [prepareWhisperFeatureWorkspace, if_pos zero] at prepared
    cases prepared
  · obtain ⟨ready, ran, valid, -⟩ := (valid_fresh extractor).prepare zero threads.toInt.toNat
    rw [ran] at prepared
    cases prepared
    exact valid

/-- Every call on a handle gives what its samples and options give, whatever calls came
before it; none leaves its buffers. -/
theorem transcribe_stateless (created : create env extractor files modelDirectory computeType
    vadModelPath threads = .ok (engine, handle)) (calls : List NativeCall)
    (steady : ∀ call ∈ calls, call.request.options.vadEnabled = true → Steady files.network) :
    ∃ next, execute (recorded (calling (NativeCall.run engine))) (handle, []) calls =
      some (next, calls.map fun call =>
        call.request.samples >>= transcription engine handle.vadContext call.request.options) := by
  obtain ⟨ready, network⟩ := ready_create created
  obtain ⟨next, ran, -⟩ := execute_answers ready calls fun call member =>
    answers_transcribe call.request call.parallelFor call.scheduling (network ▸ steady call member)
  exact ⟨next, ran⟩

end Runs

/-- A model of one mel value that always says "a". -/
def oneWordModel : WhisperModel ℝ where
  nMels := 1
  detectLanguage _ := .ok [(ascii "<|ja|>", 1)]
  generate _ _ _ := .ok [[ascii "a"]]

def oneWord : Files ℝ Unit where
  network := .certain
  loadModel _ _ _ := .ok oneWordModel
  readTokenizer _ := .ok ⟨[([97], 0), ([97, 98], 1)], [.text [97, 32, 98]]⟩
  loadVad _ := .ok ⟨512, by decide, []⟩

/-- The model opens, and its tokenizer knows the one word. -/
theorem create_oneWord : ∃ tokenizer handle, tokenizer.encode [97] 224 = .ok [[97]] ∧
    create specifiedEnv (realExtractor true) oneWord (some (ofString "m"))
      (some (ofString "int8")) (some (ofString "v")) 2 =
        .ok (⟨specifiedEnv, realExtractor true, .certain, oneWordModel, tokenizer⟩, handle) := by
  obtain ⟨tokenizer, accepted, known⟩ : ∃ tokenizer,
      WhisperPromptTokenizer.create ⟨[([97], 0), ([97, 98], 1)], [.text [97, 32, 98]]⟩ =
          .ok tokenizer ∧ tokenizer.encode [97] 224 = .ok [[97]] := by
    unfold WhisperPromptTokenizer.create
    rw [makeByteEncoder_eq]
    exact ⟨_, rfl, by decide +kernel⟩
  unfold create
  rw [str_units specifiedEnv_specified, str_units specifiedEnv_specified,
    str_units specifiedEnv_specified]
  simp only [Except.mapError, bind, Except.bind]
  rw [if_neg (by decide), if_neg (by decide)]
  simp only [oneWord, accepted, Files.vadContext]
  exact ⟨tokenizer, _, known, rfl⟩

/-- A call for the first two samples of a buffer. -/
def firstSamples (byteOffset : Int32) (vadEnabled : Bool) : NativeCall where
  request :=
    { pcm := some ⟨true, [0, 1, 2, 3, 4, 5], by decide⟩
      firstByteOffset := byteOffset
      firstSampleCount := 2
      secondByteOffset := 0
      secondSampleCount := 0
      options := ⟨some (ofString "auto"), false, some [], vadEnabled, 1 / 2, 1, 448⟩ }
  parallelFor := .pool
  scheduling := ⟨fun nMels ranges => inTurn (stepsOf nMels ranges) ranges.length, orderOf_inTurn⟩

/-- Two calls that go to the model, and one between them that is refused. -/
theorem transcribe_stateless_thrice : ∃ engine handle next,
    create specifiedEnv (realExtractor true) oneWord (some (ofString "m"))
      (some (ofString "int8")) (some (ofString "v")) 2 = .ok (engine, handle) ∧
    execute (recorded (calling (NativeCall.run engine))) (handle, [])
        [firstSamples 0 true, firstSamples 1 true, firstSamples 2 false] =
      some (next, [firstSamples 0 true, firstSamples 1 true, firstSamples 2 false].map fun call =>
        call.request.samples >>= transcription engine handle.vadContext call.request.options) := by
  obtain ⟨tokenizer, handle, -, created⟩ := create_oneWord
  obtain ⟨next, ran⟩ := transcribe_stateless created
    [firstSamples 0 true, firstSamples 1 true, firstSamples 2 false]
    fun call member _ state window => rfl
  exact ⟨_, handle, next, created, ran⟩

end LocalWhisper.CTranslate2
