import LocalWhisper.CTranslate2.NativeRuns
import LocalWhisper.Record.Buffer.RingBuffer
import LocalWhisper.SettingUI.Settings

/-! `CTranslate2Bridge`: the Java object around a native handle, and the windows of a
ring buffer as its audio. -/

namespace LocalWhisper.Machine.JavaFloat

/-- The number that the bits stand for; infinity stands as the next power of two. NaN,
which the clamps of the code would hand on, is no `JavaFloat`. -/
def value (float : JavaFloat) : Rat :=
  let magnitude := float.bits.toNat % 2 ^ 31
  let exponent : Nat := magnitude / 2 ^ 23
  let fraction : Nat := magnitude % 2 ^ 23
  let absolute : Rat :=
    if exponent = 0 then fraction * 2 ^ (-149 : Int)
    else (2 ^ 23 + fraction) * 2 ^ ((exponent : Int) - 150)
  if float.bits.toNat < 2 ^ 31 then absolute else -absolute

end LocalWhisper.Machine.JavaFloat

namespace LocalWhisper.CTranslate2

open Machine
open Record.Buffer (DirectPcm16RingBuffer RingError readSpan shortBytes)
open SettingUI (clampThreshold)
open WhisperVad (VadContext)

/-- `CTranslate2Bridge`, whose handle is 0 behind `close`. -/
structure CTranslate2Bridge (Value : Type) [Field Value] where
  handle : Option (WhisperHandle Value)

abbrev Bridged (Value : Type) [Field Value] (Result : Type) : Type :=
  Action (CTranslate2Bridge Value) JavaException Result

/-- The arguments of `CTranslate2Bridge.transcribe`. -/
structure BridgeRequest where
  samples : ByteBuffer
  firstByteOffset : Int32
  firstSampleCount : Int32
  secondByteOffset : Int32
  secondSampleCount : Int32
  language : Units
  translateToEnglish : Bool
  initialPrompt : Units
  vadEnabled : Bool
  vadThreshold : JavaFloat

namespace BridgeRequest

/-- `validateRange`; the product and the sum are made in `long`. -/
def validateRange (samples : ByteBuffer) (byteOffset sampleCount : Int32) (name : String) :
    Except JavaException Unit :=
  if byteOffset < 0 ∨ byteOffset &&& 1 ≠ 0 ∨ sampleCount < 0 ∨
      byteOffset.toInt64 + sampleCount.toInt64 * 2 > samples.capacity.toInt64 then
    .error (.illegalArgument (name ++ " PCM16 range is outside samples"))
  else .ok ()

/-- The checks of `transcribe`. -/
def validate (request : BridgeRequest) : Except JavaException Unit :=
  if !request.samples.direct then
    .error (.illegalArgument "samples must be a DirectByteBuffer")
  else do
    validateRange request.samples request.firstByteOffset request.firstSampleCount "first"
    validateRange request.samples request.secondByteOffset request.secondSampleCount "second"

def options (request : BridgeRequest) : Options where
  language := some request.language
  translateToEnglish := request.translateToEnglish
  initialPrompt := some request.initialPrompt
  vadEnabled := request.vadEnabled
  vadThreshold := (clampThreshold request.vadThreshold).value
  beamSize := 1
  maxLength := 448

def native (request : BridgeRequest) : Request where
  pcm := some request.samples
  firstByteOffset := request.firstByteOffset
  firstSampleCount := request.firstSampleCount
  secondByteOffset := request.secondByteOffset
  secondSampleCount := request.secondSampleCount
  options := request.options

end BridgeRequest

namespace CTranslate2Bridge

variable {Value Memory : Type} [Field Value] [LinearOrder Value]

/-- `transcribe`. -/
def transcribe (engine : Engine Value Memory) (parallelFor : ParallelFor)
    (scheduling : Scheduling) (request : BridgeRequest) : Bridged Value Units := fun bridge =>
  match bridge.handle with
  | none => some (.error (.illegalState "CTranslate2 model is already closed"), bridge)
  | some handle =>
    match request.validate with
    | .error exception => some (.error exception, bridge)
    | .ok () =>
      match CTranslate2.transcribe engine parallelFor scheduling request.native handle with
      | none => none
      | some (outcome, after) => some (outcome.mapError throwJava, ⟨some after⟩)

/-- `close`. -/
def close : Bridged Value Unit := fun _ => some (.ok (), ⟨none⟩)

end CTranslate2Bridge

theorem java_end_iff {capacity byteOffset sampleCount : Int32} (offset : 0 ≤ byteOffset.toInt)
    (count : 0 ≤ sampleCount.toInt) :
    byteOffset.toInt64 + sampleCount.toInt64 * 2 > capacity.toInt64 ↔
      capacity.toInt < byteOffset.toInt + 2 * sampleCount.toInt := by
  have offsetSmall := Int32.toInt_lt byteOffset
  have countSmall := Int32.toInt_lt sampleCount
  have product : Int.bmod (sampleCount.toInt * 2) (2 ^ 64) = sampleCount.toInt * 2 :=
    Int.bmod_eq_of_le (by omega) (by omega)
  have sum : Int.bmod (byteOffset.toInt + sampleCount.toInt * 2) (2 ^ 64) =
      byteOffset.toInt + sampleCount.toInt * 2 := Int.bmod_eq_of_le (by omega) (by omega)
  rw [gt_iff_lt, Int64.lt_iff_toInt_lt, Int64.toInt_add, Int64.toInt_mul]
  simp only [Int32.toInt_toInt64]
  change _ < Int.bmod (_ + Int.bmod (_ * 2) (2 ^ 64)) (2 ^ 64) ↔ _
  rw [product, sum]
  omega

theorem validateRange_eq (buffer : ByteBuffer) (byteOffset sampleCount : Int32) (name : String) :
    BridgeRequest.validateRange buffer byteOffset sampleCount name =
      (validateSpan buffer.capacity.toInt64 byteOffset sampleCount name).mapError throwJava := by
  have capacity := toInt_capacity buffer
  have nonneg : 0 ≤ buffer.capacity.toInt64.toInt := by omega
  unfold BridgeRequest.validateRange validateSpan
  by_cases low : byteOffset < 0
  · rw [if_pos (.inl low), if_pos (.inl low)]
    rfl
  by_cases fewer : sampleCount < 0
  · rw [if_pos (.inr (.inr (.inl fewer))), if_pos (.inr (.inr (.inl fewer)))]
    rfl
  have zero : (0 : Int32).toInt = 0 := rfl
  have offset : 0 ≤ byteOffset.toInt := by
    rw [Int32.lt_iff_toInt_lt, zero] at low
    exact not_lt.mp low
  have count : 0 ≤ sampleCount.toInt := by
    rw [Int32.lt_iff_toInt_lt, zero] at fewer
    exact not_lt.mp fewer
  simp only [java_end_iff offset count, span_end_iff offset count nonneg, Int32.toInt_toInt64]
  split <;> rfl

/-- What the Java checks refuse, the native ones would refuse with the same exception. -/
theorem BridgeRequest.validate_eq (request : BridgeRequest) :
    request.validate = (request.native.validate.mapError throwJava).map fun _ => () := by
  unfold BridgeRequest.validate Request.validate Request.buffer BridgeRequest.native
  simp only
  cases request.samples.direct with
  | false => rfl
  | true =>
    simp only [Bool.not_true, Bool.false_eq_true, if_false, if_true, validateRange_eq, bind,
      Except.bind]
    cases validateSpan request.samples.capacity.toInt64 request.firstByteOffset
        request.firstSampleCount "first" with
    | error exception => rfl
    | ok _ =>
      cases validateSpan request.samples.capacity.toInt64 request.secondByteOffset
          request.secondSampleCount "second" with
      | error exception => rfl
      | ok _ => rfl

section Calls

variable {Value Memory : Type} [Field Value] [LinearOrder Value]
variable {engine : Engine Value Memory} {context : Option VadContext}

/-- A bridge that is not closed, with its handle as calls leave it. -/
def Opened (engine : Engine Value Memory) (context : Option VadContext)
    (bridge : CTranslate2Bridge Value) : Prop :=
  ∃ handle, bridge.handle = some handle ∧ Ready engine context handle

/-- An open bridge gives the transcription of the samples. -/
theorem answers_bridge (request : BridgeRequest) (parallelFor : ParallelFor)
    (scheduling : Scheduling) (steady : request.vadEnabled = true → Steady engine.network) :
    Answers (Opened engine context)
      (CTranslate2Bridge.transcribe engine parallelFor scheduling request)
      ((request.native.samples >>= transcription engine context request.options).mapError
        throwJava) := by
  rintro bridge ⟨handle, isOpen, ready⟩
  unfold CTranslate2Bridge.transcribe
  rw [isOpen, request.validate_eq]
  cases checked : request.native.validate with
  | error exception =>
    have refused : request.native.samples = .error exception := by
      rw [Request.samples, checked]
      rfl
    rw [refused]
    exact ⟨bridge, rfl, handle, isOpen, ready⟩
  | ok buffer =>
    obtain ⟨after, ran, stays⟩ := answers_transcribe request.native parallelFor scheduling steady
      handle ready
    simp only [Except.mapError, Except.map, ran]
    exact ⟨_, rfl, after, rfl, stays⟩

end Calls

end LocalWhisper.CTranslate2
