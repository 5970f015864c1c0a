import LocalWhisper.CTranslate2.TokenDecoder
import LocalWhisper.CTranslate2.WhisperFeatures
import LocalWhisper.Machine.Actions
import LocalWhisper.Machine.Riff
import LocalWhisper.NativeAudio.Pcm16Lanes
import LocalWhisper.NativeText.JavaStrings
import LocalWhisper.WhisperVad.SpeechFilter

/-! `ctranslate2-jni.cpp`: a handle, whose buffers stay from one call to the next, and
what a call makes of the samples of a direct buffer. The model itself is a parameter;
the mutex of the handle makes the calls follow one another. -/

namespace LocalWhisper.CTranslate2

open Machine
open Machine.Riff (ascii ofLittleEndian)
open NativeAudio.Pcm16Lanes (sampleValue pcm16SpansToFloatVector)
open NativeText (JNIEnv JStringUtf8.str utf8ToUtf16ReplacingInvalid)
open WhisperVad (Network VadContext collectWhisperVadSpeech)

/-- A C++ exception with its text: `std::invalid_argument`, or another one. -/
inductive NativeException where
  | invalidArgument (what : String)
  | other (what : String)
  deriving DecidableEq, Repr

/-- The exceptions that Java code gets. -/
inductive JavaException where
  | illegalArgument (message : String)
  | illegalState (message : String)
  deriving DecidableEq, Repr

/-- The handlers of `create` and `transcribe`. -/
def throwJava : NativeException → JavaException
  | .invalidArgument what => .illegalArgument what
  | .other what => .illegalState what

/-- A `java.nio.ByteBuffer`, whose capacity is an `int`. -/
structure ByteBuffer where
  direct : Bool
  bytes : List UInt8
  small : bytes.length < 2 ^ 31

def ByteBuffer.capacity (buffer : ByteBuffer) : Int32 := Int32.ofNat buffer.bytes.length

/-- Memory as 16-bit numbers, with the low byte first. -/
def int16s : List UInt8 → List Int16
  | low :: high :: rest => (UInt16.ofNat (ofLittleEndian [low, high])).toInt16 :: int16s rest
  | _ => []

/-- `validate_span`; the product and the sum are made in `size_t`. -/
def validateSpan (pcmCapacity : Int64) (byteOffset sampleCount : Int32) (name : String) :
    Except NativeException Unit :=
  if byteOffset < 0 ∨ byteOffset &&& 1 ≠ 0 ∨ sampleCount < 0 ∨
      byteOffset.toInt64.toUInt64 + sampleCount.toInt64.toUInt64 * 2 > pcmCapacity.toUInt64 then
    .error (.invalidArgument (name ++ " PCM16 range is outside samples"))
  else .ok ()

structure Options where
  language : Option (List UInt16)
  translateToEnglish : Bool
  initialPrompt : Option (List UInt16)
  vadEnabled : Bool
  vadThreshold : Rat
  beamSize : Int32
  maxLength : Int32

/-- The arguments of `transcribe` behind the handle. -/
structure Request where
  pcm : Option ByteBuffer
  firstByteOffset : Int32
  firstSampleCount : Int32
  secondByteOffset : Int32
  secondSampleCount : Int32
  options : Options

namespace Request

/-- `pcm` with its address. -/
def buffer (request : Request) : Except NativeException ByteBuffer :=
  match request.pcm with
  | none => .error (.invalidArgument "samples must not be null")
  | some buffer =>
    if buffer.direct then .ok buffer
    else .error (.invalidArgument "samples must be a DirectByteBuffer")

/-- The checks before the lock. -/
def validate (request : Request) : Except NativeException ByteBuffer := do
  let buffer ← request.buffer
  validateSpan buffer.capacity.toInt64 request.firstByteOffset request.firstSampleCount "first"
  validateSpan buffer.capacity.toInt64 request.secondByteOffset request.secondSampleCount "second"
  return buffer

end Request

def ByteBuffer.pcmAt (buffer : ByteBuffer) (byteOffset : Int32) : List Int16 :=
  int16s (buffer.bytes.drop byteOffset.toInt.toNat)

/-- The members of `WhisperOptions` that are set. -/
structure WhisperOptions where
  beamSize : Nat
  maxLength : Nat
  samplingTopk : Nat
  returnScores : Bool
  returnNoSpeechProb : Bool
  patience : Rat
  numHypotheses : Nat
  samplingTemperature : Rat
  deriving DecidableEq, Repr

/-- `ctranslate2::models::Whisper`: the languages with their probabilities, and the token
sequences of the first result. -/
structure WhisperModel (Value : Type) where
  nMels : Nat
  detectLanguage : List Value → Except NativeException (List (Bytes × Rat))
  generate : List Value → List (List Bytes) → WhisperOptions →
    Except NativeException (List (List Bytes))

variable {Value Memory : Type} [Field Value]

/-- What a handle holds and never changes, with what it runs on. -/
structure Engine (Value Memory : Type) [Field Value] where
  env : JNIEnv
  extractor : Extractor Value
  network : Network Value Memory
  model : WhisperModel Value
  tokenizer : WhisperPromptTokenizer

/-- The members of `WhisperHandle` that calls write. -/
structure WhisperHandle (Value : Type) [Field Value] where
  pcmSamples : List Value := []
  vadSamples : List Value := []
  melFeatures : List Value := []
  featureWorkspace : Workspace Value := {}
  vadContext : Option VadContext := none

abbrev Native (Value : Type) [Field Value] (Result : Type) : Type :=
  Action (WhisperHandle Value) NativeException Result

/-- An order of the threads' steps for every division into blocks. -/
structure Scheduling where
  schedule : Nat → List (Nat × Nat) → List Nat
  complete : ∀ nMels ranges, OrderOf nMels ranges (schedule nMels ranges)

/-- The class of an exception from `pcm16_spans_to_float_vector`. -/
def spanException (text : String) : NativeException :=
  if text = "PCM16 span length overflow" then .other text else .invalidArgument text

/-- The two spans in `pcm_samples`. -/
def convertSpans (engine : Engine Value Memory) (buffer : ByteBuffer) (request : Request) :
    Native Value (List Value) := fun handle =>
  match pcm16SpansToFloatVector engine.extractor.neon
      (some (buffer.pcmAt request.firstByteOffset)) request.firstSampleCount.toInt.toNat
      (some (buffer.pcmAt request.secondByteOffset)) request.secondSampleCount.toInt.toNat
      handle.pcmSamples with
  | none => none
  | some (.error text) => some (.error (spanException text), handle)
  | some (.ok samples) => some (.ok samples, { handle with pcmSamples := samples })

/-- The samples for the inference: all of them, or the speech in `vad_samples` if there
is some. -/
def filterSpeech (engine : Engine Value Memory) (options : Options) (pcmSamples : List Value) :
    Native Value (Option (List Value)) := fun handle =>
  if options.vadEnabled then
    match handle.vadContext with
    | none =>
      some (.error (.other "Silero VAD is enabled but its model is not loaded"), handle)
    | some context =>
      match collectWhisperVadSpeech engine.network (some context) pcmSamples
          options.vadThreshold with
      | .error text => some (.error (.other text), { handle with vadSamples := [] })
      | .ok (hasSpeech, speech, context) =>
        some (.ok (if hasSpeech then some speech else none),
          { handle with vadSamples := speech, vadContext := some context })
  else some (.ok (some pcmSamples), handle)

/-- The features in `mel_features`. -/
def extractFeatures [LinearOrder Value] (engine : Engine Value Memory) (parallelFor : ParallelFor)
    (scheduling : Scheduling) (samples : List Value) : Native Value (List Value) := fun handle =>
  let nMels := engine.model.nMels
  let ranges := parallelFor.ranges (activeFrames (min samples.length kChunkSamples))
    handle.featureWorkspace.numThreads
  match makeWhisperFeatures engine.extractor samples nMels handle.melFeatures
      handle.featureWorkspace parallelFor (scheduling.schedule nMels ranges) with
  | none => none
  | some (.error text) => some (.error (.invalidArgument text), handle)
  | some (.ok (features, workspace)) =>
    some (.ok features, { handle with melFeatures := features, featureWorkspace := workspace })

section Recognition

variable (engine : Engine Value Memory) (options : Options)

/-- `language_token`: the most likely language where one is to be found. -/
def languageToken (features : List Value) (languageCode : Bytes) :
    Except NativeException Bytes :=
  if options.translateToEnglish ∨ languageCode = ascii "auto" then do
    match ← engine.model.detectLanguage features with
    | [] => .error (.other "CTranslate2 language detection returned no result")
    | (token, _) :: _ => .ok token
  else .ok (ascii "<|" ++ languageCode ++ ascii "|>")

/-- `prompt`. -/
def promptTokens (promptText token : Bytes) : Except NativeException (List Bytes) := do
  let initialTokens ← (engine.tokenizer.encode promptText 224).mapError .other
  let previous := if initialTokens.isEmpty then [] else ascii "<|startofprev|>" :: initialTokens
  return previous ++ [ascii "<|startoftranscript|>", token,
    ascii (if options.translateToEnglish then "<|translate|>" else "<|transcribe|>"),
    ascii "<|notimestamps|>"]

def whisperOptions : WhisperOptions where
  beamSize := (max 1 options.beamSize.toInt).toNat
  maxLength := (max 1 options.maxLength.toInt).toNat
  samplingTopk := 1
  returnScores := false
  returnNoSpeechProb := false
  patience := 1
  numHypotheses := 1
  samplingTemperature := 1

def recognise (features : List Value) : Except NativeException (List UInt16) := do
  let languageCode ← (JStringUtf8.str engine.env options.language).mapError .invalidArgument
  let promptText ← (JStringUtf8.str engine.env options.initialPrompt).mapError .invalidArgument
  let token ← languageToken engine options features languageCode
  let prompt ← promptTokens engine options promptText token
  match ← engine.model.generate features [prompt] (whisperOptions options) with
  | [] => return utf8ToUtf16ReplacingInvalid []
  | sequence :: _ => return utf8ToUtf16ReplacingInvalid (decodeWhisperTokens sequence)

end Recognition

section Call

variable [LinearOrder Value] (engine : Engine Value Memory) (parallelFor : ParallelFor)
  (scheduling : Scheduling)

/-- `transcribe` from the features on; without speech there is no text. -/
def transcribeHeard (options : Options) : Option (List Value) → Native Value (List UInt16)
  | none => return utf8ToUtf16ReplacingInvalid []
  | some inferenceSamples => do
    let features ← extractFeatures engine parallelFor scheduling inferenceSamples
    Action.ofExcept (recognise engine options features)

/-- `transcribe`, for a handle that is not null. -/
def transcribe (request : Request) : Native Value (List UInt16) := do
  let buffer ← Action.ofExcept request.validate
  let pcmSamples ← convertSpans engine buffer request
  let inferenceSamples ← filterSpeech engine request.options pcmSamples
  transcribeHeard engine parallelFor scheduling request.options inferenceSamples

end Call

/-- The files that `create` reads. -/
structure Files (Value Memory : Type) where
  network : Network Value Memory
  loadModel : Bytes → Bytes → Nat → Except NativeException (WhisperModel Value)
  readTokenizer : Bytes → Except NativeException TokenizerDocument
  loadVad : Bytes → Except NativeException VadContext

/-- `vad_context`, which stays null without a path. -/
def Files.vadContext (files : Files Value Memory) (vadPath : Bytes) :
    Except NativeException (Option VadContext) :=
  if vadPath.isEmpty then .ok none else (files.loadVad vadPath).map some

/-- `create`. -/
def create (env : JNIEnv) (extractor : Extractor Value) (files : Files Value Memory)
    (modelDirectory computeType vadModelPath : Option (List UInt16)) (threads : Int32) :
    Except NativeException (Engine Value Memory × WhisperHandle Value) := do
  let modelPath ← (JStringUtf8.str env modelDirectory).mapError .invalidArgument
  let compute ← (JStringUtf8.str env computeType).mapError .invalidArgument
  let vadPath ← (JStringUtf8.str env vadModelPath).mapError .invalidArgument
  if modelPath.isEmpty then .error (.invalidArgument "modelDirectory must not be empty")
  else if threads ≤ 0 then .error (.invalidArgument "threads must be greater than 0")
  else do
    let model ← files.loadModel modelPath compute threads.toInt.toNat
    let document ← files.readTokenizer modelPath
    let tokenizer ← (WhisperPromptTokenizer.create document).mapError .other
    let vadContext ← files.vadContext vadPath
    let workspace ← (prepareWhisperFeatureWorkspace extractor model.nMels {}
      threads.toInt.toNat).mapError .invalidArgument
    return (⟨env, extractor, files.network, model, tokenizer⟩,
      { melFeatures := List.replicate (model.nMels * 3000) 0
        featureWorkspace := workspace
        vadContext })

end LocalWhisper.CTranslate2
