import LocalWhisper.CTranslate2.Bridge
import LocalWhisper.Transcription.PreviousContextWordExtractor

/-! `CTranslate2TranscriptionWorker`: windows of a ring buffer become texts, and the last
words of a text go into the prompt of the next window. -/

namespace LocalWhisper.Transcription

open CTranslate2 Machine
open Machine.JavaString (ofString trim codePointCount)
open NativeText (JNIEnv specifiedEnv specifiedEnv_specified str_units)
open Prompt (TextServices extractRecentWords codePointCount_extractRecentWords)
open Record.Buffer (DirectPcm16RingBuffer RingError readSpan shortBytes getElem_readSpan
  length_readSpan)
open WhisperVad (VadContext)

structure TranscriptionWorkerResult where
  text : Units
  speakerChanged : Bool
  deriving DecidableEq

/-- `PREVIOUS_CONTEXT_MAX_WORDS`. -/
def previousContextMaxWords : Int := 24

/-- `PREVIOUS_CONTEXT_MAX_CODE_POINTS`. -/
def previousContextMaxCodePoints : Int := 100

/-- The fields of `CTranslate2TranscriptionWorker` that change. -/
structure CTranslate2TranscriptionWorker (Value : Type) [Field Value] where
  bridge : CTranslate2Bridge Value
  previousWordContext : Units := []

def CTranslate2TranscriptionWorker.detector {Value : Type} [Field Value]
    (worker : CTranslate2TranscriptionWorker Value) : Option VadContext :=
  worker.bridge.handle.bind WhisperHandle.vadContext

/-- The prompt of the settings and the words before, each on a line where there is one. -/
def promptOf (settings : SettingUI.WhisperSettings) (previousWordContext : Units) : Units :=
  if previousWordContext.isEmpty then settings.prompt
  else if settings.prompt.isEmpty then previousWordContext
  else settings.prompt ++ ofString "\n" ++ previousWordContext

/-- `previousWordContext` behind a text; a blank one does not change it. -/
def contextAfter {Locale : Type} (services : TextServices Locale)
    (settings : SettingUI.WhisperSettings) (text previousWordContext : Units) : Units :=
  if (trim text).isEmpty then previousWordContext
  else extractRecentWords services (some text) (some settings.language) previousContextMaxWords
    previousContextMaxCodePoints

def requestOf (settings : SettingUI.WhisperSettings) (previousWordContext : Units)
    (samples : ByteBuffer)
    (firstByteOffset firstSampleCount secondByteOffset secondSampleCount : Int32) :
    BridgeRequest where
  samples
  firstByteOffset
  firstSampleCount
  secondByteOffset
  secondSampleCount
  language := settings.language
  translateToEnglish := settings.translateToEnglish
  initialPrompt := promptOf settings previousWordContext
  vadEnabled := settings.vadEnabled
  vadThreshold := settings.vadThreshold

private theorem storage_small {ring : DirectPcm16RingBuffer Int16}
    (room : ring.capacitySamples ≤ (2 ^ 31 - 1) / shortBytes) :
    (bytesOf (readSpan ring.storage 0 ring.capacitySamples)).length < 2 ^ 31 := by
  rw [length_bytesOf, length_readSpan]
  simp only [shortBytes] at room
  omega

/-- `storage()`. There is no ring of another capacity. -/
def ringStorage (ring : DirectPcm16RingBuffer Int16) : Option ByteBuffer :=
  if room : ring.capacitySamples ≤ (2 ^ 31 - 1) / shortBytes then
    some ⟨true, bytesOf (readSpan ring.storage 0 ring.capacitySamples), storage_small room⟩
  else none

def ringSpans (ring : DirectPcm16RingBuffer Int16) (sampleCount : Nat) :
    Except RingError (Int32 × Int32 × Int32 × Int32) := do
  let firstByteOffset ← ring.firstByteOffset sampleCount
  let firstSampleCount ← ring.firstSampleCount sampleCount
  let secondByteOffset ← ring.secondByteOffset sampleCount
  let secondSampleCount ← ring.secondSampleCount sampleCount
  return (Int32.ofNat firstByteOffset, Int32.ofNat firstSampleCount,
    Int32.ofNat secondByteOffset, Int32.ofNat secondSampleCount)

section Worker

variable {Value Memory Locale : Type} [Field Value] [LinearOrder Value]
variable (engine : Engine Value Memory) (services : TextServices Locale)
variable (settings : SettingUI.WhisperSettings)

namespace CTranslate2TranscriptionWorker

/-- `transcribe`. -/
def transcribe (parallelFor : ParallelFor) (scheduling : Scheduling) (samples : ByteBuffer)
    (firstByteOffset firstSampleCount secondByteOffset secondSampleCount : Int32) :
    Action (CTranslate2TranscriptionWorker Value) JavaException TranscriptionWorkerResult :=
  fun worker =>
    let request := requestOf settings worker.previousWordContext samples firstByteOffset
      firstSampleCount secondByteOffset secondSampleCount
    match CTranslate2Bridge.transcribe engine parallelFor scheduling request worker.bridge with
    | none => none
    | some (.error exception, bridge) => some (.error exception, { worker with bridge })
    | some (.ok text, bridge) =>
      some (.ok ⟨text, false⟩,
        ⟨bridge, contextAfter services settings text worker.previousWordContext⟩)

/-- `transcribe` on the oldest samples of a ring. -/
def transcribeWindow (parallelFor : ParallelFor) (scheduling : Scheduling)
    (ring : DirectPcm16RingBuffer Int16) (sampleCount : Nat) :
    Action (CTranslate2TranscriptionWorker Value) JavaException TranscriptionWorkerResult :=
  fun worker =>
    match ringStorage ring with
    | none => none
    | some samples =>
      match ringSpans ring sampleCount with
      | .error error => some (.error (.illegalArgument error.message), worker)
      | .ok (firstByteOffset, firstSampleCount, secondByteOffset, secondSampleCount) =>
        transcribe engine services settings parallelFor scheduling samples firstByteOffset
          firstSampleCount secondByteOffset secondSampleCount worker

end CTranslate2TranscriptionWorker

end Worker

/-- The constructor. -/
def openWorker {Value Memory : Type} [Field Value] (env : JNIEnv) (extractor : Extractor Value)
    (files : Files Value Memory) (settings : SettingUI.WhisperSettings)
    (modelDirectory : Units) (vadModelPath : Option Units) (availableProcessors : Int) :
    Except JavaException (Engine Value Memory × CTranslate2TranscriptionWorker Value) :=
  let threads := min settings.maxThreads (max 1 availableProcessors)
  ((create env extractor files (some modelDirectory) (some settings.model.computeType)
    vadModelPath (Int32.ofInt (max 1 threads))).mapError throwJava).map
      fun created => (created.1, { bridge := ⟨some created.2⟩ })

section Window

variable {ring : DirectPcm16RingBuffer Int16} {sampleCount : Nat}

private theorem ringSpans_eq (inside : sampleCount ≤ ring.sizeSamples) :
    ringSpans ring sampleCount =
      .ok (Int32.ofNat (ring.headSample * shortBytes),
        Int32.ofNat (min sampleCount (ring.capacitySamples - ring.headSample)), Int32.ofNat 0,
        Int32.ofNat (sampleCount - min sampleCount (ring.capacitySamples - ring.headSample))) := by
  have notOutside : ¬ sampleCount > ring.sizeSamples := Nat.not_lt.mpr inside
  simp only [ringSpans, DirectPcm16RingBuffer.firstByteOffset,
    DirectPcm16RingBuffer.firstSampleCount, DirectPcm16RingBuffer.secondByteOffset,
    DirectPcm16RingBuffer.secondSampleCount, if_neg notOutside]
  rfl

private theorem readSpan_part (storage : Nat → Int16) {capacity first count : Nat}
    (inside : first + count ≤ capacity) :
    ((readSpan storage 0 capacity).drop first).take count = readSpan storage first count := by
  apply List.ext_getElem
  · rw [List.length_take, List.length_drop, length_readSpan, length_readSpan]
    omega
  · intro index left right
    rw [List.getElem_take, List.getElem_drop, getElem_readSpan, getElem_readSpan]
    congr 1
    omega

theorem toInt_ofNat {number : Nat} (small : number < 2 ^ 31) :
    (Int32.ofNat number).toInt = number := Int32.toInt_ofNat_of_lt small

theorem span_storage {buffer : ByteBuffer} (found : ringStorage ring = some buffer)
    {first count : Nat} (inside : first + count ≤ ring.capacitySamples) :
    InsideSpan buffer.bytes.length (Int32.ofNat (first * shortBytes)) (Int32.ofNat count) ∧
      buffer.span (Int32.ofNat (first * shortBytes)) (Int32.ofNat count) =
        readSpan ring.storage first count := by
  unfold ringStorage at found
  split at found
  · next room =>
    simp only [shortBytes] at room ⊢
    obtain rfl := Option.some.inj found
    have place : (Int32.ofNat (first * 2)).toInt = (first * 2 : Nat) := toInt_ofNat (by omega)
    have number : (Int32.ofNat count).toInt = count := toInt_ofNat (by omega)
    constructor
    · constructor <;> simp only [place, number, length_bytesOf, length_readSpan] <;> omega
    · have bytes : (first * 2 : Nat) = 2 * first := Nat.mul_comm _ _
      rw [ByteBuffer.span, ByteBuffer.pcmAt, place, number, Int.toNat_natCast, Int.toNat_natCast,
        bytes, int16s_drop, int16s_bytesOf, readSpan_part ring.storage inside]
  · cases found

private theorem window_eq_spans (inside : sampleCount ≤ ring.sizeSamples) :
    ring.contents.take sampleCount =
      readSpan ring.storage ring.headSample
          (min sampleCount (ring.capacitySamples - ring.headSample)) ++
        readSpan ring.storage 0
          (sampleCount - min sampleCount (ring.capacitySamples - ring.headSample)) := by
  have notOutside : ¬ sampleCount > ring.sizeSamples := Nat.not_lt.mpr inside
  have oldest := ring.window_eq_take sampleCount inside
  simp only [DirectPcm16RingBuffer.window, DirectPcm16RingBuffer.firstByteOffset,
    DirectPcm16RingBuffer.firstSampleCount, DirectPcm16RingBuffer.secondByteOffset,
    DirectPcm16RingBuffer.secondSampleCount, if_neg notOutside] at oldest
  rw [← Except.ok.inj oldest, Nat.mul_div_cancel _ (by decide), Nat.zero_div]

private theorem samples_window {buffer : ByteBuffer} (found : ringStorage ring = some buffer)
    (inside : sampleCount ≤ ring.sizeSamples) (settings : SettingUI.WhisperSettings)
    (words : Units) : ∃ firstByteOffset firstSampleCount secondByteOffset secondSampleCount,
      ringSpans ring sampleCount =
        .ok (firstByteOffset, firstSampleCount, secondByteOffset, secondSampleCount) ∧
      (requestOf settings words buffer firstByteOffset firstSampleCount secondByteOffset
        secondSampleCount).native.samples = .ok (ring.contents.take sampleCount) := by
  have headInside := ring.headInside
  have sizeInside := ring.sizeInside
  have direct : buffer.direct = true := by
    unfold ringStorage at found
    split at found
    · rw [← Option.some.inj found]
    · cases found
  obtain ⟨firstInside, first⟩ := @span_storage ring buffer found ring.headSample
    (min sampleCount (ring.capacitySamples - ring.headSample)) (by omega)
  obtain ⟨secondInside, second⟩ := @span_storage ring buffer found 0
    (sampleCount - min sampleCount (ring.capacitySamples - ring.headSample)) (by omega)
  rw [Nat.zero_mul] at second secondInside
  refine ⟨_, _, _, _, ringSpans_eq inside, ?_⟩
  rw [Request.samples_of_inside rfl direct firstInside secondInside, window_eq_spans inside,
    ← first, ← second]
  rfl

end Window

section Transcripts

variable {Value Memory Locale : Type} [Field Value] [LinearOrder Value]
variable (engine : Engine Value Memory) (context : Option VadContext)
variable (services : TextServices Locale) (settings : SettingUI.WhisperSettings)

def optionsOf (words : Units) : Options where
  language := some settings.language
  translateToEnglish := settings.translateToEnglish
  initialPrompt := some (promptOf settings words)
  vadEnabled := settings.vadEnabled
  vadThreshold := (SettingUI.clampThreshold settings.vadThreshold).value
  beamSize := 1
  maxLength := 448

/-- The text of some samples behind some words, and the words behind it. -/
noncomputable def transcript (samples : List Int16) (words : Units) :
    Except JavaException TranscriptionWorkerResult × Units :=
  match (transcription engine context (optionsOf settings words) samples).mapError throwJava with
  | .error exception => (.error exception, words)
  | .ok text => (.ok ⟨text, false⟩, contextAfter services settings text words)

/-- A window, with the way its frames are divided and computed. -/
structure RingWindow where
  ring : DirectPcm16RingBuffer Int16
  sampleCount : Nat
  parallelFor : ParallelFor
  scheduling : Scheduling
  inside : sampleCount ≤ ring.sizeSamples
  room : ring.capacitySamples ≤ (2 ^ 31 - 1) / shortBytes

def RingWindow.samples (window : RingWindow) : List Int16 :=
  window.ring.contents.take window.sampleCount

def RingWindow.transcribe (window : RingWindow) :
    Action (CTranslate2TranscriptionWorker Value) JavaException TranscriptionWorkerResult :=
  CTranslate2TranscriptionWorker.transcribeWindow engine services settings window.parallelFor
    window.scheduling window.ring window.sampleCount

/-- The worker is open, and remembers these words, which keep to their limit. -/
structure Remembers (worker : CTranslate2TranscriptionWorker Value) (words : Units) : Prop where
  opened : Opened engine context worker.bridge
  kept : worker.previousWordContext = words
  short : (codePointCount words : Int) ≤ previousContextMaxCodePoints

variable {engine context services settings}

private theorem codePointCount_contextAfter (text : Units) {words : Units}
    (short : (codePointCount words : Int) ≤ previousContextMaxCodePoints) :
    (codePointCount (contextAfter services settings text words) : Int) ≤
      previousContextMaxCodePoints := by
  unfold contextAfter
  split
  · exact short
  · exact codePointCount_extractRecentWords services _ _ (by decide)

theorem RingWindow.refines (window : RingWindow)
    (steady : settings.vadEnabled = true → Steady engine.network) :
    Refines (Remembers engine context) (window.transcribe engine services settings)
      (transcript engine context services settings window.samples) := by
  rintro worker words ⟨opened, rfl, short⟩
  obtain ⟨buffer, found⟩ : ∃ buffer, ringStorage window.ring = some buffer :=
    ⟨_, dif_pos window.room⟩
  obtain ⟨firstByteOffset, firstSampleCount, secondByteOffset, secondSampleCount, spans, samples⟩ :=
    samples_window found window.inside settings worker.previousWordContext
  obtain ⟨bridge, ran, stays⟩ := answers_bridge
    (requestOf settings worker.previousWordContext buffer firstByteOffset firstSampleCount
      secondByteOffset secondSampleCount)
    window.parallelFor window.scheduling steady worker.bridge opened
  rw [samples] at ran
  change _ = some ((transcription engine context (optionsOf settings worker.previousWordContext)
    window.samples).mapError throwJava, bridge) at ran
  simp only [RingWindow.transcribe, CTranslate2TranscriptionWorker.transcribeWindow, found, spans,
    CTranslate2TranscriptionWorker.transcribe, ran, transcript]
  cases (transcription engine context (optionsOf settings worker.previousWordContext)
      window.samples).mapError throwJava with
  | error exception => exact ⟨_, rfl, stays, rfl, short⟩
  | ok text => exact ⟨_, rfl, stays, rfl, codePointCount_contextAfter text short⟩

end Transcripts

section Runs

variable {Value Memory Locale : Type} [Field Value] [LinearOrder Value] {env : JNIEnv}
variable {extractor : Extractor Value} {files : Files Value Memory}
variable {services : TextServices Locale} {settings : SettingUI.WhisperSettings}
variable {modelDirectory : Units} {vadModelPath : Option Units} {availableProcessors : Int}
variable {engine : Engine Value Memory} {worker : CTranslate2TranscriptionWorker Value}

omit [LinearOrder Value] in
theorem remembers_openWorker (opened : openWorker env extractor files settings modelDirectory
    vadModelPath availableProcessors = .ok (engine, worker)) :
    Remembers engine worker.detector worker [] ∧ engine.network = files.network := by
  unfold openWorker at opened
  dsimp only at opened
  cases result : create env extractor files (some modelDirectory) (some settings.model.computeType)
      vadModelPath (Int32.ofInt (max 1 (min settings.maxThreads (max 1 availableProcessors)))) with
  | error exception =>
    rw [result] at opened
    cases opened
  | ok created =>
    rw [result] at opened
    cases opened
    obtain ⟨ready, network⟩ := ready_create result
    exact ⟨⟨⟨_, rfl, ready⟩, rfl, by decide⟩, network⟩

/-- A worker that is opened gives a run of windows the texts that their samples give one
after the other, however they lie in their rings and however they are computed; the words
that it remembers keep to their limit. -/
theorem windows_transcribed (opened : openWorker env extractor files settings modelDirectory
    vadModelPath availableProcessors = .ok (engine, worker))
    (steady : settings.vadEnabled = true → Steady files.network) (windows : List RingWindow) :
    ∃ next,
      execute (recorded (calling (RingWindow.transcribe engine services settings))) (worker, [])
        windows = some (next, (outcomes (fun window => transcript engine worker.detector services
          settings window.samples) [] windows).2) ∧
      (codePointCount next.previousWordContext : Int) ≤ previousContextMaxCodePoints := by
  obtain ⟨remembers, network⟩ := remembers_openWorker opened
  have refines : ∀ window ∈ windows,
      Refines (Remembers engine worker.detector) (window.transcribe engine services settings)
        (transcript engine worker.detector services settings window.samples) :=
    fun window _ => window.refines (network ▸ steady)
  obtain ⟨next, ran, stays⟩ := execute_calling [] remembers windows refines []
  exact ⟨next, ran, stays.kept ▸ stays.short⟩

end Runs

/-- Services that take a text for one word. -/
def wholeWords : TextServices Unit where
  normalize := id
  japanese := ()
  root := ()
  forLanguageTag _ := ()
  isJapaneseScript _ := false
  isWhitespace _ := false
  isLetterOrDigit _ := true
  wordBoundaries _ text := [0, text.length]
  toLowerCase := id

/-- Windows of a second that do not overlap, and no detector. -/
def secondSettings : SettingUI.WhisperSettings :=
  .new none none 1000 0 250 2 false false false .zero false none none

theorem openWorker_oneWord : ∃ engine model,
    openWorker specifiedEnv (realExtractor true) oneWord secondSettings (ofString "m")
      (some (ofString "v")) 2 = .ok (engine, model) ∧
    ∀ samples words, words = [] ∨ words = ofString "a" →
      transcript engine model.detector wholeWords secondSettings samples words =
        (.ok ⟨ofString "a", false⟩, ofString "a") := by
  obtain ⟨tokenizer, handle, known, created⟩ := create_oneWord
  have threads : Int32.ofInt (max 1 (min secondSettings.maxThreads (max 1 2))) = 2 := by decide
  have computeType : secondSettings.model.computeType = ofString "int8" := rfl
  refine ⟨⟨specifiedEnv, realExtractor true, .certain, oneWordModel, tokenizer⟩,
    { bridge := ⟨some handle⟩ }, ?_, fun samples words before => ?_⟩
  · simp only [openWorker, threads, computeType, created]
    rfl
  · have recognised (features : List ℝ) :
        recognise ⟨specifiedEnv, realExtractor true, .certain, oneWordModel, tokenizer⟩
          (optionsOf secondSettings words) features = .ok (ofString "a") := by
      have language : (optionsOf secondSettings words).language = some (ofString "ja") := rfl
      have spoken : (optionsOf secondSettings words).translateToEnglish = false := rfl
      have prompt : (optionsOf secondSettings words).initialPrompt = some words := by
        rcases before with rfl | rfl <;> rfl
      have encoded : ∃ tokens,
          tokenizer.encode (NativeText.encodeUnits words) 224 = .ok tokens := by
        rcases before with rfl | rfl
        · exact ⟨[], rfl⟩
        · exact ⟨[[97]], known⟩
      obtain ⟨tokens, encoded⟩ := encoded
      unfold recognise
      rw [language, prompt, str_units specifiedEnv_specified, str_units specifiedEnv_specified]
      simp only [Except.mapError, bind, Except.bind, languageToken]
      rw [spoken, if_neg (by decide)]
      simp only [promptTokens, encoded, Except.mapError, bind, Except.bind]
      have written : NativeText.utf8ToUtf16ReplacingInvalid
          (decodeWhisperTokens [Riff.ascii "a"]) = ofString "a" := by decide +kernel
      exact congrArg Except.ok written
    have text : transcription ⟨specifiedEnv, realExtractor true, .certain, oneWordModel, tokenizer⟩
        handle.vadContext (optionsOf secondSettings words) samples = .ok (ofString "a") := by
      have all : heard ⟨specifiedEnv, realExtractor true, .certain, oneWordModel, tokenizer⟩
          handle.vadContext (optionsOf secondSettings words)
          (samples.map NativeAudio.Pcm16Lanes.sampleValue) =
            .ok (some (samples.map NativeAudio.Pcm16Lanes.sampleValue)) := rfl
      have scaled (audio : List ℝ) : ∃ features,
          featureValues (realExtractor true) audio oneWordModel.nMels = .ok features := by
        unfold featureValues
        exact ⟨_, if_neg Nat.one_ne_zero⟩
      obtain ⟨features, found⟩ := scaled (samples.map NativeAudio.Pcm16Lanes.sampleValue)
      rw [transcription, all]
      simp only [bind, Except.bind, heardText, found]
      exact recognised features
    have remembered : contextAfter wholeWords secondSettings (ofString "a") words =
        ofString "a" := by
      rcases before with rfl | rfl <;> decide +kernel
    simp only [transcript, CTranslate2TranscriptionWorker.detector, Option.bind_some, text,
      Except.mapError, remembered]

def inOrder : Scheduling :=
  ⟨fun nMels ranges => inTurn (stepsOf nMels ranges) ranges.length, orderOf_inTurn⟩

/-- Three samples around the end of a ring of four. -/
def wrapped : RingWindow where
  ring := ⟨fun index => Int16.ofNat index, 4, 3, 3, by decide, by decide⟩
  sampleCount := 3
  parallelFor := .pool
  scheduling := inOrder
  inside := by decide
  room := by decide

/-- The word of the first window is in the prompt of the second one. -/
theorem windows_transcribed_wrapped : ∃ engine model next,
    openWorker specifiedEnv (realExtractor true) oneWord secondSettings (ofString "m")
      (some (ofString "v")) 2 = .ok (engine, model) ∧
    promptOf secondSettings
      (transcript engine model.detector wholeWords secondSettings wrapped.samples []).2 =
        ofString "a" ∧
    execute (recorded (calling (RingWindow.transcribe engine wholeWords secondSettings)))
        (model, []) [wrapped, wrapped] =
      some (next, [.ok ⟨ofString "a", false⟩, .ok ⟨ofString "a", false⟩]) ∧
    (codePointCount next.previousWordContext : Int) ≤ previousContextMaxCodePoints := by
  obtain ⟨engine, model, opened, gives⟩ := openWorker_oneWord
  obtain ⟨next, ran, short⟩ := @windows_transcribed ℝ Unit Unit _ _ _ _ _ wholeWords _ _ _ _ _ _
    opened (fun enabled => absurd enabled (by decide)) [wrapped, wrapped]
  have first := gives wrapped.samples [] (.inl rfl)
  have second := gives wrapped.samples (ofString "a") (.inr rfl)
  simp only [outcomes, first, second] at ran
  refine ⟨engine, model, next, opened, ?_, ran, short⟩
  rw [first]
  rfl

end LocalWhisper.Transcription
