import LocalWhisper.Transcription.CTranslate2TranscriptionWorker
import LocalWhisper.Transcription.FinalResult

/-! Live transcription as a whole: the thread of `WhisperTranscriptionWorker` with its
`CTranslate2TranscriptionWorker`, from the chunks that the recorder submits to the texts
that are published. -/

namespace LocalWhisper.Transcription

open CTranslate2 Machine
open Machine.JavaString (codePoints)
open NativeText (JNIEnv specifiedEnv)
open Prompt (TextServices)
open Record.Buffer (DirectPcm16RingBuffer shortBytes)

/-- `getMessage`. -/
def messageOf : JavaException → String
  | .illegalArgument message => message
  | .illegalState message => message

def eventText (text : Units) : String := String.ofList ((codePoints text).map Char.ofNat)

/-- The settings as far as the windows depend on them. -/
def windowSettings (settings : SettingUI.WhisperSettings) : WhisperSettings where
  modelKey := eventText settings.model.key
  fileModelKey := eventText settings.fileTranscription.model.key
  windowMs := settings.windowMs.toNat
  overlapMs := settings.overlapMs.toNat
  minFinalMs := settings.minFinalMs.toNat
  audioRecordingEnabled := settings.audioRecordingEnabled
  autoRetranscribeEnabled := settings.autoRetranscribeEnabled
  windowRange := by
    have range := settings.windowRange
    omega
  overlapRange := by
    have range := settings.overlapRange
    have window := settings.windowRange
    omega
  minFinalRange := by
    have range := settings.minFinalRange
    omega
  retranscribeRecorded := settings.retranscribeRecorded

/-- Both constructors bring the lengths into the same ranges. -/
theorem windowSettings_new (model : Option SettingUI.TranscriptionModel) (language : Option Units)
    (windowMs overlapMs minFinalMs maxThreads : Int)
    (audioRecordingEnabled autoRetranscribeEnabled vadEnabled : Bool) (vadThreshold : JavaFloat)
    (translateToEnglish : Bool) (prompt : Option Units)
    (fileTranscription : SettingUI.FileTranscriptionSettings) :
    windowSettings (.new model language windowMs overlapMs minFinalMs maxThreads
        audioRecordingEnabled autoRetranscribeEnabled vadEnabled vadThreshold translateToEnglish
        prompt (some fileTranscription)) =
      .new (eventText (model.getD SettingUI.WhisperSettings.defaultModel).key)
        (eventText fileTranscription.model.key) windowMs overlapMs minFinalMs
        audioRecordingEnabled autoRetranscribeEnabled := rfl

def inferenceOf (outcome : Except JavaException TranscriptionWorkerResult)
    (processingTimeMs : Nat) : Inference :=
  match outcome with
  | .ok result => .result (eventText result.text) result.speakerChanged processingTimeMs
  | .error exception => .failure (messageOf exception)

/-- The window that the next step of the thread has transcribed, if it does so: whether it
is the final one. -/
def WhisperTranscriptionWorker.asks {Sample : Type} (worker : WhisperTranscriptionWorker Sample) :
    Option Bool :=
  match worker.phase with
  | .windowing | .drainWindowing =>
    if worker.pendingAudio.size ≥ worker.windowSamples && !worker.interrupted then some false
    else none
  | .finishing =>
    let hasRequiredAudio := decide (worker.pendingAudio.size ≥ worker.minFinalSamples)
    let hasForcedFinalAudio := worker.finishAfterQueuedAudio && worker.pendingAudio.size > 0
    if !worker.interrupted && (hasRequiredAudio || hasForcedFinalAudio) then some true else none
  | _ => none

structure LiveTranscription (Value : Type) [Field Value] where
  worker : WhisperTranscriptionWorker Int16
  model : CTranslate2TranscriptionWorker Value

/-- Calls from the recorder and the service, an interrupt, and the steps of the thread. -/
inductive LiveLabel where
  | submit (chunk : PcmChunk Int16)
  | requestStop
  | resumeAudioSubmission
  | interrupt
  | advance (parallelFor : ParallelFor) (scheduling : Scheduling) (processingTimeMs : Nat)

namespace LiveTranscription

variable {Value Memory Locale : Type} [Field Value] [LinearOrder Value]
variable (engine : Engine Value Memory) (services : TextServices Locale)
variable (settings : SettingUI.WhisperSettings)

/-- What happens to the first worker, with the second one behind it. -/
def resolve (live : LiveTranscription Value) :
    LiveLabel → Option (WorkerLabel Int16 × CTranslate2TranscriptionWorker Value)
  | .submit chunk => some (.submit chunk, live.model)
  | .requestStop => some (.requestStop, live.model)
  | .resumeAudioSubmission => some (.resumeAudioSubmission, live.model)
  | .interrupt => some (.interrupt, live.model)
  | .advance parallelFor scheduling processingTimeMs =>
    match live.worker.asks with
    | none => some (.advance (.result "" false processingTimeMs), live.model)
    | some finalResult =>
      (CTranslate2TranscriptionWorker.transcribeWindow engine services settings parallelFor
        scheduling live.worker.pendingAudio (live.worker.windowLength finalResult) live.model).map
          fun (outcome, model) => (.advance (inferenceOf outcome processingTimeMs), model)

def step (live : LiveTranscription Value) (label : LiveLabel) :
    Option (LiveTranscription Value × List (WorkerOutput Int16)) := do
  let (label, model) ← live.resolve engine services settings label
  let (worker, more) ← live.worker.step label
  return (⟨worker, model⟩, more)

/-- No eviction, no interrupt and no exception of the native code. -/
def Calm (live : LiveTranscription Value) (label : LiveLabel) : Prop :=
  ∀ resolved ∈ live.resolve engine services settings label,
    undisturbed (live.worker, []) resolved.1 = true

variable {engine services settings}

theorem step_cases {live next : LiveTranscription Value} {label : LiveLabel}
    {more : List (WorkerOutput Int16)}
    (taken : live.step engine services settings label = some (next, more)) :
    ∃ resolved, live.resolve engine services settings label = some (resolved, next.model) ∧
      live.worker.step resolved = some (next.worker, more) := by
  obtain ⟨⟨resolved, model⟩, found, taken⟩ := Option.bind_eq_some_iff.mp taken
  obtain ⟨⟨worker, reports⟩, stepped, taken⟩ := Option.bind_eq_some_iff.mp taken
  cases taken
  exact ⟨resolved, found, stepped⟩

private theorem step_of_resolve {live : LiveTranscription Value} {label : LiveLabel}
    {resolved : WorkerLabel Int16} {model : CTranslate2TranscriptionWorker Value}
    {next : WhisperTranscriptionWorker Int16} {more : List (WorkerOutput Int16)}
    (found : live.resolve engine services settings label = some (resolved, model))
    (calm : undisturbed (live.worker, []) resolved = true)
    (taken : live.worker.step resolved = some (next, more)) :
    live.Calm engine services settings label ∧
      live.step engine services settings label = some (⟨next, model⟩, more) := by
  constructor
  · intro other same
    rw [found] at same
    rwa [← Option.some.inj same]
  · simp only [step, found, taken, bind, Option.bind_some, pure]

end LiveTranscription

section Asking

variable {Sample : Type} {worker next : WhisperTranscriptionWorker Sample}
variable {more : List (WorkerOutput Sample)}

theorem WhisperTranscriptionWorker.advance_asking {finalResult : Bool}
    (asking : worker.asks = some finalResult) :
    worker.windowLength finalResult ≤ worker.pendingAudio.sizeSamples ∧
      ∃ after, ∀ answer,
        worker.advance answer = some (worker.transcribeNextWindow finalResult answer after) := by
  cases place : worker.phase <;> simp only [asks, place] at asking
  case windowing =>
    split at asking
    · next full =>
      cases asking
      refine ⟨by simp_all [windowLength], .windowing, fun answer => ?_⟩
      simp only [advance, place, windowStep, if_pos full]
    · cases asking
  case drainWindowing =>
    split at asking
    · next full =>
      cases asking
      refine ⟨by simp_all [windowLength], .drainWindowing, fun answer => ?_⟩
      simp only [advance, place, windowStep, if_pos full]
    · cases asking
  case finishing =>
    split at asking
    · next full =>
      cases asking
      refine ⟨Nat.le_refl _, .closing, fun answer => ?_⟩
      simp only [advance, place, finalStep, if_pos full]
    · cases asking
  all_goals cases asking

/-- Other steps outside the catch block have nothing transcribed and publish nothing. -/
theorem WhisperTranscriptionWorker.advance_silent (silent : worker.asks = none)
    (works : ∀ message, worker.phase ≠ .failing message) {answer : Inference}
    (taken : worker.advance answer = some (next, more)) :
    transcribedWindows more = [] ∧ publishedEvents more = [] := by
  cases place : worker.phase <;> simp only [advance, place] at taken <;>
    simp only [asks, place] at silent
  case unstarted | ended | stopped => cases taken
  case failing message => exact absurd place (works message)
  case windowing | drainWindowing =>
    split at silent
    · cases silent
    · next short =>
      rw [windowStep, if_neg short] at taken
      cases taken
      exact ⟨rfl, rfl⟩
  case finishing =>
    split at silent
    · cases silent
    · next short =>
      rw [finalStep, if_neg short] at taken
      cases taken
      exact ⟨rfl, rfl⟩
  case opening =>
    split at taken <;> cases taken <;> exact ⟨rfl, rfl⟩
  case appending | checking | drainAppending | closing =>
    cases taken
    exact ⟨rfl, rfl⟩
  case looping | draining =>
    split at taken <;> cases taken <;> exact ⟨rfl, rfl⟩
  case taking =>
    split at taken
    · cases taken
      exact ⟨rfl, rfl⟩
    · split at taken <;> cases taken <;> exact ⟨rfl, rfl⟩

theorem WhisperTranscriptionWorker.advance_unasked (silent : worker.asks = none)
    (text other : String) (speakerChanged otherChanged : Bool) (processingTimeMs : Nat) :
    worker.advance (.result text speakerChanged processingTimeMs) =
      worker.advance (.result other otherChanged processingTimeMs) := by
  cases place : worker.phase <;> simp only [advance, place] <;>
    simp only [asks, place] at silent
  case windowing | drainWindowing =>
    split at silent
    · cases silent
    · next short => rw [windowStep, windowStep, if_neg short, if_neg short]
  case finishing =>
    split at silent
    · cases silent
    · next short => rw [finalStep, finalStep, if_neg short, if_neg short]

/-- Calls have nothing transcribed and publish nothing. -/
theorem WhisperTranscriptionWorker.call_silent {label : WorkerLabel Sample}
    (call : ∀ answer, label ≠ .advance answer) (taken : worker.step label = some (next, more)) :
    transcribedWindows more = [] ∧ publishedEvents more = [] := by
  cases label with
  | advance answer => exact absurd rfl (call answer)
  | submit chunk =>
    obtain ⟨-, rfl⟩ := Prod.mk.inj (Option.some.inj taken)
    have evicted (old : Option (PcmChunk Sample)) :
        transcribedWindows (old.toList.map fun old => WorkerOutput.evicted old.samples) = [] ∧
          publishedEvents (old.toList.map fun old => WorkerOutput.evicted old.samples) = [] := by
      cases old <;> exact ⟨rfl, rfl⟩
    rw [transcribedWindows_append, publishedEvents_append, (evicted _).1, (evicted _).2]
    split <;> exact ⟨rfl, rfl⟩
  | requestStop =>
    cases taken
    exact ⟨rfl, rfl⟩
  | resumeAudioSubmission =>
    obtain ⟨-, rfl⟩ := Prod.mk.inj (Option.some.inj taken)
    split <;> exact ⟨rfl, rfl⟩
  | interrupt =>
    cases taken
    exact ⟨rfl, rfl⟩

end Asking

section Texts

variable {Value Memory Locale : Type} [Field Value] [LinearOrder Value]
variable (engine : Engine Value Memory) (context : Option WhisperVad.VadContext)
variable (services : TextServices Locale) (settings : SettingUI.WhisperSettings)

/-- The texts so far are those that the windows so far give one after the other. -/
structure Told (live : LiveTranscription Value) (reports : List (WorkerOutput Int16))
    (results : List TranscriptionWorkerResult) : Prop where
  given : (outcomes (transcript engine context services settings) []
    ((transcribedWindows reports).map Prod.fst)).2 = results.map .ok
  remembers : Remembers engine context live.model
    (outcomes (transcript engine context services settings) []
      ((transcribedWindows reports).map Prod.fst)).1
  published : (publishedEvents reports).map (·.text) =
    results.map fun result => eventText result.text

variable {engine context services settings} {live next : LiveTranscription Value}
variable {reports more : List (WorkerOutput Int16)} {results : List TranscriptionWorkerResult}

theorem Told.silent (told : Told engine context services settings live reports results)
    (model : next.model = live.model)
    (silent : transcribedWindows more = [] ∧ publishedEvents more = []) :
    Told engine context services settings next (reports ++ more) results := by
  have windows : transcribedWindows (reports ++ more) = transcribedWindows reports := by
    rw [transcribedWindows_append, silent.1, List.append_nil]
  constructor
  · rw [windows]
    exact told.given
  · rw [windows, model]
    exact told.remembers
  · rw [publishedEvents_append, silent.2, List.append_nil]
    exact told.published

/-- One more window and its text. -/
theorem Told.window (told : Told engine context services settings live reports results)
    {samples : List Int16} {finalResult : Bool} {result : TranscriptionWorkerResult}
    {words : Units} {event : WhisperTranscriptionEvent}
    (answered : transcript engine context services settings samples
      (outcomes (transcript engine context services settings) []
        ((transcribedWindows reports).map Prod.fst)).1 = (.ok result, words))
    (remembers : Remembers engine context next.model words)
    (windows : transcribedWindows more = [(samples, finalResult)])
    (events : publishedEvents more = [event]) (text : event.text = eventText result.text) :
    Told engine context services settings next (reports ++ more) (results ++ [result]) := by
  have longer : outcomes (transcript engine context services settings) []
      ((transcribedWindows (reports ++ more)).map Prod.fst) =
        (words, (results ++ [result]).map .ok) := by
    rw [transcribedWindows_append, windows, List.map_append, List.map_singleton, outcomes_concat,
      answered, told.given, List.map_append, List.map_singleton]
  constructor
  · rw [longer]
  · rw [longer]
    exact remembers
  · rw [publishedEvents_append, events, List.map_append, told.published, List.map_append,
      List.map_singleton, List.map_singleton, text]

/-- A step of the thread that asks for a text. -/
theorem Told.asked (told : Told engine context services settings live reports results)
    (valid : Windowed live.worker reports)
    (room : live.worker.pendingAudio.capacitySamples ≤ (2 ^ 31 - 1) / shortBytes)
    (steady : settings.vadEnabled = true → Steady engine.network) {finalResult : Bool}
    (asking : live.worker.asks = some finalResult) {parallelFor : ParallelFor}
    {scheduling : Scheduling} {processingTimeMs : Nat}
    {outcome : Except JavaException TranscriptionWorkerResult}
    (ran : CTranslate2TranscriptionWorker.transcribeWindow engine services settings parallelFor
      scheduling live.worker.pendingAudio (live.worker.windowLength finalResult) live.model =
        some (outcome, next.model))
    (calm : undisturbed (live.worker, []) (.advance (inferenceOf outcome processingTimeMs)) = true)
    (taken : live.worker.advance (inferenceOf outcome processingTimeMs) =
      some (next.worker, more)) :
    ∃ result, Told engine context services settings next (reports ++ more) (results ++ [result]) := by
  obtain ⟨inside, after, advances⟩ := WhisperTranscriptionWorker.advance_asking asking
  obtain ⟨model, answered, remembers⟩ := RingWindow.refines
    ⟨live.worker.pendingAudio, live.worker.windowLength finalResult, parallelFor, scheduling,
      inside, room⟩ steady told.remembers
  rw [RingWindow.transcribe, ran] at answered
  obtain ⟨same, rfl⟩ := Prod.mk.inj (Option.some.inj answered)
  cases outcome with
  | error exception => cases calm
  | ok result =>
    have narrow := valid.room.overlap
    have dropped : live.worker.discardLength finalResult ≤
        live.worker.pendingAudio.sizeSamples := by
      unfold WhisperTranscriptionWorker.discardLength
      split
      · exact inside
      · next incomplete =>
        rw [Bool.not_eq_true] at incomplete
        rw [incomplete] at inside ⊢
        simp only [WhisperTranscriptionWorker.windowLength, Bool.false_eq_true, if_false]
          at inside ⊢
        omega
    obtain ⟨rest, progress, transcribed, -⟩ := live.worker.transcribeNextWindow_result finalResult
      (eventText result.text) result.speakerChanged processingTimeMs after inside dropped
    rw [inferenceOf, advances, transcribed] at taken
    obtain ⟨-, rfl⟩ := Prod.mk.inj (Option.some.inj taken)
    exact ⟨result, told.window (Prod.ext same.symm rfl) remembers rfl rfl rfl⟩

theorem Told.step (told : Told engine context services settings live reports results)
    (valid : Windowed live.worker reports)
    (room : live.worker.pendingAudio.capacitySamples ≤ (2 ^ 31 - 1) / shortBytes)
    (steady : settings.vadEnabled = true → Steady engine.network) {label : LiveLabel}
    (calm : live.Calm engine services settings label)
    (taken : live.step engine services settings label = some (next, more)) :
    ∃ results, Told engine context services settings next (reports ++ more) results := by
  obtain ⟨resolved, found, stepped⟩ := LiveTranscription.step_cases taken
  have undisturbedStep := calm _ found
  cases label with
  | submit | requestStop | resumeAudioSubmission | interrupt =>
    obtain ⟨rfl, model⟩ := Prod.mk.inj (Option.some.inj found)
    exact ⟨results, told.silent model.symm
      (WhisperTranscriptionWorker.call_silent (fun answer same => by cases same) stepped)⟩
  | advance parallelFor scheduling processingTimeMs =>
    cases asking : live.worker.asks with
    | none =>
      simp only [LiveTranscription.resolve, asking] at found
      obtain ⟨rfl, model⟩ := Prod.mk.inj (Option.some.inj found)
      rw [WhisperTranscriptionWorker.step] at stepped
      have works (message : String) : live.worker.phase ≠ .failing message := by
        intro failing
        have flags := valid.flags
        simp [WhisperTranscriptionWorker.FlagsAgree, failing] at flags
      exact ⟨results, told.silent model.symm
        (WhisperTranscriptionWorker.advance_silent asking works stepped)⟩
    | some finalResult =>
      simp only [LiveTranscription.resolve, asking] at found
      obtain ⟨⟨outcome, model⟩, ran, resolves⟩ := Option.map_eq_some_iff.mp found
      obtain ⟨rfl, rfl⟩ := Prod.mk.inj resolves
      obtain ⟨result, longer⟩ := told.asked valid room steady asking ran undisturbedStep stepped
      exact ⟨_, longer⟩

end Texts

section Run

variable {Value Memory Locale : Type} [Field Value] [LinearOrder Value] {env : JNIEnv}
variable {extractor : Extractor Value} {files : Files Value Memory}
variable {services : TextServices Locale} {settings : SettingUI.WhisperSettings}
variable {modelDirectory : Units} {vadModelPath : Option Units} {availableProcessors : Int}
variable {engine : Engine Value Memory} {model : CTranslate2TranscriptionWorker Value}
variable {sessionId : Text} {sampleRate initialSequence initialProcessedSamples : Nat}
variable {room : 2 * max 1 (sampleRate * (windowSettings settings).windowMs / 1000) + sampleRate ≤
  (2 ^ 31 - 1) / shortBytes}
variable {state : LiveTranscription Value × List (WorkerOutput Int16)}

def LiveTranscription.started (sessionId : Text) (sampleRate : Nat)
    (settings : SettingUI.WhisperSettings) (initialSequence initialProcessedSamples : Nat)
    (room : 2 * max 1 (sampleRate * (windowSettings settings).windowMs / 1000) + sampleRate ≤
      (2 ^ 31 - 1) / shortBytes) (model : CTranslate2TranscriptionWorker Value) :
    LiveTranscription Value where
  worker := Transcription.started sessionId sampleRate (windowSettings settings) initialSequence
    initialProcessedSamples room
  model := model

omit [LinearOrder Value] in
theorem capacity_of_run {alone : WhisperTranscriptionWorker Int16 × List (WorkerOutput Int16)}
    (overlap : sampleRate * (windowSettings settings).overlapMs / 1000 <
      max 1 (sampleRate * (windowSettings settings).windowMs / 1000))
    (room : 2 * max 1 (sampleRate * (windowSettings settings).windowMs / 1000) + sampleRate ≤
      (2 ^ 31 - 1) / shortBytes)
    (run : Reaches (recorded WhisperTranscriptionWorker.step)
      (fun state label => undisturbed state label = true)
      (started sessionId sampleRate (windowSettings settings) initialSequence
        initialProcessedSamples room, []) alone) :
    alone.1.pendingAudio.capacitySamples ≤ (2 ^ 31 - 1) / shortBytes := by
  obtain ⟨valid, -, same⟩ := windowed_of_run overlap run
  rw [valid.room.capacity, same.windowSamples, same.sampleRate, Nat.mul_comm]
  simpa [Transcription.started, WhisperTranscriptionWorker.start,
    WhisperTranscriptionWorker.new] using room

/-- A calm run is one of the first worker alone, and its texts are those of the windows. -/
theorem told_of_run (remembers : Remembers engine model.detector model [])
    (steady : settings.vadEnabled = true → Steady engine.network)
    (overlap : sampleRate * (windowSettings settings).overlapMs / 1000 <
      max 1 (sampleRate * (windowSettings settings).windowMs / 1000))
    (run : Reaches (recorded (LiveTranscription.step engine services settings))
      (fun state label => state.1.Calm engine services settings label)
      (.started sessionId sampleRate settings initialSequence initialProcessedSamples room model, [])
      state) :
    Reaches (recorded WhisperTranscriptionWorker.step)
      (fun state label => undisturbed state label = true)
      (started sessionId sampleRate (windowSettings settings) initialSequence
        initialProcessedSamples room, []) (state.1.worker, state.2) ∧
    ∃ results, Told engine model.detector services settings state.1 state.2 results := by
  induction run with
  | start => exact ⟨.start, [], rfl, remembers, rfl⟩
  | @next state after label earlier calm taken ih =>
    obtain ⟨alone, results, told⟩ := ih
    obtain ⟨more, stepped, reports⟩ := recorded_eq_some.mp taken
    obtain ⟨resolved, found, workerStep⟩ := LiveTranscription.step_cases stepped
    have valid := (windowed_of_run overlap alone).1
    have capacity := capacity_of_run overlap room alone
    constructor
    · exact alone.next (calm _ found) (recorded_eq_some.mpr ⟨more, workerStep, reports⟩)
    · rw [reports]
      exact told.step valid capacity steady calm stepped

/-- The windows of some audio: those that fit, and a last one with the rest. -/
def windowsOf (windowSamples stride count : Nat) (audio : List Int16) : List (List Int16) :=
  slidingWindows windowSamples stride count audio ++
    if audio.drop (count * stride) = [] then [] else [audio.drop (count * stride)]

/-- Once the thread of a calm run has ended, the published texts are those of the windows
of the accepted audio, each with the words of the texts before it in its prompt. -/
theorem live_texts (opened : openWorker env extractor files settings modelDirectory vadModelPath
      availableProcessors = .ok (engine, model))
    (steady : settings.vadEnabled = true → Steady files.network)
    (overlap : sampleRate * (windowSettings settings).overlapMs / 1000 <
      max 1 (sampleRate * (windowSettings settings).windowMs / 1000))
    (run : Reaches (recorded (LiveTranscription.step engine services settings))
      (fun state label => state.1.Calm engine services settings label)
      (.started sessionId sampleRate settings initialSequence initialProcessedSamples room model, [])
      state) (ended : state.1.worker.phase = .ended) :
    let windowSamples := max 1 (sampleRate * (windowSettings settings).windowMs / 1000)
    let stride := windowSamples - sampleRate * (windowSettings settings).overlapMs / 1000
    let audio := acceptedAudio state.2
    ∃ (count : Nat) (results : List TranscriptionWorkerResult),
      (∀ index, index < count ↔ index * stride + windowSamples ≤ audio.length) ∧
      (outcomes (transcript engine model.detector services settings) []
        (windowsOf windowSamples stride count audio)).2 = results.map .ok ∧
      (publishedEvents state.2).map (·.text) = results.map fun result => eventText result.text := by
  obtain ⟨remembers, network⟩ := remembers_openWorker opened
  obtain ⟨alone, results, told⟩ := told_of_run remembers (network ▸ steady) overlap run
  have valid := (windowed_of_run overlap alone).1
  obtain ⟨width, stride⟩ := sizes_of_run overlap alone
  obtain ⟨count, windows, fit, short⟩ := valid.finished (by simp [ended, WorkerPhase.pastFinal])
  rw [width, stride] at windows fit short
  refine ⟨count, results, lt_count_iff_fits fit short, ?_, told.published⟩
  have audio : (transcribedWindows state.2).map Prod.fst = windowsOf
      (max 1 (sampleRate * (windowSettings settings).windowMs / 1000))
      (max 1 (sampleRate * (windowSettings settings).windowMs / 1000) -
        sampleRate * (windowSettings settings).overlapMs / 1000) count (acceptedAudio state.2) := by
    rw [windows, windowsOf, List.map_append, List.map_map]
    congr 1
    · exact List.map_id _
    · split <;> rfl
  rw [← audio]
  exact told.given

end Run

section OneWord

variable {Value Memory Locale : Type} [Field Value] [LinearOrder Value]
variable {engine : Engine Value Memory} {context : Option WhisperVad.VadContext}
variable {services : TextServices Locale} {settings : SettingUI.WhisperSettings}
variable {word : Units}

def speaks (text : String) : WorkerLabel Int16 → Bool
  | .advance (.result spoken speakerChanged _) => spoken == text && !speakerChanged
  | _ => true

/-- A step of the first worker is one of both, where the second one has only one text. -/
theorem LiveTranscription.step_speaking {live : LiveTranscription Value}
    (gives : ∀ samples words, words = [] ∨ words = word →
      transcript engine context services settings samples words = (.ok ⟨word, false⟩, word))
    (room : live.worker.pendingAudio.capacitySamples ≤ (2 ^ 31 - 1) / shortBytes)
    (steady : settings.vadEnabled = true → Steady engine.network)
    (remembers : Remembers engine context live.model [] ∨
      Remembers engine context live.model word) {label : WorkerLabel Int16}
    {next : WhisperTranscriptionWorker Int16} {more : List (WorkerOutput Int16)}
    (calm : undisturbed (live.worker, []) label = true)
    (spoken : speaks (eventText word) label = true)
    (taken : live.worker.step label = some (next, more)) :
    ∃ label model, live.Calm engine services settings label ∧
      live.step engine services settings label = some (⟨next, model⟩, more) ∧
      (Remembers engine context model [] ∨ Remembers engine context model word) := by
  have stepping {label : LiveLabel} {resolved : WorkerLabel Int16}
      {model : CTranslate2TranscriptionWorker Value}
      (found : live.resolve engine services settings label = some (resolved, model))
      (calm : undisturbed (live.worker, []) resolved = true)
      (taken : live.worker.step resolved = some (next, more))
      (remembers : Remembers engine context model [] ∨ Remembers engine context model word) :
      ∃ label model, live.Calm engine services settings label ∧
        live.step engine services settings label = some (⟨next, model⟩, more) ∧
        (Remembers engine context model [] ∨ Remembers engine context model word) := by
    obtain ⟨allowed, stepped⟩ := step_of_resolve found calm taken
    exact ⟨label, model, allowed, stepped, remembers⟩
  cases label with
  | submit chunk => exact @stepping (.submit chunk) _ _ rfl calm taken remembers
  | requestStop => exact @stepping .requestStop _ _ rfl calm taken remembers
  | resumeAudioSubmission => exact @stepping .resumeAudioSubmission _ _ rfl calm taken remembers
  | interrupt => cases calm
  | advance answer =>
    cases answer with
    | failure message => cases calm
    | result text speakerChanged processingTimeMs =>
      simp only [speaks, Bool.and_eq_true, beq_iff_eq, Bool.not_eq_true'] at spoken
      obtain ⟨rfl, rfl⟩ := spoken
      cases asking : live.worker.asks with
      | none =>
        refine @stepping (.advance .pool inOrder processingTimeMs)
          (.advance (.result "" false processingTimeMs)) _ ?_ rfl ?_ remembers
        · simp only [resolve, asking]
        · rw [← taken]
          exact WhisperTranscriptionWorker.advance_unasked asking ..
      | some finalResult =>
        obtain ⟨inside, -⟩ := WhisperTranscriptionWorker.advance_asking asking
        obtain ⟨words, before, known⟩ : ∃ words, (words = [] ∨ words = word) ∧
            Remembers engine context live.model words :=
          remembers.elim (fun none => ⟨[], .inl rfl, none⟩) fun one => ⟨word, .inr rfl, one⟩
        obtain ⟨model, answered, remembered⟩ := RingWindow.refines
          ⟨live.worker.pendingAudio, live.worker.windowLength finalResult, .pool, inOrder,
            inside, room⟩ steady known
        rw [gives _ _ before] at answered remembered
        rw [RingWindow.transcribe] at answered
        refine @stepping (.advance .pool inOrder processingTimeMs) _ model ?_ calm taken
          (.inr remembered)
        simp only [resolve, asking, answered, Option.map_some, inferenceOf]

variable {sessionId : Text} {sampleRate initialSequence initialProcessedSamples : Nat}
variable {room : 2 * max 1 (sampleRate * (windowSettings settings).windowMs / 1000) + sampleRate ≤
  (2 ^ 31 - 1) / shortBytes}

private theorem live_of_run {model : CTranslate2TranscriptionWorker Value}
    {state : WhisperTranscriptionWorker Int16 × List (WorkerOutput Int16)}
    (gives : ∀ samples words, words = [] ∨ words = word →
      transcript engine context services settings samples words = (.ok ⟨word, false⟩, word))
    (remembers : Remembers engine context model [])
    (steady : settings.vadEnabled = true → Steady engine.network)
    (overlap : sampleRate * (windowSettings settings).overlapMs / 1000 <
      max 1 (sampleRate * (windowSettings settings).windowMs / 1000))
    (run : Reaches (recorded WhisperTranscriptionWorker.step)
      (fun state label => (undisturbed state label && speaks (eventText word) label) = true)
      (started sessionId sampleRate (windowSettings settings) initialSequence
        initialProcessedSamples room, []) state) :
    ∃ last, (Remembers engine context last [] ∨ Remembers engine context last word) ∧
      Reaches (recorded (LiveTranscription.step engine services settings))
        (fun state label => state.1.Calm engine services settings label)
        (.started sessionId sampleRate settings initialSequence initialProcessedSamples room model,
          []) (⟨state.1, last⟩, state.2) := by
  induction run with
  | start => exact ⟨model, .inl remembers, .start⟩
  | @next state after label earlier allowed taken ih =>
    obtain ⟨middle, remembered, both⟩ := ih
    obtain ⟨calm, spoken⟩ := Bool.and_eq_true_iff.mp allowed
    obtain ⟨more, stepped, reports⟩ := recorded_eq_some.mp taken
    have alone : Reaches (recorded WhisperTranscriptionWorker.step)
        (fun state label => undisturbed state label = true) _ state :=
      earlier.weaken fun state label allowed => (Bool.and_eq_true_iff.mp allowed).1
    have capacity := capacity_of_run overlap room alone
    obtain ⟨label, last, meets, step, remains⟩ :=
      @LiveTranscription.step_speaking _ _ _ _ _ _ _ _ _ _ ⟨state.1, middle⟩ gives capacity
        steady remembered _ _ _ calm spoken stepped
    refine ⟨last, remains, both.next meets (recorded_eq_some.mpr ⟨more, step, reports⟩)⟩

end OneWord

/-- A chunk of five samples and a stop, for windows of four. -/
def fiveRun : List (WorkerLabel Int16) :=
  .submit ⟨5, Int16.ofNat, 5, Nat.le_refl _⟩ :: .requestStop ::
    List.replicate 10 (.advance (.result (eventText (Machine.JavaString.ofString "a")) false 7))

def fiveStart : WhisperTranscriptionWorker Int16 :=
  started [] 4 (windowSettings secondSettings) 0 0 (by decide)

def fiveEnd : WhisperTranscriptionWorker Int16 × List (WorkerOutput Int16) :=
  (executeChecked (recorded WhisperTranscriptionWorker.step)
    (fun state label => undisturbed state label &&
      speaks (eventText (Machine.JavaString.ofString "a")) label) (fiveStart, []) fiveRun).get
    (by rfl)

/-- Two windows of five samples, each with its text. -/
theorem live_texts_five : ∃ engine model,
    ∃ (count : Nat) (results : List TranscriptionWorkerResult),
    openWorker specifiedEnv (realExtractor true) oneWord secondSettings
      (Machine.JavaString.ofString "m") (some (Machine.JavaString.ofString "v")) 2 =
        .ok (engine, model) ∧
    acceptedAudio fiveEnd.2 = [0, 1, 2, 3, 4] ∧
    (∀ index, index < count ↔ index * 4 + 4 ≤ 5) ∧
    (outcomes (transcript engine model.detector wholeWords secondSettings) []
      (windowsOf 4 4 count [0, 1, 2, 3, 4])).2 = results.map .ok ∧
    (publishedEvents fiveEnd.2).map (·.text) = results.map fun result => eventText result.text := by
  obtain ⟨engine, model, opened, gives⟩ := openWorker_oneWord
  have quiet : secondSettings.vadEnabled = true → Steady engine.network :=
    fun enabled => absurd enabled (by decide)
  have alone : Reaches (recorded WhisperTranscriptionWorker.step)
      (fun state label => (undisturbed state label &&
        speaks (eventText (Machine.JavaString.ofString "a")) label) = true) (fiveStart, [])
      fiveEnd := Reaches.of_executeChecked (Option.some_get _).symm
  obtain ⟨last, -, run⟩ := live_of_run gives (remembers_openWorker opened).1 quiet (by decide) alone
  obtain ⟨count, results, fit, texts, published⟩ := live_texts opened
    (fun enabled => absurd enabled (by decide)) (by decide) run rfl
  exact ⟨engine, model, count, results, opened, rfl, fit, texts, published⟩

end LocalWhisper.Transcription
