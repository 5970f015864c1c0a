import LocalWhisper.Events
import LocalWhisper.Machine.Run
import LocalWhisper.Record.Buffer.RingBuffer
import LocalWhisper.Transcription.Settings

/-! `WhisperTranscriptionWorker`: the queue, the ring and the flags shared by
the recorder, the service and the worker thread, the synchronized methods of
the first two, and the steps of the thread that executes `run`. -/

namespace LocalWhisper.Transcription

open LocalWhisper.Record.Buffer

variable {Sample : Type}

/-- A filled direct PCM16 buffer; `setSampleCount` keeps the count inside it. -/
structure PcmChunk (Sample : Type) where
  capacity : Nat
  bytes : Nat → Sample
  sampleCount : Nat
  within : sampleCount ≤ capacity

def PcmChunk.samples (chunk : PcmChunk Sample) : List Sample :=
  readSpan chunk.bytes 0 chunk.sampleCount

/-- Where the worker thread stands in `run`. -/
inductive WorkerPhase (Sample : Type) where
  | unstarted
  /-- opening the CTranslate2 model -/
  | opening
  /-- the condition of the outer loop -/
  | looping
  /-- inside `audioQueue.poll(200, MILLISECONDS)` -/
  | taking
  | appending (chunk : PcmChunk Sample)
  /-- the inner loop over complete windows -/
  | windowing
  /-- before `beginTerminationIfDrained` -/
  | checking
  /-- `drainQueuedAudio` -/
  | draining
  | drainAppending (chunk : PcmChunk Sample)
  | drainWindowing
  /-- the decision on the final window -/
  | finishing
  /-- the catch block, with the message of the exception -/
  | failing (message : String)
  /-- the finally block before its synchronized part -/
  | closing
  /-- `workerThread` is null and the stop event is not yet published -/
  | ended
  | stopped

structure WhisperTranscriptionWorker (Sample : Type) where
  sessionId : Text
  modelKey : String
  sampleRate : Nat
  windowSamples : Nat
  overlapSamples : Nat
  minFinalSamples : Nat
  audioQueue : List (PcmChunk Sample)
  pendingAudio : DirectPcm16RingBuffer Sample
  running : Bool
  acceptingAudio : Bool
  drainStopRequested : Bool
  terminating : Bool
  finishAfterQueuedAudio : Bool
  /-- `workerThread` is not null -/
  workerThread : Bool
  interrupted : Bool
  sequence : Nat
  processedSamples : Nat
  phase : WorkerPhase Sample

/-- What a call or a thread step shows to the outside. -/
inductive WorkerOutput (Sample : Type) where
  /-- `submit` returned true for these samples -/
  | accepted (samples : List Sample)
  /-- `submit` closed the oldest waiting chunk -/
  | evicted (samples : List Sample)
  /-- `resumeAudioSubmission` returned true -/
  | resumed
  | progress (event : WhisperProgressEvent)
  /-- the native `transcribe` was called on these samples -/
  | transcribed (window : List Sample) (finalResult : Bool)
  | published (event : WhisperTranscriptionEvent)

/-- What the native code answers: a result, or an exception with its message. -/
inductive Inference where
  | result (text : String) (speakerChanged : Bool) (processingTimeMs : Nat)
  | failure (message : String)
  deriving DecidableEq, Repr

namespace WhisperTranscriptionWorker

def defaultSampleRate : Nat := 16000

def queueCapacity : Nat := 128

/-- The constructor. `room` is the int range that the ring constructor checks.
The code's `int` product `sampleRate * windowMs` is exact up to 71582 Hz, with
windows of at most 30 s; the service records at 16000 Hz. -/
def new [Inhabited Sample] (sessionId : Text) (sampleRate : Nat) (settings : WhisperSettings)
    (initialSequence initialProcessedSamples : Nat)
    (room : 2 * max 1 (sampleRate * settings.windowMs / 1000) + sampleRate ≤
      (2 ^ 31 - 1) / shortBytes) : WhisperTranscriptionWorker Sample :=
  let windowSamples := max 1 (sampleRate * settings.windowMs / 1000)
  { sessionId
    modelKey := settings.modelKey
    sampleRate
    windowSamples
    overlapSamples := max 0 (sampleRate * settings.overlapMs / 1000)
    minFinalSamples := max 1 (sampleRate * settings.minFinalMs / 1000)
    audioQueue := []
    pendingAudio := .new default (windowSamples * 2 + sampleRate)
      ⟨by simp only [windowSamples]; omega, by simp only [windowSamples]; omega⟩
    running := false
    acceptingAudio := false
    drainStopRequested := false
    terminating := false
    finishAfterQueuedAudio := false
    workerThread := false
    interrupted := false
    sequence := initialSequence
    processedSamples := initialProcessedSamples
    phase := .unstarted }

def start (worker : WhisperTranscriptionWorker Sample) : WhisperTranscriptionWorker Sample :=
  if worker.running then worker
  else { worker with
    running := true
    acceptingAudio := true
    drainStopRequested := false
    terminating := false
    workerThread := true
    phase := .opening }

/-- The thread object is set while its thread runs, and cleared before it ends. -/
def isAlive (worker : WhisperTranscriptionWorker Sample) : Bool := worker.workerThread

/-- The answer of `submit`: the worker after it, whether the chunk was taken,
and the oldest chunk when it had to make room. -/
structure Submission (Sample : Type) where
  worker : WhisperTranscriptionWorker Sample
  accepted : Bool
  evicted : Option (PcmChunk Sample)

def submit (worker : WhisperTranscriptionWorker Sample) (chunk : PcmChunk Sample) :
    Submission Sample :=
  if !worker.running || !worker.acceptingAudio || chunk.sampleCount = 0 then
    ⟨worker, false, none⟩
  else if worker.audioQueue.length < queueCapacity then
    ⟨{ worker with audioQueue := worker.audioQueue ++ [chunk] }, true, none⟩
  else
    let old := worker.audioQueue.head?
    let rest := worker.audioQueue.tail
    if rest.length < queueCapacity then
      ⟨{ worker with audioQueue := rest ++ [chunk] }, true, old⟩
    else ⟨{ worker with audioQueue := rest }, false, old⟩

/-- The returned flag says whether there is a thread to stop. -/
def requestStop (worker : WhisperTranscriptionWorker Sample) :
    WhisperTranscriptionWorker Sample × Bool :=
  ({ worker with
    acceptingAudio := false
    drainStopRequested := true
    finishAfterQueuedAudio := true }, worker.workerThread)

/-- Take back a stop that the thread has not acted on yet. -/
def resumeAudioSubmission (worker : WhisperTranscriptionWorker Sample) :
    WhisperTranscriptionWorker Sample × Bool :=
  if !worker.running || !worker.workerThread || worker.terminating then (worker, false)
  else ({ worker with
    drainStopRequested := false
    finishAfterQueuedAudio := false
    acceptingAudio := true }, true)

/-- The code's `long` product is exact for fewer than 2 ^ 53 samples. -/
def samplesToMs (worker : WhisperTranscriptionWorker Sample) (samples : Nat) : Nat :=
  samples * 1000 / worker.sampleRate

/-- `output`: publish one event and count it. -/
def output (worker : WhisperTranscriptionWorker Sample) (text : String)
    (speakerChanged finalResult : Bool) (errorMessage : Option String)
    (startMs durationMs processingTimeMs : Nat) (tag : WhisperTranscriptionTag) :
    WhisperTranscriptionWorker Sample × WhisperTranscriptionEvent :=
  ({ worker with sequence := worker.sequence + 1 },
    { sessionId := worker.sessionId
      sequence := worker.sequence
      text, speakerChanged, finalResult, errorMessage, startMs, durationMs, processingTimeMs
      modelKey := worker.modelKey
      tag })

/-- One inference over the oldest samples. An exception leads to the catch
block; otherwise the thread goes on at `next`. -/
def transcribeNextWindow (worker : WhisperTranscriptionWorker Sample) (finalResult : Bool)
    (answer : Inference) (next : WorkerPhase Sample) :
    WhisperTranscriptionWorker Sample × List (WorkerOutput Sample) :=
  let sampleCount := if finalResult then worker.pendingAudio.size else worker.windowSamples
  let startMs := worker.samplesToMs worker.processedSamples
  let durationMs := worker.samplesToMs sampleCount
  let progress := WorkerOutput.progress
    ⟨worker.sessionId, .realtimeInference, startMs, durationMs⟩
  match worker.pendingAudio.window sampleCount with
  | .error error => ({ worker with phase := .failing error.message }, [progress])
  | .ok window =>
    match answer with
    | .failure message =>
      ({ worker with phase := .failing message }, [progress, .transcribed window finalResult])
    | .result text speakerChanged processingTimeMs =>
      let (counted, event) := worker.output text speakerChanged finalResult none startMs durationMs
        processingTimeMs (if finalResult then .stopping else .recording)
      let reports := [progress, .transcribed window finalResult, .published event]
      let discardSamples :=
        if finalResult then sampleCount else max 1 (sampleCount - worker.overlapSamples)
      match worker.pendingAudio.discardFirst discardSamples with
      | .error error => ({ counted with phase := .failing error.message }, reports)
      | .ok (rest, _) =>
        ({ counted with
          pendingAudio := rest
          processedSamples := worker.processedSamples + discardSamples
          phase := next }, reports)

/-- How many samples one inference takes, and how many of them it drops. -/
def windowLength (worker : WhisperTranscriptionWorker Sample) (finalResult : Bool) : Nat :=
  if finalResult then worker.pendingAudio.size else worker.windowSamples

def discardLength (worker : WhisperTranscriptionWorker Sample) (finalResult : Bool) : Nat :=
  if finalResult then worker.windowLength finalResult
  else max 1 (worker.windowLength finalResult - worker.overlapSamples)

def windowEvent (worker : WhisperTranscriptionWorker Sample) (finalResult : Bool) (text : String)
    (speakerChanged : Bool) (processingTimeMs : Nat) : WhisperTranscriptionEvent :=
  (worker.output text speakerChanged finalResult none
    (worker.samplesToMs worker.processedSamples)
    (worker.samplesToMs (worker.windowLength finalResult)) processingTimeMs
    (if finalResult then .stopping else .recording)).2

/-- A successful inference on audio that is there: the oldest samples are
transcribed, one event is published, and the position advances with the ring. -/
theorem transcribeNextWindow_result (worker : WhisperTranscriptionWorker Sample)
    (finalResult : Bool) (text : String) (speakerChanged : Bool) (processingTimeMs : Nat)
    (next : WorkerPhase Sample)
    (inside : worker.windowLength finalResult ≤ worker.pendingAudio.sizeSamples)
    (dropped : worker.discardLength finalResult ≤ worker.pendingAudio.sizeSamples) :
    ∃ rest progress,
      worker.transcribeNextWindow finalResult (.result text speakerChanged processingTimeMs) next =
        ({ worker with
          sequence := worker.sequence + 1
          pendingAudio := rest
          processedSamples := worker.processedSamples + worker.discardLength finalResult
          phase := next },
        [.progress progress,
          .transcribed (worker.pendingAudio.contents.take (worker.windowLength finalResult))
            finalResult,
          .published (worker.windowEvent finalResult text speakerChanged processingTimeMs)]) ∧
      rest.contents = worker.pendingAudio.contents.drop (worker.discardLength finalResult) ∧
      rest.capacitySamples = worker.pendingAudio.capacitySamples := by
  have window := worker.pendingAudio.window_eq_take _ inside
  obtain ⟨rest, discarded, contents, capacity⟩ :=
    worker.pendingAudio.discardFirst_contents _ dropped
  unfold discardLength windowLength at discarded
  unfold windowLength at window
  refine ⟨rest, ⟨worker.sessionId, .realtimeInference,
    worker.samplesToMs worker.processedSamples,
    worker.samplesToMs (worker.windowLength finalResult)⟩, ?_, contents, capacity⟩
  simp only [transcribeNextWindow, window, discarded, output, windowEvent, discardLength,
    windowLength]

/-- `outputError`, from the catch block. -/
def outputError (worker : WhisperTranscriptionWorker Sample) (message : String) :
    WhisperTranscriptionWorker Sample × WhisperTranscriptionEvent :=
  worker.output "" false false (some message) (worker.samplesToMs worker.processedSamples) 0 0
    .stopping

/-- Move a polled chunk into the ring; a full ring is an exception. The chunk
itself is closed either way. -/
def appendChunk (worker : WhisperTranscriptionWorker Sample) (chunk : PcmChunk Sample)
    (next : WorkerPhase Sample) : WhisperTranscriptionWorker Sample :=
  match worker.pendingAudio.append chunk.bytes chunk.capacity chunk.sampleCount with
  | .error error => { worker with phase := .failing error.message }
  | .ok (ring, _) => { worker with pendingAudio := ring, phase := next }

/-- The synchronized decision to end, taken only with an empty queue. -/
def beginTerminationIfDrained (worker : WhisperTranscriptionWorker Sample) :
    WhisperTranscriptionWorker Sample × Bool :=
  if !worker.drainStopRequested || !worker.audioQueue.isEmpty then (worker, false)
  else ({ worker with acceptingAudio := false, terminating := true }, true)

/-- The finally block: the ring is cleared, waiting chunks are closed, and
`workerThread` becomes null in the same synchronized part. -/
def finish (worker : WhisperTranscriptionWorker Sample) : WhisperTranscriptionWorker Sample :=
  { worker with
    pendingAudio := worker.pendingAudio.clear
    running := false
    acceptingAudio := false
    drainStopRequested := false
    terminating := true
    audioQueue := []
    workerThread := false
    phase := .ended }

/-- The inner loop over complete windows, left for `after` when none is left. -/
def windowStep (worker : WhisperTranscriptionWorker Sample) (answer : Inference)
    (here after : WorkerPhase Sample) :
    WhisperTranscriptionWorker Sample × List (WorkerOutput Sample) :=
  if worker.pendingAudio.size ≥ worker.windowSamples && !worker.interrupted then
    worker.transcribeNextWindow false answer here
  else ({ worker with phase := after }, [])

/-- The final window, if the stop asks for it or enough audio is left. -/
def finalStep (worker : WhisperTranscriptionWorker Sample) (answer : Inference) :
    WhisperTranscriptionWorker Sample × List (WorkerOutput Sample) :=
  let hasRequiredAudio := decide (worker.pendingAudio.size ≥ worker.minFinalSamples)
  let hasForcedFinalAudio := worker.finishAfterQueuedAudio && worker.pendingAudio.size > 0
  if !worker.interrupted && (hasRequiredAudio || hasForcedFinalAudio) then
    worker.transcribeNextWindow true answer .closing
  else ({ worker with phase := .closing }, [])

/-- One step of the thread that executes `run`, up to `workerThread = null`. -/
def advance (worker : WhisperTranscriptionWorker Sample) (answer : Inference) :
    Option (WhisperTranscriptionWorker Sample × List (WorkerOutput Sample)) :=
  match worker.phase with
  | .unstarted | .ended | .stopped => none
  | .opening =>
    match answer with
    | .result .. => some ({ worker with phase := .looping }, [])
    | .failure message => some ({ worker with phase := .failing message }, [])
  | .looping =>
    if worker.running && !worker.interrupted then some ({ worker with phase := .taking }, [])
    else some ({ worker with phase := .draining }, [])
  | .taking =>
    -- an interrupt skips both the error event and the remaining audio
    if worker.interrupted then some ({ worker with phase := .closing }, [])
    else match worker.audioQueue with
      | [] => some ({ worker with phase := .checking }, [])
      | chunk :: rest => some ({ worker with audioQueue := rest, phase := .appending chunk }, [])
  | .appending chunk => some (worker.appendChunk chunk .windowing, [])
  | .windowing => some (worker.windowStep answer .windowing .checking)
  | .checking =>
    let (checked, ending) := worker.beginTerminationIfDrained
    some ({ checked with phase := if ending then .draining else .looping }, [])
  | .draining =>
    match worker.audioQueue with
    | [] => some ({ worker with phase := .finishing }, [])
    | chunk :: rest => some ({ worker with audioQueue := rest, phase := .drainAppending chunk }, [])
  | .drainAppending chunk => some (worker.appendChunk chunk .drainWindowing, [])
  | .drainWindowing => some (worker.windowStep answer .drainWindowing .draining)
  | .finishing => some (worker.finalStep answer)
  | .failing message =>
    let (counted, event) := worker.outputError message
    some ({ counted with phase := .closing }, [.published event])
  | .closing => some (worker.finish, [])

end WhisperTranscriptionWorker

/-- Everything that can happen to a started worker: calls from the recorder
and the service, an interrupt, and steps of its own thread. -/
inductive WorkerLabel (Sample : Type) where
  | submit (chunk : PcmChunk Sample)
  | requestStop
  | resumeAudioSubmission
  | interrupt
  | advance (answer : Inference)

namespace WhisperTranscriptionWorker

def step (worker : WhisperTranscriptionWorker Sample) :
    WorkerLabel Sample → Option (WhisperTranscriptionWorker Sample × List (WorkerOutput Sample))
  | .submit chunk =>
    let answer := worker.submit chunk
    some (answer.worker,
      (answer.evicted.toList.map fun old => .evicted old.samples) ++
        if answer.accepted then [.accepted chunk.samples] else [])
  | .requestStop => some (worker.requestStop.1, [])
  | .resumeAudioSubmission =>
    let (resumed, taken) := worker.resumeAudioSubmission
    some (resumed, if taken then [.resumed] else [])
  | .interrupt => some ({ worker with interrupted := true }, [])
  | .advance answer => worker.advance answer

/-- The fields that the source declares final. -/
structure SameSetup (worker other : WhisperTranscriptionWorker Sample) : Prop where
  sessionId : other.sessionId = worker.sessionId
  sampleRate : other.sampleRate = worker.sampleRate
  windowSamples : other.windowSamples = worker.windowSamples
  overlapSamples : other.overlapSamples = worker.overlapSamples

theorem SameSetup.refl (worker : WhisperTranscriptionWorker Sample) : worker.SameSetup worker :=
  ⟨rfl, rfl, rfl, rfl⟩

theorem SameSetup.trans {first second third : WhisperTranscriptionWorker Sample}
    (before : first.SameSetup second) (after : second.SameSetup third) : first.SameSetup third :=
  ⟨after.sessionId.trans before.sessionId, after.sampleRate.trans before.sampleRate,
    after.windowSamples.trans before.windowSamples,
    after.overlapSamples.trans before.overlapSamples⟩

/-- The setup and every field shared with the other threads, the queue apart. -/
structure SameControl (worker other : WhisperTranscriptionWorker Sample) : Prop extends
    worker.SameSetup other where
  running : other.running = worker.running
  acceptingAudio : other.acceptingAudio = worker.acceptingAudio
  drainStopRequested : other.drainStopRequested = worker.drainStopRequested
  terminating : other.terminating = worker.terminating
  finishAfterQueuedAudio : other.finishAfterQueuedAudio = worker.finishAfterQueuedAudio
  workerThread : other.workerThread = worker.workerThread

theorem transcribeNextWindow_control (worker : WhisperTranscriptionWorker Sample)
    (finalResult : Bool) (answer : Inference) (next : WorkerPhase Sample) :
    worker.SameControl (worker.transcribeNextWindow finalResult answer next).1 := by
  have kept (ring : DirectPcm16RingBuffer Sample) (sequence processedSamples : Nat)
      (place : WorkerPhase Sample) : worker.SameControl { worker with
        pendingAudio := ring, sequence, processedSamples, phase := place } :=
    ⟨⟨rfl, rfl, rfl, rfl⟩, rfl, rfl, rfl, rfl, rfl, rfl⟩
  unfold transcribeNextWindow
  simp only [output]
  split
  · exact kept ..
  · split
    · exact kept ..
    · split <;> exact kept ..

/-- What a step of the thread does to the shared fields: nothing, except that
it begins to end when asked to and drained, and clears up in the finally block. -/
theorem advance_control {worker next : WhisperTranscriptionWorker Sample} {answer : Inference}
    {reports : List (WorkerOutput Sample)}
    (taken : worker.advance answer = some (next, reports)) :
    worker.SameControl next ∨
      (worker.phase = .checking ∧ worker.drainStopRequested = true ∧
        next = { worker with acceptingAudio := false, terminating := true, phase := .draining }) ∨
      (worker.phase = .closing ∧ next = worker.finish) := by
  have kept (ring : DirectPcm16RingBuffer Sample) (queue : List (PcmChunk Sample))
      (place : WorkerPhase Sample) : worker.SameControl { worker with
        pendingAudio := ring, audioQueue := queue, phase := place } :=
    ⟨⟨rfl, rfl, rfl, rfl⟩, rfl, rfl, rfl, rfl, rfl, rfl⟩
  have appended (chunk : PcmChunk Sample) (place : WorkerPhase Sample) :
      worker.SameControl (worker.appendChunk chunk place) := by
    unfold appendChunk
    split <;> exact kept ..
  have windowed (here after : WorkerPhase Sample) :
      worker.SameControl (worker.windowStep answer here after).1 := by
    unfold windowStep
    split
    · exact transcribeNextWindow_control ..
    · exact kept ..
  have closed : worker.SameControl (worker.finalStep answer).1 := by
    unfold finalStep
    simp only
    split
    · exact transcribeNextWindow_control ..
    · exact kept ..
  cases place : worker.phase <;> simp only [advance, place] at taken
  case unstarted | ended | stopped => cases taken
  case opening | looping | draining => left; split at taken <;> cases taken <;> exact kept ..
  case taking =>
    left
    split at taken
    · cases taken
      exact kept ..
    · split at taken <;> cases taken <;> exact kept ..
  case appending chunk | drainAppending chunk =>
    cases taken
    exact .inl (appended _ _)
  case windowing | drainWindowing =>
    obtain ⟨rfl, rfl⟩ := Prod.mk.inj (Option.some.inj taken)
    exact .inl (windowed _ _)
  case checking =>
    simp only [beginTerminationIfDrained, Option.some.injEq, Prod.mk.injEq] at taken
    obtain ⟨rfl, _⟩ := taken
    split
    · exact .inl (kept ..)
    · rename_i drained
      refine .inr (.inl ⟨rfl, ?_, rfl⟩)
      simp only [Bool.or_eq_true, Bool.not_eq_true', not_or, Bool.not_eq_false] at drained
      exact drained.1
  case finishing =>
    obtain ⟨rfl, rfl⟩ := Prod.mk.inj (Option.some.inj taken)
    exact .inl closed
  case failing message =>
    cases taken
    exact .inl ⟨⟨rfl, rfl, rfl, rfl⟩, rfl, rfl, rfl, rfl, rfl, rfl⟩
  case closing =>
    cases taken
    exact .inr (.inr ⟨rfl, rfl⟩)

theorem advance_setup {worker next : WhisperTranscriptionWorker Sample} {answer : Inference}
    {reports : List (WorkerOutput Sample)}
    (taken : worker.advance answer = some (next, reports)) : worker.SameSetup next := by
  rcases advance_control taken with same | ⟨_, _, rfl⟩ | ⟨_, rfl⟩
  · exact same.toSameSetup
  · exact ⟨rfl, rfl, rfl, rfl⟩
  · exact ⟨rfl, rfl, rfl, rfl⟩

/-- No step of the thread brings the thread back. -/
theorem advance_alive {worker next : WhisperTranscriptionWorker Sample} {answer : Inference}
    {reports : List (WorkerOutput Sample)}
    (taken : worker.advance answer = some (next, reports)) (alive : next.workerThread = true) :
    worker.workerThread = true := by
  rcases advance_control taken with same | ⟨_, _, rfl⟩ | ⟨_, rfl⟩
  · exact same.workerThread.symm.trans alive
  · exact alive
  · cases alive

@[simp] theorem submit_workerThread (worker : WhisperTranscriptionWorker Sample)
    (chunk : PcmChunk Sample) : (worker.submit chunk).worker.workerThread = worker.workerThread := by
  unfold submit
  simp only
  split
  · rfl
  · split
    · rfl
    · split <;> rfl

@[simp] theorem resumeAudioSubmission_workerThread (worker : WhisperTranscriptionWorker Sample) :
    worker.resumeAudioSubmission.1.workerThread = worker.workerThread := by
  unfold resumeAudioSubmission
  split <;> rfl

theorem submit_setup (worker : WhisperTranscriptionWorker Sample) (chunk : PcmChunk Sample) :
    worker.SameSetup (worker.submit chunk).worker := by
  unfold submit
  simp only
  split
  · exact .refl worker
  · split
    · exact ⟨rfl, rfl, rfl, rfl⟩
    · split <;> exact ⟨rfl, rfl, rfl, rfl⟩

theorem resumeAudioSubmission_setup (worker : WhisperTranscriptionWorker Sample) :
    worker.SameSetup worker.resumeAudioSubmission.1 := by
  unfold resumeAudioSubmission
  split
  · exact .refl worker
  · exact ⟨rfl, rfl, rfl, rfl⟩

theorem step_setup {worker next : WhisperTranscriptionWorker Sample} {label : WorkerLabel Sample}
    {reports : List (WorkerOutput Sample)}
    (taken : worker.step label = some (next, reports)) : worker.SameSetup next := by
  cases label with
  | submit chunk =>
    obtain ⟨rfl, _⟩ := Prod.mk.inj (Option.some.inj taken)
    exact submit_setup worker chunk
  | requestStop =>
    cases taken
    exact ⟨rfl, rfl, rfl, rfl⟩
  | resumeAudioSubmission =>
    obtain ⟨rfl, _⟩ := Prod.mk.inj (Option.some.inj taken)
    exact resumeAudioSubmission_setup worker
  | interrupt =>
    cases taken
    exact ⟨rfl, rfl, rfl, rfl⟩
  | advance answer => exact advance_setup taken

end WhisperTranscriptionWorker

end LocalWhisper.Transcription
