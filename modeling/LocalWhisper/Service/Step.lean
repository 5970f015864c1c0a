import LocalWhisper.Machine.Run
import LocalWhisper.Service.Methods

/-! The steps of the whole system: the intents and callbacks that reach the
service, and one step of one worker thread at a time. A synchronized method is
one step; where a thread reads fields outside the lock, every read is a step. -/

namespace LocalWhisper.Service

open LocalWhisper.Machine LocalWhisper.Record LocalWhisper.Transcription
open LocalWhisper.TransscriptsJSON

variable {Sample : Type}

/-- The extras of a start intent; the intent itself may be null. -/
structure RecordingRequest where
  audioSource : Option String
  projectionGranted : Bool
  projectionData : Bool

inductive Intent where
  | start (request : Option RecordingRequest)
  | stop
  | pauseRecording
  | resumeRecording
  | stopFileTranscription
  | stopInference
  | resumeInference
  | transcribeFile (uri : Option Text)

/-- What the devices and files answer to the recorder thread. -/
structure RecorderAnswer (Sample : Type) where
  /-- the samples of the next read; nothing after an empty read or an error -/
  read : Option (PcmChunk Sample)
  /-- a write to the WAV file that fails, and after how many bytes -/
  stoppedAfter : Option Nat
  env : Environment

inductive FileReport where
  | publish (event : WhisperTranscriptionEvent)
  | finish (errorMessage : String)

inductive Label (Sample : Type) where
  | intent (action : Intent) (env : Environment)
  /-- a thread of `startRecordingInternalAsync` -/
  | startRecordingInternal (env : Environment)
  /-- `MediaProjection.Callback.onStop` -/
  | projectionStopped (env : Environment)
  | destroy (env : Environment)
  | recorder (address : Nat) (answer : RecorderAnswer Sample)
  /-- an exception inside `run` of a recorder -/
  | recorderThrows (address : Nat) (message : String)
  /-- a recorder's stop event is delivered -/
  | recordStopped (address : Nat) (env : Environment)
  | inference (address : Nat) (answer : Inference)
  | whisperStopped (address : Nat) (env : Environment)
  | json (address : Nat) (answer : JsonAnswer)
  | jsonStopped (address : Nat) (env : Environment)
  | file (address : Nat) (report : FileReport)
  /-- the completion callback of a file worker -/
  | fileComplete (address : Nat)

namespace World

def readRecordingRequest (world : World Sample) (request : Option RecordingRequest) :
    World Sample :=
  match request with
  | none => { world with setup := { world.setup with
      requestedAudioSource := .microphone
      projectionGranted := false
      projectionResultData := false } }
  | some request => { world with setup := { world.setup with
      requestedAudioSource := (RecordingAudioSource.fromName request.audioSource).getD .microphone
      projectionGranted := request.projectionGranted
      projectionResultData := request.projectionData } }

/-- A start intent prepares a new session unless one is active. -/
def onStart (world : World Sample) (request : Option RecordingRequest) (env : Environment) :
    World Sample :=
  let read := world.readRecordingRequest request
  let prepared :=
    if read.session.sessionActive then read
    else { read with
      session := { read.session with pendingRecordingTimeData := some env.timeData }
      inference := { read.inference with
        nextInferenceSequence := 0, sessionRecordedSamples := 0 } }
  prepared.startRecordingInternalAsync

def moveRecorder (world : World Sample) (address : Nat) (phase : RecorderPhase Sample) :
    World Sample :=
  world.setRecorder address { world.recorder.workers.get address with phase }

/-- The first synchronized part of `onAudioChunk`. -/
def countChunk (world : World Sample) (address : Nat) (chunk : PcmChunk Sample) : World Sample :=
  let recorder := world.recorder.workers.get address
  { world with
    recorder := { world.recorder with
      workers := world.recorder.workers.set address { recorder with phase := .counted chunk }
      counted := fun stopEventId =>
        if stopEventId = recorder.stopEventId then
          world.recorder.counted stopEventId + chunk.sampleCount
        else world.recorder.counted stopEventId }
    inference := { world.inference with
      sessionRecordedSamples := world.inference.sessionRecordedSamples + chunk.sampleCount } }

def saveChunk (world : World Sample) (address : Nat) (chunk : PcmChunk Sample) (writer : Nat)
    (stoppedAfter : Option Nat) : World Sample :=
  let (written, succeeded) :=
    (world.audio.writers.get writer).append chunk.sampleCount stoppedAfter
  { world with audio := { world.audio with
      writers := world.audio.writers.set writer written } }.moveRecorder address
    (if succeeded then .saved chunk else .closingFile chunk)

def submitChunk (world : World Sample) (address : Nat) (chunk : PcmChunk Sample) (target : Nat) :
    World Sample :=
  let thread := world.inference.threads.get target
  (world.setThread target { thread with
    worker := (thread.worker.submit chunk).worker }).moveRecorder address .looping

/-- One step of a recorder thread that throws nothing. -/
def recorderAdvance (world : World Sample) (address : Nat) (answer : RecorderAnswer Sample) :
    Option (World Sample) :=
  let recorder := world.recorder.workers.get address
  match recorder.phase with
  | .created | .ended _ | .stopped => none
  | .starting => some (world.moveRecorder address .looping)
  | .looping =>
    some (world.moveRecorder address (if recorder.running then .reading else .leaving none))
  | .reading =>
    match answer.read with
    | none => some (world.moveRecorder address .looping)
    | some chunk =>
      if chunk.capacity = recorder.sampleCapacity then
        some (world.moveRecorder address (.arrived chunk))
      else none
  | .arrived chunk => some (world.countChunk address chunk)
  | .counted chunk =>
    some (world.moveRecorder address (match world.audio.audioFileWriter with
      | none => .saved chunk
      | some writer => .saving chunk writer))
  | .saving chunk writer => some (world.saveChunk address chunk writer answer.stoppedAfter)
  | .closingFile chunk =>
    some ((world.closeAudioFile false answer.env).moveRecorder address (.saved chunk))
  | .saved chunk =>
    some (world.moveRecorder address (match world.inference.transcriptionWorker with
      | none => .looping
      | some target => .fetched chunk target))
  | .fetched chunk target =>
    some (world.moveRecorder address
      (if world.session.inferenceAccepting then .offering chunk target else .looping))
  | .offering chunk target => some (world.submitChunk address chunk target)
  | .leaving errorMessage => some (world.setRecorder address (recorder.finish errorMessage))

/-- The result that a step of an inference thread publishes, if any. -/
def liveResult (reports : List (WorkerOutput Sample)) : Option (LiveResult Sample) :=
  match reports with
  | [.progress _, .transcribed window _, .published event] => some ⟨event, some window⟩
  | [.published event] => some ⟨event, none⟩
  | _ => none

/-- `jsonWorker.submit(event)`, unless the field was null when it was read. -/
def submitJson (world : World Sample) (jsonWorker : Option Nat)
    (event : WhisperTranscriptionEvent) : World Sample :=
  match jsonWorker with
  | none => world
  | some target => { world with json := { world.json with
      workers := world.json.workers.set target ((world.json.workers.get target).submit event) } }

/-- One step of an inference thread: in its own loop, or inside the service's
`onTranscriptionEvent` while it publishes. -/
def inferenceAdvance (world : World Sample) (address : Nat) (answer : Inference) :
    Option (World Sample) :=
  let thread := world.inference.threads.get address
  match thread.handling with
  | .idle => (thread.worker.advance answer).map fun (worker, reports) =>
    let result := liveResult reports
    { world with inference := { world.inference with
        threads := world.inference.threads.set address ⟨worker, match result with
          | none => .idle
          | some result => .received result.event⟩
        results := world.inference.results ++ result.toList } }
  | .received event =>
    if world.life.destroyed then some (world.setThread address { thread with handling := .idle })
    else if world.file.retranscriptionSessionId = some event.sessionId then
      some ((world.showFileEvent event).setThread address { thread with handling := .idle })
    else if world.inference.inferenceSessionId = some event.sessionId then
      some (world.setThread address { thread with handling := .passed event })
    else some (world.setThread address { thread with handling := .idle })
  | .passed event =>
    some ({ world with inference := { world.inference with
        nextInferenceSequence := max world.inference.nextInferenceSequence (event.sequence + 1)
      } }.setThread address { thread with handling := .numbered event })
  | .numbered event =>
    some (world.setThread address { thread with
      handling := .forwarding event world.json.transcriptionJsonWorker })
  | .forwarding event jsonWorker =>
    some (((world.submitJson jsonWorker event).showLiveEvent event).setThread address
      { thread with handling := .idle })

/-- What the JSON files hold after a step of the thread of this session. -/
def storeItems (session : Text) (files : Text → List WhisperTranscriptionEvent) :
    JsonOutput → Text → List WhisperTranscriptionEvent
  | .saved items => fun other => if other = session then items else files other
  | .truncated => fun other => if other = session then [] else files other
  | .clearedText | .appendedText _ | .savedText => files

def jsonAdvance (world : World Sample) (address : Nat) (answer : JsonAnswer) :
    Option (World Sample) :=
  let worker := world.json.workers.get address
  (worker.advance answer).map fun (next, outputs) =>
    { world with json := { world.json with
        workers := world.json.workers.set address next
        files := outputs.foldl (storeItems worker.sessionId) world.json.files } }

/-- One step of a file worker. The ids of files and of live sessions have
different prefixes, so its events only reach the branch for files. -/
def fileAdvance (world : World Sample) (address : Nat) (report : FileReport) :
    Option (World Sample) :=
  let job := world.file.workers.get address
  match job.phase with
  | .created | .ended _ | .completed => none
  | .running =>
    match report with
    | .publish event =>
      if event.sessionId ≠ job.sessionId then none
      else if world.file.retranscriptionSessionId = some event.sessionId ∧
          world.life.destroyed = false then
        some (world.showFileEvent event)
      else some world
    | .finish errorMessage =>
      some { world with file := { world.file with
          workers := world.file.workers.set address (job.finish errorMessage) } }

def fileComplete (world : World Sample) (address : Nat) : Option (World Sample) :=
  let job := world.file.workers.get address
  match job.phase with
  | .ended _ =>
    some { world with file := { world.file with
        workers := world.file.workers.set address { job with phase := .completed }
      } }.onRetranscriptionComplete
  | _ => none

/-- The stop event of an inference worker, whose message is always empty. -/
def whisperStoppedEvent (worker : WhisperTranscriptionWorker Sample) : ThreadStoppedEvent :=
  { threadId := worker.sessionId ++ whisperSuffix
    owner := .whisper
    interrupted := worker.interrupted
    errorMessage := some "" }

def retireThread (world : World Sample) (address : Nat) : World Sample :=
  let thread := world.inference.threads.get address
  world.setThread address { thread with worker := { thread.worker with phase := .stopped } }

def retireJson (world : World Sample) (address : Nat) : World Sample :=
  { world with json := { world.json with
      workers := world.json.workers.set address
        { world.json.workers.get address with phase := .stopped } } }

section Delivery

variable [Inhabited Sample]

def onStartCommand (world : World Sample) (action : Intent) (env : Environment) : World Sample :=
  match action with
  | .start request => world.onStart request env
  | .stop => world.requestStopRecording env
  | .pauseRecording => world.requestPauseRecording env
  | .resumeRecording => world.requestResumeRecording env
  | .stopFileTranscription => world.requestStopFileTranscription
  | .stopInference => world.requestStopInference
  | .resumeInference => world.requestResumeInference
  | .transcribeFile uri => world.enqueueSelectedFile uri env

/-- Deliver a stop event, unless the service has unsubscribed. -/
def deliver (world : World Sample) (event : ThreadStoppedEvent) (env : Environment) :
    World Sample :=
  if world.life.destroyed then world else world.onThreadStopped event env

def recordStopped (world : World Sample) (address : Nat) (env : Environment) :
    Option (World Sample) :=
  let recorder := world.recorder.workers.get address
  match recorder.phase with
  | .ended errorMessage =>
    some ((world.moveRecorder address .stopped).deliver (recorder.stoppedEvent errorMessage) env)
  | _ => none

def whisperStopped (world : World Sample) (address : Nat) (env : Environment) :
    Option (World Sample) :=
  let thread := world.inference.threads.get address
  match thread.worker.phase with
  | .ended =>
    some ((world.retireThread address).deliver (whisperStoppedEvent thread.worker) env)
  | _ => none

def jsonStopped (world : World Sample) (address : Nat) (env : Environment) :
    Option (World Sample) :=
  let worker := world.json.workers.get address
  match worker.phase with
  | .ended errorMessage =>
    some ((world.retireJson address).deliver (worker.stoppedEvent errorMessage) env)
  | _ => none

end Delivery

end World

/-- One step of the system under a label; nothing when it is not enabled. -/
def step [Inhabited Sample] (world : World Sample) : Label Sample → Option (World Sample)
  | .intent action env => if world.life.destroyed then none else some (world.onStartCommand action env)
  | .startRecordingInternal env =>
    if world.life.startThreads = 0 then none
    else some ({ world with life := { world.life with
      startThreads := world.life.startThreads - 1 } }.startRecordingInternal env)
  | .projectionStopped env =>
    if !world.setup.mediaProjection then none
    else if world.session.sessionActive then
      some ((world.publishState "アプリ音声のキャプチャ許可が終了しました").requestStopRecording env)
    else some world
  | .destroy env => if world.life.destroyed then none else some (world.onDestroy env)
  | .recorder address answer => world.recorderAdvance address answer
  | .recorderThrows address message =>
    if (world.recorder.workers.get address).phase.inLoop then
      some (world.moveRecorder address (.leaving (some message)))
    else none
  | .recordStopped address env => world.recordStopped address env
  | .inference address answer => world.inferenceAdvance address answer
  | .whisperStopped address env => world.whisperStopped address env
  | .json address answer => world.jsonAdvance address answer
  | .jsonStopped address env => world.jsonStopped address env
  | .file address report => world.fileAdvance address report
  | .fileComplete address => world.fileComplete address

end LocalWhisper.Service
