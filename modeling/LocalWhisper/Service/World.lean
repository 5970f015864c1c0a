import LocalWhisper.Machine.Objects
import LocalWhisper.Record.AudioRecordWorker
import LocalWhisper.Record.FileTranscriptionWorker
import LocalWhisper.Record.RecordedAudioFile
import LocalWhisper.TransscriptsJSON.Worker

/-! The state of `BackgroundWhisperService`: its fields, grouped by what they
are about, together with every worker it has created. A reference to a worker
is its address among the workers of its kind. -/

namespace LocalWhisper.Service

open LocalWhisper.Machine LocalWhisper.Record LocalWhisper.Transcription
open LocalWhisper.TransscriptsJSON

variable {Sample : Type}

inductive RecordTranscriptionState where
  | recording
  | recordingPaused
  | inferencePaused
  | recordingAndInferencePaused
  | fileTranscribing
  | stopRecord
  deriving DecidableEq, Repr

/-- The flags and identifiers that `stopForegroundAndSelf` resets. -/
structure SessionFields where
  sessionActive : Bool
  recording : Bool
  inferenceAlive : Bool
  inferenceAccepting : Bool
  currentState : Option RecordTranscriptionState
  recordingSessionId : Option Text
  recordingTimeData : Option Text
  pendingRecordingTimeData : Option Text
  sessionEndRequested : Bool
  deriving DecidableEq, Repr

structure PendingFields where
  pendingRecordingStart : Bool
  pendingRecordingResume : Bool
  pendingInferenceResume : Bool
  deriving DecidableEq, Repr

structure RecorderFields (Sample : Type) where
  recordWorker : Option Nat
  workers : Objects (AudioRecordWorker Sample) fun recorder => recorder.phase = .created
  /-- how many samples were counted under each stop id; it numbers the samples
  of a session and is no field of the source -/
  counted : Text → Nat

/-- What the inference thread does with an event it publishes, inside the
service's `onTranscriptionEvent`. -/
inductive Handling where
  | idle
  /-- before the session is compared -/
  | received (event : WhisperTranscriptionEvent)
  /-- before the synchronized update of `nextInferenceSequence` -/
  | passed (event : WhisperTranscriptionEvent)
  /-- before the field `transcriptionJsonWorker` is read -/
  | numbered (event : WhisperTranscriptionEvent)
  /-- before the event is submitted and shown -/
  | forwarding (event : WhisperTranscriptionEvent) (jsonWorker : Option Nat)
  deriving DecidableEq, Repr

structure InferenceThread (Sample : Type) where
  worker : WhisperTranscriptionWorker Sample
  handling : Handling

/-- The thread was not made yet, so nothing is alive in it. -/
structure InferenceThread.Unmade (thread : InferenceThread Sample) : Prop where
  phase : thread.worker.phase = .unstarted
  workerThread : thread.worker.workerThread = false
  handling : thread.handling = .idle

/-- A result that a live worker published, with the audio it was computed from. -/
structure LiveResult (Sample : Type) where
  event : WhisperTranscriptionEvent
  window : Option (List Sample)

structure InferenceFields (Sample : Type) where
  transcriptionWorker : Option Nat
  inferenceSessionId : Option Text
  nextInferenceSequence : Nat
  sessionRecordedSamples : Nat
  inferenceFailed : Bool
  whisperThreadStopped : Bool
  threads : Objects (InferenceThread Sample) InferenceThread.Unmade
  /-- every live result so far, oldest first -/
  results : List (LiveResult Sample)

structure JsonFields where
  transcriptionJsonWorker : Option Nat
  jsonThreadStopped : Bool
  workers : Objects TranscriptionJsonWorker fun worker => worker.phase = .created
  /-- the items in the JSON file of each session -/
  files : Text → List WhisperTranscriptionEvent

/-- The audio behind a request: a finished recording or a chosen file. -/
inductive Uri where
  | recorded (sessionId : Text)
  | selected (uri : Text)
  deriving DecidableEq, Repr

structure RetranscriptionRequest where
  uri : Uri
  settings : WhisperSettings
  sessionId : Text
  label : String

structure FileFields where
  retranscriptionWorker : Option Nat
  retranscriptionSessionId : Option Text
  retranscriptionQueue : List RetranscriptionRequest
  workers : Objects WhisperFileTranscriptionWorker fun job => job.phase = .created

structure AudioFields where
  audioFileWriter : Option Nat
  writers : Objects RecordedAudioFileWriter fun _ => True

structure SetupFields where
  settings : Option WhisperSettings
  requestedAudioSource : RecordingAudioSource
  /-- `projectionResultCode` is `RESULT_OK` -/
  projectionGranted : Bool
  /-- `projectionResultData` is not null -/
  projectionResultData : Bool
  /-- `mediaProjection` is not null and its callback is registered -/
  mediaProjection : Bool

structure ScreenFields where
  latestText : String
  currentModelKey : String
  published : List WhisperRecordingStateEvent

/-- Which statement called `stopForegroundAndSelf`. -/
inductive StopReason where
  | startPermission
  | startModels
  | resumePermission
  | stopFileTranscription
  | malformedFileRequest
  | nothingLeft
  deriving DecidableEq, Repr

/-- A call of `stopForegroundAndSelf`, with the fields as it found them. -/
structure StopCall where
  reason : StopReason
  session : SessionFields
  deriving DecidableEq, Repr

structure LifeFields where
  destroyed : Bool
  /-- threads made by `startRecordingInternalAsync` that have not yet run -/
  startThreads : Nat
  stopCalls : List StopCall
  deriving DecidableEq, Repr

structure World (Sample : Type) where
  session : SessionFields
  pending : PendingFields
  recorder : RecorderFields Sample
  inference : InferenceFields Sample
  json : JsonFields
  file : FileFields
  audio : AudioFields
  setup : SetupFields
  screen : ScreenFields
  life : LifeFields

/-- What comes of asking the MediaProjectionManager. -/
inductive ProjectionAnswer where
  | noManager
  | granted
  | rejected
  deriving DecidableEq, Repr

/-- What the platform answers during one step. -/
structure Environment where
  currentTimeMillis : Nat
  /-- read as an unsigned number, as `toHexString` does -/
  nanoTime : Nat
  /-- `RECORD_AUDIO` is granted -/
  permission : Bool
  /-- `settingsStore.load()` -/
  settings : WhisperSettings
  /-- the IOException of `prepareModels` -/
  modelError : Option String
  minBufferSize : Int
  /-- the IOException of opening the WAV file -/
  audioFileError : Option String
  /-- closing the WAV file throws an IOException -/
  closeFails : Bool
  projection : ProjectionAnswer
  /-- every needed `AudioRecord` initializes -/
  devicesStart : Bool

/-- `Join("-", toHexString(currentTimeMillis()), toHexString(nanoTime()))`. -/
def newSessionTimeData (currentTimeMillis nanoTime : Nat) : Text :=
  Nat.toDigits 16 currentTimeMillis ++ '-' :: Nat.toDigits 16 nanoTime

def Environment.timeData (env : Environment) : Text :=
  newSessionTimeData env.currentTimeMillis env.nanoTime

def blankThread [Inhabited Sample] : InferenceThread Sample :=
  { worker := .new [] WhisperTranscriptionWorker.defaultSampleRate .defaultSettings 0 0 (by decide)
    handling := .idle }

/-- The service after `onCreate`. -/
def initial [Inhabited Sample] : World Sample :=
  { session := ⟨false, false, false, false, none, none, none, none, false⟩
    pending := ⟨false, false, false⟩
    recorder := ⟨none, .empty (.new [] 0 .microphone false) rfl, fun _ => 0⟩
    inference := ⟨none, none, 0, 0, false, true, .empty blankThread ⟨rfl, rfl, rfl⟩, []⟩
    json := ⟨none, true, .empty (.new []) rfl, fun _ => []⟩
    file := ⟨none, none, [], .empty (.new [] .defaultSettings) rfl⟩
    audio := ⟨none, .empty (.new []) trivial⟩
    setup := ⟨none, .microphone, false, false, false⟩
    screen := ⟨"", "", []⟩
    life := ⟨false, 0, []⟩ }

end LocalWhisper.Service
