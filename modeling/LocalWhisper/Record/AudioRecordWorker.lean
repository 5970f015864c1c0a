import LocalWhisper.Transcription.Worker

/-! `AudioRecordWorker`: the recorder thread and what the service calls on it.
The steps that enter `onAudioChunk` belong to the service. -/

namespace LocalWhisper.Record

open LocalWhisper.Record.Buffer LocalWhisper.Transcription

inductive RecordingAudioSource where
  | microphone
  | appCapture
  | microphoneAndApp
  deriving DecidableEq, Repr

namespace RecordingAudioSource

def requiresAppCapture : RecordingAudioSource → Bool
  | .microphone => false
  | .appCapture => true
  | .microphoneAndApp => true

/-- An unknown name is an `IllegalArgumentException`. -/
def fromName : Option String → Option RecordingAudioSource
  | none => some .microphone
  | some "MICROPHONE" => some .microphone
  | some "APP_CAPTURE" => some .appCapture
  | some "MICROPHONE_AND_APP" => some .microphoneAndApp
  | some _ => none

end RecordingAudioSource

/-- Where the recorder thread stands. From `arrived` to `offering` it is inside
the listener, which is the service's `onAudioChunk`. -/
inductive RecorderPhase (Sample : Type) where
  /-- not started, or refused by `start` -/
  | created
  /-- `startRequiredAudioRecords` -/
  | starting
  /-- the condition of the read loop -/
  | looping
  /-- inside the blocking read -/
  | reading
  /-- a filled chunk, not yet counted -/
  | arrived (chunk : PcmChunk Sample)
  /-- before the field `audioFileWriter` is read -/
  | counted (chunk : PcmChunk Sample)
  /-- before `append` on the writer that was read -/
  | saving (chunk : PcmChunk Sample) (writer : Nat)
  /-- `append` threw an IOException; before `closeAudioFile(false)` -/
  | closingFile (chunk : PcmChunk Sample)
  /-- before the field `transcriptionWorker` is read -/
  | saved (chunk : PcmChunk Sample)
  /-- before the flag `inferenceAccepting` is read -/
  | fetched (chunk : PcmChunk Sample) (worker : Nat)
  /-- before `submit` -/
  | offering (chunk : PcmChunk Sample) (worker : Nat)
  /-- the finally block, before `workerThread = null` -/
  | leaving (errorMessage : Option String)
  /-- `workerThread` is null and the stop event is not yet delivered -/
  | ended (errorMessage : Option String)
  | stopped

namespace RecorderPhase

variable {Sample : Type}

/-- The thread was started and has not left its read loop. -/
def inLoop : RecorderPhase Sample → Bool
  | .created | .leaving _ | .ended _ | .stopped => false
  | _ => true

end RecorderPhase

structure AudioRecordWorker (Sample : Type) where
  stopEventId : Text
  bufferSize : Nat
  audioSource : RecordingAudioSource
  /-- `mediaProjection` is not null -/
  mediaProjection : Bool
  running : Bool
  phase : RecorderPhase Sample

namespace AudioRecordWorker

variable {Sample : Type}

def new (stopEventId : Text) (bufferSize : Nat) (audioSource : RecordingAudioSource)
    (mediaProjection : Bool) : AudioRecordWorker Sample :=
  { stopEventId, bufferSize, audioSource, mediaProjection
    running := false
    phase := .created }

/-- The capacity of every chunk of the pool, in samples. -/
def sampleCapacity (recorder : AudioRecordWorker Sample) : Nat :=
  max 1 (recorder.bufferSize / shortBytes)

/-- `getMinBufferSize` answers with one of its error codes or a size in bytes. -/
def createBufferSize (sampleRate : Nat) (minBufferSize : Int) : Int :=
  if minBufferSize = -1 ∨ minBufferSize = -2 then -1
  else max (minBufferSize * 2) (sampleRate * shortBytes / 2 : Nat)

/-- Whether all needed inputs come up, given what the devices answer. -/
def createRequiredAudioRecords (recorder : AudioRecordWorker Sample) (devicesStart : Bool) : Bool :=
  devicesStart && (!recorder.audioSource.requiresAppCapture || recorder.mediaProjection)

def start (recorder : AudioRecordWorker Sample) (devicesStart : Bool) :
    AudioRecordWorker Sample × Bool :=
  if recorder.running then (recorder, true)
  else if !recorder.createRequiredAudioRecords devicesStart then (recorder, false)
  else ({ recorder with running := true, phase := .starting }, true)

/-- `workerThread` is not null: `start` sets it and the finally block clears it. -/
def workerThread (recorder : AudioRecordWorker Sample) : Bool :=
  match recorder.phase with
  | .created | .ended _ | .stopped => false
  | _ => true

/-- The field is cleared before the thread ends, so a thread it holds is alive. -/
def isAlive (recorder : AudioRecordWorker Sample) : Bool := recorder.workerThread

/-- The returned flag says whether there is a thread to stop. -/
def requestStop (recorder : AudioRecordWorker Sample) : AudioRecordWorker Sample × Bool :=
  ({ recorder with running := false }, recorder.workerThread)

/-- The finally block: no thread from here on, the stop event still to come. -/
def finish (recorder : AudioRecordWorker Sample) (errorMessage : Option String) :
    AudioRecordWorker Sample :=
  { recorder with running := false, phase := .ended errorMessage }

def stoppedEvent (recorder : AudioRecordWorker Sample) (errorMessage : Option String) :
    ThreadStoppedEvent :=
  { threadId := recorder.stopEventId
    owner := .record
    interrupted := false
    errorMessage }

theorem isAlive_of_inLoop {recorder : AudioRecordWorker Sample}
    (inLoop : recorder.phase.inLoop = true) : recorder.isAlive = true := by
  unfold isAlive workerThread
  cases place : recorder.phase <;> simp_all [RecorderPhase.inLoop]

/-- A new recorder either comes up and enters its thread, or stays as created. -/
theorem start_new (stopEventId : Text) (bufferSize : Nat) (audioSource : RecordingAudioSource)
    (mediaProjection devicesStart : Bool) :
    (new stopEventId bufferSize audioSource mediaProjection : AudioRecordWorker Sample).start
        devicesStart =
      if devicesStart && (!audioSource.requiresAppCapture || mediaProjection) then
        ({ (new stopEventId bufferSize audioSource mediaProjection : AudioRecordWorker Sample) with
          running := true, phase := .starting }, true)
      else (new stopEventId bufferSize audioSource mediaProjection, false) := by
  cases up : devicesStart && (!audioSource.requiresAppCapture || mediaProjection) <;>
    simp [start, new, createRequiredAudioRecords, up]

end AudioRecordWorker

end LocalWhisper.Record
