import LocalWhisper.Events
import LocalWhisper.Transcription.Settings

/-! `WhisperFileTranscriptionWorker` as the service sees it: a thread that
publishes results of one file and calls back when it is done. -/

namespace LocalWhisper.Record

open LocalWhisper.Transcription

inductive FilePhase where
  | created
  | running
  /-- `workerThread` is null and the completion callback is still to come -/
  | ended (errorMessage : String)
  | completed
  deriving DecidableEq, Repr

structure WhisperFileTranscriptionWorker where
  sessionId : Text
  fileModelKey : String
  interrupted : Bool
  phase : FilePhase
  deriving DecidableEq, Repr

namespace WhisperFileTranscriptionWorker

def new (sessionId : Text) (settings : WhisperSettings) : WhisperFileTranscriptionWorker :=
  { sessionId
    fileModelKey := settings.fileModelKey
    interrupted := false
    phase := .created }

/-- `workerThread` is not null: `start` sets it and the finally block clears it. -/
def workerThread (job : WhisperFileTranscriptionWorker) : Bool :=
  match job.phase with
  | .running => true
  | .created | .ended _ | .completed => false

def isAlive (job : WhisperFileTranscriptionWorker) : Bool := job.workerThread

def start (job : WhisperFileTranscriptionWorker) : WhisperFileTranscriptionWorker × Bool :=
  if job.isAlive then (job, false)
  else ({ job with phase := .running }, true)

def requestStop (job : WhisperFileTranscriptionWorker) : WhisperFileTranscriptionWorker × Bool :=
  if !job.isAlive then (job, false) else ({ job with interrupted := true }, true)

/-- The finally block up to the callback. -/
def finish (job : WhisperFileTranscriptionWorker) (errorMessage : String) :
    WhisperFileTranscriptionWorker :=
  { job with phase := .ended errorMessage }

/-- The thread was started and its callback has not been made. -/
def outstanding (job : WhisperFileTranscriptionWorker) : Bool :=
  match job.phase with
  | .running | .ended _ => true
  | .created | .completed => false

@[simp] theorem requestStop_phase (job : WhisperFileTranscriptionWorker) :
    job.requestStop.1.phase = job.phase := by
  unfold requestStop
  split <;> rfl

end WhisperFileTranscriptionWorker

end LocalWhisper.Record
