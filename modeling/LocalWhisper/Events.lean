/-! The events that travel over `SystemEventHub` between the workers, the
service and the screens. -/

namespace LocalWhisper

/-- Session and thread identifiers, compared by prefix and suffix. -/
abbrev Text := List Char

/-- `Join("-", prefix, timeData)`. -/
def sessionId (purpose timeData : Text) : Text := purpose ++ '-' :: timeData

inductive WhisperTranscriptionTag where
  | recording
  | fileTranscribing
  | stopping
  deriving DecidableEq, Repr

structure WhisperTranscriptionEvent where
  sessionId : Text
  sequence : Nat
  text : String
  speakerChanged : Bool
  finalResult : Bool
  errorMessage : Option String
  startMs : Nat
  durationMs : Nat
  processingTimeMs : Nat
  modelKey : String
  tag : WhisperTranscriptionTag
  deriving DecidableEq, Repr

/-- An empty message does not count as an error. -/
def hasMessage (errorMessage : Option String) : Bool :=
  match errorMessage with
  | none => false
  | some message => !message.isEmpty

def WhisperTranscriptionEvent.hasError (event : WhisperTranscriptionEvent) : Bool :=
  hasMessage event.errorMessage

inductive ProgressPhase where
  | realtimeInference
  | fileReading
  | fileTranscribing
  deriving DecidableEq, Repr

structure WhisperProgressEvent where
  sessionId : Text
  phase : ProgressPhase
  startMs : Nat
  durationMs : Nat
  deriving DecidableEq, Repr

/-- The `owner` field: which kind of worker stopped. -/
inductive ThreadOwner where
  | record
  | whisper
  | json
  deriving DecidableEq, Repr

structure ThreadStoppedEvent where
  threadId : Text
  owner : ThreadOwner
  interrupted : Bool
  errorMessage : Option String
  deriving DecidableEq, Repr

def ThreadStoppedEvent.hasError (event : ThreadStoppedEvent) : Bool :=
  hasMessage event.errorMessage

structure WhisperRecordingStateEvent where
  sessionId : Option Text
  sessionActive : Bool
  recording : Bool
  stopping : Bool
  inferenceAlive : Bool
  inferenceAccepting : Bool
  message : String
  latestText : String
  modelKey : String
  deriving DecidableEq, Repr

end LocalWhisper
