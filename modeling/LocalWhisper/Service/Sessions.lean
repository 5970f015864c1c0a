import LocalWhisper.Service.Delivery

/-! What the methods do to the session itself: whether it is open, records or
is to end, and the identifiers it carries. Most methods leave all of this as
it is or close everything at once. -/

namespace LocalWhisper.Service

open LocalWhisper.Machine LocalWhisper.Record LocalWhisper.Transcription

variable {Sample : Type}

/-- The session without the flags of the inference and the shown state. -/
structure SessionCore where
  sessionActive : Bool
  recording : Bool
  sessionEndRequested : Bool
  recordingSessionId : Option Text
  recordingTimeData : Option Text
  pendingRecordingTimeData : Option Text
  deriving DecidableEq, Repr

/-- As `stopForegroundAndSelf` leaves it. -/
def SessionCore.closed : SessionCore := ⟨false, false, false, none, none, none⟩

def SessionFields.core (session : SessionFields) : SessionCore :=
  ⟨session.sessionActive, session.recording, session.sessionEndRequested,
    session.recordingSessionId, session.recordingTimeData, session.pendingRecordingTimeData⟩

def SessionCore.KeptOrClosed (before after : SessionCore) : Prop :=
  after = before ∨ after = .closed

namespace World

variable (world : World Sample) (env : Environment)

def core (world : World Sample) : SessionCore := world.session.core

theorem startNextRetranscriptionOrStop_core :
    world.core.KeptOrClosed world.startNextRetranscriptionOrStop.core := by
  unfold startNextRetranscriptionOrStop
  split
  · split <;> exact .inl rfl
  · split
    · exact .inl rfl
    · split
      · exact .inr rfl
      · exact .inl rfl

theorem finishIdleWorkIfPossible_core :
    world.core.KeptOrClosed world.finishIdleWorkIfPossible.core := by
  unfold finishIdleWorkIfPossible
  split
  · exact .inl rfl
  · split
    · exact .inl rfl
    · simp only
      split
      · split
        · exact .inl rfl
        · exact startNextRetranscriptionOrStop_core _
      · split
        · exact .inl rfl
        · exact startNextRetranscriptionOrStop_core _

theorem requestJsonThreadStop_core :
    world.core.KeptOrClosed world.requestJsonThreadStop.core := by
  unfold requestJsonThreadStop
  simp only
  split
  · exact finishIdleWorkIfPossible_core _
  · split
    · exact .inl rfl
    · exact finishIdleWorkIfPossible_core _

private theorem onRetranscriptionComplete_core :
    world.core.KeptOrClosed world.onRetranscriptionComplete.core := by
  unfold onRetranscriptionComplete
  split
  · exact .inl rfl
  · simp only
    split
    · exact .inl rfl
    · exact startNextRetranscriptionOrStop_core _

private theorem enqueueSelectedFile_core (uri : Option Text) :
    world.core.KeptOrClosed (world.enqueueSelectedFile uri env).core := by
  unfold enqueueSelectedFile
  split
  · exact .inr rfl
  · exact startNextRetranscriptionOrStop_core _

theorem requestStopFileTranscription_core :
    world.core.KeptOrClosed world.requestStopFileTranscription.core := by
  unfold requestStopFileTranscription
  simp only
  split
  · exact .inl rfl
  · exact .inr rfl

theorem endRecording_core : world.core.KeptOrClosed (world.endRecording env).core := by
  have closed : (world.releaseMediaProjection.closeAudioFile true env).core = world.core :=
    congrArg SessionFields.core (closeAudioFile_frame world.releaseMediaProjection env true).1
  unfold endRecording
  simp only
  split
  · exact .inl closed
  · split
    · exact .inl closed
    · rw [← closed]
      exact requestJsonThreadStop_core _

/-- After a recorder has ended, the session records again, stays paused, or
goes on to its end. -/
theorem finishRecordThread_cases :
    (world.session.sessionEndRequested = false ∧
      world.pending.pendingRecordingResume = true ∧ world.session.sessionActive = true ∧
      world.finishRecordThread env = world.detachRecorder.startRecordingWorkerForSession env) ∨
    (world.session.sessionEndRequested = false ∧
      ¬ (world.pending.pendingRecordingResume = true ∧ world.session.sessionActive = true) ∧
      world.finishRecordThread env =
        world.detachRecorder.updateSessionState.publishState "録音一時停止中") ∨
    (world.session.sessionEndRequested = true ∧
      world.finishRecordThread env = world.detachRecorder.endRecording env) := by
  unfold finishRecordThread
  split
  · rename_i unfinished
    have ending : world.session.sessionEndRequested = false := by simpa using unfinished
    split
    · rename_i resumed
      obtain ⟨pending, active⟩ := Bool.and_eq_true_iff.mp resumed
      exact .inl ⟨ending, pending, active, rfl⟩
    · rename_i paused
      exact .inr (.inl ⟨ending, fun both => paused (Bool.and_eq_true_iff.mpr both), rfl⟩)
  · rename_i ending
    exact .inr (.inr ⟨by simpa using ending, rfl⟩)

/-- A start intent names the session to come, if none is active. -/
theorem onStart_core (request : Option RecordingRequest) :
    (world.onStart request env).core = world.core ∨
      world.session.sessionActive = false ∧ (world.onStart request env).core =
        { world.core with pendingRecordingTimeData := some env.timeData } := by
  have read := (readRecordingRequest_frame world request).1
  unfold onStart
  simp only
  split
  · exact .inl (congrArg SessionFields.core read)
  · rename_i inactive
    rw [read] at inactive
    refine .inr ⟨by simpa using inactive, ?_⟩
    simp only [core, SessionFields.core, startRecordingInternalAsync_frame, read]

@[simp] theorem requestStopInference_core : world.requestStopInference.core = world.core := by
  unfold requestStopInference
  split
  · rfl
  · split <;> rfl

section Pipeline

variable [Inhabited Sample]

@[simp] theorem ensureInferenceAccepting_core (time : Text) :
    (world.ensureInferenceAccepting time).1.core = world.core := by
  unfold ensureInferenceAccepting
  split
  · rfl
  · split <;> rfl

omit [Inhabited Sample] in
/-- A new file is stored in the field, or nothing changes. -/
theorem openAudioFile_cases (session : Text) :
    (world.openAudioFile session env).1.audio = world.audio ∨
    (world.openAudioFile session env).2 = true ∧
      (world.openAudioFile session env).1.audio =
        { audioFileWriter := some world.audio.writers.count
          writers := world.audio.writers.create (.new session) } := by
  unfold openAudioFile
  split
  · exact .inl rfl
  · split
    · exact .inl rfl
    · exact .inr ⟨rfl, rfl⟩

/-- The groups of fields that preparing the file and the projection leaves as
the inference pipeline had them. -/
structure Prepared (ensured ready : World Sample) : Prop where
  session : ready.session = ensured.session
  pending : ready.pending = ensured.pending
  recorder : ready.recorder = ensured.recorder
  inference : ready.inference = ensured.inference
  json : ready.json = ensured.json
  file : ready.file = ensured.file
  life : ready.life = ensured.life

/-- A session that is prepared waits for the old pipeline, is given up, or
opens. -/
theorem prepareSession_cases :
    let time := world.nextSessionTime env
    let ensured := (world.nameSession env).ensureInferenceAccepting time
    (ensured.2 = false ∧ world.prepareSession env =
      { ensured.1 with pending := { ensured.1.pending with
          pendingRecordingStart := true } }.publishState "推論workerの再起動後に録音を開始します") ∨
    (ensured.2 = true ∧ ∃ ready, Prepared ensured.1 ready ∧
      (ready.audio = ensured.1.audio ∨ ∃ opened : World Sample,
        opened.audio = (ensured.1.openAudioFile (sessionId sessionPurpose time) env).1.audio ∧
        ready.audio = (opened.closeAudioFile false env).audio) ∧
      world.prepareSession env = ready.stopInferenceIfNotRecording) ∨
    (ensured.2 = true ∧ ∃ ready bufferSize, Prepared ensured.1 ready ∧
      ready.audio = (ensured.1.openAudioFile (sessionId sessionPurpose time) env).1.audio ∧
      (ensured.1.openAudioFile (sessionId sessionPurpose time) env).2 = true ∧
      world.prepareSession env = ready.openSession time bufferSize env) := by
  intro time ensured
  unfold prepareSession
  simp only
  split
  · rename_i refused
    exact .inl ⟨by simpa using refused, rfl⟩
  · rename_i accepting
    have accepted : ensured.2 = true := by simpa using accepting
    right
    split
    · refine .inl ⟨accepted, _, ?_, .inl ?_, rfl⟩
      · exact ⟨rfl, rfl, rfl, rfl, rfl, rfl, rfl⟩
      · rfl
    · split
      · rename_i refused
        refine .inl ⟨accepted, _, ?_, .inl ?_, rfl⟩
        · constructor <;> simp [ensured, time]
        · rcases ensured.1.openAudioFile_cases env (sessionId sessionPurpose time) with
            same | ⟨file, _⟩
          · exact same
          · exact absurd file (by simpa using refused)
      · rename_i file
        split
        · refine .inl ⟨accepted, _, ?_, .inr ?_, rfl⟩
          · constructor <;> simp [ensured, time]
          · exact ⟨_, (prepareMediaProjectionIfNeeded_frame _ env).2.2.2.2.2.2.1, rfl⟩
        · refine .inr ⟨accepted, _, _, ?_, ?_, by simpa using file, rfl⟩
          · constructor <;> simp [ensured, time]
          · simp [ensured, time]

/-- `startRecordingInternal` reaches the preparation of a session: nothing
records, no file is transcribed, and the permission and the models are there. -/
def preparesSession (world : World Sample) (env : Environment) : Bool :=
  !world.session.recording && world.liveRecorder.isNone && world.liveFileWorker.isNone &&
    env.permission && env.modelError.isNone

/-- The world with the settings read for a new recording. -/
def loadSettings (world : World Sample) (env : Environment) : World Sample :=
  { world with
    setup := { world.setup with settings := some env.settings }
    screen := { world.screen with currentModelKey := env.settings.modelKey } }

/-- `startRecordingInternal` prepares a session, leaves everything to a later
start, or gives up the service. -/
theorem startRecordingInternal_cases :
    (world.preparesSession env = true ∧
      world.startRecordingInternal env = (world.loadSettings env).prepareSession env) ∨
    (world.preparesSession env = false ∧ ∃ start message, world.startRecordingInternal env =
      { world with pending := { world.pending with
          pendingRecordingStart := start } }.publishState message) ∨
    (world.preparesSession env = false ∧ world.session.recording = false ∧
      world.liveRecorder = none ∧ world.liveFileWorker = none ∧ ∃ setup screen message reason,
      (reason = .startPermission ∨ reason = .startModels) ∧ world.startRecordingInternal env =
        ({ world with setup, screen }.publishState message).stopForegroundAndSelf reason) := by
  unfold startRecordingInternal preparesSession
  split
  · rename_i recording
    refine .inr (.inl ⟨by simp [recording], world.pending.pendingRecordingStart, _, rfl⟩)
  · rename_i silent
    split
    · rename_i live
      have held := Option.isNone_eq_false_iff.mpr live
      exact .inr (.inl ⟨by simp [held], true, _, rfl⟩)
    · rename_i dead
      split
      · rename_i live
        have held := Option.isNone_eq_false_iff.mpr live
        exact .inr (.inl ⟨by simp [held], true, _, rfl⟩)
      · rename_i idle
        have quiet : world.session.recording = false := by simpa using silent
        have gone : world.liveRecorder = none := by simpa using dead
        have free : world.liveFileWorker = none := by simpa using idle
        split
        · rename_i refused
          have permission : env.permission = false := by simpa using refused
          exact .inr (.inr ⟨by simp [permission], quiet, gone, free, _, _, _, _, .inl rfl, rfl⟩)
        · rename_i allowed
          simp only
          split
          · rename_i message failed
            exact .inr (.inr ⟨by simp [failed], quiet, gone, free, _, _, _, _, .inr rfl, rfl⟩)
          · rename_i ready
            refine .inl ⟨?_, rfl⟩
            have permission : env.permission = true := by simpa using allowed
            simp [permission, quiet, gone, free, ready]

@[simp] theorem requestResumeInference_core : world.requestResumeInference.core = world.core := by
  unfold requestResumeInference
  split
  · rfl
  · simp only
    split <;> exact ensureInferenceAccepting_core _ _

private theorem onWhisperStopped_core (event : ThreadStoppedEvent) :
    world.core.KeptOrClosed (world.onWhisperStopped event).core := by
  unfold onWhisperStopped
  simp only
  split
  · exact requestJsonThreadStop_core _
  · split <;> exact .inl rfl

end Pipeline

/-- A recorder thread changes neither the session nor the field that holds it. -/
theorem recorderAdvance_frame {world after : World Sample} {address : Nat}
    {answer : RecorderAnswer Sample} (taken : world.recorderAdvance address answer = some after) :
    after.session = world.session ∧ after.pending = world.pending ∧
    after.recorder.recordWorker = world.recorder.recordWorker ∧
    after.json = world.json ∧ after.setup = world.setup ∧ after.screen = world.screen ∧
    after.life = world.life ∧ after.file = world.file := by
  cases place : (world.recorder.workers.get address).phase <;>
    simp only [recorderAdvance, place] at taken
  case created | ended | stopped => cases taken
  case reading =>
    split at taken
    · cases taken
      simp [moveRecorder, setRecorder]
    · split at taken
      · cases taken
        simp [moveRecorder, setRecorder]
      · cases taken
  case closingFile chunk =>
    cases taken
    simp [moveRecorder, setRecorder]
  all_goals
    cases taken
    simp [moveRecorder, setRecorder, countChunk, saveChunk, submitChunk, setThread]

end World

section Steps

variable [Inhabited Sample] {world after : World Sample}

open World

/-- A step that neither starts nor stops a recording. -/
def Label.minor : Label Sample → Prop
  | .intent (.stopFileTranscription) _ | .intent .stopInference _ | .intent .resumeInference _
  | .intent (.transcribeFile _) _ | .recorder .. | .recorderThrows .. | .inference ..
  | .whisperStopped .. | .json .. | .jsonStopped .. | .file .. | .fileComplete .. => True
  | _ => False

private theorem whisperStopped_core {address : Nat} {env : Environment}
    (taken : world.whisperStopped address env = some after) :
    world.core.KeptOrClosed after.core := by
  obtain ⟨_, ⟨_, rfl⟩ | ⟨_, rfl⟩⟩ := whisperStopped_cases taken
  · exact onWhisperStopped_core (world.retireThread address) _
  · exact .inl rfl

private theorem jsonStopped_core {address : Nat} {env : Environment}
    (taken : world.jsonStopped address env = some after) :
    world.core.KeptOrClosed after.core := by
  obtain ⟨_, ⟨_, rfl⟩ | ⟨_, rfl⟩⟩ := jsonStopped_cases taken
  · exact finishIdleWorkIfPossible_core (detachJson (world.retireJson address))
  · exact .inl rfl

omit [Inhabited Sample] in
theorem fileComplete_core {address : Nat} (taken : world.fileComplete address = some after) :
    world.core.KeptOrClosed after.core := by
  unfold fileComplete at taken
  simp only at taken
  split at taken <;> cases taken
  exact onRetranscriptionComplete_core _

/-- A minor step leaves the session as it is or closes it, and it leaves the
field `recordWorker` alone. -/
theorem step_minor {label : Label Sample} (minor : label.minor)
    (taken : step world label = some after) :
    world.core.KeptOrClosed after.core ∧
      after.recorder.recordWorker = world.recorder.recordWorker := by
  cases label with
  | intent action env =>
    simp only [step] at taken
    split at taken
    · cases taken
    · cases taken
      cases action with
      | start | stop | pauseRecording | resumeRecording => exact minor.elim
      | stopFileTranscription =>
        exact ⟨requestStopFileTranscription_core _, by simp [onStartCommand]⟩
      | stopInference => exact ⟨.inl (requestStopInference_core _), by simp [onStartCommand]⟩
      | resumeInference => exact ⟨.inl (requestResumeInference_core _), by simp [onStartCommand]⟩
      | transcribeFile uri => exact ⟨enqueueSelectedFile_core _ _ _, by simp [onStartCommand]⟩
  | startRecordingInternal | projectionStopped | destroy | recordStopped => exact minor.elim
  | recorder address answer =>
    have frame := recorderAdvance_frame taken
    exact ⟨.inl (congrArg SessionFields.core frame.1), frame.2.2.1⟩
  | recorderThrows address message =>
    simp only [step] at taken
    split at taken <;> cases taken
    exact ⟨.inl rfl, rfl⟩
  | inference address answer =>
    have frame := inferenceAdvance_frame taken
    exact ⟨.inl (congrArg SessionFields.core frame.1), by rw [frame.2.2.1]⟩
  | whisperStopped address env =>
    exact ⟨whisperStopped_core taken, by rw [(whisperStopped_frame taken).1]⟩
  | json address answer =>
    have frame := jsonAdvance_frame taken
    exact ⟨.inl (congrArg SessionFields.core frame.1), by rw [frame.2.2.1]⟩
  | jsonStopped address env =>
    exact ⟨jsonStopped_core taken, by rw [(jsonStopped_frame taken).2.1]⟩
  | file address report =>
    have frame := fileAdvance_frame taken
    exact ⟨.inl (congrArg SessionFields.core frame.1), by rw [frame.2.2.1]⟩
  | fileComplete address =>
    exact ⟨fileComplete_core taken, by rw [(fileComplete_frame taken).2.1]⟩

end Steps

end LocalWhisper.Service
