import LocalWhisper.Service.RecorderHandle

/-! What a finished file job does to a live session. Its completion callback
writes flags that live recording uses, and a session can be opened while the
callback is still to come. -/

namespace LocalWhisper.Service

open LocalWhisper.Machine LocalWhisper.Record LocalWhisper.Transcription

variable {Sample : Type}

/-- The file worker at an address has yet to call back. -/
def FileFields.outstanding (fields : FileFields) (address : Nat) : Bool :=
  (fields.workers.get address).outstanding

/-- A session that is open afterwards was open before, and no file job started
in between; a service that was destroyed stays so. -/
def OpenSessionKept (before after : World Sample) : Prop :=
  after.session.sessionActive = true → after.life.destroyed = false →
    before.session.sessionActive = true ∧ before.life.destroyed = false ∧
    ∀ address, after.file.outstanding address = true → before.file.outstanding address = true

namespace OpenSessionKept

variable {before after later : World Sample}

theorem refl (world : World Sample) : OpenSessionKept world world :=
  fun active kept => ⟨active, kept, fun _ => id⟩

theorem trans (first : OpenSessionKept before after) (second : OpenSessionKept after later) :
    OpenSessionKept before later := by
  intro active kept
  obtain ⟨middle, middleKept, laterJobs⟩ := second active kept
  obtain ⟨start, startKept, jobs⟩ := first middle middleKept
  exact ⟨start, startKept, fun address outstanding => jobs address (laterJobs address outstanding)⟩

theorem of_workers (same : after.file.workers = before.file.workers)
    (life : after.life.destroyed = before.life.destroyed)
    (active : after.session.sessionActive = true → before.session.sessionActive = true) :
    OpenSessionKept before after :=
  fun isActive kept => ⟨active isActive, life.symm.trans kept, fun address => by
    rw [FileFields.outstanding, same]
    exact id⟩

theorem of_closed (closed : after.session.sessionActive = false) :
    OpenSessionKept before after :=
  fun active _ => Bool.noConfusion (closed.symm.trans active)

theorem prepend (second : OpenSessionKept after later)
    (same : after.file.workers = before.file.workers)
    (life : after.life.destroyed = before.life.destroyed)
    (active : after.session.sessionActive = true → before.session.sessionActive = true) :
    OpenSessionKept before later :=
  (of_workers same life active).trans second

theorem append (first : OpenSessionKept before after)
    (same : later.file.workers = after.file.workers)
    (life : later.life.destroyed = after.life.destroyed)
    (active : later.session.sessionActive = true → after.session.sessionActive = true) :
    OpenSessionKept before later :=
  first.trans (of_workers same life active)

end OpenSessionKept

namespace World

variable (world : World Sample) (env : Environment)

theorem startNextRetranscriptionOrStop_jobs :
    OpenSessionKept world world.startNextRetranscriptionOrStop := by
  unfold startNextRetranscriptionOrStop
  split
  · split <;> exact .of_workers rfl rfl id
  · rename_i idle
    split
    · exact .refl world
    · split
      · exact .of_closed rfl
      · -- the guard has found no active session
        apply OpenSessionKept.of_closed
        simp only [Bool.or_eq_true, not_or, Bool.not_eq_true] at idle
        exact idle.1.1

theorem finishIdleWorkIfPossible_jobs :
    OpenSessionKept world world.finishIdleWorkIfPossible := by
  unfold finishIdleWorkIfPossible
  split
  · exact .of_workers rfl rfl id
  · split
    · exact .refl world
    · simp only
      split
      · split
        · exact .of_workers rfl rfl id
        · exact .prepend (startNextRetranscriptionOrStop_jobs _) rfl rfl id
      · split
        · exact .of_workers rfl rfl id
        · exact startNextRetranscriptionOrStop_jobs _

theorem requestJsonThreadStop_jobs : OpenSessionKept world world.requestJsonThreadStop := by
  unfold requestJsonThreadStop
  simp only
  split
  · exact .prepend (finishIdleWorkIfPossible_jobs _) rfl rfl id
  · split
    · exact .of_workers rfl rfl id
    · exact .prepend (finishIdleWorkIfPossible_jobs _) rfl rfl id

theorem stopInferenceIfNotRecording_closed :
    world.stopInferenceIfNotRecording.session.sessionActive = false := by
  have asked (other : World Sample) (closed : other.session.sessionActive = false) :
      other.requestJsonThreadStop.session.sessionActive = false := by
    rcases other.requestJsonThreadStop_core with same | reset
    · exact (congrArg SessionCore.sessionActive same).trans closed
    · exact congrArg SessionCore.sessionActive reset
  unfold stopInferenceIfNotRecording
  simp only
  split
  · split
    · rfl
    · exact asked _ rfl
  · exact asked _ rfl

private theorem endRecording_jobs : OpenSessionKept world (world.endRecording env) := by
  have closed : OpenSessionKept world (world.releaseMediaProjection.closeAudioFile true env) := by
    apply OpenSessionKept.of_workers
    · exact closeAudioFile_workers_kept world.releaseMediaProjection env true
    · simp
    · rw [(closeAudioFile_frame world.releaseMediaProjection env true).1]
      exact id
  unfold endRecording
  simp only
  split
  · exact closed.append rfl rfl id
  · split
    · exact closed.append rfl rfl id
    · exact closed.trans (requestJsonThreadStop_jobs _)

theorem startRecordingWorkerForSession_jobs :
    OpenSessionKept world (world.startRecordingWorkerForSession env) := by
  unfold startRecordingWorkerForSession
  split
  · exact .of_closed rfl
  · simp only
    split
    · exact .of_workers rfl rfl id
    · split <;> exact .of_workers rfl rfl id

theorem finishRecordThread_jobs : OpenSessionKept world (world.finishRecordThread env) := by
  rcases world.finishRecordThread_cases env with
    ⟨_, _, _, resumed⟩ | ⟨_, _, paused⟩ | ⟨_, ended⟩
  · rw [resumed]
    exact .prepend (startRecordingWorkerForSession_jobs _ env) rfl rfl id
  · rw [paused]
    exact .of_workers rfl rfl id
  · rw [ended]
    exact .prepend (endRecording_jobs _ env) rfl rfl id

theorem requestRecordThreadStop_jobs :
    OpenSessionKept world (world.requestRecordThreadStop env) := by
  unfold requestRecordThreadStop
  split
  · exact finishRecordThread_jobs world env
  · simp only
    split
    · exact .of_workers rfl rfl id
    · exact .prepend (finishRecordThread_jobs _ env) rfl rfl id

theorem requestStopRecording_jobs : OpenSessionKept world (world.requestStopRecording env) := by
  unfold requestStopRecording
  split
  · exact .refl world
  · simp only
    split
    · exact .prepend (requestRecordThreadStop_jobs _ env) rfl rfl nofun
    · exact .prepend (finishRecordThread_jobs _ env) rfl rfl nofun

theorem requestPauseRecording_jobs : OpenSessionKept world (world.requestPauseRecording env) := by
  unfold requestPauseRecording
  split
  · exact .refl world
  · exact .prepend (requestRecordThreadStop_jobs _ env) rfl rfl id

theorem requestResumeRecording_jobs : OpenSessionKept world (world.requestResumeRecording env) := by
  unfold requestResumeRecording
  split
  · exact .refl world
  · split
    · exact .of_workers rfl rfl id
    · exact startRecordingWorkerForSession_jobs world env

private theorem requestStopFileTranscription_jobs :
    OpenSessionKept world world.requestStopFileTranscription := by
  unfold requestStopFileTranscription
  simp only
  split
  · rename_i address _
    intro active kept
    refine ⟨active, kept, fun index outstanding => ?_⟩
    refine Eq.trans (Eq.symm ?_) outstanding
    exact Objects.set_get_view _ _ address index
      (fun job : WhisperFileTranscriptionWorker => job.outstanding)
      (by simp [WhisperFileTranscriptionWorker.outstanding])
  · exact .of_closed rfl

private theorem enqueueSelectedFile_jobs (uri : Option Text) :
    OpenSessionKept world (world.enqueueSelectedFile uri env) := by
  unfold enqueueSelectedFile
  split
  · exact .of_closed rfl
  · exact .prepend (startNextRetranscriptionOrStop_jobs _) rfl rfl id

private theorem onRetranscriptionComplete_jobs :
    OpenSessionKept world world.onRetranscriptionComplete := by
  unfold onRetranscriptionComplete
  split
  · exact .refl world
  · simp only
    split
    · exact .of_workers rfl rfl id
    · exact .prepend (startNextRetranscriptionOrStop_jobs _) rfl rfl id

private theorem requestStopInference_jobs : OpenSessionKept world world.requestStopInference := by
  apply OpenSessionKept.of_workers
  · rw [(requestStopInference_frame world).2.2.1]
  · simp
  · intro active
    exact (congrArg SessionCore.sessionActive world.requestStopInference_core).symm.trans active

private theorem onStart_jobs (request : Option RecordingRequest) :
    OpenSessionKept world (world.onStart request env) := by
  apply OpenSessionKept.of_workers
  · rw [(onStart_frame world env request).2.2.2.1]
  · unfold onStart readRecordingRequest
    cases request <;> simp only <;> split <;> rfl
  · intro active
    rcases world.onStart_core env request with same | ⟨_, same⟩
    · exact (congrArg SessionCore.sessionActive same).symm.trans active
    · exact (congrArg SessionCore.sessionActive same).symm.trans active

private theorem openSession_file (time : Text) (bufferSize : Nat)
    (active : (world.openSession time bufferSize env).session.sessionActive = true) :
    (world.openSession time bufferSize env).file = world.file ∧
      (world.openSession time bufferSize env).life = world.life := by
  unfold openSession at active ⊢
  simp only at active ⊢
  split
  · rename_i refused
    rw [if_pos refused, stopInferenceIfNotRecording_closed] at active
    cases active
  · exact ⟨rfl, rfl⟩

section Pipeline

variable [Inhabited Sample]

theorem requestResumeInference_jobs : OpenSessionKept world world.requestResumeInference := by
  apply OpenSessionKept.of_workers
  · rw [(requestResumeInference_frame world).2.1]
  · simp
  · intro active
    exact (congrArg SessionCore.sessionActive world.requestResumeInference_core).symm.trans active

private theorem onWhisperStopped_jobs (event : ThreadStoppedEvent) :
    OpenSessionKept world (world.onWhisperStopped event) := by
  unfold onWhisperStopped
  simp only
  split
  · exact .prepend (requestJsonThreadStop_jobs _) rfl rfl id
  · split <;> exact .of_workers rfl rfl id

private theorem onStartCommand_jobs (action : Intent) :
    OpenSessionKept world (world.onStartCommand action env) := by
  cases action with
  | start request => exact onStart_jobs world env request
  | stop => exact requestStopRecording_jobs world env
  | pauseRecording => exact requestPauseRecording_jobs world env
  | resumeRecording => exact requestResumeRecording_jobs world env
  | stopFileTranscription => exact requestStopFileTranscription_jobs world
  | stopInference => exact requestStopInference_jobs world
  | resumeInference => exact requestResumeInference_jobs world
  | transcribeFile uri => exact enqueueSelectedFile_jobs world env uri

private theorem prepareSession_file
    (active : (world.prepareSession env).session.sessionActive = true) :
    (world.prepareSession env).file = world.file ∧
      (world.prepareSession env).life = world.life := by
  have ensured : ((world.nameSession env).ensureInferenceAccepting
      (world.nextSessionTime env)).1.file = world.file ∧
    ((world.nameSession env).ensureInferenceAccepting
      (world.nextSessionTime env)).1.life = world.life := by simp
  rcases world.prepareSession_cases env with
    ⟨_, waits⟩ | ⟨_, ready, _, _, given⟩ | ⟨_, ready, _, prepared, _, _, opened⟩
  · rw [waits]
    exact ensured
  · rw [given, stopInferenceIfNotRecording_closed] at active
    cases active
  · rw [opened] at active ⊢
    obtain ⟨file, life⟩ := openSession_file ready env _ _ active
    rw [file, life, prepared.file, prepared.life]
    exact ensured

/-- Whether `startRecordingInternal` opens a session or leaves one open, it
leaves the file jobs alone. -/
theorem startRecordingInternal_file
    (active : (world.startRecordingInternal env).session.sessionActive = true) :
    (world.startRecordingInternal env).file = world.file ∧
      (world.startRecordingInternal env).life = world.life := by
  rcases world.startRecordingInternal_cases env with
    ⟨_, prepared⟩ | ⟨_, _, _, waits⟩ | ⟨_, _, _, _, _, _, _, _, _, stopped⟩
  · rw [prepared] at active ⊢
    exact prepareSession_file _ env active
  · rw [waits]
    exact ⟨rfl, rfl⟩
  · rw [stopped] at active
    cases active

/-- The live pipeline, if there is one, can take on the session of this time. -/
def pipelineReady (world : World Sample) (time : Text) : Bool :=
  match world.liveTranscription with
  | none => true
  | some address => world.servesSession time &&
      (world.inference.threads.get address).worker.resumeAudioSubmission.2

private theorem ensureInferenceAccepting_accepts (time : Text) :
    (world.ensureInferenceAccepting time).2 = world.pipelineReady time := by
  unfold ensureInferenceAccepting pipelineReady
  cases world.liveTranscription with
  | none => rfl
  | some address => cases serves : world.servesSession time <;> simp

end Pipeline

/-- The app capture that the requested source needs can be set up. -/
def captureReady (world : World Sample) (env : Environment) : Bool :=
  !world.setup.requestedAudioSource.requiresAppCapture ||
    world.setup.projectionGranted && world.setup.projectionResultData &&
      env.projection == .granted

private theorem prepareMediaProjectionIfNeeded_ready :
    (world.prepareMediaProjectionIfNeeded env).2 = world.captureReady env := by
  unfold prepareMediaProjectionIfNeeded captureReady
  split
  · rename_i free
    simp only [Bool.not_eq_true'] at free
    simp [free]
  · rename_i needed
    simp only [Bool.not_eq_true', Bool.not_eq_false] at needed
    split
    · rename_i refused
      rcases Bool.or_eq_true_iff.mp refused with denied | empty
      · simp_all
      · simp_all
    · split <;> simp_all

private theorem openAudioFile_opens (session : Text) : (world.openAudioFile session env).2 =
    (!(world.setup.settings.getD .defaultSettings).audioRecordingEnabled ||
      env.audioFileError.isNone) := by
  unfold openAudioFile
  split
  · rename_i off
    rw [off, Bool.true_or]
  · rename_i on
    simp only [Bool.not_eq_true', Bool.not_eq_false] at on
    split <;> simp_all

private theorem openSession_devices (time : Text) (bufferSize : Nat)
    (active : (world.openSession time bufferSize env).session.sessionActive = true) :
    env.devicesStart = true := by
  unfold openSession at active
  simp only at active
  split at active
  · rw [stopInferenceIfNotRecording_closed] at active
    cases active
  · rename_i started
    rw [createRecorder_started] at started
    have up : (world.activateSession time).setup.devicesUp env = true := by simpa using started
    exact (Bool.and_eq_true_iff.mp up).1

section Pipeline

variable [Inhabited Sample]

/-- `startRecordingInternal` would open a session now. -/
def opensSession (world : World Sample) (env : Environment) : Bool :=
  world.preparesSession env && world.pipelineReady (world.nextSessionTime env) &&
    decide (0 < AudioRecordWorker.createBufferSize WhisperTranscriptionWorker.defaultSampleRate
      env.minBufferSize) &&
    (!env.settings.audioRecordingEnabled || env.audioFileError.isNone) &&
    world.captureReady env && env.devicesStart

/-- A session that is open after its preparation was open before, or nothing
stood in its way. -/
theorem prepareSession_opens (settings : world.setup.settings = some env.settings)
    (active : (world.prepareSession env).session.sessionActive = true) :
    world.session.sessionActive = true ∨
      world.pipelineReady (world.nextSessionTime env) = true ∧
      0 < AudioRecordWorker.createBufferSize WhisperTranscriptionWorker.defaultSampleRate
        env.minBufferSize ∧
      (!env.settings.audioRecordingEnabled || env.audioFileError.isNone) = true ∧
      world.captureReady env = true ∧ env.devicesStart = true := by
  have given (ready : World Sample) (still :
      ready.stopInferenceIfNotRecording.session.sessionActive = true) : False := by
    rw [stopInferenceIfNotRecording_closed] at still
    cases still
  have passed {answer : Bool} (refused : ¬ (!answer) = true) : answer = true := by
    simpa using refused
  have named : ((world.nameSession env).ensureInferenceAccepting
      (world.nextSessionTime env)).1.core.sessionActive = world.session.sessionActive := by
    rw [ensureInferenceAccepting_core]
    rfl
  have setup : ((world.nameSession env).ensureInferenceAccepting
      (world.nextSessionTime env)).1.setup = world.setup := by simp
  unfold prepareSession at active
  simp only at active
  split at active
  · exact .inl (named.symm.trans active)
  · rename_i accepting
    split at active
    · exact (given _ active).elim
    · rename_i large
      split at active
      · exact (given _ active).elim
      · rename_i file
        split at active
        · exact (given _ active).elim
        · rename_i capture
          have devices := openSession_devices _ env _ _ active
          rw [ensureInferenceAccepting_accepts] at accepting
          rw [openAudioFile_opens, setup, settings] at file
          rw [prepareMediaProjectionIfNeeded_ready] at capture
          simp only [captureReady, openAudioFile_frame, setup] at capture
          exact .inr ⟨passed accepting, Int.not_le.mp large, passed file, passed capture, devices⟩

private theorem startRecordingInternal_opens
    (active : (world.startRecordingInternal env).session.sessionActive = true) :
    world.session.sessionActive = true ∨ world.opensSession env = true := by
  rcases world.startRecordingInternal_cases env with
    ⟨prepares, prepared⟩ | ⟨_, _, _, waits⟩ | ⟨_, _, _, _, _, _, _, _, _, stopped⟩
  · rw [prepared] at active
    rcases prepareSession_opens (world.loadSettings env) env rfl active with
      already | ⟨pipeline, large, file, capture, devices⟩
    · exact .inl already
    · right
      unfold opensSession
      rw [prepares, show world.pipelineReady (world.nextSessionTime env) = true from pipeline,
        decide_eq_true large, file, show world.captureReady env = true from capture, devices]
      rfl
  · rw [waits] at active
    exact .inl active
  · rw [stopped] at active
    cases active

end Pipeline

end World

open World

/-- While a session is open and the service is not destroyed, no file job has
its callback to come. -/
def FileJobsDone (world : World Sample) : Prop :=
  world.session.sessionActive = true → world.life.destroyed = false →
    ∀ address, world.file.outstanding address = false

theorem OpenSessionKept.done {before after : World Sample} (kept : OpenSessionKept before after)
    (done : FileJobsDone before) : FileJobsDone after := by
  intro active subscribed address
  obtain ⟨wasActive, wasSubscribed, jobs⟩ := kept active subscribed
  rw [Bool.eq_false_iff]
  intro outstanding
  exact Bool.noConfusion ((done wasActive wasSubscribed address).symm.trans
    (jobs address outstanding))

/-- The completion callback, delivered now, would leave the flags of an open
session as they are. -/
def CallbacksHarmless [Inhabited Sample] (world : World Sample) : Prop :=
  ∀ address after, step world (.fileComplete address) = some after →
    world.session.sessionActive = true →
      after.session.inferenceAlive = world.session.inferenceAlive ∧
      after.session.inferenceAccepting = world.session.inferenceAccepting ∧
      after.session.currentState = world.session.currentState

section Steps

variable {world after : World Sample} {address : Nat}

/-- What the callback does to an open session: all or nothing. -/
theorem fileComplete_session (taken : world.fileComplete address = some after)
    (active : world.session.sessionActive = true) :
    world.file.outstanding address = true ∧
      after.session = if world.life.destroyed then world.session else
        { world.session with
          inferenceAlive := false, inferenceAccepting := false, currentState := none } := by
  unfold fileComplete at taken
  simp only at taken
  split at taken
  · rename_i errorMessage place
    cases taken
    refine ⟨by simp [FileFields.outstanding, WhisperFileTranscriptionWorker.outstanding, place], ?_⟩
    unfold onRetranscriptionComplete
    simp only
    split
    · rfl
    · split
      · rfl
      · unfold startNextRetranscriptionOrStop
        simp [active]
        split <;> rfl
  · cases taken

private theorem fileAdvance_jobs {report : FileReport}
    (taken : world.fileAdvance address report = some after) : OpenSessionKept world after := by
  have frame := fileAdvance_frame taken
  have shrinks (index : Nat) (outstanding : after.file.outstanding index = true) :
      world.file.outstanding index = true := by
    cases place : (world.file.workers.get address).phase <;>
      simp only [fileAdvance, place] at taken
    case created | ended | completed => cases taken
    case running =>
      split at taken
      · split at taken
        · cases taken
        · split at taken <;> cases taken <;> exact outstanding
      · cases taken
        simp only [FileFields.outstanding, Objects.set_get] at outstanding ⊢
        split at outstanding
        · rename_i here
          rw [here.1, WhisperFileTranscriptionWorker.outstanding, place]
        · exact outstanding
  intro active subscribed
  rw [frame.1] at active
  rw [frame.2.2.2.2.2.2.2] at subscribed
  exact ⟨active, subscribed, shrinks⟩

private theorem fileComplete_jobs (taken : world.fileComplete address = some after) :
    OpenSessionKept world after := by
  unfold fileComplete at taken
  simp only at taken
  split at taken <;> cases taken
  refine OpenSessionKept.trans ?_ (onRetranscriptionComplete_jobs _)
  intro active subscribed
  refine ⟨active, subscribed, fun index outstanding => ?_⟩
  rename_i message place
  simp only [FileFields.outstanding, Objects.set_get] at outstanding ⊢
  split at outstanding
  · cases outstanding
  · exact outstanding

end Steps

/-- The step opens no session while a file job has its callback to come,
unless the service is already destroyed and will not hear it. -/
def OpensAfterFileJobs [Inhabited Sample] (world : World Sample) : Label Sample → Prop
  | .startRecordingInternal env => world.life.destroyed = false → world.opensSession env = true →
      ∀ address, world.file.outstanding address = false
  | _ => True

section Runs

variable [Inhabited Sample] {world after : World Sample} {label : Label Sample}

/-- Apart from `startRecordingInternal`, no step opens a session or starts a
file job beside an open one. -/
theorem step_jobs (other : ∀ env, label ≠ .startRecordingInternal env)
    (taken : step world label = some after) : OpenSessionKept world after := by
  cases label with
  | startRecordingInternal env => exact absurd rfl (other env)
  | intent action env =>
    simp only [step] at taken
    split at taken <;> cases taken
    exact onStartCommand_jobs world env action
  | projectionStopped env =>
    simp only [step] at taken
    split at taken
    · cases taken
    · split at taken <;> cases taken
      · exact .prepend (requestStopRecording_jobs _ env) rfl rfl id
      · exact .refl world
  | destroy env =>
    simp only [step] at taken
    split at taken <;> cases taken
    exact .of_closed rfl
  | recorder address answer =>
    have frame := recorderAdvance_frame taken
    exact .of_workers (by rw [frame.2.2.2.2.2.2.2]) (by rw [frame.2.2.2.2.2.2.1])
      (by rw [frame.1]; exact id)
  | recorderThrows address message =>
    simp only [step] at taken
    split at taken <;> cases taken
    exact .of_workers rfl rfl id
  | recordStopped address env =>
    obtain ⟨_, ⟨_, rfl⟩ | ⟨_, rfl⟩⟩ := recordStopped_cases taken
    · exact .prepend (finishRecordThread_jobs _ env) rfl rfl id
    · exact .of_workers rfl rfl id
  | inference address answer =>
    have frame := inferenceAdvance_frame taken
    exact .of_workers (by rw [frame.2.2.2.1]) (by rw [frame.2.2.2.2.2.2])
      (by rw [frame.1]; exact id)
  | whisperStopped address env =>
    obtain ⟨_, ⟨_, rfl⟩ | ⟨_, rfl⟩⟩ := whisperStopped_cases taken
    · exact .prepend (onWhisperStopped_jobs _ _) rfl rfl id
    · exact .of_workers rfl rfl id
  | json address answer =>
    have frame := jsonAdvance_frame taken
    exact .of_workers (by rw [frame.2.2.2.2.1]) (by rw [frame.2.2.2.2.2.2.2.2])
      (by rw [frame.1]; exact id)
  | jsonStopped address env =>
    obtain ⟨_, ⟨_, rfl⟩ | ⟨_, rfl⟩⟩ := jsonStopped_cases taken
    · exact .prepend (finishIdleWorkIfPossible_jobs _) rfl rfl id
    · exact .of_workers rfl rfl id
  | file address report => exact fileAdvance_jobs taken
  | fileComplete address => exact fileComplete_jobs taken

private theorem step_done (done : FileJobsDone world) (meets : OpensAfterFileJobs world label)
    (taken : step world label = some after) : FileJobsDone after := by
  by_cases start : ∃ env, label = .startRecordingInternal env
  · obtain ⟨env, rfl⟩ := start
    simp only [step] at taken
    split at taken <;> cases taken
    intro active subscribed address
    obtain ⟨file, life⟩ := startRecordingInternal_file _ env active
    rw [life] at subscribed
    rw [file]
    rcases startRecordingInternal_opens _ env active with already | opens
    · exact done already subscribed address
    · exact meets subscribed opens address
  · exact (step_jobs (fun env same => start ⟨env, same⟩) taken).done done

/-- In a run that opens sessions only after every earlier file job has called
back, no completion callback disturbs an open session. -/
theorem callbacks_harmless (run : Reaches step OpensAfterFileJobs (initial : World Sample) world) :
    CallbacksHarmless world := by
  have done : FileJobsDone world :=
    run.invariant nofun fun done meets taken => step_done done meets taken
  intro address after taken active
  obtain ⟨outstanding, session⟩ := fileComplete_session taken active
  cases gone : world.life.destroyed with
  | true =>
    rw [gone, if_pos rfl] at session
    simp [session]
  | false =>
    rw [done active gone address] at outstanding
    cases outstanding

end Runs

/-- A file is chosen while nothing else runs, and a recording is started. -/
def fileThenStart : List (Label Int) :=
  [.intent (.transcribeFile (some ['f'])) quietEnvironment,
    .intent (.start none) quietEnvironment]

/-- The first file calls back and the recording opens its session, which is
stopped. Then another file is chosen, and the service is destroyed before the
next recording opens its session. -/
def startAfterCallback : List (Label Int) :=
  fileThenStart ++
  [.file 0 (.finish ""),
    .fileComplete 0,
    .startRecordingInternal quietEnvironment,
    .intent .stop quietEnvironment,
    .recorder 0 quietRecorder,
    .recorder 0 quietRecorder,
    .recorder 0 quietRecorder,
    .recordStopped 0 quietEnvironment] ++
  advances 0 7 ++ [.whisperStopped 0 quietEnvironment] ++ saves 0 5 ++
  [.jsonStopped 0 quietEnvironment] ++
  fileThenStart ++
  [.destroy quietEnvironment,
    .startRecordingInternal quietEnvironment,
    .file 1 (.finish "")]

/-- A check that is enough for `OpensAfterFileJobs`. -/
def opensAfterFileJobsCheck (world : World Int) : Label Int → Bool
  | .startRecordingInternal _ => world.life.destroyed ||
      (List.range world.file.workers.count).all fun address => !world.file.outstanding address
  | _ => true

private theorem opensAfterFileJobs_of_check {world : World Int} {label : Label Int}
    (checked : opensAfterFileJobsCheck world label = true) : OpensAfterFileJobs world label := by
  cases label with
  | startRecordingInternal env =>
    intro subscribed _ address
    rw [Bool.eq_false_iff]
    intro outstanding
    have created : address < world.file.workers.count := by
      apply Objects.lt_count_of_used
      intro unused
      simp [FileFields.outstanding, WhisperFileTranscriptionWorker.outstanding, unused] at outstanding
    simp only [opensAfterFileJobsCheck, subscribed, Bool.false_or, List.all_eq_true,
      Bool.not_eq_true'] at checked
    exact Bool.noConfusion
      ((checked address (List.mem_range.mpr created)).symm.trans outstanding)
  | _ => trivial

theorem callbacks_harmless_run :
    ∃ world, Reaches step OpensAfterFileJobs (initial : World Int) world ∧
      world.session.sessionActive = true ∧ world.file.outstanding 1 = true ∧
      CallbacksHarmless world := by
  have checked : (executeChecked step opensAfterFileJobsCheck (initial : World Int)
      startAfterCallback).map (fun world =>
        (world.session.sessionActive, world.file.outstanding 1)) = some (true, true) := by
    decide +kernel
  obtain ⟨world, result, seen⟩ := Option.map_eq_some_iff.mp checked
  obtain ⟨active, outstanding⟩ := Prod.mk.inj seen
  have run : Reaches step OpensAfterFileJobs (initial : World Int) world :=
    (Reaches.of_executeChecked result).weaken fun _ _ => opensAfterFileJobs_of_check
  exact ⟨world, run, active, outstanding, callbacks_harmless run⟩

/-- The job ends, and the session opens before the job calls back. -/
def startBeforeCallback : List (Label Int) :=
  fileThenStart ++
    [.file 0 (.finish ""),
      .startRecordingInternal quietEnvironment]

/-- The callback closes the inference of a session that just opened. -/
theorem callback_disturbs :
    ¬ ∀ world, Reachable step (initial : World Int) world → CallbacksHarmless world := by
  intro always
  have disturbed : (execute step (initial : World Int) startBeforeCallback).map (fun world =>
      (world.session.sessionActive, world.session.inferenceAccepting,
        (step world (.fileComplete 0)).map fun after => after.session.inferenceAccepting)) =
      some (true, true, some false) := by decide +kernel
  obtain ⟨world, run, seen⟩ := Option.map_eq_some_iff.mp disturbed
  simp only [Prod.mk.injEq] at seen
  obtain ⟨active, accepting, closed⟩ := seen
  obtain ⟨after, taken, lost⟩ := Option.map_eq_some_iff.mp closed
  have kept := (always world (.of_execute run) 0 after taken active).2.1
  rw [lost, accepting] at kept
  cases kept

end LocalWhisper.Service
