import LocalWhisper.Service.Sessions

/-! What the service does with its JSON workers: it makes one for a pipeline
when the field is null, asks it to stop, and lets go of it. -/

namespace LocalWhisper.Service

open LocalWhisper.Machine LocalWhisper.Record LocalWhisper.Transcription
open LocalWhisper.TransscriptsJSON World

variable {Sample : Type}

/-- A JSON worker that was only asked or given something, or has ended. -/
structure SameWriter (before after : TranscriptionJsonWorker) : Prop where
  sessionId : after.sessionId = before.sessionId
  writer : after.writer = before.writer
  opening : after.phase = .opening → before.phase = .opening
  writes : after.phase.writes = before.phase.writes
  alive : after.isAlive = before.isAlive

namespace SameWriter

variable {before after later : TranscriptionJsonWorker}

theorem refl (worker : TranscriptionJsonWorker) : SameWriter worker worker :=
  ⟨rfl, rfl, id, rfl, rfl⟩

theorem trans (first : SameWriter before after) (second : SameWriter after later) :
    SameWriter before later :=
  ⟨second.sessionId.trans first.sessionId, second.writer.trans first.writer,
    first.opening ∘ second.opening, second.writes.trans first.writes,
    second.alive.trans first.alive⟩

theorem requestStop (worker : TranscriptionJsonWorker) :
    SameWriter worker worker.requestStop.1 := by
  unfold TranscriptionJsonWorker.requestStop
  split <;> exact ⟨rfl, rfl, id, rfl, rfl⟩

theorem submit (worker : TranscriptionJsonWorker) (event : WhisperTranscriptionEvent) :
    SameWriter worker (worker.submit event) := by
  unfold TranscriptionJsonWorker.submit
  split
  · exact .refl worker
  · split <;> exact ⟨rfl, rfl, id, rfl, rfl⟩

theorem stopped {worker : TranscriptionJsonWorker} {errorMessage : Option String}
    (ended : worker.phase = .ended errorMessage) :
    SameWriter worker { worker with phase := .stopped } := by
  refine ⟨rfl, rfl, nofun, ?_, ?_⟩
  · rw [ended]
    rfl
  · unfold TranscriptionJsonWorker.isAlive TranscriptionJsonWorker.workerThread
    rw [ended]

end SameWriter

theorem advance_alive {worker : TranscriptionJsonWorker} {answer : JsonAnswer}
    {result : TranscriptionJsonWorker × List JsonOutput}
    (taken : worker.advance answer = some result) : worker.isAlive = true := by
  unfold TranscriptionJsonWorker.isAlive TranscriptionJsonWorker.workerThread
  cases place : worker.phase <;> simp only [TranscriptionJsonWorker.advance, place] at taken ⊢
  all_goals cases taken

structure JsonKept (before after : JsonFields) : Prop where
  files : after.files = before.files
  workers : ∀ address, SameWriter (before.workers.get address) (after.workers.get address)

/-- The worker in the field stays there unless its thread is gone. -/
structure JsonAsked (before after : JsonFields) : Prop extends JsonKept before after where
  handle : after.transcriptionJsonWorker = before.transcriptionJsonWorker ∧
      after.jsonThreadStopped = before.jsonThreadStopped ∨
    after.transcriptionJsonWorker = none ∧
      ∀ address, before.transcriptionJsonWorker = some address →
        (before.workers.get address).isAlive = false

theorem JsonKept.set (json : JsonFields) {address : Nat} {worker : TranscriptionJsonWorker}
    (same : SameWriter (json.workers.get address) worker) :
    JsonKept json { json with workers := json.workers.set address worker } := by
  refine ⟨rfl, fun index => ?_⟩
  rw [Objects.set_get]
  split
  · rename_i here
    rw [here.1]
    exact same
  · exact .refl _

namespace JsonAsked

variable {before after later : JsonFields}

theorem refl (json : JsonFields) : JsonAsked json json :=
  ⟨⟨rfl, fun _ => .refl _⟩, .inl ⟨rfl, rfl⟩⟩

theorem of_eq (same : after = before) : JsonAsked before after := by
  rw [same]
  exact .refl before

theorem trans (first : JsonAsked before after) (second : JsonAsked after later) :
    JsonAsked before later := by
  refine ⟨⟨second.files.trans first.files, fun address =>
    (first.workers address).trans (second.workers address)⟩, ?_⟩
  rcases second.handle with ⟨held, stopped⟩ | ⟨none, dead⟩
  · rw [held, stopped]
    exact first.handle
  · refine .inr ⟨none, ?_⟩
    rcases first.handle with ⟨held, _⟩ | ⟨_, already⟩
    · intro address stored
      rw [← (first.workers address).alive]
      exact dead address (held.trans stored)
    · exact already

theorem prepend (second : JsonAsked after later) (same : after = before) :
    JsonAsked before later := by
  rw [← same]
  exact second

theorem detach (json : JsonFields) (dead : ∀ address, json.transcriptionJsonWorker = some address →
    (json.workers.get address).isAlive = false) :
    JsonAsked json { json with jsonThreadStopped := true, transcriptionJsonWorker := none } :=
  ⟨⟨rfl, fun _ => .refl _⟩, .inr ⟨rfl, dead⟩⟩

theorem set (json : JsonFields) {address : Nat} {worker : TranscriptionJsonWorker}
    (same : SameWriter (json.workers.get address) worker) :
    JsonAsked json { json with workers := json.workers.set address worker } :=
  ⟨.set json same, .inl ⟨rfl, rfl⟩⟩

end JsonAsked

/-- A new JSON worker of this session in the field. -/
def madeJson (json : JsonFields) (session : Text) : JsonFields :=
  { json with
    transcriptionJsonWorker := some json.workers.count
    jsonThreadStopped := false
    workers := json.workers.create (TranscriptionJsonWorker.new session).start }

section Methods

namespace World

variable (world : World Sample) (env : Environment)

theorem requestJsonThreadStop_json : JsonAsked world.json world.requestJsonThreadStop.json := by
  unfold requestJsonThreadStop
  simp only
  split
  · rename_i free
    rw [(finishIdleWorkIfPossible_frame _).2.2.2.1]
    refine .detach world.json fun address stored => ?_
    rw [free] at stored
    cases stored
  · rename_i address held
    have same := SameWriter.requestStop (world.json.workers.get address)
    have asked := JsonAsked.set world.json same
    split
    · exact asked
    · rename_i dead
      rw [(finishIdleWorkIfPossible_frame _).2.2.2.1]
      refine asked.trans (.detach _ fun other stored => ?_)
      rw [held] at stored
      cases stored
      -- `requestStop` has found no thread
      have gone : (world.json.workers.get address).isAlive = false := by
        cases alive : (world.json.workers.get address).isAlive with
        | false => rfl
        | true =>
          have thread : (world.json.workers.get address).workerThread = true := alive
          simp [TranscriptionJsonWorker.requestStop, thread] at dead
      refine Eq.trans ?_ gone
      exact Objects.set_get_view _ _ address address TranscriptionJsonWorker.isAlive same.alive

private theorem endRecording_json : JsonAsked world.json (world.endRecording env).json := by
  have closed : (world.releaseMediaProjection.closeAudioFile true env).json = world.json := by
    simp
  unfold endRecording
  simp only
  split
  · exact .of_eq closed
  · split
    · exact .of_eq (by rw [(drainTranscription_frame _ _).2.2.2.1, closed])
    · exact .prepend (requestJsonThreadStop_json _) closed

theorem finishRecordThread_json : JsonAsked world.json (world.finishRecordThread env).json := by
  rcases world.finishRecordThread_cases env with
    ⟨_, _, _, resumed⟩ | ⟨_, _, paused⟩ | ⟨_, ended⟩
  · rw [resumed]
    exact .of_eq (startRecordingWorkerForSession_frame world.detachRecorder env).2.1
  · rw [paused]
    exact .refl _
  · rw [ended]
    exact .prepend (endRecording_json _ env) rfl

theorem requestRecordThreadStop_json :
    JsonAsked world.json (world.requestRecordThreadStop env).json := by
  unfold requestRecordThreadStop
  split
  · exact finishRecordThread_json world env
  · simp only
    split
    · exact .refl _
    · exact .prepend (finishRecordThread_json _ env) rfl

theorem requestStopRecording_json : JsonAsked world.json (world.requestStopRecording env).json := by
  unfold requestStopRecording
  split
  · exact .refl _
  · simp only
    split
    · exact .prepend (requestRecordThreadStop_json _ env) rfl
    · exact .prepend (finishRecordThread_json _ env) rfl

private theorem requestPauseRecording_json :
    JsonAsked world.json (world.requestPauseRecording env).json := by
  unfold requestPauseRecording
  split
  · exact .refl _
  · exact .prepend (requestRecordThreadStop_json _ env) rfl

private theorem requestResumeRecording_json :
    JsonAsked world.json (world.requestResumeRecording env).json := by
  unfold requestResumeRecording
  split
  · exact .refl _
  · split
    · exact .refl _
    · exact .of_eq (startRecordingWorkerForSession_frame world env).2.1

theorem stopInferenceIfNotRecording_json :
    JsonAsked world.json world.stopInferenceIfNotRecording.json := by
  unfold stopInferenceIfNotRecording
  simp only
  split
  · split
    · exact .of_eq (drainTranscription_frame _ _).2.2.2.1
    · exact .prepend (requestJsonThreadStop_json _) rfl
  · exact .prepend (requestJsonThreadStop_json _) rfl

private theorem openSession_json (time : Text) (bufferSize : Nat) :
    JsonAsked world.json (world.openSession time bufferSize env).json := by
  have created : ((world.activateSession time).createRecorder bufferSize env).1.json =
      world.json := by
    simp [activateSession]
  unfold openSession
  simp only
  split
  · exact .prepend (stopInferenceIfNotRecording_json _) (by simpa using created)
  · exact .of_eq created

variable [Inhabited Sample]

/-- The id that `startInferencePipeline` gives to its workers. -/
def pipelineSession (world : World Sample) (sessionTimeData : Text) : Text :=
  world.session.recordingSessionId.getD (sessionId sessionPurpose sessionTimeData)

/-- A pipeline gets a new JSON worker exactly when the field is null. -/
theorem startInferencePipeline_json (time : Text) :
    (world.startInferencePipeline time).json = world.json ∨
    world.json.transcriptionJsonWorker = none ∧
      (world.startInferencePipeline time).json = madeJson world.json (world.pipelineSession time) := by
  unfold startInferencePipeline
  simp only
  split
  · exact .inl rfl
  · rename_i free
    exact .inr ⟨free, rfl⟩

theorem ensureInferenceAccepting_json (time : Text) :
    (world.ensureInferenceAccepting time).1.json = world.json ∨
    world.liveTranscription = none ∧ world.json.transcriptionJsonWorker = none ∧
      (world.ensureInferenceAccepting time).1.json =
        madeJson world.json (world.pipelineSession time) := by
  unfold ensureInferenceAccepting
  split
  · rename_i gone
    rcases world.startInferencePipeline_json time with same | ⟨free, made⟩
    · exact .inl same
    · exact .inr ⟨gone, free, made⟩
  · split
    · exact .inl (drainTranscription_frame _ _).2.2.2.1
    · exact .inl rfl

private theorem prepareSession_json :
    JsonAsked world.json (world.prepareSession env).json ∨
    world.liveTranscription = none ∧ world.json.transcriptionJsonWorker = none ∧
      JsonAsked (madeJson world.json (sessionId sessionPurpose (world.nextSessionTime env)))
        (world.prepareSession env).json := by
  have ensured := (world.nameSession env).ensureInferenceAccepting_json (world.nextSessionTime env)
  have rest : JsonAsked ((world.nameSession env).ensureInferenceAccepting
      (world.nextSessionTime env)).1.json (world.prepareSession env).json := by
    rcases world.prepareSession_cases env with
      ⟨_, waits⟩ | ⟨_, ready, prepared, _, givenUp⟩ | ⟨_, ready, bufferSize, prepared, _, _, opened⟩
    · rw [waits]
      exact .refl _
    · rw [givenUp]
      exact .prepend (stopInferenceIfNotRecording_json ready) prepared.json
    · rw [opened]
      exact .prepend (openSession_json ready env _ bufferSize) prepared.json
  rcases ensured with same | ⟨gone, free, made⟩
  · exact .inl (.prepend rest same)
  · exact .inr ⟨gone, free, .prepend rest made⟩

private theorem startRecordingInternal_json :
    JsonAsked world.json (world.startRecordingInternal env).json ∨
    (world.preparesSession env = true ∧ world.liveTranscription = none) ∧
      world.json.transcriptionJsonWorker = none ∧
      JsonAsked (madeJson world.json (sessionId sessionPurpose (world.nextSessionTime env)))
        (world.startRecordingInternal env).json := by
  rcases world.startRecordingInternal_cases env with
    ⟨prepares, prepared⟩ | ⟨_, start, message, later⟩ |
      ⟨_, _, _, _, setup, screen, message, reason, _, givenUp⟩
  · rw [prepared]
    rcases prepareSession_json (world.loadSettings env) env with kept | ⟨gone, free, made⟩
    · exact .inl kept
    · exact .inr ⟨⟨prepares, gone⟩, free, made⟩
  · rw [later]
    exact .inl (.refl _)
  · rw [givenUp]
    exact .inl (.refl _)

private theorem onWhisperStopped_json (event : ThreadStoppedEvent) :
    JsonAsked world.json (world.onWhisperStopped event).json ∨
    (world.session.sessionEndRequested = false ∧ world.pending.pendingInferenceResume = true ∧
      world.session.sessionActive = true) ∧ world.json.transcriptionJsonWorker = none ∧
      JsonAsked (madeJson world.json
        (world.pipelineSession (world.session.recordingTimeData.getD [])))
        (world.onWhisperStopped event).json := by
  unfold onWhisperStopped
  simp only
  split
  · exact .inl (.prepend (requestJsonThreadStop_json _) rfl)
  · rename_i unfinished
    split
    · rename_i resumed
      obtain ⟨pending, active⟩ := Bool.and_eq_true_iff.mp resumed
      rcases startInferencePipeline_json
        { world with
          inference := { world.inference with
            inferenceFailed := world.inference.inferenceFailed || event.hasError
            whisperThreadStopped := true
            transcriptionWorker := none }
          session := { world.session with inferenceAlive := false, inferenceAccepting := false }
          pending := { world.pending with pendingInferenceResume := false } }
        (world.session.recordingTimeData.getD []) with same | ⟨free, made⟩
      · exact .inl (.of_eq same)
      · refine .inr ⟨⟨by simpa using unfinished, pending, active⟩, free, .of_eq made⟩
    · exact .inl (.refl _)

private theorem requestResumeInference_json :
    JsonAsked world.json world.requestResumeInference.json ∨
    (world.session.sessionActive = true ∧ world.liveTranscription = none) ∧
      world.json.transcriptionJsonWorker = none ∧
      JsonAsked (madeJson world.json
        (world.pipelineSession (world.session.recordingTimeData.getD [])))
        world.requestResumeInference.json := by
  unfold requestResumeInference
  split
  · exact .inl (.refl _)
  · rename_i active
    have ensured := ensureInferenceAccepting_json
      { world with pending := { world.pending with pendingInferenceResume := true } }
      (world.session.recordingTimeData.getD [])
    simp only
    rcases ensured with same | ⟨gone, free, made⟩
    · refine .inl ?_
      split <;> exact .of_eq same
    · refine .inr ⟨⟨by simpa using active, gone⟩, free, ?_⟩
      split <;> exact .of_eq made

end World

end Methods

section Steps

variable [Inhabited Sample] {world after : World Sample} {label : Label Sample}

omit [Inhabited Sample] in
private theorem inferenceAdvance_json {address : Nat} {answer : Inference}
    (taken : world.inferenceAdvance address answer = some after) :
    JsonAsked world.json after.json := by
  unfold inferenceAdvance at taken
  simp only at taken
  split at taken
  · obtain ⟨_, _, rfl⟩ := Option.map_eq_some_iff.mp taken
    exact .refl _
  · split at taken
    · cases taken
      exact .refl _
    · split at taken
      · cases taken
        exact .refl _
      · split at taken <;> cases taken <;> exact .refl _
  · cases taken
    exact .refl _
  · cases taken
    exact .refl _
  · rename_i event target _
    cases taken
    cases target with
    | none => exact .refl _
    | some target => exact .set world.json (.submit _ event)

/-- The session for which a step starts an inference pipeline. -/
def startsPipeline (world : World Sample) : Label Sample → Option Text
  | .startRecordingInternal env =>
    if world.preparesSession env && world.liveTranscription.isNone then
      some (sessionId sessionPurpose (world.nextSessionTime env))
    else none
  | .intent .resumeInference _ =>
    if world.session.sessionActive && world.liveTranscription.isNone then
      some (world.pipelineSession (world.session.recordingTimeData.getD []))
    else none
  | .whisperStopped address _ =>
    if !world.life.destroyed && belongsTo world.inference.inferenceSessionId
          (whisperStoppedEvent (world.inference.threads.get address).worker)
        && !world.session.sessionEndRequested && world.pending.pendingInferenceResume
        && world.session.sessionActive then
      some (world.pipelineSession (world.session.recordingTimeData.getD []))
    else none
  | _ => none

/-- A step of the service keeps the JSON workers as they are, or it makes one
for the pipeline that it starts, or it lets go of whatever is in the field
because a worker has reported its stop. -/
theorem step_json (taken : step world label = some after) :
    JsonAsked world.json after.json ∨
    (∃ session, startsPipeline world label = some session ∧
      world.json.transcriptionJsonWorker = none ∧
      JsonAsked (madeJson world.json session) after.json) ∨
    (∃ address answer, label = .json address answer) ∨
    (∃ address env, label = .jsonStopped address env ∧ JsonStopMatches world address) ∧
      JsonKept world.json after.json ∧ after.json.transcriptionJsonWorker = none := by
  cases label with
  | intent action env =>
    simp only [step] at taken
    split at taken <;> cases taken
    cases action with
    | start request => exact .inl (.of_eq (onStart_frame world env request).2.2.1)
    | stop => exact .inl (requestStopRecording_json world env)
    | pauseRecording => exact .inl (requestPauseRecording_json world env)
    | resumeRecording => exact .inl (requestResumeRecording_json world env)
    | stopFileTranscription => exact .inl (.of_eq (by simp [onStartCommand]))
    | stopInference => exact .inl (.of_eq (by simp [onStartCommand]))
    | transcribeFile uri => exact .inl (.of_eq (by simp [onStartCommand]))
    | resumeInference =>
      rcases requestResumeInference_json world with kept | ⟨⟨active, gone⟩, free, made⟩
      · exact .inl kept
      · exact .inr (.inl ⟨_, by simp [startsPipeline, active, gone], free, made⟩)
  | startRecordingInternal env =>
    simp only [step] at taken
    split at taken <;> cases taken
    have outcome := startRecordingInternal_json
      { world with life := { world.life with startThreads := world.life.startThreads - 1 } } env
    rcases outcome with kept | ⟨⟨prepares, gone⟩, free, made⟩
    · exact .inl kept
    · refine .inr (.inl ⟨_, ?_, free, made⟩)
      have ready : world.preparesSession env = true := prepares
      have none : world.liveTranscription = none := gone
      simp only [startsPipeline, ready, none]
      rfl
  | projectionStopped env =>
    simp only [step] at taken
    split at taken
    · cases taken
    · split at taken <;> cases taken
      · exact .inl (.prepend (requestStopRecording_json _ env) rfl)
      · exact .inl (.refl _)
  | destroy env =>
    simp only [step] at taken
    split at taken <;> cases taken
    exact .inl (.of_eq (onDestroy_frame world env).2.2.2.1)
  | recorder address answer =>
    exact .inl (.of_eq (recorderAdvance_frame taken).2.2.2.1)
  | recorderThrows address message =>
    simp only [step] at taken
    split at taken <;> cases taken
    exact .inl (.refl _)
  | recordStopped address env =>
    obtain ⟨_, ⟨_, rfl⟩ | ⟨_, rfl⟩⟩ := recordStopped_cases taken
    · exact .inl (.prepend (finishRecordThread_json _ env) rfl)
    · exact .inl (.refl _)
  | inference address answer => exact .inl (inferenceAdvance_json taken)
  | whisperStopped address env =>
    obtain ⟨_, ⟨⟨kept, matching⟩, rfl⟩ | ⟨_, rfl⟩⟩ := whisperStopped_cases taken
    · rcases onWhisperStopped_json (world.retireThread address)
        (whisperStoppedEvent (world.inference.threads.get address).worker) with
        same | ⟨⟨unfinished, pending, active⟩, free, made⟩
      · exact .inl same
      · refine .inr (.inl ⟨_, ?_, free, made⟩)
        have open_ : world.session.sessionEndRequested = false := unfinished
        have resume : world.pending.pendingInferenceResume = true := pending
        have running : world.session.sessionActive = true := active
        simp only [startsPipeline, kept, matching, open_, resume, running]
        rfl
    · exact .inl (.refl _)
  | json address answer => exact .inr (.inr (.inl ⟨address, answer, rfl⟩))
  | jsonStopped address env =>
    obtain ⟨⟨errorMessage, ended⟩, outcome⟩ := jsonStopped_cases taken
    have retired : JsonAsked world.json (world.retireJson address).json :=
      .set world.json (.stopped ended)
    obtain ⟨matching, rfl⟩ | ⟨_, rfl⟩ := outcome
    · right
      right
      right
      rw [(finishIdleWorkIfPossible_frame _).2.2.2.1]
      exact ⟨⟨address, env, rfl, matching⟩, ⟨rfl, retired.workers⟩, rfl⟩
    · exact .inl retired
  | file address report =>
    exact .inl (.of_eq (fileAdvance_frame taken).2.2.2.2.1)
  | fileComplete address =>
    exact .inl (.of_eq (fileComplete_frame taken).2.2.2.1)

end Steps

end LocalWhisper.Service
