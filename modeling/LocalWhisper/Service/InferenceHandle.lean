import LocalWhisper.Service.Pipeline
import LocalWhisper.Service.RecorderHandle

/-! Which inference worker the field `transcriptionWorker` holds. A worker that
has just died can be replaced before its stop event is delivered, and the event
then detaches the replacement, because both carry the id of the session. -/

namespace LocalWhisper.Service

open LocalWhisper.Machine LocalWhisper.Record LocalWhisper.Transcription

variable {Sample : Type}

/-- The worker at an address was started and its `run` has not finished. -/
def InferenceFields.alive (fields : InferenceFields Sample) (address : Nat) : Bool :=
  (fields.threads.get address).worker.isAlive

/-- Every live worker is the one that the service can reach, and there is one
to reach while audio is handed on. -/
structure TranscriptionHeld (world : World Sample) : Prop where
  live : ∀ address, world.inference.alive address = true →
    world.inference.transcriptionWorker = some address
  accepting : world.session.inferenceAccepting = true →
    ∃ address, world.inference.transcriptionWorker = some address

/-- The same workers are alive, the same one is held, and audio is handed on
only where it was before or where there is a worker for it. -/
structure SameWorkers (before after : World Sample) : Prop where
  held : after.inference.transcriptionWorker = before.inference.transcriptionWorker
  alive : ∀ address, after.inference.alive address = before.inference.alive address
  accepting : after.session.inferenceAccepting = true →
    before.session.inferenceAccepting = true ∨
      ∃ address, before.inference.transcriptionWorker = some address

namespace SameWorkers

variable {before after later : World Sample}

theorem keeps (same : SameWorkers before after) (held : TranscriptionHeld before) :
    TranscriptionHeld after := by
  refine ⟨?_, ?_⟩
  · intro address alive
    rw [same.held]
    exact held.live address ((same.alive address).symm.trans alive)
  · intro accepting
    rw [same.held]
    exact (same.accepting accepting).elim held.accepting id

theorem of_kept (kept : PipelineKept before after) : SameWorkers before after := by
  refine ⟨by rw [kept.fields], ?_, kept.accepting⟩
  intro address
  have asked := kept.threads address
  unfold InferenceFields.alive
  rcases asked with same | stopped
  · rw [same]
  · rw [stopped]
    rfl

theorem trans (first : SameWorkers before after) (second : SameWorkers after later) :
    SameWorkers before later := by
  refine ⟨second.held.trans first.held, fun address =>
    (second.alive address).trans (first.alive address), ?_⟩
  intro accepting
  rcases second.accepting accepting with earlier | there
  · exact first.accepting earlier
  · rw [first.held] at there
    exact .inr there

/-- A change that leaves the group `inference` alone. -/
theorem of_frame (same : after.inference = before.inference)
    (accepting : after.session.inferenceAccepting = true →
      before.session.inferenceAccepting = true) : SameWorkers before after :=
  ⟨by rw [same], fun address => by rw [same], fun set => .inl (accepting set)⟩

/-- What was kept before such a change is kept after it. -/
theorem append (first : SameWorkers before after)
    (same : later.inference = after.inference)
    (accepting : later.session.inferenceAccepting = true →
      after.session.inferenceAccepting = true) : SameWorkers before later :=
  first.trans (of_frame same accepting)

theorem of_setThread (world : World Sample) (address : Nat) (thread : InferenceThread Sample)
    (same : thread.worker.workerThread =
      (world.inference.threads.get address).worker.workerThread) :
    SameWorkers world (world.setThread address thread) := by
  refine ⟨rfl, ?_, .inl⟩
  intro index
  exact Objects.set_get_view _ thread address index
    (fun other : InferenceThread Sample => other.worker.workerThread) same

end SameWorkers

theorem PipelineKept.keeps {before after : World Sample} (kept : PipelineKept before after)
    (held : TranscriptionHeld before) : TranscriptionHeld after :=
  (SameWorkers.of_kept kept).keeps held

theorem TranscriptionHeld.of_frame {before after : World Sample} (held : TranscriptionHeld before)
    (same : after.inference = before.inference)
    (accepting : after.session.inferenceAccepting = true →
      before.session.inferenceAccepting = true) : TranscriptionHeld after :=
  (SameWorkers.of_frame same accepting).keeps held

namespace World

variable (world : World Sample) (env : Environment)

private theorem onStart_workers (request : Option RecordingRequest) :
    SameWorkers world (world.onStart request env) := by
  have read : SameWorkers world (world.readRecordingRequest request) := by
    unfold readRecordingRequest
    split <;> exact .of_frame rfl id
  unfold onStart
  simp only
  split
  · exact read.trans (.of_frame rfl id)
  · exact read.trans ⟨rfl, fun _ => rfl, .inl⟩

private theorem openSession_workers (time : Text) (bufferSize : Nat) :
    SameWorkers world (world.openSession time bufferSize env) := by
  unfold openSession
  simp only
  split
  · refine .trans ?_ (.of_kept (stopInferenceIfNotRecording_kept _))
    have closed := SameWorkers.of_kept <| closeAudioFile_kept
      ((world.activateSession time).createRecorder bufferSize env).1.releaseMediaProjection env false
    exact ⟨closed.held, closed.alive, closed.accepting⟩
  · exact .of_frame rfl id

/-- With nothing alive in the field, nothing is alive at all. -/
theorem dead_of_no_liveTranscription (held : TranscriptionHeld world)
    (none : world.liveTranscription = none) (address : Nat) :
    world.inference.alive address = false := by
  cases alive : world.inference.alive address with
  | false => rfl
  | true =>
    have stored := held.live address alive
    have there : (world.inference.threads.get address).worker.isAlive = true := alive
    simp [liveTranscription, stored, there] at none

theorem lt_count_of_alive {address : Nat} (alive : world.inference.alive address = true) :
    address < world.inference.threads.count := by
  apply world.inference.threads.lt_count_of_used
  intro unmade
  exact Bool.noConfusion (unmade.workerThread.symm.trans alive)

section Pipeline

variable [Inhabited Sample]

theorem startInferencePipeline_held (time : Text)
    (dead : ∀ address, world.inference.alive address = false) :
    TranscriptionHeld (world.startInferencePipeline time) := by
  refine ⟨?_, fun _ => ⟨_, rfl⟩⟩
  intro address alive
  by_cases new : address = world.inference.threads.count
  · rw [new]
    rfl
  · have old : (world.startInferencePipeline time).inference.alive address =
        world.inference.alive address :=
      congrArg (fun thread : InferenceThread Sample => thread.worker.isAlive)
        (Objects.create_get_of_ne _ _ new)
    rw [old, dead] at alive
    cases alive

theorem ensureInferenceAccepting_held (time : Text) (held : TranscriptionHeld world) :
    TranscriptionHeld (world.ensureInferenceAccepting time).1 := by
  unfold ensureInferenceAccepting
  split
  · rename_i none
    exact startInferencePipeline_held world time (dead_of_no_liveTranscription world held none)
  · rename_i address live
    split
    · exact (drainTranscription_kept world address).keeps held
    · have resumed := SameWorkers.of_setThread world address
        { world.inference.threads.get address with
          worker := (world.inference.threads.get address).worker.resumeAudioSubmission.1 }
        (WhisperTranscriptionWorker.resumeAudioSubmission_workerThread _)
      exact SameWorkers.keeps ⟨resumed.held, resumed.alive,
        fun _ => .inr ⟨address, (Option.filter_eq_some_iff.mp live).1⟩⟩ held

private theorem prepareSession_transcription (held : TranscriptionHeld world) :
    TranscriptionHeld (world.prepareSession env) := by
  have named : TranscriptionHeld (world.nameSession env) := held.of_frame rfl id
  have ensured := ensureInferenceAccepting_held _ (world.nextSessionTime env) named
  have ready {other : World Sample} (prepared : Prepared
      ((world.nameSession env).ensureInferenceAccepting (world.nextSessionTime env)).1 other) :
      TranscriptionHeld other :=
    TranscriptionHeld.of_frame ensured prepared.inference (by rw [prepared.session]; exact id)
  rcases world.prepareSession_cases env with
    ⟨_, waits⟩ | ⟨_, other, prepared, _, given⟩ | ⟨_, other, _, prepared, _, _, opened⟩
  · rw [waits]
    exact ensured.of_frame rfl id
  · rw [given]
    exact (stopInferenceIfNotRecording_kept other).keeps (ready prepared)
  · rw [opened]
    exact (openSession_workers other env _ _).keeps (ready prepared)

private theorem startRecordingInternal_transcription (held : TranscriptionHeld world) :
    TranscriptionHeld (world.startRecordingInternal env) := by
  unfold startRecordingInternal
  split
  · exact held.of_frame rfl id
  · split
    · exact held.of_frame rfl id
    · split
      · exact held.of_frame rfl id
      · split
        · exact held.of_frame rfl nofun
        · simp only
          split
          · exact held.of_frame rfl nofun
          · exact prepareSession_transcription _ env (held.of_frame rfl id)

private theorem requestResumeInference_held (held : TranscriptionHeld world) :
    TranscriptionHeld world.requestResumeInference := by
  unfold requestResumeInference
  split
  · exact held.of_frame rfl id
  · have ensured := ensureInferenceAccepting_held { world with pending := { world.pending with
      pendingInferenceResume := true } } (world.session.recordingTimeData.getD [])
      (held.of_frame rfl id)
    simp only
    split
    · exact ensured.of_frame rfl id
    · exact ensured.of_frame rfl id

private theorem onStartCommand_transcription (action : Intent) (held : TranscriptionHeld world) :
    TranscriptionHeld (world.onStartCommand action env) := by
  cases action with
  | start request => exact (onStart_workers world env request).keeps held
  | stop => exact (requestStopRecording_kept world env).keeps held
  | pauseRecording => exact (requestPauseRecording_kept world env).keeps held
  | resumeRecording => exact (requestResumeRecording_kept world env).keeps held
  | stopFileTranscription => exact (requestStopFileTranscription_kept world).keeps held
  | stopInference => exact (requestStopInference_kept world).keeps held
  | resumeInference => exact requestResumeInference_held world held
  | transcribeFile uri => exact (enqueueSelectedFile_kept world env uri).keeps held

private theorem onWhisperStopped_held (event : ThreadStoppedEvent)
    (dead : ∀ address, world.inference.alive address = false) :
    TranscriptionHeld (world.onWhisperStopped event) := by
  have cleared (other : World Sample) (same : other.inference.threads = world.inference.threads)
      (accepting : other.session.inferenceAccepting = false) : TranscriptionHeld other := by
    refine ⟨fun address alive => ?_, fun set => Bool.noConfusion (accepting.symm.trans set)⟩
    have gone := dead address
    rw [InferenceFields.alive, ← same] at gone
    exact Bool.noConfusion (gone.symm.trans alive)
  unfold onWhisperStopped
  simp only
  split
  · exact (requestJsonThreadStop_kept _).keeps (cleared _ rfl rfl)
  · split
    · exact TranscriptionHeld.of_frame (startInferencePipeline_held _ _ dead) rfl id
    · exact cleared _ rfl rfl

/-- The branch for inference workers changes no worker that exists, and the
field no longer holds any of them. -/
theorem onWhisperStopped_detaches (event : ThreadStoppedEvent) {address : Nat}
    (created : address < world.inference.threads.count) :
    (world.onWhisperStopped event).inference.alive address = world.inference.alive address ∧
      (world.onWhisperStopped event).inference.transcriptionWorker ≠ some address := by
  unfold onWhisperStopped
  simp only
  split
  · rw [(requestJsonThreadStop_frame _).2.2.1]
    exact ⟨rfl, nofun⟩
  · split
    · refine ⟨congrArg (fun thread : InferenceThread Sample => thread.worker.isAlive)
        (Objects.create_get_of_ne _ _ (by exact Nat.ne_of_lt created)), ?_⟩
      intro here
      exact Nat.lt_irrefl address ((Option.some.inj here) ▸ created)
    · exact ⟨rfl, nofun⟩

end Pipeline

private theorem recorderAdvance_workers {world after : World Sample} {address : Nat}
    {answer : RecorderAnswer Sample} (taken : world.recorderAdvance address answer = some after) :
    SameWorkers world after := by
  cases place : (world.recorder.workers.get address).phase <;>
    simp only [recorderAdvance, place] at taken
  case created | ended | stopped => cases taken
  case reading =>
    split at taken
    · cases taken
      exact .of_frame rfl id
    · split at taken <;> cases taken
      exact .of_frame rfl id
  case closingFile chunk =>
    cases taken
    exact .append (.of_kept (closeAudioFile_kept world answer.env false)) rfl id
  case offering chunk target =>
    cases taken
    refine .append (.of_setThread world target { world.inference.threads.get target with
      worker := ((world.inference.threads.get target).worker.submit chunk).worker } ?_) rfl id
    exact WhisperTranscriptionWorker.submit_workerThread _ chunk
  case arrived chunk =>
    cases taken
    exact ⟨rfl, fun _ => rfl, .inl⟩
  all_goals
    cases taken
    exact .of_frame rfl id

private theorem inferenceAdvance_transcription {world after : World Sample} {address : Nat}
    {answer : Inference} (held : TranscriptionHeld world)
    (taken : world.inferenceAdvance address answer = some after) : TranscriptionHeld after := by
  have handled (other : World Sample) (handling : Handling) (kept : TranscriptionHeld other) :
      TranscriptionHeld (other.setThread address
        { other.inference.threads.get address with handling }) := by
    refine (SameWorkers.of_setThread other address
      { other.inference.threads.get address with handling } ?_).keeps kept
    rfl
  unfold inferenceAdvance at taken
  simp only at taken
  split at taken
  · obtain ⟨⟨worker, reports⟩, advanced, rfl⟩ := Option.map_eq_some_iff.mp taken
    refine ⟨?_, held.accepting⟩
    intro index alive
    apply held.live
    simp only [InferenceFields.alive, Objects.set_get] at alive ⊢
    split at alive
    · rename_i here
      rw [here.1]
      exact WhisperTranscriptionWorker.advance_alive advanced alive
    · exact alive
  · split at taken
    · cases taken
      exact handled world _ held
    · split at taken
      · cases taken
        exact handled (world.showFileEvent _) _ (held.of_frame rfl id)
      · split at taken <;> cases taken <;> exact handled world _ held
  · cases taken
    exact handled { world with inference := { world.inference with
      nextInferenceSequence := _ } } _ ⟨held.live, held.accepting⟩
  · cases taken
    exact handled world _ held
  · cases taken
    rename_i event jsonWorker _
    have shown : TranscriptionHeld ((world.submitJson jsonWorker event).showLiveEvent event) := by
      have submitted : TranscriptionHeld (world.submitJson jsonWorker event) :=
        held.of_frame (by simp) (by simp)
      exact ⟨submitted.live, submitted.accepting⟩
    have same : (world.submitJson jsonWorker event).inference = world.inference := by simp
    rw [← same]
    exact handled ((world.submitJson jsonWorker event).showLiveEvent event) _ shown

end World

open World

/-- The step delivers no matching stop event while the field holds a worker
that is alive. -/
def SparesLiveWorker (world : World Sample) : Label Sample → Prop
  | .whisperStopped address _ =>
    WhisperStopMatches world address → world.liveTranscription = none
  | _ => True

variable [Inhabited Sample] {world after : World Sample} {label : Label Sample}

private theorem whisperStopped_held_iff {address : Nat} {env : Environment}
    (held : TranscriptionHeld world) (taken : world.whisperStopped address env = some after) :
    TranscriptionHeld after ↔ (WhisperStopMatches world address → world.liveTranscription = none) := by
  have retired : SameWorkers world (world.retireThread address) := .of_setThread _ _ _ rfl
  obtain ⟨_, ⟨matching, rfl⟩ | ⟨ignored, rfl⟩⟩ := whisperStopped_cases taken
  · constructor
    · intro kept _
      cases live : world.liveTranscription with
      | none => rfl
      | some running =>
        obtain ⟨stored, alive⟩ := Option.filter_eq_some_iff.mp live
        have created : running < world.inference.threads.count := lt_count_of_alive world alive
        obtain ⟨same, lost⟩ := (world.retireThread address).onWhisperStopped_detaches
          (whisperStoppedEvent (world.inference.threads.get address).worker) created
        refine absurd (kept.live running ?_) lost
        rw [same, retired.alive]
        exact alive
    · intro spared
      apply onWhisperStopped_held
      intro index
      rw [retired.alive]
      exact dead_of_no_liveTranscription world held (spared matching) index
  · constructor
    · intro _ matching
      exact absurd matching ignored
    · intro _
      exact retired.keeps held

/-- One step keeps the handle of every live worker exactly if it delivers no
stop event over a live one. -/
theorem step_transcription_iff (held : TranscriptionHeld world)
    (taken : step world label = some after) :
    TranscriptionHeld after ↔ SparesLiveWorker world label := by
  cases label with
  | whisperStopped address env => exact whisperStopped_held_iff held taken
  | intent action env =>
    simp only [SparesLiveWorker, iff_true]
    simp only [step] at taken
    split at taken <;> cases taken
    exact onStartCommand_transcription world env action held
  | startRecordingInternal env =>
    simp only [SparesLiveWorker, iff_true]
    simp only [step] at taken
    split at taken <;> cases taken
    exact startRecordingInternal_transcription _ env (held.of_frame rfl id)
  | projectionStopped env =>
    simp only [SparesLiveWorker, iff_true]
    simp only [step] at taken
    split at taken
    · cases taken
    · split at taken <;> cases taken
      · exact (requestStopRecording_kept _ env).keeps (held.of_frame rfl id)
      · exact held
  | destroy env =>
    simp only [SparesLiveWorker, iff_true]
    simp only [step] at taken
    split at taken <;> cases taken
    refine held.of_frame (onDestroy_frame world env).2.2.1 ?_
    intro works
    exact absurd works Bool.false_ne_true
  | recorder address answer =>
    simp only [SparesLiveWorker, iff_true]
    exact (recorderAdvance_workers taken).keeps held
  | recorderThrows address message =>
    simp only [SparesLiveWorker, iff_true]
    simp only [step] at taken
    split at taken <;> cases taken
    exact held.of_frame rfl id
  | recordStopped address env =>
    simp only [SparesLiveWorker, iff_true]
    obtain ⟨_, ⟨_, rfl⟩ | ⟨_, rfl⟩⟩ := recordStopped_cases taken
    · exact (finishRecordThread_kept _ env).keeps (held.of_frame rfl id)
    · exact held.of_frame rfl id
  | inference address answer =>
    simp only [SparesLiveWorker, iff_true]
    exact inferenceAdvance_transcription held taken
  | json address answer =>
    simp only [SparesLiveWorker, iff_true]
    have frame := jsonAdvance_frame taken
    exact held.of_frame frame.2.2.2.1 (by rw [frame.1]; exact id)
  | jsonStopped address env =>
    simp only [SparesLiveWorker, iff_true]
    obtain ⟨_, ⟨_, rfl⟩ | ⟨_, rfl⟩⟩ := jsonStopped_cases taken
    · exact (finishIdleWorkIfPossible_kept _).keeps (held.of_frame rfl id)
    · exact held.of_frame rfl id
  | file address report =>
    simp only [SparesLiveWorker, iff_true]
    have frame := fileAdvance_frame taken
    exact held.of_frame frame.2.2.2.1 (by rw [frame.1]; exact id)
  | fileComplete address =>
    simp only [SparesLiveWorker, iff_true]
    simp only [step, fileComplete] at taken
    split at taken <;> cases taken
    exact (onRetranscriptionComplete_kept _).keeps (held.of_frame rfl id)

/-- In every run, every live inference worker is the one in
`transcriptionWorker`, and there is one while audio is handed on, in every
state exactly if no step delivers a matching stop event over a live one. -/
theorem transcription_held_iff_spared (labels : List (Label Sample)) :
    Always step TranscriptionHeld (initial : World Sample) labels ↔
      Each step SparesLiveWorker initial labels := by
  apply @always_iff_each _ _ step SparesLiveWorker _ fun _ => True
  · intro _ _ _ _ _ _ _
    trivial
  · intro before after label _ held taken
    exact step_transcription_iff held taken
  · trivial
  · exact ⟨nofun, nofun⟩

/-- Stop the inference, let its worker die, resume before the stop event. -/
def resumeInferenceBeforeStopEvent : List (Label Int) :=
  [.intent (.start none) quietEnvironment,
    .startRecordingInternal quietEnvironment,
    .intent .stopInference quietEnvironment] ++
  advances 0 7 ++
  [.intent .resumeInference quietEnvironment,
    .whisperStopped 0 quietEnvironment]

/-- The second worker is alive and `transcriptionWorker` is null. -/
theorem transcription_handle_lost :
    ¬ ∀ world, Reachable step (initial : World Int) world → TranscriptionHeld world := by
  intro always
  have lost : (execute step (initial : World Int) resumeInferenceBeforeStopEvent).map (fun world =>
      (world.inference.transcriptionWorker, world.inference.alive 1)) = some (none, true) := by
    decide
  obtain ⟨world, run, seen⟩ := Option.map_eq_some_iff.mp lost
  obtain ⟨cleared, alive⟩ := Prod.mk.inj seen
  have held := (always world (.of_execute run)).live 1 alive
  rw [cleared] at held
  cases held

end LocalWhisper.Service
