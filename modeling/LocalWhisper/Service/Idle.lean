import LocalWhisper.Service.JsonHandle
import LocalWhisper.Service.Shutdown

/-! Whether every worker is dead when the service stops itself. The service
looks at its fields and flags only; they tell the truth as long as no stop event
and no completion callback lets go of a live worker. -/

namespace LocalWhisper.Service

open LocalWhisper.Machine LocalWhisper.Record LocalWhisper.Transcription
open LocalWhisper.TransscriptsJSON World

variable {Sample : Type}

/-- No worker of any kind is alive. -/
structure AllDead (world : World Sample) : Prop where
  recorders : ∀ address, (world.recorder.workers.get address).isAlive = false
  inference : ∀ address, (world.inference.threads.get address).worker.isAlive = false
  json : ∀ address, (world.json.workers.get address).isAlive = false
  files : ∀ address, (world.file.workers.get address).isAlive = false

/-- Nor does a request wait. -/
structure AllIdle (world : World Sample) : Prop extends AllDead world where
  queue : world.file.retranscriptionQueue = []

/-- A stop event that the service acts on and a completion callback come when
the field of their kind holds no live worker. -/
def SparesLiveWorkers (world : World Sample) : Label Sample → Prop
  | .recordStopped address _ => RecordStopMatches world address → world.liveRecorder = none
  | .whisperStopped address _ =>
    WhisperStopMatches world address → world.liveTranscription = none
  | .jsonStopped address _ => JsonStopMatches world address → world.liveJson = none
  | .fileComplete _ => world.life.destroyed = false → world.liveFileWorker = none
  | _ => True

/-- No field holds a live worker, and `onDestroy` has let go of none. -/
structure FieldsIdle (world : World Sample) : Prop where
  recorder : world.liveRecorder = none
  transcription : world.liveTranscription = none
  json : world.liveJson = none
  file : world.liveFileWorker = none
  destroyed : world.life.destroyed = true →
    ∀ address, (world.file.workers.get address).isAlive = false

/-- What the code does not look at where it looks for something left: never at
the recorder, and after a file not at the pipeline either. -/
def OverlookedIdle (world : World Sample) : Label Sample → Prop
  | .fileComplete _ => world.liveRecorder = none ∧ world.liveTranscription = none ∧
      world.liveJson = none
  | _ => world.liveRecorder = none

/-- The step detaches no live worker, and it stops the service only when none is
left. -/
structure StopsWhenIdle (world : World Sample) (label : Label Sample) : Prop where
  spares : SparesLiveWorkers world label
  finds : FindsNothingLeft world label → OverlookedIdle world label
  gives : GivesUp world label → FieldsIdle world ∧
    (world.file.retranscriptionQueue = [] ∨ ∃ env, label = .intent .stopFileTranscription env)

/-- Every live JSON worker is the one in the field, and there is none in it
once the thread counts as stopped. -/
structure JsonHeld (json : JsonFields) : Prop where
  live : ∀ address, (json.workers.get address).isAlive = true →
    json.transcriptionJsonWorker = some address
  reported : json.jsonThreadStopped = true → json.transcriptionJsonWorker = none

namespace JsonHeld

variable {before after : JsonFields}

theorem asked (held : JsonHeld before) (asked : JsonAsked before after) : JsonHeld after := by
  refine ⟨fun address alive => ?_, fun stopped => ?_⟩
  · rw [(asked.workers address).alive] at alive
    have stored := held.live address alive
    rcases asked.handle with ⟨same, _⟩ | ⟨_, dead⟩
    · exact same.trans stored
    · exact Bool.noConfusion ((dead address stored).symm.trans alive)
  · rcases asked.handle with ⟨same, flag⟩ | ⟨none, _⟩
    · rw [same]
      exact held.reported (flag.symm.trans stopped)
    · exact none

theorem made (held : JsonHeld before) (free : before.transcriptionJsonWorker = none)
    (session : Text) : JsonHeld (madeJson before session) := by
  refine ⟨fun address alive => ?_, nofun⟩
  by_cases new : address = before.workers.count
  · rw [new]
    rfl
  · have old : (before.workers.get address).isAlive = true := by
      simpa only [madeJson, Objects.create_get_of_ne _ _ new] using alive
    cases free.symm.trans (held.live address old)

end JsonHeld

theorem World.dead_of_no_liveJson {world : World Sample} (held : JsonHeld world.json)
    (none : world.liveJson = none) (address : Nat) :
    (world.json.workers.get address).isAlive = false := by
  cases alive : (world.json.workers.get address).isAlive with
  | false => rfl
  | true =>
    rw [liveJson, Option.filter_eq_none_iff] at none
    exact absurd alive (none address (held.live address alive))

/-- Every live file worker is the one in the field, until `onDestroy` clears it. -/
def FilesHeld (world : World Sample) : Prop :=
  ∀ address, (world.file.workers.get address).isAlive = true →
    world.life.destroyed = true ∨ world.file.retranscriptionWorker = some address

namespace FilesHeld

variable {before after : World Sample}

theorem dead (held : FilesHeld before) (kept : before.life.destroyed = false)
    (none : before.liveFileWorker = none) (address : Nat) :
    (before.file.workers.get address).isAlive = false := by
  cases alive : (before.file.workers.get address).isAlive with
  | false => rfl
  | true =>
    rcases held address alive with gone | stored
    · exact Bool.noConfusion (kept.symm.trans gone)
    · rw [liveFileWorker, Option.filter_eq_none_iff] at none
      exact absurd alive (none address stored)

theorem of_jobs (held : FilesHeld before) (jobs : after.file.jobs = before.file.jobs)
    (destroyed : after.life.destroyed = before.life.destroyed) : FilesHeld after := by
  obtain ⟨field, workers⟩ := Prod.mk.inj jobs
  intro address alive
  rw [workers] at alive
  rw [destroyed, field]
  exact held address alive

theorem of_queue (held : FilesHeld before) (queue : QueueKept before after)
    (destroyed : after.life.destroyed = before.life.destroyed) : FilesHeld after := by
  rcases queue with ⟨jobs, _⟩ | ⟨free, _, request, _, started⟩ | ⟨jobs, _⟩
  · exact held.of_jobs jobs destroyed
  · obtain ⟨field, workers⟩ := Prod.mk.inj started
    intro address alive
    rw [destroyed, field]
    by_cases new : address = before.file.workers.count
    · exact .inr (congrArg some new.symm)
    · left
      rw [workers, Objects.create_get_of_ne _ _ new] at alive
      cases gone : before.life.destroyed with
      | true => rfl
      | false => exact Bool.noConfusion ((held.dead gone free address).symm.trans alive)
  · exact held.of_jobs jobs destroyed

/-- A file worker that is alive only if the one before was takes its place. -/
theorem set (held : FilesHeld before) {address : Nat} {job : WhisperFileTranscriptionWorker}
    (alive : job.isAlive = true → (before.file.workers.get address).isAlive = true)
    (workers : after.file.workers = before.file.workers.set address job)
    (field : after.file.retranscriptionWorker = before.file.retranscriptionWorker)
    (destroyed : after.life.destroyed = before.life.destroyed) : FilesHeld after := by
  intro index lives
  rw [workers, Objects.set_get] at lives
  rw [destroyed, field]
  split at lives
  · rename_i here
    rw [here.1]
    exact held address (alive lives)
  · exact held index lives

end FilesHeld

/-- What the flags of the live pipeline say about the field
`transcriptionWorker`: it is null once the thread counts as stopped, but not
while a session is open that outlives the service. -/
structure PipelineFlags (world : World Sample) : Prop where
  reported : world.inference.whisperThreadStopped = true →
    world.inference.transcriptionWorker = none
  opened : world.life.destroyed = true → world.session.sessionActive = true →
    world.inference.transcriptionWorker ≠ none

namespace PipelineFlags

variable {world before after : World Sample}

theorem of_fields (flags : PipelineFlags before)
    (handle : after.inference.handle = before.inference.handle)
    (destroyed : after.life.destroyed = before.life.destroyed)
    (active : after.session.sessionActive = true → before.session.sessionActive = true) :
    PipelineFlags after := by
  obtain ⟨worker, stopped⟩ := Prod.mk.inj handle
  refine ⟨?_, ?_⟩
  · rw [worker, stopped]
    exact flags.reported
  · rw [worker, destroyed]
    exact fun gone isActive => flags.opened gone (active isActive)

theorem of_kept (flags : PipelineFlags before) (kept : PipelineKept before after)
    (destroyed : after.life.destroyed = before.life.destroyed) : PipelineFlags after := by
  refine flags.of_fields (by rw [kept.fields]; rfl) destroyed ?_
  rcases kept.names with ⟨_, active⟩ | ⟨_, inactive⟩
  · exact active
  · exact fun active => Bool.noConfusion (inactive.symm.trans active)

private theorem of_subscribed (kept : after.life.destroyed = false)
    (reported : after.inference.whisperThreadStopped = true →
      after.inference.transcriptionWorker = none) : PipelineFlags after :=
  ⟨reported, fun gone => Bool.noConfusion (kept.symm.trans gone)⟩

variable [Inhabited Sample] {env : Environment}

theorem ensureInferenceAccepting (flags : PipelineFlags world) (time : Text) :
    PipelineFlags (world.ensureInferenceAccepting time).1 := by
  unfold World.ensureInferenceAccepting
  split
  · exact ⟨nofun, fun _ _ => nofun⟩
  · split
    · exact flags.of_kept (drainTranscription_kept world _) rfl
    · exact flags.of_fields rfl rfl id

theorem prepareSession (flags : PipelineFlags world)
    (destroyed : (world.prepareSession env).life.destroyed = world.life.destroyed) :
    PipelineFlags (world.prepareSession env) := by
  have named : PipelineFlags (world.nameSession env) := flags.of_fields rfl rfl id
  have ensured := named.ensureInferenceAccepting (world.nextSessionTime env)
  have life := (ensureInferenceAccepting_frame (world.nameSession env)
    (world.nextSessionTime env)).2.2.2.2.2.2
  have ready {other : World Sample} (prepared : Prepared
      ((world.nameSession env).ensureInferenceAccepting (world.nextSessionTime env)).1 other) :
      PipelineFlags other ∧ world.life.destroyed = other.life.destroyed := by
    refine ⟨ensured.of_fields ?_ ?_ ?_, ?_⟩
    · rw [prepared.inference]
    · rw [prepared.life]
    · rw [prepared.session]
      exact id
    · rw [prepared.life, life]
      rfl
  rcases world.prepareSession_cases env with
    ⟨_, waits⟩ | ⟨_, other, prepared, _, given⟩ | ⟨accepted, other, _, prepared, _, _, opened⟩
  · rw [waits]
    exact ensured.of_fields rfl rfl id
  · rw [given] at destroyed ⊢
    exact (ready prepared).1.of_kept (stopInferenceIfNotRecording_kept other)
      (destroyed.trans (ready prepared).2)
  · rw [opened] at destroyed ⊢
    -- the session opens on a pipeline that takes audio
    have live := ensureInferenceAccepting_live _ _ accepted
    have served : other.inference.transcriptionWorker ≠ none := by
      rw [prepared.inference]
      intro none
      rw [liveTranscription, none] at live
      exact live rfl
    have active : PipelineFlags (other.activateSession (world.nextSessionTime env)) :=
      ⟨(ready prepared).1.reported, fun _ _ => served⟩
    exact active.of_kept (openSession_kept other env _ _) (destroyed.trans (ready prepared).2)

theorem startRecordingInternal (flags : PipelineFlags world)
    (destroyed : (world.startRecordingInternal env).life.destroyed = world.life.destroyed) :
    PipelineFlags (world.startRecordingInternal env) := by
  rcases world.startRecordingInternal_cases env with
    ⟨_, prepared⟩ | ⟨_, _, _, waits⟩ | ⟨_, _, _, _, _, _, _, _, _, stopped⟩
  · rw [prepared] at destroyed ⊢
    exact PipelineFlags.prepareSession (flags.of_fields rfl rfl id) destroyed
  · rw [waits]
    exact flags.of_fields rfl rfl id
  · rw [stopped]
    exact flags.of_fields rfl rfl nofun

private theorem onWhisperStopped_reported (event : ThreadStoppedEvent)
    (stopped : (world.onWhisperStopped event).inference.whisperThreadStopped = true) :
    (world.onWhisperStopped event).inference.transcriptionWorker = none := by
  unfold World.onWhisperStopped at stopped ⊢
  simp only at stopped ⊢
  split
  · rw [(requestJsonThreadStop_frame _).2.2.1]
  · rename_i unfinished
    rw [if_neg unfinished] at stopped
    split
    · rename_i resumed
      rw [if_pos resumed] at stopped
      cases stopped
    · rfl

end PipelineFlags

/-- Every live worker is within reach, and the flags say so. -/
structure HandlesKept (world : World Sample) : Prop where
  recorders : world.recorder.HeldBy AudioRecordWorker.isAlive
  transcription : TranscriptionHeld world
  json : JsonHeld world.json
  files : FilesHeld world
  flags : PipelineFlags world

section Steps

variable [Inhabited Sample] {world after : World Sample} {label : Label Sample}

private theorem step_recordersHeld (held : world.recorder.HeldBy AudioRecordWorker.isAlive)
    (spares : SparesLiveWorkers world label) (taken : step world label = some after) :
    after.recorder.HeldBy AudioRecordWorker.isAlive := by
  refine (step_heldBy_iff activity_isAlive held taken).mpr ?_
  cases label with
  | recordStopped address env =>
    rintro matching ⟨running, stored, alive⟩
    have none := spares matching
    rw [liveRecorder, Option.filter_eq_none_iff] at none
    exact none running stored alive
  | _ => trivial

private theorem step_transcriptionHeld (held : TranscriptionHeld world)
    (spares : SparesLiveWorkers world label) (taken : step world label = some after) :
    TranscriptionHeld after := by
  refine (step_transcription_iff held taken).mpr ?_
  cases label with
  | whisperStopped address env => exact spares
  | _ => trivial

private theorem step_jsonHeld (held : JsonHeld world.json) (spares : SparesLiveWorkers world label)
    (taken : step world label = some after) : JsonHeld after.json := by
  rcases step_json taken with
    asked | ⟨session, _, free, made⟩ | ⟨address, answer, rfl⟩ | ⟨⟨address, env, rfl, matching⟩, kept, none⟩
  · exact held.asked asked
  · exact (held.made free session).asked made
  · obtain ⟨⟨next, outputs⟩, advanced, rfl⟩ := Option.map_eq_some_iff.mp taken
    refine ⟨fun index alive => ?_, held.reported⟩
    simp only [Objects.set_get] at alive
    split at alive
    · rename_i here
      rw [here.1]
      exact held.live address (advance_alive advanced)
    · exact held.live index alive
  · refine ⟨fun index alive => ?_, fun _ => none⟩
    rw [(kept.workers index).alive] at alive
    exact Bool.noConfusion
      ((dead_of_no_liveJson held (spares matching) index).symm.trans alive)

omit [Inhabited Sample] in
private theorem requestStopFileTranscription_filesHeld (held : FilesHeld world) :
    FilesHeld world.requestStopFileTranscription := by
  unfold requestStopFileTranscription
  simp only
  split
  · rename_i address _
    refine held.set (fun lives => ?_) rfl rfl rfl
    unfold WhisperFileTranscriptionWorker.isAlive WhisperFileTranscriptionWorker.workerThread at lives ⊢
    rwa [WhisperFileTranscriptionWorker.requestStop_phase] at lives
  · exact held.of_jobs rfl rfl

omit [Inhabited Sample] in
private theorem fileComplete_filesHeld {address : Nat} (held : FilesHeld world)
    (spares : SparesLiveWorkers world (.fileComplete address))
    (taken : world.fileComplete address = some after) : FilesHeld after := by
  have retired : FilesHeld (world.retireFile address) := by
    refine held.set (fun lives => ?_) rfl rfl rfl
    cases lives
  rcases fileComplete_cases taken with ⟨_, rfl⟩ | ⟨kept, rfl | rfl⟩
  · exact retired
  all_goals
    have detached : FilesHeld (world.retireFile address).detachFile := by
      intro index lives
      have before : (world.file.workers.get index).isAlive = true := by
        simp only [detachFile, retireFile, Objects.set_get] at lives
        split at lives
        · cases lives
        · exact lives
      exact Bool.noConfusion ((held.dead kept (spares kept) index).symm.trans before)
  · exact detached.of_jobs rfl rfl
  · refine detached.of_queue (startNextRetranscriptionOrStop_queue _) ?_
    rcases fileComplete_stops taken with ⟨_, same⟩ | ⟨_, same, _⟩
    · exact congrArg Prod.fst same
    · exact same

private theorem step_filesHeld (held : FilesHeld world) (spares : SparesLiveWorkers world label)
    (taken : step world label = some after) : FilesHeld after := by
  by_cases files : label.handlesFiles
  · cases label with
    | intent action env =>
      simp only [step] at taken
      split at taken <;> cases taken
      cases action with
      | stopFileTranscription => exact requestStopFileTranscription_filesHeld held
      | _ => cases files
    | destroy env =>
      simp only [step] at taken
      split at taken <;> cases taken
      intro address _
      left
      unfold onDestroy
      simp only
      split <;> simp
    | file address report =>
      simp only [step, fileAdvance] at taken
      split at taken
      any_goals cases taken
      split at taken
      · split at taken
        · cases taken
        · split at taken <;> cases taken <;> exact held.of_jobs rfl rfl
      · cases taken
        refine held.set (fun lives => ?_) rfl rfl rfl
        cases lives
    | fileComplete address => exact fileComplete_filesHeld held spares taken
    | _ => cases files
  · have winds := step_winds taken files
    exact held.of_queue winds.queue winds.destroyed

omit [Inhabited Sample] in
def Label.destroys : Label Sample → Bool
  | .destroy _ => true
  | _ => false

private theorem step_destroyed (taken : step world label = some after)
    (lives : label.destroys = false) : after.life.destroyed = world.life.destroyed := by
  by_cases files : label.handlesFiles
  · cases label with
    | intent action env =>
      simp only [step] at taken
      split at taken <;> cases taken
      cases action with
      | stopFileTranscription =>
        rcases @requestStopFileTranscription_stops _ world with same | ⟨same, _⟩
        · exact congrArg Prod.fst same
        · exact same
      | _ => cases files
    | destroy env => cases lives
    | file address report =>
      exact congrArg LifeFields.destroyed (fileAdvance_frame taken).2.2.2.2.2.2.2
    | fileComplete address =>
      rcases fileComplete_stops taken with ⟨_, same⟩ | ⟨_, same, _⟩
      · exact congrArg Prod.fst same
      · exact same
    | _ => cases files
  · exact (step_winds taken files).destroyed

omit [Inhabited Sample] in
private theorem recorderAdvance_handle {address : Nat} {answer : RecorderAnswer Sample}
    (taken : world.recorderAdvance address answer = some after) :
    after.inference.handle = world.inference.handle := by
  cases place : (world.recorder.workers.get address).phase <;>
    simp only [recorderAdvance, place] at taken
  case created | ended | stopped => cases taken
  case reading =>
    split at taken
    · cases taken
      rfl
    · split at taken <;> cases taken
      rfl
  case closingFile chunk =>
    cases taken
    exact congrArg InferenceFields.handle (closeAudioFile_frame world answer.env false).2.2.2.1
  all_goals
    cases taken
    rfl

omit [Inhabited Sample] in
private theorem inferenceAdvance_handle {address : Nat} {answer : Inference}
    (taken : world.inferenceAdvance address answer = some after) :
    after.inference.handle = world.inference.handle := by
  unfold inferenceAdvance at taken
  simp only at taken
  split at taken
  · obtain ⟨_, _, rfl⟩ := Option.map_eq_some_iff.mp taken
    rfl
  · split at taken
    · cases taken
      rfl
    · split at taken
      · cases taken
        rfl
      · split at taken <;> cases taken <;> rfl
  · cases taken
    rfl
  · cases taken
    rfl
  · cases taken
    rename_i event jsonWorker _
    have same : (world.submitJson jsonWorker event).inference.handle = world.inference.handle :=
      congrArg InferenceFields.handle (submitJson_frame world jsonWorker event).2.2.2.1
    exact same

theorem onStartCommand_flags (flags : PipelineFlags world) (action : Intent) (env : Environment)
    (kept : (world.onStartCommand action env).life.destroyed = world.life.destroyed) :
    PipelineFlags (world.onStartCommand action env) := by
  cases action with
  | start request =>
    have same : (world.onStart request env).inference.handle = world.inference.handle ∧
        (world.onStart request env).session.sessionActive = world.session.sessionActive := by
      unfold onStart readRecordingRequest
      cases request <;> simp only <;> split <;> exact ⟨rfl, rfl⟩
    exact flags.of_fields same.1 kept (by rw [← same.2]; exact id)
  | stop => exact flags.of_kept (requestStopRecording_kept world env) kept
  | pauseRecording => exact flags.of_kept (requestPauseRecording_kept world env) kept
  | resumeRecording => exact flags.of_kept (requestResumeRecording_kept world env) kept
  | stopFileTranscription => exact flags.of_kept (requestStopFileTranscription_kept world) kept
  | stopInference => exact flags.of_kept (requestStopInference_kept world) kept
  | transcribeFile uri => exact flags.of_kept (enqueueSelectedFile_kept world env uri) kept
  | resumeInference =>
    have asked : PipelineFlags { world with
        pending := { world.pending with pendingInferenceResume := true } } :=
      flags.of_fields rfl rfl id
    have ensured := asked.ensureInferenceAccepting (world.session.recordingTimeData.getD [])
    simp only [onStartCommand]
    unfold requestResumeInference
    split
    · exact flags.of_fields rfl rfl id
    · simp only
      split
      · exact ensured.of_fields rfl rfl id
      · exact ensured.of_fields rfl rfl id

private theorem step_flags (flags : PipelineFlags world) (taken : step world label = some after) :
    PipelineFlags after := by
  have same := step_destroyed taken
  cases label with
  | intent action env =>
    have kept := same rfl
    simp only [step] at taken
    split at taken <;> cases taken
    exact onStartCommand_flags flags action env kept
  | startRecordingInternal env =>
    have kept := same rfl
    simp only [step] at taken
    split at taken <;> cases taken
    exact PipelineFlags.startRecordingInternal (flags.of_fields rfl rfl id) kept
  | projectionStopped env =>
    have kept := same rfl
    simp only [step] at taken
    split at taken
    · cases taken
    · split at taken <;> cases taken
      · exact flags.of_kept
          (.prepend (requestStopRecording_kept _ env) rfl id (.inl ⟨rfl, id⟩)) kept
      · exact flags
  | destroy env =>
    simp only [step] at taken
    split at taken <;> cases taken
    have inference := (onDestroy_frame world env).2.2.1
    refine ⟨?_, fun _ active => ?_⟩
    · rw [inference]
      exact flags.reported
    · have inactive : (world.onDestroy env).session.sessionActive = false := by
        unfold onDestroy
        rfl
      exact Bool.noConfusion (inactive.symm.trans active)
  | recorder address answer =>
    have frame := recorderAdvance_frame taken
    exact flags.of_fields (recorderAdvance_handle taken) (by rw [frame.2.2.2.2.2.2.1])
      (by rw [frame.1]; exact id)
  | recorderThrows address message =>
    simp only [step] at taken
    split at taken <;> cases taken
    exact flags.of_fields rfl rfl id
  | recordStopped address env =>
    have kept := same rfl
    obtain ⟨_, ⟨_, rfl⟩ | ⟨_, rfl⟩⟩ := recordStopped_cases taken
    · exact flags.of_kept (.prepend (finishRecordThread_kept _ env) rfl id (.inl ⟨rfl, id⟩)) kept
    · exact flags.of_fields rfl rfl id
  | inference address answer =>
    have frame := inferenceAdvance_frame taken
    exact flags.of_fields (inferenceAdvance_handle taken) (by rw [frame.2.2.2.2.2.2])
      (by rw [frame.1]; exact id)
  | whisperStopped address env =>
    have kept := same rfl
    obtain ⟨_, ⟨matching, rfl⟩ | ⟨_, rfl⟩⟩ := whisperStopped_cases taken
    · exact .of_subscribed (kept.trans matching.1) (PipelineFlags.onWhisperStopped_reported _)
    · exact flags.of_fields rfl rfl id
  | json address answer =>
    have frame := jsonAdvance_frame taken
    exact flags.of_fields (by rw [frame.2.2.2.1]) (by rw [frame.2.2.2.2.2.2.2.2]) (by rw [frame.1]; exact id)
  | jsonStopped address env =>
    have kept := same rfl
    obtain ⟨_, ⟨_, rfl⟩ | ⟨_, rfl⟩⟩ := jsonStopped_cases taken
    · exact flags.of_kept
        (.prepend (finishIdleWorkIfPossible_kept _) rfl id (.inl ⟨rfl, id⟩)) kept
    · exact flags.of_fields rfl rfl id
  | file address report =>
    have frame := fileAdvance_frame taken
    exact flags.of_fields (by rw [frame.2.2.2.1]) (by rw [frame.2.2.2.2.2.2.2]) (by rw [frame.1]; exact id)
  | fileComplete address =>
    have kept := same rfl
    simp only [step, fileComplete] at taken
    split at taken <;> cases taken
    exact flags.of_kept
      (.prepend (onRetranscriptionComplete_kept _) rfl id (.inl ⟨rfl, id⟩)) kept

theorem step_handlesKept (handles : HandlesKept world) (spares : SparesLiveWorkers world label)
    (taken : step world label = some after) : HandlesKept after :=
  ⟨step_recordersHeld handles.recorders spares taken,
    step_transcriptionHeld handles.transcription spares taken,
    step_jsonHeld handles.json spares taken, step_filesHeld handles.files spares taken,
    step_flags handles.flags taken⟩

private theorem initial_handlesKept : HandlesKept (initial : World Sample) :=
  ⟨nofun, ⟨nofun, nofun⟩, ⟨nofun, fun _ => rfl⟩, nofun, ⟨fun _ => rfl, nofun⟩⟩

omit [Inhabited Sample] in
theorem HandlesKept.allDead (handles : HandlesKept world) (idle : FieldsIdle world) :
    AllDead world := by
  refine ⟨quiet_of_no_liveRecorder world activity_isAlive handles.recorders idle.recorder,
    dead_of_no_liveTranscription world handles.transcription idle.transcription,
    dead_of_no_liveJson handles.json idle.json, ?_⟩
  cases gone : world.life.destroyed with
  | true => exact idle.destroyed gone
  | false => exact handles.files.dead gone idle.file

omit [Inhabited Sample] in
/-- Once both threads count as stopped, no pipeline is in the fields. -/
theorem HandlesKept.reported (handles : HandlesKept world) (reported : PipelineReported world) :
    world.liveTranscription = none ∧ world.liveJson = none := by
  have whisper := handles.flags.reported reported.1
  have json := handles.json.reported reported.2
  rw [liveTranscription, whisper, liveJson, json]
  exact ⟨rfl, rfl⟩

/-- The step brings no worker to life. -/
structure WorkersSame (before after : World Sample) : Prop where
  recorders : ∀ address, (after.recorder.workers.get address).isAlive = true →
    (before.recorder.workers.get address).isAlive = true
  inference : after.inference = before.inference
  json : after.json = before.json
  jobs : after.file.jobs = before.file.jobs

omit [Inhabited Sample] in
theorem AllDead.of_same (idle : AllDead world) (same : WorkersSame world after) :
    AllDead after := by
  refine ⟨fun address => ?_, ?_, ?_, ?_⟩
  · rw [Bool.eq_false_iff]
    intro alive
    exact Bool.noConfusion ((idle.recorders address).symm.trans (same.recorders address alive))
  · rw [same.inference]
    exact idle.inference
  · rw [same.json]
    exact idle.json
  · rw [(Prod.mk.inj same.jobs).2]
    exact idle.files

private theorem givesUp_same (gives : GivesUp world label) (taken : step world label = some after) :
    WorkersSame world after ∧ (after.file.retranscriptionQueue = [] ∨
      after.file.retranscriptionQueue = world.file.retranscriptionQueue) := by
  cases label with
  | intent action env =>
    simp only [step] at taken
    split at taken <;> cases taken
    cases action with
    | transcribeFile uri =>
      obtain rfl : uri = none := gives
      exact ⟨⟨fun _ => id, rfl, rfl, rfl⟩, .inr rfl⟩
    | stopFileTranscription =>
      have free : world.liveFileWorker = none := gives
      simp only [onStartCommand]
      unfold requestStopFileTranscription
      simp only
      split
      · rename_i live
        cases free.symm.trans live
      · exact ⟨⟨fun _ => id, rfl, rfl, rfl⟩, .inl rfl⟩
    | resumeRecording =>
      obtain ⟨refused, active, silent, gone⟩ := gives
      have stops : world.requestResumeRecording env =
          (world.publishState "録音権限がありません").stopForegroundAndSelf .resumePermission := by
        simp [requestResumeRecording, startRecordingWorkerForSession, refused, active, silent, gone]
      simp only [onStartCommand, stops]
      exact ⟨⟨fun _ => id, rfl, rfl, rfl⟩, .inr rfl⟩
    | start | stop | pauseRecording | stopInference | resumeInference => cases gives
  | recordStopped address env =>
    obtain ⟨matching, refused, unfinished, pending, active⟩ := gives
    obtain ⟨_, ⟨_, rfl⟩ | ⟨ignored, rfl⟩⟩ := recordStopped_cases taken
    · have stops : (world.moveRecorder address .stopped).finishRecordThread env =
          (((world.moveRecorder address .stopped).detachRecorder).publishState
            "録音権限がありません").stopForegroundAndSelf .resumePermission := by
        simp [finishRecordThread, startRecordingWorkerForSession, refused, unfinished, pending,
          active]
      rw [stops]
      refine ⟨⟨fun index alive => ?_, rfl, rfl, rfl⟩, .inr rfl⟩
      have moved : ((world.recorder.workers.set address { world.recorder.workers.get address with
        phase := .stopped }).get index).isAlive = true := alive
      rw [Objects.set_get] at moved
      split at moved
      · cases moved
      · exact moved
    · exact absurd matching ignored
  | startRecordingInternal env =>
    obtain ⟨silent, gone, free, missing⟩ := gives
    simp only [step] at taken
    split at taken <;> cases taken
    rcases startRecordingInternal_cases { world with life := { world.life with
        startThreads := world.life.startThreads - 1 } } env with
      ⟨prepares, _⟩ | ⟨_, _, _, waits⟩ | ⟨_, _, _, _, _, _, _, _, _, stopped⟩
    · simp only [preparesSession, Bool.and_eq_true, Option.isNone_iff_eq_none] at prepares
      rcases missing with refused | failed
      · exact Bool.noConfusion (refused.symm.trans prepares.1.2)
      · exact absurd prepares.2 failed
    · rw [waits]
      exact ⟨⟨fun _ => id, rfl, rfl, rfl⟩, .inr rfl⟩
    · rw [stopped]
      exact ⟨⟨fun _ => id, rfl, rfl, rfl⟩, .inr rfl⟩
  | projectionStopped | destroy | recorder | recorderThrows | inference | whisperStopped | json
  | jsonStopped | file | fileComplete => cases gives

/-- Where the step gives up with nothing left, nothing is left after it. -/
theorem givesUp_allIdle (handles : HandlesKept world) (meets : StopsWhenIdle world label)
    (gives : GivesUp world label) (taken : step world label = some after) : AllIdle after := by
  obtain ⟨idle, waits⟩ := meets.gives gives
  obtain ⟨same, queue⟩ := givesUp_same gives taken
  refine ⟨(handles.allDead idle).of_same same, ?_⟩
  rcases waits with empty | ⟨env, rfl⟩
  · exact queue.elim id fun same => same.trans empty
  · simp only [step] at taken
    split at taken <;> cases taken
    simp only [onStartCommand]
    unfold requestStopFileTranscription
    simp only
    split <;> rfl

/-- Where the step finds nothing left and no recorder was alive, only the
pipeline and the files remain to be looked at. -/
theorem findsNothingLeft_recorders (handles : HandlesKept world)
    (meets : StopsWhenIdle world label) (found : FindsNothingLeft world label)
    (taken : step world label = some after) (address : Nat) :
    (after.recorder.workers.get address).isAlive = false := by
  have none : world.liveRecorder = none := by
    have overlooked := meets.finds found
    cases label with
    | whisperStopped | jsonStopped => exact overlooked
    | fileComplete => exact overlooked.1
    | _ => cases found
  have dead := quiet_of_no_liveRecorder world activity_isAlive handles.recorders none
  have same : after.recorder = world.recorder := by
    cases label with
    | whisperStopped address env => exact (whisperStopped_frame taken).1
    | jsonStopped address env => exact (jsonStopped_frame taken).2.1
    | fileComplete address => exact (fileComplete_frame taken).2.1
    | _ => cases found
  rw [same]
  exact dead address

omit [Inhabited Sample] in
/-- The service was not destroyed when it found nothing left: after `onDestroy`
an open session keeps its pipeline from being reported. -/
theorem subscribed_of_idleStop (handles : HandlesKept world) (later : HandlesKept after)
    (idle : IdleStop after) (found : FindsNothingLeft world label ∨ LetsGo world after) :
    world.life.destroyed = false := by
  rcases found with found | ⟨_, kept | ⟨active, same⟩⟩
  · cases label with
    | whisperStopped | jsonStopped => exact found.1.1
    | fileComplete => exact found.1
    | _ => cases found
  · exact kept
  · rw [Bool.eq_false_iff]
    intro gone
    have none := later.flags.reported idle.reported.1
    exact handles.flags.opened gone active ((Prod.mk.inj same).1.symm.trans none)

/-- When a step of a run that spares live workers stops the service, nothing is
alive and nothing waits, provided that nothing was left where it looked. -/
theorem stop_allIdle (handles : HandlesKept world) (meets : StopsWhenIdle world label)
    (taken : step world label = some after)
    (stopped : after.life.stopCalls ≠ world.life.stopCalls) : AllIdle after := by
  have later := step_handlesKept handles meets.spares taken
  by_cases files : label.handlesFiles
  · cases label with
    | intent action env =>
      cases action with
      | stopFileTranscription =>
        refine givesUp_allIdle handles meets ?_ taken
        simp only [step] at taken
        split at taken <;> cases taken
        rcases @requestStopFileTranscription_stops _ world with same | ⟨_, free⟩
        · exact absurd (congrArg Prod.snd same) stopped
        · exact free
      | _ => cases files
    | destroy env =>
      simp only [step] at taken
      split at taken <;> cases taken
      refine absurd ?_ stopped
      unfold onDestroy
      simp only
      split <;> simp
    | file address report =>
      exact absurd (congrArg LifeFields.stopCalls (fileAdvance_frame taken).2.2.2.2.2.2.2) stopped
    | fileComplete address =>
      rcases fileComplete_stops taken with ⟨_, same⟩ | ⟨_, same, free, empty, found⟩
      · exact absurd (congrArg Prod.snd same) stopped
      · have frame := fileComplete_frame taken
        obtain ⟨_, transcription, json⟩ := meets.finds found
        refine ⟨⟨findsNothingLeft_recorders handles meets found taken, ?_, ?_,
          later.files.dead (same.trans found.1) free⟩, empty⟩
        · rw [frame.2.2.1]
          exact dead_of_no_liveTranscription world handles.transcription transcription
        · rw [frame.2.2.2.1]
          exact dead_of_no_liveJson handles.json json
    | _ => cases files
  · have winds := step_winds taken files
    rcases winds.calls with same | ⟨idle, found⟩ | gives
    · exact absurd same stopped
    · have kept := subscribed_of_idleStop handles later idle found
      obtain ⟨transcription, json⟩ := later.reported idle.reported
      refine ⟨⟨?_, dead_of_no_liveTranscription after later.transcription transcription,
        dead_of_no_liveJson later.json json,
        later.files.dead (winds.destroyed.trans kept) idle.fileWorker⟩, idle.queue⟩
      rcases found with found | ⟨detached, _⟩
      · exact findsNothingLeft_recorders handles meets found taken
      · apply quiet_of_no_liveRecorder after activity_isAlive later.recorders
        rw [liveRecorder, detached]
        rfl
    · exact givesUp_allIdle handles meets gives taken

end Steps

/-- How requests leave the queue: one by one to be started, or all at once when
the live inference has failed and its threads have reported. -/
def RequestsKept (before after : World Sample) : Prop :=
  (∃ added, after.file.retranscriptionQueue = before.file.retranscriptionQueue ++ added) ∨
  (∃ added request,
    before.file.retranscriptionQueue ++ added = request :: after.file.retranscriptionQueue ∧
    after.file.retranscriptionWorker = some before.file.workers.count ∧
    after.file.workers.get before.file.workers.count =
      (WhisperFileTranscriptionWorker.new request.sessionId request.settings).start.1) ∨
  (after.file.retranscriptionQueue = [] ∧ after.inference.inferenceFailed = true ∧
    PipelineReported after)

theorem QueueKept.requests {before middle after : World Sample} (queue : QueueKept middle after)
    (same : middle.file.retranscriptionQueue = before.file.retranscriptionQueue)
    (count : middle.file.workers.count = before.file.workers.count) :
    RequestsKept before after := by
  rcases queue with ⟨_, grown⟩ | ⟨_, added, request, next, started⟩ | ⟨_, cleared⟩
  · rw [same] at grown
    exact .inl grown
  · obtain ⟨field, workers⟩ := Prod.mk.inj started
    rw [same] at next
    rw [count] at field
    refine .inr (.inl ⟨added, request, next, field, ?_⟩)
    rw [workers, ← count]
    exact Objects.create_get_new _ _
  · exact .inr (.inr cleared)

section Runs

variable [Inhabited Sample] {world after : World Sample} {label : Label Sample}

/-- Only the intent that stops file transcription and the end of the service
drop waiting requests. -/
theorem step_requests (taken : step world label = some after) :
    RequestsKept world after ∨ after.file.retranscriptionQueue = [] ∧
      ((∃ env, label = .intent .stopFileTranscription env) ∨ ∃ env, label = .destroy env) := by
  by_cases files : label.handlesFiles
  · cases label with
    | intent action env =>
      cases action with
      | stopFileTranscription =>
        refine .inr ⟨?_, .inl ⟨env, rfl⟩⟩
        simp only [step] at taken
        split at taken <;> cases taken
        simp only [onStartCommand]
        unfold requestStopFileTranscription
        simp only
        split <;> rfl
      | _ => cases files
    | destroy env =>
      refine .inr ⟨?_, .inr ⟨env, rfl⟩⟩
      simp only [step] at taken
      split at taken <;> cases taken
      rfl
    | file address report =>
      refine .inl (.inl ⟨[], ?_⟩)
      rw [List.append_nil]
      simp only [step, fileAdvance] at taken
      split at taken
      any_goals cases taken
      split at taken
      · split at taken
        · cases taken
        · split at taken <;> cases taken <;> rfl
      · cases taken
        rfl
    | fileComplete address =>
      left
      rcases fileComplete_cases taken with ⟨_, rfl⟩ | ⟨_, rfl | rfl⟩
      · exact .inl ⟨[], (List.append_nil _).symm⟩
      · exact .inl ⟨[], (List.append_nil _).symm⟩
      · exact (startNextRetranscriptionOrStop_queue _).requests rfl rfl
    | _ => cases files
  · exact .inl ((step_winds taken files).queue.requests rfl rfl)

/-- In a run whose steps leave nothing behind where the service stops, every
step that stops it leaves nothing alive and nothing waiting. Requests leave the
queue in no other way than the ones listed. -/
theorem service_stops_idle (run : Reaches step StopsWhenIdle (initial : World Sample) world)
    (meets : StopsWhenIdle world label) (taken : step world label = some after) :
    (after.life.stopCalls ≠ world.life.stopCalls → AllIdle after) ∧
    (RequestsKept world after ∨ after.file.retranscriptionQueue = [] ∧
      ((∃ env, label = .intent .stopFileTranscription env) ∨ ∃ env, label = .destroy env)) := by
  have handles : HandlesKept world := run.invariant initial_handlesKept
    fun handles meets taken => step_handlesKept handles meets.spares taken
  exact ⟨stop_allIdle handles meets taken, step_requests taken⟩

end Runs

/-- A check that is enough for `StopsWhenIdle`. -/
def stopsWhenIdleCheck (world : World Int) : Label Int → Bool
  | .recordStopped _ env => world.liveRecorder.isNone && env.permission
  | .whisperStopped _ _ => world.liveTranscription.isNone && world.liveRecorder.isNone
  | .jsonStopped _ _ => world.liveJson.isNone && world.liveRecorder.isNone
  | .fileComplete _ => world.liveFileWorker.isNone && world.liveRecorder.isNone &&
      world.liveTranscription.isNone && world.liveJson.isNone
  | .intent (.transcribeFile uri) _ => uri.isSome
  | .intent .stopFileTranscription _ => false
  | .intent .resumeRecording env => env.permission
  | .startRecordingInternal env => env.permission && env.modelError.isNone
  | _ => true

theorem stopsWhenIdle_of_check {world : World Int} {label : Label Int}
    (checked : stopsWhenIdleCheck world label = true) : StopsWhenIdle world label := by
  cases label with
  | recordStopped address env =>
    simp only [stopsWhenIdleCheck, Bool.and_eq_true, Option.isNone_iff_eq_none] at checked
    refine ⟨fun _ => checked.1, fun found => found.elim, fun gives => ?_⟩
    exact Bool.noConfusion (gives.2.1.symm.trans checked.2)
  | whisperStopped address env =>
    simp only [stopsWhenIdleCheck, Bool.and_eq_true, Option.isNone_iff_eq_none] at checked
    exact ⟨fun _ => checked.1, fun _ => checked.2, fun gives => gives.elim⟩
  | jsonStopped address env =>
    simp only [stopsWhenIdleCheck, Bool.and_eq_true, Option.isNone_iff_eq_none] at checked
    exact ⟨fun _ => checked.1, fun _ => checked.2, fun gives => gives.elim⟩
  | fileComplete address =>
    simp only [stopsWhenIdleCheck, Bool.and_eq_true, Option.isNone_iff_eq_none] at checked
    obtain ⟨⟨⟨file, recorder⟩, transcription⟩, json⟩ := checked
    exact ⟨fun _ => file, fun _ => ⟨recorder, transcription, json⟩, fun gives => gives.elim⟩
  | startRecordingInternal env =>
    simp only [stopsWhenIdleCheck, Bool.and_eq_true, Option.isNone_iff_eq_none] at checked
    refine ⟨trivial, fun found => found.elim, fun gives => ?_⟩
    rcases gives.2.2.2 with refused | failed
    · exact Bool.noConfusion (refused.symm.trans checked.1)
    · exact absurd checked.2 failed
  | intent action env =>
    refine ⟨trivial, fun found => found.elim, fun gives => ?_⟩
    cases action with
    | transcribeFile uri =>
      obtain rfl : uri = none := gives
      cases checked
    | stopFileTranscription => cases checked
    | resumeRecording => exact Bool.noConfusion (gives.1.symm.trans checked)
    | start | stop | pauseRecording | stopInference | resumeInference => exact gives.elim
  | projectionStopped | destroy | recorder | recorderThrows | inference | json | file =>
    exact ⟨trivial, fun found => found.elim, fun gives => gives.elim⟩

/-- A session records and is stopped, and a file is chosen while the rest of it
is transcribed. The file is started when the session is over. -/
def fileAfterSession : List (Label Int) :=
  [.intent (.start none) quietEnvironment,
    .startRecordingInternal quietEnvironment,
    .intent .stop quietEnvironment,
    .recorder 0 quietRecorder,
    .recorder 0 quietRecorder,
    .recorder 0 quietRecorder,
    .recordStopped 0 quietEnvironment,
    .intent (.transcribeFile (some ['f'])) quietEnvironment] ++
  advances 0 7 ++ [.whisperStopped 0 quietEnvironment] ++ saves 0 5 ++
  [.jsonStopped 0 quietEnvironment,
    .file 0 (.finish "")]

theorem service_stops_idle_file :
    ∃ world after : World Int, Reaches step StopsWhenIdle initial world ∧
      step world (.fileComplete 0) = some after ∧
      after.life.stopCalls ≠ world.life.stopCalls ∧ AllIdle after := by
  have stops : (executeChecked step stopsWhenIdleCheck (initial : World Int)
      fileAfterSession).bind (fun world => (step world (.fileComplete 0)).map fun after =>
        (stopsWhenIdleCheck world (.fileComplete 0), world.life.stopCalls.length,
          after.life.stopCalls.length)) = some (true, 0, 1) := by decide +kernel
  obtain ⟨world, result, called⟩ := Option.bind_eq_some_iff.mp stops
  obtain ⟨after, taken, seen⟩ := Option.map_eq_some_iff.mp called
  simp only [Prod.mk.injEq] at seen
  obtain ⟨checked, before, once⟩ := seen
  have run : Reaches step StopsWhenIdle (initial : World Int) world :=
    (Reaches.of_executeChecked result).weaken fun _ _ => stopsWhenIdle_of_check
  have stopped : after.life.stopCalls ≠ world.life.stopCalls := by
    intro same
    rw [same, before] at once
    cases once
  exact ⟨world, after, run, taken, stopped,
    (service_stops_idle run (stopsWhenIdle_of_check checked) taken).1 stopped⟩

/-- The recorder is inside a read when the inference is stopped and then the
session; both threads of the pipeline end before the read returns. -/
def pipelineEndsFirst : List (Label Int) :=
  [.intent (.start none) quietEnvironment,
    .startRecordingInternal quietEnvironment,
    .recorder 0 quietRecorder,
    .recorder 0 quietRecorder,
    .intent .stopInference quietEnvironment] ++
  advances 0 7 ++
  [.intent .stop quietEnvironment,
    .whisperStopped 0 quietEnvironment] ++ saves 0 5

/-- The service finds nothing left to do although the recorder is alive. -/
theorem idle_stop_with_recorder :
    ¬ ∀ (world : World Int) (label : Label Int) (after : World Int),
      Reachable step initial world → step world label = some after →
        after.life.stopCalls ≠ world.life.stopCalls → AllIdle after := by
  intro always
  have stops : (execute step (initial : World Int) pipelineEndsFirst).bind (fun world =>
      (step world (.jsonStopped 0 quietEnvironment)).map fun after =>
        (world.life.stopCalls.length, after.life.stopCalls.length,
          (after.recorder.workers.get 0).isAlive)) = some (0, 1, true) := by decide +kernel
  obtain ⟨world, run, called⟩ := Option.bind_eq_some_iff.mp stops
  obtain ⟨after, taken, seen⟩ := Option.map_eq_some_iff.mp called
  simp only [Prod.mk.injEq] at seen
  obtain ⟨before, once, alive⟩ := seen
  have idle := always world _ after (.of_execute run) taken (by
    intro same
    rw [same, before] at once
    cases once)
  rw [idle.recorders 0] at alive
  cases alive

end LocalWhisper.Service
