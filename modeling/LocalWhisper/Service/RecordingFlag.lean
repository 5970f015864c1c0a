import LocalWhisper.Service.RecorderHandle

/-! Whether the flag `recording` can be believed. It is written by seven
methods; the one cause of recorder death that none of them looks at is an
exception inside the recorder thread. -/

namespace LocalWhisper.Service

open LocalWhisper.Machine LocalWhisper.Record LocalWhisper.Transcription

variable {Sample : Type}

/-- While the flag is set there is a recorder that has not reported its stop. -/
def RecordingHeld (world : World Sample) : Prop :=
  world.session.recording = true → ∃ address, world.recorder.recordWorker = some address

/-- What the flags of a session mean to each other. -/
structure SessionCore.Consistent (core : SessionCore) : Prop where
  active : core.recording = true → core.sessionActive = true
  unfinished : core.sessionActive = true → core.sessionEndRequested = false

theorem SessionCore.KeptOrClosed.consistent {before after : SessionCore}
    (kept : before.KeptOrClosed after) (consistent : before.Consistent) : after.Consistent := by
  rcases kept with rfl | rfl
  · exact consistent
  · exact ⟨nofun, nofun⟩

namespace World

variable (world : World Sample) (env : Environment)

/-- A new recorder would be made and started now. -/
def captureStarts (world : World Sample) (env : Environment) : Bool :=
  decide (0 < AudioRecordWorker.createBufferSize WhisperTranscriptionWorker.defaultSampleRate
    env.minBufferSize) && world.setup.devicesUp env

theorem createRecorder_recordWorker (bufferSize : Nat) :
    (world.createRecorder bufferSize env).1.recorder.recordWorker =
      if world.setup.devicesUp env then some world.recorder.workers.count else none := by
  obtain ⟨_, _, created, _⟩ := world.createRecorder_recorder env bufferSize
  rw [created]

theorem startRecordingWorkerForSession_cases :
    (env.permission = false ∧ (world.startRecordingWorkerForSession env).core = .closed) ∨
    (env.permission = true ∧ world.captureStarts env = false ∧
      (world.startRecordingWorkerForSession env).core = world.core ∧
      ((world.startRecordingWorkerForSession env).recorder.recordWorker =
          world.recorder.recordWorker ∨
        (world.startRecordingWorkerForSession env).recorder.recordWorker = none)) ∨
    (env.permission = true ∧ world.captureStarts env = true ∧
      (world.startRecordingWorkerForSession env).core = { world.core with recording := true } ∧
      (world.startRecordingWorkerForSession env).recorder.recordWorker =
        some world.recorder.workers.count) := by
  unfold startRecordingWorkerForSession captureStarts
  cases allowed : env.permission with
  | false => exact .inl ⟨rfl, rfl⟩
  | true =>
    right
    simp only [Bool.not_true, Bool.false_eq_true, if_false, createRecorder_started]
    split
    · rename_i small
      left
      refine ⟨trivial, ?_, rfl, .inl rfl⟩
      rw [decide_eq_false (Int.not_lt.mpr small), Bool.false_and]
    · rename_i large
      rw [decide_eq_true (Int.not_le.mp large), Bool.true_and]
      cases up : world.setup.devicesUp env with
      | false =>
        refine .inl ⟨trivial, rfl, rfl, .inr ?_⟩
        exact (createRecorder_recordWorker _ env _).trans (by simp [up])
      | true =>
        refine .inr ⟨trivial, rfl, rfl, ?_⟩
        exact (createRecorder_recordWorker _ env _).trans (by simp [up])

theorem startRecordingWorkerForSession_consistent (consistent : world.core.Consistent)
    (active : world.session.sessionActive = true) :
    (world.startRecordingWorkerForSession env).core.Consistent := by
  rcases world.startRecordingWorkerForSession_cases env with
    ⟨_, closed⟩ | ⟨_, _, same, _⟩ | ⟨_, _, opened, _⟩
  · rw [closed]
    exact ⟨nofun, nofun⟩
  · rw [same]
    exact consistent
  · rw [opened]
    exact ⟨fun _ => active, consistent.unfinished⟩

theorem finishRecordThread_consistent (consistent : world.core.Consistent) :
    (world.finishRecordThread env).core.Consistent := by
  rcases world.finishRecordThread_cases env with
    ⟨_, _, active, resumed⟩ | ⟨_, _, paused⟩ | ⟨_, ended⟩
  · rw [resumed]
    exact startRecordingWorkerForSession_consistent _ env consistent active
  · rw [paused]
    exact consistent
  · rw [ended]
    exact (world.detachRecorder.endRecording_core env).consistent consistent

/-- After `finishRecordThread` the flag can be believed exactly if it was not
set before, or a pending resume starts the next recorder or ends everything. -/
theorem finishRecordThread_recording_iff (consistent : world.core.Consistent) :
    RecordingHeld (world.finishRecordThread env) ↔
      (world.session.recording = true → world.pending.pendingRecordingResume = true ∧
        (env.permission = false ∨ world.captureStarts env = true)) := by
  rcases world.finishRecordThread_cases env with
    ⟨_, pending, _, resumed⟩ | ⟨unfinished, notResumed, paused⟩ | ⟨ending, ended⟩
  · rw [resumed]
    rcases world.detachRecorder.startRecordingWorkerForSession_cases env with
      ⟨refused, closed⟩ | ⟨allowed, silent, same, gone⟩ | ⟨_, up, _, held⟩
    · have off := congrArg SessionCore.recording closed
      constructor
      · intro _ _
        exact ⟨pending, .inl refused⟩
      · intro _ set
        exact Bool.noConfusion (off.symm.trans set)
    · have flag := congrArg SessionCore.recording same
      have none : (world.detachRecorder.startRecordingWorkerForSession env).recorder.recordWorker =
          none := by
        rcases gone with kept | cleared
        · exact kept
        · exact cleared
      constructor
      · intro believed set
        obtain ⟨address, stored⟩ := believed (flag.trans set)
        rw [none] at stored
        cases stored
      · intro restarts set
        rcases (restarts (flag.symm.trans set)).2 with refused | up
        · exact Bool.noConfusion (refused.symm.trans allowed)
        · exact Bool.noConfusion (Eq.trans (Eq.symm silent) up)
    · constructor
      · intro _ _
        exact ⟨pending, .inr up⟩
      · intro _ _
        exact ⟨_, held⟩
  · rw [paused]
    constructor
    · intro believed set
      obtain ⟨address, stored⟩ := believed set
      cases stored
    · intro restarts set
      exact absurd ⟨(restarts set).1, consistent.active set⟩ notResumed
  · have off : world.session.recording = false := by
      cases set : world.session.recording with
      | false => rfl
      | true =>
        have open_ := consistent.unfinished (consistent.active set)
        exact Bool.noConfusion (open_.symm.trans ending)
    have stillOff : (world.finishRecordThread env).session.recording = false := by
      rw [ended]
      rcases world.detachRecorder.endRecording_core env with same | closed
      · exact (congrArg SessionCore.recording same).trans off
      · exact congrArg SessionCore.recording closed
    constructor
    · intro _ set
      exact Bool.noConfusion (off.symm.trans set)
    · intro _ set
      exact Bool.noConfusion (stillOff.symm.trans set)

/-- The two facts about the flag that are kept together. -/
structure Believable (world : World Sample) : Prop where
  held : RecordingHeld world
  consistent : world.core.Consistent

theorem believable_of_off (off : world.session.recording = false)
    (consistent : world.core.Consistent) : world.Believable :=
  ⟨fun set => Bool.noConfusion (off.symm.trans set), consistent⟩

theorem finishRecordThread_believable (off : world.session.recording = false)
    (consistent : world.core.Consistent) : (world.finishRecordThread env).Believable := by
  refine ⟨(world.finishRecordThread_recording_iff env consistent).mpr ?_,
    world.finishRecordThread_consistent env consistent⟩
  intro set
  exact Bool.noConfusion (off.symm.trans set)

theorem requestRecordThreadStop_believable (off : world.session.recording = false)
    (consistent : world.core.Consistent) : (world.requestRecordThreadStop env).Believable := by
  unfold requestRecordThreadStop
  split
  · exact finishRecordThread_believable _ env off consistent
  · simp only
    split
    · exact believable_of_off _ off consistent
    · exact finishRecordThread_believable _ env off consistent

theorem requestStopRecording_believable (believable : world.Believable) :
    (world.requestStopRecording env).Believable := by
  unfold requestStopRecording
  split
  · exact believable
  · simp only
    split
    · exact requestRecordThreadStop_believable _ env rfl ⟨nofun, nofun⟩
    · exact finishRecordThread_believable _ env rfl ⟨nofun, nofun⟩

private theorem requestPauseRecording_believable (believable : world.Believable) :
    (world.requestPauseRecording env).Believable := by
  unfold requestPauseRecording
  split
  · exact believable
  · exact requestRecordThreadStop_believable _ env rfl ⟨nofun, believable.consistent.unfinished⟩

private theorem requestResumeRecording_believable (believable : world.Believable) :
    (world.requestResumeRecording env).Believable := by
  unfold requestResumeRecording
  split
  · exact believable
  · rename_i guard
    split
    · exact ⟨believable.held, believable.consistent⟩
    · simp only [Bool.or_eq_true, Bool.not_eq_true', not_or, Bool.not_eq_true,
        Bool.not_eq_false] at guard
      refine ⟨?_, startRecordingWorkerForSession_consistent _ env believable.consistent guard.1⟩
      intro set
      rcases world.startRecordingWorkerForSession_cases env with
        ⟨_, closed⟩ | ⟨_, _, same, _⟩ | ⟨_, _, _, held⟩
      · exact Bool.noConfusion ((congrArg SessionCore.recording closed).symm.trans set)
      · have flag := congrArg SessionCore.recording same
        exact Bool.noConfusion (guard.2.symm.trans (flag.symm.trans set))
      · exact ⟨_, held⟩

theorem stopInferenceIfNotRecording_believable (off : world.session.recording = false) :
    world.stopInferenceIfNotRecording.Believable := by
  have closing : SessionCore.Consistent { world.core with
      sessionActive := false, sessionEndRequested := true } :=
    ⟨fun set => Bool.noConfusion (off.symm.trans set), nofun⟩
  have asked (other : World Sample) (same : other.core = { world.core with
      sessionActive := false, sessionEndRequested := true }) :
      other.requestJsonThreadStop.Believable := by
    have kept := other.requestJsonThreadStop_core
    rw [same] at kept
    apply believable_of_off
    · rcases kept with core | closed
      · exact (congrArg SessionCore.recording core).trans off
      · exact congrArg SessionCore.recording closed
    · exact kept.consistent closing
  unfold stopInferenceIfNotRecording
  simp only
  split
  · split
    · exact believable_of_off _ off closing
    · exact asked _ rfl
  · exact asked _ rfl

private theorem openSession_believable (time : Text) (bufferSize : Nat)
    (off : world.session.recording = false) :
    (world.openSession time bufferSize env).Believable := by
  unfold openSession
  simp only
  split
  · apply stopInferenceIfNotRecording_believable
    have stillOff : (world.activateSession time).session.recording = false := off
    simpa using stillOff
  · rename_i started
    refine ⟨fun _ => ⟨world.recorder.workers.count, ?_⟩, ⟨fun _ => rfl, fun _ => rfl⟩⟩
    refine (createRecorder_recordWorker _ env bufferSize).trans ?_
    rw [createRecorder_started] at started
    exact if_pos (by simpa using started)

section Pipeline

variable [Inhabited Sample]

private theorem prepareSession_believable (off : world.session.recording = false)
    (consistent : world.core.Consistent) : (world.prepareSession env).Believable := by
  have ensured := ensureInferenceAccepting_core (world.nameSession env) (world.nextSessionTime env)
  have stillOff := (congrArg SessionCore.recording ensured).trans off
  rcases world.prepareSession_cases env with
    ⟨_, waits⟩ | ⟨_, ready, prepared, _, given⟩ | ⟨_, ready, _, prepared, _, _, opened⟩
  · rw [waits]
    apply believable_of_off
    · exact stillOff
    · exact ⟨fun set => Bool.noConfusion (stillOff.symm.trans set), fun active =>
        (congrArg SessionCore.sessionEndRequested ensured).trans (consistent.unfinished
          ((congrArg SessionCore.sessionActive ensured).symm.trans active))⟩
  · rw [given]
    apply stopInferenceIfNotRecording_believable
    rw [prepared.session]
    exact stillOff
  · rw [opened]
    apply openSession_believable
    rw [prepared.session]
    exact stillOff

private theorem startRecordingInternal_believable (believable : world.Believable) :
    (world.startRecordingInternal env).Believable := by
  unfold startRecordingInternal
  split
  · exact ⟨believable.held, believable.consistent⟩
  · rename_i off
    split
    · exact ⟨believable.held, believable.consistent⟩
    · split
      · exact ⟨believable.held, believable.consistent⟩
      · split
        · exact believable_of_off _ rfl ⟨nofun, nofun⟩
        · simp only
          split
          · exact believable_of_off _ rfl ⟨nofun, nofun⟩
          · exact prepareSession_believable _ env (by simpa using off) believable.consistent

end Pipeline

end World

open World

/-- The step delivers no matching stop event while `recording` is set, unless a
pending resume then starts the next recorder or, for lack of the permission,
ends the service. -/
def RestoresRecording (world : World Sample) : Label Sample → Prop
  | .recordStopped address env => RecordStopMatches world address →
      world.session.recording = true → world.pending.pendingRecordingResume = true ∧
        (env.permission = false ∨ world.captureStarts env = true)
  | _ => True

variable [Inhabited Sample] {world after : World Sample} {label : Label Sample}

private theorem step_believable (believable : world.Believable)
    (other : ∀ address env, label ≠ .recordStopped address env)
    (taken : step world label = some after) : after.Believable := by
  by_cases minor : label.minor
  · obtain ⟨kept, same⟩ := step_minor minor taken
    refine ⟨?_, kept.consistent believable.consistent⟩
    intro set
    rw [same]
    rcases kept with core | closed
    · exact believable.held ((congrArg SessionCore.recording core).symm.trans set)
    · exact Bool.noConfusion ((congrArg SessionCore.recording closed).symm.trans set)
  · cases label with
    | recorder | recorderThrows | inference | whisperStopped | json | jsonStopped | file
    | fileComplete => exact absurd trivial minor
    | recordStopped address env => exact absurd rfl (other address env)
    | intent action env =>
      simp only [step] at taken
      split at taken <;> cases taken
      cases action with
      | stopFileTranscription | stopInference | resumeInference | transcribeFile =>
        exact absurd trivial minor
      | start request =>
        have same : (world.onStart request env).recorder = world.recorder :=
          (onStart_frame _ _ request).2.1
        rcases world.onStart_core env request with core | ⟨_, core⟩
        · refine ⟨fun set => ?_, core ▸ believable.consistent⟩
          rw [onStartCommand, same]
          exact believable.held ((congrArg SessionCore.recording core).symm.trans set)
        · refine ⟨fun set => ?_, ?_⟩
          · rw [onStartCommand, same]
            exact believable.held ((congrArg SessionCore.recording core).symm.trans set)
          · rw [onStartCommand, core]
            exact ⟨believable.consistent.active, believable.consistent.unfinished⟩
      | stop => exact requestStopRecording_believable _ env believable
      | pauseRecording => exact requestPauseRecording_believable _ env believable
      | resumeRecording => exact requestResumeRecording_believable _ env believable
    | startRecordingInternal env =>
      simp only [step] at taken
      split at taken <;> cases taken
      exact startRecordingInternal_believable _ env ⟨believable.held, believable.consistent⟩
    | projectionStopped env =>
      simp only [step] at taken
      split at taken
      · cases taken
      · split at taken <;> cases taken
        · exact requestStopRecording_believable _ env ⟨believable.held, believable.consistent⟩
        · exact believable
    | destroy env =>
      simp only [step] at taken
      split at taken <;> cases taken
      refine believable_of_off _ rfl ⟨?_, ?_⟩
      · intro set
        exact absurd set Bool.false_ne_true
      · intro set
        exact absurd set Bool.false_ne_true

private theorem recordStopped_recording_iff {address : Nat} {env : Environment}
    (believable : world.Believable) (taken : world.recordStopped address env = some after) :
    after.core.Consistent ∧
      (RecordingHeld after ↔ RestoresRecording world (.recordStopped address env)) := by
  obtain ⟨_, ⟨matching, rfl⟩ | ⟨ignored, rfl⟩⟩ := recordStopped_cases taken
  · have moved : (world.moveRecorder address .stopped).core.Consistent := believable.consistent
    refine ⟨finishRecordThread_consistent _ env moved, ?_⟩
    refine (finishRecordThread_recording_iff _ env moved).trans ?_
    constructor
    · intro restored _
      exact restored
    · intro restored
      exact restored matching
  · refine ⟨believable.consistent, ?_⟩
    constructor
    · intro _ matching
      exact absurd matching ignored
    · intro _
      exact believable.held

theorem step_recording_iff (believable : world.Believable)
    (taken : step world label = some after) :
    after.core.Consistent ∧ (RecordingHeld after ↔ RestoresRecording world label) := by
  by_cases stop : ∃ address env, label = .recordStopped address env
  · obtain ⟨address, env, rfl⟩ := stop
    exact recordStopped_recording_iff believable taken
  · have next := step_believable believable (fun address env same => stop ⟨address, env, same⟩) taken
    have restores : RestoresRecording world label := by
      cases label with
      | recordStopped address env => exact absurd ⟨address, env, rfl⟩ stop
      | _ => trivial
    exact ⟨next.consistent, fun _ => restores, fun _ => next.held⟩

/-- In every run, the flag `recording` tells the truth in every state exactly if
no matching stop event is delivered while it is set, pending resumes apart. -/
theorem recording_held_iff_restored (labels : List (Label Sample)) :
    Always step RecordingHeld (initial : World Sample) labels ↔
      Each step RestoresRecording initial labels := by
  apply always_iff_each
  · intro before after label consistent held _ taken
    exact (step_recording_iff ⟨held, consistent⟩ taken).1
  · intro before after label consistent held taken
    exact (step_recording_iff ⟨held, consistent⟩ taken).2
  · exact ⟨nofun, nofun⟩
  · exact nofun

/-- The recorder throws, and its stop event is delivered. -/
def recorderDies : List (Label Int) :=
  [.intent (.start none) quietEnvironment,
    .startRecordingInternal quietEnvironment,
    .recorderThrows 0 "AudioRecord.read failed",
    .recorder 0 quietRecorder,
    .recordStopped 0 quietEnvironment]

/-- The flag still says that the service records, and `recordWorker` is null. -/
theorem recording_flag_wrong :
    ¬ ∀ world, Reachable step (initial : World Int) world → RecordingHeld world := by
  intro always
  have wrong : (execute step (initial : World Int) recorderDies).map (fun world =>
      (world.session.recording, world.recorder.recordWorker)) = some (true, none) := by decide +kernel
  obtain ⟨world, run, seen⟩ := Option.map_eq_some_iff.mp wrong
  obtain ⟨set, cleared⟩ := Prod.mk.inj seen
  obtain ⟨address, stored⟩ := always world (.of_execute run) set
  rw [cleared] at stored
  cases stored

end LocalWhisper.Service
