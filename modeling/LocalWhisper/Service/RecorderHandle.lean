import LocalWhisper.Service.Sessions

/-! Which recorder the field `recordWorker` holds. The stop event of an earlier
recorder clears the field without looking at whose event it is, and that is the
only way in which a running recorder can be lost. -/

namespace LocalWhisper.Service

open LocalWhisper.Machine LocalWhisper.Record LocalWhisper.Transcription

variable {Sample : Type}

/-- A way to say that a recorder is at work: always while it reads, never
without its thread, and the same whether it was asked to stop or not. -/
structure Activity (active : AudioRecordWorker Sample → Bool) : Prop where
  reading : ∀ recorder, recorder.phase.inLoop = true → active recorder = true
  alive : ∀ recorder, active recorder = true → recorder.isAlive = true
  requestStop : ∀ recorder, active recorder.requestStop.1 = active recorder

private theorem activity_inLoop :
    Activity fun recorder : AudioRecordWorker Sample => recorder.phase.inLoop :=
  ⟨fun _ inLoop => inLoop, fun _ inLoop => AudioRecordWorker.isAlive_of_inLoop inLoop,
    fun _ => rfl⟩

theorem activity_isAlive : Activity (@AudioRecordWorker.isAlive Sample) :=
  ⟨fun _ inLoop => AudioRecordWorker.isAlive_of_inLoop inLoop, fun _ alive => alive,
    fun _ => rfl⟩

theorem Activity.inactive {active : AudioRecordWorker Sample → Bool} (activity : Activity active)
    {recorder : AudioRecordWorker Sample} (dead : recorder.isAlive = false) :
    active recorder = false := by
  rw [Bool.eq_false_iff]
  intro works
  exact Bool.noConfusion (dead.symm.trans (activity.alive recorder works))

namespace RecorderFields

variable {active : AudioRecordWorker Sample → Bool} {fields : RecorderFields Sample}

/-- Every recorder that was started and has not left its read loop is the one
that the service can reach. -/
def Held (fields : RecorderFields Sample) : Prop :=
  ∀ address, (fields.workers.get address).phase.inLoop = true →
    fields.recordWorker = some address

/-- The recorder in the field is in its read loop. -/
def Reading (fields : RecorderFields Sample) : Prop :=
  ∃ address, fields.recordWorker = some address ∧
    (fields.workers.get address).phase.inLoop = true

/-- Every active recorder is the one in the field. -/
def HeldBy (active : AudioRecordWorker Sample → Bool) (fields : RecorderFields Sample) : Prop :=
  ∀ address, active (fields.workers.get address) = true → fields.recordWorker = some address

def QuietBy (active : AudioRecordWorker Sample → Bool) (fields : RecorderFields Sample) : Prop :=
  ∀ address, active (fields.workers.get address) = false

def ReadingBy (active : AudioRecordWorker Sample → Bool) (fields : RecorderFields Sample) : Prop :=
  ∃ address, fields.recordWorker = some address ∧ active (fields.workers.get address) = true

theorem QuietBy.held (quiet : fields.QuietBy active) : fields.HeldBy active := by
  intro address works
  rw [quiet address] at works
  cases works

theorem HeldBy.quiet (held : fields.HeldBy active) (idle : ¬ fields.ReadingBy active) :
    fields.QuietBy active := by
  intro address
  cases works : active (fields.workers.get address) with
  | false => rfl
  | true => exact absurd ⟨address, held address works, works⟩ idle

theorem lt_count_of_alive {address : Nat}
    (alive : (fields.workers.get address).isAlive = true) : address < fields.workers.count := by
  apply fields.workers.lt_count_of_used
  intro unused
  simp [AudioRecordWorker.isAlive, AudioRecordWorker.workerThread, unused] at alive

/-- Changing one recorder keeps the property when that recorder does not become
active by the change. -/
theorem HeldBy.set (held : fields.HeldBy active) {address : Nat}
    {recorder : AudioRecordWorker Sample} {counted : Text → Nat}
    (kept : active recorder = true → active (fields.workers.get address) = true) :
    HeldBy active { fields with workers := fields.workers.set address recorder, counted } := by
  intro index works
  simp only [Objects.set_get] at works
  split at works
  · rename_i here
    rw [here.1]
    exact held address (kept works)
  · exact held index works

theorem QuietBy.set (quiet : fields.QuietBy active) {address : Nat}
    {recorder : AudioRecordWorker Sample} (idle : active recorder = false) :
    QuietBy active { fields with workers := fields.workers.set address recorder } := by
  intro index
  simp only [Objects.set_get]
  split
  · exact idle
  · exact quiet index

end RecorderFields

/-- Every input that a new recorder needs comes up now. -/
def SetupFields.devicesUp (setup : SetupFields) (env : Environment) : Bool :=
  env.devicesStart && (!setup.requestedAudioSource.requiresAppCapture || setup.mediaProjection)

namespace World

variable {active : AudioRecordWorker Sample → Bool} (world : World Sample) (env : Environment)

theorem quiet_of_no_liveRecorder (activity : Activity active)
    (held : world.recorder.HeldBy active) (dead : world.liveRecorder = none) :
    world.recorder.QuietBy active := by
  apply held.quiet
  rintro ⟨address, stored, works⟩
  have alive := activity.alive _ works
  simp [liveRecorder, stored, alive] at dead

/-- What `createRecorder` does to the recorders. -/
theorem createRecorder_recorder (bufferSize : Nat) :
    (world.createRecorder bufferSize env).2 = world.setup.devicesUp env ∧
    ∃ recorder : AudioRecordWorker Sample,
      (world.createRecorder bufferSize env).1.recorder = { world.recorder with
        recordWorker :=
          if world.setup.devicesUp env then some world.recorder.workers.count else none
        workers := world.recorder.workers.create recorder } ∧
      recorder.stopEventId = world.session.recordingSessionId.getD [] ++ recordSuffix ∧
      recorder.phase = if world.setup.devicesUp env then .starting else .created := by
  unfold createRecorder SetupFields.devicesUp
  rw [AudioRecordWorker.start_new]
  by_cases up : (env.devicesStart &&
      (!world.setup.requestedAudioSource.requiresAppCapture || world.setup.mediaProjection)) = true
  · simp only [if_pos up]
    exact ⟨up.symm, _, rfl, rfl, rfl⟩
  · simp only [if_neg up]
    exact ⟨(Bool.eq_false_iff.mpr up).symm, _, rfl, rfl, rfl⟩

theorem createRecorder_started (bufferSize : Nat) :
    (world.createRecorder bufferSize env).2 = world.setup.devicesUp env :=
  (world.createRecorder_recorder env bufferSize).1

theorem createRecorder_held (activity : Activity active) (bufferSize : Nat)
    (quiet : world.recorder.QuietBy active) :
    (world.createRecorder bufferSize env).1.recorder.HeldBy active := by
  obtain ⟨_, recorder, created, _, phase⟩ := world.createRecorder_recorder env bufferSize
  rw [created]
  intro index works
  simp only [Objects.create_get] at works
  split at works
  · rename_i new
    cases started : world.setup.devicesUp env with
    | true => simp only [new, if_true]
    | false =>
      have alive := activity.alive recorder works
      simp [AudioRecordWorker.isAlive, AudioRecordWorker.workerThread, phase, started] at alive
  · rw [quiet index] at works
    cases works

theorem startRecordingWorkerForSession_held (activity : Activity active)
    (quiet : world.recorder.QuietBy active) :
    (world.startRecordingWorkerForSession env).recorder.HeldBy active := by
  unfold startRecordingWorkerForSession
  split
  · simpa using quiet.held
  · simp only
    split
    · simpa using quiet.held
    · split
      · exact createRecorder_held _ env activity _ quiet
      · exact createRecorder_held _ env activity _ quiet

theorem finishRecordThread_held (activity : Activity active)
    (quiet : world.recorder.QuietBy active) :
    (world.finishRecordThread env).recorder.HeldBy active := by
  have cleared : world.detachRecorder.recorder.QuietBy active := quiet
  rcases world.finishRecordThread_cases env with
    ⟨_, _, _, resumed⟩ | ⟨_, _, paused⟩ | ⟨_, ended⟩
  · rw [resumed]
    exact startRecordingWorkerForSession_held _ env activity cleared
  · rw [paused]
    exact cleared.held
  · rw [ended, (endRecording_frame _ env).2]
    exact cleared.held

private theorem startRecordingWorkerForSession_detached {address : Nat}
    (created : address < world.recorder.workers.count)
    (detached : world.recorder.recordWorker ≠ some address) :
    (world.startRecordingWorkerForSession env).recorder.workers.get address =
        world.recorder.workers.get address ∧
      (world.startRecordingWorkerForSession env).recorder.recordWorker ≠ some address := by
  have made (other : World Sample) (bufferSize : Nat)
      (same : other.recorder = world.recorder) :
      (other.createRecorder bufferSize env).1.recorder.workers.get address =
          world.recorder.workers.get address ∧
        (other.createRecorder bufferSize env).1.recorder.recordWorker ≠ some address := by
    obtain ⟨_, recorder, fields, _⟩ := other.createRecorder_recorder env bufferSize
    rw [fields, same]
    refine ⟨Objects.create_get_of_ne _ _ (by omega), ?_⟩
    simp only
    split
    · intro here
      exact absurd (Option.some.inj here) (by omega)
    · exact nofun
  unfold startRecordingWorkerForSession
  split
  · exact ⟨rfl, detached⟩
  · simp only
    split
    · exact ⟨rfl, detached⟩
    · split
      · exact made _ _ rfl
      · exact made _ _ rfl

/-- `finishRecordThread` changes no recorder that exists, and the field no
longer holds any of them. -/
theorem finishRecordThread_detaches {address : Nat}
    (created : address < world.recorder.workers.count) :
    (world.finishRecordThread env).recorder.workers.get address =
        world.recorder.workers.get address ∧
      (world.finishRecordThread env).recorder.recordWorker ≠ some address := by
  rcases world.finishRecordThread_cases env with
    ⟨_, _, _, resumed⟩ | ⟨_, _, paused⟩ | ⟨_, ended⟩
  · rw [resumed]
    exact startRecordingWorkerForSession_detached world.detachRecorder env created nofun
  · rw [paused]
    exact ⟨rfl, nofun⟩
  · rw [ended, (endRecording_frame _ env).2]
    exact ⟨rfl, nofun⟩

theorem requestRecordThreadStop_held (activity : Activity active)
    (held : world.recorder.HeldBy active) :
    (world.requestRecordThreadStop env).recorder.HeldBy active := by
  unfold requestRecordThreadStop
  split
  · rename_i none
    apply finishRecordThread_held _ _ activity
    apply held.quiet
    rintro ⟨address, stored, _⟩
    rw [none] at stored
    cases stored
  · rename_i address stored
    simp only
    split
    · exact held.set fun works => (activity.requestStop _).symm.trans works
    · rename_i dead
      have quiet : world.recorder.QuietBy active := by
        apply held.quiet
        rintro ⟨other, same, inLoop⟩
        rw [stored] at same
        cases same
        exact dead (activity.alive _ inLoop)
      apply finishRecordThread_held _ _ activity
      exact quiet.set ((activity.requestStop _).trans (quiet address))

theorem requestStopRecording_held (activity : Activity active)
    (held : world.recorder.HeldBy active) :
    (world.requestStopRecording env).recorder.HeldBy active := by
  unfold requestStopRecording
  split
  · exact held
  · simp only
    split
    · exact requestRecordThreadStop_held _ env activity held
    · rename_i dead
      apply finishRecordThread_held _ _ activity
      exact quiet_of_no_liveRecorder _ activity held (by simpa using dead)

private theorem requestPauseRecording_held (activity : Activity active)
    (held : world.recorder.HeldBy active) :
    (world.requestPauseRecording env).recorder.HeldBy active := by
  unfold requestPauseRecording
  split
  · exact held
  · exact requestRecordThreadStop_held _ env activity held

private theorem requestResumeRecording_held (activity : Activity active)
    (held : world.recorder.HeldBy active) :
    (world.requestResumeRecording env).recorder.HeldBy active := by
  unfold requestResumeRecording
  split
  · exact held
  · split
    · exact held
    · rename_i dead
      apply startRecordingWorkerForSession_held _ _ activity
      exact quiet_of_no_liveRecorder _ activity held (by simpa using dead)

private theorem openSession_held (activity : Activity active) (time : Text) (bufferSize : Nat)
    (quiet : world.recorder.QuietBy active) :
    (world.openSession time bufferSize env).recorder.HeldBy active := by
  unfold openSession
  simp only
  split
  · simp only [stopInferenceIfNotRecording_frame, publishState_frame, closeAudioFile_frame,
      releaseMediaProjection_frame]
    exact createRecorder_held _ env activity _ quiet
  · exact createRecorder_held _ env activity _ quiet

section Pipeline

variable [Inhabited Sample]

private theorem prepareSession_held (activity : Activity active)
    (quiet : world.recorder.QuietBy active) :
    (world.prepareSession env).recorder.HeldBy active := by
  have ensured : ((world.nameSession env).ensureInferenceAccepting
      (world.nextSessionTime env)).1.recorder = world.recorder :=
    (ensureInferenceAccepting_frame _ _).2.1
  rcases world.prepareSession_cases env with
    ⟨_, waits⟩ | ⟨_, ready, prepared, _, given⟩ | ⟨_, ready, _, prepared, _, _, opened⟩
  · rw [waits]
    simpa [ensured] using quiet.held
  · rw [given, (stopInferenceIfNotRecording_frame ready).2.1, prepared.recorder, ensured]
    exact quiet.held
  · rw [opened]
    apply openSession_held _ _ activity
    rw [prepared.recorder, ensured]
    exact quiet

private theorem startRecordingInternal_held (activity : Activity active)
    (held : world.recorder.HeldBy active) :
    (world.startRecordingInternal env).recorder.HeldBy active := by
  unfold startRecordingInternal
  split
  · exact held
  · split
    · exact held
    · rename_i dead
      have quiet : world.recorder.QuietBy active := by
        apply quiet_of_no_liveRecorder _ activity held
        simpa using dead
      split
      · exact held
      · split
        · exact held
        · simp only
          split
          · exact held
          · exact prepareSession_held _ env activity quiet

private theorem onStartCommand_held (activity : Activity active) (action : Intent)
    (held : world.recorder.HeldBy active) :
    (world.onStartCommand action env).recorder.HeldBy active := by
  cases action with
  | start request => simpa [onStartCommand] using held
  | stop => exact requestStopRecording_held _ env activity held
  | pauseRecording => exact requestPauseRecording_held _ env activity held
  | resumeRecording => exact requestResumeRecording_held _ env activity held
  | stopFileTranscription => simpa [onStartCommand] using held
  | stopInference => simpa [onStartCommand] using held
  | resumeInference => simpa [onStartCommand] using held
  | transcribeFile uri => simpa [onStartCommand] using held

end Pipeline

private theorem recorderAdvance_held {world after : World Sample} {address : Nat}
    {answer : RecorderAnswer Sample} (activity : Activity active) (held : world.recorder.HeldBy active)
    (taken : world.recorderAdvance address answer = some after) : after.recorder.HeldBy active := by
  have moved (phase : RecorderPhase Sample)
      (inLoop : (world.recorder.workers.get address).phase.inLoop = true) :
      (world.moveRecorder address phase).recorder.HeldBy active :=
    held.set fun _ => activity.reading _ inLoop
  cases place : (world.recorder.workers.get address).phase <;>
    simp only [recorderAdvance, place] at taken
  case created | ended | stopped => cases taken
  case reading =>
    split at taken
    · cases taken
      exact moved _ (by rw [place]; rfl)
    · split at taken
      · cases taken
        exact moved _ (by rw [place]; rfl)
      · cases taken
  case starting | looping | counted | saved | fetched =>
    cases taken
    exact moved _ (by rw [place]; rfl)
  case arrived chunk =>
    cases taken
    exact held.set fun _ => activity.reading _ (by rw [place]; rfl)
  case saving chunk writer =>
    cases taken
    exact moved _ (by rw [place]; rfl)
  case closingFile chunk =>
    cases taken
    have inside : (world.closeAudioFile false answer.env).recorder = world.recorder := by simp
    unfold moveRecorder setRecorder
    rw [inside]
    exact held.set fun _ => activity.reading _ (by rw [place]; rfl)
  case offering chunk target =>
    cases taken
    exact moved _ (by rw [place]; rfl)
  case leaving errorMessage =>
    cases taken
    refine held.set fun works => ?_
    have alive := activity.alive _ works
    cases alive

end World

open World

/-- The step delivers no matching stop event while the field holds a recorder
that is still in its read loop. -/
def SparesRunningRecorder (world : World Sample) : Label Sample → Prop
  | .recordStopped address _ => RecordStopMatches world address → ¬ world.recorder.Reading
  | _ => True

/-- The same with another notion of a recorder at work. -/
def SparesRecorder (active : AudioRecordWorker Sample → Bool) (world : World Sample) :
    Label Sample → Prop
  | .recordStopped address _ =>
    RecordStopMatches world address → ¬ world.recorder.ReadingBy active
  | _ => True

section Steps

variable [Inhabited Sample] {active : AudioRecordWorker Sample → Bool}
variable {world after : World Sample}

theorem recordStopped_heldBy_iff {address : Nat} {env : Environment} (activity : Activity active)
    (held : world.recorder.HeldBy active) (taken : world.recordStopped address env = some after) :
    after.recorder.HeldBy active ↔
      (RecordStopMatches world address → ¬ world.recorder.ReadingBy active) := by
  obtain ⟨⟨errorMessage, place⟩, ⟨matching, rfl⟩ | ⟨ignored, rfl⟩⟩ := recordStopped_cases taken
  · constructor
    · rintro kept - ⟨running, stored, works⟩
      have alive := activity.alive _ works
      have other : running ≠ address := by
        rintro rfl
        simp [AudioRecordWorker.isAlive, AudioRecordWorker.workerThread, place] at alive
      have unmoved : (world.moveRecorder address .stopped).recorder.workers.get running =
          world.recorder.workers.get running := Objects.set_get_of_ne _ _ other
      have created : running < world.recorder.workers.count :=
        RecorderFields.lt_count_of_alive alive
      obtain ⟨same, lost⟩ :=
        (world.moveRecorder address .stopped).finishRecordThread_detaches env created
      refine lost (kept running ?_)
      rw [same, unmoved]
      exact works
    · intro spared
      apply finishRecordThread_held _ _ activity
      exact (held.quiet (spared matching)).set (activity.inactive rfl)
  · constructor
    · intro _ matching
      exact absurd matching ignored
    · intro _
      exact held.set fun works => by cases activity.alive _ works

/-- One step keeps the handle of every active recorder exactly if it delivers
no stop event over an active one. -/
theorem step_heldBy_iff {label : Label Sample} (activity : Activity active)
    (held : world.recorder.HeldBy active) (taken : step world label = some after) :
    after.recorder.HeldBy active ↔ SparesRecorder active world label := by
  cases label with
  | recordStopped address env => exact recordStopped_heldBy_iff activity held taken
  | intent action env =>
    simp only [SparesRecorder, iff_true]
    simp only [step] at taken
    split at taken
    · cases taken
    · cases taken
      exact onStartCommand_held _ env activity action held
  | startRecordingInternal env =>
    simp only [SparesRecorder, iff_true]
    simp only [step] at taken
    split at taken
    · cases taken
    · cases taken
      exact startRecordingInternal_held _ env activity held
  | projectionStopped env =>
    simp only [SparesRecorder, iff_true]
    simp only [step] at taken
    split at taken
    · cases taken
    · split at taken
      · cases taken
        exact requestStopRecording_held _ env activity held
      · cases taken
        exact held
  | destroy env =>
    simp only [SparesRecorder, iff_true]
    simp only [step] at taken
    split at taken
    · cases taken
    · cases taken
      simpa using held
  | recorder address answer =>
    simp only [SparesRecorder, iff_true]
    exact recorderAdvance_held activity held taken
  | recorderThrows address message =>
    simp only [SparesRecorder, iff_true]
    simp only [step] at taken
    split at taken
    · rename_i inLoop
      cases taken
      exact held.set fun _ => activity.reading _ inLoop
    · cases taken
  | inference address answer =>
    simp only [SparesRecorder, iff_true]
    rw [(inferenceAdvance_frame taken).2.2.1]
    exact held
  | whisperStopped address env =>
    simp only [SparesRecorder, iff_true]
    rw [(whisperStopped_frame taken).1]
    exact held
  | json address answer =>
    simp only [SparesRecorder, iff_true]
    rw [(jsonAdvance_frame taken).2.2.1]
    exact held
  | jsonStopped address env =>
    simp only [SparesRecorder, iff_true]
    rw [(jsonStopped_frame taken).2.1]
    exact held
  | file address report =>
    simp only [SparesRecorder, iff_true]
    rw [(fileAdvance_frame taken).2.2.1]
    exact held
  | fileComplete address =>
    simp only [SparesRecorder, iff_true]
    rw [(fileComplete_frame taken).2.1]
    exact held

end Steps

variable [Inhabited Sample]

/-- In every run, every running recorder is the one in `recordWorker` in every
state, exactly if no step delivers a matching stop event over a running one. -/
theorem recorder_held_iff_spared (labels : List (Label Sample)) :
    Always step (fun world => world.recorder.Held) initial labels ↔
      Each step SparesRunningRecorder initial labels := by
  apply @always_iff_each _ _ step SparesRunningRecorder _ fun _ => True
  · intro _ _ _ _ _ _ _
    trivial
  · intro before after label _ held taken
    refine Iff.trans (step_heldBy_iff activity_inLoop held taken) ?_
    cases label <;> exact Iff.rfl
  · trivial
  · intro address inLoop
    cases inLoop

/-- What the platform answers when nothing goes wrong. -/
def quietEnvironment : Environment :=
  { currentTimeMillis := 0x19f99e5b391
    nanoTime := 0x317248c70b73
    permission := true
    settings := .defaultSettings
    modelError := none
    minBufferSize := 1280
    audioFileError := none
    closeFails := false
    projection := .granted
    devicesStart := true }

def quietRecorder : RecorderAnswer Sample :=
  { read := none, stoppedAfter := none, env := quietEnvironment }

/-- The inference thread goes on with a successful answer. -/
def advances (address count : Nat) : List (Label Sample) :=
  List.replicate count (.inference address (.result "" false 0))

/-- The JSON thread goes on, and all of its files can be written. -/
def saves (address count : Nat) : List (Label Sample) :=
  List.replicate count (.json address ⟨none, .written⟩)

/-- Pause, let the recorder die, resume before its stop event is delivered. -/
def resumeBeforeStopEvent : List (Label Int) :=
  [.intent (.start none) quietEnvironment,
    .startRecordingInternal quietEnvironment,
    .intent .pauseRecording quietEnvironment,
    .recorder 0 quietRecorder,
    .recorder 0 quietRecorder,
    .recorder 0 quietRecorder,
    .intent .resumeRecording quietEnvironment,
    .recordStopped 0 quietEnvironment]

/-- The second recorder runs and `recordWorker` is null. -/
theorem recorder_handle_lost :
    ¬ ∀ world, Reachable step (initial : World Int) world → world.recorder.Held := by
  intro always
  have lost : (execute step (initial : World Int) resumeBeforeStopEvent).map (fun world =>
      (world.recorder.recordWorker, (world.recorder.workers.get 1).phase.inLoop)) =
        some (none, true) := by decide +kernel
  obtain ⟨world, run, seen⟩ := Option.map_eq_some_iff.mp lost
  obtain ⟨cleared, inLoop⟩ := Prod.mk.inj seen
  have held := always world (.of_execute run) 1 inLoop
  rw [cleared] at held
  cases held

end LocalWhisper.Service
