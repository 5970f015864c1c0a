import LocalWhisper.Service.Shutdown

/-! Whether every WAV file is finalised. The field `audioFileWriter` holds the
file of the open session; the file is closed when the recorder of an ended
session reports its stop, and it is lost when a session is prepared before or
the service stops itself before. -/

namespace LocalWhisper.Service

open LocalWhisper.Machine LocalWhisper.Record LocalWhisper.Transcription

variable {Sample : Type}

/-- Every writer that was opened has been closed, unless the field holds it. -/
structure AudioFields.Finalised (audio : AudioFields) : Prop where
  closed : ∀ index, index < audio.writers.count →
    (audio.writers.get index).closeCalled = true ∨ audio.audioFileWriter = some index
  created : ∀ index, audio.audioFileWriter = some index → index < audio.writers.count

/-- What closing does to the files. -/
def AudioFields.close (audio : AudioFields) (fails : Bool) : AudioFields :=
  match audio.audioFileWriter with
  | none => audio
  | some address =>
    { audioFileWriter := none
      writers := audio.writers.set address ((audio.writers.get address).close fails).1 }

namespace AudioFields

variable {audio : AudioFields} {fails : Bool}

theorem close_field : (audio.close fails).audioFileWriter = none := by
  unfold close
  split
  · assumption
  · rfl

theorem close_closed (index : Nat) (closed : (audio.writers.get index).closeCalled = true ∨
    audio.audioFileWriter = some index ∧ index < audio.writers.count) :
    ((audio.close fails).writers.get index).closeCalled = true := by
  unfold close
  cases stored : audio.audioFileWriter with
  | none =>
    rcases closed with already | ⟨held, _⟩
    · exact already
    · rw [stored] at held
      cases held
  | some address =>
    simp only [Objects.set_get]
    split
    · exact RecordedAudioFileWriter.close_closeCalled _ _
    · rename_i other
      rcases closed with already | ⟨held, created⟩
      · exact already
      · rw [stored] at held
        cases held
        exact absurd ⟨rfl, created⟩ other

private theorem close_count : (audio.close fails).writers.count = audio.writers.count := by
  unfold close
  split <;> rfl

theorem Finalised.close (finalised : audio.Finalised) : (audio.close fails).Finalised := by
  refine ⟨fun index created => .inl ?_, fun index held => ?_⟩
  · rw [close_count] at created
    apply close_closed
    rcases finalised.closed index created with already | held
    · exact .inl already
    · exact .inr ⟨held, created⟩
  · rw [close_field] at held
    cases held

/-- A new writer may be stored when the field is empty. -/
theorem Finalised.opened (finalised : audio.Finalised) (free : audio.audioFileWriter = none)
    (writer : RecordedAudioFileWriter) :
    Finalised { audioFileWriter := some audio.writers.count
                writers := audio.writers.create writer } := by
  refine ⟨fun index created => ?_, fun index held => ?_⟩
  · by_cases new : index = audio.writers.count
    · exact .inr (congrArg some new.symm)
    · have earlier : index < audio.writers.count := by
        simp only [Objects.create_count] at created
        omega
      rcases finalised.closed index earlier with already | held
      · left
        rw [Objects.create_get_of_ne _ _ new]
        exact already
      · rw [free] at held
        cases held
  · cases held
    exact Nat.lt_succ_self _

/-- Writing to a file closes none. -/
theorem Finalised.append (finalised : audio.Finalised) (address sampleCount : Nat)
    (stoppedAfter : Option Nat) :
    Finalised { audio with
      writers := audio.writers.set address
        ((audio.writers.get address).append sampleCount stoppedAfter).1 } := by
  refine ⟨fun index created => ?_, finalised.created⟩
  refine (finalised.closed index created).imp (fun already => ?_) id
  refine Eq.trans ?_ already
  exact Objects.set_get_view _ _ address index RecordedAudioFileWriter.closeCalled
    (RecordedAudioFileWriter.append_closeCalled _ _ _)

end AudioFields

/-- Whose file the field holds: that of the open session, or of an ended one
whose recorder has not reported its stop. -/
structure WavInvariant (world : World Sample) : Prop where
  finalised : world.audio.Finalised
  owned : ∀ index, world.audio.audioFileWriter = some index →
    world.session.recordingSessionId = some (world.audio.writers.get index).sessionId ∧
      (world.session.sessionActive = true ∨
        world.recorder.recordWorker ≠ none ∧ world.session.sessionEndRequested = true)
  named : world.session.recordingSessionId = none →
    world.session.sessionActive = false ∧ world.session.sessionEndRequested = false

/-- A name goes with an open session or with one that is to end. -/
def SessionCore.Named (core : SessionCore) : Prop :=
  core.recordingSessionId = none → core.sessionActive = false ∧ core.sessionEndRequested = false

theorem SessionCore.Named.keptOrClosed {before after : SessionCore} (named : before.Named)
    (kept : before.KeptOrClosed after) : after.Named := by
  rcases kept with same | closed
  · rw [same]
    exact named
  · rw [closed]
    exact fun _ => ⟨rfl, rfl⟩

namespace WavInvariant

variable {before after : World Sample}

/-- Nothing is asked of the field when it is empty. -/
theorem of_free (finalised : after.audio.Finalised) (free : after.audio.audioFileWriter = none)
    (named : after.core.Named) : WavInvariant after := by
  refine ⟨finalised, ?_, named⟩
  intro index held
  rw [free] at held
  cases held

/-- The session and its file stay, and so does the recorder in the field,
unless the session is open. -/
theorem of_frame (inv : WavInvariant before) (audio : after.audio = before.audio)
    (name : after.session.recordingSessionId = before.session.recordingSessionId)
    (active : after.session.sessionActive = before.session.sessionActive)
    (ending : after.session.sessionEndRequested = before.session.sessionEndRequested)
    (recorder : before.session.sessionActive = true ∨ before.recorder.recordWorker = none ∨
      after.recorder.recordWorker ≠ none) : WavInvariant after := by
  refine ⟨?_, ?_, ?_⟩
  · rw [audio]
    exact inv.finalised
  · intro index held
    rw [audio] at held ⊢
    rw [active, ending, name]
    obtain ⟨named, isOpen | ⟨stored, closing⟩⟩ := inv.owned index held
    · exact ⟨named, .inl isOpen⟩
    · rcases recorder with isActive | none | kept
      · exact ⟨named, .inl isActive⟩
      · exact absurd none stored
      · exact ⟨named, .inr ⟨kept, closing⟩⟩
  · rw [active, ending, name]
    exact inv.named

/-- The field `recordWorker` stays as well. -/
theorem of_same (inv : WavInvariant before) (audio : after.audio = before.audio)
    (core : after.core = before.core)
    (recorder : after.recorder.recordWorker = before.recorder.recordWorker) :
    WavInvariant after := by
  refine inv.of_frame audio (congrArg SessionCore.recordingSessionId core)
    (congrArg SessionCore.sessionActive core) (congrArg SessionCore.sessionEndRequested core) ?_
  rw [recorder]
  exact .inr (or_not)

theorem of_stop (inv : WavInvariant before)
    (kept : after.core = before.core ∨
      after.core = .closed ∧ before.audio.audioFileWriter = none)
    (audio : after.audio = before.audio)
    (recorder : after.recorder.recordWorker = before.recorder.recordWorker) :
    WavInvariant after := by
  rcases kept with core | ⟨closed, free⟩
  · exact inv.of_same audio core recorder
  · apply of_free
    · rw [audio]
      exact inv.finalised
    · rw [audio]
      exact free
    · rw [closed]
      exact fun _ => ⟨rfl, rfl⟩

theorem of_keptOrStopped {found : World Sample → Prop} (inv : WavInvariant before)
    (kept : KeptOrStopped found before after)
    (free : found after → before.audio.audioFileWriter = none)
    (audio : after.audio = before.audio)
    (recorder : after.recorder.recordWorker = before.recorder.recordWorker) :
    WavInvariant after :=
  inv.of_stop (kept.imp And.left fun ⟨closed, _, _, what⟩ => ⟨closed, free what⟩) audio recorder

end WavInvariant

namespace World

variable (world : World Sample) (env : Environment)

theorem closeAudioFile_audio (enqueue : Bool) :
    (world.closeAudioFile enqueue env).audio = world.audio.close env.closeFails := by
  unfold closeAudioFile AudioFields.close
  cases stored : world.audio.audioFileWriter with
  | none => rfl
  | some address =>
    simp only
    split
    · rfl
    · split
      · rfl
      · split <;> rfl

theorem endRecording_audio : (world.endRecording env).audio = world.audio.close env.closeFails := by
  unfold endRecording
  simp only
  split
  · exact closeAudioFile_audio _ env true
  · split
    · exact closeAudioFile_audio _ env true
    · rw [(requestJsonThreadStop_frame _).2.2.2.1]
      exact closeAudioFile_audio _ env true

theorem endRecording_wavs (finalised : world.audio.Finalised) (named : world.core.Named) :
    WavInvariant (world.endRecording env) := by
  apply WavInvariant.of_free
  · rw [endRecording_audio]
    exact finalised.close
  · rw [endRecording_audio]
    exact AudioFields.close_field
  · exact named.keptOrClosed (endRecording_core world env)

theorem startRecordingWorkerForSession_wavs (inv : WavInvariant world)
    (active : world.session.sessionActive = true)
    (free : env.permission = false → world.audio.audioFileWriter = none) :
    WavInvariant (world.startRecordingWorkerForSession env) := by
  unfold startRecordingWorkerForSession
  split
  · rename_i refused
    exact inv.of_stop (.inr ⟨rfl, free (by simpa using refused)⟩) rfl rfl
  · simp only
    split
    · exact inv.of_same rfl rfl rfl
    · split
      · exact inv.of_frame rfl rfl rfl rfl (.inl active)
      · exact inv.of_frame rfl rfl rfl rfl (.inl active)

theorem finishRecordThread_wavs (inv : WavInvariant world)
    (free : world.ResumesRefused env → world.audio.audioFileWriter = none) :
    WavInvariant (world.finishRecordThread env) := by
  rcases world.finishRecordThread_cases env with
    ⟨unfinished, pending, active, resumed⟩ | ⟨unfinished, _, paused⟩ | ⟨_, ended⟩
  · rw [resumed]
    apply startRecordingWorkerForSession_wavs
    · exact inv.of_frame rfl rfl rfl rfl (.inl active)
    · exact active
    · exact fun refused => free ⟨refused, unfinished, pending, active⟩
  · rw [paused]
    refine ⟨inv.finalised, ?_, inv.named⟩
    intro index held
    obtain ⟨name, isOpen | ⟨_, ending⟩⟩ := inv.owned index held
    · exact ⟨name, .inl isOpen⟩
    · exact Bool.noConfusion (unfinished.symm.trans ending)
  · rw [ended]
    exact endRecording_wavs _ env inv.finalised inv.named

theorem requestRecordThreadStop_wavs (inv : WavInvariant world)
    (free : world.ResumesRefused env → world.audio.audioFileWriter = none) :
    WavInvariant (world.requestRecordThreadStop env) := by
  unfold requestRecordThreadStop
  split
  · exact finishRecordThread_wavs world env inv free
  · rename_i address _
    have asked (recorder : AudioRecordWorker Sample) :
        WavInvariant (world.setRecorder address recorder) := inv.of_same rfl rfl rfl
    simp only
    split
    · exact asked _
    · exact finishRecordThread_wavs _ env (asked _) free

private theorem requestPauseRecording_wavs (inv : WavInvariant world) :
    WavInvariant (world.requestPauseRecording env) := by
  unfold requestPauseRecording
  split
  · exact inv
  · rename_i guard
    simp only [Bool.or_eq_true, Bool.not_eq_true', not_or, Bool.not_eq_false] at guard
    apply requestRecordThreadStop_wavs
    · exact inv.of_frame rfl rfl rfl rfl (.inl guard.1)
    · exact fun refused => Bool.noConfusion refused.2.2.1

private theorem requestResumeRecording_wavs (inv : WavInvariant world)
    (free : GivesUp world (.intent .resumeRecording env) → world.audio.audioFileWriter = none) :
    WavInvariant (world.requestResumeRecording env) := by
  unfold requestResumeRecording
  split
  · exact inv
  · rename_i guard
    simp only [Bool.or_eq_true, Bool.not_eq_true', not_or, Bool.not_eq_false,
      Bool.not_eq_true] at guard
    split
    · exact inv.of_same rfl rfl rfl
    · rename_i dead
      refine startRecordingWorkerForSession_wavs world env inv guard.1 fun refused => ?_
      exact free ⟨refused, guard.1, guard.2, by simpa using dead⟩

/-- The end of a session either waits for the recorder's stop event, or closes
the file at once. -/
theorem requestStopRecording_wavs (inv : WavInvariant world) :
    WavInvariant (world.requestStopRecording env) := by
  unfold requestStopRecording
  split
  · exact inv
  · rename_i inactive
    have active : world.session.sessionActive = true := by simpa using inactive
    have named : world.session.recordingSessionId ≠ none := by
      intro unnamed
      exact Bool.noConfusion (active.symm.trans (inv.named unnamed).1)
    simp only
    split
    · rename_i live
      have stored : world.recorder.recordWorker ≠ none := by
        intro empty
        simp [liveRecorder, empty] at live
      apply requestRecordThreadStop_wavs
      · refine ⟨inv.finalised, ?_, fun unnamed => absurd unnamed named⟩
        exact fun index held => ⟨(inv.owned index held).1, .inr ⟨stored, rfl⟩⟩
      · exact fun refused => Bool.noConfusion refused.2.1
    · exact endRecording_wavs _ env inv.finalised fun unnamed => absurd unnamed named

theorem stopInferenceIfNotRecording_wavs (finalised : world.audio.Finalised)
    (free : world.audio.audioFileWriter = none)
    (named : world.session.recordingSessionId ≠ none) :
    WavInvariant world.stopInferenceIfNotRecording := by
  have audio := (stopInferenceIfNotRecording_frame world).2.2.1
  have closing : ({ world with session := { world.session with
      sessionActive := false, sessionEndRequested := true } } : World Sample).core.Named :=
    fun unnamed => absurd unnamed named
  apply WavInvariant.of_free
  · rw [audio]
    exact finalised
  · rw [audio]
    exact free
  · unfold stopInferenceIfNotRecording
    simp only
    split
    · split
      · exact closing
      · exact closing.keptOrClosed (requestJsonThreadStop_core _)
    · exact closing.keptOrClosed (requestJsonThreadStop_core _)

/-- The file that was opened for the session is the one the field holds while
the session is open. -/
theorem openSession_wavs (time : Text) (bufferSize : Nat) (finalised : world.audio.Finalised)
    (session : Text) (name : world.session.recordingSessionId = some session)
    (file : ∀ index, world.audio.audioFileWriter = some index →
      (world.audio.writers.get index).sessionId = session) :
    WavInvariant (world.openSession time bufferSize env) := by
  unfold openSession
  simp only
  split
  · have audio : ((((world.activateSession time).createRecorder bufferSize env).1.releaseMediaProjection
        ).closeAudioFile false env).audio = world.audio.close env.closeFails :=
      closeAudioFile_audio _ env false
    apply stopInferenceIfNotRecording_wavs
    · rw [(publishState_frame _ _).2.2.2.2.2.2.1, audio]
      exact finalised.close
    · rw [(publishState_frame _ _).2.2.2.2.2.2.1, audio]
      exact AudioFields.close_field
    · simp only [publishState_frame, closeAudioFile_frame, releaseMediaProjection_frame,
        createRecorder_frame]
      exact fun unnamed => Option.some_ne_none session (name.symm.trans unnamed)
  · refine ⟨finalised, ?_, ?_⟩
    · intro index held
      exact ⟨name.trans (congrArg some (file index held).symm), .inl rfl⟩
    · intro unnamed
      exact absurd (name.symm.trans unnamed) (Option.some_ne_none session)

section Pipeline

variable [Inhabited Sample]

private theorem prepareSession_wavs (finalised : world.audio.Finalised)
    (free : world.audio.audioFileWriter = none) : WavInvariant (world.prepareSession env) := by
  have core := ensureInferenceAccepting_core (world.nameSession env) (world.nextSessionTime env)
  have name := congrArg SessionCore.recordingSessionId core
  have audio : ((world.nameSession env).ensureInferenceAccepting
      (world.nextSessionTime env)).1.audio = world.audio := by simp
  have opened := ((world.nameSession env).ensureInferenceAccepting
    (world.nextSessionTime env)).1.openAudioFile_cases env
      (sessionId sessionPurpose (world.nextSessionTime env))
  rw [audio] at opened
  rcases world.prepareSession_cases env with
    ⟨_, waits⟩ | ⟨_, other, prepared, files, given⟩ | ⟨_, other, _, prepared, files, _, starts⟩
  · rw [waits]
    apply WavInvariant.of_free
    · exact audio ▸ finalised
    · exact (congrArg AudioFields.audioFileWriter audio).trans free
    · exact fun unnamed => absurd (name.symm.trans unnamed) (Option.some_ne_none _)
  · rw [given]
    have named : other.session.recordingSessionId ≠ none := by
      rw [prepared.session]
      exact fun unnamed => Option.some_ne_none _ (name.symm.trans unnamed)
    rcases files with same | ⟨middle, stored, closed⟩
    · rw [audio] at same
      apply stopInferenceIfNotRecording_wavs other
      · exact same ▸ finalised
      · rw [same]
        exact free
      · exact named
    · rw [closeAudioFile_audio, stored] at closed
      apply stopInferenceIfNotRecording_wavs other
      · rw [closed]
        rcases opened with same | ⟨_, new⟩
        · rw [same]
          exact finalised.close
        · rw [new]
          exact (finalised.opened free _).close
      · rw [closed]
        exact AudioFields.close_field
      · exact named
  · rw [starts]
    apply openSession_wavs other env _ _ ?_
      (sessionId sessionPurpose (world.nextSessionTime env))
    · rw [prepared.session]
      exact name
    · intro index held
      rw [files] at held ⊢
      rcases opened with same | ⟨_, new⟩
      · rw [same, free] at held
        cases held
      · rw [new] at held ⊢
        cases held
        exact congrArg RecordedAudioFileWriter.sessionId (Objects.create_get_new _ _)
    · rw [files]
      rcases opened with same | ⟨_, new⟩
      · rw [same]
        exact finalised
      · rw [new]
        exact finalised.opened free _

/-- The earlier session is over: it is not open, and its recorder has reported
its stop. -/
def SessionOver (world : World Sample) : Prop :=
  world.session.sessionActive = false ∧ world.recorder.recordWorker = none

omit [Inhabited Sample] in
theorem SessionOver.free {world : World Sample} (ended : world.SessionOver)
    (inv : WavInvariant world) : world.audio.audioFileWriter = none := by
  obtain ⟨inactive, none⟩ := ended
  cases held : world.audio.audioFileWriter with
  | none => rfl
  | some index =>
    obtain ⟨_, active | ⟨stored, _⟩⟩ := inv.owned index held
    · exact Bool.noConfusion (inactive.symm.trans active)
    · exact absurd none stored

private theorem startRecordingInternal_wavs (inv : WavInvariant world)
    (ended : world.preparesSession env = true → world.SessionOver)
    (free : world.StartRefused env → world.audio.audioFileWriter = none) :
    WavInvariant (world.startRecordingInternal env) := by
  rcases world.startRecordingInternal_cases env with
    ⟨prepares, prepared⟩ | ⟨_, _, _, waits⟩ | ⟨refused, silent, gone, idle, setup, screen, message,
      reason, _, stopped⟩
  · rw [prepared]
    exact prepareSession_wavs (world.loadSettings env) env inv.finalised ((ended prepares).free inv)
  · rw [waits]
    exact inv.of_same rfl rfl rfl
  · rw [stopped]
    exact inv.of_stop
      (.inr ⟨rfl, free (startRefused_of_not_prepares refused silent gone idle)⟩) rfl rfl

omit [Inhabited Sample] in
private theorem enqueueSelectedFile_wavs (uri : Option Text) (inv : WavInvariant world)
    (free : uri = none → world.audio.audioFileWriter = none) :
    WavInvariant (world.enqueueSelectedFile uri env) := by
  have frame := enqueueSelectedFile_frame world env uri
  refine inv.of_stop ?_ frame.2.2.2.2.1 (by rw [frame.2.1])
  cases uri with
  | none => exact .inr ⟨rfl, free rfl⟩
  | some uri =>
    left
    unfold enqueueSelectedFile
    rcases startNextRetranscriptionOrStop_cases (world.offerRetranscription _) with
      ⟨core, _⟩ | ⟨_, _, _, _, empty, _⟩ | ⟨_, _, _, _, started⟩
    · exact core
    · exact absurd empty (List.append_ne_nil_of_right_ne_nil _ (List.cons_ne_nil _ _))
    · simp only [started]
      rfl

omit [Inhabited Sample] in
private theorem requestStopFileTranscription_wavs (inv : WavInvariant world)
    (free : world.liveFileWorker = none → world.audio.audioFileWriter = none) :
    WavInvariant world.requestStopFileTranscription := by
  have frame := requestStopFileTranscription_frame world
  refine inv.of_stop ?_ frame.2.2.2.1 (by rw [frame.1])
  unfold requestStopFileTranscription
  simp only
  split
  · exact .inl rfl
  · rename_i idle
    exact .inr ⟨rfl, free idle⟩

private theorem onStartCommand_wavs (action : Intent) (inv : WavInvariant world)
    (free : GivesUp world (.intent action env) → world.audio.audioFileWriter = none) :
    WavInvariant (world.onStartCommand action env) := by
  cases action with
  | start request =>
    have frame := onStart_frame world env request
    have recorder : world.session.sessionActive = true ∨ world.recorder.recordWorker = none ∨
        (world.onStart request env).recorder.recordWorker ≠ none := by
      rw [frame.2.1]
      exact .inr or_not
    rcases world.onStart_core env request with same | ⟨_, same⟩
    · exact inv.of_frame frame.2.2.2.2.1 (congrArg SessionCore.recordingSessionId same)
        (congrArg SessionCore.sessionActive same) (congrArg SessionCore.sessionEndRequested same)
        recorder
    · exact inv.of_frame frame.2.2.2.2.1 (congrArg SessionCore.recordingSessionId same)
        (congrArg SessionCore.sessionActive same) (congrArg SessionCore.sessionEndRequested same)
        recorder
  | stop => exact requestStopRecording_wavs world env inv
  | pauseRecording => exact requestPauseRecording_wavs world env inv
  | resumeRecording => exact requestResumeRecording_wavs world env inv free
  | stopFileTranscription => exact requestStopFileTranscription_wavs world inv free
  | stopInference =>
    have frame := requestStopInference_frame world
    exact inv.of_same frame.2.2.2.1 (requestStopInference_core world)
      (congrArg RecorderFields.recordWorker frame.1)
  | resumeInference =>
    have frame := requestResumeInference_frame world
    exact inv.of_same frame.2.2.1 (requestResumeInference_core world)
      (congrArg RecorderFields.recordWorker frame.1)
  | transcribeFile uri => exact enqueueSelectedFile_wavs world env uri inv free

end Pipeline

end World

open World

section Steps

variable {world after : World Sample} {address : Nat}

theorem WavInvariant.of_close {fails : Bool} (inv : WavInvariant world)
    (audio : after.audio = world.audio.close fails) (core : after.core = world.core) :
    WavInvariant after := by
  apply WavInvariant.of_free
  · rw [audio]
    exact inv.finalised.close
  · rw [audio]
    exact AudioFields.close_field
  · rw [core]
    exact inv.named

theorem WavInvariant.onDestroy (inv : WavInvariant world) (env : Environment) :
    WavInvariant (world.onDestroy env) := by
  have audio : (world.onDestroy env).audio = world.audio.close env.closeFails := by
    refine Eq.trans ?_ (closeAudioFile_audio { world with life := { world.life with
      destroyed := true } } env false)
    unfold World.onDestroy
    simp only
    split <;> rfl
  have session : (world.onDestroy env).session.recordingSessionId =
      world.session.recordingSessionId ∧ (world.onDestroy env).session.sessionActive = false ∧
      (world.onDestroy env).session.sessionEndRequested = world.session.sessionEndRequested := by
    unfold World.onDestroy
    simp only
    split <;> simp
  obtain ⟨name, inactive, ending⟩ := session
  apply WavInvariant.of_free
  · rw [audio]
    exact inv.finalised.close
  · rw [audio]
    exact AudioFields.close_field
  · intro unnamed
    exact ⟨inactive, ending.trans (inv.named (name.symm.trans unnamed)).2⟩

/-- A recorder thread appends to a file, or closes it after a failed write. -/
theorem WavInvariant.recorderAdvance {answer : RecorderAnswer Sample} (inv : WavInvariant world)
    (taken : world.recorderAdvance address answer = some after) : WavInvariant after := by
  cases place : (world.recorder.workers.get address).phase <;>
    simp only [World.recorderAdvance, place] at taken
  case created | ended | stopped => cases taken
  case reading =>
    split at taken
    · cases taken
      exact inv.of_same rfl rfl rfl
    · split at taken <;> cases taken
      exact inv.of_same rfl rfl rfl
  case saving chunk writer =>
    cases taken
    have view (index : Nat) : (((world.saveChunk address chunk writer
        answer.stoppedAfter).audio.writers.get index).sessionId) =
        (world.audio.writers.get index).sessionId :=
      Objects.set_get_view _ _ writer index RecordedAudioFileWriter.sessionId
        (RecordedAudioFileWriter.append_sessionId _ _ _)
    refine ⟨inv.finalised.append writer chunk.sampleCount answer.stoppedAfter, ?_, inv.named⟩
    intro index held
    rw [view index]
    exact inv.owned index held
  case closingFile chunk =>
    cases taken
    have frame := closeAudioFile_frame world answer.env false
    exact inv.of_close (closeAudioFile_audio world answer.env false)
      (congrArg SessionFields.core frame.1)
  all_goals
    cases taken
    exact inv.of_same rfl rfl rfl

end Steps

/-- The step prepares a session only when the earlier one is over. -/
def PreparesAfterEnd (world : World Sample) : Label Sample → Prop
  | .startRecordingInternal env => world.preparesSession env = true → world.SessionOver
  | _ => True

/-- Moreover it stops the service only while no file is open. -/
structure StartsAfterEnd (world : World Sample) (label : Label Sample) : Prop where
  start : PreparesAfterEnd world label
  stop : FindsNothingLeft world label ∨ GivesUp world label → world.audio.audioFileWriter = none

section Runs

variable [Inhabited Sample] {world after : World Sample} {label : Label Sample}

private theorem recordStopped_wavs {address : Nat} {env : Environment} (inv : WavInvariant world)
    (free : GivesUp world (.recordStopped address env) → world.audio.audioFileWriter = none)
    (taken : world.recordStopped address env = some after) : WavInvariant after := by
  have moved : WavInvariant (world.moveRecorder address .stopped) := inv.of_same rfl rfl rfl
  obtain ⟨_, ⟨matching, rfl⟩ | ⟨_, rfl⟩⟩ := recordStopped_cases taken
  · exact finishRecordThread_wavs _ env moved fun refused => free ⟨matching, refused⟩
  · exact moved

private theorem whisperStopped_wavs {address : Nat} {env : Environment} (inv : WavInvariant world)
    (free : FindsNothingLeft world (.whisperStopped address env) →
      world.audio.audioFileWriter = none)
    (taken : world.whisperStopped address env = some after) : WavInvariant after := by
  have frame := whisperStopped_frame taken
  obtain ⟨_, ⟨matching, rfl⟩ | ⟨_, rfl⟩⟩ := whisperStopped_cases taken
  · refine inv.of_keptOrStopped (.prepend (onWhisperStopped_stops (world.retireThread address)
      (whisperStoppedEvent (world.inference.threads.get address).worker) rfl) rfl rfl) ?_
      frame.2.1 (by rw [frame.1])
    rintro ⟨waits, ending, json⟩
    exact free ⟨matching, waits.congr rfl rfl rfl rfl, ending, json⟩
  · exact inv.of_same rfl rfl rfl

private theorem jsonStopped_wavs {address : Nat} {env : Environment} (inv : WavInvariant world)
    (free : FindsNothingLeft world (.jsonStopped address env) →
      world.audio.audioFileWriter = none)
    (taken : world.jsonStopped address env = some after) : WavInvariant after := by
  have frame := jsonStopped_frame taken
  obtain ⟨_, ⟨matching, rfl⟩ | ⟨_, rfl⟩⟩ := jsonStopped_cases taken
  · refine inv.of_keptOrStopped (.prepend (finishIdleWorkIfPossible_stops
      (detachJson (world.retireJson address))) rfl rfl) ?_ frame.2.2.2.1 (by rw [frame.2.1])
    rintro ⟨waits, alive, reported⟩
    exact free ⟨matching, waits.congr rfl rfl rfl rfl, alive, reported⟩
  · exact inv.of_same rfl rfl rfl

private theorem step_wavs (inv : WavInvariant world) (meets : StartsAfterEnd world label)
    (taken : step world label = some after) : WavInvariant after := by
  have found := fun what => meets.stop (.inl what)
  have gives := fun why => meets.stop (.inr why)
  cases label with
  | intent action env =>
    simp only [step] at taken
    split at taken <;> cases taken
    exact onStartCommand_wavs world env action inv gives
  | startRecordingInternal env =>
    simp only [step] at taken
    split at taken <;> cases taken
    exact startRecordingInternal_wavs _ env (inv.of_same rfl rfl rfl) meets.start gives
  | projectionStopped env =>
    simp only [step] at taken
    split at taken
    · cases taken
    · split at taken <;> cases taken
      · exact requestStopRecording_wavs _ env (inv.of_same rfl rfl rfl)
      · exact inv
  | destroy env =>
    simp only [step] at taken
    split at taken <;> cases taken
    exact inv.onDestroy env
  | recorder address answer => exact inv.recorderAdvance taken
  | recorderThrows address message =>
    simp only [step] at taken
    split at taken <;> cases taken
    exact inv.of_same rfl rfl rfl
  | recordStopped address env => exact recordStopped_wavs inv gives taken
  | inference address answer =>
    have frame := inferenceAdvance_frame taken
    exact inv.of_same frame.2.2.2.2.1 (congrArg SessionFields.core frame.1)
      (congrArg RecorderFields.recordWorker frame.2.2.1)
  | whisperStopped address env => exact whisperStopped_wavs inv found taken
  | json address answer =>
    have frame := jsonAdvance_frame taken
    exact inv.of_same frame.2.2.2.2.2.1 (congrArg SessionFields.core frame.1)
      (congrArg RecorderFields.recordWorker frame.2.2.1)
  | jsonStopped address env => exact jsonStopped_wavs inv found taken
  | file address report =>
    have frame := fileAdvance_frame taken
    exact inv.of_same frame.2.2.2.2.2.1 (congrArg SessionFields.core frame.1)
      (congrArg RecorderFields.recordWorker frame.2.2.1)
  | fileComplete address =>
    have frame := fileComplete_frame taken
    refine inv.of_stop ?_ frame.2.2.2.2.1 (by rw [frame.2.1])
    rcases fileComplete_stops taken with ⟨core, _⟩ | ⟨closed, _, _, _, what⟩
    · exact .inl core
    · exact .inr ⟨closed, found what⟩

theorem wavInvariant_of_run (run : Reaches step StartsAfterEnd (initial : World Sample) world) :
    WavInvariant world := by
  apply run.invariant
  · exact WavInvariant.of_free ⟨nofun, nofun⟩ rfl fun _ => ⟨rfl, rfl⟩
  · intro before after label inv meets taken
    exact step_wavs inv meets taken

/-- Every file that was opened is closed before another takes its place in the
field, and by the stop event of the recorder that wrote it, unless its session
is only paused: then the file stays open and in the field. -/
structure WavsFinalised (world : World Sample) : Prop where
  finalised : world.audio.Finalised
  free : ∀ env, StartsAfterEnd world (.startRecordingInternal env) →
    world.preparesSession env = true → world.audio.audioFileWriter = none
  stopEvent : ∀ address env after index,
    step world (.recordStopped address env) = some after → world.life.destroyed = false →
      index < world.audio.writers.count →
      (world.recorder.workers.get address).stopEventId =
        (world.audio.writers.get index).sessionId ++ recordSuffix →
      (after.audio.writers.get index).closeCalled = true ∨
        world.session.sessionActive = true ∧ world.session.sessionEndRequested = false ∧
          world.session.recordingSessionId = some (world.audio.writers.get index).sessionId ∧
          world.audio.audioFileWriter = some index ∧ after.audio = world.audio

theorem recordStopped_closes {address index : Nat} {env : Environment} (inv : WavInvariant world)
    (taken : world.recordStopped address env = some after)
    (subscribed : world.life.destroyed = false) (ending : world.session.sessionEndRequested = true)
    (held : world.audio.audioFileWriter = some index)
    (wrote : (world.recorder.workers.get address).stopEventId =
      (world.audio.writers.get index).sessionId ++ recordSuffix) :
    (after.audio.writers.get index).closeCalled = true := by
  have finishes : (world.moveRecorder address .stopped).finishRecordThread env =
      (world.moveRecorder address .stopped).detachRecorder.endRecording env := by
    rcases (world.moveRecorder address .stopped).finishRecordThread_cases env with
      ⟨unfinished, _⟩ | ⟨unfinished, _⟩ | ⟨_, ended⟩
    · exact Bool.noConfusion (ending.symm.trans unfinished)
    · exact Bool.noConfusion (ending.symm.trans unfinished)
    · exact ended
  obtain ⟨_, ⟨_, rfl⟩ | ⟨ignored, rfl⟩⟩ := recordStopped_cases taken
  · rw [finishes, endRecording_audio]
    exact AudioFields.close_closed index (.inr ⟨held, inv.finalised.created index held⟩)
  · refine absurd ⟨subscribed, ?_⟩ ignored
    rw [(inv.owned index held).1]
    simp [belongsTo, AudioRecordWorker.stoppedEvent, wrote]

private theorem recordStopped_audio {address : Nat} {env : Environment}
    (taken : world.recordStopped address env = some after) :
    after.audio = world.audio ∨
      world.session.sessionEndRequested = true ∧ after.audio = world.audio.close env.closeFails := by
  obtain ⟨_, ⟨_, rfl⟩ | ⟨_, rfl⟩⟩ := recordStopped_cases taken
  · rcases (world.moveRecorder address .stopped).finishRecordThread_cases env with
      ⟨_, _, _, resumed⟩ | ⟨_, _, paused⟩ | ⟨ending, ended⟩
    · rw [resumed]
      exact .inl (startRecordingWorkerForSession_frame _ env).2.2.2.1
    · rw [paused]
      exact .inl rfl
    · rw [ended, endRecording_audio]
      exact .inr ⟨ending, rfl⟩
  · exact .inl rfl

/-- In a run that prepares a session only when the earlier one is over, and
stops the service only while no file is open, every opened file is finalised. -/
theorem wavs_finalised (run : Reaches step StartsAfterEnd (initial : World Sample) world) :
    WavsFinalised world := by
  have inv := wavInvariant_of_run run
  refine ⟨inv.finalised, fun env meets prepares => (meets.start prepares).free inv, ?_⟩
  intro address env after index taken subscribed created wrote
  have effect := recordStopped_audio taken
  rcases inv.finalised.closed index created with already | held
  · left
    rcases effect with same | ⟨_, closed⟩
    · rw [same]
      exact already
    · rw [closed]
      exact AudioFields.close_closed index (.inl already)
  · cases ending : world.session.sessionEndRequested with
    | true => exact .inl (recordStopped_closes inv taken subscribed ending held wrote)
    | false =>
      obtain ⟨name, active | ⟨_, closing⟩⟩ := inv.owned index held
      · refine .inr ⟨active, rfl, name, held, ?_⟩
        exact effect.elim id fun ⟨closing, _⟩ => Bool.noConfusion (ending.symm.trans closing)
      · exact Bool.noConfusion (ending.symm.trans closing)

end Runs

/-- Recordings are saved, and the next session is announced at this time. -/
def savingEnvironment (nanoTime : Nat) : Environment :=
  { quietEnvironment with
    nanoTime
    settings := .new "ct2-openai-small-int8" "cpp-small-q8-0" 5000 1000 1000 true false }

/-- A session records and is stopped until the service stops itself; another
one records and is stopped, and its recorder ends. -/
def recordTwice : List (Label Int) :=
  [.intent (.start none) (savingEnvironment 0),
    .startRecordingInternal (savingEnvironment 0),
    .intent .stop (savingEnvironment 0),
    .recorder 0 quietRecorder,
    .recorder 0 quietRecorder,
    .recorder 0 quietRecorder,
    .recordStopped 0 (savingEnvironment 0)] ++
  advances 0 7 ++ [.whisperStopped 0 (savingEnvironment 0)] ++ saves 0 5 ++
  [.jsonStopped 0 (savingEnvironment 0),
    .intent (.start none) (savingEnvironment 1),
    .startRecordingInternal (savingEnvironment 1),
    .intent .stop (savingEnvironment 1),
    .recorder 1 quietRecorder,
    .recorder 1 quietRecorder,
    .recorder 1 quietRecorder]

/-- A check that is enough for `StartsAfterEnd`. -/
def startsAfterEndCheck (world : World Int) : Label Int → Bool
  | .startRecordingInternal _ => !world.session.sessionActive &&
      world.recorder.recordWorker.isNone && world.audio.audioFileWriter.isNone
  | .recordStopped _ env => env.permission
  | .intent (.transcribeFile uri) _ => uri.isSome
  | .intent .stopFileTranscription _ => false
  | .intent .resumeRecording env => env.permission
  | .whisperStopped .. | .jsonStopped .. | .fileComplete _ => world.audio.audioFileWriter.isNone
  | _ => true

private theorem startsAfterEnd_of_check {world : World Int} {label : Label Int}
    (checked : startsAfterEndCheck world label = true) : StartsAfterEnd world label := by
  cases label with
  | startRecordingInternal env =>
    simp only [startsAfterEndCheck, Bool.and_eq_true, Bool.not_eq_true',
      Option.isNone_iff_eq_none] at checked
    exact ⟨fun _ => checked.1, fun _ => checked.2⟩
  | recordStopped address env =>
    refine ⟨trivial, fun stops => ?_⟩
    exact Bool.noConfusion ((stops.resolve_left id).2.1.symm.trans checked)
  | whisperStopped | jsonStopped | fileComplete =>
    exact ⟨trivial, fun _ => Option.isNone_iff_eq_none.mp checked⟩
  | intent action env =>
    refine ⟨trivial, fun stops => ?_⟩
    have gives := stops.resolve_left id
    cases action with
    | transcribeFile uri =>
      obtain rfl : uri = none := gives
      cases checked
    | stopFileTranscription => cases checked
    | resumeRecording => exact Bool.noConfusion (gives.1.symm.trans checked)
    | start | stop | pauseRecording | stopInference | resumeInference => exact gives.elim
  | projectionStopped | destroy | recorder | recorderThrows | inference | json | file =>
    exact ⟨trivial, fun stops => stops.elim False.elim False.elim⟩

theorem wavs_finalised_run :
    ∃ world, Reaches step StartsAfterEnd (initial : World Int) world ∧
      world.session.sessionEndRequested = true ∧ world.audio.audioFileWriter = some 1 ∧
      WavsFinalised world := by
  have checked : (executeChecked step startsAfterEndCheck (initial : World Int)
      recordTwice).map (fun world =>
        (world.session.sessionEndRequested, world.audio.audioFileWriter)) =
      some (true, some 1) := by decide +kernel
  obtain ⟨world, result, seen⟩ := Option.map_eq_some_iff.mp checked
  obtain ⟨ending, held⟩ := Prod.mk.inj seen
  have run : Reaches step StartsAfterEnd (initial : World Int) world :=
    (Reaches.of_executeChecked result).weaken fun _ _ => startsAfterEnd_of_check
  exact ⟨world, run, ending, held, wavs_finalised run⟩

/-- A session is paused, its inference is stopped, and a recording is started
without ending the session. -/
def startWhilePaused : List (Label Int) :=
  [.intent (.start none) (savingEnvironment 0),
    .startRecordingInternal (savingEnvironment 0),
    .intent .pauseRecording (savingEnvironment 0),
    .recorder 0 quietRecorder,
    .recorder 0 quietRecorder,
    .recorder 0 quietRecorder,
    .recordStopped 0 (savingEnvironment 0),
    .intent .stopInference (savingEnvironment 0)] ++
  advances 0 7 ++
  [.whisperStopped 0 (savingEnvironment 0),
    .intent (.start none) (savingEnvironment 1),
    .startRecordingInternal (savingEnvironment 1)]

/-- The second file takes the place of the first, which is never closed. -/
theorem wav_overwritten :
    ¬ ∀ world, Reachable step (initial : World Int) world → world.audio.Finalised := by
  intro always
  have lost : (execute step (initial : World Int) startWhilePaused).map (fun world =>
      (world.audio.audioFileWriter, decide (0 < world.audio.writers.count),
        (world.audio.writers.get 0).closeCalled)) = some (some 1, true, false) := by decide +kernel
  obtain ⟨world, run, seen⟩ := Option.map_eq_some_iff.mp lost
  simp only [Prod.mk.injEq, decide_eq_true_eq] at seen
  obtain ⟨stored, created, unclosed⟩ := seen
  rcases (always world (.of_execute run)).closed 0 created with already | held
  · exact Bool.noConfusion (unclosed.symm.trans already)
  · rw [stored] at held
    cases held

end LocalWhisper.Service
