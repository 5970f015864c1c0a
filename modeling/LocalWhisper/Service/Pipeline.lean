import LocalWhisper.Service.Sessions

/-! What the methods leave of the live pipeline. Apart from those that open a
session or start a worker, a method at most asks workers to stop. -/

namespace LocalWhisper.Service

open LocalWhisper.Machine LocalWhisper.Record LocalWhisper.Transcription

variable {Sample : Type}

/-- The identifiers of the open session and of the one that is announced. -/
def SessionFields.names (session : SessionFields) : Option Text × Option Text × Option Text :=
  (session.recordingSessionId, session.recordingTimeData, session.pendingRecordingTimeData)

/-- No session was opened or named; all names may have been given up. -/
def NamesKept (before after : SessionFields) : Prop :=
  after.names = before.names ∧ (after.sessionActive = true → before.sessionActive = true) ∨
  after.names = (none, none, none) ∧ after.sessionActive = false

namespace NamesKept

variable {before after later : SessionFields}

theorem trans (first : NamesKept before after) (second : NamesKept after later) :
    NamesKept before later := by
  rcases second with ⟨names, active⟩ | closed
  · rcases first with ⟨earlier, wasActive⟩ | ⟨gone, inactive⟩
    · exact .inl ⟨names.trans earlier, fun set => wasActive (active set)⟩
    · refine .inr ⟨names.trans gone, ?_⟩
      rw [Bool.eq_false_iff]
      exact fun set => Bool.noConfusion (inactive.symm.trans (active set))
  · exact .inr closed

theorem of_core {before after : World Sample} (kept : before.core.KeptOrClosed after.core) :
    NamesKept before.session after.session := by
  have names (world : World Sample) : world.session.names =
      (world.core.recordingSessionId, world.core.recordingTimeData,
        world.core.pendingRecordingTimeData) := rfl
  have active (world : World Sample) :
      world.session.sessionActive = world.core.sessionActive := rfl
  rw [NamesKept, names, names, active, active]
  rcases kept with same | closed
  · rw [same]
    exact .inl ⟨rfl, id⟩
  · rw [closed]
    exact .inr ⟨rfl, rfl⟩

end NamesKept

/-- The thread goes on unchanged, or it was asked to stop. -/
def Asked (thread other : InferenceThread Sample) : Prop :=
  other = thread ∨ other = { thread with worker := thread.worker.requestStop.1 }

theorem Asked.trans {thread middle other : InferenceThread Sample} (first : Asked thread middle)
    (second : Asked middle other) : Asked thread other := by
  rcases second with rfl | rfl
  · exact first
  · rcases first with rfl | rfl
    · exact .inr rfl
    · exact .inr rfl

/-- The live pipeline is as it was, except that workers may have been asked to
stop, and audio is handed on only where it was before or where there is a
worker for it. -/
structure PipelineKept (before after : World Sample) : Prop where
  fields : after.inference = { before.inference with threads := after.inference.threads }
  count : after.inference.threads.count = before.inference.threads.count
  threads : ∀ address, Asked (before.inference.threads.get address)
    (after.inference.threads.get address)
  accepting : after.session.inferenceAccepting = true →
    before.session.inferenceAccepting = true ∨
      ∃ address, before.inference.transcriptionWorker = some address
  names : NamesKept before.session after.session

namespace PipelineKept

variable {before after later : World Sample}

/-- A change that leaves the group `inference` alone. -/
theorem of_frame (same : after.inference = before.inference)
    (accepting : after.session.inferenceAccepting = true →
      before.session.inferenceAccepting = true)
    (names : NamesKept before.session after.session) : PipelineKept before after :=
  ⟨by rw [same], by rw [same], fun address => by rw [same]; exact .inl rfl,
    fun set => .inl (accepting set), names⟩

theorem refl (world : World Sample) : PipelineKept world world :=
  of_frame rfl id (.inl ⟨rfl, id⟩)

theorem trans (first : PipelineKept before after) (second : PipelineKept after later) :
    PipelineKept before later := by
  refine ⟨?_, second.count.trans first.count, fun address =>
    (first.threads address).trans (second.threads address), ?_, first.names.trans second.names⟩
  · rw [second.fields, first.fields]
  · intro accepting
    rcases second.accepting accepting with earlier | there
    · exact first.accepting earlier
    · rw [first.fields] at there
      exact .inr there

theorem prepend (second : PipelineKept after later)
    (same : after.inference = before.inference)
    (accepting : after.session.inferenceAccepting = true →
      before.session.inferenceAccepting = true)
    (names : NamesKept before.session after.session) : PipelineKept before later :=
  (of_frame same accepting names).trans second

end PipelineKept

namespace World

variable (world : World Sample) (env : Environment)

theorem stopTranscription_kept (address : Nat) :
    PipelineKept world (world.stopTranscription address) := by
  refine ⟨rfl, rfl, fun index => ?_, .inl, .inl ⟨rfl, id⟩⟩
  by_cases here : index = address ∧ address < world.inference.threads.count
  · right
    rw [here.1]
    exact Objects.set_get_self _ _ here.2
  · left
    exact if_neg here

theorem drainTranscription_kept (address : Nat) :
    PipelineKept world (world.drainTranscription address) :=
  .prepend (stopTranscription_kept _ address) rfl nofun (.inl ⟨rfl, id⟩)

theorem startNextRetranscriptionOrStop_kept :
    PipelineKept world world.startNextRetranscriptionOrStop := by
  apply PipelineKept.of_frame (startNextRetranscriptionOrStop_frame world).2.2.1
  · unfold startNextRetranscriptionOrStop
    split
    · split <;> exact id
    · split
      · exact id
      · split <;> exact nofun
  · exact .of_core (startNextRetranscriptionOrStop_core world)

theorem finishIdleWorkIfPossible_kept :
    PipelineKept world world.finishIdleWorkIfPossible := by
  unfold finishIdleWorkIfPossible
  split
  · exact .of_frame rfl id (.inl ⟨rfl, id⟩)
  · split
    · exact .refl world
    · simp only
      split
      · split
        · exact .of_frame rfl id (.inl ⟨rfl, id⟩)
        · exact .prepend (startNextRetranscriptionOrStop_kept _) rfl id (.inl ⟨rfl, id⟩)
      · split
        · exact .of_frame rfl id (.inl ⟨rfl, id⟩)
        · exact startNextRetranscriptionOrStop_kept _

theorem requestJsonThreadStop_kept : PipelineKept world world.requestJsonThreadStop := by
  unfold requestJsonThreadStop
  simp only
  split
  · exact .prepend (finishIdleWorkIfPossible_kept _) rfl id (.inl ⟨rfl, id⟩)
  · split
    · exact .of_frame rfl id (.inl ⟨rfl, id⟩)
    · exact .prepend (finishIdleWorkIfPossible_kept _) rfl id (.inl ⟨rfl, id⟩)

theorem stopInferenceIfNotRecording_kept :
    PipelineKept world world.stopInferenceIfNotRecording := by
  have closed : PipelineKept world { world with session := { world.session with
      sessionActive := false, sessionEndRequested := true } } :=
    .of_frame rfl id (.inl ⟨rfl, nofun⟩)
  unfold stopInferenceIfNotRecording
  simp only
  split
  · split
    · exact closed.trans (drainTranscription_kept _ _)
    · exact closed.trans (requestJsonThreadStop_kept _)
  · exact closed.trans (requestJsonThreadStop_kept _)

theorem closeAudioFile_kept (enqueue : Bool) :
    PipelineKept world (world.closeAudioFile enqueue env) := by
  apply PipelineKept.of_frame
  · simp
  · simp
  · rw [(closeAudioFile_frame world env enqueue).1]
    exact .inl ⟨rfl, id⟩

private theorem createRecorder_kept (bufferSize : Nat) :
    PipelineKept world (world.createRecorder bufferSize env).1 :=
  .of_frame rfl id (.inl ⟨rfl, id⟩)

theorem startRecordingWorkerForSession_kept :
    PipelineKept world (world.startRecordingWorkerForSession env) := by
  have same := (startRecordingWorkerForSession_frame world env).1
  unfold startRecordingWorkerForSession at same ⊢
  split
  · exact .of_frame rfl nofun (.inr ⟨rfl, rfl⟩)
  · simp only
    split
    · exact .of_frame rfl id (.inl ⟨rfl, id⟩)
    · split <;> exact .of_frame rfl id (.inl ⟨rfl, id⟩)

private theorem endRecording_kept : PipelineKept world (world.endRecording env) := by
  have closed : PipelineKept world (world.releaseMediaProjection.closeAudioFile true env) :=
    .prepend (closeAudioFile_kept _ env true) rfl id (.inl ⟨rfl, id⟩)
  unfold endRecording
  simp only
  split
  · exact closed.trans (.of_frame rfl id (.inl ⟨rfl, id⟩))
  · split
    · exact closed.trans (drainTranscription_kept _ _)
    · exact closed.trans (requestJsonThreadStop_kept _)

theorem finishRecordThread_kept : PipelineKept world (world.finishRecordThread env) := by
  have detached : PipelineKept world world.detachRecorder := .of_frame rfl id (.inl ⟨rfl, id⟩)
  rcases world.finishRecordThread_cases env with
    ⟨_, _, _, resumed⟩ | ⟨_, _, paused⟩ | ⟨_, ended⟩
  · rw [resumed]
    exact detached.trans (startRecordingWorkerForSession_kept _ env)
  · rw [paused]
    exact .of_frame rfl id (.inl ⟨rfl, id⟩)
  · rw [ended]
    exact detached.trans (endRecording_kept _ env)

theorem requestRecordThreadStop_kept :
    PipelineKept world (world.requestRecordThreadStop env) := by
  unfold requestRecordThreadStop
  split
  · exact finishRecordThread_kept world env
  · simp only
    split
    · exact .of_frame rfl id (.inl ⟨rfl, id⟩)
    · exact .prepend (finishRecordThread_kept _ env) rfl id (.inl ⟨rfl, id⟩)

theorem requestStopRecording_kept : PipelineKept world (world.requestStopRecording env) := by
  unfold requestStopRecording
  split
  · exact .refl world
  · simp only
    split
    · exact .prepend (requestRecordThreadStop_kept _ env) rfl nofun (.inl ⟨rfl, nofun⟩)
    · exact .prepend (finishRecordThread_kept _ env) rfl nofun (.inl ⟨rfl, nofun⟩)

theorem requestPauseRecording_kept : PipelineKept world (world.requestPauseRecording env) := by
  unfold requestPauseRecording
  split
  · exact .refl world
  · exact .prepend (requestRecordThreadStop_kept _ env) rfl id (.inl ⟨rfl, id⟩)

theorem requestResumeRecording_kept : PipelineKept world (world.requestResumeRecording env) := by
  unfold requestResumeRecording
  split
  · exact .refl world
  · split
    · exact .of_frame rfl id (.inl ⟨rfl, id⟩)
    · exact startRecordingWorkerForSession_kept world env

theorem requestStopFileTranscription_kept :
    PipelineKept world world.requestStopFileTranscription := by
  apply PipelineKept.of_frame (requestStopFileTranscription_frame world).2.1
  · unfold requestStopFileTranscription
    simp only
    split
    · exact id
    · exact nofun
  · exact .of_core (requestStopFileTranscription_core world)

theorem enqueueSelectedFile_kept (uri : Option Text) :
    PipelineKept world (world.enqueueSelectedFile uri env) := by
  unfold enqueueSelectedFile
  split
  · exact .of_frame rfl nofun (.inr ⟨rfl, rfl⟩)
  · exact .prepend (startNextRetranscriptionOrStop_kept _) rfl id (.inl ⟨rfl, id⟩)

theorem onRetranscriptionComplete_kept :
    PipelineKept world world.onRetranscriptionComplete := by
  unfold onRetranscriptionComplete
  split
  · exact .refl world
  · simp only
    split
    · exact .of_frame rfl nofun (.inl ⟨rfl, id⟩)
    · exact .prepend (startNextRetranscriptionOrStop_kept _) rfl nofun (.inl ⟨rfl, id⟩)

theorem requestStopInference_kept : PipelineKept world world.requestStopInference := by
  unfold requestStopInference
  split
  · exact .refl world
  · split
    · exact .refl world
    · rename_i address _ _
      have asked := stopTranscription_kept { world with
        pending := { world.pending with pendingInferenceResume := false }
        session := { world.session with
          inferenceAccepting := false } }.updateSessionState address
      exact ⟨asked.fields, asked.count, asked.threads, nofun, .inl ⟨rfl, id⟩⟩

theorem openSession_kept (time : Text) (bufferSize : Nat) :
    PipelineKept (world.activateSession time) (world.openSession time bufferSize env) := by
  unfold openSession
  simp only
  split
  · refine .trans ?_ (stopInferenceIfNotRecording_kept _)
    have created := createRecorder_kept (world.activateSession time) env bufferSize
    have closed := closeAudioFile_kept
      ((world.activateSession time).createRecorder bufferSize env).1.releaseMediaProjection env false
    exact created.trans ⟨closed.fields, closed.count, closed.threads, closed.accepting, closed.names⟩
  · exact .of_frame rfl id (.inl ⟨rfl, id⟩)

end World

end LocalWhisper.Service
