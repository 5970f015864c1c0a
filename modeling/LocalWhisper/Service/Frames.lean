import LocalWhisper.Service.Step

/-! What the methods of the service leave alone. Each theorem lists the groups
of fields that one method does not write, and serves as a rewriting rule. -/

namespace LocalWhisper.Service.World

open LocalWhisper.Machine LocalWhisper.Record LocalWhisper.Transcription
open LocalWhisper.TransscriptsJSON

variable {Sample : Type} (world : World Sample) (env : Environment)

@[simp] theorem publishState_frame (message : String) :
    (world.publishState message).session = world.session ∧
    (world.publishState message).pending = world.pending ∧
    (world.publishState message).recorder = world.recorder ∧
    (world.publishState message).inference = world.inference ∧
    (world.publishState message).json = world.json ∧
    (world.publishState message).file = world.file ∧
    (world.publishState message).audio = world.audio ∧
    (world.publishState message).setup = world.setup ∧
    (world.publishState message).life = world.life :=
  ⟨rfl, rfl, rfl, rfl, rfl, rfl, rfl, rfl, rfl⟩

@[simp] theorem updateSessionState_frame :
    world.updateSessionState.pending = world.pending ∧
    world.updateSessionState.recorder = world.recorder ∧
    world.updateSessionState.inference = world.inference ∧
    world.updateSessionState.json = world.json ∧
    world.updateSessionState.file = world.file ∧
    world.updateSessionState.audio = world.audio ∧
    world.updateSessionState.setup = world.setup ∧
    world.updateSessionState.screen = world.screen ∧
    world.updateSessionState.life = world.life :=
  ⟨rfl, rfl, rfl, rfl, rfl, rfl, rfl, rfl, rfl⟩

/-- `updateSessionState` writes only `currentState`. -/
@[simp] theorem updateSessionState_session :
    world.updateSessionState.session.sessionActive = world.session.sessionActive ∧
    world.updateSessionState.session.recording = world.session.recording ∧
    world.updateSessionState.session.inferenceAlive = world.session.inferenceAlive ∧
    world.updateSessionState.session.inferenceAccepting = world.session.inferenceAccepting ∧
    world.updateSessionState.session.recordingSessionId = world.session.recordingSessionId ∧
    world.updateSessionState.session.recordingTimeData = world.session.recordingTimeData ∧
    world.updateSessionState.session.pendingRecordingTimeData =
      world.session.pendingRecordingTimeData ∧
    world.updateSessionState.session.sessionEndRequested = world.session.sessionEndRequested :=
  ⟨rfl, rfl, rfl, rfl, rfl, rfl, rfl, rfl⟩

@[simp] theorem releaseMediaProjection_frame :
    world.releaseMediaProjection.session = world.session ∧
    world.releaseMediaProjection.pending = world.pending ∧
    world.releaseMediaProjection.recorder = world.recorder ∧
    world.releaseMediaProjection.inference = world.inference ∧
    world.releaseMediaProjection.json = world.json ∧
    world.releaseMediaProjection.file = world.file ∧
    world.releaseMediaProjection.audio = world.audio ∧
    world.releaseMediaProjection.screen = world.screen ∧
    world.releaseMediaProjection.life = world.life :=
  ⟨rfl, rfl, rfl, rfl, rfl, rfl, rfl, rfl, rfl⟩

@[simp] theorem stopForegroundAndSelf_frame (reason : StopReason) :
    (world.stopForegroundAndSelf reason).pending = world.pending ∧
    (world.stopForegroundAndSelf reason).recorder = world.recorder ∧
    (world.stopForegroundAndSelf reason).inference = world.inference ∧
    (world.stopForegroundAndSelf reason).json = world.json ∧
    (world.stopForegroundAndSelf reason).file = world.file ∧
    (world.stopForegroundAndSelf reason).audio = world.audio ∧
    (world.stopForegroundAndSelf reason).setup = world.setup ∧
    (world.stopForegroundAndSelf reason).screen = world.screen :=
  ⟨rfl, rfl, rfl, rfl, rfl, rfl, rfl, rfl⟩

@[simp] theorem startRecordingInternalAsync_frame :
    world.startRecordingInternalAsync.session = world.session ∧
    world.startRecordingInternalAsync.pending = world.pending ∧
    world.startRecordingInternalAsync.recorder = world.recorder ∧
    world.startRecordingInternalAsync.inference = world.inference ∧
    world.startRecordingInternalAsync.json = world.json ∧
    world.startRecordingInternalAsync.file = world.file ∧
    world.startRecordingInternalAsync.audio = world.audio ∧
    world.startRecordingInternalAsync.setup = world.setup ∧
    world.startRecordingInternalAsync.screen = world.screen :=
  ⟨rfl, rfl, rfl, rfl, rfl, rfl, rfl, rfl, rfl⟩

@[simp] theorem setThread_frame (address : Nat) (thread : InferenceThread Sample) :
    (world.setThread address thread).session = world.session ∧
    (world.setThread address thread).pending = world.pending ∧
    (world.setThread address thread).recorder = world.recorder ∧
    (world.setThread address thread).json = world.json ∧
    (world.setThread address thread).file = world.file ∧
    (world.setThread address thread).audio = world.audio ∧
    (world.setThread address thread).setup = world.setup ∧
    (world.setThread address thread).screen = world.screen ∧
    (world.setThread address thread).life = world.life :=
  ⟨rfl, rfl, rfl, rfl, rfl, rfl, rfl, rfl, rfl⟩

@[simp] theorem setRecorder_frame (address : Nat) (recorder : AudioRecordWorker Sample) :
    (world.setRecorder address recorder).session = world.session ∧
    (world.setRecorder address recorder).pending = world.pending ∧
    (world.setRecorder address recorder).inference = world.inference ∧
    (world.setRecorder address recorder).json = world.json ∧
    (world.setRecorder address recorder).file = world.file ∧
    (world.setRecorder address recorder).audio = world.audio ∧
    (world.setRecorder address recorder).setup = world.setup ∧
    (world.setRecorder address recorder).screen = world.screen ∧
    (world.setRecorder address recorder).life = world.life :=
  ⟨rfl, rfl, rfl, rfl, rfl, rfl, rfl, rfl, rfl⟩

@[simp] theorem moveRecorder_frame (address : Nat) (phase : RecorderPhase Sample) :
    (world.moveRecorder address phase).session = world.session ∧
    (world.moveRecorder address phase).pending = world.pending ∧
    (world.moveRecorder address phase).inference = world.inference ∧
    (world.moveRecorder address phase).json = world.json ∧
    (world.moveRecorder address phase).file = world.file ∧
    (world.moveRecorder address phase).audio = world.audio ∧
    (world.moveRecorder address phase).setup = world.setup ∧
    (world.moveRecorder address phase).screen = world.screen ∧
    (world.moveRecorder address phase).life = world.life :=
  ⟨rfl, rfl, rfl, rfl, rfl, rfl, rfl, rfl, rfl⟩

@[simp] theorem stopTranscription_frame (address : Nat) :
    (world.stopTranscription address).session = world.session ∧
    (world.stopTranscription address).pending = world.pending ∧
    (world.stopTranscription address).recorder = world.recorder ∧
    (world.stopTranscription address).json = world.json ∧
    (world.stopTranscription address).file = world.file ∧
    (world.stopTranscription address).audio = world.audio ∧
    (world.stopTranscription address).setup = world.setup ∧
    (world.stopTranscription address).screen = world.screen ∧
    (world.stopTranscription address).life = world.life :=
  ⟨rfl, rfl, rfl, rfl, rfl, rfl, rfl, rfl, rfl⟩

@[simp] theorem drainTranscription_frame (address : Nat) :
    (world.drainTranscription address).session =
      { world.session with inferenceAccepting := false } ∧
    (world.drainTranscription address).pending = world.pending ∧
    (world.drainTranscription address).recorder = world.recorder ∧
    (world.drainTranscription address).json = world.json ∧
    (world.drainTranscription address).file = world.file ∧
    (world.drainTranscription address).audio = world.audio ∧
    (world.drainTranscription address).setup = world.setup ∧
    (world.drainTranscription address).screen = world.screen ∧
    (world.drainTranscription address).life = world.life :=
  ⟨rfl, rfl, rfl, rfl, rfl, rfl, rfl, rfl, rfl⟩

@[simp] theorem openAudioFile_frame (session : Text) :
    (world.openAudioFile session env).1.session = world.session ∧
    (world.openAudioFile session env).1.pending = world.pending ∧
    (world.openAudioFile session env).1.recorder = world.recorder ∧
    (world.openAudioFile session env).1.inference = world.inference ∧
    (world.openAudioFile session env).1.json = world.json ∧
    (world.openAudioFile session env).1.file = world.file ∧
    (world.openAudioFile session env).1.setup = world.setup ∧
    (world.openAudioFile session env).1.life = world.life := by
  unfold openAudioFile
  split
  · exact ⟨rfl, rfl, rfl, rfl, rfl, rfl, rfl, rfl⟩
  · split <;> exact ⟨rfl, rfl, rfl, rfl, rfl, rfl, rfl, rfl⟩

@[simp] theorem offerRetranscription_frame (request : RetranscriptionRequest) :
    (world.offerRetranscription request).session = world.session ∧
    (world.offerRetranscription request).pending = world.pending ∧
    (world.offerRetranscription request).recorder = world.recorder ∧
    (world.offerRetranscription request).inference = world.inference ∧
    (world.offerRetranscription request).json = world.json ∧
    (world.offerRetranscription request).audio = world.audio ∧
    (world.offerRetranscription request).setup = world.setup ∧
    (world.offerRetranscription request).screen = world.screen ∧
    (world.offerRetranscription request).life = world.life :=
  ⟨rfl, rfl, rfl, rfl, rfl, rfl, rfl, rfl, rfl⟩

@[simp] theorem closeAudioFile_frame (enqueue : Bool) :
    (world.closeAudioFile enqueue env).session = world.session ∧
    (world.closeAudioFile enqueue env).pending = world.pending ∧
    (world.closeAudioFile enqueue env).recorder = world.recorder ∧
    (world.closeAudioFile enqueue env).inference = world.inference ∧
    (world.closeAudioFile enqueue env).json = world.json ∧
    (world.closeAudioFile enqueue env).setup = world.setup ∧
    (world.closeAudioFile enqueue env).screen = world.screen ∧
    (world.closeAudioFile enqueue env).life = world.life := by
  unfold closeAudioFile
  split
  · exact ⟨rfl, rfl, rfl, rfl, rfl, rfl, rfl, rfl⟩
  · simp only
    split
    · exact ⟨rfl, rfl, rfl, rfl, rfl, rfl, rfl, rfl⟩
    · split
      · exact ⟨rfl, rfl, rfl, rfl, rfl, rfl, rfl, rfl⟩
      · split <;> exact ⟨rfl, rfl, rfl, rfl, rfl, rfl, rfl, rfl⟩

/-- Only a finished recording is put into the queue. -/
@[simp] theorem closeAudioFile_false_file :
    (world.closeAudioFile false env).file = world.file := by
  unfold closeAudioFile
  split
  · rfl
  · simp only
    split
    · rfl
    · split
      · rfl
      · rfl

theorem closeAudioFile_workers_kept (enqueue : Bool) :
    (world.closeAudioFile enqueue env).file.workers = world.file.workers := by
  unfold closeAudioFile
  split
  · rfl
  · simp only
    split
    · rfl
    · split
      · rfl
      · split <;> rfl

@[simp] theorem startRetranscription_frame (request : RetranscriptionRequest)
    (rest : List RetranscriptionRequest) :
    (world.startRetranscription request rest).pending = world.pending ∧
    (world.startRetranscription request rest).recorder = world.recorder ∧
    (world.startRetranscription request rest).inference = world.inference ∧
    (world.startRetranscription request rest).json = world.json ∧
    (world.startRetranscription request rest).audio = world.audio ∧
    (world.startRetranscription request rest).setup = world.setup ∧
    (world.startRetranscription request rest).life = world.life :=
  ⟨rfl, rfl, rfl, rfl, rfl, rfl, rfl⟩

@[simp] theorem startNextRetranscriptionOrStop_frame :
    world.startNextRetranscriptionOrStop.pending = world.pending ∧
    world.startNextRetranscriptionOrStop.recorder = world.recorder ∧
    world.startNextRetranscriptionOrStop.inference = world.inference ∧
    world.startNextRetranscriptionOrStop.json = world.json ∧
    world.startNextRetranscriptionOrStop.audio = world.audio ∧
    world.startNextRetranscriptionOrStop.setup = world.setup := by
  unfold startNextRetranscriptionOrStop
  split
  · split <;> simp
  · split
    · simp
    · split <;> simp

@[simp] theorem finishIdleWorkIfPossible_frame :
    world.finishIdleWorkIfPossible.pending = world.pending ∧
    world.finishIdleWorkIfPossible.recorder = world.recorder ∧
    world.finishIdleWorkIfPossible.inference = world.inference ∧
    world.finishIdleWorkIfPossible.json = world.json ∧
    world.finishIdleWorkIfPossible.audio = world.audio ∧
    world.finishIdleWorkIfPossible.setup = world.setup := by
  unfold finishIdleWorkIfPossible
  split
  · simp
  · split
    · simp
    · simp only
      split <;> split <;> simp

@[simp] theorem requestJsonThreadStop_frame :
    world.requestJsonThreadStop.pending = world.pending ∧
    world.requestJsonThreadStop.recorder = world.recorder ∧
    world.requestJsonThreadStop.inference = world.inference ∧
    world.requestJsonThreadStop.audio = world.audio ∧
    world.requestJsonThreadStop.setup = world.setup := by
  unfold requestJsonThreadStop
  simp only
  split
  · simp
  · split <;> simp

@[simp] theorem stopInferenceIfNotRecording_frame :
    world.stopInferenceIfNotRecording.pending = world.pending ∧
    world.stopInferenceIfNotRecording.recorder = world.recorder ∧
    world.stopInferenceIfNotRecording.audio = world.audio ∧
    world.stopInferenceIfNotRecording.setup = world.setup := by
  unfold stopInferenceIfNotRecording
  simp only
  split
  · split <;> simp
  · simp

@[simp] theorem prepareMediaProjectionIfNeeded_frame :
    (world.prepareMediaProjectionIfNeeded env).1.session = world.session ∧
    (world.prepareMediaProjectionIfNeeded env).1.pending = world.pending ∧
    (world.prepareMediaProjectionIfNeeded env).1.recorder = world.recorder ∧
    (world.prepareMediaProjectionIfNeeded env).1.inference = world.inference ∧
    (world.prepareMediaProjectionIfNeeded env).1.json = world.json ∧
    (world.prepareMediaProjectionIfNeeded env).1.file = world.file ∧
    (world.prepareMediaProjectionIfNeeded env).1.audio = world.audio ∧
    (world.prepareMediaProjectionIfNeeded env).1.screen = world.screen ∧
    (world.prepareMediaProjectionIfNeeded env).1.life = world.life := by
  unfold prepareMediaProjectionIfNeeded
  split
  · simp
  · split
    · simp
    · split <;> simp

@[simp] theorem createRecorder_frame (bufferSize : Nat) :
    (world.createRecorder bufferSize env).1.session = world.session ∧
    (world.createRecorder bufferSize env).1.pending = world.pending ∧
    (world.createRecorder bufferSize env).1.inference = world.inference ∧
    (world.createRecorder bufferSize env).1.json = world.json ∧
    (world.createRecorder bufferSize env).1.file = world.file ∧
    (world.createRecorder bufferSize env).1.audio = world.audio ∧
    (world.createRecorder bufferSize env).1.setup = world.setup ∧
    (world.createRecorder bufferSize env).1.screen = world.screen ∧
    (world.createRecorder bufferSize env).1.life = world.life :=
  ⟨rfl, rfl, rfl, rfl, rfl, rfl, rfl, rfl, rfl⟩

@[simp] theorem startRecordingWorkerForSession_frame :
    (world.startRecordingWorkerForSession env).inference = world.inference ∧
    (world.startRecordingWorkerForSession env).json = world.json ∧
    (world.startRecordingWorkerForSession env).file = world.file ∧
    (world.startRecordingWorkerForSession env).audio = world.audio ∧
    (world.startRecordingWorkerForSession env).setup = world.setup := by
  unfold startRecordingWorkerForSession
  split
  · simp
  · simp only
    split
    · simp
    · split <;> simp

@[simp] theorem endRecording_frame :
    (world.endRecording env).pending = world.pending ∧
    (world.endRecording env).recorder = world.recorder := by
  unfold endRecording
  simp only
  split
  · simp
  · split <;> simp

@[simp] theorem nameSession_frame :
    (world.nameSession env).pending = world.pending ∧
    (world.nameSession env).recorder = world.recorder ∧
    (world.nameSession env).inference = world.inference ∧
    (world.nameSession env).json = world.json ∧
    (world.nameSession env).file = world.file ∧
    (world.nameSession env).audio = world.audio ∧
    (world.nameSession env).setup = world.setup ∧
    (world.nameSession env).screen = world.screen ∧
    (world.nameSession env).life = world.life :=
  ⟨rfl, rfl, rfl, rfl, rfl, rfl, rfl, rfl, rfl⟩

@[simp] theorem showFileEvent_frame (event : WhisperTranscriptionEvent) :
    (world.showFileEvent event).session = world.session ∧
    (world.showFileEvent event).pending = world.pending ∧
    (world.showFileEvent event).recorder = world.recorder ∧
    (world.showFileEvent event).inference = world.inference ∧
    (world.showFileEvent event).json = world.json ∧
    (world.showFileEvent event).file = world.file ∧
    (world.showFileEvent event).audio = world.audio ∧
    (world.showFileEvent event).setup = world.setup ∧
    (world.showFileEvent event).life = world.life :=
  ⟨rfl, rfl, rfl, rfl, rfl, rfl, rfl, rfl, rfl⟩

@[simp] theorem showLiveEvent_frame (event : WhisperTranscriptionEvent) :
    (world.showLiveEvent event).session = world.session ∧
    (world.showLiveEvent event).pending = world.pending ∧
    (world.showLiveEvent event).recorder = world.recorder ∧
    (world.showLiveEvent event).json = world.json ∧
    (world.showLiveEvent event).file = world.file ∧
    (world.showLiveEvent event).audio = world.audio ∧
    (world.showLiveEvent event).setup = world.setup ∧
    (world.showLiveEvent event).life = world.life :=
  ⟨rfl, rfl, rfl, rfl, rfl, rfl, rfl, rfl⟩

@[simp] theorem requestStopFileTranscription_frame :
    world.requestStopFileTranscription.recorder = world.recorder ∧
    world.requestStopFileTranscription.inference = world.inference ∧
    world.requestStopFileTranscription.json = world.json ∧
    world.requestStopFileTranscription.audio = world.audio ∧
    world.requestStopFileTranscription.setup = world.setup := by
  unfold requestStopFileTranscription
  simp only
  split <;> simp

@[simp] theorem enqueueSelectedFile_frame (uri : Option Text) :
    (world.enqueueSelectedFile uri env).pending = world.pending ∧
    (world.enqueueSelectedFile uri env).recorder = world.recorder ∧
    (world.enqueueSelectedFile uri env).inference = world.inference ∧
    (world.enqueueSelectedFile uri env).json = world.json ∧
    (world.enqueueSelectedFile uri env).audio = world.audio ∧
    (world.enqueueSelectedFile uri env).setup = world.setup := by
  unfold enqueueSelectedFile
  split <;> simp

@[simp] theorem onRetranscriptionComplete_frame :
    world.onRetranscriptionComplete.pending = world.pending ∧
    world.onRetranscriptionComplete.recorder = world.recorder ∧
    world.onRetranscriptionComplete.inference = world.inference ∧
    world.onRetranscriptionComplete.json = world.json ∧
    world.onRetranscriptionComplete.audio = world.audio ∧
    world.onRetranscriptionComplete.setup = world.setup := by
  unfold onRetranscriptionComplete
  split
  · simp
  · simp only
    split <;> simp

@[simp] theorem requestStopInference_frame :
    world.requestStopInference.recorder = world.recorder ∧
    world.requestStopInference.json = world.json ∧
    world.requestStopInference.file = world.file ∧
    world.requestStopInference.audio = world.audio ∧
    world.requestStopInference.setup = world.setup ∧
    world.requestStopInference.life = world.life := by
  unfold requestStopInference
  split
  · simp
  · split <;> simp

@[simp] theorem readRecordingRequest_frame (request : Option RecordingRequest) :
    (world.readRecordingRequest request).session = world.session ∧
    (world.readRecordingRequest request).pending = world.pending ∧
    (world.readRecordingRequest request).recorder = world.recorder ∧
    (world.readRecordingRequest request).inference = world.inference ∧
    (world.readRecordingRequest request).json = world.json ∧
    (world.readRecordingRequest request).file = world.file ∧
    (world.readRecordingRequest request).audio = world.audio ∧
    (world.readRecordingRequest request).screen = world.screen ∧
    (world.readRecordingRequest request).life = world.life := by
  unfold readRecordingRequest
  split <;> exact ⟨rfl, rfl, rfl, rfl, rfl, rfl, rfl, rfl, rfl⟩

@[simp] theorem onStart_frame (request : Option RecordingRequest) :
    (world.onStart request env).pending = world.pending ∧
    (world.onStart request env).recorder = world.recorder ∧
    (world.onStart request env).json = world.json ∧
    (world.onStart request env).file = world.file ∧
    (world.onStart request env).audio = world.audio ∧
    (world.onStart request env).screen = world.screen := by
  unfold onStart
  simp only
  split <;> simp

@[simp] theorem onDestroy_frame :
    (world.onDestroy env).pending = world.pending ∧
    (world.onDestroy env).recorder = world.recorder ∧
    (world.onDestroy env).inference = world.inference ∧
    (world.onDestroy env).json = world.json ∧
    (world.onDestroy env).screen = world.screen := by
  unfold onDestroy
  simp only
  split <;> simp

@[simp] theorem countChunk_frame (address : Nat) (chunk : PcmChunk Sample) :
    (world.countChunk address chunk).session = world.session ∧
    (world.countChunk address chunk).pending = world.pending ∧
    (world.countChunk address chunk).json = world.json ∧
    (world.countChunk address chunk).file = world.file ∧
    (world.countChunk address chunk).audio = world.audio ∧
    (world.countChunk address chunk).setup = world.setup ∧
    (world.countChunk address chunk).screen = world.screen ∧
    (world.countChunk address chunk).life = world.life :=
  ⟨rfl, rfl, rfl, rfl, rfl, rfl, rfl, rfl⟩

@[simp] theorem saveChunk_frame (address : Nat) (chunk : PcmChunk Sample) (writer : Nat)
    (stoppedAfter : Option Nat) :
    (world.saveChunk address chunk writer stoppedAfter).session = world.session ∧
    (world.saveChunk address chunk writer stoppedAfter).pending = world.pending ∧
    (world.saveChunk address chunk writer stoppedAfter).inference = world.inference ∧
    (world.saveChunk address chunk writer stoppedAfter).json = world.json ∧
    (world.saveChunk address chunk writer stoppedAfter).file = world.file ∧
    (world.saveChunk address chunk writer stoppedAfter).setup = world.setup ∧
    (world.saveChunk address chunk writer stoppedAfter).screen = world.screen ∧
    (world.saveChunk address chunk writer stoppedAfter).life = world.life :=
  ⟨rfl, rfl, rfl, rfl, rfl, rfl, rfl, rfl⟩

@[simp] theorem submitChunk_frame (address : Nat) (chunk : PcmChunk Sample) (target : Nat) :
    (world.submitChunk address chunk target).session = world.session ∧
    (world.submitChunk address chunk target).pending = world.pending ∧
    (world.submitChunk address chunk target).json = world.json ∧
    (world.submitChunk address chunk target).file = world.file ∧
    (world.submitChunk address chunk target).audio = world.audio ∧
    (world.submitChunk address chunk target).setup = world.setup ∧
    (world.submitChunk address chunk target).screen = world.screen ∧
    (world.submitChunk address chunk target).life = world.life :=
  ⟨rfl, rfl, rfl, rfl, rfl, rfl, rfl, rfl⟩

@[simp] theorem submitJson_frame (jsonWorker : Option Nat) (event : WhisperTranscriptionEvent) :
    (world.submitJson jsonWorker event).session = world.session ∧
    (world.submitJson jsonWorker event).pending = world.pending ∧
    (world.submitJson jsonWorker event).recorder = world.recorder ∧
    (world.submitJson jsonWorker event).inference = world.inference ∧
    (world.submitJson jsonWorker event).file = world.file ∧
    (world.submitJson jsonWorker event).audio = world.audio ∧
    (world.submitJson jsonWorker event).setup = world.setup ∧
    (world.submitJson jsonWorker event).screen = world.screen ∧
    (world.submitJson jsonWorker event).life = world.life := by
  unfold submitJson
  split <;> exact ⟨rfl, rfl, rfl, rfl, rfl, rfl, rfl, rfl, rfl⟩

section Threads

variable {world : World Sample} {after : World Sample} {address : Nat}

theorem inferenceAdvance_frame {answer : Inference}
    (taken : world.inferenceAdvance address answer = some after) :
    after.session = world.session ∧ after.pending = world.pending ∧
    after.recorder = world.recorder ∧ after.file = world.file ∧ after.audio = world.audio ∧
    after.setup = world.setup ∧ after.life = world.life := by
  unfold inferenceAdvance at taken
  simp only at taken
  split at taken
  · obtain ⟨_, _, rfl⟩ := Option.map_eq_some_iff.mp taken
    simp
  · split at taken
    · cases taken
      simp
    · split at taken
      · cases taken
        simp
      · split at taken <;> cases taken <;> simp
  · cases taken
    simp
  · cases taken
    simp
  · cases taken
    simp

theorem jsonAdvance_frame {answer : JsonAnswer}
    (taken : world.jsonAdvance address answer = some after) :
    after.session = world.session ∧ after.pending = world.pending ∧
    after.recorder = world.recorder ∧ after.inference = world.inference ∧
    after.file = world.file ∧ after.audio = world.audio ∧ after.setup = world.setup ∧
    after.screen = world.screen ∧ after.life = world.life := by
  obtain ⟨_, _, rfl⟩ := Option.map_eq_some_iff.mp taken
  simp

theorem fileAdvance_frame {report : FileReport}
    (taken : world.fileAdvance address report = some after) :
    after.session = world.session ∧ after.pending = world.pending ∧
    after.recorder = world.recorder ∧ after.inference = world.inference ∧
    after.json = world.json ∧ after.audio = world.audio ∧ after.setup = world.setup ∧
    after.life = world.life := by
  unfold fileAdvance at taken
  simp only at taken
  split at taken
  any_goals cases taken
  split at taken
  · split at taken
    · cases taken
    · split at taken <;> cases taken <;> simp
  · cases taken
    simp

theorem fileComplete_frame (taken : world.fileComplete address = some after) :
    after.pending = world.pending ∧ after.recorder = world.recorder ∧
    after.inference = world.inference ∧ after.json = world.json ∧ after.audio = world.audio ∧
    after.setup = world.setup := by
  unfold fileComplete at taken
  simp only at taken
  split at taken <;> cases taken
  simp

end Threads

section Pipeline

variable [Inhabited Sample]

@[simp] theorem startInferencePipeline_frame (time : Text) :
    (world.startInferencePipeline time).pending = world.pending ∧
    (world.startInferencePipeline time).recorder = world.recorder ∧
    (world.startInferencePipeline time).file = world.file ∧
    (world.startInferencePipeline time).audio = world.audio ∧
    (world.startInferencePipeline time).setup = world.setup ∧
    (world.startInferencePipeline time).screen = world.screen ∧
    (world.startInferencePipeline time).life = world.life :=
  ⟨rfl, rfl, rfl, rfl, rfl, rfl, rfl⟩

@[simp] theorem ensureInferenceAccepting_frame (time : Text) :
    (world.ensureInferenceAccepting time).1.pending = world.pending ∧
    (world.ensureInferenceAccepting time).1.recorder = world.recorder ∧
    (world.ensureInferenceAccepting time).1.file = world.file ∧
    (world.ensureInferenceAccepting time).1.audio = world.audio ∧
    (world.ensureInferenceAccepting time).1.setup = world.setup ∧
    (world.ensureInferenceAccepting time).1.screen = world.screen ∧
    (world.ensureInferenceAccepting time).1.life = world.life := by
  unfold ensureInferenceAccepting
  split
  · simp
  · split <;> simp

@[simp] theorem requestResumeInference_frame :
    world.requestResumeInference.recorder = world.recorder ∧
    world.requestResumeInference.file = world.file ∧
    world.requestResumeInference.audio = world.audio ∧
    world.requestResumeInference.setup = world.setup ∧
    world.requestResumeInference.life = world.life := by
  unfold requestResumeInference
  split
  · simp
  · simp only
    split <;> simp

@[simp] theorem onWhisperStopped_frame (event : ThreadStoppedEvent) :
    (world.onWhisperStopped event).recorder = world.recorder ∧
    (world.onWhisperStopped event).audio = world.audio ∧
    (world.onWhisperStopped event).setup = world.setup := by
  unfold onWhisperStopped
  simp only
  split
  · simp
  · split <;> simp

end Pipeline

end LocalWhisper.Service.World
