import LocalWhisper.Machine.Numbered
import LocalWhisper.Service.Counters
import LocalWhisper.Transcription.Positions

/-! Whether a live result carries the time at which its audio was recorded. The
service counts the samples that were recorded, the worker those it took. A
resumed worker is not told what was recorded while it did not listen. -/

namespace LocalWhisper.Record

open LocalWhisper.Transcription

variable {Sample : Type}

/-- A chunk that was counted and is not yet handed on. -/
def RecorderPhase.inHand : RecorderPhase Sample → Option (PcmChunk Sample)
  | .counted chunk | .saving chunk _ | .closingFile chunk | .saved chunk | .fetched chunk _
  | .offering chunk _ => some chunk
  | _ => none

def RecorderPhase.arrival : RecorderPhase Sample → Option (PcmChunk Sample)
  | .arrived chunk => some chunk
  | _ => none

/-- A chunk that is about to be submitted, with the worker it goes to. -/
def RecorderPhase.offer : RecorderPhase Sample → Option (PcmChunk Sample × Nat)
  | .offering chunk target => some (chunk, target)
  | _ => none

end LocalWhisper.Record

namespace LocalWhisper.Service

open LocalWhisper.Machine LocalWhisper.Record LocalWhisper.Transcription World

variable {Sample : Type}

/-- Recorders hold no chunks that they did not hold before. -/
def InHandKept (before after : RecorderFields Sample) : Prop :=
  ∀ address chunk, (after.workers.get address).phase.inHand = some chunk →
    (before.workers.get address).phase.inHand = some chunk ∧
      (after.workers.get address).stopEventId = (before.workers.get address).stopEventId

namespace InHandKept

variable {before after later : RecorderFields Sample}

theorem refl (fields : RecorderFields Sample) : InHandKept fields fields :=
  fun _ _ held => ⟨held, rfl⟩

theorem trans (first : InHandKept before after) (second : InHandKept after later) :
    InHandKept before later := by
  intro address chunk held
  obtain ⟨middle, same⟩ := second address chunk held
  obtain ⟨earlier, origin⟩ := first address chunk middle
  exact ⟨earlier, same.trans origin⟩

theorem of_eq (same : after.workers = before.workers) : InHandKept before after := by
  intro address chunk held
  rw [same] at held ⊢
  exact ⟨held, rfl⟩

theorem set {recordWorker : Option Nat} {counted : Text → Nat} {address : Nat}
    {recorder : AudioRecordWorker Sample}
    (phase : recorder.phase.inHand = none ∨
      recorder.phase.inHand = (before.workers.get address).phase.inHand)
    (owner : recorder.stopEventId = (before.workers.get address).stopEventId) :
    InHandKept before ⟨recordWorker, before.workers.set address recorder, counted⟩ := by
  intro index chunk held
  simp only [Objects.set_get] at held ⊢
  split at held
  · rename_i here
    rw [if_pos here, here.1]
    rcases phase with empty | same
    · rw [empty] at held
      cases held
    · exact ⟨same.symm.trans held, owner⟩
  · rename_i elsewhere
    rw [if_neg elsewhere]
    exact ⟨held, rfl⟩

end InHandKept

namespace World

variable (world : World Sample) (env : Environment)

theorem createRecorder_inHand (bufferSize : Nat) :
    InHandKept world.recorder (world.createRecorder bufferSize env).1.recorder := by
  obtain ⟨_, recorder, created, _, phase⟩ := world.createRecorder_recorder env bufferSize
  rw [created]
  intro address chunk held
  simp only [Objects.create_get] at held ⊢
  split at held
  · rw [phase] at held
    split at held <;> cases held
  · rename_i other
    rw [if_neg other]
    exact ⟨held, rfl⟩

theorem startRecordingWorkerForSession_inHand :
    InHandKept world.recorder (world.startRecordingWorkerForSession env).recorder := by
  unfold startRecordingWorkerForSession
  split
  · exact .refl _
  · simp only
    split
    · exact .refl _
    · split <;> exact createRecorder_inHand _ env _

theorem finishRecordThread_inHand :
    InHandKept world.recorder (world.finishRecordThread env).recorder := by
  rcases world.finishRecordThread_cases env with
    ⟨_, _, _, resumed⟩ | ⟨_, _, paused⟩ | ⟨_, ended⟩
  · rw [resumed]
    exact startRecordingWorkerForSession_inHand world.detachRecorder env
  · rw [paused]
    exact .refl _
  · rw [ended, (endRecording_frame _ env).2]
    exact .refl _

theorem requestRecordThreadStop_inHand :
    InHandKept world.recorder (world.requestRecordThreadStop env).recorder := by
  unfold requestRecordThreadStop
  split
  · exact finishRecordThread_inHand world env
  · rename_i address _
    have asked : InHandKept world.recorder
        (world.setRecorder address (world.recorder.workers.get address).requestStop.1).recorder :=
      .set (.inr rfl) rfl
    simp only
    split
    · exact asked
    · exact asked.trans (finishRecordThread_inHand _ env)

theorem requestStopRecording_inHand :
    InHandKept world.recorder (world.requestStopRecording env).recorder := by
  unfold requestStopRecording
  split
  · exact .refl _
  · simp only
    split
    · exact requestRecordThreadStop_inHand _ env
    · exact finishRecordThread_inHand _ env

private theorem requestPauseRecording_inHand :
    InHandKept world.recorder (world.requestPauseRecording env).recorder := by
  unfold requestPauseRecording
  split
  · exact .refl _
  · exact requestRecordThreadStop_inHand _ env

private theorem requestResumeRecording_inHand :
    InHandKept world.recorder (world.requestResumeRecording env).recorder := by
  unfold requestResumeRecording
  split
  · exact .refl _
  · split
    · exact .refl _
    · exact startRecordingWorkerForSession_inHand world env

private theorem openSession_inHand (time : Text) (bufferSize : Nat) :
    InHandKept world.recorder (world.openSession time bufferSize env).recorder := by
  unfold openSession
  simp only
  split
  · simp only [stopInferenceIfNotRecording_frame, publishState_frame, closeAudioFile_frame,
      releaseMediaProjection_frame]
    exact createRecorder_inHand (world.activateSession time) env bufferSize
  · exact createRecorder_inHand (world.activateSession time) env bufferSize

end World

variable {place : Sample → Text × Nat}

/-- A live result begins at the time at which its first sample was recorded. -/
def TimedRight (place : Sample → Text × Nat) (result : LiveResult Sample) : Prop :=
  ∀ sample rest, result.window = some (sample :: rest) →
    ∃ position, place sample = (result.event.sessionId ++ recordSuffix, position) ∧
      result.event.startMs = position * 1000 / WhisperTranscriptionWorker.defaultSampleRate

/-- What one inference thread may still transcribe is where it counts it. -/
structure ThreadInPlace (place : Sample → Text × Nat) (thread : InferenceThread Sample) : Prop where
  rate : thread.worker.sampleRate = WhisperTranscriptionWorker.defaultSampleRate
  audio : thread.worker.InPlace place (thread.worker.sessionId ++ recordSuffix)

/-- Every chunk on its way was recorded in one piece, every worker counts its
audio where it was recorded, and so do all results. -/
structure AudioInPlace (place : Sample → Text × Nat) (world : World Sample) : Prop where
  inHand : ∀ address chunk, (world.recorder.workers.get address).phase.inHand = some chunk →
    ∃ first, Numbered place (world.recorder.workers.get address).stopEventId first chunk.samples
  threads : ∀ address, ThreadInPlace place (world.inference.threads.get address)
  results : ∀ result ∈ world.inference.results, TimedRight place result

theorem window_of_liveResult {reports : List (WorkerOutput Sample)} {result : LiveResult Sample}
    {window : List Sample} (published : liveResult reports = some result)
    (here : result.window = some window) :
    ∃ finalResult, .transcribed window finalResult ∈ reports := by
  unfold liveResult at published
  split at published
  · cases published
    cases here
    exact ⟨_, List.mem_cons_of_mem _ (List.mem_cons_self ..)⟩
  · cases published
    cases here
  · cases published

theorem ThreadInPlace.asked {thread other : InferenceThread Sample}
    (inPlace : ThreadInPlace place thread) (asked : Asked thread other) :
    ThreadInPlace place other := by
  rcases asked with rfl | rfl
  · exact inPlace
  · exact ⟨inPlace.rate, inPlace.audio.requestStop⟩

namespace AudioInPlace

variable {before after : World Sample}

theorem of_kept (inv : AudioInPlace place before) (kept : PipelineKept before after)
    (recorder : InHandKept before.recorder after.recorder) : AudioInPlace place after := by
  refine ⟨?_, fun address => (inv.threads address).asked (kept.threads address), ?_⟩
  · intro address chunk held
    obtain ⟨earlier, owner⟩ := recorder address chunk held
    rw [owner]
    exact inv.inHand address chunk earlier
  · rw [kept.fields]
    exact inv.results

/-- A change to the fields around the workers. -/
theorem of_frame (inv : AudioInPlace place before)
    (recorder : after.recorder.workers = before.recorder.workers)
    (threads : after.inference.threads = before.inference.threads)
    (results : after.inference.results = before.inference.results) : AudioInPlace place after := by
  refine ⟨?_, ?_, ?_⟩
  · rw [recorder]
    exact inv.inHand
  · rw [threads]
    exact inv.threads
  · rw [results]
    exact inv.results

/-- A change to one inference thread. -/
theorem setThread (inv : AudioInPlace place before) {address : Nat}
    {thread : InferenceThread Sample} (inPlace : ThreadInPlace place thread) :
    AudioInPlace place (before.setThread address thread) :=
  ⟨inv.inHand, fun index => before.inference.threads.set_forall thread address index inv.threads
    inPlace, inv.results⟩

/-- A recorder that moves on with the chunk it has, or without one. -/
theorem moveRecorder (inv : AudioInPlace place before) {address : Nat}
    {phase : RecorderPhase Sample} (kept : phase.inHand = none ∨
      phase.inHand = (before.recorder.workers.get address).phase.inHand) :
    AudioInPlace place (before.moveRecorder address phase) :=
  inv.of_kept (.of_frame rfl id (.inl ⟨rfl, id⟩)) (.set kept rfl)

/-- A step of an inference thread: its window begins where its audio does. -/
theorem inferenceAdvance {address : Nat} {answer : Inference} (inv : AudioInPlace place before)
    (taken : before.inferenceAdvance address answer = some after) : AudioInPlace place after := by
  have kept (handling : Handling) : ThreadInPlace place
      { before.inference.threads.get address with handling } :=
    ⟨(inv.threads address).rate, (inv.threads address).audio⟩
  unfold World.inferenceAdvance at taken
  simp only at taken
  split at taken
  · obtain ⟨⟨worker, reports⟩, advanced, rfl⟩ := Option.map_eq_some_iff.mp taken
    obtain ⟨rate, audio⟩ := inv.threads address
    have setup := WhisperTranscriptionWorker.advance_setup advanced
    obtain ⟨inPlace, windows⟩ := audio.advance advanced
    have thread (handling : Handling) : ThreadInPlace place ⟨worker, handling⟩ := by
      refine ⟨setup.sampleRate.trans rate, ?_⟩
      rw [setup.sessionId]
      exact inPlace
    refine ⟨inv.inHand, fun index => before.inference.threads.set_forall _ address index
      inv.threads (thread _), ?_⟩
    intro result member
    rcases List.mem_append.mp member with earlier | new
    · exact inv.results result earlier
    · rcases advance_publishes advanced with ⟨none, _⟩ | ⟨_, published, session, _, startMs⟩
      · rw [none] at new
        cases new
      · rw [published] at new
        cases List.mem_singleton.mp new
        intro sample rest window
        refine ⟨(before.inference.threads.get address).worker.processedSamples, ?_, ?_⟩
        · rw [session]
          obtain ⟨finalResult, reported⟩ := window_of_liveResult published window
          exact windows _ finalResult reported sample rest rfl
        · rw [startMs, WhisperTranscriptionWorker.samplesToMs, rate]
  · split at taken
    · cases taken
      exact inv.setThread (kept .idle)
    · split at taken
      · cases taken
        rename_i event _ _ _
        have shown : AudioInPlace place (before.showFileEvent event) := inv.of_frame rfl rfl rfl
        exact shown.setThread (kept .idle)
      · split at taken <;> cases taken <;> exact inv.setThread (kept _)
  · cases taken
    rename_i event _
    have numbered : AudioInPlace place { before with inference := { before.inference with
        nextInferenceSequence := max before.inference.nextInferenceSequence (event.sequence + 1)
      } } := inv.of_frame rfl rfl rfl
    exact numbered.setThread (kept _)
  · cases taken
    exact inv.setThread (kept _)
  · cases taken
    rename_i event jsonWorker _
    have inference : (before.submitJson jsonWorker event).inference = before.inference := by simp
    have recorder : (before.submitJson jsonWorker event).recorder = before.recorder := by simp
    have submitted : AudioInPlace place (before.submitJson jsonWorker event) :=
      inv.of_frame (congrArg RecorderFields.workers recorder)
        (congrArg InferenceFields.threads inference) (congrArg InferenceFields.results inference)
    have shown : AudioInPlace place ((before.submitJson jsonWorker event).showLiveEvent event) :=
      submitted.of_frame rfl rfl rfl
    exact shown.setThread (kept .idle)

section Pipeline

variable [Inhabited Sample] {world : World Sample} {env : Environment}

theorem startInferencePipeline (inv : AudioInPlace place world) (time : Text) :
    AudioInPlace place (world.startInferencePipeline time) := by
  refine ⟨inv.inHand, fun index => ?_, inv.results⟩
  apply world.inference.threads.create_forall _ index inv.threads
  refine ⟨?_, ?_⟩
  · simp [pipelineThread, WhisperTranscriptionWorker.start, WhisperTranscriptionWorker.new]
  · intro _
    exact .nil

theorem ensureInferenceAccepting (inv : AudioInPlace place world) (time : Text) :
    AudioInPlace place (world.ensureInferenceAccepting time).1 := by
  unfold World.ensureInferenceAccepting
  split
  · exact inv.startInferencePipeline time
  · rename_i address live
    split
    · exact inv.of_kept (drainTranscription_kept world address) (.refl _)
    · have resumed : ThreadInPlace place { world.inference.threads.get address with
          worker := (world.inference.threads.get address).worker.resumeAudioSubmission.1 } := by
        have setup := (world.inference.threads.get address).worker.resumeAudioSubmission_setup
        refine ⟨setup.sampleRate.trans (inv.threads address).rate, ?_⟩
        rw [setup.sessionId]
        exact (inv.threads address).audio.resumeAudioSubmission
      exact (inv.setThread resumed).of_frame rfl rfl rfl

theorem prepareSession (inv : AudioInPlace place world) :
    AudioInPlace place (world.prepareSession env) := by
  have named : AudioInPlace place (world.nameSession env) := inv.of_frame rfl rfl rfl
  have ensured := named.ensureInferenceAccepting (world.nextSessionTime env)
  have ready_inPlace (ready : World Sample) (prepared : Prepared
      ((world.nameSession env).ensureInferenceAccepting (world.nextSessionTime env)).1 ready) :
      AudioInPlace place ready :=
    ensured.of_frame (congrArg RecorderFields.workers prepared.recorder)
      (congrArg InferenceFields.threads prepared.inference)
      (congrArg InferenceFields.results prepared.inference)
  rcases world.prepareSession_cases env with
    ⟨_, waits⟩ | ⟨_, ready, prepared, _, given⟩ | ⟨_, ready, bufferSize, prepared, _, _, opened⟩
  · rw [waits]
    exact ensured.of_frame rfl rfl rfl
  · rw [given]
    exact (ready_inPlace ready prepared).of_kept (stopInferenceIfNotRecording_kept ready)
      (.of_eq (congrArg RecorderFields.workers (stopInferenceIfNotRecording_frame ready).2.1))
  · rw [opened]
    have activated : AudioInPlace place (ready.activateSession (world.nextSessionTime env)) :=
      (ready_inPlace ready prepared).of_frame rfl rfl rfl
    exact activated.of_kept (openSession_kept ready env _ bufferSize)
      (openSession_inHand ready env _ bufferSize)

theorem startRecordingInternal (inv : AudioInPlace place world) :
    AudioInPlace place (world.startRecordingInternal env) := by
  rcases world.startRecordingInternal_cases env with
    ⟨_, eq⟩ | ⟨_, start, message, eq⟩ | ⟨_, _, _, _, setup, screen, message, reason, _, eq⟩
  · rw [eq]
    have loaded : AudioInPlace place (world.loadSettings env) := inv.of_frame rfl rfl rfl
    exact loaded.prepareSession
  · rw [eq]
    exact inv.of_frame rfl rfl rfl
  · rw [eq]
    exact inv.of_frame rfl rfl rfl

theorem requestResumeInference (inv : AudioInPlace place world) :
    AudioInPlace place world.requestResumeInference := by
  unfold World.requestResumeInference
  split
  · exact inv.of_frame rfl rfl rfl
  · have asked : AudioInPlace place { world with pending := { world.pending with
        pendingInferenceResume := true } } := inv.of_frame rfl rfl rfl
    have ensured := asked.ensureInferenceAccepting (world.session.recordingTimeData.getD [])
    simp only
    split <;> exact ensured.of_frame rfl rfl rfl

theorem onWhisperStopped (inv : AudioInPlace place world) (event : ThreadStoppedEvent) :
    AudioInPlace place (world.onWhisperStopped event) := by
  have cleared : AudioInPlace place { world with
      inference := { world.inference with
        inferenceFailed := world.inference.inferenceFailed || event.hasError
        whisperThreadStopped := true
        transcriptionWorker := none }
      session := { world.session with inferenceAlive := false, inferenceAccepting := false } } :=
    inv.of_frame rfl rfl rfl
  unfold World.onWhisperStopped
  simp only
  split
  · exact cleared.of_kept (requestJsonThreadStop_kept _)
      (.of_eq (congrArg RecorderFields.workers (requestJsonThreadStop_frame _).2.1))
  · split
    · have waiting : AudioInPlace place { world with
          inference := { world.inference with
            inferenceFailed := world.inference.inferenceFailed || event.hasError
            whisperThreadStopped := true
            transcriptionWorker := none }
          session := { world.session with inferenceAlive := false, inferenceAccepting := false }
          pending := { world.pending with pendingInferenceResume := false } } :=
        cleared.of_frame rfl rfl rfl
      exact (waiting.startInferencePipeline (world.session.recordingTimeData.getD [])).of_frame
        rfl rfl rfl
    · exact cleared.of_frame rfl rfl rfl

end Pipeline

end AudioInPlace

/-- The samples of a chunk are numbered as the service counts them. -/
def NumbersSamples (place : Sample → Text × Nat) (world : World Sample) : Label Sample → Prop
  | .recorder address _ =>
    let recorder := world.recorder.workers.get address
    ∀ chunk ∈ recorder.phase.arrival, ∀ index < chunk.sampleCount,
      place (chunk.bytes index) =
        (recorder.stopEventId, world.recorder.counted recorder.stopEventId + index)
  | _ => True

/-- No chunk is closed to make room for another one. -/
def NoOverflow (world : World Sample) : Label Sample → Prop
  | .recorder address _ =>
    ∀ offer ∈ (world.recorder.workers.get address).phase.offer,
      ((world.inference.threads.get offer.2).worker.submit offer.1).evicted.isNone = true
  | _ => True

/-- A worker that takes a chunk has taken everything that its session recorded
since the worker was started, up to this chunk and no further. -/
def Continues (place : Sample → Text × Nat) (world : World Sample) : Label Sample → Prop
  | .recorder address _ =>
    ∀ offer ∈ (world.recorder.workers.get address).phase.offer,
      let worker := (world.inference.threads.get offer.2).worker
      (worker.submit offer.1).accepted = true → worker.phase.transcribes = true →
        place (offer.1.bytes 0) =
          (worker.sessionId ++ recordSuffix, worker.processedSamples + worker.backlog.length)
  | _ => True

instance (place : Sample → Text × Nat) (world : World Sample) (label : Label Sample) :
    Decidable (NumbersSamples place world label) := by
  cases label <;> (dsimp only [NumbersSamples]; infer_instance)

instance (world : World Sample) (label : Label Sample) : Decidable (NoOverflow world label) := by
  cases label <;> (dsimp only [NoOverflow]; infer_instance)

instance (place : Sample → Text × Nat) (world : World Sample) (label : Label Sample) :
    Decidable (Continues place world label) := by
  cases label <;> (dsimp only [Continues]; infer_instance)

section Runs

variable {world after : World Sample} {label : Label Sample}

theorem AudioInPlace.recorderAdvance {address : Nat} {answer : RecorderAnswer Sample}
    (inv : AudioInPlace place world) (numbers : NumbersSamples place world (.recorder address answer))
    (room : NoOverflow world (.recorder address answer))
    (continues : Continues place world (.recorder address answer))
    (taken : world.recorderAdvance address answer = some after) : AudioInPlace place after := by
  cases phase : (world.recorder.workers.get address).phase <;>
    simp only [World.recorderAdvance, phase] at taken
  case created | ended | stopped => cases taken
  case starting =>
    cases taken
    exact inv.moveRecorder (.inl rfl)
  case looping =>
    cases taken
    refine inv.moveRecorder (.inl ?_)
    split <;> rfl
  case reading =>
    split at taken
    · cases taken
      exact inv.moveRecorder (.inl rfl)
    · split at taken <;> cases taken
      exact inv.moveRecorder (.inl rfl)
  case arrived chunk =>
    cases taken
    have arrives : (world.recorder.workers.get address).phase.arrival = some chunk := by
      rw [phase]
      rfl
    refine ⟨?_, inv.threads, inv.results⟩
    intro index held inHand
    simp only [World.countChunk, Objects.set_get] at inHand ⊢
    split at inHand
    · rename_i here
      rw [if_pos here]
      cases inHand
      exact ⟨_, chunk.numbered (numbers chunk arrives)⟩
    · rename_i elsewhere
      rw [if_neg elsewhere]
      exact inv.inHand index held inHand
  case counted chunk | saved chunk =>
    cases taken
    apply inv.moveRecorder
    rw [phase]
    split
    · simp [RecorderPhase.inHand]
    · exact .inr rfl
  case saving chunk writer =>
    cases taken
    have written : AudioInPlace place { world with audio := { world.audio with
        writers := world.audio.writers.set writer
          ((world.audio.writers.get writer).append chunk.sampleCount answer.stoppedAfter).1 } } :=
      inv.of_frame rfl rfl rfl
    have carried (succeeded : Bool) :
        (if succeeded then .saved chunk else .closingFile chunk :
          RecorderPhase Sample).inHand = some chunk := by
      cases succeeded <;> rfl
    apply written.moveRecorder
    refine .inr ((carried _).trans ?_)
    rw [phase]
    rfl
  case closingFile chunk =>
    cases taken
    have same := (closeAudioFile_frame world answer.env false).2.2.1
    have closed : AudioInPlace place (world.closeAudioFile false answer.env) :=
      inv.of_kept (closeAudioFile_kept world answer.env false)
        (.of_eq (congrArg RecorderFields.workers same))
    apply closed.moveRecorder
    rw [same, phase]
    exact .inr rfl
  case fetched chunk target =>
    cases taken
    apply inv.moveRecorder
    rw [phase]
    split
    · exact .inr rfl
    · exact .inl rfl
  case offering chunk target =>
    cases taken
    obtain ⟨first, recorded⟩ := inv.inHand address chunk (by rw [phase]; rfl)
    have thread := inv.threads target
    have setup := (world.inference.threads.get target).worker.submit_setup chunk
    have offers : (world.recorder.workers.get address).phase.offer = some (chunk, target) := by
      rw [phase]
      rfl
    have kept := Option.isNone_iff_eq_none.mp (room (chunk, target) offers)
    have inPlace := thread.audio.submit kept recorded (continues (chunk, target) offers)
    have submitted : ThreadInPlace place { world.inference.threads.get target with
        worker := ((world.inference.threads.get target).worker.submit chunk).worker } := by
      refine ⟨setup.sampleRate.trans thread.rate, ?_⟩
      rw [setup.sessionId]
      exact inPlace
    exact (inv.setThread submitted).moveRecorder (.inl rfl)
  case leaving errorMessage =>
    cases taken
    exact inv.of_kept (.of_frame rfl id (.inl ⟨rfl, id⟩)) (.set (.inl rfl) rfl)

variable [Inhabited Sample]

private theorem onStartCommand_inPlace (inv : AudioInPlace place world) (action : Intent)
    (env : Environment) : AudioInPlace place (world.onStartCommand action env) := by
  have same (recorder : (world.onStartCommand action env).recorder = world.recorder) :
      InHandKept world.recorder (world.onStartCommand action env).recorder :=
    .of_eq (congrArg RecorderFields.workers recorder)
  cases action with
  | start request =>
    have frame := onStart_frame world env request
    have threads : (world.onStart request env).inference.threads = world.inference.threads ∧
        (world.onStart request env).inference.results = world.inference.results := by
      unfold onStart
      simp only
      split <;> simp
    exact inv.of_frame (congrArg RecorderFields.workers frame.2.1) threads.1 threads.2
  | stop =>
    exact inv.of_kept (requestStopRecording_kept world env) (requestStopRecording_inHand world env)
  | pauseRecording =>
    exact inv.of_kept (requestPauseRecording_kept world env)
      (requestPauseRecording_inHand world env)
  | resumeRecording =>
    exact inv.of_kept (requestResumeRecording_kept world env)
      (requestResumeRecording_inHand world env)
  | stopFileTranscription =>
    exact inv.of_kept (requestStopFileTranscription_kept world) (same (by simp [onStartCommand]))
  | stopInference =>
    exact inv.of_kept (requestStopInference_kept world) (same (by simp [onStartCommand]))
  | resumeInference => exact inv.requestResumeInference
  | transcribeFile uri =>
    exact inv.of_kept (enqueueSelectedFile_kept world env uri) (same (by simp [onStartCommand]))

/-- A step without a gap keeps all audio in place. -/
theorem step_inPlace (inv : AudioInPlace place world) (numbers : NumbersSamples place world label)
    (room : NoOverflow world label) (continues : Continues place world label)
    (taken : step world label = some after) : AudioInPlace place after := by
  cases label with
  | intent action env =>
    simp only [step] at taken
    split at taken <;> cases taken
    exact onStartCommand_inPlace inv action env
  | startRecordingInternal env =>
    simp only [step] at taken
    split at taken <;> cases taken
    have entered : AudioInPlace place { world with life := { world.life with
        startThreads := world.life.startThreads - 1 } } := inv.of_frame rfl rfl rfl
    exact entered.startRecordingInternal
  | projectionStopped env =>
    simp only [step] at taken
    split at taken
    · cases taken
    · split at taken <;> cases taken
      · have shown : AudioInPlace place
            (world.publishState "アプリ音声のキャプチャ許可が終了しました") :=
          inv.of_frame rfl rfl rfl
        exact shown.of_kept (requestStopRecording_kept _ env) (requestStopRecording_inHand _ env)
      · exact inv
  | destroy env =>
    simp only [step] at taken
    split at taken <;> cases taken
    have frame := onDestroy_frame world env
    exact inv.of_frame (congrArg RecorderFields.workers frame.2.1)
      (congrArg InferenceFields.threads frame.2.2.1)
      (congrArg InferenceFields.results frame.2.2.1)
  | recorder address answer => exact inv.recorderAdvance numbers room continues taken
  | recorderThrows address message =>
    simp only [step] at taken
    split at taken <;> cases taken
    exact inv.moveRecorder (.inl rfl)
  | recordStopped address env =>
    have moved : AudioInPlace place (world.moveRecorder address .stopped) :=
      inv.moveRecorder (.inl rfl)
    obtain ⟨_, ⟨_, rfl⟩ | ⟨_, rfl⟩⟩ := recordStopped_cases taken
    · exact moved.of_kept (finishRecordThread_kept _ env) (finishRecordThread_inHand _ env)
    · exact moved
  | inference address answer => exact inv.inferenceAdvance taken
  | whisperStopped address env =>
    have retired : AudioInPlace place (world.retireThread address) :=
      inv.setThread ⟨(inv.threads address).rate, fun works => absurd works Bool.false_ne_true⟩
    obtain ⟨_, ⟨_, rfl⟩ | ⟨_, rfl⟩⟩ := whisperStopped_cases taken
    · exact retired.onWhisperStopped _
    · exact retired
  | json address answer =>
    have frame := jsonAdvance_frame taken
    exact inv.of_frame (congrArg RecorderFields.workers frame.2.2.1)
      (congrArg InferenceFields.threads frame.2.2.2.1)
      (congrArg InferenceFields.results frame.2.2.2.1)
  | jsonStopped address env =>
    have frame := jsonStopped_frame taken
    exact inv.of_frame (congrArg RecorderFields.workers frame.2.1)
      (congrArg InferenceFields.threads frame.2.2.1)
      (congrArg InferenceFields.results frame.2.2.1)
  | file address report =>
    have frame := fileAdvance_frame taken
    exact inv.of_frame (congrArg RecorderFields.workers frame.2.2.1)
      (congrArg InferenceFields.threads frame.2.2.2.1)
      (congrArg InferenceFields.results frame.2.2.2.1)
  | fileComplete address =>
    have frame := fileComplete_frame taken
    exact inv.of_frame (congrArg RecorderFields.workers frame.2.1)
      (congrArg InferenceFields.threads frame.2.2.1)
      (congrArg InferenceFields.results frame.2.2.1)

/-- In a run without a gap every live result carries the time at which the first
sample of its window was recorded. -/
theorem timestamps_right (run : Reaches step (fun world label => NumbersSamples place world label ∧
      NoOverflow world label ∧ Continues place world label) (initial : World Sample) world) :
    ∀ result ∈ world.inference.results, TimedRight place result := by
  have base : AudioInPlace place (initial : World Sample) :=
    ⟨nofun, fun _ => ⟨rfl, fun _ => .nil⟩, nofun⟩
  refine AudioInPlace.results (run.invariant base ?_)
  intro before after label inv meets taken
  exact step_inPlace inv meets.1 meets.2.1 meets.2.2 taken

end Runs

/-- Samples of the session announced in a quiet environment, by their number. -/
def quietPlace (number : Nat) : Text × Nat :=
  (sessionId sessionPurpose (newSessionTimeData 0x19f99e5b391 0x317248c70b73) ++ recordSuffix,
    number)

/-- The recorder reads the next 16 samples and offers them. -/
def recordSixteen (first steps : Nat) : List (Label Nat) :=
  List.replicate steps (.recorder 0 (filledRecorder (first + ·) 16 sixteen_fit))

/-- The inference is stopped and drained, 16 samples pass, and a new worker is
started for the rest. -/
def resumeWithNewWorker : List (Label Nat) :=
  [.intent (.start none) quietEnvironment,
    .startRecordingInternal quietEnvironment] ++
  recordSixteen 0 8 ++
  [.intent .stopInference quietEnvironment] ++
  advances 0 13 ++
  [.whisperStopped 0 quietEnvironment] ++
  recordSixteen 16 5 ++
  [.intent .resumeInference quietEnvironment] ++
  recordSixteen 32 7 ++
  [.intent .stopInference quietEnvironment] ++
  advances 1 12

theorem timestamps_right_run :
    ∃ world, Reaches step (fun world label => NumbersSamples quietPlace world label ∧
        NoOverflow world label ∧ Continues quietPlace world label) (initial : World Nat) world ∧
      (world.inference.results.map fun result => result.event.startMs) = [0, 2] ∧
      ∀ result ∈ world.inference.results, TimedRight quietPlace result := by
  have checked : (executeChecked step (fun world label =>
      decide (NumbersSamples quietPlace world label ∧ NoOverflow world label ∧
        Continues quietPlace world label)) (initial : World Nat) resumeWithNewWorker).map
        (fun world => world.inference.results.map fun result => result.event.startMs) =
      some [0, 2] := by decide +kernel
  obtain ⟨world, result, seen⟩ := Option.map_eq_some_iff.mp checked
  have run := (Reaches.of_executeChecked result).weaken fun _ _ => of_decide_eq_true
  exact ⟨world, run, seen, timestamps_right run⟩

/-- The inference is stopped and resumed before its worker has noticed, and 16
samples pass in between. -/
def resumeWithSameWorker : List (Label Nat) :=
  [.intent (.start none) quietEnvironment,
    .startRecordingInternal quietEnvironment,
    .intent .stopInference quietEnvironment] ++
  recordSixteen 0 7 ++
  [.intent .resumeInference quietEnvironment] ++
  recordSixteen 16 7 ++
  [.intent .stopInference quietEnvironment] ++
  advances 0 12

/-- The window begins with sample 16, which was recorded after 1 ms, and its
event says 0. -/
theorem timestamp_wrong :
    ¬ ∀ world, Reaches step (fun world label => NumbersSamples quietPlace world label ∧
        NoOverflow world label) (initial : World Nat) world →
      ∀ result ∈ world.inference.results, TimedRight quietPlace result := by
  intro always
  have shifted : (executeChecked step (fun world label =>
      decide (NumbersSamples quietPlace world label ∧ NoOverflow world label))
        (initial : World Nat) resumeWithSameWorker).map (fun world =>
          world.inference.results.map fun result =>
            (result.event.startMs, result.window)) =
      some [(0, some ((List.range 16).map (16 + ·)))] := by decide +kernel
  obtain ⟨world, result, seen⟩ := Option.map_eq_some_iff.mp shifted
  have run := (Reaches.of_executeChecked result).weaken fun _ _ => of_decide_eq_true
  obtain ⟨late, single, both⟩ := List.map_eq_singleton_iff.mp seen
  obtain ⟨zero, window⟩ := Prod.mk.inj both
  have member : late ∈ world.inference.results := by
    rw [single]
    exact List.mem_singleton_self late
  obtain ⟨position, recorded, startMs⟩ := always world run late member 16 _ window
  obtain ⟨_, rfl⟩ := Prod.mk.inj recorded
  rw [zero] at startMs
  cases startMs

end LocalWhisper.Service
