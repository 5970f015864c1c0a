import LocalWhisper.Service.InferenceHandle

/-! When the service stops itself, and how requests leave the queue. Five
branches give up without a look at the workers; the sixth call is made when
nothing is left to do. -/

namespace LocalWhisper.Service

open LocalWhisper.Machine LocalWhisper.Record LocalWhisper.Transcription

variable {Sample : Type}

/-- `transcriptionJsonWorker`, if it is not null and its thread is alive. -/
def World.liveJson (world : World Sample) : Option Nat :=
  world.json.transcriptionJsonWorker.filter fun address =>
    (world.json.workers.get address).isAlive

/-- No session is open or about to start, no file is transcribed, and no
request waits, unless a failed inference is about to drop it. -/
structure NothingWaits (world : World Sample) : Prop where
  inactive : world.session.sessionActive = false
  pendingStart : world.pending.pendingRecordingStart = false
  fileWorker : world.liveFileWorker = none
  queue : world.inference.inferenceFailed = true ∨ world.file.retranscriptionQueue = []

/-- Both workers of the live pipeline have reported their stop. -/
def PipelineReported (world : World Sample) : Prop :=
  world.inference.whisperThreadStopped = true ∧ world.json.jsonThreadStopped = true

/-- What holds when the service has stopped because nothing was left. -/
structure IdleStop (after : World Sample) : Prop where
  fileWorker : after.liveFileWorker = none
  queue : after.file.retranscriptionQueue = []
  reported : PipelineReported after

/-- Whether the service was destroyed, and how often it has stopped itself. -/
def LifeFields.marks (life : LifeFields) : Bool × List StopCall :=
  (life.destroyed, life.stopCalls)

/-- The session is as before and the service goes on, or it has stopped itself
on finding something. -/
def KeptOrStopped (found : World Sample → Prop) (before after : World Sample) : Prop :=
  after.core = before.core ∧ after.life.marks = before.life.marks ∨
  after.core = .closed ∧ after.life.destroyed = before.life.destroyed ∧ IdleStop after ∧
    found after

def FileFields.jobs (fields : FileFields) :
    Option Nat × Objects WhisperFileTranscriptionWorker fun job => job.phase = .created :=
  (fields.retranscriptionWorker, fields.workers)

/-- The queue after a step: requests were added, or the next one was started
while no other was, or a failed inference has cleared it. -/
def QueueKept (before after : World Sample) : Prop :=
  (after.file.jobs = before.file.jobs ∧
    ∃ added, after.file.retranscriptionQueue = before.file.retranscriptionQueue ++ added) ∨
  (before.liveFileWorker = none ∧ ∃ added request,
    before.file.retranscriptionQueue ++ added = request :: after.file.retranscriptionQueue ∧
    after.file.jobs = (some before.file.workers.count, before.file.workers.create
      (WhisperFileTranscriptionWorker.new request.sessionId request.settings).start.1)) ∨
  (after.file.jobs = before.file.jobs ∧ after.file.retranscriptionQueue = [] ∧
    after.inference.inferenceFailed = true ∧ PipelineReported after)

/-- What a method may do to the life of the service and to the queue: it stops
the service only on finding something or where it gives up. -/
structure Winds (found : World Sample → Prop) (gives : Prop) (before after : World Sample) :
    Prop where
  stops : after.life.marks = before.life.marks ∨
    after.life.destroyed = before.life.destroyed ∧ (IdleStop after ∧ found after ∨ gives)
  queue : QueueKept before after

theorem World.liveFileWorker_congr {before after : World Sample}
    (jobs : after.file.jobs = before.file.jobs) : after.liveFileWorker = before.liveFileWorker := by
  obtain ⟨worker, workers⟩ := Prod.mk.inj jobs
  rw [liveFileWorker, worker, workers, liveFileWorker]

namespace QueueKept

variable {before middle after : World Sample}

theorem of_file (same : after.file = before.file) : QueueKept before after :=
  .inl ⟨by rw [same], [], by rw [same, List.append_nil]⟩

theorem prepend_added (later : QueueKept middle after) {added : List RetranscriptionRequest}
    (jobs : middle.file.jobs = before.file.jobs)
    (queue : middle.file.retranscriptionQueue = before.file.retranscriptionQueue ++ added) :
    QueueKept before after := by
  rcases later with ⟨same, more, grown⟩ | ⟨free, more, request, next, started⟩ |
    ⟨same, cleared⟩
  · exact .inl ⟨same.trans jobs, added ++ more, by rw [grown, queue, List.append_assoc]⟩
  · refine .inr (.inl ⟨(World.liveFileWorker_congr jobs).symm.trans free, added ++ more, request,
      by rw [← List.append_assoc, ← queue, next], ?_⟩)
    rw [started, (Prod.mk.inj jobs).2]
  · exact .inr (.inr ⟨same.trans jobs, cleared⟩)

end QueueKept

namespace Winds

variable {found weaker : World Sample → Prop} {gives more : Prop}
variable {before middle after : World Sample}

theorem of_file (marks : after.life.marks = before.life.marks)
    (file : after.file = before.file) : Winds found gives before after :=
  ⟨.inl marks, .of_file file⟩

theorem refl (world : World Sample) : Winds found gives world world :=
  of_file rfl rfl

theorem given (why : gives) (destroyed : after.life.destroyed = before.life.destroyed)
    (file : after.file = before.file) : Winds found gives before after :=
  ⟨.inr ⟨destroyed, .inr why⟩, .of_file file⟩

theorem prepend_added (later : Winds found gives middle after)
    {added : List RetranscriptionRequest}
    (marks : middle.life.marks = before.life.marks)
    (jobs : middle.file.jobs = before.file.jobs)
    (queue : middle.file.retranscriptionQueue = before.file.retranscriptionQueue ++ added) :
    Winds found gives before after := by
  refine ⟨?_, later.queue.prepend_added jobs queue⟩
  rw [← marks, ← (Prod.mk.inj marks).1]
  exact later.stops

theorem prepend (later : Winds found gives middle after)
    (marks : middle.life.marks = before.life.marks)
    (file : middle.file = before.file) : Winds found gives before after :=
  later.prepend_added marks (by rw [file]) (by rw [file, List.append_nil])

theorem weaken (winds : Winds found gives before after)
    (wider : IdleStop after → found after → weaker after) (implied : gives → more) :
    Winds weaker more before after := by
  refine ⟨winds.stops.imp id (And.imp id (Or.imp ?_ implied)), winds.queue⟩
  rintro ⟨idle, what⟩
  exact ⟨idle, wider idle what⟩

theorem destroyed (winds : Winds found gives before after) :
    after.life.destroyed = before.life.destroyed :=
  winds.stops.elim (congrArg Prod.fst) And.left

theorem calls (winds : Winds found gives before after) :
    after.life.stopCalls = before.life.stopCalls ∨ IdleStop after ∧ found after ∨ gives :=
  winds.stops.imp (congrArg Prod.snd) And.right

end Winds

namespace KeptOrStopped

variable {found weaker : World Sample → Prop} {before middle after : World Sample}

theorem winds (kept : KeptOrStopped found before after) (queue : QueueKept before after) :
    Winds found False before after :=
  ⟨kept.imp And.right fun ⟨_, destroyed, stopped⟩ => ⟨destroyed, .inl stopped⟩, queue⟩

theorem prepend (later : KeptOrStopped found middle after) (core : middle.core = before.core)
    (marks : middle.life.marks = before.life.marks) : KeptOrStopped found before after := by
  rw [KeptOrStopped, core, marks, (Prod.mk.inj marks).1] at later
  exact later

theorem weaken (kept : KeptOrStopped found before after)
    (implied : found after → weaker after) : KeptOrStopped weaker before after :=
  kept.imp id fun ⟨closed, destroyed, idle, what⟩ => ⟨closed, destroyed, idle, implied what⟩

end KeptOrStopped

namespace World

variable (world : World Sample) (env : Environment)

/-- The service goes on without a new file, or it stops, or the next file is
started. -/
theorem startNextRetranscriptionOrStop_cases :
    (world.startNextRetranscriptionOrStop.core = world.core ∧
      world.startNextRetranscriptionOrStop.life.marks = world.life.marks ∧
      world.startNextRetranscriptionOrStop.file = world.file) ∨
    (world.session.sessionActive = false ∧ world.session.inferenceAlive = false ∧
      world.pending.pendingRecordingStart = false ∧ world.liveFileWorker = none ∧
      world.file.retranscriptionQueue = [] ∧ world.startNextRetranscriptionOrStop =
        (world.publishState "録音と推論を終了しました").stopForegroundAndSelf .nothingLeft) ∨
    (world.liveFileWorker = none ∧ ∃ request rest,
      world.file.retranscriptionQueue = request :: rest ∧
      world.startNextRetranscriptionOrStop = world.startRetranscription request rest) := by
  unfold startNextRetranscriptionOrStop
  split
  · left
    split <;> exact ⟨rfl, rfl, rfl⟩
  · rename_i idle
    simp only [Bool.or_eq_true, not_or, Bool.not_eq_true] at idle
    split
    · exact .inl ⟨rfl, rfl, rfl⟩
    · rename_i free
      have noFile : world.liveFileWorker = none := by simpa using free
      split
      · rename_i empty
        exact .inr (.inl ⟨idle.1.1, idle.1.2, idle.2, noFile, empty, rfl⟩)
      · rename_i request rest next
        exact .inr (.inr ⟨noFile, request, rest, next, rfl⟩)

theorem startNextRetranscriptionOrStop_queue : QueueKept world
    world.startNextRetranscriptionOrStop := by
  rcases world.startNextRetranscriptionOrStop_cases with
    ⟨_, _, file⟩ | ⟨_, _, _, _, _, stopped⟩ | ⟨free, request, rest, next, started⟩
  · exact .of_file file
  · rw [stopped]
    exact .of_file rfl
  · rw [started]
    exact .inr (.inl ⟨free, [], request, (List.append_nil _).trans next, rfl⟩)

/-- The service stops here only when both threads of the pipeline have
reported, and then it has found nothing left. -/
theorem startNextRetranscriptionOrStop_stops (reported : PipelineReported world) :
    KeptOrStopped (fun _ => NothingWaits world ∧ world.session.inferenceAlive = false) world
      world.startNextRetranscriptionOrStop := by
  rcases world.startNextRetranscriptionOrStop_cases with
    ⟨core, marks, _⟩ | ⟨inactive, alive, pending, free, empty, stopped⟩ |
      ⟨_, request, rest, _, started⟩
  · exact .inl ⟨core, marks⟩
  · rw [stopped]
    exact .inr ⟨rfl, rfl, ⟨free, empty, reported⟩, ⟨inactive, pending, free, .inr empty⟩, alive⟩
  · rw [started]
    exact .inl ⟨rfl, rfl⟩

/-- The world after the clear that follows a failed inference. -/
def clearFailed (world : World Sample) : World Sample :=
  if world.inference.inferenceFailed then
    { world with file := { world.file with retranscriptionQueue := [] } } else world

/-- Inside `finishIdleWorkIfPossible` nothing happens, or the queue is handled
after both threads have reported. -/
theorem finishIdleWorkIfPossible_cases :
    (world.finishIdleWorkIfPossible.core = world.core ∧
      world.finishIdleWorkIfPossible.life.marks = world.life.marks ∧
      world.finishIdleWorkIfPossible.file = world.file) ∨
    (PipelineReported world ∧
      (world.finishIdleWorkIfPossible = world.clearFailed.startRecordingInternalAsync ∨
        world.finishIdleWorkIfPossible = world.clearFailed.startNextRetranscriptionOrStop)) := by
  unfold finishIdleWorkIfPossible
  split
  · exact .inl ⟨rfl, rfl, rfl⟩
  · split
    · exact .inl ⟨rfl, rfl, rfl⟩
    · rename_i reports
      right
      refine ⟨by simpa [PipelineReported] using reports, ?_⟩
      by_cases start : world.clearFailed.pending.pendingRecordingStart = true
      · exact .inl (if_pos start)
      · exact .inr (if_neg start)

private theorem clearFailed_frame :
    world.clearFailed.core = world.core ∧ world.clearFailed.life = world.life ∧
    world.clearFailed.inference = world.inference ∧ world.clearFailed.json = world.json ∧
    world.clearFailed.file.jobs = world.file.jobs := by
  unfold clearFailed
  split <;> exact ⟨rfl, rfl, rfl, rfl, rfl⟩

theorem finishIdleWorkIfPossible_stops :
    KeptOrStopped (fun _ => NothingWaits world ∧ world.session.inferenceAlive = false ∧
      world.inference.whisperThreadStopped = true) world world.finishIdleWorkIfPossible := by
  obtain ⟨core, life, _⟩ := world.clearFailed_frame
  rcases world.finishIdleWorkIfPossible_cases with
    ⟨same, marks, _⟩ | ⟨reported, later | later⟩
  · exact .inl ⟨same, marks⟩
  · have marks : world.clearFailed.life.marks = world.life.marks := by rw [life]
    rw [later]
    exact .inl ⟨core, marks⟩
  · rw [later]
    unfold clearFailed
    split
    · rename_i failed
      refine .weaken (.prepend (startNextRetranscriptionOrStop_stops _ reported) rfl rfl) ?_
      exact fun ⟨waits, alive⟩ =>
        ⟨⟨waits.inactive, waits.pendingStart, waits.fileWorker, .inl failed⟩, alive, reported.1⟩
    · exact (startNextRetranscriptionOrStop_stops world reported).weaken fun ⟨waits, alive⟩ =>
        ⟨waits, alive, reported.1⟩

theorem finishIdleWorkIfPossible_queue : QueueKept world world.finishIdleWorkIfPossible := by
  rcases world.finishIdleWorkIfPossible_cases with ⟨_, _, file⟩ | ⟨reported, later | later⟩
  · exact .of_file file
  · rw [later]
    unfold clearFailed
    split
    · rename_i failed
      exact .inr (.inr ⟨rfl, rfl, failed, reported⟩)
    · exact .of_file rfl
  · rw [later]
    unfold clearFailed
    split
    · rename_i failed
      -- the queue was cleared, so nothing can be started from it
      right
      right
      rcases startNextRetranscriptionOrStop_cases { world with
        file := { world.file with retranscriptionQueue := [] } } with
        ⟨_, _, file⟩ | ⟨_, _, _, _, _, stopped⟩ | ⟨_, request, rest, next, _⟩
      · refine ⟨by rw [file]; rfl, by rw [file], ?_⟩
        simpa [PipelineReported] using And.intro failed reported
      · rw [stopped]
        exact ⟨rfl, rfl, failed, reported⟩
      · cases next
    · exact startNextRetranscriptionOrStop_queue world

theorem requestJsonThreadStop_stops :
    KeptOrStopped (fun _ => NothingWaits world ∧ world.session.inferenceAlive = false ∧
      world.inference.whisperThreadStopped = true ∧ world.liveJson = none) world
      world.requestJsonThreadStop := by
  unfold requestJsonThreadStop
  simp only
  split
  · rename_i free
    refine .weaken (.prepend (finishIdleWorkIfPossible_stops _) rfl rfl) ?_
    rintro ⟨waits, alive, reported⟩
    refine ⟨⟨waits.inactive, waits.pendingStart, waits.fileWorker, waits.queue⟩, alive, reported, ?_⟩
    rw [liveJson, free]
    rfl
  · rename_i address stored
    split
    · exact .inl ⟨rfl, rfl⟩
    · rename_i dead
      refine .weaken (.prepend (finishIdleWorkIfPossible_stops _) rfl rfl) ?_
      rintro ⟨waits, alive, reported⟩
      refine ⟨⟨waits.inactive, waits.pendingStart, waits.fileWorker, waits.queue⟩, alive, reported,
        ?_⟩
      rw [liveJson, stored, Option.filter_eq_none_iff]
      rintro _ ⟨⟩
      intro lives
      have thread : (world.json.workers.get address).workerThread = true := lives
      simp [TransscriptsJSON.TranscriptionJsonWorker.requestStop, thread] at dead

theorem requestJsonThreadStop_queue : QueueKept world world.requestJsonThreadStop := by
  unfold requestJsonThreadStop
  simp only
  split
  · exact finishIdleWorkIfPossible_queue { world with json := { world.json with
      jsonThreadStopped := true, transcriptionJsonWorker := none } }
  · split
    · exact .of_file rfl
    · exact finishIdleWorkIfPossible_queue { world with json := _ }

private theorem closeAudioFile_queue (enqueue : Bool) :
    (world.closeAudioFile enqueue env).file.jobs = world.file.jobs ∧
    ∃ added, (world.closeAudioFile enqueue env).file.retranscriptionQueue =
      world.file.retranscriptionQueue ++ added := by
  unfold closeAudioFile
  split
  · exact ⟨rfl, [], (List.append_nil _).symm⟩
  · simp only
    split
    · exact ⟨rfl, [], (List.append_nil _).symm⟩
    · split
      · exact ⟨rfl, [], (List.append_nil _).symm⟩
      · split
        · exact ⟨rfl, _, rfl⟩
        · exact ⟨rfl, [], (List.append_nil _).symm⟩

theorem endRecording_winds : Winds (fun _ => True) False world (world.endRecording env) := by
  obtain ⟨jobs, added, queue⟩ := closeAudioFile_queue world.releaseMediaProjection env true
  have life := (closeAudioFile_frame world.releaseMediaProjection env true).2.2.2.2.2.2.2
  have offered (after : World Sample) (later : Winds (fun _ => True) False
      (world.releaseMediaProjection.closeAudioFile true env) after) :
      Winds (fun _ => True) False world after :=
    later.prepend_added (congrArg LifeFields.marks life) jobs queue
  unfold endRecording
  simp only
  split
  · exact offered _ (.of_file rfl rfl)
  · split
    · exact offered _ (.of_file rfl rfl)
    · apply offered
      exact ((requestJsonThreadStop_stops _).winds (requestJsonThreadStop_queue _)).weaken
        (fun _ _ => trivial) id

/-- Without the permission the service stops; with it no file is touched. -/
theorem startRecordingWorkerForSession_winds : Winds (fun _ => False) (env.permission = false)
    world (world.startRecordingWorkerForSession env) := by
  unfold startRecordingWorkerForSession
  split
  · rename_i refused
    exact .given (by simpa using refused) rfl rfl
  · simp only
    split
    · exact .of_file rfl rfl
    · split <;> exact .of_file rfl rfl

/-- A session that is paused and was asked to go on needs the permission. -/
def ResumesRefused (world : World Sample) (env : Environment) : Prop :=
  env.permission = false ∧ world.session.sessionEndRequested = false ∧
    world.pending.pendingRecordingResume = true ∧ world.session.sessionActive = true

/-- The end of a recorder can end the service when the session is over, and
then the field `recordWorker` is null. -/
theorem finishRecordThread_winds :
    Winds (fun after => after.recorder.recordWorker = none) (world.ResumesRefused env) world
      (world.finishRecordThread env) := by
  rcases world.finishRecordThread_cases env with
    ⟨unfinished, pending, active, resumed⟩ | ⟨_, _, paused⟩ | ⟨_, ended⟩
  · rw [resumed]
    have started := startRecordingWorkerForSession_winds world.detachRecorder env
    exact .prepend (started.weaken (fun _ => False.elim) fun refused =>
      ⟨refused, unfinished, pending, active⟩) rfl rfl
  · rw [paused]
    exact .of_file rfl rfl
  · rw [ended]
    have finished := endRecording_winds world.detachRecorder env
    refine Winds.prepend (finished.weaken (fun _ _ => ?_) False.elim) rfl rfl
    rw [(endRecording_frame _ env).2]
    rfl

theorem requestRecordThreadStop_winds :
    Winds (fun after => after.recorder.recordWorker = none) (world.ResumesRefused env) world
      (world.requestRecordThreadStop env) := by
  unfold requestRecordThreadStop
  split
  · exact finishRecordThread_winds world env
  · rename_i address _
    simp only
    split
    · exact .of_file rfl rfl
    · have finished := finishRecordThread_winds (world.setRecorder address
        (world.recorder.workers.get address).requestStop.1) env
      exact finished.prepend rfl rfl

theorem requestStopRecording_winds :
    Winds (fun after => after.recorder.recordWorker = none) False world
      (world.requestStopRecording env) := by
  unfold requestStopRecording
  split
  · exact .refl world
  · simp only
    -- the session is to end now, so that it cannot go on
    split
    · exact .prepend (.weaken (requestRecordThreadStop_winds _ env) (fun _ detached => detached)
        fun refused => Bool.noConfusion refused.2.1) rfl rfl
    · exact .prepend (.weaken (finishRecordThread_winds _ env) (fun _ detached => detached)
        fun refused => Bool.noConfusion refused.2.1) rfl rfl

private theorem requestPauseRecording_winds :
    Winds (fun after => after.recorder.recordWorker = none) False world
      (world.requestPauseRecording env) := by
  unfold requestPauseRecording
  split
  · exact .refl world
  · exact .prepend (.weaken (requestRecordThreadStop_winds _ env) (fun _ detached => detached)
      fun refused => Bool.noConfusion refused.2.2.1) rfl rfl

private theorem requestResumeRecording_winds :
    Winds (fun _ => False) (env.permission = false ∧ world.session.sessionActive = true ∧
      world.session.recording = false ∧ world.liveRecorder = none) world
      (world.requestResumeRecording env) := by
  unfold requestResumeRecording
  split
  · exact .refl world
  · rename_i guard
    simp only [Bool.or_eq_true, Bool.not_eq_true', not_or, Bool.not_eq_false,
      Bool.not_eq_true] at guard
    split
    · exact .of_file rfl rfl
    · rename_i dead
      exact (startRecordingWorkerForSession_winds world env).weaken (fun _ => id) fun refused =>
        ⟨refused, guard.1, guard.2, by simpa using dead⟩

/-- A chosen file goes into the queue, so that the service does not stop; only
a request without a file stops it. -/
theorem enqueueSelectedFile_winds (uri : Option Text) :
    Winds (fun _ => False) (uri = none) world (world.enqueueSelectedFile uri env) := by
  unfold enqueueSelectedFile
  split
  · exact .given rfl rfl rfl
  · rename_i uri
    let request : RetranscriptionRequest := {
      uri := .selected uri
      settings := env.settings
      sessionId := sessionId filePurpose env.timeData
      label := "音声ファイル" }
    have queue := startNextRetranscriptionOrStop_queue (world.offerRetranscription request)
    refine ⟨.inl ?_, queue.prepend_added rfl rfl⟩
    rcases (world.offerRetranscription request).startNextRetranscriptionOrStop_cases with
      ⟨_, marks, _⟩ | ⟨_, _, _, _, empty, _⟩ | ⟨_, _, _, _, started⟩
    · exact marks
    · exact absurd empty (List.append_ne_nil_of_right_ne_nil _ (List.cons_ne_nil _ _))
    · rw [started]
      rfl

theorem stopInferenceIfNotRecording_winds (live : world.liveTranscription ≠ none)
    (silent : world.session.recording = false) :
    Winds (fun _ => False) False world world.stopInferenceIfNotRecording := by
  unfold stopInferenceIfNotRecording
  simp only
  split
  · split
    · exact .of_file rfl rfl
    · rename_i recording
      exact absurd silent (by simpa using recording)
  · rename_i none
    exact absurd none live

private theorem openSession_winds (time : Text) (bufferSize : Nat)
    (live : world.liveTranscription ≠ none) (silent : world.session.recording = false) :
    Winds (fun _ => False) False world (world.openSession time bufferSize env) := by
  unfold openSession
  simp only
  split
  · refine (stopInferenceIfNotRecording_winds _ ?_ ?_).prepend ?_ ?_
    · simpa [liveTranscription, activateSession] using live
    · simpa [activateSession] using silent
    · simp [activateSession]
    · simp [activateSession]
  · exact .of_file rfl rfl

section Pipeline

variable [Inhabited Sample]

/-- A pipeline that takes audio has a live worker. -/
theorem ensureInferenceAccepting_live (time : Text)
    (accepting : (world.ensureInferenceAccepting time).2 = true) :
    (world.ensureInferenceAccepting time).1.liveTranscription ≠ none := by
  intro gone
  unfold ensureInferenceAccepting at accepting gone
  split at gone
  · have alive : ((world.startInferencePipeline time).inference.threads.get
        world.inference.threads.count).worker.isAlive = true := by
      have made : (world.startInferencePipeline time).inference.threads.get
          world.inference.threads.count = world.pipelineThread
            (world.session.recordingSessionId.getD (sessionId sessionPurpose time)) :=
        Objects.create_get_new _ _
      rw [made]
      rfl
    rw [liveTranscription, Option.filter_eq_none_iff] at gone
    exact gone _ rfl alive
  · rename_i address live
    obtain ⟨stored, alive⟩ := Option.filter_eq_some_iff.mp live
    split at gone
    · rename_i foreign
      simp only [live] at accepting
      rw [if_pos foreign] at accepting
      cases accepting
    · rw [liveTranscription, Option.filter_eq_none_iff] at gone
      refine gone address stored ?_
      refine Eq.trans ?_ alive
      exact Objects.set_get_view _ _ address address
        (fun thread : InferenceThread Sample => thread.worker.workerThread)
        (WhisperTranscriptionWorker.resumeAudioSubmission_workerThread _)

/-- Whatever else goes wrong while a session is prepared, the service does not
stop: the pipeline that was made ready is drained first. -/
theorem prepareSession_winds (silent : world.session.recording = false) :
    Winds (fun _ => False) False world (world.prepareSession env) := by
  have frame := ensureInferenceAccepting_frame (world.nameSession env) (world.nextSessionTime env)
  have core := ensureInferenceAccepting_core (world.nameSession env) (world.nextSessionTime env)
  have live := ensureInferenceAccepting_live (world.nameSession env) (world.nextSessionTime env)
  have ready {other after : World Sample} (prepared : Prepared ((world.nameSession
      env).ensureInferenceAccepting (world.nextSessionTime env)).1 other)
      (later : Winds (fun _ => False) False other after) :
      Winds (fun _ => False) False world after := by
    refine later.prepend ?_ ?_
    · rw [prepared.life, frame.2.2.2.2.2.2]
      rfl
    · rw [prepared.file, frame.2.2.1]
      rfl
  have serves {other : World Sample} (prepared : Prepared ((world.nameSession
      env).ensureInferenceAccepting (world.nextSessionTime env)).1 other)
      (accepted : ((world.nameSession env).ensureInferenceAccepting
        (world.nextSessionTime env)).2 = true) :
      other.liveTranscription ≠ none ∧ other.session.recording = false := by
    refine ⟨?_, ?_⟩
    · rw [liveTranscription, prepared.inference]
      exact live accepted
    · rw [prepared.session]
      exact (congrArg SessionCore.recording core).trans silent
  rcases world.prepareSession_cases env with
    ⟨_, waits⟩ | ⟨accepted, other, prepared, _, given⟩ | ⟨accepted, other, _, prepared, _, _, opened⟩
  · rw [waits]
    exact .of_file (congrArg LifeFields.marks frame.2.2.2.2.2.2) frame.2.2.1
  · obtain ⟨alive, quiet⟩ := serves prepared accepted
    rw [given]
    exact ready prepared (stopInferenceIfNotRecording_winds other alive quiet)
  · obtain ⟨alive, quiet⟩ := serves prepared accepted
    rw [opened]
    exact ready prepared (openSession_winds other env _ _ alive quiet)

/-- Nothing records and no file is transcribed, but the permission or a model
is missing. -/
def StartRefused (world : World Sample) (env : Environment) : Prop :=
  world.session.recording = false ∧ world.liveRecorder = none ∧ world.liveFileWorker = none ∧
    (env.permission = false ∨ env.modelError ≠ none)

omit [Inhabited Sample] in
theorem startRefused_of_not_prepares {world : World Sample} {env : Environment}
    (refused : world.preparesSession env = false) (silent : world.session.recording = false)
    (gone : world.liveRecorder = none) (free : world.liveFileWorker = none) :
    world.StartRefused env := by
  refine ⟨silent, gone, free, ?_⟩
  cases permission : env.permission with
  | false => exact .inl rfl
  | true =>
    right
    intro ready
    simp [preparesSession, silent, gone, free, permission, ready] at refused

private theorem startRecordingInternal_winds :
    Winds (fun _ => False) (world.StartRefused env) world (world.startRecordingInternal env) := by
  rcases world.startRecordingInternal_cases env with
    ⟨prepares, prepared⟩ | ⟨_, _, _, waits⟩ | ⟨refused, silent, gone, free, _, _, _, _, _, stopped⟩
  · have silent : world.session.recording = false := by
      simp only [preparesSession, Bool.and_eq_true, Bool.not_eq_true'] at prepares
      exact prepares.1.1.1.1
    rw [prepared]
    exact .prepend (.weaken (prepareSession_winds (world.loadSettings env) env silent)
      (fun _ => id) False.elim) rfl rfl
  · rw [waits]
    exact .of_file rfl rfl
  · rw [stopped]
    exact .given (startRefused_of_not_prepares refused silent gone free) rfl rfl

theorem onWhisperStopped_stops (event : ThreadStoppedEvent) (failed : event.hasError = false) :
    KeptOrStopped (fun _ => NothingWaits world ∧ world.session.sessionEndRequested = true ∧
      world.liveJson = none) world (world.onWhisperStopped event) := by
  unfold onWhisperStopped
  simp only
  split
  · rename_i ending
    refine .weaken (.prepend (requestJsonThreadStop_stops _) rfl rfl) ?_
    rintro ⟨⟨inactive, pending, free, queue⟩, _, _, json⟩
    simp only [failed, Bool.or_false] at queue
    exact ⟨⟨inactive, pending, free, queue⟩, ending, json⟩
  · split <;> exact .inl ⟨rfl, rfl⟩

private theorem onWhisperStopped_queue (event : ThreadStoppedEvent) :
    QueueKept world (world.onWhisperStopped event) := by
  unfold onWhisperStopped
  simp only
  split
  · exact (requestJsonThreadStop_queue _).prepend_added rfl (List.append_nil _).symm
  · split <;> exact .of_file rfl

end Pipeline

end World

open World

/-- The step finds nothing left to do. The stop events of the two threads of
the pipeline and the completion callback of a file look for it. -/
def FindsNothingLeft (world : World Sample) : Label Sample → Prop
  | .whisperStopped address _ => WhisperStopMatches world address ∧ NothingWaits world ∧
      world.session.sessionEndRequested = true ∧ world.liveJson = none
  | .jsonStopped address _ => JsonStopMatches world address ∧ NothingWaits world ∧
      world.session.inferenceAlive = false ∧ world.inference.whisperThreadStopped = true
  | .fileComplete _ => world.life.destroyed = false ∧ world.session.sessionActive = false ∧
      world.pending.pendingRecordingStart = false ∧ world.file.retranscriptionQueue = []
  | _ => False

/-- The step takes a branch that stops the service because a request or a start
has failed. -/
def GivesUp (world : World Sample) : Label Sample → Prop
  | .intent (.transcribeFile uri) _ => uri = none
  | .intent .stopFileTranscription _ => world.liveFileWorker = none
  | .intent .resumeRecording env => env.permission = false ∧ world.session.sessionActive = true ∧
      world.session.recording = false ∧ world.liveRecorder = none
  | .recordStopped address env => RecordStopMatches world address ∧ world.ResumesRefused env
  | .startRecordingInternal env => world.StartRefused env
  | _ => False

/-- The worker in the field, and whether its thread counts as stopped. -/
def InferenceFields.handle (fields : InferenceFields Sample) : Option Nat × Bool :=
  (fields.transcriptionWorker, fields.whisperThreadStopped)

/-- A step that ends a recording has let go of the recorder. It comes from the
service's own callers or, after `onDestroy`, out of an open session. -/
def LetsGo (world after : World Sample) : Prop :=
  after.recorder.recordWorker = none ∧ (world.life.destroyed = false ∨
    world.session.sessionActive = true ∧ after.inference.handle = world.inference.handle)

/-- The steps that change the workers of files or drop requests. -/
def Label.handlesFiles : Label Sample → Prop
  | .intent .stopFileTranscription _ | .destroy _ | .file .. | .fileComplete _ => True
  | _ => False

namespace World

/-- The file worker has called back. -/
def retireFile (world : World Sample) (address : Nat) : World Sample :=
  { world with file := { world.file with
      workers := world.file.workers.set address
        { world.file.workers.get address with phase := .completed } } }

/-- What the callback clears before it looks for what comes next. -/
def detachFile (world : World Sample) : World Sample :=
  { world with
    file := { world.file with retranscriptionWorker := none, retranscriptionSessionId := none }
    session := { world.session with
      inferenceAlive := false, inferenceAccepting := false, currentState := none } }

end World

section Steps

variable {world after : World Sample} {address : Nat}

theorem NothingWaits.congr {other : World Sample} (waits : NothingWaits other)
    (session : world.session = other.session) (pending : world.pending = other.pending)
    (file : world.file = other.file)
    (failed : world.inference.inferenceFailed = other.inference.inferenceFailed) :
    NothingWaits world := by
  obtain ⟨inactive, pendingStart, free, queue⟩ := waits
  refine ⟨by rw [session, inactive], by rw [pending, pendingStart], ?_, by rw [failed, file]; exact queue⟩
  rw [World.liveFileWorker_congr (congrArg FileFields.jobs file), free]

variable [Inhabited Sample]

private theorem onStartCommand_winds (action : Intent) (env : Environment)
    (plain : ¬ (.intent action env : Label Sample).handlesFiles) :
    Winds (fun after => after.recorder.recordWorker = none)
      (GivesUp world (.intent action env)) world (world.onStartCommand action env) := by
  cases action with
  | start request =>
    refine .of_file ?_ (onStart_frame world env request).2.2.2.1
    unfold onStartCommand onStart readRecordingRequest
    cases request <;> simp only <;> split <;> rfl
  | stop => exact (requestStopRecording_winds world env).weaken (fun _ => id) False.elim
  | pauseRecording => exact (requestPauseRecording_winds world env).weaken (fun _ => id) False.elim
  | resumeRecording =>
    exact (requestResumeRecording_winds world env).weaken (fun _ => False.elim) id
  | stopFileTranscription => exact absurd trivial plain
  | stopInference =>
    have frame := requestStopInference_frame world
    exact .of_file (congrArg LifeFields.marks frame.2.2.2.2.2) frame.2.2.1
  | resumeInference =>
    have frame := requestResumeInference_frame world
    exact .of_file (congrArg LifeFields.marks frame.2.2.2.2) frame.2.1
  | transcribeFile uri =>
    exact (enqueueSelectedFile_winds world env uri).weaken (fun _ => False.elim) id

/-- A step that does not handle files stops the service only where it finds
nothing left, when the last recorder has just been let go of, or where it gives
up. -/
theorem step_winds {label : Label Sample} (taken : step world label = some after)
    (plain : ¬ label.handlesFiles) :
    Winds (fun after => FindsNothingLeft world label ∨ LetsGo world after)
      (GivesUp world label) world after := by
  cases label with
  | intent action env =>
    simp only [step] at taken
    split at taken <;> cases taken
    rename_i kept
    exact (onStartCommand_winds action env plain).weaken
      (fun _ detached => .inr ⟨detached, .inl (by simpa using kept)⟩) id
  | destroy | file | fileComplete => exact absurd trivial plain
  | startRecordingInternal env =>
    simp only [step] at taken
    split at taken <;> cases taken
    exact .prepend (.weaken (startRecordingInternal_winds _ env) (fun _ => False.elim)
      fun refused => refused) rfl rfl
  | projectionStopped env =>
    simp only [step] at taken
    split at taken
    · cases taken
    · split at taken <;> cases taken
      · rename_i active
        have same := congrArg InferenceFields.handle (requestStopRecording_kept
          (world.publishState "アプリ音声のキャプチャ許可が終了しました") env).fields
        exact .prepend (.weaken (requestStopRecording_winds _ env)
          (fun _ detached => .inr ⟨detached, .inr ⟨active, same⟩⟩) False.elim) rfl rfl
      · exact .refl world
  | recorder address answer =>
    have frame := recorderAdvance_frame taken
    exact .of_file (congrArg LifeFields.marks frame.2.2.2.2.2.2.1) frame.2.2.2.2.2.2.2
  | recorderThrows address message =>
    simp only [step] at taken
    split at taken <;> cases taken
    exact .of_file rfl rfl
  | recordStopped address env =>
    obtain ⟨_, ⟨matching, rfl⟩ | ⟨_, rfl⟩⟩ := recordStopped_cases taken
    · exact .prepend (.weaken (finishRecordThread_winds _ env)
        (fun _ detached => .inr ⟨detached, .inl matching.1⟩)
        fun refused => ⟨matching, refused⟩) rfl rfl
    · exact .of_file rfl rfl
  | inference address answer =>
    have frame := inferenceAdvance_frame taken
    exact .of_file (congrArg LifeFields.marks frame.2.2.2.2.2.2) frame.2.2.2.1
  | whisperStopped address env =>
    obtain ⟨_, ⟨matching, rfl⟩ | ⟨_, rfl⟩⟩ := whisperStopped_cases taken
    · have stops := onWhisperStopped_stops (world.retireThread address)
        (whisperStoppedEvent (world.inference.threads.get address).worker) rfl
      have winds := stops.winds (onWhisperStopped_queue _ _)
      refine .prepend (winds.weaken (fun _ => ?_) False.elim) rfl rfl
      rintro ⟨waits, ending, json⟩
      exact .inl ⟨matching, waits.congr rfl rfl rfl rfl, ending, json⟩
    · exact .of_file rfl rfl
  | json address answer =>
    have frame := jsonAdvance_frame taken
    exact .of_file (congrArg LifeFields.marks frame.2.2.2.2.2.2.2.2) frame.2.2.2.2.1
  | jsonStopped address env =>
    obtain ⟨_, ⟨matching, rfl⟩ | ⟨_, rfl⟩⟩ := jsonStopped_cases taken
    · have stops := finishIdleWorkIfPossible_stops (detachJson (world.retireJson address))
      have winds := stops.winds (finishIdleWorkIfPossible_queue _)
      refine .prepend (winds.weaken (fun _ => ?_) False.elim) rfl rfl
      rintro ⟨waits, alive, reported⟩
      exact .inl ⟨matching, waits.congr rfl rfl rfl rfl, alive, reported⟩
    · exact .of_file rfl rfl

omit [Inhabited Sample] in
/-- The callback of a file worker does nothing more in a service that was
destroyed; otherwise it looks for what comes next. -/
theorem fileComplete_cases (taken : world.fileComplete address = some after) :
    (world.life.destroyed = true ∧ after = world.retireFile address) ∨
    (world.life.destroyed = false ∧
      (after = (world.retireFile address).detachFile.startRecordingInternalAsync ∨
        after = (world.retireFile address).detachFile.startNextRetranscriptionOrStop)) := by
  unfold fileComplete at taken
  simp only at taken
  split at taken <;> cases taken
  unfold onRetranscriptionComplete
  split
  · rename_i gone
    exact .inl ⟨gone, rfl⟩
  · rename_i kept
    refine .inr ⟨by simpa using kept, ?_⟩
    simp only
    split
    · exact .inl rfl
    · exact .inr rfl

omit [Inhabited Sample] in
theorem fileComplete_stops (taken : world.fileComplete address = some after) :
    after.core = world.core ∧ after.life.marks = world.life.marks ∨
      after.core = .closed ∧ after.life.destroyed = world.life.destroyed ∧
        after.liveFileWorker = none ∧ after.file.retranscriptionQueue = [] ∧
        FindsNothingLeft world (.fileComplete address) := by
  rcases fileComplete_cases taken with ⟨_, rfl⟩ | ⟨kept, rfl | rfl⟩
  · exact .inl ⟨rfl, rfl⟩
  · exact .inl ⟨rfl, rfl⟩
  · rcases (world.retireFile address).detachFile.startNextRetranscriptionOrStop_cases with
      ⟨core, marks, _⟩ | ⟨inactive, _, pending, free, empty, stopped⟩ | ⟨_, _, _, _, started⟩
    · exact .inl ⟨core, marks⟩
    · rw [stopped]
      exact .inr ⟨rfl, rfl, free, empty, kept, inactive, pending, empty⟩
    · rw [started]
      exact .inl ⟨rfl, rfl⟩

omit [Inhabited Sample] in
theorem requestStopFileTranscription_stops :
    world.requestStopFileTranscription.life.marks = world.life.marks ∨
      world.requestStopFileTranscription.life.destroyed = world.life.destroyed ∧
        world.liveFileWorker = none := by
  unfold requestStopFileTranscription
  simp only
  split
  · exact .inl rfl
  · rename_i free
    exact .inr ⟨rfl, free⟩

end Steps

end LocalWhisper.Service
