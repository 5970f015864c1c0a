import LocalWhisper.Record.AudioRecordWorker
import LocalWhisper.Record.Buffer.ChunkPool

/-! The way of a PCM chunk: `readNextAudioChunk` of the recorder, the service's
`onAudioChunk`, `submit` and `run` of the inference worker, and back into the
pool. Every call on a chunk, on the queue or on the pool is a step; the audio
itself and the windows cut from it are left out. -/

namespace LocalWhisper.Record

open LocalWhisper.Machine LocalWhisper.Record.Buffer LocalWhisper.Transcription

/-- What the recorder does once its chunk is closed. -/
inductive AfterClose where
  /-- `readNextAudioChunk` has returned -/
  | looping
  /-- `onAudioChunk` threw: the finally block of `readNextAudioChunk` is next -/
  | again
  /-- an exception leaves `readNextAudioChunk` -/
  | leaving
  deriving DecidableEq, Repr

inductive RecorderPlace where
  | created
  /-- `startRequiredAudioRecords` -/
  | starting
  | looping
  /-- `audioBufferPool.acquire()` -/
  | acquiring
  /-- `chunk.bytes()` -/
  | acquired (chunk : Nat)
  | reading (chunk : Nat)
  | sizing (chunk samples : Nat)
  /-- in `onAudioChunk`: the synchronized update of `sessionRecordedSamples` -/
  | counting (chunk : Nat)
  /-- `writer.append(chunk.bytes(), 0, chunk.sampleCount())` -/
  | saving (chunk : Nat)
  /-- the choice whether to submit -/
  | choosing (chunk : Nat)
  /-- entering the synchronized method `submit` -/
  | submitting (chunk : Nat)
  /-- in `submit`: the first `audioQueue.offer` -/
  | offering (chunk : Nat)
  /-- in `submit`: `audioQueue.poll` -/
  | evicting (chunk : Nat)
  /-- in `submit`: `old.close()`, both halves -/
  | closingOld (old chunk : Nat)
  | releasingOld (old chunk : Nat)
  /-- in `submit`: the second `audioQueue.offer` -/
  | retrying (chunk : Nat)
  /-- `chunk.close()` in a finally block, both halves -/
  | closing (chunk : Nat) (next : AfterClose)
  | releasing (chunk : Nat) (next : AfterClose)
  /-- `chunk.close()` on a chunk that `onAudioChunk` has closed already -/
  | closingAgain (chunk : Nat)
  /-- the finally block of `run` -/
  | finishing
  | ended
  deriving DecidableEq, Repr

namespace RecorderPlace

def owned : RecorderPlace → List Nat
  | .acquired chunk | .reading chunk | .sizing chunk _ | .counting chunk | .saving chunk
  | .choosing chunk | .submitting chunk | .offering chunk | .evicting chunk
  | .releasingOld _ chunk | .retrying chunk | .closing chunk _ => [chunk]
  | .closingOld old chunk => [old, chunk]
  | _ => []

/-- The chunk that the recorder has marked and not yet handed to the pool. -/
def returning : RecorderPlace → List Nat
  | .releasingOld old _ => [old]
  | .releasing chunk _ => [chunk]
  | _ => []

/-- The recorder holds the monitor of the inference worker. -/
def inSubmit : RecorderPlace → Bool
  | .offering _ | .evicting _ | .closingOld .. | .releasingOld .. | .retrying _ => true
  | _ => false

/-- The chunk whose `bytes`, `sampleCount` or `setSampleCount` is called next. -/
def uses : RecorderPlace → List Nat
  | .acquired chunk | .sizing chunk _ | .counting chunk | .saving chunk
  | .submitting chunk => [chunk]
  | _ => []

end RecorderPlace

def AfterClose.place (chunk : Nat) : AfterClose → RecorderPlace
  | .looping => .looping
  | .again => .closingAgain chunk
  | .leaving => .finishing

/-- What the inference thread does once its chunk is closed. -/
inductive AfterAppend where
  | windowing (drain : Bool)
  /-- `append` threw -/
  | catching
  /-- the loop of `closeQueuedAudio` -/
  | emptying
  deriving DecidableEq, Repr

inductive WorkerPlace where
  | unstarted
  /-- opening the model -/
  | opening
  | looping
  /-- `audioQueue.poll(200, MILLISECONDS)` -/
  | polling
  /-- `pendingAudio.append(chunk.bytes(), chunk.sampleCount())`, in `run` or in
  `drainQueuedAudio` -/
  | appending (chunk : Nat) (drain : Bool)
  /-- `chunk.close()`, both halves -/
  | closing (chunk : Nat) (next : AfterAppend)
  | releasing (chunk : Nat) (next : AfterAppend)
  /-- the inner loop over complete windows -/
  | windowing (drain : Bool)
  /-- `beginTerminationIfDrained` -/
  | checking
  /-- the loop of `drainQueuedAudio` -/
  | draining
  /-- the final window -/
  | finishing
  /-- `outputError` -/
  | catching
  /-- the finally block, before its synchronized part -/
  | leaving
  /-- in the synchronized part: the loop of `closeQueuedAudio` -/
  | emptying
  | ended
  deriving DecidableEq, Repr

def AfterAppend.place : AfterAppend → WorkerPlace
  | .windowing drain => .windowing drain
  | .catching => .catching
  | .emptying => .emptying

namespace WorkerPlace

def owned : WorkerPlace → List Nat
  | .appending chunk _ | .closing chunk _ => [chunk]
  | _ => []

def returning : WorkerPlace → List Nat
  | .releasing chunk _ => [chunk]
  | _ => []

/-- The inference thread is in the synchronized part of its finally block. -/
def inFinally : WorkerPlace → Bool
  | .emptying | .closing _ .emptying | .releasing _ .emptying => true
  | _ => false

/-- `workerThread` is null. -/
def finished : WorkerPlace → Bool
  | .unstarted | .ended => true
  | _ => false

def uses : WorkerPlace → List Nat
  | .appending chunk _ => [chunk]
  | _ => []

end WorkerPlace

/-- After a close the recorder holds nothing, in particular no monitor. -/
theorem AfterClose.place_empty (chunk : Nat) (next : AfterClose) :
    (next.place chunk).owned = [] ∧ (next.place chunk).returning = [] ∧
      (next.place chunk).inSubmit = false := by
  cases next <;> exact ⟨rfl, rfl, rfl⟩

theorem AfterAppend.place_empty (next : AfterAppend) :
    next.place.owned = [] ∧ next.place.returning = [] ∧ next.place.finished = false := by
  cases next <;> exact ⟨rfl, rfl, rfl⟩

theorem AfterAppend.place_inFinally {next : AfterAppend} (inside : next.place.inFinally = true) :
    next = .emptying := by
  cases next <;> first | rfl | cases inside

structure ChunkPipeline where
  audioSource : RecordingAudioSource
  pool : DirectPcm16BufferPool
  /-- `running` of the recorder -/
  recording : Bool
  recorder : RecorderPlace
  audioQueue : List Nat
  /-- the fields of the inference worker -/
  running : Bool
  acceptingAudio : Bool
  drainStopRequested : Bool
  terminating : Bool
  interrupted : Bool
  worker : WorkerPlace

/-- What the devices, the file and the service's fields answer to the recorder. -/
structure ReadAnswer where
  byteCount : Int
  playbackByteCount : Int
  /-- `audioFileWriter` is not null -/
  writer : Bool
  /-- `transcriptionWorker` is this worker and `inferenceAccepting` is set -/
  handOn : Bool

inductive PipelineLabel where
  | startRecorder
  | stopRecorder
  | startWorker
  | stopWorker
  | resumeWorker
  | interruptWorker
  | recorder (answer : ReadAnswer)
  /-- an exception at the place of the recorder -/
  | recorderThrows
  /-- one step of the inference thread; whether another window is complete -/
  | worker (more : Bool)
  | workerThrows

namespace ChunkPipeline

def new (audioSource : RecordingAudioSource) (sampleCapacity : Nat) : ChunkPipeline :=
  { audioSource
    pool := .new sampleCapacity 132
    recording := false
    recorder := .created
    audioQueue := []
    running := false
    acceptingAudio := false
    drainStopRequested := false
    terminating := false
    interrupted := false
    worker := .unstarted }

/-- `byteCount` after it was cut to whole samples and mixed; nothing when the
chunk is not used. -/
def outputBytes (audioSource : RecordingAudioSource) (answer : ReadAnswer) : Option Nat :=
  if answer.byteCount > 0 then
    let bytes := answer.byteCount - answer.byteCount % shortBytes
    if audioSource = .microphoneAndApp then
      if answer.playbackByteCount < 0 then none
      else some (min bytes (answer.playbackByteCount - answer.playbackByteCount % shortBytes)).toNat
    else some bytes.toNat
  else none

/-- One step of the recorder thread. A step that needs the monitor of the
inference worker waits while that thread holds it. -/
def recorderStep (pipeline : ChunkPipeline) (answer : ReadAnswer) : Option ChunkPipeline :=
  match pipeline.recorder with
  | .created | .ended => none
  | .starting => some { pipeline with recorder := .looping }
  | .looping =>
    some { pipeline with recorder := if pipeline.recording then .acquiring else .finishing }
  | .acquiring =>
    match pipeline.pool.acquire with
    | (some chunk, pool) => some { pipeline with pool, recorder := .acquired chunk }
    | (none, pool) => some { pipeline with pool, recorder := .finishing }
  | .acquired chunk =>
    some { pipeline with
      recorder := if pipeline.pool.released chunk then .closing chunk .leaving else .reading chunk }
  | .reading chunk =>
    match outputBytes pipeline.audioSource answer with
    | none => some { pipeline with recorder := .closing chunk .looping }
    | some bytes => some { pipeline with recorder := .sizing chunk (bytes / shortBytes) }
  | .sizing chunk samples =>
    match pipeline.pool.setSampleCount chunk samples with
    | none => some { pipeline with recorder := .closing chunk .leaving }
    | some pool => some { pipeline with pool, recorder := .counting chunk }
  | .counting chunk =>
    some { pipeline with
      recorder := if pipeline.pool.released chunk then .closing chunk .again else .saving chunk }
  | .saving chunk =>
    -- an IOException of the file is caught; the chunk goes on either way
    some { pipeline with
      recorder := if answer.writer && pipeline.pool.released chunk then .closing chunk .again
        else .choosing chunk }
  | .choosing chunk =>
    some { pipeline with
      recorder := if answer.handOn then .submitting chunk else .closing chunk .looping }
  | .submitting chunk =>
    if pipeline.worker.inFinally then none
    else if !pipeline.running || !pipeline.acceptingAudio then
      some { pipeline with recorder := .closing chunk .looping }
    else if pipeline.pool.released chunk then
      some { pipeline with recorder := .closing chunk .again }
    else if pipeline.pool.sampleCount chunk = 0 then
      some { pipeline with recorder := .closing chunk .looping }
    else some { pipeline with recorder := .offering chunk }
  | .offering chunk =>
    if pipeline.audioQueue.length < WhisperTranscriptionWorker.queueCapacity then
      some { pipeline with audioQueue := pipeline.audioQueue ++ [chunk], recorder := .looping }
    else some { pipeline with recorder := .evicting chunk }
  | .evicting chunk =>
    match pipeline.audioQueue with
    | [] => some { pipeline with recorder := .retrying chunk }
    | old :: rest => some { pipeline with audioQueue := rest, recorder := .closingOld old chunk }
  | .closingOld old chunk =>
    match pipeline.pool.markReleased old with
    | none => some { pipeline with recorder := .retrying chunk }
    | some pool => some { pipeline with pool, recorder := .releasingOld old chunk }
  | .releasingOld old chunk =>
    some { pipeline with pool := pipeline.pool.release old, recorder := .retrying chunk }
  | .retrying chunk =>
    if pipeline.audioQueue.length < WhisperTranscriptionWorker.queueCapacity then
      some { pipeline with audioQueue := pipeline.audioQueue ++ [chunk], recorder := .looping }
    else some { pipeline with recorder := .closing chunk .looping }
  | .closing chunk next =>
    match pipeline.pool.markReleased chunk with
    | none => some { pipeline with recorder := next.place chunk }
    | some pool => some { pipeline with pool, recorder := .releasing chunk next }
  | .releasing chunk next =>
    some { pipeline with pool := pipeline.pool.release chunk, recorder := next.place chunk }
  | .closingAgain chunk =>
    match pipeline.pool.markReleased chunk with
    | none => some { pipeline with recorder := .finishing }
    | some pool => some { pipeline with pool, recorder := .releasing chunk .leaving }
  | .finishing =>
    some { pipeline with pool := pipeline.pool.clear, recording := false, recorder := .ended }

/-- Where an exception takes the recorder from the places that can throw. -/
def recorderThrow (pipeline : ChunkPipeline) : Option ChunkPipeline :=
  match pipeline.recorder with
  | .starting | .acquiring => some { pipeline with recorder := .finishing }
  | .acquired chunk | .reading chunk | .sizing chunk _ =>
    some { pipeline with recorder := .closing chunk .leaving }
  | .counting chunk | .saving chunk | .choosing chunk =>
    some { pipeline with recorder := .closing chunk .again }
  | _ => none

/-- One step of the inference thread. A step that needs its monitor waits while
the recorder is in `submit`. -/
def workerStep (pipeline : ChunkPipeline) (more : Bool) : Option ChunkPipeline :=
  match pipeline.worker with
  | .unstarted | .ended => none
  | .opening => some { pipeline with worker := .looping }
  | .looping =>
    some { pipeline with
      worker := if pipeline.running && !pipeline.interrupted then .polling else .draining }
  | .polling =>
    -- the InterruptedException is caught without an error event
    if pipeline.interrupted then some { pipeline with worker := .leaving }
    else match pipeline.audioQueue with
      | [] => some { pipeline with worker := .checking }
      | chunk :: rest =>
        some { pipeline with audioQueue := rest, worker := .appending chunk false }
  | .appending chunk drain =>
    some { pipeline with
      worker := .closing chunk
        (if pipeline.pool.released chunk then .catching else .windowing drain) }
  | .closing chunk next =>
    match pipeline.pool.markReleased chunk with
    | none => some { pipeline with worker := next.place }
    | some pool => some { pipeline with pool, worker := .releasing chunk next }
  | .releasing chunk next =>
    some { pipeline with pool := pipeline.pool.release chunk, worker := next.place }
  | .windowing drain =>
    some { pipeline with
      worker := if more && !pipeline.interrupted then .windowing drain
        else if drain then .draining else .checking }
  | .checking =>
    if pipeline.recorder.inSubmit then none
    else if !pipeline.drainStopRequested || !pipeline.audioQueue.isEmpty then
      some { pipeline with worker := .looping }
    else some { pipeline with acceptingAudio := false, terminating := true, worker := .draining }
  | .draining =>
    match pipeline.audioQueue with
    | [] => some { pipeline with worker := .finishing }
    | chunk :: rest =>
      some { pipeline with audioQueue := rest, worker := .appending chunk true }
  | .finishing | .catching => some { pipeline with worker := .leaving }
  | .leaving =>
    if pipeline.recorder.inSubmit then none
    else some { pipeline with
      running := false
      acceptingAudio := false
      drainStopRequested := false
      terminating := true
      worker := .emptying }
  | .emptying =>
    match pipeline.audioQueue with
    | [] => some { pipeline with worker := .ended }
    | chunk :: rest =>
      some { pipeline with audioQueue := rest, worker := .closing chunk .emptying }

/-- Where an exception takes the inference thread. -/
def workerThrow (pipeline : ChunkPipeline) : Option ChunkPipeline :=
  match pipeline.worker with
  | .opening | .windowing _ | .finishing => some { pipeline with worker := .catching }
  | .appending chunk _ => some { pipeline with worker := .closing chunk .catching }
  | .catching => some { pipeline with worker := .leaving }
  | _ => none

/-- Nobody holds the monitor of the inference worker. -/
def unlocked (pipeline : ChunkPipeline) : Bool :=
  !pipeline.recorder.inSubmit && !pipeline.worker.inFinally

def step (pipeline : ChunkPipeline) : PipelineLabel → Option ChunkPipeline
  | .startRecorder =>
    if pipeline.recorder = .created then
      some { pipeline with recording := true, recorder := .starting }
    else none
  | .stopRecorder => some { pipeline with recording := false }
  | .startWorker =>
    if pipeline.worker = .unstarted then
      some { pipeline with
        running := true
        acceptingAudio := true
        drainStopRequested := false
        terminating := false
        worker := .opening }
    else none
  | .stopWorker =>
    if pipeline.unlocked then
      some { pipeline with acceptingAudio := false, drainStopRequested := true }
    else none
  | .resumeWorker =>
    if !pipeline.unlocked then none
    else if !pipeline.running || pipeline.worker.finished || pipeline.terminating then some pipeline
    else some { pipeline with drainStopRequested := false, acceptingAudio := true }
  | .interruptWorker => some { pipeline with interrupted := true }
  | .recorder answer => pipeline.recorderStep answer
  | .recorderThrows => pipeline.recorderThrow
  | .worker more => pipeline.workerStep more
  | .workerThrows => pipeline.workerThrow

end ChunkPipeline

end LocalWhisper.Record
