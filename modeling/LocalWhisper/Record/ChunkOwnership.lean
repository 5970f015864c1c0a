import LocalWhisper.Machine.Run
import LocalWhisper.Record.ChunkPipeline

/-! Who owns a PCM chunk. Over every interleaving a chunk is with the recorder,
in the queue, with the inference thread or in the free list, until the pool
drops its cached chunks at the end of the recorder. -/

namespace LocalWhisper.Record

open LocalWhisper.Machine LocalWhisper.Record.Buffer LocalWhisper.Transcription
open DirectPcm16BufferPool

namespace ChunkPipeline

variable {before after : ChunkPipeline}

/-- The chunks that are not released, and those on the way into the pool. -/
structure ChunksOwned (pipeline : ChunkPipeline) : Prop where
  custody : InCustody pipeline.pool
    (pipeline.recorder.owned ++ pipeline.audioQueue ++ pipeline.worker.owned)
    (pipeline.recorder.returning ++ pipeline.worker.returning)
  again : ∀ chunk, pipeline.recorder = .closingAgain chunk →
    pipeline.pool.released chunk = true

section Custody

/-- A step that leaves the pool alone only passes chunks on. -/
theorem ChunksOwned.pass (owned : ChunksOwned before) (pool : after.pool = before.pool)
    (use : (before.recorder.owned ++ before.audioQueue ++ before.worker.owned).Perm
      (after.recorder.owned ++ after.audioQueue ++ after.worker.owned))
    (way : before.recorder.returning ++ before.worker.returning =
      after.recorder.returning ++ after.worker.returning)
    (again : ∀ chunk, after.recorder = .closingAgain chunk →
      before.recorder = .closingAgain chunk ∨ before.pool.released chunk = true) :
    ChunksOwned after := by
  refine ⟨?_, fun chunk here => ?_⟩
  · rw [pool]
    exact owned.custody.rearrange use (.of_eq way)
  · rw [pool]
    exact (again chunk here).elim (owned.again chunk) id

/-- The recorder goes on with the chunks it has. -/
theorem ChunksOwned.moveRecorder {here next : RecorderPlace} (owned : ChunksOwned before)
    (place : before.recorder = here) (use : next.owned = here.owned)
    (way : next.returning = here.returning) (first : ∀ chunk, next ≠ .closingAgain chunk) :
    ChunksOwned { before with recorder := next } := by
  refine owned.pass rfl ?_ ?_ fun chunk again => absurd again (first chunk)
  · rw [place, ← use]
  · rw [place, ← way]

/-- The inference thread goes on with the chunk it has, or without one. -/
theorem ChunksOwned.moveWorker {here next : WorkerPlace} (owned : ChunksOwned before)
    (place : before.worker = here) (use : next.owned = here.owned)
    (way : next.returning = here.returning) : ChunksOwned { before with worker := next } := by
  refine owned.pass rfl ?_ ?_ fun chunk again => .inl again
  · rw [place, ← use]
  · rw [place, ← way]

private theorem recorderStep_owned {answer : ReadAnswer} (owned : ChunksOwned before)
    (taken : before.recorderStep answer = some after) : ChunksOwned after := by
  have custody := owned.custody
  cases place : before.recorder <;> simp only [recorderStep, place] at taken
  case created | ended => cases taken
  case starting =>
    cases taken
    exact owned.moveRecorder place rfl rfl nofun
  case looping | reading =>
    split at taken <;> cases taken <;> exact owned.moveRecorder place rfl rfl nofun
  case acquired | counting | saving | choosing =>
    split at taken <;> cases taken <;> exact owned.moveRecorder place rfl rfl nofun
  case acquiring =>
    rw [place] at custody
    obtain ⟨chunk, given, next⟩ := custody.acquire
    split at taken <;> rename_i result
    · cases taken
      rw [result] at given next
      cases given
      exact ⟨next, nofun⟩
    · rw [result] at given
      cases given
  case sizing chunk samples =>
    rw [place] at custody
    split at taken <;> cases taken
    · exact owned.moveRecorder place rfl rfl nofun
    · rename_i pool sized
      exact ⟨custody.setSampleCount (by simp [RecorderPlace.owned]) sized, nofun⟩
  case submitting chunk =>
    split at taken
    · cases taken
    · split at taken
      · cases taken
        exact owned.moveRecorder place rfl rfl nofun
      · split at taken
        · cases taken
          exact owned.moveRecorder place rfl rfl nofun
        · split at taken <;> cases taken <;> exact owned.moveRecorder place rfl rfl nofun
  case offering chunk | retrying chunk =>
    split at taken <;> cases taken
    · refine owned.pass rfl ?_ (by rw [place]; rfl) nofun
      rw [place, List.perm_iff_count]
      intro item
      simp only [RecorderPlace.owned, List.count_append, List.count_cons, List.count_nil]
      omega
    · exact owned.moveRecorder place rfl rfl nofun
  case evicting chunk =>
    split at taken <;> cases taken
    · exact owned.moveRecorder place rfl rfl nofun
    · rename_i old rest queue
      refine owned.pass rfl ?_ (by rw [place]; rfl) nofun
      rw [place, queue, List.perm_iff_count]
      intro item
      simp only [RecorderPlace.owned, List.count_append, List.count_cons, List.count_nil]
      omega
  case closingOld old chunk =>
    rw [place] at custody
    obtain ⟨pool, marked, next⟩ := InCustody.markReleased custody
    rw [marked] at taken
    cases taken
    exact ⟨next, nofun⟩
  case releasingOld old chunk =>
    rw [place] at custody
    cases taken
    exact ⟨InCustody.release custody, nofun⟩
  case closing chunk next =>
    rw [place] at custody
    obtain ⟨pool, marked, handed⟩ := InCustody.markReleased custody
    rw [marked] at taken
    cases taken
    exact ⟨handed, nofun⟩
  case releasing chunk next =>
    rw [place] at custody
    cases taken
    obtain ⟨use, way, _⟩ := next.place_empty chunk
    refine ⟨?_, fun other here => ?_⟩
    · simp only [use, way]
      exact InCustody.release custody
    · have same : other = chunk := by
        cases next <;> cases here
        rfl
      rw [same, release_released]
      exact custody.closed (by simp [RecorderPlace.returning])
  case closingAgain chunk =>
    have marked : before.pool.markReleased chunk = none := if_pos (owned.again chunk place)
    rw [marked] at taken
    cases taken
    exact owned.moveRecorder place rfl rfl nofun
  case finishing =>
    rw [place] at custody
    cases taken
    exact ⟨custody.clear, nofun⟩

private theorem recorderThrow_owned (owned : ChunksOwned before)
    (taken : before.recorderThrow = some after) : ChunksOwned after := by
  cases place : before.recorder <;> simp only [recorderThrow, place] at taken
  case starting | acquiring | acquired | reading | sizing | counting | saving | choosing =>
    cases taken
    exact owned.moveRecorder place rfl rfl nofun
  all_goals cases taken

theorem ChunksOwned.poll {chunk : Nat} {rest : List Nat} {next : WorkerPlace}
    (owned : ChunksOwned before) (queue : before.audioQueue = chunk :: rest)
    (free : before.worker.owned = [] ∧ before.worker.returning = [])
    (use : next.owned = [chunk]) (way : next.returning = []) :
    ChunksOwned { before with audioQueue := rest, worker := next } := by
  refine owned.pass rfl ?_ ?_ fun other again => .inl again
  · rw [queue, free.1, use, List.perm_iff_count]
    intro item
    simp only [List.count_append, List.count_cons, List.count_nil]
    omega
  · rw [free.2, way]

private theorem workerStep_owned {more : Bool} (owned : ChunksOwned before)
    (taken : before.workerStep more = some after) : ChunksOwned after := by
  have custody := owned.custody
  cases place : before.worker <;> simp only [workerStep, place] at taken
  case unstarted | ended => cases taken
  case opening | finishing | catching | appending =>
    cases taken
    exact owned.moveWorker place rfl rfl
  case looping =>
    split at taken <;> cases taken <;> exact owned.moveWorker place rfl rfl
  case windowing drain =>
    cases taken
    refine owned.moveWorker place ?_ ?_
    all_goals
      split
      · rfl
      · split <;> rfl
  case polling =>
    split at taken
    · cases taken
      exact owned.moveWorker place rfl rfl
    · split at taken <;> cases taken
      · exact owned.moveWorker place rfl rfl
      · rename_i chunk rest queue
        exact owned.poll queue (by rw [place]; exact ⟨rfl, rfl⟩) rfl rfl
  case draining | emptying =>
    split at taken <;> cases taken
    · exact owned.moveWorker place rfl rfl
    · rename_i chunk rest queue
      exact owned.poll queue (by rw [place]; exact ⟨rfl, rfl⟩) rfl rfl
  case closing chunk next =>
    rw [place] at custody
    have mine : InCustody before.pool (chunk :: (before.recorder.owned ++ before.audioQueue))
        before.recorder.returning := by
      refine custody.rearrange ?_ (by simp [WorkerPlace.returning])
      rw [List.perm_iff_count]
      intro item
      simp only [WorkerPlace.owned, List.count_append, List.count_cons, List.count_nil]
      omega
    obtain ⟨pool, marked, handed⟩ := mine.markReleased
    rw [marked] at taken
    cases taken
    refine ⟨handed.rearrange ?_ ?_, fun other again => ?_⟩
    · simp [WorkerPlace.owned]
    · exact (List.perm_append_singleton chunk _).symm
    · exact markReleased_released marked (owned.again other again)
  case releasing chunk next =>
    rw [place] at custody
    cases taken
    obtain ⟨use, way, _⟩ := next.place_empty
    have mine : InCustody before.pool (before.recorder.owned ++ before.audioQueue)
        (chunk :: before.recorder.returning) :=
      custody.rearrange (by simp [WorkerPlace.owned]) (List.perm_append_singleton chunk _)
    refine ⟨?_, fun other again => ?_⟩
    · simp only [use, way, List.append_nil]
      exact mine.release
    · rw [release_released]
      exact owned.again other again
  case checking =>
    split at taken
    · cases taken
    · split at taken <;> cases taken
      · exact owned.moveWorker place rfl rfl
      · refine owned.pass rfl ?_ ?_ fun chunk again => .inl again
        · rw [place]
          exact .refl _
        · rw [place]
          rfl
  case leaving =>
    split at taken <;> cases taken
    refine owned.pass rfl ?_ ?_ fun chunk again => .inl again
    · rw [place]
      exact .refl _
    · rw [place]
      rfl

private theorem workerThrow_owned (owned : ChunksOwned before)
    (taken : before.workerThrow = some after) : ChunksOwned after := by
  cases place : before.worker <;> simp only [workerThrow, place] at taken
  case opening | windowing | finishing | appending | catching =>
    cases taken
    exact owned.moveWorker place rfl rfl
  all_goals cases taken

private theorem step_owned {label : PipelineLabel} (owned : ChunksOwned before)
    (taken : step before label = some after) : ChunksOwned after := by
  have flags (same : after.pool = before.pool ∧ after.recorder = before.recorder ∧
      after.audioQueue = before.audioQueue ∧ after.worker = before.worker) :
      ChunksOwned after := by
    obtain ⟨pool, recorder, queue, worker⟩ := same
    exact owned.pass pool (by rw [recorder, queue, worker]) (by rw [recorder, worker])
      fun chunk again => .inl (recorder.symm.trans again)
  cases label with
  | startRecorder =>
    simp only [step] at taken
    split at taken <;> cases taken
    rename_i place
    refine owned.pass rfl ?_ ?_ nofun
    · rw [place]
      exact .refl _
    · rw [place]
      rfl
  | stopRecorder | interruptWorker =>
    cases taken
    exact flags ⟨rfl, rfl, rfl, rfl⟩
  | startWorker =>
    simp only [step] at taken
    split at taken <;> cases taken
    rename_i place
    refine owned.pass rfl ?_ ?_ fun chunk again => .inl again
    · rw [place]
      exact .refl _
    · rw [place]
      rfl
  | stopWorker =>
    simp only [step] at taken
    split at taken <;> cases taken
    exact flags ⟨rfl, rfl, rfl, rfl⟩
  | resumeWorker =>
    simp only [step] at taken
    split at taken
    · cases taken
    · split at taken <;> cases taken <;> exact flags ⟨rfl, rfl, rfl, rfl⟩
  | recorder answer => exact recorderStep_owned owned taken
  | recorderThrows => exact recorderThrow_owned owned taken
  | worker more => exact workerStep_owned owned taken
  | workerThrows => exact workerThrow_owned owned taken

end Custody

/-- The monitor keeps `submit` and the end of the inference thread apart, so
nothing enters the queue once that thread has emptied it. -/
structure Guarded (pipeline : ChunkPipeline) : Prop where
  submits : pipeline.recorder.inSubmit = true → pipeline.running = true
  cleared : pipeline.worker.inFinally = true ∨ pipeline.worker.finished = true →
    pipeline.running = false
  drained : pipeline.worker.finished = true → pipeline.audioQueue = []

section Monitor

/-- The recorder leaves the flags alone, and puts chunks into the queue only
inside `submit`. -/
theorem Guarded.moveRecorder {pool : DirectPcm16BufferPool} {recording : Bool}
    {next : RecorderPlace} {queue : List Nat} (guarded : Guarded before)
    (submits : next.inSubmit = true → before.running = true)
    (drained : before.running = true ∨ (before.audioQueue = [] → queue = [])) :
    Guarded { before with pool, recording, recorder := next, audioQueue := queue } := by
  refine ⟨submits, guarded.cleared, fun finished => ?_⟩
  rcases drained with running | empty
  · exact Bool.noConfusion ((guarded.cleared (.inr finished)).symm.trans running)
  · exact empty (guarded.drained finished)

private theorem recorderStep_guarded {answer : ReadAnswer} (guarded : Guarded before)
    (taken : before.recorderStep answer = some after) : Guarded after := by
  have idle {next : RecorderPlace} {pool : DirectPcm16BufferPool} {recording : Bool}
      (out : next.inSubmit = false) :
      Guarded { before with pool, recording, recorder := next } :=
    guarded.moveRecorder (fun inside => Bool.noConfusion (out.symm.trans inside)) (.inr id)
  cases place : before.recorder <;> simp only [recorderStep, place] at taken
  case created | ended => cases taken
  case starting | finishing =>
    cases taken
    exact idle rfl
  case looping | acquired | reading | counting | saving | choosing | acquiring | sizing =>
    split at taken <;> cases taken <;> exact idle rfl
  case closing chunk next =>
    split at taken <;> cases taken
    · exact idle ((next.place_empty chunk).2.2)
    · exact idle rfl
  case releasing chunk next =>
    cases taken
    exact idle ((next.place_empty chunk).2.2)
  case closingAgain =>
    split at taken <;> cases taken <;> exact idle rfl
  case submitting chunk =>
    split at taken
    · cases taken
    · split at taken
      · cases taken
        exact idle rfl
      · rename_i accepted
        have running : before.running = true := by
          simp only [Bool.or_eq_true, Bool.not_eq_true', not_or, Bool.not_eq_false] at accepted
          exact accepted.1
        split at taken
        · cases taken
          exact idle rfl
        · split at taken <;> cases taken
          · exact idle rfl
          · exact guarded.moveRecorder (fun _ => running) (.inr id)
  all_goals
    have running : before.running = true := guarded.submits (by rw [place]; rfl)
  case offering chunk | retrying chunk =>
    split at taken <;> cases taken <;>
      exact guarded.moveRecorder (fun _ => running) (.inl running)
  case evicting chunk =>
    split at taken <;> cases taken <;>
      exact guarded.moveRecorder (fun _ => running) (.inl running)
  case closingOld old chunk =>
    split at taken <;> cases taken <;>
      exact guarded.moveRecorder (fun _ => running) (.inl running)
  case releasingOld old chunk =>
    cases taken
    exact guarded.moveRecorder (fun _ => running) (.inl running)

theorem Guarded.moveWorker {pool : DirectPcm16BufferPool} {acceptingAudio terminating : Bool}
    {next : WorkerPlace} {queue : List Nat} (guarded : Guarded before)
    (cleared : next.inFinally = true → before.worker.inFinally = true)
    (finished : next.finished = false) :
    Guarded { before with
      pool, acceptingAudio, terminating, audioQueue := queue, worker := next } := by
  refine ⟨guarded.submits, ?_, fun ended => Bool.noConfusion (finished.symm.trans ended)⟩
  rintro (inside | ended)
  · exact guarded.cleared (.inl (cleared inside))
  · exact Bool.noConfusion (finished.symm.trans ended)

private theorem workerStep_guarded {more : Bool} (guarded : Guarded before)
    (taken : before.workerStep more = some after) : Guarded after := by
  cases place : before.worker <;> simp only [workerStep, place] at taken
  case unstarted | ended => cases taken
  case opening | finishing | catching =>
    cases taken
    exact guarded.moveWorker nofun rfl
  case appending chunk drain =>
    cases taken
    refine guarded.moveWorker ?_ rfl
    split <;> exact nofun
  case looping | draining =>
    split at taken <;> cases taken <;> exact guarded.moveWorker nofun rfl
  case windowing drain =>
    cases taken
    refine guarded.moveWorker ?_ ?_
    all_goals
      split
      · simp [WorkerPlace.inFinally, WorkerPlace.finished]
      · split <;> simp [WorkerPlace.inFinally, WorkerPlace.finished]
  case polling =>
    split at taken
    · cases taken
      exact guarded.moveWorker nofun rfl
    · split at taken <;> cases taken <;> exact guarded.moveWorker nofun rfl
  case closing chunk next =>
    have kept : next.place.inFinally = true → before.worker.inFinally = true := by
      intro inside
      rw [place, next.place_inFinally inside]
      rfl
    split at taken <;> cases taken
    · exact guarded.moveWorker kept next.place_empty.2.2
    · refine guarded.moveWorker ?_ rfl
      rw [place]
      cases next <;> exact id
  case releasing chunk next =>
    cases taken
    refine guarded.moveWorker ?_ next.place_empty.2.2
    intro inside
    rw [place, next.place_inFinally inside]
    rfl
  case checking =>
    split at taken
    · cases taken
    · split at taken <;> cases taken <;> exact guarded.moveWorker nofun rfl
  case leaving =>
    split at taken <;> cases taken
    rename_i outside
    exact ⟨fun inside => absurd inside outside, fun _ => rfl, nofun⟩
  case emptying =>
    have stopped := guarded.cleared (.inl (by rw [place]; rfl))
    split at taken <;> cases taken
    · rename_i queue
      exact ⟨guarded.submits, fun _ => stopped, fun _ => queue⟩
    · refine guarded.moveWorker ?_ rfl
      rw [place]
      exact id

private theorem step_guarded {label : PipelineLabel} (guarded : Guarded before)
    (taken : step before label = some after) : Guarded after := by
  cases label with
  | startRecorder =>
    simp only [step] at taken
    split at taken <;> cases taken
    exact guarded.moveRecorder nofun (.inr id)
  | stopRecorder | interruptWorker =>
    cases taken
    exact ⟨guarded.submits, guarded.cleared, guarded.drained⟩
  | startWorker =>
    simp only [step] at taken
    split at taken <;> cases taken
    refine ⟨fun _ => rfl, ?_, nofun⟩
    rintro (inside | ended)
    · cases inside
    · cases ended
  | stopWorker =>
    simp only [step] at taken
    split at taken <;> cases taken
    exact ⟨guarded.submits, guarded.cleared, guarded.drained⟩
  | resumeWorker =>
    simp only [step] at taken
    split at taken
    · cases taken
    · split at taken <;> cases taken
      · exact guarded
      · exact ⟨guarded.submits, guarded.cleared, guarded.drained⟩
  | recorder answer => exact recorderStep_guarded guarded taken
  | recorderThrows =>
    simp only [step] at taken
    cases place : before.recorder <;> simp only [recorderThrow, place] at taken
    case starting | acquiring | acquired | reading | sizing | counting | saving | choosing =>
      cases taken
      exact guarded.moveRecorder nofun (.inr id)
    all_goals cases taken
  | worker more => exact workerStep_guarded guarded taken
  | workerThrows =>
    simp only [step] at taken
    cases place : before.worker <;> simp only [workerThrow, place] at taken
    case opening | windowing | finishing | appending | catching =>
      cases taken
      exact guarded.moveWorker nofun rfl
    all_goals cases taken

end Monitor

def total (pipeline : ChunkPipeline) : Nat :=
  (pipeline.recorder.owned.length + pipeline.recorder.returning.length) +
    pipeline.audioQueue.length +
    (pipeline.worker.owned.length + pipeline.worker.returning.length) +
    pipeline.pool.freeBuffers.length

/-- The pool has room for every chunk there is, so it drops none before the
recorder ends. -/
structure WithinBounds (pipeline : ChunkPipeline) : Prop where
  room : pipeline.audioQueue.length ≤ WhisperTranscriptionWorker.queueCapacity
  few : pipeline.total ≤ 130
  capacity : pipeline.pool.maxCachedBuffers = 132
  kept : pipeline.recorder ≠ .ended → pipeline.pool.dropped = []

section Bounds

theorem WorkerPlace.holds_one (place : WorkerPlace) :
    place.owned.length + place.returning.length ≤ 1 := by
  cases place <;> simp [WorkerPlace.owned, WorkerPlace.returning]

/-- No step before the end drops a chunk, and none but `acquire` adds one. -/
theorem WithinBounds.next (bounds : WithinBounds before)
    (room : after.audioQueue.length ≤ before.audioQueue.length ∨
      after.audioQueue.length ≤ WhisperTranscriptionWorker.queueCapacity)
    (few : after.total ≤ before.total ∨ after.total ≤ 130)
    (capacity : after.pool.maxCachedBuffers = before.pool.maxCachedBuffers)
    (kept : after.pool.dropped = before.pool.dropped ∨ after.recorder = .ended)
    (finished : before.recorder = .ended → after.recorder = .ended) : WithinBounds after := by
  refine ⟨room.elim (·.trans bounds.room) id, few.elim (·.trans bounds.few) id,
    capacity.trans bounds.capacity, fun going => ?_⟩
  rcases kept with same | ended
  · rw [same]
    exact bounds.kept fun ended => going (finished ended)
  · exact absurd ended going

/-- A step of a recorder that has not ended. -/
theorem WithinBounds.recorder {here : RecorderPlace} (bounds : WithinBounds before)
    (place : before.recorder = here) (going : here ≠ .ended)
    (room : after.audioQueue.length ≤ before.audioQueue.length ∨
      after.audioQueue.length ≤ WhisperTranscriptionWorker.queueCapacity)
    (few : after.total ≤ before.total ∨ after.total ≤ 130)
    (capacity : after.pool.maxCachedBuffers = before.pool.maxCachedBuffers)
    (kept : after.pool.dropped = before.pool.dropped) : WithinBounds after :=
  bounds.next room few capacity (.inl kept) fun ended => absurd (place.symm.trans ended) going

theorem WithinBounds.release_cached (bounds : WithinBounds before) (chunk : Nat) :
    (before.pool.release chunk).freeBuffers = chunk :: before.pool.freeBuffers ∧
      (before.pool.release chunk).dropped = before.pool.dropped ∧
      (before.pool.release chunk).maxCachedBuffers = before.pool.maxCachedBuffers := by
  apply DirectPcm16BufferPool.release_cached
  have few := bounds.few
  unfold total at few
  rw [bounds.capacity]
  omega

/-- A recorder that asks for a chunk has room for it: one comes out of the pool, or the
pool is empty. -/
theorem WithinBounds.acquire_room (bounds : WithinBounds before)
    (place : before.recorder = .acquiring) :
    before.audioQueue.length + (before.worker.owned.length + before.worker.returning.length) +
      before.pool.acquire.2.freeBuffers.length + 1 ≤ 130 := by
  obtain ⟨cached, -⟩ := before.pool.acquire_frame
  have room := bounds.room
  have few := bounds.few
  have one := WorkerPlace.holds_one before.worker
  simp only [total, place, RecorderPlace.owned, RecorderPlace.returning, List.length_nil] at few
  unfold WhisperTranscriptionWorker.queueCapacity at room
  rcases cached with fewer | ⟨_, empty⟩
  · omega
  · rw [empty]
    simp only [List.length_nil]
    omega

private theorem recorderStep_bounds {answer : ReadAnswer} (bounds : WithinBounds before)
    (owned : ChunksOwned before) (taken : before.recorderStep answer = some after) :
    WithinBounds after := by
  have moved {here next : RecorderPlace} (place : before.recorder = here) (going : here ≠ .ended)
      (fewer : next.owned.length + next.returning.length ≤
        here.owned.length + here.returning.length) :
      WithinBounds { before with recorder := next } := by
    refine bounds.recorder place going (.inl (Nat.le_refl _)) (.inl ?_) rfl rfl
    unfold total
    simp only [place]
    omega
  cases place : before.recorder <;> simp only [recorderStep, place] at taken
  case created | ended => cases taken
  case starting =>
    cases taken
    exact moved place nofun (Nat.le_refl _)
  case looping | reading | acquired | counting | saving | choosing =>
    split at taken <;> cases taken <;>
      exact moved place nofun (Nat.le_refl _)
  case submitting chunk =>
    split at taken
    · cases taken
    · split at taken
      · cases taken
        exact moved place nofun (Nat.le_refl _)
      · split at taken
        · cases taken
          exact moved place nofun (Nat.le_refl _)
        · split at taken <;> cases taken <;>
            exact moved place nofun (Nat.le_refl _)
  case acquiring =>
    obtain ⟨_, dropped, capacity⟩ := before.pool.acquire_frame
    have within := bounds.acquire_room place
    split at taken <;> rename_i result <;> cases taken <;>
      rw [result] at within dropped capacity <;> simp only at within <;>
      refine bounds.recorder place nofun (.inl (Nat.le_refl _)) (.inr ?_) capacity dropped
    all_goals
      simp only [total, RecorderPlace.owned, RecorderPlace.returning, List.length_cons,
        List.length_nil]
      omega
  case sizing chunk samples =>
    split at taken <;> cases taken
    · exact moved place nofun (Nat.le_refl _)
    · rename_i pool sized
      obtain ⟨free, dropped, capacity⟩ := setSampleCount_frame sized
      refine bounds.recorder place nofun (.inl (Nat.le_refl _)) (.inl ?_) capacity dropped
      simp only [total, place, free]
      exact Nat.le_refl _
  case offering chunk | retrying chunk =>
    split at taken <;> cases taken
    · rename_i room
      refine bounds.recorder place nofun (.inr ?_) (.inl ?_) rfl rfl
      · simp only [List.length_append, List.length_cons, List.length_nil]
        omega
      · simp only [total, place, RecorderPlace.owned, RecorderPlace.returning,
          List.length_append, List.length_cons, List.length_nil]
        omega
    · exact moved place nofun (Nat.le_refl _)
  case evicting chunk =>
    split at taken <;> cases taken
    · exact moved place nofun (Nat.le_refl _)
    · rename_i old rest queue
      refine bounds.recorder place nofun (.inl ?_) (.inl ?_) rfl rfl
      · simp [queue]
      · simp only [total, place, queue, RecorderPlace.owned, RecorderPlace.returning,
          List.length_cons, List.length_nil]
        omega
  case closingOld old chunk =>
    split at taken <;> cases taken
    · exact moved place nofun (by simp [RecorderPlace.owned, RecorderPlace.returning])
    · rename_i pool marked
      obtain ⟨free, dropped, capacity⟩ := markReleased_frame marked
      refine bounds.recorder place nofun (.inl (Nat.le_refl _)) (.inl ?_) capacity dropped
      simp only [total, place, free, RecorderPlace.owned, RecorderPlace.returning,
        List.length_cons, List.length_nil]
      omega
  case closing chunk next =>
    obtain ⟨use, way, _⟩ := next.place_empty chunk
    split at taken <;> cases taken
    · exact moved place nofun (by simp [use, way])
    · rename_i pool marked
      obtain ⟨free, dropped, capacity⟩ := markReleased_frame marked
      refine bounds.recorder place nofun (.inl (Nat.le_refl _)) (.inl ?_) capacity dropped
      simp only [total, place, free, RecorderPlace.owned, RecorderPlace.returning,
        List.length_cons, List.length_nil]
      omega
  case releasingOld old chunk =>
    cases taken
    obtain ⟨free, dropped, capacity⟩ := bounds.release_cached old
    refine bounds.recorder place nofun (.inl (Nat.le_refl _)) (.inl ?_) capacity dropped
    simp only [total, place, free, RecorderPlace.owned, RecorderPlace.returning,
      List.length_cons, List.length_nil]
    omega
  case releasing chunk next =>
    cases taken
    obtain ⟨use, way, _⟩ := next.place_empty chunk
    obtain ⟨free, dropped, capacity⟩ := bounds.release_cached chunk
    refine bounds.recorder place nofun (.inl (Nat.le_refl _)) (.inl ?_) capacity dropped
    unfold total
    simp only [use, way, free]
    simp only [place, RecorderPlace.owned, RecorderPlace.returning, List.length_cons,
      List.length_nil]
    omega
  case closingAgain chunk =>
    have marked : before.pool.markReleased chunk = none := if_pos (owned.again chunk place)
    rw [marked] at taken
    cases taken
    exact moved place nofun (Nat.le_refl _)
  case finishing =>
    cases taken
    refine bounds.next (.inl (Nat.le_refl _)) (.inl ?_) rfl (.inr rfl) fun _ => rfl
    simp only [total, place, DirectPcm16BufferPool.clear, RecorderPlace.owned,
      RecorderPlace.returning, List.length_nil]
    omega

/-- An exception takes nothing from the recorder. -/
theorem recorderThrow_bounds (bounds : WithinBounds before)
    (taken : before.recorderThrow = some after) : WithinBounds after := by
  cases place : before.recorder <;> simp only [recorderThrow, place] at taken
  case starting | acquiring | acquired | reading | sizing | counting | saving | choosing =>
    cases taken
    refine bounds.recorder place nofun (.inl (Nat.le_refl _)) (.inl ?_) rfl rfl
    simp only [total, place]
    exact Nat.le_refl _
  all_goals cases taken

private theorem workerStep_bounds {more : Bool} (bounds : WithinBounds before)
    (taken : before.workerStep more = some after) : WithinBounds after := by
  have moved {here next : WorkerPlace} {running accepting draining terminating : Bool}
      (place : before.worker = here)
      (fewer : next.owned.length + next.returning.length ≤
        here.owned.length + here.returning.length) :
      WithinBounds { before with
        worker := next
        running := running
        acceptingAudio := accepting
        drainStopRequested := draining
        terminating := terminating } := by
    refine bounds.next (.inl (Nat.le_refl _)) (.inl ?_) rfl (.inl rfl) id
    unfold total
    simp only [place]
    omega
  have polled {next : WorkerPlace} {chunk : Nat} {rest : List Nat}
      (queue : before.audioQueue = chunk :: rest)
      (one : next.owned.length + next.returning.length = 1) :
      WithinBounds { before with audioQueue := rest, worker := next } := by
    refine bounds.next (.inl ?_) (.inl ?_) rfl (.inl rfl) id
    · simp [queue]
    · unfold total
      simp only [queue, List.length_cons]
      omega
  cases place : before.worker <;> simp only [workerStep, place] at taken
  case unstarted | ended => cases taken
  case opening | finishing | catching | appending =>
    cases taken
    exact moved place (Nat.le_refl _)
  case looping =>
    split at taken <;> cases taken <;> exact moved place (Nat.le_refl _)
  case windowing drain =>
    cases taken
    refine moved place ?_
    split
    · exact Nat.zero_le _
    · split <;> exact Nat.zero_le _
  case polling =>
    split at taken
    · cases taken
      exact moved place (Nat.zero_le _)
    · split at taken <;> cases taken
      · exact moved place (Nat.zero_le _)
      · rename_i queue
        exact polled queue rfl
  case draining | emptying =>
    split at taken <;> cases taken
    · exact moved place (Nat.zero_le _)
    · rename_i queue
      exact polled queue rfl
  case closing chunk next =>
    obtain ⟨use, way, _⟩ := next.place_empty
    split at taken <;> cases taken
    · exact moved place (by simp [use, way])
    · rename_i pool marked
      obtain ⟨free, dropped, capacity⟩ := markReleased_frame marked
      refine bounds.next (.inl (Nat.le_refl _)) (.inl ?_) capacity (.inl dropped) id
      unfold total
      simp only [place, free]
      exact Nat.le_refl _
  case releasing chunk next =>
    cases taken
    obtain ⟨use, way, _⟩ := next.place_empty
    obtain ⟨free, dropped, capacity⟩ := bounds.release_cached chunk
    refine bounds.next (.inl (Nat.le_refl _)) (.inl ?_) capacity (.inl dropped) id
    unfold total
    simp only [use, way, free]
    simp only [place, WorkerPlace.owned, WorkerPlace.returning, List.length_cons,
      List.length_nil]
    omega
  case checking =>
    split at taken
    · cases taken
    · split at taken <;> cases taken <;> exact moved place (Nat.zero_le _)
  case leaving =>
    split at taken <;> cases taken
    exact moved place (Nat.zero_le _)

/-- An exception takes nothing from the inference thread. -/
theorem workerThrow_bounds (bounds : WithinBounds before)
    (taken : before.workerThrow = some after) : WithinBounds after := by
  cases place : before.worker <;> simp only [workerThrow, place] at taken
  case opening | windowing | finishing | appending | catching =>
    cases taken
    refine bounds.next (.inl (Nat.le_refl _)) (.inl ?_) rfl (.inl rfl) id
    simp only [total, place]
    exact Nat.le_refl _
  all_goals cases taken

private theorem step_bounds {label : PipelineLabel} (bounds : WithinBounds before)
    (owned : ChunksOwned before) (taken : step before label = some after) :
    WithinBounds after := by
  cases label with
  | startRecorder =>
    simp only [step] at taken
    split at taken <;> cases taken
    rename_i place
    refine bounds.recorder place nofun (.inl (Nat.le_refl _)) (.inl ?_) rfl rfl
    simp only [total, place]
    exact Nat.le_refl _
  | stopRecorder | interruptWorker =>
    cases taken
    exact bounds.next (.inl (Nat.le_refl _)) (.inl (Nat.le_refl _)) rfl (.inl rfl) id
  | startWorker =>
    simp only [step] at taken
    split at taken <;> cases taken
    rename_i place
    refine bounds.next (.inl (Nat.le_refl _)) (.inl ?_) rfl (.inl rfl) id
    simp only [total, place]
    exact Nat.le_refl _
  | stopWorker =>
    simp only [step] at taken
    split at taken <;> cases taken
    exact bounds.next (.inl (Nat.le_refl _)) (.inl (Nat.le_refl _)) rfl (.inl rfl) id
  | resumeWorker =>
    simp only [step] at taken
    split at taken
    · cases taken
    · split at taken <;> cases taken
      · exact bounds
      · exact bounds.next (.inl (Nat.le_refl _)) (.inl (Nat.le_refl _)) rfl (.inl rfl) id
  | recorder answer => exact recorderStep_bounds bounds owned taken
  | recorderThrows => exact recorderThrow_bounds bounds taken
  | worker more => exact workerStep_bounds bounds taken
  | workerThrows => exact workerThrow_bounds bounds taken

end Bounds

inductive ChunkOwner where
  | recorder
  | audioQueue
  | worker
  | freeList
  deriving DecidableEq, Repr

/-- A thread holds a chunk until it has handed it on, or into the pool. -/
def holding (pipeline : ChunkPipeline) : ChunkOwner → List Nat
  | .recorder => pipeline.recorder.owned ++ pipeline.recorder.returning
  | .audioQueue => pipeline.audioQueue
  | .worker => pipeline.worker.owned ++ pipeline.worker.returning
  | .freeList => pipeline.pool.freeBuffers

/-- What a state says about its chunks, up to those that `clear` has dropped. -/
structure SingleOwner (pipeline : ChunkPipeline) : Prop where
  owned : ∀ chunk < pipeline.pool.chunks.count, chunk ∉ pipeline.pool.dropped →
    ∃! owner, chunk ∈ pipeline.holding owner
  apart : ∀ owner, (pipeline.holding owner).Nodup
  usable : ∀ chunk ∈ pipeline.recorder.uses ++ pipeline.worker.uses,
    pipeline.pool.released chunk = false
  dropped : ∀ chunk ∈ pipeline.pool.dropped, pipeline.recorder = .ended ∧
    pipeline.pool.released chunk = true ∧ ∀ owner, chunk ∉ pipeline.holding owner
  closed : pipeline.recorder = .ended → pipeline.worker.finished = true →
    ∀ chunk < pipeline.pool.chunks.count, pipeline.pool.released chunk = true

section Owners

/-- The chunks in custody, counted by their owners. -/
theorem ChunksOwned.once (owned : ChunksOwned before) :
    (before.holding .recorder ++ before.holding .audioQueue ++ before.holding .worker ++
      before.holding .freeList ++ before.pool.dropped).Perm
      (List.range before.pool.chunks.count) := by
  refine List.Perm.trans ?_ owned.custody.once
  rw [List.perm_iff_count]
  intro chunk
  simp only [holding, List.count_append]
  omega

theorem ChunksOwned.count (owned : ChunksOwned before) (chunk : Nat) :
    (before.holding .recorder).count chunk + (before.holding .audioQueue).count chunk +
      (before.holding .worker).count chunk + (before.holding .freeList).count chunk +
      before.pool.dropped.count chunk =
    if chunk < before.pool.chunks.count then 1 else 0 := by
  have same := List.perm_iff_count.mp owned.once chunk
  simp only [List.count_append] at same
  rw [same]
  simp [List.count_range]

/-- Two owners never hold the same chunk. -/
theorem ChunksOwned.single (owned : ChunksOwned before) {chunk : Nat} {first second : ChunkOwner}
    (one : chunk ∈ before.holding first) (two : chunk ∈ before.holding second) :
    first = second := by
  have count := owned.count chunk
  have least := List.count_pos_iff.mpr one
  have other := List.count_pos_iff.mpr two
  have most : (if chunk < before.pool.chunks.count then 1 else 0) ≤ 1 := by split <;> omega
  cases first <;> cases second <;> first | rfl | omega

theorem ChunksOwned.someOwner (owned : ChunksOwned before) {chunk : Nat}
    (inside : chunk < before.pool.chunks.count) (kept : chunk ∉ before.pool.dropped) :
    ∃ owner, chunk ∈ before.holding owner := by
  have member := owned.once.mem_iff.mpr (List.mem_range.mpr inside)
  simp only [List.mem_append] at member
  rcases member with (((recorder | queue) | worker) | free) | gone
  · exact ⟨_, recorder⟩
  · exact ⟨_, queue⟩
  · exact ⟨_, worker⟩
  · exact ⟨_, free⟩
  · exact absurd gone kept

theorem ChunksOwned.nodup (owned : ChunksOwned before) (owner : ChunkOwner) :
    (before.holding owner).Nodup := by
  rw [List.nodup_iff_count]
  intro chunk
  have count := owned.count chunk
  have most : (if chunk < before.pool.chunks.count then 1 else 0) ≤ 1 := by split <;> omega
  cases owner <;> omega

theorem RecorderPlace.uses_owned {place : RecorderPlace} {chunk : Nat} (used : chunk ∈ place.uses) :
    chunk ∈ place.owned := by
  cases place <;> first | exact used | cases used

theorem WorkerPlace.uses_owned {place : WorkerPlace} {chunk : Nat} (used : chunk ∈ place.uses) :
    chunk ∈ place.owned := by
  cases place <;> first | exact used | cases used

theorem SingleOwner.of_invariants (owned : ChunksOwned before) (guarded : Guarded before)
    (bounds : WithinBounds before) : SingleOwner before := by
  refine ⟨fun chunk inside kept => ?_, owned.nodup, fun chunk used => ?_,
    fun chunk gone => ⟨?_, ?_, ?_⟩, fun ended finished chunk inside => ?_⟩
  · obtain ⟨owner, holds⟩ := owned.someOwner inside kept
    exact ⟨owner, holds, fun other here => owned.single here holds⟩
  · refine owned.custody.usable ?_
    simp only [List.mem_append] at used ⊢
    rcases used with recorder | worker
    · exact .inl (.inl (RecorderPlace.uses_owned recorder))
    · exact .inr (WorkerPlace.uses_owned worker)
  · by_contra going
    rw [bounds.kept going] at gone
    cases gone
  · exact owned.custody.closed (List.mem_append_right _ gone)
  · intro owner holds
    have count := owned.count chunk
    have least := List.count_pos_iff.mpr holds
    have other := List.count_pos_iff.mpr gone
    have most : (if chunk < before.pool.chunks.count then 1 else 0) ≤ 1 := by split <;> omega
    cases owner <;> omega
  · -- nobody is left who could use a chunk
    rw [← Bool.not_eq_false]
    intro free
    have member := (owned.custody.used chunk inside).mp free
    have idle : before.worker.owned = [] := by
      cases place : before.worker <;> rw [place] at finished <;> cases finished <;> rfl
    rw [ended, idle, guarded.drained finished] at member
    cases member

end Owners

/-- Every interleaving keeps a chunk with exactly one owner, and never lets a
released one be used. -/
theorem single_owner {audioSource : RecordingAudioSource} {sampleCapacity : Nat}
    {pipeline : ChunkPipeline}
    (run : Reachable step (new audioSource sampleCapacity) pipeline) : SingleOwner pipeline := by
  have initial : ChunksOwned (new audioSource sampleCapacity) ∧
      Guarded (new audioSource sampleCapacity) ∧ WithinBounds (new audioSource sampleCapacity) :=
    ⟨⟨⟨.refl _, nofun⟩, nofun⟩, ⟨nofun, fun _ => rfl, fun _ => rfl⟩,
      ⟨Nat.zero_le _, Nat.zero_le _, rfl, fun _ => rfl⟩⟩
  have kept {before after : ChunkPipeline} {label : PipelineLabel}
      (inv : ChunksOwned before ∧ Guarded before ∧ WithinBounds before) (_ : True)
      (taken : step before label = some after) :
      ChunksOwned after ∧ Guarded after ∧ WithinBounds after :=
    ⟨step_owned inv.1 taken, step_guarded inv.2.1 taken, step_bounds inv.2.2 inv.1 taken⟩
  obtain ⟨owned, guarded, bounds⟩ := run.invariant initial kept
  exact .of_invariants owned guarded bounds

/-- A read error: the chunk goes back into the pool, which the recorder clears
when it ends. -/
def failedRead : List PipelineLabel :=
  let answer : ReadAnswer := ⟨-1, 0, false, false⟩
  [.startRecorder, .recorder answer, .recorder answer, .recorder answer, .recorder answer,
    .recorder answer, .recorder answer, .recorder answer, .stopRecorder, .recorder answer,
    .recorder answer]

private theorem failedRead_taken :
    ∃ pipeline, execute step (new .microphone 160) failedRead = some pipeline ∧
      pipeline.recorder = .ended ∧ 0 < pipeline.pool.chunks.count ∧
      ∀ owner, pipeline.holding owner = [] := by
  refine ⟨_, rfl, rfl, by decide, fun owner => ?_⟩
  cases owner <;> rfl

/-- Two chunks are recorded and queued. The inference thread takes the first,
which then serves the recorder again. -/
def handOver : List PipelineLabel :=
  let answer : ReadAnswer := ⟨200, 0, true, true⟩
  [.startWorker, .startRecorder] ++ List.replicate 21 (.recorder answer) ++
    List.replicate 6 (.worker false) ++ List.replicate 2 (.recorder answer)

theorem single_owner_run :
    ∃ pipeline, execute step (new .microphone 160) handOver = some pipeline ∧
      pipeline.audioQueue = [1] ∧ pipeline.recorder = .acquired 0 ∧
      pipeline.worker = .windowing false ∧ SingleOwner pipeline := by
  have taken : (execute step (new .microphone 160) handOver).map (fun pipeline =>
      (pipeline.audioQueue, pipeline.recorder, pipeline.worker)) =
      some ([1], .acquired 0, .windowing false) := by decide +kernel
  obtain ⟨pipeline, run, seen⟩ := Option.map_eq_some_iff.mp taken
  simp only [Prod.mk.injEq] at seen
  exact ⟨pipeline, run, seen.1, seen.2.1, seen.2.2, single_owner (.of_execute run)⟩

/-- A chunk that the pool has dropped has no owner at all. -/
theorem dropped_chunk_unowned :
    ¬ ∀ pipeline, Reachable step (new .microphone 160) pipeline →
      ∀ chunk < pipeline.pool.chunks.count, ∃! owner, chunk ∈ pipeline.holding owner := by
  intro always
  obtain ⟨pipeline, taken, _, made, unowned⟩ := failedRead_taken
  obtain ⟨owner, holds, _⟩ := always pipeline (.of_execute taken) 0 made
  rw [unowned owner] at holds
  cases holds

end ChunkPipeline

end LocalWhisper.Record
