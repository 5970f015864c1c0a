import LocalWhisper.Machine.Sliding
import LocalWhisper.Transcription.Worker

/-! Windowing of live audio: whatever the chunks and the interleaving, the
windows handed to inference are cut from the accepted audio alone. -/

namespace LocalWhisper.Transcription

open LocalWhisper.Machine LocalWhisper.Record.Buffer

variable {Sample : Type}

/-- The audio of all chunks for which `submit` returned true, in order. -/
def acceptedAudio (reports : List (WorkerOutput Sample)) : List Sample :=
  reports.flatMap fun
    | .accepted samples => samples
    | _ => []

/-- The windows handed to the native `transcribe`, with their final flags. -/
def transcribedWindows (reports : List (WorkerOutput Sample)) : List (List Sample × Bool) :=
  reports.filterMap fun
    | .transcribed window finalResult => some (window, finalResult)
    | _ => none

@[simp] theorem acceptedAudio_append (first second : List (WorkerOutput Sample)) :
    acceptedAudio (first ++ second) = acceptedAudio first ++ acceptedAudio second := by
  simp [acceptedAudio]

@[simp] theorem transcribedWindows_append (first second : List (WorkerOutput Sample)) :
    transcribedWindows (first ++ second) = transcribedWindows first ++ transcribedWindows second := by
  simp [transcribedWindows]

/-- No eviction, no interrupt and no exception of the native code; chunks are
small enough for the ring. -/
def undisturbed (state : WhisperTranscriptionWorker Sample × List (WorkerOutput Sample)) :
    WorkerLabel Sample → Bool
  | .submit chunk =>
    (state.1.submit chunk).evicted.isNone &&
      decide (chunk.sampleCount ≤ state.1.windowSamples + state.1.sampleRate + 1)
  | .interrupt => false
  | .advance (.failure _) => false
  | _ => true

/-- No eviction, no interrupt and no exception of the native code, with chunks
of any size. -/
def unhindered (state : WhisperTranscriptionWorker Sample × List (WorkerOutput Sample)) :
    WorkerLabel Sample → Bool
  | .submit chunk => (state.1.submit chunk).evicted.isNone
  | .interrupt => false
  | .advance (.failure _) => false
  | _ => true

theorem unhindered_of_undisturbed
    {state : WhisperTranscriptionWorker Sample × List (WorkerOutput Sample)}
    {label : WorkerLabel Sample} (calm : undisturbed state label = true) :
    unhindered state label = true := by
  cases label with
  | submit chunk => exact (Bool.and_eq_true_iff.mp calm).1
  | requestStop | resumeAudioSubmission => rfl
  | interrupt => cases calm
  | advance answer => cases answer <;> exact calm

namespace WhisperTranscriptionWorker

/-- The chunk the thread has polled and not yet appended. -/
def heldChunk (worker : WhisperTranscriptionWorker Sample) : List (PcmChunk Sample) :=
  match worker.phase with
  | .appending chunk | .drainAppending chunk => [chunk]
  | _ => []

/-- Accepted audio that no window start has passed yet. -/
def backlog (worker : WhisperTranscriptionWorker Sample) : List Sample :=
  worker.pendingAudio.contents ++ (worker.heldChunk ++ worker.audioQueue).flatMap PcmChunk.samples

/-- How far one window start lies behind the previous one. -/
def stride (worker : WhisperTranscriptionWorker Sample) : Nat :=
  worker.windowSamples - worker.overlapSamples

/-- What the flags say at each place of `run` when nothing goes wrong. The
places a thread only reaches through an exception are ruled out, and so are
those behind a nonempty queue in `drainQueuedAudio`. -/
def FlagsAgree (worker : WhisperTranscriptionWorker Sample) : Prop :=
  match worker.phase with
  | .opening | .looping | .taking | .appending _ | .windowing | .checking =>
    worker.running = true ∧ worker.workerThread = true ∧ worker.terminating = false ∧
      (worker.drainStopRequested = true → worker.finishAfterQueuedAudio = true)
  | .draining | .finishing =>
    worker.terminating = true ∧ worker.acceptingAudio = false ∧
      worker.finishAfterQueuedAudio = true ∧ worker.audioQueue = []
  | .closing | .ended => worker.terminating = true ∧ worker.acceptingAudio = false
  | .unstarted | .drainAppending _ | .drainWindowing | .failing _ | .stopped => False

/-- Outside the inner loop less than one window is pending. -/
structure RoomLeft (worker : WhisperTranscriptionWorker Sample) : Prop where
  overlap : worker.overlapSamples < worker.windowSamples
  capacity : worker.pendingAudio.capacitySamples = worker.windowSamples * 2 + worker.sampleRate
  short : worker.phase ≠ .windowing → worker.pendingAudio.sizeSamples < worker.windowSamples
  minFinal : 0 < worker.minFinalSamples

/-- The chunk that the step appends fits behind what is pending. -/
def RingTakes (worker : WhisperTranscriptionWorker Sample) : WorkerLabel Sample → Prop
  | .advance _ => ∀ chunk ∈ worker.heldChunk,
    worker.pendingAudio.sizeSamples + chunk.sampleCount ≤ worker.pendingAudio.capacitySamples
  | _ => True

def SmallChunks (worker : WhisperTranscriptionWorker Sample) : Prop :=
  ∀ chunk ∈ worker.heldChunk ++ worker.audioQueue,
    chunk.sampleCount ≤ worker.windowSamples + worker.sampleRate + 1

end WhisperTranscriptionWorker

open WhisperTranscriptionWorker

/-- While the thread works: the windows so far are the first `count` windows
of the accepted audio, and the backlog is the audio from the next start on. -/
structure Cut (worker : WhisperTranscriptionWorker Sample) (reports : List (WorkerOutput Sample))
    (count : Nat) : Prop where
  windows : transcribedWindows reports =
    (slidingWindows worker.windowSamples worker.stride count (acceptedAudio reports)).map (·, false)
  fit : Fit worker.windowSamples worker.stride count (acceptedAudio reports).length
  start : count * worker.stride ≤ (acceptedAudio reports).length
  rest : (acceptedAudio reports).drop (count * worker.stride) = worker.backlog

/-- After the final window: one last window holds the rest, if there is one. -/
structure Finished (width stride : Nat) (reports : List (WorkerOutput Sample)) (count : Nat) :
    Prop where
  windows : transcribedWindows reports =
    (slidingWindows width stride count (acceptedAudio reports)).map (·, false) ++
      if (acceptedAudio reports).drop (count * stride) = [] then []
      else [((acceptedAudio reports).drop (count * stride), true)]
  fit : Fit width stride count (acceptedAudio reports).length
  short : (acceptedAudio reports).length < count * stride + width

/-- The places behind the decision on the final window. -/
def WorkerPhase.pastFinal : WorkerPhase Sample → Bool
  | .closing | .ended => true
  | _ => false

/-- The invariant of an undisturbed run. -/
structure Windowed (worker : WhisperTranscriptionWorker Sample)
    (reports : List (WorkerOutput Sample)) : Prop where
  flags : worker.FlagsAgree
  calm : worker.interrupted = false
  room : worker.RoomLeft
  working : worker.phase.pastFinal = false → ∃ count, Cut worker reports count
  finished : worker.phase.pastFinal = true →
    ∃ count, Finished worker.windowSamples worker.stride reports count

section Steps

variable {worker : WhisperTranscriptionWorker Sample} {reports : List (WorkerOutput Sample)}

theorem WhisperTranscriptionWorker.SmallChunks.ringTakes (small : worker.SmallChunks)
    (room : worker.RoomLeft) (label : WorkerLabel Sample) : worker.RingTakes label := by
  cases label with
  | advance answer =>
    intro chunk held
    have admissible := small chunk (List.mem_append_left _ held)
    have short := room.short (by
      intro place
      simp [heldChunk, place] at held)
    have capacity := room.capacity
    omega
  | _ => trivial

theorem append_succeeds {chunk : PcmChunk Sample} {answer : Inference}
    (takes : worker.RingTakes (.advance answer)) (held : worker.phase = .appending chunk) :
    ∃ next, worker.pendingAudio.append chunk.bytes chunk.capacity chunk.sampleCount =
        .ok (next, chunk.sampleCount) ∧
      next.contents = worker.pendingAudio.contents ++ chunk.samples ∧
      next.capacitySamples = worker.pendingAudio.capacitySamples :=
  worker.pendingAudio.append_contents chunk.bytes chunk.capacity chunk.sampleCount chunk.within
    (takes chunk (by simp [heldChunk, held]))

/-- Calls that leave the audio alone keep the cut. -/
theorem Cut.congr {other : WhisperTranscriptionWorker Sample} {count : Nat}
    (cut : Cut worker reports count) (windowSamples : other.windowSamples = worker.windowSamples)
    (overlapSamples : other.overlapSamples = worker.overlapSamples)
    (backlog : other.backlog = worker.backlog) : Cut other reports count := by
  have stride : other.stride = worker.stride := by
    simp [WhisperTranscriptionWorker.stride, windowSamples, overlapSamples]
  obtain ⟨windows, fit, start, rest⟩ := cut
  exact ⟨by rw [windowSamples, stride, windows], by rwa [windowSamples, stride],
    by rwa [stride], by rw [stride, backlog, rest]⟩

theorem Cut.accept {other : WhisperTranscriptionWorker Sample} {count : Nat} {samples : List Sample}
    (cut : Cut worker reports count) (windowSamples : other.windowSamples = worker.windowSamples)
    (overlapSamples : other.overlapSamples = worker.overlapSamples)
    (backlog : other.backlog = worker.backlog ++ samples) :
    Cut other (reports ++ [.accepted samples]) count := by
  have stride : other.stride = worker.stride := by
    simp [WhisperTranscriptionWorker.stride, windowSamples, overlapSamples]
  obtain ⟨windows, fit, start, rest⟩ := cut
  have audio : acceptedAudio (reports ++ [.accepted samples]) = acceptedAudio reports ++ samples := by
    simp [acceptedAudio]
  constructor
  · rw [audio, windowSamples, stride, slidingWindows_append fit, transcribedWindows_append, windows]
    simp [transcribedWindows]
  · rw [audio, windowSamples, stride]
    exact fit.grow (by simp)
  · rw [audio, stride]
    exact Nat.le_trans start (by simp)
  · rw [audio, stride, backlog, List.drop_append_of_le_length start, rest]

/-- The window at the front of a full ring is the next window of the accepted
audio, and dropping its stride moves the cut by one. -/
theorem Cut.advance {other : WhisperTranscriptionWorker Sample} {count : Nat}
    {report : List (WorkerOutput Sample)} (cut : Cut worker reports count)
    (full : worker.windowSamples ≤ worker.pendingAudio.sizeSamples)
    (held : worker.heldChunk = [])
    (silent : acceptedAudio report = [])
    (window : transcribedWindows report =
      [(worker.pendingAudio.contents.take worker.windowSamples, false)])
    (windowSamples : other.windowSamples = worker.windowSamples)
    (overlapSamples : other.overlapSamples = worker.overlapSamples)
    (heldAfter : other.heldChunk = [])
    (queue : other.audioQueue = worker.audioQueue)
    (contents : other.pendingAudio.contents = worker.pendingAudio.contents.drop worker.stride) :
    Cut other (reports ++ report) (count + 1) := by
  have stride : other.stride = worker.stride := by
    simp [WhisperTranscriptionWorker.stride, windowSamples, overlapSamples]
  have narrow : worker.stride ≤ worker.windowSamples := Nat.sub_le _ _
  have audio : acceptedAudio (reports ++ report) = acceptedAudio reports := by
    simp [silent]
  obtain ⟨windows, fit, start, rest⟩ := cut
  have ringFirst : (acceptedAudio reports).drop (count * worker.stride) =
      worker.pendingAudio.contents ++ worker.audioQueue.flatMap PcmChunk.samples := by
    rw [rest, backlog, held, List.nil_append]
  have inside : count * worker.stride + worker.windowSamples ≤ (acceptedAudio reports).length := by
    have lengths := congrArg List.length ringFirst
    simp only [List.length_drop, List.length_append,
      DirectPcm16RingBuffer.length_contents] at lengths
    omega
  constructor
  · rw [audio, windowSamples, stride, slidingWindows_succ, transcribedWindows_append, windows,
      window, ringFirst, List.take_append_of_le_length (by simpa using full)]
    simp
  · rw [audio, windowSamples, stride]
    exact fit.succ inside
  · rw [audio, stride, Nat.succ_mul]
    omega
  · rw [audio, stride, Nat.succ_mul, ← List.drop_drop, ringFirst,
      List.drop_append_of_le_length (by simp only [DirectPcm16RingBuffer.length_contents]; omega),
      backlog, heldAfter, queue, contents, List.nil_append]

/-- Reports without audio or windows keep the invariant. -/
theorem Windowed.silent (valid : Windowed worker reports) (more : List (WorkerOutput Sample))
    (noAudio : acceptedAudio more = []) (noWindow : transcribedWindows more = []) :
    Windowed worker (reports ++ more) := by
  have audio : acceptedAudio (reports ++ more) = acceptedAudio reports := by simp [noAudio]
  have windows : transcribedWindows (reports ++ more) = transcribedWindows reports := by
    simp [noWindow]
  obtain ⟨flags, calm, room, working, finished⟩ := valid
  refine ⟨flags, calm, room, fun before => (working before).imp ?_, fun past => (finished past).imp ?_⟩
  · rintro count ⟨cut, fit, start, rest⟩
    exact ⟨by rw [windows, audio, cut], by rwa [audio], by rwa [audio], by rwa [audio]⟩
  · rintro count ⟨cut, fit, short⟩
    exact ⟨by rw [windows, audio, cut], by rwa [audio], by rwa [audio]⟩

/-- A stop request changes flags only. -/
theorem Windowed.requestStop (valid : Windowed worker reports) :
    Windowed worker.requestStop.1 reports := by
  obtain ⟨flags, calm, ⟨overlap, capacity, short, minFinal⟩, working, finished⟩ := valid
  refine ⟨?_, calm, ⟨overlap, capacity, short, minFinal⟩, ?_, finished⟩
  · cases place : worker.phase <;>
      simp_all [FlagsAgree, WhisperTranscriptionWorker.requestStop]
  · exact fun before => (working before).imp fun _ cut => cut.congr rfl rfl rfl

/-- A resumption is refused once the thread has begun to end; before that it
changes flags only. -/
theorem Windowed.resumeAudioSubmission (valid : Windowed worker reports) :
    Windowed worker.resumeAudioSubmission.1 reports := by
  unfold WhisperTranscriptionWorker.resumeAudioSubmission
  split
  · exact valid
  · rename_i alive
    obtain ⟨flags, calm, ⟨overlap, capacity, short, minFinal⟩, working, finished⟩ := valid
    refine ⟨?_, calm, ⟨overlap, capacity, short, minFinal⟩, ?_, finished⟩
    · cases place : worker.phase <;> simp_all [FlagsAgree]
    · exact fun before => (working before).imp fun _ cut => cut.congr rfl rfl rfl

/-- The two answers of `submit` when nothing is evicted: refused without any
effect, or taken at the end of the queue by a worker that accepts audio. -/
theorem submit_cases (worker : WhisperTranscriptionWorker Sample) (chunk : PcmChunk Sample)
    (kept : (worker.submit chunk).evicted = none) :
    worker.submit chunk = ⟨worker, false, none⟩ ∨
      worker.acceptingAudio = true ∧ worker.submit chunk =
        ⟨{ worker with audioQueue := worker.audioQueue ++ [chunk] }, true, none⟩ := by
  unfold submit at kept ⊢
  split at kept
  · rename_i refused
    simp [refused]
  · rename_i willing
    split at kept
    · rename_i room
      simp_all
    · rename_i full
      -- a full queue is not empty, so making room closes its oldest chunk
      cases waiting : worker.audioQueue with
      | nil => simp [waiting, queueCapacity] at full
      | cons old rest =>
        simp only [waiting, List.head?_cons] at kept
        split at kept <;> cases kept

theorem Windowed.submit (valid : Windowed worker reports) (chunk : PcmChunk Sample)
    (kept : (worker.submit chunk).evicted = none) :
    Windowed (worker.submit chunk).worker
      (reports ++ if (worker.submit chunk).accepted then [.accepted chunk.samples] else []) := by
  rcases submit_cases worker chunk kept with refused | ⟨accepting, taken⟩
  · simpa [refused] using valid
  · rw [taken]
    obtain ⟨flags, calm, ⟨overlap, capacity, short, minFinal⟩, working, finished⟩ := valid
    refine ⟨?_, calm, ⟨overlap, capacity, short, minFinal⟩, ?_, ?_⟩
    · cases place : worker.phase <;> simp_all [FlagsAgree]
    · exact fun before => (working before).imp fun _ cut =>
        cut.accept rfl rfl (by simp [backlog, heldChunk])
    · intro past
      -- behind the final window no audio is accepted any more
      cases place : worker.phase <;> simp_all [FlagsAgree, WorkerPhase.pastFinal]

/-- The thread moves on inside its loops without touching the audio. -/
theorem Windowed.move (valid : Windowed worker reports) {place : WorkerPhase Sample}
    (flags : ({ worker with phase := place } : WhisperTranscriptionWorker Sample).FlagsAgree)
    (held : ({ worker with phase := place } : WhisperTranscriptionWorker Sample).heldChunk =
      worker.heldChunk)
    (short : worker.pendingAudio.sizeSamples < worker.windowSamples)
    (before : worker.phase.pastFinal = false) (after : place.pastFinal = false) :
    Windowed { worker with phase := place } reports := by
  obtain ⟨_, calm, ⟨overlap, capacity, _, minFinal⟩, working, _⟩ := valid
  refine ⟨flags, calm, ⟨overlap, capacity, fun _ => short, minFinal⟩, ?_, ?_⟩
  · intro _
    exact (working before).imp fun _ cut => cut.congr rfl rfl (by rw [backlog, held, backlog])
  · intro past
    simp [after] at past

/-- A chunk leaves the queue for the hands of the thread. -/
theorem Windowed.take (valid : Windowed worker reports) (place : worker.phase = .taking)
    {chunk : PcmChunk Sample} {rest : List (PcmChunk Sample)}
    (queue : worker.audioQueue = chunk :: rest) :
    Windowed { worker with audioQueue := rest, phase := .appending chunk } reports := by
  obtain ⟨flags, calm, ⟨overlap, capacity, short, minFinal⟩, working, _⟩ := valid
  refine ⟨?_, calm, ⟨overlap, capacity, fun _ => short (by simp [place]), minFinal⟩, ?_, ?_⟩
  · simpa [FlagsAgree, place] using flags
  · intro _
    refine (working (by simp [place, WorkerPhase.pastFinal])).imp fun _ cut => cut.congr rfl rfl ?_
    simp [backlog, heldChunk, place, queue]
  · simp [WorkerPhase.pastFinal]

/-- The held chunk goes into a ring that is not full. -/
theorem Windowed.append (valid : Windowed worker reports) {chunk : PcmChunk Sample}
    (place : worker.phase = .appending chunk) {answer : Inference}
    (takes : worker.RingTakes (.advance answer)) :
    Windowed (worker.appendChunk chunk .windowing) reports := by
  obtain ⟨next, appended, contents, kept⟩ := append_succeeds takes place
  obtain ⟨flags, calm, ⟨overlap, capacity, _, minFinal⟩, working, _⟩ := valid
  simp only [appendChunk, appended]
  refine ⟨?_, calm, ⟨overlap, by rw [kept, capacity], ?_, minFinal⟩, ?_, ?_⟩
  · simpa [FlagsAgree, place] using flags
  · simp
  · intro _
    refine (working (by simp [place, WorkerPhase.pastFinal])).imp fun _ cut => cut.congr rfl rfl ?_
    simp [backlog, heldChunk, place, contents]
  · simp [WorkerPhase.pastFinal]

/-- One more complete window is cut off the front of the ring. -/
theorem Windowed.window (valid : Windowed worker reports) (place : worker.phase = .windowing)
    (full : worker.windowSamples ≤ worker.pendingAudio.sizeSamples) (text : String)
    (speakerChanged : Bool) (processingTimeMs : Nat) :
    Windowed
      (worker.transcribeNextWindow false (.result text speakerChanged processingTimeMs) .windowing).1
      (reports ++ (worker.transcribeNextWindow false
        (.result text speakerChanged processingTimeMs) .windowing).2) := by
  obtain ⟨flags, calm, ⟨overlap, capacity, _, minFinal⟩, working, _⟩ := valid
  have stride : worker.discardLength false = worker.stride := by
    simp only [discardLength, windowLength, WhisperTranscriptionWorker.stride]
    simp only [Bool.false_eq_true, ↓reduceIte]
    omega
  have dropped : worker.discardLength false ≤ worker.pendingAudio.sizeSamples := by
    rw [stride]
    exact Nat.le_trans (Nat.sub_le _ _) full
  obtain ⟨rest, progress, result, contents, kept⟩ := worker.transcribeNextWindow_result false text
    speakerChanged processingTimeMs .windowing full dropped
  rw [result]
  have held : worker.heldChunk = [] := by simp [heldChunk, place]
  refine ⟨?_, calm, ⟨overlap, by rw [kept, capacity], by simp, minFinal⟩, ?_, ?_⟩
  · simpa [FlagsAgree, place] using flags
  · intro _
    obtain ⟨count, cut⟩ := working (by simp [place, WorkerPhase.pastFinal])
    refine ⟨count + 1, cut.advance full held ?_ ?_ rfl rfl (by simp [heldChunk]) rfl ?_⟩
    · simp [acceptedAudio]
    · simp [transcribedWindows, windowLength]
    · rw [contents, stride]
  · simp [WorkerPhase.pastFinal]

/-- With an empty queue and less than a window pending, the rest becomes the
final window, if anything is left. -/
theorem Windowed.final (valid : Windowed worker reports) (place : worker.phase = .finishing)
    (text : String) (speakerChanged : Bool) (processingTimeMs : Nat) :
    Windowed (worker.finalStep (.result text speakerChanged processingTimeMs)).1
      (reports ++ (worker.finalStep (.result text speakerChanged processingTimeMs)).2) := by
  obtain ⟨flags, calm, ⟨overlap, capacity, short, minFinal⟩, working, _⟩ := valid
  simp only [FlagsAgree, place] at flags
  obtain ⟨terminating, closed, forced, queue⟩ := flags
  have short := short (by simp [place])
  obtain ⟨count, cut⟩ := working (by simp [place, WorkerPhase.pastFinal])
  have rest : (acceptedAudio reports).drop (count * worker.stride) =
      worker.pendingAudio.contents := by
    rw [cut.rest, backlog]
    simp [heldChunk, place, queue]
  have bound : (acceptedAudio reports).length < count * worker.stride + worker.windowSamples := by
    have lengths := congrArg List.length rest
    simp only [List.length_drop, DirectPcm16RingBuffer.length_contents] at lengths
    omega
  -- the reports of the last step carry no audio and at most the final window
  have close (more : List (WorkerOutput Sample)) (silent : acceptedAudio more = [])
      (last : transcribedWindows more = if worker.pendingAudio.contents = [] then []
        else [(worker.pendingAudio.contents, true)]) :
      Finished worker.windowSamples worker.stride (reports ++ more) count := by
    have audio : acceptedAudio (reports ++ more) = acceptedAudio reports := by simp [silent]
    exact ⟨by rw [audio, transcribedWindows_append, cut.windows, last, rest], by rw [audio]; exact cut.fit,
      by rw [audio]; exact bound⟩
  have nothing : worker.pendingAudio.contents = [] ↔ worker.pendingAudio.sizeSamples = 0 := by
    rw [← List.length_eq_zero_iff, DirectPcm16RingBuffer.length_contents]
  unfold finalStep
  by_cases empty : worker.pendingAudio.sizeSamples = 0
  · rw [if_neg (by simp [empty]; omega)]
    refine ⟨by simp [FlagsAgree, terminating, closed], calm,
      ⟨overlap, capacity, fun _ => short, minFinal⟩,
      by simp [WorkerPhase.pastFinal], fun _ => ⟨count, ?_⟩⟩
    exact close [] rfl (by rw [if_pos (nothing.mpr empty)]; rfl)
  · rw [if_pos (by simp [calm, forced]; omega)]
    obtain ⟨ring, progress, result, contents, kept⟩ := worker.transcribeNextWindow_result true text
      speakerChanged processingTimeMs .closing (Nat.le_refl _) (Nat.le_refl _)
    rw [result]
    have emptied : ring.sizeSamples = 0 := by
      have lengths := congrArg List.length contents
      simpa [discardLength, windowLength] using lengths
    refine ⟨by simp [FlagsAgree, terminating, closed], calm,
      ⟨overlap, by rw [kept, capacity], fun _ => by rw [emptied]; exact Nat.zero_lt_of_lt overlap,
        minFinal⟩,
      by simp [WorkerPhase.pastFinal], fun _ => ⟨count, ?_⟩⟩
    refine close _ (by simp [acceptedAudio]) ?_
    have whole : worker.pendingAudio.contents.take (worker.windowLength true) =
        worker.pendingAudio.contents := by
      rw [List.take_of_length_le]
      simp [windowLength]
    rw [whole, if_neg (mt nothing.mp empty)]
    rfl

theorem Windowed.beginTermination (valid : Windowed worker reports)
    (place : worker.phase = .checking) (requested : worker.drainStopRequested = true)
    (empty : worker.audioQueue = []) :
    Windowed { worker with acceptingAudio := false, terminating := true, phase := .draining }
      reports := by
  obtain ⟨flags, calm, ⟨overlap, capacity, short, minFinal⟩, working, _⟩ := valid
  simp only [FlagsAgree, place] at flags
  obtain ⟨_, _, _, forced⟩ := flags
  refine ⟨by simp [FlagsAgree, forced requested, empty], calm,
    ⟨overlap, capacity, fun _ => short (by simp [place]), minFinal⟩,
    ?_, by simp [WorkerPhase.pastFinal]⟩
  intro _
  refine (working (by simp [place, WorkerPhase.pastFinal])).imp fun _ cut => cut.congr rfl rfl ?_
  simp [backlog, heldChunk, place]

/-- The finally block discards nothing: the ring and the queue are empty or
already accounted for. -/
theorem Windowed.finish (valid : Windowed worker reports) (place : worker.phase = .closing) :
    Windowed worker.finish reports := by
  obtain ⟨flags, calm, ⟨overlap, capacity, short, minFinal⟩, _, finished⟩ := valid
  refine ⟨by simp [FlagsAgree, WhisperTranscriptionWorker.finish], calm,
    ⟨overlap, capacity, fun _ => Nat.zero_lt_of_lt overlap, minFinal⟩,
    by simp [WorkerPhase.pastFinal, WhisperTranscriptionWorker.finish], fun _ => ?_⟩
  exact finished (by simp [place, WorkerPhase.pastFinal])

/-- Every step of the thread, by its place in `run`. -/
theorem Windowed.advance (valid : Windowed worker reports) {answer : Inference}
    (answers : ∀ message, answer ≠ .failure message) (takes : worker.RingTakes (.advance answer))
    {next : WhisperTranscriptionWorker Sample} {more : List (WorkerOutput Sample)}
    (taken : worker.advance answer = some (next, more)) : Windowed next (reports ++ more) := by
  obtain ⟨text, speakerChanged, processingTimeMs, rfl⟩ :
      ∃ text speakerChanged time, answer = .result text speakerChanged time := by
    cases answer with
    | result text speakerChanged time => exact ⟨text, speakerChanged, time, rfl⟩
    | failure message => exact absurd rfl (answers message)
  have flags := valid.flags
  have short := valid.room.short
  have calm := valid.calm
  cases place : worker.phase with
  | unstarted | drainAppending | drainWindowing | failing | stopped =>
    simp [FlagsAgree, place] at flags
  | ended => simp [WhisperTranscriptionWorker.advance, place] at taken
  | opening =>
    simp only [WhisperTranscriptionWorker.advance, place, Option.some.injEq, Prod.mk.injEq] at taken
    obtain ⟨rfl, rfl⟩ := taken
    rw [List.append_nil]
    exact valid.move (by simpa [FlagsAgree, place] using flags) (by simp [heldChunk, place])
      (short (by simp [place])) (by simp [place, WorkerPhase.pastFinal]) rfl
  | looping =>
    have running : worker.running = true := by
      simp only [FlagsAgree, place] at flags
      exact flags.1
    simp only [WhisperTranscriptionWorker.advance, place, running, calm, Bool.not_false,
      Bool.and_self, ↓reduceIte, Option.some.injEq, Prod.mk.injEq] at taken
    obtain ⟨rfl, rfl⟩ := taken
    rw [List.append_nil, ← running, ← calm]
    exact valid.move (by simpa [FlagsAgree, place] using flags) (by simp [heldChunk, place])
      (short (by simp [place])) (by simp [place, WorkerPhase.pastFinal]) rfl
  | taking =>
    simp only [WhisperTranscriptionWorker.advance, place, calm, Bool.false_eq_true,
      ↓reduceIte] at taken
    cases queue : worker.audioQueue with
    | nil =>
      simp only [queue, Option.some.injEq, Prod.mk.injEq] at taken
      obtain ⟨rfl, rfl⟩ := taken
      rw [List.append_nil, ← calm, ← queue]
      exact valid.move (by simpa [FlagsAgree, place] using flags) (by simp [heldChunk, place])
        (short (by simp [place])) (by simp [place, WorkerPhase.pastFinal]) rfl
    | cons chunk rest =>
      simp only [queue, Option.some.injEq, Prod.mk.injEq] at taken
      obtain ⟨rfl, rfl⟩ := taken
      rw [List.append_nil, ← calm]
      exact valid.take place queue
  | appending chunk =>
    simp only [WhisperTranscriptionWorker.advance, place, Option.some.injEq, Prod.mk.injEq] at taken
    obtain ⟨rfl, rfl⟩ := taken
    rw [List.append_nil]
    exact valid.append place takes
  | windowing =>
    simp only [WhisperTranscriptionWorker.advance, place, Option.some.injEq] at taken
    by_cases full : worker.windowSamples ≤ worker.pendingAudio.sizeSamples
    · rw [windowStep, if_pos (by simp [full, calm])] at taken
      have cutOff := valid.window place full text speakerChanged processingTimeMs
      rwa [taken] at cutOff
    · rw [windowStep, if_neg (by simp [full])] at taken
      obtain ⟨rfl, rfl⟩ := Prod.mk.inj taken
      rw [List.append_nil]
      exact valid.move (by simpa [FlagsAgree, place] using flags) (by simp [heldChunk, place])
        (Nat.not_le.mp full) (by simp [place, WorkerPhase.pastFinal]) rfl
  | checking =>
    simp only [WhisperTranscriptionWorker.advance, place, beginTerminationIfDrained] at taken
    split at taken
    · simp only [Bool.false_eq_true, ↓reduceIte, Option.some.injEq, Prod.mk.injEq] at taken
      obtain ⟨rfl, rfl⟩ := taken
      rw [List.append_nil]
      exact valid.move (by simpa [FlagsAgree, place] using flags) (by simp [heldChunk, place])
        (short (by simp [place])) (by simp [place, WorkerPhase.pastFinal]) rfl
    · rename_i drained
      simp only [↓reduceIte, Option.some.injEq, Prod.mk.injEq] at taken
      obtain ⟨rfl, rfl⟩ := taken
      obtain ⟨requested, empty⟩ : worker.drainStopRequested = true ∧ worker.audioQueue = [] := by
        simpa using drained
      -- the request that is honoured here also forces the final window
      have moved := valid.beginTermination place requested empty
      rwa [List.append_nil]
  | draining =>
    have empty : worker.audioQueue = [] := by
      simp only [FlagsAgree, place] at flags
      exact flags.2.2.2
    simp only [WhisperTranscriptionWorker.advance, place, empty, Option.some.injEq,
      Prod.mk.injEq] at taken
    obtain ⟨rfl, rfl⟩ := taken
    rw [List.append_nil, ← empty]
    exact valid.move (by simpa [FlagsAgree, place] using flags) (by simp [heldChunk, place])
      (short (by simp [place])) (by simp [place, WorkerPhase.pastFinal]) rfl
  | finishing =>
    simp only [WhisperTranscriptionWorker.advance, place, Option.some.injEq] at taken
    have closed := valid.final place text speakerChanged processingTimeMs
    rwa [taken] at closed
  | closing =>
    simp only [WhisperTranscriptionWorker.advance, place, Option.some.injEq, Prod.mk.injEq] at taken
    obtain ⟨rfl, rfl⟩ := taken
    rw [List.append_nil]
    exact valid.finish place

/-- One step keeps the invariant when nothing is evicted or fails and the ring
takes what it is given. -/
theorem Windowed.step (valid : Windowed worker reports) {label : WorkerLabel Sample}
    (calm : unhindered (worker, reports) label = true) (takes : worker.RingTakes label)
    {next : WhisperTranscriptionWorker Sample} {more : List (WorkerOutput Sample)}
    (taken : worker.step label = some (next, more)) : Windowed next (reports ++ more) := by
  cases label with
  | submit chunk =>
    have kept : (worker.submit chunk).evicted = none := by simpa [unhindered] using calm
    simp only [WhisperTranscriptionWorker.step, kept, Option.toList_none, List.map_nil,
      List.nil_append, Option.some.injEq, Prod.mk.injEq] at taken
    obtain ⟨rfl, rfl⟩ := taken
    exact valid.submit chunk kept
  | requestStop =>
    cases taken
    rw [List.append_nil]
    exact valid.requestStop
  | resumeAudioSubmission =>
    obtain ⟨rfl, rfl⟩ := Prod.mk.inj (Option.some.inj taken)
    have resumed := valid.resumeAudioSubmission
    split
    · exact resumed.silent _ rfl rfl
    · rwa [List.append_nil]
  | interrupt => cases calm
  | advance answer =>
    refine valid.advance ?_ takes taken
    rintro message rfl
    cases calm

private theorem transcribeNextWindow_chunks (finalResult : Bool) (answer : Inference)
    (after : WorkerPhase Sample) :
    (worker.transcribeNextWindow finalResult answer after).1.audioQueue = worker.audioQueue ∧
      ((worker.transcribeNextWindow finalResult answer after).1.phase = after ∨
        ∃ message, (worker.transcribeNextWindow finalResult answer after).1.phase =
          .failing message) := by
  unfold transcribeNextWindow
  simp only [output]
  split
  · exact ⟨rfl, .inr ⟨_, rfl⟩⟩
  · split
    · exact ⟨rfl, .inr ⟨_, rfl⟩⟩
    · split
      · exact ⟨rfl, .inr ⟨_, rfl⟩⟩
      · exact ⟨rfl, .inl rfl⟩

/-- The thread has polled a chunk that it has not appended yet. -/
def WorkerPhase.holdsChunk : WorkerPhase Sample → Bool
  | .appending _ | .drainAppending _ => true
  | _ => false

theorem mem_audioQueue {chunk : PcmChunk Sample}
    (waits : chunk ∈ worker.heldChunk ++ worker.audioQueue) (free : worker.phase.holdsChunk = false) :
    chunk ∈ worker.audioQueue := by
  have none : worker.heldChunk = [] := by
    unfold heldChunk
    split
    · rename_i held place
      rw [place] at free
      cases free
    · rename_i held place
      rw [place] at free
      cases free
    · rfl
  rwa [none, List.nil_append] at waits

theorem appendChunk_chunks {held chunk : PcmChunk Sample} {after : WorkerPhase Sample}
    (waits : chunk ∈ (worker.appendChunk held after).heldChunk ++
      (worker.appendChunk held after).audioQueue) (free : after.holdsChunk = false) :
    chunk ∈ worker.audioQueue := by
  unfold appendChunk at waits
  split at waits
  · have queued := mem_audioQueue waits rfl
    exact queued
  · have queued := mem_audioQueue waits free
    exact queued

theorem nextWindow_chunks {finalResult : Bool} {answer : Inference} {chunk : PcmChunk Sample}
    {after : WorkerPhase Sample}
    (waits : chunk ∈ (worker.transcribeNextWindow finalResult answer after).1.heldChunk ++
      (worker.transcribeNextWindow finalResult answer after).1.audioQueue)
    (free : after.holdsChunk = false) : chunk ∈ worker.audioQueue := by
  obtain ⟨queue, place⟩ := transcribeNextWindow_chunks finalResult answer after
  rw [← queue]
  apply mem_audioQueue waits
  rcases place with same | ⟨message, same⟩
  · rw [same]
    exact free
  · rw [same]
    rfl

private theorem windowStep_chunks {answer : Inference} {chunk : PcmChunk Sample}
    {here after : WorkerPhase Sample}
    (waits : chunk ∈ (worker.windowStep answer here after).1.heldChunk ++
      (worker.windowStep answer here after).1.audioQueue) (freeHere : here.holdsChunk = false)
    (freeAfter : after.holdsChunk = false) : chunk ∈ worker.audioQueue := by
  unfold windowStep at waits
  split at waits
  · exact nextWindow_chunks waits freeHere
  · have queued := mem_audioQueue waits freeAfter
    exact queued

private theorem advance_chunks {answer : Inference} {next : WhisperTranscriptionWorker Sample}
    {more : List (WorkerOutput Sample)} (taken : worker.advance answer = some (next, more))
    {chunk : PcmChunk Sample} (waits : chunk ∈ next.heldChunk ++ next.audioQueue) :
    chunk ∈ worker.heldChunk ++ worker.audioQueue := by
  refine List.mem_append.mpr ?_
  cases place : worker.phase <;> simp only [advance, place] at taken
  case unstarted | ended | stopped => cases taken
  case opening | looping =>
    split at taken <;> cases taken <;> exact .inr (by simpa [heldChunk] using waits)
  case taking =>
    split at taken
    · cases taken
      exact .inr (by simpa [heldChunk] using waits)
    · split at taken <;> cases taken <;> exact .inr (by simp_all [heldChunk])
  case draining =>
    split at taken <;> cases taken <;> exact .inr (by simp_all [heldChunk])
  case appending held =>
    cases taken
    exact .inr (appendChunk_chunks waits rfl)
  case drainAppending held =>
    cases taken
    exact .inr (appendChunk_chunks waits rfl)
  case windowing | drainWindowing =>
    have reached := congrArg Prod.fst (Option.some.inj taken)
    simp only at reached
    rw [← reached] at waits
    exact .inr (windowStep_chunks waits rfl rfl)
  case checking =>
    cases taken
    unfold beginTerminationIfDrained at waits
    split at waits <;> exact .inr (by simpa [heldChunk] using waits)
  case finishing =>
    have reached := congrArg Prod.fst (Option.some.inj taken)
    simp only at reached
    rw [← reached] at waits
    unfold finalStep at waits
    simp only at waits
    split at waits
    · exact .inr (nextWindow_chunks waits rfl)
    · exact .inr (by simpa [heldChunk] using waits)
  case failing message =>
    cases taken
    exact .inr (by simpa [heldChunk, outputError, output] using waits)
  case closing =>
    cases taken
    simp [heldChunk, finish] at waits

/-- The queue only grows by chunks of admissible size. -/
theorem WhisperTranscriptionWorker.SmallChunks.step (small : worker.SmallChunks) {label : WorkerLabel Sample}
    (calm : undisturbed (worker, reports) label = true)
    {next : WhisperTranscriptionWorker Sample} {more : List (WorkerOutput Sample)}
    (taken : worker.step label = some (next, more)) : next.SmallChunks := by
  have setup := step_setup taken
  intro chunk waits
  rw [setup.windowSamples, setup.sampleRate]
  cases label with
  | submit added =>
    obtain ⟨kept, admissible⟩ : (worker.submit added).evicted = none ∧
        added.sampleCount ≤ worker.windowSamples + worker.sampleRate + 1 := by
      simpa [undisturbed] using calm
    obtain ⟨rfl, -⟩ := Prod.mk.inj (Option.some.inj taken)
    rcases submit_cases worker added kept with refused | ⟨-, accepted⟩
    · rw [refused] at waits
      exact small chunk waits
    · rw [accepted] at waits
      have oldOrNew : chunk ∈ worker.heldChunk ++ worker.audioQueue ∨ chunk = added := by
        simpa [heldChunk, or_assoc] using waits
      rcases oldOrNew with old | rfl
      · exact small chunk old
      · exact admissible
  | requestStop =>
    cases taken
    exact small chunk waits
  | resumeAudioSubmission =>
    obtain ⟨rfl, -⟩ := Prod.mk.inj (Option.some.inj taken)
    change chunk ∈ worker.resumeAudioSubmission.1.heldChunk ++
      worker.resumeAudioSubmission.1.audioQueue at waits
    apply small chunk
    unfold WhisperTranscriptionWorker.resumeAudioSubmission at waits
    split at waits <;> exact waits
  | interrupt => cases calm
  | advance answer => exact small chunk (advance_chunks taken waits)

end Steps

theorem Windowed.window_length {worker : WhisperTranscriptionWorker Sample}
    {reports : List (WorkerOutput Sample)} (valid : Windowed worker reports)
    {window : List Sample × Bool} (member : window ∈ transcribedWindows reports) :
    window.1.length ≤ worker.windowSamples := by
  have cutShort {count : Nat} {window : List Sample × Bool}
      (member : window ∈ (slidingWindows worker.windowSamples worker.stride count
        (acceptedAudio reports)).map (·, false)) : window.1.length ≤ worker.windowSamples := by
    obtain ⟨items, inside, rfl⟩ := List.mem_map.mp member
    exact length_le_of_mem_slidingWindows inside
  cases past : worker.phase.pastFinal with
  | false =>
    obtain ⟨count, cut⟩ := valid.working past
    rw [cut.windows] at member
    exact cutShort member
  | true =>
    obtain ⟨count, windows, _, short⟩ := valid.finished past
    rw [windows] at member
    rcases List.mem_append.mp member with complete | last
    · exact cutShort complete
    · split at last
      · cases last
      · rw [List.mem_singleton.mp last, List.length_drop]
        omega

/-- The worker as `startInferencePipeline` leaves it: constructed and started. -/
def started [Inhabited Sample] (sessionId : Text) (sampleRate : Nat) (settings : WhisperSettings)
    (initialSequence initialProcessedSamples : Nat)
    (room : 2 * max 1 (sampleRate * settings.windowMs / 1000) + sampleRate ≤
      (2 ^ 31 - 1) / shortBytes) : WhisperTranscriptionWorker Sample :=
  (WhisperTranscriptionWorker.new sessionId sampleRate settings initialSequence
    initialProcessedSamples room).start

section Run

variable [Inhabited Sample] {sessionId : Text} {sampleRate : Nat} {settings : WhisperSettings}
variable {initialSequence initialProcessedSamples : Nat}
variable {room : 2 * max 1 (sampleRate * settings.windowMs / 1000) + sampleRate ≤
  (2 ^ 31 - 1) / shortBytes}

theorem windowed_started
    (overlap : sampleRate * settings.overlapMs / 1000 < max 1 (sampleRate * settings.windowMs / 1000)) :
    Windowed (started sessionId sampleRate settings initialSequence initialProcessedSamples room :
      WhisperTranscriptionWorker Sample) [] := by
  refine ⟨⟨rfl, rfl, rfl, by simp [started, start, new]⟩, rfl, ⟨?_, rfl, ?_, ?_⟩, ?_, ?_⟩
  · simpa [started, start, new] using overlap
  · intro _
    simp [started, start, new, DirectPcm16RingBuffer.new]
  · simp [started, start, new]
  · intro _
    refine ⟨0, rfl, ?_, by simp, ?_⟩
    · intro index below
      cases below
    · simp [acceptedAudio, backlog, heldChunk, started, start, new, DirectPcm16RingBuffer.new,
        DirectPcm16RingBuffer.contents]
  · simp [started, start, new, WorkerPhase.pastFinal]

/-- The invariant holds in every state an undisturbed run reaches, and what waits
fits the ring. -/
theorem windowed_of_run {state : WhisperTranscriptionWorker Sample × List (WorkerOutput Sample)}
    (overlap : sampleRate * settings.overlapMs / 1000 < max 1 (sampleRate * settings.windowMs / 1000))
    (run : Reaches (recorded WhisperTranscriptionWorker.step)
      (fun state label => undisturbed state label = true)
      (started sessionId sampleRate settings initialSequence initialProcessedSamples room, [])
      state) :
    Windowed state.1 state.2 ∧ state.1.SmallChunks ∧
      (started sessionId sampleRate settings initialSequence initialProcessedSamples
        room).SameSetup state.1 := by
  induction run with
  | start =>
    refine ⟨windowed_started overlap, ?_, .refl _⟩
    simp [SmallChunks, started, start, new, heldChunk]
  | next earlier calm taken ih =>
    obtain ⟨valid, small, same⟩ := ih
    obtain ⟨more, step, reports⟩ := recorded_eq_some.mp taken
    rw [reports]
    exact ⟨valid.step (unhindered_of_undisturbed calm) (small.ringTakes valid.room _) step,
      small.step calm step, same.trans (step_setup step)⟩

/-- The window and the stride are those of the settings. -/
theorem sizes_of_setup {worker : WhisperTranscriptionWorker Sample}
    (setup : (started sessionId sampleRate settings initialSequence initialProcessedSamples
      room).SameSetup worker) :
    worker.windowSamples = max 1 (sampleRate * settings.windowMs / 1000) ∧
      worker.stride = max 1 (sampleRate * settings.windowMs / 1000) -
        sampleRate * settings.overlapMs / 1000 := by
  have width : worker.windowSamples = max 1 (sampleRate * settings.windowMs / 1000) := by
    rw [setup.windowSamples]
    simp [started, start, new]
  refine ⟨width, ?_⟩
  rw [WhisperTranscriptionWorker.stride, width, setup.overlapSamples]
  simp [started, start, new]

theorem sizes_of_run {state : WhisperTranscriptionWorker Sample × List (WorkerOutput Sample)}
    (overlap : sampleRate * settings.overlapMs / 1000 < max 1 (sampleRate * settings.windowMs / 1000))
    (run : Reaches (recorded WhisperTranscriptionWorker.step)
      (fun state label => undisturbed state label = true)
      (started sessionId sampleRate settings initialSequence initialProcessedSamples room, [])
      state) :
    state.1.windowSamples = max 1 (sampleRate * settings.windowMs / 1000) ∧
      state.1.stride = max 1 (sampleRate * settings.windowMs / 1000) -
        sampleRate * settings.overlapMs / 1000 :=
  sizes_of_setup (windowed_of_run overlap run).2.2

end Run

/-- A thread that has not begun to end and is not asked to stop. -/
def Unasked (worker : WhisperTranscriptionWorker Sample) : Prop :=
  worker.terminating = false ∧ worker.drainStopRequested = false

/-- Only a stop request makes an undisturbed thread begin to end. -/
theorem Unasked.step {worker next : WhisperTranscriptionWorker Sample}
    {reports more : List (WorkerOutput Sample)} (unasked : Unasked worker)
    (valid : Windowed worker reports) {label : WorkerLabel Sample}
    (calm : undisturbed (worker, reports) label = true) (other : label ≠ .requestStop)
    (taken : worker.step label = some (next, more)) : Unasked next := by
  obtain ⟨going, free⟩ := unasked
  cases label with
  | submit chunk =>
    have kept : (worker.submit chunk).evicted = none := by
      simp only [undisturbed, Bool.and_eq_true, Option.isNone_iff_eq_none] at calm
      exact calm.1
    obtain ⟨rfl, _⟩ := Prod.mk.inj (Option.some.inj taken)
    rcases submit_cases worker chunk kept with refused | ⟨_, accepted⟩
    · simpa [refused] using ⟨going, free⟩
    · simpa [accepted] using ⟨going, free⟩
  | requestStop => exact absurd rfl other
  | resumeAudioSubmission =>
    obtain ⟨rfl, _⟩ := Prod.mk.inj (Option.some.inj taken)
    change Unasked worker.resumeAudioSubmission.1
    unfold WhisperTranscriptionWorker.resumeAudioSubmission
    split
    · exact ⟨going, free⟩
    · exact ⟨going, rfl⟩
  | interrupt => cases calm
  | advance answer =>
    rcases advance_control taken with same | ⟨_, requested, _⟩ | ⟨place, _⟩
    · exact ⟨same.terminating.trans going, same.drainStopRequested.trans free⟩
    · simp [free] at requested
    · have flags := valid.flags
      simp [FlagsAgree, place, going] at flags

/-- A worker that has not begun to end still has its thread. -/
theorem Unasked.alive {worker : WhisperTranscriptionWorker Sample}
    {reports : List (WorkerOutput Sample)} (unasked : Unasked worker)
    (valid : Windowed worker reports) : worker.isAlive = true := by
  have flags := valid.flags
  cases place : worker.phase <;> simp_all [FlagsAgree, Unasked, isAlive]

/-- What an undisturbed run from a resumption without stop request keeps. -/
theorem unasked_of_run {start state : WhisperTranscriptionWorker Sample × List (WorkerOutput Sample)}
    (valid : Windowed start.1 start.2) (small : start.1.SmallChunks) (unasked : Unasked start.1)
    (run : Reaches (recorded WhisperTranscriptionWorker.step)
      (fun state label => undisturbed state label = true ∧ label ≠ .requestStop) start state) :
    Windowed state.1 state.2 ∧ state.1.SmallChunks ∧ Unasked state.1 := by
  induction run with
  | start => exact ⟨valid, small, unasked⟩
  | next earlier calm taken ih =>
    obtain ⟨valid, small, unasked⟩ := ih
    obtain ⟨more, step, reports⟩ := recorded_eq_some.mp taken
    rw [reports]
    exact ⟨valid.step (unhindered_of_undisturbed calm.1) (small.ringTakes valid.room _) step,
      small.step calm.1 step, unasked.step valid calm.1 calm.2 step⟩

/-- In every undisturbed run of a started worker, however calls and thread
steps interleave: once the thread has ended, the windows are exactly those of
the accepted audio that fit, then one final window with the rest, and they
cover every sample; the ring is never full; and after an accepted resumption
the thread stays alive until another stop request. -/
theorem windows_cut_accepted_audio [Inhabited Sample] {sessionId : Text} {sampleRate : Nat}
    {settings : WhisperSettings} {initialSequence initialProcessedSamples : Nat}
    {room : 2 * max 1 (sampleRate * settings.windowMs / 1000) + sampleRate ≤
      (2 ^ 31 - 1) / shortBytes}
    {state : WhisperTranscriptionWorker Sample × List (WorkerOutput Sample)}
    (overlap : sampleRate * settings.overlapMs / 1000 < max 1 (sampleRate * settings.windowMs / 1000))
    (run : Reaches (recorded WhisperTranscriptionWorker.step)
      (fun state label => undisturbed state label = true)
      (started sessionId sampleRate settings initialSequence initialProcessedSamples room, [])
      state) :
    let windowSamples := max 1 (sampleRate * settings.windowMs / 1000)
    let stride := windowSamples - sampleRate * settings.overlapMs / 1000
    let audio := acceptedAudio state.2
    (state.1.phase = .ended → ∃ count,
      (∀ index, index < count ↔ index * stride + windowSamples ≤ audio.length) ∧
      transcribedWindows state.2 =
        ((List.range count).map fun index =>
          ((audio.drop (index * stride)).take windowSamples, false)) ++
        (if audio.drop (count * stride) = [] then [] else [(audio.drop (count * stride), true)]) ∧
      ∀ position < audio.length,
        (∃ index < count, index * stride ≤ position ∧ position < index * stride + windowSamples) ∨
          count * stride ≤ position) ∧
    (∀ window ∈ transcribedWindows state.2, window.1.length ≤ windowSamples) ∧
    (∀ chunk, state.1.phase = .appending chunk ∨ state.1.phase = .drainAppending chunk →
      ∃ ring, state.1.pendingAudio.append chunk.bytes chunk.capacity chunk.sampleCount =
        .ok (ring, chunk.sampleCount)) ∧
    (state.1.resumeAudioSubmission.2 = true → ∀ later,
      Reaches (recorded WhisperTranscriptionWorker.step)
        (fun state label => undisturbed state label = true ∧ label ≠ .requestStop)
        (state.1.resumeAudioSubmission.1, state.2 ++ [.resumed]) later →
      later.1.isAlive = true ∧ later.1.terminating = false) := by
  obtain ⟨valid, small, -⟩ := windowed_of_run overlap run
  obtain ⟨width, stride⟩ := sizes_of_run overlap run
  intro windowSamples strideSamples audio
  refine ⟨?_, ?_, ?_, ?_⟩
  · intro ended
    obtain ⟨count, windows, fit, short⟩ := valid.finished (by simp [ended, WorkerPhase.pastFinal])
    rw [width, stride] at windows fit short
    refine ⟨count, lt_count_iff_fits fit short, ?_, ?_⟩
    · rw [windows, slidingWindows, List.map_map]
      rfl
    · intro position _
      exact covered_or_rest (Nat.sub_pos_of_lt overlap) (Nat.sub_le _ _)
  · intro window member
    exact Nat.le_trans (valid.window_length member) (Nat.le_of_eq width)
  · rintro chunk (place | place)
    · have takes := small.ringTakes valid.room (.advance (.result "" false 0))
      obtain ⟨ring, appended, _⟩ := append_succeeds takes place
      exact ⟨ring, appended⟩
    · have flags := valid.flags
      simp [FlagsAgree, place] at flags
  · intro resumed later run
    have unasked : Unasked state.1.resumeAudioSubmission.1 := by
      unfold WhisperTranscriptionWorker.resumeAudioSubmission at resumed ⊢
      split
      · rename_i refused
        simp [refused] at resumed
      · rename_i alive
        simp only [Bool.or_eq_true, not_or, Bool.not_eq_true] at alive
        exact ⟨alive.2, rfl⟩
    have resumedSmall : state.1.resumeAudioSubmission.1.SmallChunks :=
      small.step (rfl : undisturbed (state.1, state.2) .resumeAudioSubmission = true) rfl
    obtain ⟨validLater, -, unaskedLater⟩ :=
      unasked_of_run (valid.resumeAudioSubmission.silent [.resumed] rfl rfl) resumedSmall unasked
        run
    exact ⟨unaskedLater.alive validLater, unaskedLater.1⟩

/-- Samples numbered from `first` on. -/
def numbered (first count : Nat) : PcmChunk Nat := ⟨count, fun index => first + index, count, Nat.le_refl _⟩

/-- A stop taken back and a second one, with chunks that fit no window:
window 4, overlap 2 and seven samples in two chunks. -/
def cutRun : List (WorkerLabel Nat) :=
  let answer := Inference.result "text" false 7
  [.advance answer, .submit (numbered 0 3), .advance answer, .advance answer, .advance answer,
    .requestStop, .advance answer, .resumeAudioSubmission, .submit (numbered 3 4), .advance answer,
    .advance answer, .advance answer, .advance answer, .advance answer, .advance answer,
    .advance answer, .requestStop, .advance answer, .advance answer, .advance answer,
    .advance answer]

def cutStart : WhisperTranscriptionWorker Nat :=
  started [] 4 (.new "small" "base" 1000 500 250 true false) 0 0 (by decide)

def cutEnd : WhisperTranscriptionWorker Nat × List (WorkerOutput Nat) :=
  (executeChecked (recorded WhisperTranscriptionWorker.step) undisturbed (cutStart, []) cutRun).get
    (by rfl)

theorem windows_cut_accepted_audio_run :
    transcribedWindows cutEnd.2 = [([0, 1, 2, 3], false), ([2, 3, 4, 5], false), ([4, 5, 6], true)] ∧
    acceptedAudio cutEnd.2 = [0, 1, 2, 3, 4, 5, 6] ∧
    ∃ count, ∀ index, index < count ↔ index * 2 + 4 ≤ 7 := by
  have run : Reaches (recorded WhisperTranscriptionWorker.step)
      (fun state label => undisturbed state label = true) (cutStart, []) cutEnd :=
    Reaches.of_executeChecked (Option.some_get _).symm
  have holds := windows_cut_accepted_audio (by decide) run
  obtain ⟨count, fits, _⟩ := holds.1 rfl
  exact ⟨rfl, rfl, count, fits⟩

end LocalWhisper.Transcription
