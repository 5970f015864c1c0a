import LocalWhisper.Machine.Numbered
import LocalWhisper.Transcription.Windowing

/-! Where the audio of a worker was recorded. A worker counts only the samples
it took; its position is right as long as those follow each other in the
recording. -/

namespace LocalWhisper.Transcription

open LocalWhisper.Machine LocalWhisper.Record.Buffer

variable {Sample : Type}

/-- A place of `run` from which audio can still be transcribed. -/
def WorkerPhase.transcribes : WorkerPhase Sample → Bool
  | .failing _ | .closing | .ended | .stopped => false
  | _ => true

variable {Owner : Type} {place : Sample → Owner × Nat} {owner : Owner}

/-- Numbering a chunk sample by sample numbers it as a whole. -/
theorem PcmChunk.numbered {first : Nat} (chunk : PcmChunk Sample)
    (numbers : ∀ index < chunk.sampleCount, place (chunk.bytes index) = (owner, first + index)) :
    Numbered place owner first chunk.samples := by
  intro index sample found
  unfold PcmChunk.samples at found
  obtain ⟨inside, rfl⟩ := List.getElem?_eq_some_iff.mp found
  rw [getElem_readSpan, Nat.zero_add]
  exact numbers index (by simpa using inside)

namespace WhisperTranscriptionWorker

/-- The audio that the worker may still transcribe was recorded without a gap
from its position on. -/
def InPlace (place : Sample → Owner × Nat) (owner : Owner)
    (worker : WhisperTranscriptionWorker Sample) : Prop :=
  worker.phase.transcribes = true →
    Numbered place owner worker.processedSamples worker.backlog

variable {worker next : WhisperTranscriptionWorker Sample} {answer : Inference}

/-- What a step of the thread does to the audio that is still to be transcribed: it
drops some at the front and moves the position by as much. Its windows are cut from
the front, its events give the position before the step, and it accepts nothing. -/
structure Moves (worker next : WhisperTranscriptionWorker Sample)
    (reports : List (WorkerOutput Sample)) : Prop where
  backlog : next.phase.transcribes = true → worker.phase.transcribes = true ∧
    ∃ dropped ≤ worker.backlog.length,
      next.processedSamples = worker.processedSamples + dropped ∧
        next.backlog = worker.backlog.drop dropped
  windows : ∀ window finalResult, .transcribed window finalResult ∈ reports →
    worker.phase.transcribes = true ∧ window <+: worker.backlog
  events : ∀ event, .published event ∈ reports →
    event.startMs = worker.samplesToMs worker.processedSamples
  quiet : acceptedAudio reports = []

/-- A silent step that leaves the audio where it is. -/
theorem Moves.of_same (works : next.phase.transcribes = true → worker.phase.transcribes = true)
    (processed : next.processedSamples = worker.processedSamples)
    (backlog : next.backlog = worker.backlog) : Moves worker next [] where
  backlog := by
    intro now
    exact ⟨works now, 0, Nat.zero_le _, processed, backlog⟩
  windows := nofun
  events := nofun
  quiet := rfl

/-- A silent step to a place where nothing is transcribed any more. -/
theorem Moves.of_stopped (stopped : next.phase.transcribes = false) : Moves worker next [] where
  backlog := by
    intro now
    rw [stopped] at now
    cases now
  windows := nofun
  events := nofun
  quiet := rfl

theorem moves_appendChunk {chunk : PcmChunk Sample} (works : worker.phase.transcribes = true)
    (held : worker.heldChunk = [chunk]) {after : WorkerPhase Sample}
    (free : ({ worker with phase := after } : WhisperTranscriptionWorker Sample).heldChunk = []) :
    Moves worker (worker.appendChunk chunk after) [] := by
  unfold WhisperTranscriptionWorker.appendChunk
  by_cases fits : worker.pendingAudio.sizeSamples + chunk.sampleCount ≤
      worker.pendingAudio.capacitySamples
  · obtain ⟨ring, appended, contents, _⟩ := worker.pendingAudio.append_contents chunk.bytes
      chunk.capacity chunk.sampleCount chunk.within fits
    rw [appended]
    refine Moves.of_same (fun _ => works) rfl ?_
    have empty : ({ worker with pendingAudio := ring, phase := after } :
        WhisperTranscriptionWorker Sample).heldChunk = [] := free
    simp [backlog, held, empty, contents, PcmChunk.samples]
  · have room : chunk.sampleCount > worker.pendingAudio.capacitySamples -
        worker.pendingAudio.sizeSamples := by
      have inside := worker.pendingAudio.sizeInside
      omega
    have full : worker.pendingAudio.append chunk.bytes chunk.capacity chunk.sampleCount =
        .error .full := by
      rw [DirectPcm16RingBuffer.append, if_neg (Nat.not_lt.mpr chunk.within), dif_pos room]
    rw [full]
    exact Moves.of_stopped rfl

theorem moves_transcribeNextWindow (finalResult : Bool) (works : worker.phase.transcribes = true)
    (held : worker.heldChunk = []) {after : WorkerPhase Sample}
    (free : ({ worker with phase := after } : WhisperTranscriptionWorker Sample).heldChunk = [])
    (inside : worker.windowLength finalResult ≤ worker.pendingAudio.sizeSamples) :
    Moves worker (worker.transcribeNextWindow finalResult answer after).1
      (worker.transcribeNextWindow finalResult answer after).2 := by
  have window := worker.pendingAudio.window_eq_take _ inside
  have front : ∀ count, worker.pendingAudio.contents.take count <+: worker.backlog := fun count =>
    (List.take_prefix _ _).trans (List.prefix_append _ _)
  unfold windowLength at window
  cases answer with
  | failure message =>
    simp only [WhisperTranscriptionWorker.transcribeNextWindow, window]
    refine ⟨fun works => absurd works Bool.false_ne_true, ?_, ?_, rfl⟩
    · intro taken final member
      simp only [List.mem_cons, reduceCtorEq, List.not_mem_nil, or_false, false_or,
        WorkerOutput.transcribed.injEq] at member
      exact ⟨works, member.1 ▸ front _⟩
    · intro event member
      simp at member
  | result text speakerChanged processingTimeMs =>
    by_cases dropped : worker.discardLength finalResult ≤ worker.pendingAudio.sizeSamples
    · obtain ⟨ring, progress, result, contents, _⟩ := worker.transcribeNextWindow_result finalResult
        text speakerChanged processingTimeMs after inside dropped
      rw [result]
      refine ⟨?_, ?_, ?_, rfl⟩
      · intro _
        have empty : ({ worker with
            sequence := worker.sequence + 1
            pendingAudio := ring
            processedSamples := worker.processedSamples + worker.discardLength finalResult
            phase := after } : WhisperTranscriptionWorker Sample).heldChunk = [] := free
        refine ⟨works, worker.discardLength finalResult, ?_, rfl, ?_⟩
        · rw [backlog, List.length_append, DirectPcm16RingBuffer.length_contents]
          omega
        · rw [backlog, empty, backlog, held, contents, List.drop_append_of_le_length]
          simpa using dropped
      · intro taken final member
        simp only [List.mem_cons, reduceCtorEq, List.not_mem_nil, or_false, false_or,
          WorkerOutput.transcribed.injEq] at member
        exact ⟨works, member.1 ▸ front _⟩
      · intro event member
        simp only [List.mem_cons, reduceCtorEq, List.not_mem_nil, or_false, false_or,
          WorkerOutput.published.injEq] at member
        rw [member]
        rfl
    · have outside : worker.pendingAudio.discardFirst (worker.discardLength finalResult) =
          .error .outsideRing := by
        rw [DirectPcm16RingBuffer.discardFirst, if_pos (Nat.lt_of_not_le dropped)]
      unfold discardLength windowLength at outside
      simp only [WhisperTranscriptionWorker.transcribeNextWindow, window, output, outside]
      refine ⟨fun works => absurd works Bool.false_ne_true, ?_, ?_, rfl⟩
      · intro taken final member
        simp only [List.mem_cons, reduceCtorEq, List.not_mem_nil, or_false, false_or,
          WorkerOutput.transcribed.injEq] at member
        exact ⟨works, member.1 ▸ front _⟩
      · intro event member
        simp only [List.mem_cons, reduceCtorEq, List.not_mem_nil, or_false, false_or,
          WorkerOutput.published.injEq] at member
        rw [member]

theorem moves_windowStep (works : worker.phase.transcribes = true) (held : worker.heldChunk = [])
    {here after : WorkerPhase Sample}
    (stay : ({ worker with phase := here } : WhisperTranscriptionWorker Sample).heldChunk = [])
    (leave : ({ worker with phase := after } : WhisperTranscriptionWorker Sample).heldChunk = []) :
    Moves worker (worker.windowStep answer here after).1
      (worker.windowStep answer here after).2 := by
  unfold WhisperTranscriptionWorker.windowStep
  split
  · rename_i full
    simp only [Bool.and_eq_true, decide_eq_true_eq] at full
    exact moves_transcribeNextWindow false works held stay full.1
  · refine Moves.of_same (fun _ => works) rfl ?_
    rw [backlog, leave, backlog, held]

theorem moves_finalStep (works : worker.phase.transcribes = true) (held : worker.heldChunk = []) :
    Moves worker (worker.finalStep answer).1 (worker.finalStep answer).2 := by
  unfold WhisperTranscriptionWorker.finalStep
  simp only
  split
  · exact moves_transcribeNextWindow true works held rfl (Nat.le_refl _)
  · exact Moves.of_stopped rfl

/-- Every step of the thread, by its place in `run`. -/
theorem moves_advance {reports : List (WorkerOutput Sample)}
    (taken : worker.advance answer = some (next, reports)) : Moves worker next reports := by
  cases phase : worker.phase <;> simp only [WhisperTranscriptionWorker.advance, phase] at taken
  case unstarted | ended | stopped => cases taken
  case opening =>
    split at taken <;> cases taken
    · apply Moves.of_same
      · simp [phase, WorkerPhase.transcribes]
      · rfl
      · simp [backlog, heldChunk, phase]
    · exact Moves.of_stopped rfl
  case looping =>
    split at taken <;> cases taken
    all_goals
      apply Moves.of_same
      · simp [phase, WorkerPhase.transcribes]
      · rfl
      · simp [backlog, heldChunk, phase]
  case taking =>
    split at taken
    · cases taken
      exact Moves.of_stopped rfl
    · split at taken <;> cases taken
      all_goals
        rename_i waiting
        apply Moves.of_same
        · simp [phase, WorkerPhase.transcribes]
        · rfl
        · simp [backlog, heldChunk, phase, waiting]
  case draining =>
    split at taken <;> cases taken
    all_goals
      rename_i waiting
      apply Moves.of_same
      · simp [phase, WorkerPhase.transcribes]
      · rfl
      · simp [backlog, heldChunk, phase, waiting]
  case appending chunk | drainAppending chunk =>
    cases taken
    refine moves_appendChunk ?_ ?_ rfl
    · simp [phase, WorkerPhase.transcribes]
    · simp [heldChunk, phase]
  case windowing | drainWindowing =>
    obtain ⟨rfl, rfl⟩ := Prod.mk.inj (Option.some.inj taken)
    refine moves_windowStep ?_ ?_ rfl rfl
    · simp [phase, WorkerPhase.transcribes]
    · simp [heldChunk, phase]
  case checking =>
    simp only [beginTerminationIfDrained, Option.some.injEq, Prod.mk.injEq] at taken
    obtain ⟨rfl, rfl⟩ := taken
    split
    all_goals
      apply Moves.of_same
      · simp [phase, WorkerPhase.transcribes]
      · rfl
      · simp [backlog, heldChunk, phase]
  case finishing =>
    obtain ⟨rfl, rfl⟩ := Prod.mk.inj (Option.some.inj taken)
    refine moves_finalStep ?_ ?_
    · simp [phase, WorkerPhase.transcribes]
    · simp [heldChunk, phase]
  case failing message =>
    cases taken
    refine ⟨fun works => absurd works Bool.false_ne_true, ?_, ?_, rfl⟩
    · intro window final member
      simp at member
    · intro event member
      simp only [List.mem_singleton, WorkerOutput.published.injEq] at member
      rw [member]
      rfl
  case closing =>
    cases taken
    exact Moves.of_stopped rfl

/-- The windows of a step begin at the position of the worker. -/
def WindowsInPlace (place : Sample → Owner × Nat) (owner : Owner) (position : Nat)
    (reports : List (WorkerOutput Sample)) : Prop :=
  ∀ window finalResult, .transcribed window finalResult ∈ reports →
    ∀ sample rest, window = sample :: rest → place sample = (owner, position)

/-- A step of the thread keeps the audio in place and cuts its window at the
position of the worker. -/
theorem InPlace.advance {reports : List (WorkerOutput Sample)}
    (inPlace : InPlace place owner worker)
    (taken : worker.advance answer = some (next, reports)) :
    InPlace place owner next ∧ WindowsInPlace place owner worker.processedSamples reports := by
  have moves := moves_advance taken
  constructor
  · intro now
    obtain ⟨works, dropped, -, processed, backlog⟩ := moves.backlog now
    rw [processed, backlog]
    exact (inPlace works).drop dropped
  · intro window final member sample rest first
    obtain ⟨works, later, split⟩ := moves.windows window final member
    have numbered := inPlace works
    rw [← split, first] at numbered
    exact numbered.head

/-- The audio stays where it is when neither the position nor the backlog moves. -/
theorem InPlace.of_same (inPlace : InPlace place owner worker)
    (processed : next.processedSamples = worker.processedSamples)
    (backlog : next.backlog = worker.backlog)
    (works : next.phase.transcribes = true → worker.phase.transcribes = true) :
    InPlace place owner next := by
  intro now
  rw [processed, backlog]
  exact inPlace (works now)

theorem InPlace.requestStop (inPlace : InPlace place owner worker) :
    InPlace place owner worker.requestStop.1 :=
  inPlace.of_same rfl rfl id

theorem InPlace.resumeAudioSubmission (inPlace : InPlace place owner worker) :
    InPlace place owner worker.resumeAudioSubmission.1 := by
  unfold WhisperTranscriptionWorker.resumeAudioSubmission
  split
  · exact inPlace
  · exact inPlace.of_same rfl rfl id

/-- A chunk that is taken continues the audio of the worker. -/
theorem InPlace.submit {chunk : PcmChunk Sample} {first : Nat} {source : Owner}
    (inPlace : InPlace place owner worker) (kept : (worker.submit chunk).evicted = none)
    (recorded : Numbered place source first chunk.samples)
    (continues : (worker.submit chunk).accepted = true → worker.phase.transcribes = true →
      place (chunk.bytes 0) = (owner, worker.processedSamples + worker.backlog.length)) :
    InPlace place owner (worker.submit chunk).worker := by
  rcases submit_cases worker chunk kept with refused | ⟨_, taken⟩
  · rw [refused]
    exact inPlace
  · rw [taken] at continues ⊢
    intro works
    have follows : Numbered place owner (worker.processedSamples + worker.backlog.length)
        chunk.samples := by
      have here := continues rfl works
      unfold PcmChunk.samples at recorded ⊢
      cases count : chunk.sampleCount with
      | zero => exact .nil
      | succ more =>
        rw [count] at recorded
        exact recorded.shift here
    have same : ({ worker with audioQueue := worker.audioQueue ++ [chunk] } :
        WhisperTranscriptionWorker Sample).backlog = worker.backlog ++ chunk.samples := by
      simp [backlog, heldChunk]
    rw [same]
    exact (inPlace works).append follows

end WhisperTranscriptionWorker

end LocalWhisper.Transcription
