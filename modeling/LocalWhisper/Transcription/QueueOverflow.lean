import LocalWhisper.Transcription.Positions

/-! The start times of the events when the queue may overflow. Every sample
carries its number in the submitted audio, evicted samples included. -/

namespace LocalWhisper.Transcription

open LocalWhisper.Machine LocalWhisper.Record.Buffer WhisperTranscriptionWorker

variable {Sample : Type}

/-- The chunk with its samples numbered from `first` on. -/
def PcmChunk.tag (first : Nat) (chunk : PcmChunk Sample) : PcmChunk (Sample × Nat) :=
  ⟨chunk.capacity, fun index => (chunk.bytes index, first + index), chunk.sampleCount,
    chunk.within⟩

def WorkerLabel.tag (first : Nat) : WorkerLabel Sample → WorkerLabel (Sample × Nat)
  | .submit chunk => .submit (chunk.tag first)
  | .requestStop => .requestStop
  | .resumeAudioSubmission => .resumeAudioSubmission
  | .interrupt => .interrupt
  | .advance answer => .advance answer

/-- A worker over numbered samples, the number of samples submitted so far, and
what each step showed. -/
structure Tracked (Sample : Type) where
  worker : WhisperTranscriptionWorker (Sample × Nat)
  submitted : Nat
  history : List (List (WorkerOutput (Sample × Nat)))

namespace Tracked

def step : Step (Tracked Sample) (WorkerLabel Sample) := fun state label =>
  (state.worker.step (label.tag state.submitted)).map fun (next, reports) =>
    ⟨next, state.submitted + (acceptedAudio reports).length, state.history ++ [reports]⟩

/-- A worker that was constructed at a position and started. -/
def start [Inhabited Sample] (sessionId : Text) (sampleRate : Nat) (settings : WhisperSettings)
    (initialSequence initialProcessedSamples : Nat)
    (room : 2 * max 1 (sampleRate * settings.windowMs / 1000) + sampleRate ≤
      (2 ^ 31 - 1) / shortBytes) : Tracked Sample :=
  ⟨started sessionId sampleRate settings initialSequence initialProcessedSamples room, 0, []⟩

/-- The event of a window gives the time of the window's first sample. -/
def StartsRight (sampleRate position : Nat) (state : Tracked Sample) : Prop :=
  ∀ reports ∈ state.history, ∀ window finalResult event,
    .transcribed window finalResult ∈ reports → .published event ∈ reports →
      ∀ first ∈ window.head?, event.startMs = (position + first.2) * 1000 / sampleRate

/-- A chunk that is taken finds room in the queue. -/
def RoomInQueue (state : Tracked Sample) : WorkerLabel Sample → Prop
  | .submit chunk => state.worker.running = true → state.worker.acceptingAudio = true →
      chunk.sampleCount ≠ 0 → state.worker.audioQueue.length < queueCapacity
  | _ => True

instance (state : Tracked Sample) (label : WorkerLabel Sample) :
    Decidable (RoomInQueue state label) :=
  match label with
  | .submit _ => inferInstanceAs (Decidable (_ → _ → _ → _))
  | .requestStop | .resumeAudioSubmission | .interrupt | .advance _ =>
    inferInstanceAs (Decidable True)

def place (position : Nat) (sample : Sample × Nat) : Unit × Nat := ((), position + sample.2)

/-- The invariant of the runs without an overflow: the audio of the worker ends
with the last sample that was submitted. -/
structure Aligned (sampleRate position : Nat) (state : Tracked Sample) : Prop where
  rate : state.worker.sampleRate = sampleRate
  inPlace : state.worker.InPlace (place position) ()
  ending : state.worker.phase.transcribes = true →
    state.worker.processedSamples + state.worker.backlog.length = position + state.submitted
  starts : state.StartsRight sampleRate position

section Steps

variable {sampleRate position : Nat} {state next : Tracked Sample}

theorem evicted_eq_none {worker : WhisperTranscriptionWorker Sample} {chunk : PcmChunk Sample}
    (room : worker.running = true → worker.acceptingAudio = true → chunk.sampleCount ≠ 0 →
      worker.audioQueue.length < queueCapacity) : (worker.submit chunk).evicted = none := by
  unfold submit
  split
  · rfl
  · rename_i willing
    simp only [Bool.or_eq_true, Bool.not_eq_true', decide_eq_true_eq, not_or,
      Bool.not_eq_false] at willing
    rw [if_pos (room willing.1.1 willing.1.2 willing.2)]

private theorem numbered_tag (position first : Nat) (chunk : PcmChunk Sample) :
    Numbered (place position) () (position + first) (chunk.tag first).samples := by
  apply PcmChunk.numbered
  intro index _
  rw [place, PcmChunk.tag, Nat.add_assoc]

/-- One more step is right when its own reports are. -/
theorem StartsRight.append {worker : WhisperTranscriptionWorker (Sample × Nat)} {submitted : Nat}
    {reports : List (WorkerOutput (Sample × Nat))} (right : StartsRight sampleRate position state)
    (last : ∀ window finalResult event, .transcribed window finalResult ∈ reports →
      .published event ∈ reports → ∀ first ∈ window.head?,
        event.startMs = (position + first.2) * 1000 / sampleRate) :
    StartsRight sampleRate position ⟨worker, submitted, state.history ++ [reports]⟩ := by
  intro listed member
  rcases List.mem_append.mp member with old | new
  · exact right listed old
  · rw [List.mem_singleton.mp new]
    exact last

/-- Calls that leave the audio of the worker alone. -/
theorem Aligned.silent {worker : WhisperTranscriptionWorker (Sample × Nat)}
    {reports : List (WorkerOutput (Sample × Nat))} (aligned : Aligned sampleRate position state)
    (rate : worker.sampleRate = state.worker.sampleRate)
    (processed : worker.processedSamples = state.worker.processedSamples)
    (backlog : worker.backlog = state.worker.backlog)
    (works : worker.phase = state.worker.phase)
    (noWindow : ∀ window finalResult, .transcribed window finalResult ∉ reports) :
    Aligned sampleRate position ⟨worker, state.submitted, state.history ++ [reports]⟩ where
  rate := rate.trans aligned.rate
  inPlace := aligned.inPlace.of_same processed backlog (by rw [works]; exact id)
  ending := by
    intro now
    simp only [processed, backlog]
    exact aligned.ending (works ▸ now)
  starts := aligned.starts.append fun window finalResult _ member =>
    absurd member (noWindow window finalResult)

theorem Aligned.submit (aligned : Aligned sampleRate position state) (chunk : PcmChunk Sample)
    (room : RoomInQueue state (.submit chunk)) (taken : state.step (.submit chunk) = some next) :
    Aligned sampleRate position next := by
  have kept : (state.worker.submit (chunk.tag state.submitted)).evicted = none :=
    evicted_eq_none room
  simp only [Tracked.step, WorkerLabel.tag, WhisperTranscriptionWorker.step, kept,
    Option.toList_none, List.map_nil, List.nil_append, Option.map_some, Option.some.injEq] at taken
  subst taken
  have inPlace := aligned.inPlace.submit kept (numbered_tag position state.submitted chunk)
    fun _ works => by
      rw [aligned.ending works]
      rfl
  rcases submit_cases _ _ kept with refused | ⟨-, accepted⟩
  · rw [refused]
    exact aligned.silent rfl rfl rfl rfl fun _ _ => List.not_mem_nil
  · rw [accepted] at inPlace ⊢
    refine ⟨aligned.rate, inPlace, ?_, ?_⟩
    · intro works
      have before := aligned.ending works
      have longer : ({ state.worker with
          audioQueue := state.worker.audioQueue ++ [chunk.tag state.submitted] } :
            WhisperTranscriptionWorker (Sample × Nat)).backlog =
          state.worker.backlog ++ (chunk.tag state.submitted).samples := by
        simp [backlog, heldChunk]
      simp only [longer, List.length_append, if_true]
      simp only [acceptedAudio, List.flatMap_cons, List.flatMap_nil, List.append_nil]
      omega
    · apply aligned.starts.append
      intro window finalResult event member
      simp at member

theorem Aligned.advance (aligned : Aligned sampleRate position state) {answer : Inference}
    (taken : state.step (.advance answer) = some next) : Aligned sampleRate position next := by
  obtain ⟨⟨worker, reports⟩, stepped, rfl⟩ := Option.map_eq_some_iff.mp taken
  have moves := moves_advance stepped
  obtain ⟨inPlace, windows⟩ := aligned.inPlace.advance stepped
  refine ⟨(advance_setup stepped).sampleRate.trans aligned.rate, inPlace, ?_, ?_⟩
  · intro now
    obtain ⟨works, dropped, inside, processed, backlog⟩ := moves.backlog now
    have before := aligned.ending works
    simp only [processed, backlog, moves.quiet, List.length_drop, List.length_nil]
    omega
  · apply aligned.starts.append
    intro window finalResult event cut published first head
    rw [moves.events event published]
    obtain ⟨rest, split⟩ := List.head?_eq_some_iff.mp head
    have here := windows window finalResult cut first rest split
    have same : position + first.2 = state.worker.processedSamples := (Prod.mk.inj here).2
    rw [same, samplesToMs, aligned.rate]

/-- Every step that does not overflow the queue. -/
theorem Aligned.step (aligned : Aligned sampleRate position state) {label : WorkerLabel Sample}
    (room : RoomInQueue state label) (taken : state.step label = some next) :
    Aligned sampleRate position next := by
  cases label with
  | submit chunk => exact aligned.submit chunk room taken
  | requestStop =>
    cases taken
    exact aligned.silent rfl rfl rfl rfl fun _ _ => List.not_mem_nil
  | resumeAudioSubmission =>
    simp only [Tracked.step, WorkerLabel.tag, WhisperTranscriptionWorker.step, Option.map_some,
      Option.some.injEq] at taken
    subst taken
    unfold WhisperTranscriptionWorker.resumeAudioSubmission
    split
    · exact aligned.silent rfl rfl rfl rfl fun _ _ => List.not_mem_nil
    · exact aligned.silent rfl rfl rfl rfl (by simp)
  | interrupt =>
    cases taken
    exact aligned.silent rfl rfl rfl rfl fun _ _ => List.not_mem_nil
  | advance answer => exact aligned.advance taken

end Steps

/-- In every run in which no chunk meets a full queue, the event of every window gives
the time of its first sample. -/
theorem starts_right_without_overflow [Inhabited Sample] {sessionId : Text} {sampleRate : Nat}
    {settings : WhisperSettings} {initialSequence initialProcessedSamples : Nat}
    {room : 2 * max 1 (sampleRate * settings.windowMs / 1000) + sampleRate ≤
      (2 ^ 31 - 1) / shortBytes} {state : Tracked Sample}
    (run : Reaches step RoomInQueue
      (start sessionId sampleRate settings initialSequence initialProcessedSamples room) state) :
    state.StartsRight sampleRate initialProcessedSamples := by
  have base : Aligned sampleRate initialProcessedSamples
      (start sessionId sampleRate settings initialSequence initialProcessedSamples room :
        Tracked Sample) := by
    refine ⟨rfl, ?_, ?_, nofun⟩
    · intro _
      exact Numbered.nil
    · intro _
      rfl
  have aligned := run.invariant base fun held meets taken => held.step meets taken
  exact aligned.starts

def overlappingSettings : WhisperSettings := .new "small" "base" 1000 250 250 true false

theorem overlapping_room : 2 * max 1 (4 * overlappingSettings.windowMs / 1000) + 4 ≤
    (2 ^ 31 - 1) / shortBytes := by decide

/-- Three chunks in a session that goes on at sample 9, with a stop that is
taken back; the third window fails. -/
def resumedLabels : List (WorkerLabel Nat) :=
  let answer := Inference.result "text" false 7
  [.submit (numbered 0 3), .submit (numbered 3 3)] ++ List.replicate 9 (.advance answer) ++
  [.requestStop, .resumeAudioSubmission, .submit (numbered 6 5)] ++
  List.replicate 7 (.advance answer) ++ [.advance (.failure "decoder"), .advance answer]

def published (state : Tracked Sample) : List (Nat × String) :=
  state.history.flatten.filterMap fun report => match report with
    | .published event => some (event.startMs, event.text)
    | _ => none

theorem starts_right_without_overflow_resumed :
    ∃ state : Tracked Nat, execute step (start [] 4 overlappingSettings 2 9 overlapping_room)
        resumedLabels = some state ∧
      state.published = [(2250, "text"), (3000, "text"), (3750, "")] ∧ state.StartsRight 4 9 := by
  obtain ⟨state, ran, seen⟩ : ∃ state : Tracked Nat, executeChecked step
      (fun state label => decide (RoomInQueue state label))
      (start [] 4 overlappingSettings 2 9 overlapping_room) resumedLabels = some state ∧
        state.published = [(2250, "text"), (3000, "text"), (3750, "")] := ⟨_, rfl, rfl⟩
  have run := (Reaches.of_executeChecked ran).weaken fun _ _ meets => of_decide_eq_true meets
  exact ⟨state, execute_of_executeChecked ran, seen, starts_right_without_overflow run⟩

/-- The check of `StartsRight`, computed. -/
def startsRightCheck (sampleRate position : Nat) (state : Tracked Sample) : Bool :=
  state.history.all fun reports => reports.all fun cut => reports.all fun event =>
    match cut, event with
    | .transcribed window _, .published event =>
      window.head?.all fun first =>
        event.startMs = (position + first.2) * 1000 / sampleRate
    | _, _ => true

theorem StartsRight.check {sampleRate position : Nat} {state : Tracked Sample}
    (right : StartsRight sampleRate position state) :
    state.startsRightCheck sampleRate position = true := by
  refine List.all_eq_true.mpr fun reports member => ?_
  refine List.all_eq_true.mpr fun cut cutHere => ?_
  refine List.all_eq_true.mpr fun event eventHere => ?_
  split
  · rename_i window finalResult event
    rw [Option.all_eq_true]
    intro first head
    exact decide_eq_true (right reports member window finalResult event cutHere eventHere first head)
  · rfl

def quartetSettings : WhisperSettings := .new "small" "base" 1000 0 250 true false

private theorem quartet_room : 2 * max 1 (4 * quartetSettings.windowMs / 1000) + 4 ≤
    (2 ^ 31 - 1) / shortBytes := by decide

/-- Windows of four samples. -/
def quartetStart : Tracked Nat := start [] 4 quartetSettings 0 0 quartet_room

/-- Some chunks of one sample each, then steps of the thread that take four of them. -/
def singles (count : Nat) : List (WorkerLabel Nat) :=
  List.replicate count (.submit (numbered 0 1)) ++
    List.replicate 20 (.advance (.result "text" false 7))

/-- The thread takes its first chunk when 129 have been submitted. -/
def flooded : Tracked Nat :=
  (execute step quartetStart (singles 129)).get (by decide +kernel)

/-- The first of 129 chunks is dropped: the window that begins with the second one is
published as if it began with the first. -/
theorem eviction_shifts_start : ¬ ∀ labels state, execute step quartetStart labels = some state →
    state.StartsRight 4 0 := by
  intro always
  have right := always (singles 129) flooded (Option.some_get _).symm
  exact absurd right.check (by decide +kernel)

end Tracked

end LocalWhisper.Transcription
