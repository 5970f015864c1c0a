import LocalWhisper.Transcription.Windowing

/-! The event with the final flag: when a worker that was asked to stop publishes
one. -/

namespace LocalWhisper.Transcription

open LocalWhisper.Machine LocalWhisper.Record.Buffer WhisperTranscriptionWorker

variable {Sample : Type}

/-- The transcription events, in the order in which they were published. -/
def publishedEvents (reports : List (WorkerOutput Sample)) : List WhisperTranscriptionEvent :=
  reports.filterMap fun
    | .published event => some event
    | _ => none

@[simp] theorem publishedEvents_append (first second : List (WorkerOutput Sample)) :
    publishedEvents (first ++ second) = publishedEvents first ++ publishedEvents second := by
  simp [publishedEvents]

/-- Exactly one event is final, and it is the last one. -/
def FinalServed (reports : List (WorkerOutput Sample)) : Prop :=
  ((publishedEvents reports).filter (·.finalResult)).length = 1 ∧
    ∀ event ∈ (publishedEvents reports).getLast?, event.finalResult = true

/-- Every window that was transcribed has its event, with the same final flag. -/
def Paired (reports : List (WorkerOutput Sample)) : Prop :=
  (publishedEvents reports).map (·.finalResult) = (transcribedWindows reports).map (·.2)

theorem Paired.append {first second : List (WorkerOutput Sample)} (front : Paired first)
    (back : Paired second) : Paired (first ++ second) := by
  unfold Paired at front back ⊢
  rw [publishedEvents_append, transcribedWindows_append, List.map_append, List.map_append, front,
    back]

section Steps

variable {worker next : WhisperTranscriptionWorker Sample} {more : List (WorkerOutput Sample)}

theorem paired_transcribeNextWindow (finalResult : Bool) (text : String) (speakerChanged : Bool)
    (processingTimeMs : Nat) (after : WorkerPhase Sample) :
    Paired (worker.transcribeNextWindow finalResult
      (.result text speakerChanged processingTimeMs) after).2 := by
  unfold transcribeNextWindow
  simp only
  split
  · rfl
  · split <;> rfl

private theorem paired_windowStep (text : String) (speakerChanged : Bool) (processingTimeMs : Nat)
    (here after : WorkerPhase Sample) :
    Paired (worker.windowStep (.result text speakerChanged processingTimeMs) here after).2 := by
  unfold windowStep
  split
  · exact paired_transcribeNextWindow ..
  · rfl

private theorem paired_finalStep (text : String) (speakerChanged : Bool) (processingTimeMs : Nat) :
    Paired (worker.finalStep (.result text speakerChanged processingTimeMs)).2 := by
  unfold finalStep
  simp only
  split
  · exact paired_transcribeNextWindow ..
  · rfl

private theorem paired_advance {text : String} {speakerChanged : Bool} {processingTimeMs : Nat}
    (works : ∀ message, worker.phase ≠ .failing message)
    (taken : worker.advance (.result text speakerChanged processingTimeMs) = some (next, more)) :
    Paired more := by
  cases place : worker.phase <;> simp only [advance, place] at taken
  case unstarted | ended | stopped => cases taken
  case failing message => exact absurd place (works message)
  case windowing | drainWindowing =>
    obtain ⟨-, rfl⟩ := Prod.mk.inj (Option.some.inj taken)
    exact paired_windowStep ..
  case finishing =>
    obtain ⟨-, rfl⟩ := Prod.mk.inj (Option.some.inj taken)
    exact paired_finalStep ..
  case opening | appending | checking | drainAppending | closing =>
    cases taken
    rfl
  case looping | draining =>
    split at taken <;> cases taken <;> rfl
  case taking =>
    split at taken
    · cases taken
      rfl
    · split at taken <;> cases taken <;> rfl

/-- A step without eviction, interrupt and failure. -/
theorem paired_step {reports : List (WorkerOutput Sample)} (valid : Windowed worker reports)
    {label : WorkerLabel Sample} (calm : unhindered (worker, reports) label = true)
    (taken : worker.step label = some (next, more)) : Paired more := by
  cases label with
  | submit chunk =>
    have kept : (worker.submit chunk).evicted = none := by simpa [unhindered] using calm
    simp only [WhisperTranscriptionWorker.step, kept, Option.toList_none, List.map_nil,
      List.nil_append, Option.some.injEq, Prod.mk.injEq] at taken
    obtain ⟨-, rfl⟩ := taken
    split <;> rfl
  | requestStop =>
    cases taken
    rfl
  | resumeAudioSubmission =>
    obtain ⟨-, rfl⟩ := Prod.mk.inj (Option.some.inj taken)
    split <;> rfl
  | interrupt => cases calm
  | advance answer =>
    cases answer with
    | failure message => cases calm
    | result text speakerChanged processingTimeMs =>
      apply paired_advance _ taken
      intro message failing
      have flags := valid.flags
      simp [FlagsAgree, failing] at flags

end Steps

/-- What remains behind the windows that fit: nothing exactly when the windows do
not overlap and divide the audio. -/
theorem rest_empty_iff {width overlap count length : Nat} (narrow : overlap < width)
    (some : 0 < length) (fit : Fit width (width - overlap) count length)
    (short : length < count * (width - overlap) + width) :
    length ≤ count * (width - overlap) ↔ overlap = 0 ∧ width ∣ length := by
  constructor
  · intro covered
    cases count with
    | zero => omega
    | succ earlier =>
      have last := fit earlier (Nat.lt_succ_self _)
      rw [Nat.succ_mul] at covered
      have disjoint : overlap = 0 := by omega
      refine ⟨disjoint, earlier + 1, ?_⟩
      rw [disjoint, Nat.sub_zero] at covered last
      rw [Nat.mul_comm, Nat.succ_mul]
      omega
  · rintro ⟨rfl, windows, rfl⟩
    rw [Nat.sub_zero, Nat.mul_comm width, ← Nat.succ_mul] at short
    rw [Nat.sub_zero, Nat.mul_comm width]
    exact Nat.mul_le_mul_right _ (Nat.le_of_lt_succ (Nat.lt_of_mul_lt_mul_right short))

/-- The final window serves the final result, and nothing else does. -/
theorem finalServed_iff {reports : List (WorkerOutput Sample)} (paired : Paired reports)
    {windows : List (List Sample)} {rest : List Sample}
    (cut : transcribedWindows reports =
      windows.map (·, false) ++ if rest = [] then [] else [(rest, true)]) :
    FinalServed reports ↔ rest ≠ [] := by
  have flags : (publishedEvents reports).map (·.finalResult) =
      windows.map (fun _ => false) ++ if rest = [] then [] else [true] := by
    rw [paired, cut, List.map_append, List.map_map]
    split <;> rfl
  have finals : ((publishedEvents reports).filter (·.finalResult)).length =
      if rest = [] then 0 else 1 := by
    have marked : (publishedEvents reports).countP (·.finalResult) =
        ((publishedEvents reports).map (·.finalResult)).countP id := by
      rw [List.countP_map]
      rfl
    rw [← List.countP_eq_length_filter, marked, flags, List.countP_append, List.countP_map]
    split <;> simp
  unfold FinalServed
  rw [finals]
  constructor
  · rintro ⟨one, -⟩ empty
    rw [if_pos empty] at one
    cases one
  · intro more
    refine ⟨if_neg more, ?_⟩
    intro event last
    have lastFlag := congrArg List.getLast? flags
    rw [List.getLast?_map, last, if_neg more, List.getLast?_append] at lastFlag
    simpa using lastFlag

theorem setup_of_run {start state : WhisperTranscriptionWorker Sample × List (WorkerOutput Sample)}
    {labels : List (WorkerLabel Sample)}
    (run : execute (recorded WhisperTranscriptionWorker.step) start labels = some state) :
    start.1.SameSetup state.1 := by
  induction labels generalizing start with
  | nil =>
    cases run
    exact .refl _
  | cons label rest ih =>
    obtain ⟨next, taken, remaining⟩ := Option.bind_eq_some_iff.mp run
    obtain ⟨_, stepped, _⟩ := recorded_eq_some.mp taken
    exact (step_setup stepped).trans (ih remaining)

/-- The thread has left its loops by an exception, and no event was final. -/
structure Broken (worker : WhisperTranscriptionWorker Sample)
    (reports : List (WorkerOutput Sample)) : Prop where
  phase : (∃ message, worker.phase = .failing message) ∨ worker.phase = .closing ∨
    worker.phase = .ended
  notFinal : ∀ event ∈ publishedEvents reports, event.finalResult = false

theorem Broken.not_served {worker : WhisperTranscriptionWorker Sample}
    {reports : List (WorkerOutput Sample)} (broken : Broken worker reports) :
    ¬ FinalServed reports := by
  rintro ⟨one, -⟩
  rw [List.filter_eq_nil_iff.mpr] at one
  · cases one
  · intro event member
    rw [broken.notFinal event member]
    exact Bool.false_ne_true

theorem Broken.step {worker next : WhisperTranscriptionWorker Sample}
    {reports more : List (WorkerOutput Sample)} (broken : Broken worker reports)
    {label : WorkerLabel Sample} (calm : unhindered (worker, reports) label = true)
    (taken : worker.step label = some (next, more)) : Broken next (reports ++ more) := by
  have silent (phase : (∃ message, next.phase = .failing message) ∨ next.phase = .closing ∨
      next.phase = .ended) (quiet : publishedEvents more = []) : Broken next (reports ++ more) := by
    refine ⟨phase, ?_⟩
    rw [publishedEvents_append, quiet, List.append_nil]
    exact broken.notFinal
  cases label with
  | submit chunk =>
    have kept : (worker.submit chunk).evicted = none := by simpa [unhindered] using calm
    simp only [WhisperTranscriptionWorker.step, kept, Option.toList_none, List.map_nil,
      List.nil_append, Option.some.injEq, Prod.mk.injEq] at taken
    obtain ⟨rfl, rfl⟩ := taken
    apply silent
    · rcases submit_cases worker chunk kept with refused | ⟨-, accepted⟩
      · rw [refused]
        exact broken.phase
      · rw [accepted]
        exact broken.phase
    · split <;> rfl
  | requestStop =>
    cases taken
    exact silent broken.phase rfl
  | resumeAudioSubmission =>
    obtain ⟨rfl, rfl⟩ := Prod.mk.inj (Option.some.inj taken)
    apply silent
    · change (∃ message, worker.resumeAudioSubmission.1.phase = .failing message) ∨
        worker.resumeAudioSubmission.1.phase = .closing ∨
        worker.resumeAudioSubmission.1.phase = .ended
      unfold WhisperTranscriptionWorker.resumeAudioSubmission
      split <;> exact broken.phase
    · split <;> rfl
  | interrupt => cases calm
  | advance answer =>
    simp only [WhisperTranscriptionWorker.step] at taken
    rcases broken.phase with ⟨message, place⟩ | place | place
    · -- the catch block publishes an event that is not final
      simp only [advance, place, Option.some.injEq, Prod.mk.injEq] at taken
      obtain ⟨rfl, rfl⟩ := taken
      refine ⟨.inr (.inl rfl), fun event member => ?_⟩
      rw [publishedEvents_append, List.mem_append] at member
      rcases member with old | new
      · exact broken.notFinal event old
      · rw [List.mem_singleton.mp new]
        rfl
    · simp only [advance, place, Option.some.injEq, Prod.mk.injEq] at taken
      obtain ⟨rfl, rfl⟩ := taken
      exact silent (.inr (.inr rfl)) rfl
    · simp only [advance, place] at taken
      cases taken

private theorem broken_of_full {worker next : WhisperTranscriptionWorker Sample}
    {reports more : List (WorkerOutput Sample)} (valid : Windowed worker reports)
    (paired : Paired reports) {label : WorkerLabel Sample} (full : ¬ worker.RingTakes label)
    (taken : worker.step label = some (next, more)) : Broken next (reports ++ more) := by
  cases label with
  | advance answer =>
    simp only [RingTakes, not_forall] at full
    obtain ⟨chunk, held, large⟩ := full
    have flags := valid.flags
    have place : worker.phase = .appending chunk := by
      cases place : worker.phase <;> simp_all [heldChunk, FlagsAgree]
    have refused : worker.pendingAudio.append chunk.bytes chunk.capacity chunk.sampleCount =
        .error .full := by
      unfold DirectPcm16RingBuffer.append
      have inside := worker.pendingAudio.sizeInside
      rw [if_neg (Nat.not_lt.mpr chunk.within), dif_pos (by omega)]
    simp only [WhisperTranscriptionWorker.step, advance, place, appendChunk, refused,
      Option.some.injEq, Prod.mk.injEq] at taken
    obtain ⟨rfl, rfl⟩ := taken
    refine ⟨.inl ⟨_, rfl⟩, fun event member => ?_⟩
    rw [List.append_nil] at member
    obtain ⟨count, cut⟩ := valid.working (by rw [place]; rfl)
    have flag : event.finalResult ∈ (publishedEvents reports).map (·.finalResult) :=
      List.mem_map_of_mem member
    rw [paired, cut.windows, List.map_map] at flag
    obtain ⟨window, -, same⟩ := List.mem_map.mp flag
    exact same.symm
  | submit | requestStop | resumeAudioSubmission | interrupt => exact absurd trivial full

theorem broken_of_run {start state : WhisperTranscriptionWorker Sample × List (WorkerOutput Sample)}
    {labels : List (WorkerLabel Sample)} (broken : Broken start.1 start.2)
    (calm : Each (recorded WhisperTranscriptionWorker.step)
      (fun state label => unhindered state label = true) start labels)
    (run : execute (recorded WhisperTranscriptionWorker.step) start labels = some state) :
    Broken state.1 state.2 := by
  induction labels generalizing start with
  | nil =>
    cases run
    exact broken
  | cons label rest ih =>
    obtain ⟨next, taken, remaining⟩ := Option.bind_eq_some_iff.mp run
    obtain ⟨met, later⟩ := (each_cons taken).mp calm
    obtain ⟨more, stepped, reports⟩ := recorded_eq_some.mp taken
    refine ih ?_ later remaining
    rw [reports]
    exact broken.step met stepped

/-- As long as the ring takes every chunk, the windows are cut from the accepted
audio and paired with their events; the first chunk it refuses ends the run. -/
theorem windowed_or_broken {start state : WhisperTranscriptionWorker Sample × List (WorkerOutput Sample)}
    {labels : List (WorkerLabel Sample)} (valid : Windowed start.1 start.2) (paired : Paired start.2)
    (calm : Each (recorded WhisperTranscriptionWorker.step)
      (fun state label => unhindered state label = true) start labels)
    (run : execute (recorded WhisperTranscriptionWorker.step) start labels = some state) :
    start.1.SameSetup state.1 ∧
    (Each (recorded WhisperTranscriptionWorker.step) (fun state label => state.1.RingTakes label)
        start labels ∧ Windowed state.1 state.2 ∧ Paired state.2 ∨
      ¬ Each (recorded WhisperTranscriptionWorker.step)
        (fun state label => state.1.RingTakes label) start labels ∧ Broken state.1 state.2) := by
  induction labels generalizing start with
  | nil =>
    cases run
    exact ⟨.refl _, .inl ⟨trivial, valid, paired⟩⟩
  | cons label rest ih =>
    obtain ⟨next, taken, remaining⟩ := Option.bind_eq_some_iff.mp run
    obtain ⟨met, later⟩ := (each_cons taken).mp calm
    obtain ⟨more, stepped, reports⟩ := recorded_eq_some.mp taken
    rw [each_cons taken]
    by_cases takes : start.1.RingTakes label
    · have nextValid : Windowed next.1 next.2 := by
        rw [reports]
        exact valid.step met takes stepped
      have nextPaired : Paired next.2 := by
        rw [reports]
        exact paired.append (paired_step valid met stepped)
      obtain ⟨same, ends⟩ := ih nextValid nextPaired later remaining
      exact ⟨(step_setup stepped).trans same, ends.imp
        (fun ⟨each, kept⟩ => ⟨⟨takes, each⟩, kept⟩)
        (fun ⟨refused, broken⟩ => ⟨fun each => refused each.2, broken⟩)⟩
    · have broken : Broken next.1 next.2 := by
        rw [reports]
        exact broken_of_full valid paired takes stepped
      refine ⟨?_, .inr ⟨fun each => takes each.1, broken_of_run broken later remaining⟩⟩
      exact (step_setup stepped).trans (setup_of_run remaining)

/-- A run without eviction, interrupt and inference error that ends with some
accepted audio serves the final result exactly when the ring takes every chunk
and the windows overlap or do not divide the accepted audio. -/
theorem final_served_iff [Inhabited Sample] {sessionId : Text} {sampleRate : Nat}
    {settings : WhisperSettings} {initialSequence initialProcessedSamples : Nat}
    {room : 2 * max 1 (sampleRate * settings.windowMs / 1000) + sampleRate ≤
      (2 ^ 31 - 1) / shortBytes}
    {labels : List (WorkerLabel Sample)}
    {state : WhisperTranscriptionWorker Sample × List (WorkerOutput Sample)}
    (overlap : sampleRate * settings.overlapMs / 1000 < max 1 (sampleRate * settings.windowMs / 1000))
    (calm : Each (recorded WhisperTranscriptionWorker.step)
      (fun state label => unhindered state label = true)
      (started sessionId sampleRate settings initialSequence initialProcessedSamples room, [])
      labels)
    (run : execute (recorded WhisperTranscriptionWorker.step)
      (started sessionId sampleRate settings initialSequence initialProcessedSamples room, [])
      labels = some state)
    (ended : state.1.phase = .ended) (some : acceptedAudio state.2 ≠ []) :
    FinalServed state.2 ↔
      Each (recorded WhisperTranscriptionWorker.step) (fun state label => state.1.RingTakes label)
        (started sessionId sampleRate settings initialSequence initialProcessedSamples room, [])
        labels ∧
      (sampleRate * settings.overlapMs / 1000 ≠ 0 ∨
        ¬ max 1 (sampleRate * settings.windowMs / 1000) ∣ (acceptedAudio state.2).length) := by
  have begins : Paired ([] : List (WorkerOutput Sample)) := rfl
  obtain ⟨setup, ⟨each, valid, paired⟩ | ⟨refused, broken⟩⟩ := by
    refine windowed_or_broken ?_ begins calm run
    exact windowed_started overlap
  · obtain ⟨width, stride⟩ := sizes_of_setup setup
    obtain ⟨count, windows, fit, short⟩ := valid.finished (by simp [ended, WorkerPhase.pastFinal])
    rw [width, stride] at windows fit short
    rw [finalServed_iff paired windows, Ne, List.drop_eq_nil_iff,
      rest_empty_iff overlap (List.length_pos_of_ne_nil some) fit short, not_and_or]
    exact ⟨fun rest => ⟨each, rest⟩, fun both => both.2⟩
  · exact ⟨fun served => absurd served broken.not_served, fun both => absurd both.1 refused⟩

instance (worker : WhisperTranscriptionWorker Sample) :
    (label : WorkerLabel Sample) → Decidable (worker.RingTakes label)
  | .advance _ => inferInstanceAs (Decidable (∀ chunk ∈ worker.heldChunk, _))
  | .submit _ | .requestStop | .resumeAudioSubmission | .interrupt => instDecidableTrue

/-- One chunk of three windows, which just fits the ring, then a stop. -/
def wholeRingRun : List (WorkerLabel Nat) :=
  .submit (numbered 0 12) :: .requestStop ::
    List.replicate 14 (.advance (.result "text" false 7))

def wholeRingEnd : WhisperTranscriptionWorker Nat × List (WorkerOutput Nat) :=
  (executeChecked (recorded WhisperTranscriptionWorker.step)
    (fun state label => unhindered state label && decide (state.1.RingTakes label))
    (cutStart, []) wholeRingRun).get (by rfl)

/-- The windows overlap, so that two samples are left for the final one. -/
theorem final_served_iff_wholeRing :
    acceptedAudio wholeRingEnd.2 = List.range 12 ∧ FinalServed wholeRingEnd.2 := by
  have checked : executeChecked (recorded WhisperTranscriptionWorker.step)
      (fun state label => unhindered state label && decide (state.1.RingTakes label))
      (cutStart, []) wholeRingRun = some wholeRingEnd := (Option.some_get _).symm
  have each := Each.of_executeChecked checked
  refine ⟨rfl, (final_served_iff (by decide) (each.weaken ?_) (execute_of_executeChecked checked)
    rfl (by decide)).mpr ⟨each.weaken ?_, .inl (by decide)⟩⟩
  · exact fun state label met => (Bool.and_eq_true_iff.mp met).1
  · exact fun state label met => of_decide_eq_true (Bool.and_eq_true_iff.mp met).2

/-- Windows of four samples without overlap. -/
def quartets : WhisperTranscriptionWorker Nat :=
  started [] 4 (.new "small" "base" 1000 0 250 true false) 0 0 (by decide)

/-- One window of audio, then a stop. -/
def quartetRun : List (WorkerLabel Nat) :=
  .submit (numbered 0 4) :: .requestStop ::
    List.replicate 10 (.advance (.result "text" false 7))

def quartetEnd : WhisperTranscriptionWorker Nat × List (WorkerOutput Nat) :=
  (executeChecked (recorded WhisperTranscriptionWorker.step) undisturbed (quartets, [])
    quartetRun).get (by rfl)

/-- The only window takes all audio, and the stop publishes nothing. -/
theorem exact_window_no_final : ¬ ∀ state : WhisperTranscriptionWorker Nat × List (WorkerOutput Nat),
    Reaches (recorded WhisperTranscriptionWorker.step)
      (fun state label => undisturbed state label = true) (quartets, []) state →
    state.1.phase = .ended → acceptedAudio state.2 ≠ [] → FinalServed state.2 := by
  intro always
  have run : Reaches (recorded WhisperTranscriptionWorker.step)
      (fun state label => undisturbed state label = true) (quartets, []) quartetEnd :=
    Reaches.of_executeChecked (Option.some_get _).symm
  have served := always quartetEnd run rfl (by decide)
  exact absurd served.1 (by decide)

end LocalWhisper.Transcription
