import LocalWhisper.Service.InferenceHandle

/-! Whether the counters of one session leak into the next. They are reset when
a session is announced and handed to the first worker of the session; until
then the workers of the session before still write to them. -/

namespace LocalWhisper.Service

open LocalWhisper.Machine LocalWhisper.Record LocalWhisper.Transcription World

variable {Sample : Type}

section Names

theorem digitChar_ne_dash : ∀ digit < 16, digit.digitChar ≠ '-' := by decide

theorem dash_notMem_toDigits (number : Nat) : '-' ∉ Nat.toDigits 16 number := by
  induction number using Nat.strongRecOn with
  | ind number ih =>
    rw [Nat.toDigits_eq_if (by decide)]
    split
    · rename_i small
      exact fun member => digitChar_ne_dash number small (List.mem_singleton.mp member).symm
    · rename_i large
      have smaller : number / 16 < number := Nat.div_lt_self (by omega) (by decide)
      have last := digitChar_ne_dash (number % 16) (Nat.mod_lt number (by decide))
      simp only [List.mem_append, List.mem_singleton, not_or]
      exact ⟨ih _ smaller, last.symm⟩

private theorem cut_at_dash {first second rest remaining : Text} (none : '-' ∉ first)
    (free : '-' ∉ second) (joined : first ++ '-' :: rest = second ++ '-' :: remaining) :
    rest = remaining := by
  rcases List.append_eq_append_iff.mp joined with ⟨between, split, tail⟩ | ⟨between, split, tail⟩
  all_goals
    cases between with
    | nil => simpa [eq_comm] using tail
    | cons head later =>
      have dash : head = '-' := by simpa using congrArg List.head? tail.symm
      subst split
      simp [dash] at none free

/-- Time data as `newSessionTimeData` makes it. -/
def IsTimeData (time : Text) : Prop :=
  ∃ currentTimeMillis nanoTime, time = newSessionTimeData currentTimeMillis nanoTime

theorem Environment.isTimeData (env : Environment) : IsTimeData env.timeData :=
  ⟨_, _, rfl⟩

theorem IsTimeData.count_dash {time : Text} (made : IsTimeData time) : time.count '-' = 1 := by
  obtain ⟨millis, nanos, rfl⟩ := made
  have first := List.count_eq_zero.mpr (dash_notMem_toDigits millis)
  have second := List.count_eq_zero.mpr (dash_notMem_toDigits nanos)
  simp [newSessionTimeData, List.count_append, first, second]

/-- The id of a live session ends in the time data of another only when it is
that session. -/
theorem IsTimeData.unique {time other : Text} (made : IsTimeData time) (same : IsTimeData other)
    (ends : ('-' :: time).isSuffixOf (sessionId sessionPurpose other) = true) : other = time := by
  obtain ⟨front, joined⟩ := List.isSuffixOf_iff_suffix.mp ends
  have purpose : '-' ∉ sessionPurpose := by decide
  have counted := congrArg (List.count '-') joined
  simp only [sessionId, List.count_append, List.count_cons_self, made.count_dash,
    same.count_dash, List.count_eq_zero.mpr purpose] at counted
  have noDash : '-' ∉ front := List.count_eq_zero.mp (by omega)
  exact (cut_at_dash noDash purpose joined).symm

end Names

/-- A live result was published for this session. -/
def Published (results : List (LiveResult Sample)) (session : Text) : Prop :=
  ∃ result ∈ results, result.event.sessionId = session

/-- The first live result of every session has sequence 0 and begins at 0. -/
def StartsAtZero (results : List (LiveResult Sample)) : Prop :=
  ∀ earlier result later, results = earlier ++ result :: later →
    ¬ Published earlier result.event.sessionId →
      result.event.sequence = 0 ∧ result.event.startMs = 0

theorem Published.append {results : List (LiveResult Sample)} {session : Text}
    (published : Published results session) (more : List (LiveResult Sample)) :
    Published (results ++ more) session := by
  obtain ⟨result, member, same⟩ := published
  exact ⟨result, List.mem_append_left _ member, same⟩

theorem StartsAtZero.append {results : List (LiveResult Sample)} (starts : StartsAtZero results)
    {result : LiveResult Sample} (zero : Published results result.event.sessionId ∨
      result.event.sequence = 0 ∧ result.event.startMs = 0) :
    StartsAtZero (results ++ [result]) := by
  intro earlier found later split new
  rcases List.eq_nil_or_concat later with rfl | ⟨front, last, rfl⟩
  · obtain ⟨rfl, final⟩ := List.append_inj' split rfl
    cases final
    exact zero.resolve_left new
  · have inside : results ++ [result] = (earlier ++ found :: front) ++ [last] := by
      simpa using split
    exact starts earlier found front (List.append_inj' inside rfl).1 new

/-- The event that a thread is handling, if it is not in its own loop. -/
def Handling.event : Handling → Option WhisperTranscriptionEvent
  | .idle => none
  | .received event | .passed event | .numbered event | .forwarding event _ => some event

def InferenceThread.mark (thread : InferenceThread Sample) : Text × Nat × Nat :=
  (thread.worker.sessionId, thread.worker.sequence, thread.worker.processedSamples)

/-- While a session is announced the counters are zero, and as long as none of
its events is published every worker of a session counts from zero. -/
structure CountersFresh (world : World Sample) : Prop where
  announced : world.session.pendingRecordingTimeData ≠ none →
    world.session.sessionActive = false ∧ world.inference.nextInferenceSequence = 0 ∧
      world.inference.sessionRecordedSamples = 0
  numbered : world.inference.nextInferenceSequence ≠ 0 → ∃ session,
    world.inference.inferenceSessionId = some session ∧ Published world.inference.results session
  handled : ∀ address event, (world.inference.threads.get address).handling.event = some event →
    Published world.inference.results event.sessionId
  fresh : ∀ address, Published world.inference.results
      (world.inference.threads.get address).worker.sessionId ∨
    (world.inference.threads.get address).worker.sequence = 0 ∧
      (world.inference.threads.get address).worker.processedSamples = 0
  first : StartsAtZero world.inference.results
  same : world.session.sessionActive = true → ∃ session,
    world.session.recordingSessionId = some session ∧
      world.inference.inferenceSessionId = some session
  time : ∀ time, world.session.pendingRecordingTimeData = some time → IsTimeData time
  pipeline : ∀ session, world.inference.inferenceSessionId = some session →
    ∃ time, IsTimeData time ∧ session = sessionId sessionPurpose time

namespace CountersFresh

variable {before after : World Sample}

theorem of_marks (inv : CountersFresh before)
    (pipeline : after.inference.inferenceSessionId = before.inference.inferenceSessionId)
    (sequence : after.inference.nextInferenceSequence = before.inference.nextInferenceSequence)
    (samples : after.inference.sessionRecordedSamples = before.inference.sessionRecordedSamples ∨
      after.session.pendingRecordingTimeData = none)
    (results : after.inference.results = before.inference.results)
    (marks : ∀ address, (after.inference.threads.get address).mark =
      (before.inference.threads.get address).mark)
    (handling : ∀ address event,
      (after.inference.threads.get address).handling.event = some event →
        (before.inference.threads.get address).handling.event = some event)
    (names : NamesKept before.session after.session) : CountersFresh after := by
  have sessionOf (address : Nat) : (after.inference.threads.get address).worker.sessionId =
      (before.inference.threads.get address).worker.sessionId :=
    congrArg Prod.fst (marks address)
  have sequenceOf (address : Nat) : (after.inference.threads.get address).worker.sequence =
      (before.inference.threads.get address).worker.sequence :=
    congrArg (fun mark => mark.2.1) (marks address)
  have processedOf (address : Nat) : (after.inference.threads.get address).worker.processedSamples =
      (before.inference.threads.get address).worker.processedSamples :=
    congrArg (fun mark => mark.2.2) (marks address)
  have announcedBefore (announced : after.session.pendingRecordingTimeData ≠ none) :
      after.session.pendingRecordingTimeData = before.session.pendingRecordingTimeData ∧
        (after.session.sessionActive = true → before.session.sessionActive = true) := by
    rcases names with ⟨same, active⟩ | ⟨gone, _⟩
    · exact ⟨congrArg (fun names => names.2.2) same, active⟩
    · exact absurd (congrArg (fun names => names.2.2) gone) announced
  refine ⟨?_, ?_, ?_, ?_, ?_, ?_, ?_, ?_⟩
  · intro announced
    obtain ⟨time, active⟩ := announcedBefore announced
    obtain ⟨inactive, zero, none⟩ := inv.announced (time ▸ announced)
    refine ⟨?_, sequence.trans zero, (samples.resolve_right announced).trans none⟩
    rw [Bool.eq_false_iff]
    exact fun set => Bool.noConfusion (inactive.symm.trans (active set))
  · rw [sequence, pipeline, results]
    exact inv.numbered
  · intro address event handled
    rw [results]
    exact inv.handled address event (handling address event handled)
  · intro address
    rw [results, sessionOf, sequenceOf, processedOf]
    exact inv.fresh address
  · rw [results]
    exact inv.first
  · intro active
    rw [pipeline]
    rcases names with ⟨same, wasActive⟩ | ⟨_, inactive⟩
    · obtain ⟨session, name, held⟩ := inv.same (wasActive active)
      exact ⟨session, (congrArg Prod.fst same).trans name, held⟩
    · exact Bool.noConfusion (inactive.symm.trans active)
  · intro time announced
    have kept := announcedBefore (fun gone => Option.some_ne_none time (announced.symm.trans gone))
    exact inv.time time (kept.1.symm.trans announced)
  · rw [pipeline]
    exact inv.pipeline

theorem of_kept (inv : CountersFresh before) (kept : PipelineKept before after) :
    CountersFresh after := by
  refine inv.of_marks ?_ ?_ ?_ ?_ ?_ ?_ kept.names
  · rw [kept.fields]
  · rw [kept.fields]
  · left
    rw [kept.fields]
  · rw [kept.fields]
  · intro address
    rcases kept.threads address with same | asked
    · rw [same]
    · rw [asked]
      rfl
  · intro address event handled
    rcases kept.threads address with same | asked
    · rw [← same]
      exact handled
    · rw [asked] at handled
      exact handled

end CountersFresh

section Worker

variable {worker next : WhisperTranscriptionWorker Sample} {answer : Inference}

theorem WhisperTranscriptionWorker.submit_mark (worker : WhisperTranscriptionWorker Sample)
    (chunk : PcmChunk Sample) :
    (worker.submit chunk).worker.sessionId = worker.sessionId ∧
    (worker.submit chunk).worker.sequence = worker.sequence ∧
    (worker.submit chunk).worker.processedSamples = worker.processedSamples := by
  unfold WhisperTranscriptionWorker.submit
  simp only
  split
  · exact ⟨rfl, rfl, rfl⟩
  · split
    · exact ⟨rfl, rfl, rfl⟩
    · split <;> exact ⟨rfl, rfl, rfl⟩

/-- A step publishes one event at the counters of the worker, or it leaves the
counters alone. -/
def PublishesOrKeeps (worker next : WhisperTranscriptionWorker Sample)
    (reports : List (WorkerOutput Sample)) : Prop :=
  liveResult reports = none ∧ next.sequence = worker.sequence ∧
    next.processedSamples = worker.processedSamples ∨
  ∃ result, liveResult reports = some result ∧ result.event.sessionId = worker.sessionId ∧
    result.event.sequence = worker.sequence ∧
    result.event.startMs = worker.samplesToMs worker.processedSamples

theorem transcribeNextWindow_publishes (finalResult : Bool) (place : WorkerPhase Sample) :
    PublishesOrKeeps worker (worker.transcribeNextWindow finalResult answer place).1
      (worker.transcribeNextWindow finalResult answer place).2 := by
  unfold WhisperTranscriptionWorker.transcribeNextWindow
  simp only [WhisperTranscriptionWorker.output]
  split
  · exact .inl ⟨rfl, rfl, rfl⟩
  · split
    · exact .inl ⟨rfl, rfl, rfl⟩
    · split <;> exact .inr ⟨_, rfl, rfl, rfl, rfl⟩

theorem advance_publishes {reports : List (WorkerOutput Sample)}
    (taken : worker.advance answer = some (next, reports)) :
    PublishesOrKeeps worker next reports := by
  have windowed (here after : WorkerPhase Sample) :
      PublishesOrKeeps worker (worker.windowStep answer here after).1
        (worker.windowStep answer here after).2 := by
    unfold WhisperTranscriptionWorker.windowStep
    split
    · exact transcribeNextWindow_publishes ..
    · exact .inl ⟨rfl, rfl, rfl⟩
  have closed : PublishesOrKeeps worker (worker.finalStep answer).1
      (worker.finalStep answer).2 := by
    unfold WhisperTranscriptionWorker.finalStep
    simp only
    split
    · exact transcribeNextWindow_publishes ..
    · exact .inl ⟨rfl, rfl, rfl⟩
  have appended (chunk : PcmChunk Sample) (place : WorkerPhase Sample) :
      PublishesOrKeeps worker (worker.appendChunk chunk place) [] := by
    unfold WhisperTranscriptionWorker.appendChunk
    split <;> exact .inl ⟨rfl, rfl, rfl⟩
  cases place : worker.phase <;>
    simp only [WhisperTranscriptionWorker.advance, place] at taken
  case unstarted | ended | stopped => cases taken
  case opening | looping | draining => split at taken <;> cases taken <;> exact .inl ⟨rfl, rfl, rfl⟩
  case taking =>
    split at taken
    · cases taken
      exact .inl ⟨rfl, rfl, rfl⟩
    · split at taken <;> cases taken <;> exact .inl ⟨rfl, rfl, rfl⟩
  case appending chunk | drainAppending chunk =>
    cases taken
    exact appended _ _
  case windowing | drainWindowing =>
    obtain ⟨rfl, rfl⟩ := Prod.mk.inj (Option.some.inj taken)
    exact windowed _ _
  case checking =>
    simp only [WhisperTranscriptionWorker.beginTerminationIfDrained, Option.some.injEq,
      Prod.mk.injEq] at taken
    obtain ⟨rfl, rfl⟩ := taken
    split <;> exact .inl ⟨rfl, rfl, rfl⟩
  case finishing =>
    obtain ⟨rfl, rfl⟩ := Prod.mk.inj (Option.some.inj taken)
    exact closed
  case failing message =>
    cases taken
    exact .inr ⟨_, rfl, rfl, rfl, rfl⟩
  case closing =>
    cases taken
    exact .inl ⟨rfl, rfl, rfl⟩

end Worker

namespace CountersFresh

variable {world after : World Sample} {address : Nat}

/-- A change to one thread that keeps its mark and takes up no event. -/
theorem setThread (inv : CountersFresh world) (thread : InferenceThread Sample)
    (mark : thread.mark = (world.inference.threads.get address).mark)
    (handling : ∀ event, thread.handling.event = some event →
      (world.inference.threads.get address).handling.event = some event) :
    CountersFresh (world.setThread address thread) := by
  refine inv.of_marks rfl rfl (.inl rfl) rfl ?_ ?_ (.inl ⟨rfl, id⟩)
  · intro index
    exact Objects.set_get_view _ thread address index InferenceThread.mark mark
  · intro index event handled
    simp only [World.setThread, Objects.set_get] at handled
    split at handled
    · rename_i here
      rw [here.1]
      exact handling event handled
    · exact handled

/-- A worker publishes at its own counters, which are zero for the first event
of its session. -/
theorem publish (inv : CountersFresh world) (thread : InferenceThread Sample)
    (result : LiveResult Sample)
    (session : result.event.sessionId = (world.inference.threads.get address).worker.sessionId)
    (sequence : result.event.sequence = (world.inference.threads.get address).worker.sequence)
    (startMs : result.event.startMs = (world.inference.threads.get address).worker.samplesToMs
      (world.inference.threads.get address).worker.processedSamples)
    (same : thread.worker.sessionId = (world.inference.threads.get address).worker.sessionId)
    (handling : thread.handling.event = some result.event) :
    CountersFresh { world with inference := { world.inference with
      threads := world.inference.threads.set address thread
      results := world.inference.results ++ [result] } } := by
  have published : Published (world.inference.results ++ [result]) result.event.sessionId :=
    ⟨result, List.mem_append_right _ (List.mem_singleton_self result), rfl⟩
  refine ⟨inv.announced, ?_, ?_, ?_, ?_, inv.same, inv.time, inv.pipeline⟩
  · intro counted
    obtain ⟨current, held, earlier⟩ := inv.numbered counted
    exact ⟨current, held, earlier.append _⟩
  · intro index event handled
    simp only [Objects.set_get] at handled
    split at handled
    · rw [handling] at handled
      cases handled
      exact published
    · exact (inv.handled index event handled).append _
  · intro index
    simp only [Objects.set_get]
    split
    · left
      rw [same, ← session]
      exact published
    · exact (inv.fresh index).imp (fun earlier => earlier.append _) id
  · apply inv.first.append
    rw [session, sequence, startMs]
    refine (inv.fresh address).imp id ?_
    rintro ⟨zero, none⟩
    rw [zero, none]
    exact ⟨rfl, by simp [WhisperTranscriptionWorker.samplesToMs]⟩

/-- A step of an inference thread, if the event it numbers is one of the
current pipeline and no other session is announced. -/
theorem inferenceAdvance {answer : Inference} (inv : CountersFresh world)
    (clean : ∀ event, (world.inference.threads.get address).handling = .passed event →
      world.session.pendingRecordingTimeData = none ∧
        world.inference.inferenceSessionId = some event.sessionId)
    (taken : world.inferenceAdvance address answer = some after) : CountersFresh after := by
  unfold World.inferenceAdvance at taken
  simp only at taken
  split at taken
  · rename_i idle
    obtain ⟨⟨worker, reports⟩, advanced, rfl⟩ := Option.map_eq_some_iff.mp taken
    have session := (WhisperTranscriptionWorker.advance_setup advanced).sessionId
    rcases advance_publishes advanced with
      ⟨none, sequence, processed⟩ | ⟨result, published, owner, sequence, startMs⟩
    · simp only [none, Option.toList_none, List.append_nil]
      refine inv.setThread ⟨worker, .idle⟩ ?_ nofun
      simp only [InferenceThread.mark, session, sequence, processed]
    · simp only [published, Option.toList_some]
      exact inv.publish ⟨worker, .received result.event⟩ result owner sequence startMs session rfl
  · rename_i event received
    have dropped : CountersFresh (world.setThread address
        { world.inference.threads.get address with handling := .idle }) :=
      inv.setThread _ rfl nofun
    split at taken
    · cases taken
      exact dropped
    · split at taken
      · cases taken
        exact dropped.of_marks rfl rfl (.inl rfl) rfl (fun _ => rfl) (fun _ _ => id)
          (.inl ⟨rfl, id⟩)
      · split at taken <;> cases taken
        · refine inv.setThread _ rfl ?_
          rw [received]
          exact fun _ => id
        · exact dropped
  · rename_i event passed
    cases taken
    obtain ⟨unannounced, current⟩ := clean event passed
    have moved : CountersFresh (world.setThread address
        { world.inference.threads.get address with handling := .numbered event }) := by
      refine inv.setThread _ rfl ?_
      rw [passed]
      exact fun _ => id
    have logged : Published world.inference.results event.sessionId :=
      inv.handled address event (by rw [passed]; rfl)
    exact ⟨fun announced => absurd unannounced announced, fun _ => ⟨_, current, logged⟩,
      moved.handled, moved.fresh, moved.first, moved.same, moved.time, moved.pipeline⟩
  · rename_i event numbered
    cases taken
    refine inv.setThread _ rfl ?_
    rw [numbered]
    exact fun _ => id
  · rename_i event jsonWorker forwarding
    cases taken
    have inference : (world.submitJson jsonWorker event).inference = world.inference := by simp
    have session : (world.submitJson jsonWorker event).session = world.session := by simp
    have submitted : CountersFresh (world.submitJson jsonWorker event) :=
      inv.of_kept (.of_frame inference (by rw [session]; exact id)
        (by rw [session]; exact .inl ⟨rfl, id⟩))
    have shown : CountersFresh ((world.submitJson jsonWorker event).showLiveEvent event) :=
      submitted.of_marks rfl rfl (.inl rfl) rfl (fun _ => rfl) (fun _ _ => id) (.inl ⟨rfl, id⟩)
    have threads : ((world.submitJson jsonWorker event).showLiveEvent event).inference.threads =
        world.inference.threads := by
      change (world.submitJson jsonWorker event).inference.threads = _
      rw [inference]
    refine shown.setThread _ ?_ nofun
    rw [threads]
    rfl

/-- A step of a recorder thread, if it counts nothing while a session is announced. -/
theorem recorderAdvance {answer : RecorderAnswer Sample} (inv : CountersFresh world)
    (clean : ∀ chunk, (world.recorder.workers.get address).phase = .arrived chunk →
      chunk.sampleCount = 0 ∨ world.session.pendingRecordingTimeData = none)
    (taken : world.recorderAdvance address answer = some after) : CountersFresh after := by
  have moved (other : World Sample) (inference : other.inference = world.inference)
      (session : other.session = world.session) : CountersFresh other :=
    inv.of_kept (.of_frame inference (by rw [session]; exact id) (by rw [session]; exact .inl ⟨rfl, id⟩))
  cases place : (world.recorder.workers.get address).phase <;>
    simp only [World.recorderAdvance, place] at taken
  case created | ended | stopped => cases taken
  case reading =>
    split at taken
    · cases taken
      exact moved _ rfl rfl
    · split at taken <;> cases taken
      exact moved _ rfl rfl
  case arrived chunk =>
    cases taken
    refine inv.of_marks rfl rfl ?_ rfl (fun _ => rfl) (fun _ _ => id) (.inl ⟨rfl, id⟩)
    refine (clean chunk place).imp (fun empty => ?_) id
    simp [countChunk, empty]
  case closingFile chunk =>
    cases taken
    exact (inv.of_kept (closeAudioFile_kept world answer.env false)).of_kept
      (.of_frame rfl id (.inl ⟨rfl, id⟩))
  case offering chunk target =>
    cases taken
    have submitted : CountersFresh (world.setThread target { world.inference.threads.get target with
        worker := ((world.inference.threads.get target).worker.submit chunk).worker }) := by
      refine inv.setThread _ ?_ (fun _ => id)
      obtain ⟨session, sequence, processed⟩ :=
        WhisperTranscriptionWorker.submit_mark (world.inference.threads.get target).worker chunk
      simp only [InferenceThread.mark, session, sequence, processed]
    exact submitted.of_kept (.of_frame rfl id (.inl ⟨rfl, id⟩))
  all_goals
    cases taken
    exact moved _ rfl rfl

end CountersFresh

/-- A worker that is started now for the open session counts from zero, or the
session has published something already. -/
def RestartsClean (world : World Sample) : Prop :=
  ∀ session, world.session.recordingSessionId = some session →
    Published world.inference.results session ∨ world.inference.sessionRecordedSamples = 0

namespace CountersFresh

variable [Inhabited Sample] {world : World Sample}

theorem startInferencePipeline (inv : CountersFresh world) (time session : Text)
    (name : world.session.recordingSessionId = some session)
    (clean : Published world.inference.results session ∨
      world.inference.nextInferenceSequence = 0 ∧ world.inference.sessionRecordedSamples = 0)
    (made : ∃ time, IsTimeData time ∧ session = sessionId sessionPurpose time) :
    CountersFresh (world.startInferencePipeline time) := by
  have held : (world.startInferencePipeline time).inference.inferenceSessionId = some session := by
    simp [World.startInferencePipeline, name]
  have worker : (world.pipelineThread session).mark = (session,
      world.inference.nextInferenceSequence, world.inference.sessionRecordedSamples) := rfl
  refine ⟨inv.announced, ?_, ?_, ?_, inv.first, fun _ => ⟨session, name, held⟩, inv.time, ?_⟩
  · intro counted
    refine ⟨session, held, ?_⟩
    rcases clean with published | ⟨zero, _⟩
    · exact published
    · exact absurd zero counted
  · intro address event handled
    simp only [World.startInferencePipeline, Objects.create_get] at handled
    split at handled
    · cases handled
    · exact inv.handled address event handled
  · intro address
    simp only [World.startInferencePipeline, Objects.create_get]
    split
    · rw [name]
      exact clean
    · exact inv.fresh address
  · intro other current
    rw [held] at current
    cases current
    exact made

theorem restart (inv : CountersFresh world) (active : world.session.sessionActive = true)
    (clean : RestartsClean world) (time : Text) :
    CountersFresh (world.startInferencePipeline time) := by
  obtain ⟨session, name, held⟩ := inv.same active
  apply inv.startInferencePipeline time session name
  · rcases clean session name with published | none
    · exact .inl published
    · by_cases zero : world.inference.nextInferenceSequence = 0
      · exact .inr ⟨zero, none⟩
      · obtain ⟨current, same, published⟩ := inv.numbered zero
        rw [held] at same
        cases same
        exact .inl published
  · exact inv.pipeline session held

theorem ensureInferenceAccepting (inv : CountersFresh world) (time : Text)
    (started : world.liveTranscription = none →
      CountersFresh (world.startInferencePipeline time)) :
    CountersFresh (world.ensureInferenceAccepting time).1 := by
  unfold World.ensureInferenceAccepting
  split
  · rename_i none
    exact started none
  · rename_i address live
    split
    · exact inv.of_kept (drainTranscription_kept world address)
    · have resumed : CountersFresh (world.setThread address
          { world.inference.threads.get address with
            worker := (world.inference.threads.get address).worker.resumeAudioSubmission.1 }) := by
        refine inv.setThread _ ?_ (fun _ => id)
        unfold WhisperTranscriptionWorker.resumeAudioSubmission
        split <;> rfl
      exact resumed.of_marks rfl rfl (.inl rfl) rfl (fun _ => rfl) (fun _ _ => id) (.inl ⟨rfl, id⟩)

private theorem accepted_session (inv : CountersFresh world) {time : Text} (made : IsTimeData time)
    (name : world.session.recordingSessionId = some (sessionId sessionPurpose time))
    (accepted : (world.ensureInferenceAccepting time).2 = true) :
    (world.ensureInferenceAccepting time).1.inference.inferenceSessionId =
      some (sessionId sessionPurpose time) := by
  unfold World.ensureInferenceAccepting at accepted ⊢
  split
  · simp [World.startInferencePipeline, name]
  · rename_i address live
    rw [live] at accepted
    cases serves : world.servesSession time with
    | false =>
      simp only [serves, Bool.not_false, if_true] at accepted
      cases accepted
    | true =>
      simp only [Bool.not_true, Bool.false_eq_true, if_false]
      change world.inference.inferenceSessionId = _
      unfold World.servesSession at serves
      cases current : world.inference.inferenceSessionId with
      | none =>
        rw [current] at serves
        cases serves
      | some session =>
        obtain ⟨other, otherMade, rfl⟩ := inv.pipeline session current
        rw [current] at serves
        rw [made.unique otherMade serves]

end CountersFresh

namespace CountersFresh

section Sessions

variable {world : World Sample} {env : Environment}

theorem nameSession (inv : CountersFresh world) {time : Text}
    (announced : world.session.pendingRecordingTimeData = some time) :
    CountersFresh (world.nameSession env) ∧ world.nextSessionTime env = time := by
  have same : world.nextSessionTime env = time := by simp [nextSessionTime, announced]
  obtain ⟨inactive, zero, none⟩ := inv.announced (by simp [announced])
  refine ⟨⟨fun _ => ⟨inactive, zero, none⟩, inv.numbered, inv.handled, inv.fresh, inv.first,
    ?_, ?_, inv.pipeline⟩, same⟩
  · intro active
    exact Bool.noConfusion (inactive.symm.trans active)
  · intro other named
    refine inv.time other (announced.trans ?_)
    rw [← same]
    exact named

/-- The announced session is opened by a pipeline that carries its id. -/
theorem activateSession (inv : CountersFresh world) {session : Text} (time : Text)
    (name : world.session.recordingSessionId = some session)
    (current : world.inference.inferenceSessionId = some session) :
    CountersFresh (world.activateSession time) :=
  ⟨fun announced => absurd rfl announced, inv.numbered, inv.handled, inv.fresh, inv.first,
    fun _ => ⟨session, name, current⟩, nofun, inv.pipeline⟩

theorem onStart (inv : CountersFresh world) (request : Option RecordingRequest) :
    CountersFresh (world.onStart request env) := by
  obtain ⟨session, _, _, inference, _⟩ := readRecordingRequest_frame world request
  have read : CountersFresh (world.readRecordingRequest request) :=
    inv.of_kept (.of_frame inference (by rw [session]; exact id)
      (by rw [session]; exact .inl ⟨rfl, id⟩))
  unfold World.onStart
  simp only
  split
  · exact read.of_kept (.of_frame rfl id (.inl ⟨rfl, id⟩))
  · rename_i closed
    have inactive : (world.readRecordingRequest request).session.sessionActive = false := by
      simpa using closed
    refine ⟨fun _ => ⟨inactive, rfl, rfl⟩, fun counted => absurd rfl counted, read.handled,
      read.fresh, read.first, ?_, ?_, read.pipeline⟩
    · intro active
      exact Bool.noConfusion (inactive.symm.trans active)
    · intro time announced
      cases announced
      exact env.isTimeData

theorem onDestroy (inv : CountersFresh world) : CountersFresh (world.onDestroy env) := by
  have names : (world.onDestroy env).session.names = world.session.names ∧
      (world.onDestroy env).session.sessionActive = false ∧
      (world.onDestroy env).session.inferenceAccepting = false := by
    unfold World.onDestroy
    simp only
    split <;> simp [SessionFields.names]
  obtain ⟨same, inactive, silent⟩ := names
  apply inv.of_kept
  apply PipelineKept.of_frame (onDestroy_frame world env).2.2.1
  · rw [silent]
    exact nofun
  · refine .inl ⟨same, ?_⟩
    rw [inactive]
    exact nofun

end Sessions

variable [Inhabited Sample] {world : World Sample} {env : Environment}

theorem prepareSession (inv : CountersFresh world)
    (announced : world.session.pendingRecordingTimeData.isSome = true) :
    CountersFresh (world.prepareSession env) := by
  obtain ⟨time, pending⟩ := Option.isSome_iff_exists.mp announced
  obtain ⟨named, next⟩ : CountersFresh (world.nameSession env) ∧
      world.nextSessionTime env = time := inv.nameSession pending
  have made := inv.time time pending
  obtain ⟨_, zero, none⟩ := inv.announced (by simp [pending])
  have name : (world.nameSession env).session.recordingSessionId =
      some (sessionId sessionPurpose time) := by
    rw [← next]
    rfl
  have ensured := named.ensureInferenceAccepting time fun _ =>
    named.startInferencePipeline time _ name (.inr ⟨zero, none⟩) ⟨time, made, rfl⟩
  have cases := world.prepareSession_cases env
  rw [next] at cases
  rcases cases with ⟨_, waits⟩ | ⟨_, ready, prepared, _, given⟩ |
    ⟨accepted, ready, bufferSize, prepared, _, _, opened⟩
  · rw [waits]
    exact ensured.of_kept (.of_frame rfl id (.inl ⟨rfl, id⟩))
  · rw [given]
    have kept : PipelineKept _ ready := .of_frame prepared.inference
      (by rw [prepared.session]; exact id) (by rw [prepared.session]; exact .inl ⟨rfl, id⟩)
    exact ensured.of_kept (kept.trans (stopInferenceIfNotRecording_kept ready))
  · rw [opened]
    have kept : PipelineKept _ ready := .of_frame prepared.inference
      (by rw [prepared.session]; exact id) (by rw [prepared.session]; exact .inl ⟨rfl, id⟩)
    have core := (world.nameSession env).ensureInferenceAccepting_core time
    have held : ready.session.recordingSessionId = some (sessionId sessionPurpose time) := by
      rw [prepared.session, ← name]
      exact congrArg SessionCore.recordingSessionId core
    have current := named.accepted_session made name accepted
    rw [← prepared.inference] at current
    exact ((ensured.of_kept kept).activateSession time held current).of_kept
      (openSession_kept ready env time bufferSize)

/-- `startRecordingInternal`, if it prepares only sessions that were announced. -/
theorem startRecordingInternal (inv : CountersFresh world)
    (clean : world.preparesSession env = true →
      world.session.pendingRecordingTimeData.isSome = true) :
    CountersFresh (world.startRecordingInternal env) := by
  rcases world.startRecordingInternal_cases env with
    ⟨prepares, eq⟩ | ⟨_, start, message, eq⟩ | ⟨_, _, _, _, setup, screen, message, reason, _, eq⟩
  · rw [eq]
    have loaded : CountersFresh (world.loadSettings env) :=
      inv.of_kept (.of_frame rfl id (.inl ⟨rfl, id⟩))
    exact loaded.prepareSession (clean prepares)
  · rw [eq]
    exact inv.of_kept (.of_frame rfl id (.inl ⟨rfl, id⟩))
  · rw [eq]
    exact inv.of_kept (.of_frame rfl nofun (.inr ⟨rfl, rfl⟩))

theorem requestResumeInference (inv : CountersFresh world)
    (clean : world.session.sessionActive = true → world.liveTranscription = none →
      RestartsClean world) :
    CountersFresh world.requestResumeInference := by
  unfold World.requestResumeInference
  split
  · exact inv.of_kept (.of_frame rfl id (.inl ⟨rfl, id⟩))
  · rename_i open_
    have active : world.session.sessionActive = true := by simpa using open_
    have asked : CountersFresh { world with pending := { world.pending with
        pendingInferenceResume := true } } := inv.of_kept (.of_frame rfl id (.inl ⟨rfl, id⟩))
    have ensured := asked.ensureInferenceAccepting (world.session.recordingTimeData.getD [])
      fun dead => asked.restart active (clean active dead) _
    simp only
    split <;> exact ensured.of_kept (.of_frame rfl id (.inl ⟨rfl, id⟩))

theorem onWhisperStopped (inv : CountersFresh world) (event : ThreadStoppedEvent)
    (clean : world.pending.pendingInferenceResume = true → world.session.sessionActive = true →
      RestartsClean world) :
    CountersFresh (world.onWhisperStopped event) := by
  have cleared : CountersFresh { world with
      inference := { world.inference with
        inferenceFailed := world.inference.inferenceFailed || event.hasError
        whisperThreadStopped := true
        transcriptionWorker := none }
      session := { world.session with inferenceAlive := false, inferenceAccepting := false } } :=
    inv.of_marks rfl rfl (.inl rfl) rfl (fun _ => rfl) (fun _ _ => id) (.inl ⟨rfl, id⟩)
  unfold World.onWhisperStopped
  simp only
  split
  · exact cleared.of_kept (requestJsonThreadStop_kept _)
  · split
    · rename_i resumed
      obtain ⟨pending, active⟩ := Bool.and_eq_true_iff.mp resumed
      have waiting : CountersFresh { world with
          inference := { world.inference with
            inferenceFailed := world.inference.inferenceFailed || event.hasError
            whisperThreadStopped := true
            transcriptionWorker := none }
          session := { world.session with inferenceAlive := false, inferenceAccepting := false }
          pending := { world.pending with pendingInferenceResume := false } } :=
        cleared.of_kept (.of_frame rfl id (.inl ⟨rfl, id⟩))
      have restarted := waiting.restart active (clean pending active)
        (world.session.recordingTimeData.getD [])
      exact restarted.of_kept (.of_frame rfl id (.inl ⟨rfl, id⟩))
    · exact cleared.of_kept (.of_frame rfl id (.inl ⟨rfl, id⟩))

end CountersFresh

/-- No counter takes up what belongs to another session: nothing is counted and
no event is numbered while a session is announced, events are numbered for the
current pipeline, only announced sessions are opened, and inside a session a
new worker is started before any sample was counted or after an event was
published. -/
def CountersClean (world : World Sample) : Label Sample → Prop
  | .recorder address _ => ∀ chunk,
    (world.recorder.workers.get address).phase = .arrived chunk →
      chunk.sampleCount = 0 ∨ world.session.pendingRecordingTimeData = none
  | .inference address _ => ∀ event,
    (world.inference.threads.get address).handling = .passed event →
      world.session.pendingRecordingTimeData = none ∧
        world.inference.inferenceSessionId = some event.sessionId
  | .startRecordingInternal env => world.preparesSession env = true →
    world.session.pendingRecordingTimeData.isSome = true
  | .intent .resumeInference _ => world.session.sessionActive = true →
    world.liveTranscription = none → RestartsClean world
  | .whisperStopped _ _ => world.pending.pendingInferenceResume = true →
    world.session.sessionActive = true → RestartsClean world
  | _ => True

section Runs

variable [Inhabited Sample] {world after : World Sample} {label : Label Sample}

theorem onStartCommand_fresh (inv : CountersFresh world) (action : Intent) (env : Environment)
    (meets : CountersClean world (.intent action env)) :
    CountersFresh (world.onStartCommand action env) := by
  cases action with
  | start request => exact inv.onStart request
  | stop => exact inv.of_kept (requestStopRecording_kept world env)
  | pauseRecording => exact inv.of_kept (requestPauseRecording_kept world env)
  | resumeRecording => exact inv.of_kept (requestResumeRecording_kept world env)
  | stopFileTranscription => exact inv.of_kept (requestStopFileTranscription_kept world)
  | stopInference => exact inv.of_kept (requestStopInference_kept world)
  | resumeInference => exact inv.requestResumeInference meets
  | transcribeFile uri => exact inv.of_kept (enqueueSelectedFile_kept world env uri)

private theorem whisperStopped_fresh {address : Nat} {env : Environment} (inv : CountersFresh world)
    (meets : CountersClean world (.whisperStopped address env))
    (taken : world.whisperStopped address env = some after) : CountersFresh after := by
  have retired : CountersFresh (world.retireThread address) := inv.setThread _ rfl fun _ => id
  obtain ⟨_, ⟨_, rfl⟩ | ⟨_, rfl⟩⟩ := whisperStopped_cases taken
  · exact retired.onWhisperStopped _ meets
  · exact retired

private theorem step_fresh (inv : CountersFresh world) (meets : CountersClean world label)
    (taken : step world label = some after) : CountersFresh after := by
  cases label with
  | intent action env =>
    simp only [step] at taken
    split at taken <;> cases taken
    exact onStartCommand_fresh inv action env meets
  | startRecordingInternal env =>
    simp only [step] at taken
    split at taken <;> cases taken
    have entered : CountersFresh { world with life := { world.life with
        startThreads := world.life.startThreads - 1 } } :=
      inv.of_kept (.of_frame rfl id (.inl ⟨rfl, id⟩))
    exact entered.startRecordingInternal meets
  | projectionStopped env =>
    simp only [step] at taken
    split at taken
    · cases taken
    · split at taken <;> cases taken
      · exact inv.of_kept
          (.prepend (requestStopRecording_kept _ env) rfl id (.inl ⟨rfl, id⟩))
      · exact inv
  | destroy env =>
    simp only [step] at taken
    split at taken <;> cases taken
    exact inv.onDestroy
  | recorder address answer => exact inv.recorderAdvance meets taken
  | recorderThrows address message =>
    simp only [step] at taken
    split at taken <;> cases taken
    exact inv.of_kept (.of_frame rfl id (.inl ⟨rfl, id⟩))
  | recordStopped address env =>
    have moved : PipelineKept world (world.moveRecorder address .stopped) :=
      .of_frame rfl id (.inl ⟨rfl, id⟩)
    obtain ⟨_, ⟨_, rfl⟩ | ⟨_, rfl⟩⟩ := recordStopped_cases taken
    · exact inv.of_kept (moved.trans (finishRecordThread_kept _ env))
    · exact inv.of_kept moved
  | inference address answer => exact inv.inferenceAdvance meets taken
  | whisperStopped address env => exact whisperStopped_fresh inv meets taken
  | json address answer =>
    have frame := jsonAdvance_frame taken
    exact inv.of_kept (.of_frame frame.2.2.2.1 (by rw [frame.1]; exact id)
      (by rw [frame.1]; exact .inl ⟨rfl, id⟩))
  | jsonStopped address env =>
    have retired : PipelineKept world (world.retireJson address) :=
      .of_frame rfl id (.inl ⟨rfl, id⟩)
    obtain ⟨_, ⟨_, rfl⟩ | ⟨_, rfl⟩⟩ := jsonStopped_cases taken
    · exact inv.of_kept (.prepend (finishIdleWorkIfPossible_kept _) rfl id (.inl ⟨rfl, id⟩))
    · exact inv.of_kept retired
  | file address report =>
    have frame := fileAdvance_frame taken
    exact inv.of_kept (.of_frame frame.2.2.2.1 (by rw [frame.1]; exact id)
      (by rw [frame.1]; exact .inl ⟨rfl, id⟩))
  | fileComplete address =>
    simp only [step, fileComplete] at taken
    split at taken <;> cases taken
    exact inv.of_kept
      (.prepend (onRetranscriptionComplete_kept _) rfl id (.inl ⟨rfl, id⟩))

private theorem initial_fresh : CountersFresh (initial : World Sample) := by
  refine ⟨fun announced => absurd rfl announced, fun counted => absurd rfl counted, nofun,
    fun _ => .inr ⟨rfl, rfl⟩, ?_, nofun, nofun, nofun⟩
  intro earlier result later split
  cases earlier <;> cases split

/-- In a run of clean steps START's reset lasts until the session it announced
is opened, every worker of a session without a result counts from zero, and so
does the first result of every session. -/
theorem session_counters_fresh (run : Reaches step CountersClean (initial : World Sample) world) :
    (world.session.pendingRecordingTimeData ≠ none →
      world.inference.nextInferenceSequence = 0 ∧ world.inference.sessionRecordedSamples = 0) ∧
    (∀ address, ¬ Published world.inference.results
        (world.inference.threads.get address).worker.sessionId →
      (world.inference.threads.get address).worker.sequence = 0 ∧
        (world.inference.threads.get address).worker.processedSamples = 0) ∧
    StartsAtZero world.inference.results := by
  have inv := run.invariant initial_fresh fun inv meets taken => step_fresh inv meets taken
  refine ⟨fun announced => (inv.announced announced).2, fun address new => ?_, inv.first⟩
  exact (inv.fresh address).resolve_left new

end Runs

/-- The next read fills a chunk with the first of these samples. -/
def filledRecorder (bytes : Nat → Sample) (count : Nat) (fits : count ≤ 8000) :
    RecorderAnswer Sample :=
  { read := some ⟨8000, bytes, count, fits⟩, stoppedAfter := none, env := quietEnvironment }

theorem sixteen_fit : 16 ≤ 8000 := by decide

/-- A session records and is stopped; when its pipeline has ended, the next one
is announced and records as well. -/
def recordTwoSessions : List (Label Int) :=
  [.intent (.start none) quietEnvironment,
    .startRecordingInternal quietEnvironment] ++
  List.replicate 8 (.recorder 0 (filledRecorder (fun _ => 0) 16 sixteen_fit)) ++
  [.intent .stop quietEnvironment,
    .recorder 0 quietRecorder,
    .recorder 0 quietRecorder,
    .recordStopped 0 quietEnvironment] ++
  advances 0 13 ++
  [.whisperStopped 0 quietEnvironment,
    .intent (.start none) { quietEnvironment with nanoTime := 0 },
    .startRecordingInternal { quietEnvironment with nanoTime := 0 }] ++
  List.replicate 8 (.recorder 1 (filledRecorder (fun _ => 0) 16 sixteen_fit)) ++
  [.intent .stopInference quietEnvironment] ++
  advances 1 12

/-- A check that is enough for `CountersClean`. -/
def countersCleanCheck (world : World Int) : Label Int → Bool
  | .recorder _ _ => world.session.pendingRecordingTimeData.isNone
  | .inference address _ => match (world.inference.threads.get address).handling with
    | .passed event => world.session.pendingRecordingTimeData.isNone &&
        decide (world.inference.inferenceSessionId = some event.sessionId)
    | _ => true
  | .startRecordingInternal _ => world.session.pendingRecordingTimeData.isSome
  | .whisperStopped _ _ => !world.pending.pendingInferenceResume
  | .intent .resumeInference _ => false
  | _ => true

private theorem countersClean_of_check {world : World Int} {label : Label Int}
    (checked : countersCleanCheck world label = true) : CountersClean world label := by
  cases label with
  | recorder address answer =>
    exact fun _ _ => .inr (Option.isNone_iff_eq_none.mp checked)
  | inference address answer =>
    intro event passed
    simpa [countersCleanCheck, passed] using checked
  | startRecordingInternal env => exact fun _ => checked
  | whisperStopped address env =>
    intro pending
    simp [countersCleanCheck, pending] at checked
  | intent action env =>
    cases action with
    | resumeInference => cases checked
    | _ => trivial
  | _ => trivial

theorem session_counters_fresh_run :
    ∃ world, Reaches step CountersClean (initial : World Int) world ∧
      (world.inference.results.map fun result =>
        (result.event.sequence, result.event.startMs)) = [(0, 0), (0, 0)] ∧
      StartsAtZero world.inference.results := by
  have checked : (executeChecked step countersCleanCheck (initial : World Int)
      recordTwoSessions).map (fun world => world.inference.results.map fun result =>
        (result.event.sequence, result.event.startMs)) = some [(0, 0), (0, 0)] := by
    decide +kernel
  obtain ⟨world, result, seen⟩ := Option.map_eq_some_iff.mp checked
  have run : Reaches step CountersClean (initial : World Int) world :=
    (Reaches.of_executeChecked result).weaken fun _ _ => countersClean_of_check
  exact ⟨world, run, seen, (session_counters_fresh run).2.2⟩

/-- A session is stopped while its recorder still holds a chunk, and the next
one is announced before that chunk is counted. -/
def chunkAfterStart : List (Label Int) :=
  [.intent (.start none) quietEnvironment,
    .startRecordingInternal quietEnvironment] ++
  List.replicate 3 (.recorder 0 (filledRecorder (fun _ => 0) 16 sixteen_fit)) ++
  [.intent .stop quietEnvironment,
    .intent (.start none) { quietEnvironment with nanoTime := 0 }] ++
  List.replicate 6 (.recorder 0 (filledRecorder (fun _ => 0) 16 sixteen_fit)) ++
  [.recordStopped 0 quietEnvironment] ++
  advances 0 7 ++
  [.whisperStopped 0 quietEnvironment,
    .startRecordingInternal { quietEnvironment with nanoTime := 0 }] ++
  List.replicate 8 (.recorder 1 (filledRecorder (fun _ => 0) 1 (by decide))) ++
  [.intent .stopInference quietEnvironment] ++
  advances 1 12

/-- The next session begins with the sample of the one before. -/
theorem session_counters_leak :
    ¬ ∀ world, Reachable step (initial : World Int) world →
      StartsAtZero world.inference.results := by
  intro always
  have leaked : (execute step (initial : World Int) chunkAfterStart).map (fun world =>
      world.inference.results.map fun result => result.event.startMs) = some [1] := by decide +kernel
  obtain ⟨world, run, seen⟩ := Option.map_eq_some_iff.mp leaked
  obtain ⟨result, single, late⟩ := List.map_eq_singleton_iff.mp seen
  have zero := always world (.of_execute run) [] result [] single nofun
  rw [late] at zero
  exact Nat.one_ne_zero zero.2

end LocalWhisper.Service
