import LocalWhisper.Service.Counters
import LocalWhisper.Service.JsonHandle

/-! Whether the items in the JSON file of a session stay there. A JSON worker
writes the whole file from its own list, which begins empty, so a second worker
of a session takes away what the first one has saved. -/

namespace LocalWhisper.Service

open LocalWhisper.Machine LocalWhisper.Record LocalWhisper.Transcription
open LocalWhisper.TransscriptsJSON World

variable {Sample : Type}

/-- What a JSON thread finds in its file: a worker about to create its writer
nothing, and one with a writer no more than the writer has. -/
structure ItemsOnFile (json : JsonFields) : Prop where
  single : ∀ {first second : Nat}, (json.workers.get first).isAlive = true →
    (json.workers.get second).isAlive = true →
    (json.workers.get first).sessionId = (json.workers.get second).sessionId → first = second
  empty : ∀ address, (json.workers.get address).phase = .opening →
    json.files (json.workers.get address).sessionId = []
  writer : ∀ address items, (json.workers.get address).writer = some items →
    (json.workers.get address).phase.writes = true ∧
      json.files (json.workers.get address).sessionId <+: items

section Files

variable {before after : JsonFields}

theorem ItemsOnFile.of_kept (inv : ItemsOnFile before) (kept : JsonKept before after) :
    ItemsOnFile after := by
  refine ⟨fun {first second} one two same => ?_, fun address place => ?_,
    fun address items wrote => ?_⟩
  · rw [(kept.workers first).alive] at one
    rw [(kept.workers second).alive] at two
    rw [(kept.workers first).sessionId, (kept.workers second).sessionId] at same
    exact inv.single one two same
  · rw [kept.files, (kept.workers address).sessionId]
    exact inv.empty address ((kept.workers address).opening place)
  · rw [(kept.workers address).writer] at wrote
    rw [kept.files, (kept.workers address).sessionId, (kept.workers address).writes]
    exact inv.writer address items wrote

/-- A new worker for a session that nobody writes and whose file is empty. -/
theorem ItemsOnFile.made {session : Text} (inv : ItemsOnFile before)
    (empty : before.files session = [])
    (free : ∀ address, (before.workers.get address).sessionId = session →
      (before.workers.get address).isAlive = false) : ItemsOnFile (madeJson before session) := by
  have alive {address : Nat} (lives : ((madeJson before session).workers.get address).isAlive = true)
      (other : address ≠ before.workers.count) :
      ((before.workers.get address).isAlive = true) := by
    simpa only [madeJson, Objects.create_get_of_ne _ _ other] using lives
  have name {address : Nat} (other : address ≠ before.workers.count) :
      ((madeJson before session).workers.get address).sessionId =
        (before.workers.get address).sessionId := by
    simp only [madeJson, Objects.create_get_of_ne _ _ other]
  have new : (madeJson before session).workers.get before.workers.count =
      (TranscriptionJsonWorker.new session).start := Objects.create_get_new _ _
  refine ⟨fun {first second} one two same => ?_, fun address place => ?_,
    fun address items wrote => ?_⟩
  · by_cases here : first = before.workers.count
    · by_cases there : second = before.workers.count
      · rw [here, there]
      · rw [here, new, name there] at same
        exact Bool.noConfusion ((free second same.symm).symm.trans (alive two there))
    · by_cases there : second = before.workers.count
      · rw [there, new, name here] at same
        exact Bool.noConfusion ((free first same).symm.trans (alive one here))
      · rw [name here, name there] at same
        exact inv.single (alive one here) (alive two there) same
  · by_cases here : address = before.workers.count
    · rw [here, new]
      exact empty
    · rw [name here]
      simp only [madeJson, Objects.create_get_of_ne _ _ here] at place
      exact inv.empty address place
  · by_cases here : address = before.workers.count
    · rw [here, new] at wrote
      cases wrote
    · rw [name here]
      simp only [madeJson, Objects.create_get_of_ne _ _ here] at wrote ⊢
      exact inv.writer address items wrote

/-- What a step of the JSON thread does to the writer and to the file: nothing,
or it saves the items of the writer or more. -/
structure Saves (worker next : TranscriptionJsonWorker) (result : SaveResult)
    (outputs : List JsonOutput) (items : List WhisperTranscriptionEvent) : Prop where
  source : worker.phase = .opening ∧ items = [] ∨ ∃ held, worker.writer = some held ∧ held <+: items
  writer : next.writer = none ∨ next.writer = some items ∧ next.phase.writes = true
  stored : ∀ session files, outputs.foldl (storeItems session) files =
    (TranscriptionJsonWorker.save items result).foldl (storeItems session) files

structure SavesNothing (worker next : TranscriptionJsonWorker) (outputs : List JsonOutput) :
    Prop where
  writer : next.writer = worker.writer
  writes : next.phase.writes = true ∨ worker.phase.writes = false ∨ worker.writer = none
  stored : ∀ session files, outputs.foldl (storeItems session) files = files

section Append

variable {worker after : TranscriptionJsonWorker} {event : WhisperTranscriptionEvent}
variable {result : SaveResult} {next : JsonPhase} {outputs : List JsonOutput}

theorem appendEvent_saves (taken : worker.appendEvent event result next = (after, outputs))
    (writes : next.writes = true) :
    SavesNothing worker after outputs ∨ ∃ items, Saves worker after result outputs items := by
  unfold TranscriptionJsonWorker.appendEvent at taken
  split at taken
  · cases taken
    exact .inl ⟨rfl, .inl writes, fun _ _ => rfl⟩
  · rename_i items held
    split at taken <;> cases taken
    · exact .inl ⟨rfl, .inl writes, fun _ _ => rfl⟩
    · exact .inr ⟨items ++ [event], .inr ⟨items, held, List.prefix_append _ _⟩,
        .inr ⟨rfl, writes⟩, fun _ _ => rfl⟩

theorem appendEvent_frame (taken : worker.appendEvent event result next = (after, outputs)) :
    after.sessionId = worker.sessionId ∧ after.phase = next := by
  unfold TranscriptionJsonWorker.appendEvent at taken
  split at taken
  · cases taken
    exact ⟨rfl, rfl⟩
  · split at taken <;> cases taken <;> exact ⟨rfl, rfl⟩

end Append

private theorem advance_frame {worker next : TranscriptionJsonWorker} {answer : JsonAnswer}
    {outputs : List JsonOutput} (taken : worker.advance answer = some (next, outputs)) :
    next.sessionId = worker.sessionId ∧ next.phase ≠ .opening := by
  cases place : worker.phase <;> simp only [TranscriptionJsonWorker.advance, place] at taken
  case created | ended | stopped => cases taken
  case closing =>
    cases taken
    exact ⟨rfl, by simp⟩
  case opening | looping | appendingText | finishing =>
    split at taken <;> cases taken <;> exact ⟨rfl, by simp⟩
  case taking =>
    split at taken
    · cases taken
      exact ⟨rfl, by simp⟩
    · split at taken <;> cases taken <;> exact ⟨rfl, by simp⟩
  case appending event =>
    have frame := appendEvent_frame (Option.some.inj taken)
    exact ⟨frame.1, by simp [frame.2]⟩
  case draining errorMessage =>
    split at taken
    · cases taken
      exact ⟨rfl, by simp⟩
    · have frame := appendEvent_frame (Option.some.inj taken)
      exact ⟨frame.1, by simp [frame.2]⟩

private theorem advance_saves {worker next : TranscriptionJsonWorker} {answer : JsonAnswer}
    {outputs : List JsonOutput} (taken : worker.advance answer = some (next, outputs)) :
    SavesNothing worker next outputs ∨ ∃ items, Saves worker next answer.save outputs items := by
  cases place : worker.phase <;> simp only [TranscriptionJsonWorker.advance, place] at taken
  case created | ended | stopped => cases taken
  case opening =>
    split at taken <;> cases taken
    · exact .inl ⟨rfl, .inl rfl, fun _ _ => rfl⟩
    · exact .inr ⟨[], .inl ⟨place, rfl⟩, .inr ⟨rfl, rfl⟩, fun _ _ => rfl⟩
  case looping | appendingText =>
    split at taken <;> cases taken <;> exact .inl ⟨rfl, .inl rfl, fun _ _ => rfl⟩
  case taking =>
    split at taken
    · cases taken
      exact .inl ⟨rfl, .inl rfl, fun _ _ => rfl⟩
    · split at taken <;> cases taken <;> exact .inl ⟨rfl, .inl rfl, fun _ _ => rfl⟩
  case appending event =>
    exact appendEvent_saves (Option.some.inj taken) rfl
  case draining errorMessage =>
    split at taken
    · cases taken
      exact .inl ⟨rfl, .inl rfl, fun _ _ => rfl⟩
    · rcases appendEvent_saves (Option.some.inj taken) rfl with nothing | ⟨items, saves⟩
      · exact .inl ⟨nothing.writer, .inl (by rw [(appendEvent_frame (Option.some.inj taken)).2]; rfl),
          nothing.stored⟩
      · refine .inr ⟨items, .inr ?_, saves.writer, saves.stored⟩
        exact saves.source.resolve_left fun opening => JsonPhase.noConfusion opening.1
  case finishing errorMessage =>
    split at taken <;> cases taken
    · rename_i empty
      exact .inl ⟨rfl, .inr (.inr empty), fun _ _ => rfl⟩
    · rename_i items held
      refine .inr ⟨items, .inr ⟨items, held, List.prefix_rfl⟩, .inl rfl, fun session files => ?_⟩
      rw [List.foldl_append]
      split <;> rfl
  case closing =>
    cases taken
    exact .inl ⟨rfl, .inr (.inl (by rw [place]; rfl)), fun _ _ => rfl⟩

theorem save_grows {session : Text} {files : Text → List WhisperTranscriptionEvent}
    {items : List WhisperTranscriptionEvent} {result : SaveResult} (more : files session <+: items)
    (whole : result = .truncated → files session = []) (other : Text) :
    files other <+:
        (TranscriptionJsonWorker.save items result).foldl (storeItems session) files other ∧
      (TranscriptionJsonWorker.save items result).foldl (storeItems session) files session <+:
        items ∧
      (other ≠ session →
        (TranscriptionJsonWorker.save items result).foldl (storeItems session) files other =
          files other) := by
  cases result with
  | kept => exact ⟨List.prefix_rfl, more, fun _ => rfl⟩
  | written =>
    refine ⟨?_, ?_, fun different => if_neg different⟩
    · by_cases same : other = session
      · simpa [TranscriptionJsonWorker.save, storeItems, same] using more
      · simp [TranscriptionJsonWorker.save, storeItems, same]
    · simp [TranscriptionJsonWorker.save, storeItems]
  | truncated =>
    refine ⟨?_, ?_, fun different => if_neg different⟩
    · by_cases same : other = session
      · rw [same, whole rfl]
        exact List.nil_prefix
      · simp [TranscriptionJsonWorker.save, storeItems, same]
    · simp [TranscriptionJsonWorker.save, storeItems]

/-- What a step of a JSON thread does to the files, and what its writer holds
afterwards. -/
structure FilesGrown (session : Text) (next : TranscriptionJsonWorker)
    (before after : Text → List WhisperTranscriptionEvent) : Prop where
  grown : ∀ other, before other <+: after other
  others : ∀ other, other ≠ session → after other = before other
  writer : ∀ items, next.writer = some items →
    next.phase.writes = true ∧ after session <+: items

private theorem advance_grows {worker next : TranscriptionJsonWorker} {answer : JsonAnswer}
    {outputs : List JsonOutput} {files : Text → List WhisperTranscriptionEvent}
    (empty : worker.phase = .opening → files worker.sessionId = [])
    (writer : ∀ items, worker.writer = some items →
      worker.phase.writes = true ∧ files worker.sessionId <+: items)
    (whole : answer.save = .truncated → files worker.sessionId = [])
    (advanced : worker.advance answer = some (next, outputs)) :
    FilesGrown worker.sessionId next files
      (outputs.foldl (storeItems worker.sessionId) files) := by
  rcases advance_saves advanced with nothing | ⟨saved, saves⟩
  · rw [nothing.stored]
    refine ⟨fun _ => List.prefix_rfl, fun _ _ => rfl, fun items held => ?_⟩
    rw [nothing.writer] at held
    obtain ⟨writes, less⟩ := writer items held
    refine ⟨?_, less⟩
    rcases nothing.writes with going | idle | none
    · exact going
    · exact Bool.noConfusion (idle.symm.trans writes)
    · cases none.symm.trans held
  · rw [saves.stored]
    have more : files worker.sessionId <+: saved := by
      rcases saves.source with ⟨opening, rfl⟩ | ⟨held, wrote, longer⟩
      · simp [empty opening]
      · exact (writer held wrote).2.trans longer
    refine ⟨fun other => (save_grows more whole other).1,
      fun other different => (save_grows more whole other).2.2 different, fun items held => ?_⟩
    rcases saves.writer with none | ⟨same, writes⟩
    · rw [none] at held
      cases held
    · rw [same] at held
      cases held
      exact ⟨writes, (save_grows more whole []).2.1⟩

end Files

section Runs

variable {world after : World Sample}

theorem jsonAdvance_grows {address : Nat} {answer : JsonAnswer} (inv : ItemsOnFile world.json)
    (whole : answer.save = .truncated →
      world.json.files (world.json.workers.get address).sessionId = [])
    (taken : world.jsonAdvance address answer = some after) :
    ItemsOnFile after.json ∧ ∀ session, world.json.files session <+: after.json.files session := by
  obtain ⟨⟨next, outputs⟩, advanced, rfl⟩ := Option.map_eq_some_iff.mp taken
  have alive := advance_alive advanced
  obtain ⟨name, begun⟩ := advance_frame advanced
  have effect := advance_grows (inv.empty address) (inv.writer address) whole advanced
  have made : address < world.json.workers.count := by
    apply Objects.lt_count_of_used
    intro created
    unfold TranscriptionJsonWorker.isAlive TranscriptionJsonWorker.workerThread at alive
    rw [created] at alive
    cases alive
  have here := world.json.workers.set_get_self next made
  have there {index : Nat} (other : index ≠ address) :=
    world.json.workers.set_get_of_ne next other
  -- a worker that lives now lived before, under the same name
  have lived {index : Nat} (lives : ((world.json.workers.set address next).get index).isAlive = true) :
      (world.json.workers.get index).isAlive = true ∧
        ((world.json.workers.set address next).get index).sessionId =
          (world.json.workers.get index).sessionId := by
    by_cases same : index = address
    · rw [same, here]
      exact ⟨alive, name⟩
    · rw [there same] at lives ⊢
      exact ⟨lives, rfl⟩
  -- so no other living worker writes the same file
  have apart {index : Nat} (other : index ≠ address)
      (lives : (world.json.workers.get index).isAlive = true) :
      (world.json.workers.get index).sessionId ≠ (world.json.workers.get address).sessionId :=
    fun same => other (inv.single lives alive same)
  refine ⟨⟨fun {first second} one two same => ?_, fun index place => ?_,
    fun index items held => ?_⟩, effect.grown⟩
  · obtain ⟨firstAlive, firstName⟩ := lived one
    obtain ⟨secondAlive, secondName⟩ := lived two
    exact inv.single firstAlive secondAlive (firstName.symm.trans (same.trans secondName))
  · by_cases same : index = address
    · rw [same] at place
      simp only [here] at place
      exact absurd place begun
    · simp only [there same] at place ⊢
      have lives : (world.json.workers.get index).isAlive = true := by
        unfold TranscriptionJsonWorker.isAlive TranscriptionJsonWorker.workerThread
        rw [place]
      rw [effect.others _ (apart same lives)]
      exact inv.empty index place
  · by_cases same : index = address
    · rw [same] at held ⊢
      simp only [here] at held ⊢
      rw [name]
      exact effect.writer items held
    · simp only [there same] at held ⊢
      obtain ⟨writes, less⟩ := inv.writer index items held
      have lives : (world.json.workers.get index).isAlive = true := by
        unfold TranscriptionJsonWorker.isAlive TranscriptionJsonWorker.workerThread
        cases place : (world.json.workers.get index).phase <;> rw [place] at writes <;>
          first | rfl | cases writes
      rw [effect.others _ (apart same lives)]
      exact ⟨writes, less⟩

variable [Inhabited Sample] {label : Label Sample}

/-- A pipeline gets a new JSON worker only for a session whose file is empty and
whom no JSON thread serves, and no save of a file with items breaks off. -/
structure KeepsItems (world : World Sample) (label : Label Sample) : Prop where
  fresh : ∀ session, startsPipeline world label = some session →
    world.json.transcriptionJsonWorker = none → world.json.files session = [] ∧
      ∀ address, (world.json.workers.get address).sessionId = session →
        (world.json.workers.get address).isAlive = false
  whole : ∀ address answer, label = .json address answer → answer.save = .truncated →
    world.json.files (world.json.workers.get address).sessionId = []

theorem step_grows (inv : ItemsOnFile world.json) (meets : KeepsItems world label)
    (taken : step world label = some after) :
    ItemsOnFile after.json ∧ ∀ session, world.json.files session <+: after.json.files session := by
  have unwritten (kept : JsonKept world.json after.json) : ItemsOnFile after.json ∧
      ∀ session, world.json.files session <+: after.json.files session :=
    ⟨inv.of_kept kept, fun _ => kept.files ▸ List.prefix_rfl⟩
  rcases step_json taken with
    asked | ⟨session, starts, free, made⟩ | ⟨address, answer, rfl⟩ | ⟨_, kept, _⟩
  · exact unwritten asked.toJsonKept
  · obtain ⟨empty, idle⟩ := meets.fresh session starts free
    refine ⟨(inv.made empty idle).of_kept made.toJsonKept, fun other => ?_⟩
    exact made.files ▸ List.prefix_rfl
  · exact jsonAdvance_grows inv (meets.whole address answer rfl) taken
  · exact unwritten kept

/-- In a run of such steps the items in the file of a session only grow, from
any state on to any later one. -/
theorem saved_items_kept {before later : World Sample}
    (earlier : Reaches step KeepsItems (initial : World Sample) before)
    (rest : Reaches step KeepsItems before later) (session : Text) :
    before.json.files session <+: later.json.files session := by
  have base : ItemsOnFile (initial : World Sample).json := ⟨nofun, nofun, nofun⟩
  have inv : ItemsOnFile before.json :=
    earlier.invariant base fun inv meets taken => (step_grows inv meets taken).1
  have both : ItemsOnFile later.json ∧ before.json.files session <+: later.json.files session := by
    induction rest with
    | start => exact ⟨inv, List.prefix_rfl⟩
    | next _ meets taken ih =>
      obtain ⟨kept, grown⟩ := step_grows ih.1 meets taken
      exact ⟨kept, ih.2.trans (grown session)⟩
  exact both.2

/-- A state in which no JSON worker was made yet meets the condition. -/
def startsClean (world : World Sample) (label : Label Sample) : Bool :=
  (match startsPipeline world label with
    | none => true
    | some session => world.json.workers.count == 0 && (world.json.files session).isEmpty) &&
  match label with
  | .json _ answer => answer.save != .truncated
  | _ => true

omit [Inhabited Sample] in
theorem KeepsItems.of_clean (clean : startsClean world label = true) : KeepsItems world label := by
  obtain ⟨starts, saves⟩ := Bool.and_eq_true_iff.mp clean
  refine ⟨fun session started _ => ?_, fun address answer here broken => ?_⟩
  · rw [started] at starts
    obtain ⟨none, empty⟩ := Bool.and_eq_true_iff.mp starts
    refine ⟨List.isEmpty_iff.mp empty, fun address _ => ?_⟩
    have count : world.json.workers.count = 0 := by simpa using none
    have unused := world.json.workers.unused address (by omega)
    unfold TranscriptionJsonWorker.isAlive TranscriptionJsonWorker.workerThread
    rw [unused]
  · rw [here] at saves
    simp [broken] at saves

end Runs

/-- The session announced in a quiet environment. -/
def quietSession : Text :=
  sessionId sessionPurpose (newSessionTimeData 0x19f99e5b391 0x317248c70b73)

theorem one_fits : 1 ≤ 8000 := by decide

/-- A session records one sample and drains it. -/
def recordOneSample : List (Label Int) :=
  [.intent (.start none) quietEnvironment,
    .startRecordingInternal quietEnvironment] ++
  List.replicate 8 (.recorder 0 (filledRecorder (fun _ => 0) 1 one_fits)) ++
  [.intent .stopInference quietEnvironment] ++
  advances 0 12

def jsonAdvances (count : Nat) : List (Label Int) :=
  List.replicate count (.json 0 ⟨none, .written⟩)

/-- The result of one sample is saved; its text cannot be appended, which ends
the JSON worker. -/
def saveThenFail : List (Label Int) :=
  .json 0 ⟨some "No space left on device", .written⟩ :: jsonAdvances 3

theorem saved_items_kept_run :
    ∃ before later, Reaches step KeepsItems (initial : World Int) before ∧
      Reaches step KeepsItems before later ∧ (before.json.files quietSession).length = 1 ∧
      before.json.files quietSession <+: later.json.files quietSession := by
  have checked : (executeChecked step startsClean (initial : World Int)
      (recordOneSample ++ jsonAdvances 4)).bind (fun before =>
        (executeChecked step startsClean before saveThenFail).map fun _ =>
          (before.json.files quietSession).length) = some 1 := by decide +kernel
  obtain ⟨before, saved, rest⟩ := Option.bind_eq_some_iff.mp checked
  obtain ⟨later, failed, one⟩ := Option.map_eq_some_iff.mp rest
  have earlier := (Reaches.of_executeChecked saved).weaken fun _ _ => KeepsItems.of_clean
  have remaining := (Reaches.of_executeChecked failed).weaken fun _ _ => KeepsItems.of_clean
  exact ⟨before, later, earlier, remaining, one, saved_items_kept earlier remaining quietSession⟩

/-- The stop event of the failed JSON worker clears the field, and the resumed
inference gets a new one. -/
def resumeWithNewJson : List (Label Int) :=
  saveThenFail ++ [.jsonStopped 0 quietEnvironment] ++ advances 0 1 ++
  [.whisperStopped 0 quietEnvironment,
    .intent .resumeInference quietEnvironment,
    .json 1 ⟨none, .written⟩]

/-- The session is still open, and its file is empty again. -/
theorem saved_items_lost :
    ¬ ∀ before later : World Int, Reachable step (initial : World Int) before →
      Reachable step before later → later.session.sessionActive = true →
      ∀ session, before.json.files session <+: later.json.files session := by
  intro always
  have lost : (execute step (initial : World Int) (recordOneSample ++ jsonAdvances 4)).bind
      (fun before => (execute step before resumeWithNewJson).map fun later =>
        ((before.json.files quietSession).length, later.json.files quietSession,
          later.session.sessionActive)) = some (1, [], true) := by decide +kernel
  obtain ⟨before, saved, rest⟩ := Option.bind_eq_some_iff.mp lost
  obtain ⟨later, resumed, seen⟩ := Option.map_eq_some_iff.mp rest
  obtain ⟨one, both⟩ := Prod.mk.inj seen
  obtain ⟨empty, active⟩ := Prod.mk.inj both
  have kept := always before later (.of_execute saved) (.of_execute resumed) active quietSession
  rw [empty] at kept
  rw [List.prefix_nil.mp kept] at one
  cases one

end LocalWhisper.Service
