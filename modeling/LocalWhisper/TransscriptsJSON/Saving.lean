import LocalWhisper.Machine.Run
import LocalWhisper.TranscriptionText.Repository
import LocalWhisper.TransscriptsJSON.Worker

/-! One JSON worker with the thread that submits to it, the thread that stops it
and the files it writes. Every read or write of a shared field is a step. -/

namespace LocalWhisper.TransscriptsJSON

open LocalWhisper.Machine LocalWhisper.TranscriptionText

/-- Where the producer stands in `submit`. -/
inductive Submission where
  | idle
  /-- before the fields and the event are tested -/
  | entered (event : WhisperTranscriptionEvent)
  /-- the first `eventQueue.offer` -/
  | offering (event : WhisperTranscriptionEvent)
  /-- `eventQueue.poll` on a full queue -/
  | evicting (event : WhisperTranscriptionEvent)
  /-- the second `eventQueue.offer` -/
  | retrying (event : WhisperTranscriptionEvent)
  deriving DecidableEq, Repr

/-- Where the stopping thread stands in `requestStop`. -/
inductive StopRequest where
  | notCalled
  /-- `running` is false and `workerThread` not yet read -/
  | flagged
  /-- before `thread.interrupt()` -/
  | interrupting
  | returned
  deriving DecidableEq, Repr

structure Saving where
  /-- the fields of the writer, as its constructor will set them -/
  header : TranscriptionJsonWriter
  worker : TranscriptionJsonWorker
  submission : Submission
  stopRequest : StopRequest
  files : TranscriptionFiles
  /-- every event given to `submit`, in the order of the calls -/
  submitted : List WhisperTranscriptionEvent

inductive SavingLabel where
  | submit (event : WhisperTranscriptionEvent)
  /-- the next step inside `submit` -/
  | produce
  | requestStop
  /-- the next step inside `requestStop` -/
  | proceed
  /-- one step of the JSON thread, at a time that `finish` would record -/
  | advance (answer : JsonAnswer) (currentTimeMillis : Nat)
  /-- the thread publishes its stop event -/
  | publish

namespace Saving

/-- A worker that was just started, over any files. -/
def start (header : TranscriptionJsonWriter) (files : TranscriptionFiles) : Saving :=
  { header
    worker := (TranscriptionJsonWorker.new header.sessionId).start
    submission := .idle
    stopRequest := .notCalled
    files
    submitted := [] }

def setJson (files : TranscriptionFiles) (sessionId : Text) (document : Option JSONObject) :
    TranscriptionFiles :=
  { files with jsons := fun name =>
      if name = jsonFileName sessionId then document else files.jsons name }

/-- What an output of the thread does to the files. -/
def store (header : TranscriptionJsonWriter) (finishedAtUnixMs : Nat) (files : TranscriptionFiles) :
    JsonOutput → TranscriptionFiles
  | .clearedText => TranscriptionTextRepository.clearFilteredText files header.sessionId
  | .saved items =>
    setJson files header.sessionId
      (some (header.buildRootObject finishedAtUnixMs (items.map jsonItem)))
  | .truncated => setJson files header.sessionId none
  | .appendedText text =>
    TranscriptionTextRepository.appendFilteredText files header.sessionId text
  | .savedText =>
    -- an exception of `saveFromJsonFile` is only logged
    (TranscriptionTextRepository.saveFromJsonFile files (jsonFileName header.sessionId)).getD files

/-- `finishedAtUnixMs` while the thread is in this phase. -/
def finishedAt (phase : JsonPhase) (currentTimeMillis : Nat) : Nat :=
  match phase with
  | .finishing _ => currentTimeMillis
  | _ => 0

def produce (saving : Saving) : Option Saving :=
  let queue := saving.worker.eventQueue
  match saving.submission with
  | .idle => none
  | .entered event =>
    some { saving with
      submission := if !saving.worker.running || event.hasError then .idle else .offering event }
  | .offering event =>
    if queue.length < TranscriptionJsonWorker.queueCapacity then
      some { saving with
        worker := { saving.worker with eventQueue := queue ++ [event] }, submission := .idle }
    else some { saving with submission := .evicting event }
  | .evicting event =>
    some { saving with
      worker := { saving.worker with eventQueue := queue.tail }, submission := .retrying event }
  | .retrying event =>
    some { saving with
      worker := { saving.worker with
        eventQueue :=
          if queue.length < TranscriptionJsonWorker.queueCapacity then queue ++ [event] else queue }
      submission := .idle }

def proceed (saving : Saving) : Option Saving :=
  match saving.stopRequest with
  | .notCalled | .returned => none
  | .flagged =>
    some { saving with
      stopRequest := if saving.worker.workerThread then .interrupting else .returned }
  | .interrupting =>
    some { saving with
      worker := { saving.worker with interrupted := true }, stopRequest := .returned }

def step (saving : Saving) : SavingLabel → Option Saving
  | .submit event =>
    if saving.submission = .idle then
      some { saving with
        submission := .entered event, submitted := saving.submitted ++ [event] }
    else none
  | .produce => saving.produce
  | .requestStop =>
    if saving.stopRequest = .notCalled ∨ saving.stopRequest = .returned then
      some { saving with
        worker := { saving.worker with running := false }, stopRequest := .flagged }
    else none
  | .proceed => saving.proceed
  | .advance answer currentTimeMillis =>
    (saving.worker.advance answer).map fun (next, outputs) =>
      { saving with
        worker := next
        files := outputs.foldl
          (store saving.header (finishedAt saving.worker.phase currentTimeMillis)) saving.files }
  | .publish =>
    match saving.worker.phase with
    | .ended _ => some { saving with worker := { saving.worker with phase := .stopped } }
    | _ => none

/-- The stop comes after the last `submit` has returned, no more than 128 events
ever wait, and every file operation succeeds. -/
def Orderly (saving : Saving) : SavingLabel → Prop
  | .submit _ => saving.stopRequest = .notCalled
  | .produce => ∀ event, saving.submission = .offering event →
      saving.worker.eventQueue.length < TranscriptionJsonWorker.queueCapacity
  | .requestStop => saving.submission = .idle
  | .advance answer _ => answer = ⟨none, .written⟩
  | .proceed | .publish => True

def accepted (saving : Saving) : List WhisperTranscriptionEvent :=
  saving.submitted.filter fun event => !event.hasError

/-- The JSON file of the session holds exactly these items. -/
def Stored (saving : Saving) (events : List WhisperTranscriptionEvent) : Prop :=
  ∃ root, saving.files.jsons (jsonFileName saving.header.sessionId) = some root ∧
    root.optJSONArray "items" = some (events.map jsonItem)

/-- The text file of the session is the text of these items. -/
def Formatted (saving : Saving) (events : List WhisperTranscriptionEvent) : Prop :=
  saving.files.texts (textFileName saving.header.sessionId) =
    some (TranscriptionTextFormatter.format (events.map fun event =>
      TranscriptionJsonItemTextExtractor.extractItem (TranscriptionJsonItem.fromEvent event)))

end Saving

/-- The event that `submit` has in hand, if it is to be stored. -/
def Submission.hand : Submission → List WhisperTranscriptionEvent
  | .entered event => if event.hasError then [] else [event]
  | .offering event | .evicting event | .retrying event => [event]
  | .idle => []

/-- The event that was taken from the queue and not yet saved. -/
def JsonPhase.hand : JsonPhase → List WhisperTranscriptionEvent
  | .appending event => [event]
  | _ => []

/-- The loop of `run` has not been left. -/
def JsonPhase.serving : JsonPhase → Bool
  | .opening | .looping | .taking | .appending _ | .appendingText _ => true
  | _ => false

/-- The files are final. -/
def JsonPhase.settled : JsonPhase → Bool
  | .closing _ | .ended _ | .stopped => true
  | _ => false

namespace Saving

/-- Every accepted event is in exactly one place, and the places are in the
order of submission: saved, in hand, in the queue, on its way into it. -/
structure InOrder (saving : Saving) : Prop where
  worker : saving.worker.sessionId = saving.header.sessionId
  made : saving.worker.phase ≠ .created
  producing : saving.submission ≠ .idle → saving.stopRequest = .notCalled
  room : ∀ event, saving.submission ≠ .evicting event ∧ saving.submission ≠ .retrying event
  going : saving.stopRequest = .notCalled → saving.worker.running = true ∧
    saving.worker.interrupted = false ∧ saving.worker.phase.serving = true
  opening : saving.worker.phase = .opening → saving.worker.writer = none ∧
    saving.accepted = saving.worker.eventQueue ++ saving.submission.hand
  writing : saving.worker.phase.writes = true → ∃ items, saving.worker.writer = some items ∧
    saving.Stored items ∧ saving.accepted =
      items ++ saving.worker.phase.hand ++ saving.worker.eventQueue ++ saving.submission.hand
  drained : ∀ errorMessage, saving.worker.phase = .finishing errorMessage →
    saving.worker.eventQueue = []
  settled : saving.worker.phase.settled = true →
    saving.Stored saving.accepted ∧ saving.Formatted saving.accepted

section Steps

variable {before after : Saving}

private theorem start_inOrder (header : TranscriptionJsonWriter) (files : TranscriptionFiles) :
    InOrder (start header files) :=
  ⟨rfl, nofun, fun busy => absurd rfl busy, fun _ => ⟨nofun, nofun⟩,
    fun _ => ⟨rfl, rfl, rfl⟩, fun _ => ⟨rfl, rfl⟩, nofun, fun _ => nofun, nofun⟩

private theorem serving_unsettled {phase : JsonPhase} (serving : phase.serving = true) :
    phase.settled = false ∧ ∀ errorMessage, phase ≠ .finishing errorMessage := by
  cases phase <;> simp [JsonPhase.serving, JsonPhase.settled] at serving ⊢

/-- A step of the producer: the queue and its hand change, and together they hold
the accepted events as before, with what was submitted just now. -/
theorem InOrder.produced {queue : List WhisperTranscriptionEvent} {submission : Submission}
    {submitted added : List WhisperTranscriptionEvent} (inv : InOrder before)
    (notStopped : before.stopRequest = .notCalled)
    (room : ∀ event, submission ≠ .evicting event ∧ submission ≠ .retrying event)
    (accepts : (submitted.filter fun event => !event.hasError) = before.accepted ++ added)
    (order : queue ++ submission.hand =
      before.worker.eventQueue ++ before.submission.hand ++ added) :
    InOrder { before with
      worker := { before.worker with eventQueue := queue }, submission, submitted } := by
  have going := inv.going notStopped
  obtain ⟨unsettled, unfinished⟩ := serving_unsettled going.2.2
  refine ⟨inv.worker, inv.made, fun _ => notStopped, room, fun _ => going,
    fun place => ?_, fun writes => ?_, fun errorMessage place => ?_, fun settled => ?_⟩
  · obtain ⟨none, before⟩ := inv.opening place
    refine ⟨none, accepts.trans ?_⟩
    rw [before]
    exact order.symm
  · obtain ⟨items, held, stored, account⟩ := inv.writing writes
    refine ⟨items, held, stored, accepts.trans ?_⟩
    rw [account]
    simp only [List.append_assoc] at order ⊢
    rw [order]
  · exact absurd place (unfinished errorMessage)
  · exact Bool.noConfusion (unsettled.symm.trans settled)

private theorem produce_inOrder (inv : InOrder before) (orderly : Orderly before .produce)
    (taken : before.produce = some after) : InOrder after := by
  cases place : before.submission <;> simp only [produce, place] at taken
  case idle => cases taken
  case evicting event => exact absurd place (inv.room event).1
  case retrying event => exact absurd place (inv.room event).2
  case entered event =>
    have notStopped := inv.producing (by rw [place]; nofun)
    have running := (inv.going notStopped).1
    cases taken
    refine inv.produced notStopped (fun other => ?_) (List.append_nil _).symm ?_
    · split <;> exact ⟨nofun, nofun⟩
    · rw [place, running]
      cases error : event.hasError <;> simp [Submission.hand, error]
  case offering event =>
    have notStopped := inv.producing (by rw [place]; nofun)
    rw [if_pos (orderly event place)] at taken
    cases taken
    refine inv.produced notStopped (fun other => ⟨nofun, nofun⟩) (List.append_nil _).symm ?_
    rw [place]
    simp [Submission.hand]

/-- The files hold the saved items, whatever the thread does besides. -/
theorem stored_root {saving : Saving} {finishedAtUnixMs : Nat}
    {events : List WhisperTranscriptionEvent}
    (saved : saving.files.jsons (jsonFileName saving.header.sessionId) =
      some (saving.header.buildRootObject finishedAtUnixMs (events.map jsonItem))) :
    saving.Stored events :=
  ⟨_, saved, TranscriptionJsonWriter.items_buildRootObject _ _ _⟩

@[simp] theorem setJson_get (files : TranscriptionFiles) (sessionId : Text)
    (document : Option JSONObject) :
    (setJson files sessionId document).jsons (jsonFileName sessionId) = document :=
  if_pos rfl

/-- The last two outputs of the thread: the document is written once more, and
its text is made from it. -/
theorem finished_files (header : TranscriptionJsonWriter) (finishedAtUnixMs : Nat)
    (files : TranscriptionFiles) (events : List WhisperTranscriptionEvent) :
    let finished := [.saved events, .savedText].foldl (store header finishedAtUnixMs) files
    finished.jsons (jsonFileName header.sessionId) =
      some (header.buildRootObject finishedAtUnixMs (events.map jsonItem)) ∧
    finished.texts (textFileName header.sessionId) =
      some (TranscriptionTextFormatter.format (events.map fun event =>
        TranscriptionJsonItemTextExtractor.extractItem
          (TranscriptionJsonItem.fromEvent event))) := by
  intro finished
  let written := setJson files header.sessionId
    (some (header.buildRootObject finishedAtUnixMs (events.map jsonItem)))
  have read : TranscriptionTextRepository.saveFromJsonFile written
      (jsonFileName header.sessionId) =
      some (TranscriptionTextRepository.saveText written
        (removeExtension (jsonFileName header.sessionId))
        (TranscriptionTextFormatter.format (events.map fun event =>
          TranscriptionJsonItemTextExtractor.extractItem
            (TranscriptionJsonItem.fromEvent event)))) := by
    unfold TranscriptionTextRepository.saveFromJsonFile
    simp only [written]
    rw [setJson_get, Option.bind_eq_bind, Option.bind_some, extractItems_buildRootObject]
    rfl
  have folded : finished = TranscriptionTextRepository.saveText written
      (removeExtension (jsonFileName header.sessionId))
      (TranscriptionTextFormatter.format (events.map fun event =>
        TranscriptionJsonItemTextExtractor.extractItem
          (TranscriptionJsonItem.fromEvent event))) := by
    change (TranscriptionTextRepository.saveFromJsonFile written
      (jsonFileName header.sessionId)).getD written = _
    rw [read]
    rfl
  rw [folded]
  refine ⟨setJson_get _ _ _, ?_⟩
  unfold TranscriptionTextRepository.saveText
  simp only
  rw [textFileName_jsonFileName, if_pos rfl]

/-- A step of the thread after which it still has its writer. -/
theorem InOrder.advanced {next : TranscriptionJsonWorker} {files : TranscriptionFiles}
    {items : List WhisperTranscriptionEvent} (inv : InOrder before)
    (name : next.sessionId = before.worker.sessionId) (writes : next.phase.writes = true)
    (going : before.stopRequest = .notCalled →
      next.running = true ∧ next.interrupted = false ∧ next.phase.serving = true)
    (drained : ∀ errorMessage, next.phase = .finishing errorMessage → next.eventQueue = [])
    (held : next.writer = some items) (stored : Stored { before with files } items)
    (account : before.accepted =
      items ++ next.phase.hand ++ next.eventQueue ++ before.submission.hand) :
    InOrder { before with worker := next, files } := by
  refine ⟨name.trans inv.worker, fun place => ?_, inv.producing, inv.room, going, fun place => ?_,
    fun _ => ⟨items, held, stored, account⟩, drained, fun settled => ?_⟩
  · rw [show next.phase = _ from place] at writes
    cases writes
  · rw [show next.phase = _ from place] at writes
    cases writes
  · cases place : next.phase <;> simp [place, JsonPhase.settled, JsonPhase.writes] at settled writes

/-- Only events without an error are to be stored. -/
theorem accepted_right {event : WhisperTranscriptionEvent}
    (member : event ∈ before.accepted) : event.hasError = false := by
  simpa using (List.mem_filter.mp member).2

theorem advance_inOrder {answer : JsonAnswer} {currentTimeMillis : Nat} (inv : InOrder before)
    (orderly : Orderly before (.advance answer currentTimeMillis))
    (taken : step before (.advance answer currentTimeMillis) = some after) : InOrder after := by
  obtain ⟨⟨next, outputs⟩, advanced, rfl⟩ := Option.map_eq_some_iff.mp taken
  have same : answer = ⟨none, .written⟩ := orderly
  subst same
  cases place : before.worker.phase <;>
    simp only [TranscriptionJsonWorker.advance, place] at advanced
  case created | ended | stopped => cases advanced
  case opening =>
    cases advanced
    obtain ⟨_, account⟩ := inv.opening place
    refine inv.advanced rfl rfl (fun open_ => ?_) nofun rfl
      (stored_root (setJson_get _ _ _)) (by simpa [JsonPhase.hand] using account)
    exact ⟨(inv.going open_).1, (inv.going open_).2.1, rfl⟩
  case looping =>
    obtain ⟨items, held, stored, account⟩ := inv.writing (by rw [place]; rfl)
    rw [place] at account
    split at advanced <;> cases advanced
    · refine inv.advanced rfl rfl (fun open_ => ?_) nofun held stored account
      exact ⟨(inv.going open_).1, (inv.going open_).2.1, rfl⟩
    · rename_i left
      refine inv.advanced rfl rfl (fun open_ => absurd ?_ left) nofun held stored account
      simp [(inv.going open_).1, (inv.going open_).2.1]
  case taking =>
    obtain ⟨items, held, stored, account⟩ := inv.writing (by rw [place]; rfl)
    rw [place] at account
    split at advanced
    · rename_i interrupted
      cases advanced
      refine inv.advanced rfl rfl (fun open_ => ?_) nofun held stored account
      exact Bool.noConfusion ((inv.going open_).2.1.symm.trans interrupted)
    · have serves (open_ : before.stopRequest = .notCalled) :
          before.worker.running = true ∧ before.worker.interrupted = false :=
        ⟨(inv.going open_).1, (inv.going open_).2.1⟩
      split at advanced <;> cases advanced
      · refine inv.advanced rfl rfl (fun open_ => ?_) nofun held stored account
        exact ⟨(serves open_).1, (serves open_).2, rfl⟩
      · rename_i event rest queue
        refine inv.advanced rfl rfl (fun open_ => ?_) nofun held stored ?_
        · exact ⟨(serves open_).1, (serves open_).2, rfl⟩
        · rw [account, queue]
          simp [JsonPhase.hand]
  case appending event =>
    obtain ⟨items, held, stored, account⟩ := inv.writing (by rw [place]; rfl)
    rw [place] at account
    have member : event ∈ before.accepted := by simp [account, JsonPhase.hand]
    have right := accepted_right member
    simp only [TranscriptionJsonWorker.appendEvent, held, right] at advanced
    cases advanced
    refine inv.advanced rfl rfl (fun open_ => ?_) nofun rfl
      (stored_root (setJson_get _ _ _)) (by simpa [JsonPhase.hand] using account)
    exact ⟨(inv.going open_).1, (inv.going open_).2.1, rfl⟩
  case appendingText event =>
    obtain ⟨items, held, stored, account⟩ := inv.writing (by rw [place]; rfl)
    rw [place] at account
    cases advanced
    refine inv.advanced rfl rfl (fun open_ => ?_) nofun held stored account
    exact ⟨(inv.going open_).1, (inv.going open_).2.1, rfl⟩
  case draining errorMessage =>
    obtain ⟨items, held, stored, account⟩ := inv.writing (by rw [place]; rfl)
    rw [place] at account
    have closed (open_ : before.stopRequest = .notCalled) : False := by
      have serving := (inv.going open_).2.2
      rw [place] at serving
      cases serving
    split at advanced
    · rename_i queue
      cases advanced
      exact inv.advanced rfl rfl (fun open_ => (closed open_).elim) (fun _ _ => queue) held stored
        account
    · rename_i event rest queue
      have member : event ∈ before.accepted := by simp [account, queue]
      have right := accepted_right member
      simp only [TranscriptionJsonWorker.appendEvent, held, right] at advanced
      cases advanced
      refine inv.advanced rfl rfl (fun open_ => (closed open_).elim) nofun rfl
        (stored_root (setJson_get _ _ _)) ?_
      rw [account, queue]
      simp [JsonPhase.hand]
  case finishing errorMessage =>
    obtain ⟨items, held, stored, account⟩ := inv.writing (by rw [place]; rfl)
    rw [place, inv.drained errorMessage place] at account
    have closed : before.stopRequest ≠ .notCalled := by
      intro open_
      have serving := (inv.going open_).2.2
      rw [place] at serving
      cases serving
    have returned : before.submission = .idle :=
      Decidable.byContradiction fun busy => closed (inv.producing busy)
    simp only [held] at advanced
    cases advanced
    have all : before.accepted = items := by
      simpa [JsonPhase.hand, Submission.hand, returned] using account
    have final := finished_files before.header
      (finishedAt (.finishing errorMessage) currentTimeMillis) before.files items
    refine ⟨inv.worker, nofun, inv.producing, inv.room, fun open_ => absurd open_ closed, nofun,
      nofun, fun _ => nofun, fun _ => ?_⟩
    change Stored _ before.accepted ∧ Formatted _ before.accepted
    rw [all]
    exact ⟨stored_root final.1, final.2⟩
  case closing errorMessage =>
    have settled := inv.settled (by rw [place]; rfl)
    cases advanced
    refine ⟨inv.worker, nofun, inv.producing, inv.room, fun open_ => ?_, nofun, nofun,
      fun _ => nofun, fun _ => settled⟩
    have serving := (inv.going open_).2.2
    rw [place] at serving
    cases serving

/-- The thread that stops the worker writes its flags only, once the producer
has returned. -/
theorem InOrder.stopping {running interrupted : Bool} {stopRequest : StopRequest}
    (inv : InOrder before) (called : stopRequest ≠ .notCalled) (returned : before.submission = .idle) :
    InOrder { before with
      worker := { before.worker with running, interrupted }, stopRequest } :=
  ⟨inv.worker, inv.made, fun busy => absurd returned busy, inv.room,
    fun open_ => absurd open_ called, inv.opening, inv.writing, inv.drained, inv.settled⟩

theorem step_inOrder {label : SavingLabel} (inv : InOrder before) (orderly : Orderly before label)
    (taken : step before label = some after) : InOrder after := by
  cases label with
  | submit event =>
    simp only [step] at taken
    split at taken <;> cases taken
    rename_i idle
    refine inv.produced orderly (fun _ => ⟨nofun, nofun⟩)
      (List.filter_append before.submitted [event]) ?_
    rw [idle]
    cases error : event.hasError <;> simp [Submission.hand, error]
  | produce => exact produce_inOrder inv orderly taken
  | requestStop =>
    simp only [step] at taken
    split at taken <;> cases taken
    exact inv.stopping nofun orderly
  | proceed =>
    simp only [step, proceed] at taken
    have returned (called : before.stopRequest ≠ .notCalled) : before.submission = .idle :=
      Decidable.byContradiction fun busy => called (inv.producing busy)
    cases place : before.stopRequest <;> simp only [place] at taken
    case notCalled | returned => cases taken
    case flagged =>
      cases taken
      refine inv.stopping ?_ (returned (by simp [place]))
      split <;> exact nofun
    case interrupting =>
      cases taken
      exact inv.stopping nofun (returned (by simp [place]))
  | advance answer currentTimeMillis => exact advance_inOrder inv orderly taken
  | publish =>
    simp only [step] at taken
    split at taken <;> cases taken
    rename_i errorMessage place
    have settled := inv.settled (by rw [place]; rfl)
    refine ⟨inv.worker, nofun, inv.producing, inv.room, fun open_ => ?_, nofun, nofun,
      fun _ => nofun, fun _ => settled⟩
    have serving := (inv.going open_).2.2
    rw [place] at serving
    cases serving

end Steps

/-- The keys of a stored item, each with the field of the event under it. -/
def storedFields (event : WhisperTranscriptionEvent) : JSONObject :=
  [("sequence", .integer event.sequence),
    ("recordingTimeMs", .integer event.startMs),
    ("durationMs", .integer event.durationMs),
    ("processingTimeMs", .integer event.processingTimeMs),
    ("text", .text event.text),
    ("speakerChanged", .boolean event.speakerChanged)]

private theorem jsonItem_eq (event : WhisperTranscriptionEvent) :
    jsonItem event = .object (storedFields event) := by
  simp [jsonItem, storedFields, TranscriptionJsonItem.fromEvent,
    TranscriptionJsonItem.toJsonObject, JSONObject.put]

/-- When the stop event is published, the JSON file holds the submitted events
without errors, field by field, once each and in their order, and the text file
is their text. -/
theorem saved_in_order {header : TranscriptionJsonWriter} {files : TranscriptionFiles}
    {saving : Saving} (run : Reaches step Orderly (start header files) saving)
    (published : saving.worker.phase = .stopped) :
    let events := saving.submitted.filter fun event => !event.hasError
    (∃ root, saving.files.jsons (jsonFileName saving.header.sessionId) = some root ∧
      root.optJSONArray "items" = some (events.map fun event => .object (storedFields event))) ∧
    saving.files.texts (textFileName saving.header.sessionId) =
      some (TranscriptionTextFormatter.format (events.map fun event =>
        ⟨event.startMs, event.text⟩)) := by
  intro events
  have inv : InOrder saving :=
    run.invariant (start_inOrder header files) fun inv orderly taken =>
      step_inOrder inv orderly taken
  obtain ⟨⟨root, found, items⟩, formatted⟩ := inv.settled (by rw [published]; rfl)
  refine ⟨⟨root, found, items.trans (congrArg some ?_)⟩, formatted⟩
  exact List.map_congr_left fun event _ => jsonItem_eq event

instance (saving : Saving) (label : SavingLabel) : Decidable (Orderly saving label) := by
  cases label with
  | produce =>
    cases place : saving.submission with
    | offering event =>
      refine decidable_of_iff (saving.worker.eventQueue.length <
        TranscriptionJsonWorker.queueCapacity) ⟨fun room _ _ => room, fun room => room event place⟩
    | idle | entered | evicting | retrying =>
      exact .isTrue fun other same => by rw [place] at same; cases same
  | _ => dsimp only [Orderly]; infer_instance

def quietHeader : TranscriptionJsonWriter :=
  ⟨"session-1".toList, 0, "", false, 0, 5000, "ja", "cpp-small-q8-0", .recording⟩

/-- The result with this number. -/
def numberedResult (sequence : Nat) (text : String) : WhisperTranscriptionEvent :=
  ⟨"session-1".toList, sequence, text, false, false, none, 4000 * sequence, 5000, 10, "", .recording⟩

/-- Three results, the last of them twice, with an error in between. -/
def mixedEvents : List WhisperTranscriptionEvent :=
  [numberedResult 0 "a", { numberedResult 1 "" with errorMessage := some "error" },
    numberedResult 1 "b", numberedResult 2 "c", numberedResult 2 "c"]

/-- The first result is in hand when the others come in; the thread sees the stop
with two of them still in the queue. -/
def submitAndStop : List SavingLabel :=
  let advance : SavingLabel := .advance ⟨none, .written⟩ 0
  let submit (event : WhisperTranscriptionEvent) : List SavingLabel :=
    [.submit event, .produce] ++ if event.hasError then [] else [.produce]
  submit (numberedResult 0 "a") ++ [advance, advance, advance] ++
    mixedEvents.tail.flatMap submit ++ [advance, advance, advance, advance] ++
    [.requestStop, .proceed, .proceed] ++ List.replicate 8 advance ++ [.publish]

theorem saved_in_order_run :
    ∃ saving, Reaches step Orderly (start quietHeader ⟨fun _ => none, fun _ => none⟩) saving ∧
      saving.worker.phase = .stopped ∧ saving.submitted = mixedEvents ∧
      ∃ root, saving.files.jsons (jsonFileName saving.header.sessionId) = some root ∧
        root.optJSONArray "items" = some ([numberedResult 0 "a", numberedResult 1 "b",
          numberedResult 2 "c", numberedResult 2 "c"].map fun event =>
            .object (storedFields event)) := by
  have checked : (executeChecked step (fun saving label => decide (Orderly saving label))
      (start quietHeader ⟨fun _ => none, fun _ => none⟩) submitAndStop).map
        (fun saving => (saving.worker.phase, saving.submitted)) = some (.stopped, mixedEvents) := by
    decide +kernel
  obtain ⟨saving, ran, seen⟩ := Option.map_eq_some_iff.mp checked
  obtain ⟨stopped, events⟩ := Prod.mk.inj seen
  have run := (Reaches.of_executeChecked ran).weaken fun _ _ => of_decide_eq_true
  have saved := (saved_in_order run stopped).1
  rw [events] at saved
  exact ⟨saving, run, stopped, events, saved⟩

end Saving

end LocalWhisper.TransscriptsJSON
