import LocalWhisper.SettingUI.ExternalModelRepository

/-! `saveVerified` where the file can hold what this version does not parse, a read
can throw and a write can stop at any byte: which stored definitions stay. -/

namespace LocalWhisper.SettingUI.StoredDefinitions

open Machine.JavaString Machine.Unicode ExternalModelJsonStore ExternalModelRepository

/-- A value of the array `models`: an object with the five strings, or anything
else, with its path where it has one. -/
inductive Element where
  | entry (values : Entry)
  | other (modelPath : Option Units)
  deriving DecidableEq

namespace Element

def modelPath : Element → Option Units
  | .entry values => some values.modelPath
  | .other path => path

/-- The body of the loop of `read`. -/
def read : Element → Option ExternalTranscriptionModel
  | .entry values => readEntry values
  | .other _ => none

def write (model : ExternalTranscriptionModel) : Element := .entry (writeEntry model)

end Element

/-- The file `external_models.json`: none, a JSON object, or a text that breaks off
behind some whole elements and that no parser accepts. An object without the array
counts as one with an empty array. -/
inductive Contents where
  | missing
  | document (models : List Element)
  | brokenOff (models : List Element)
  deriving DecidableEq

namespace Contents

/-- The definitions whose text stands whole in the file. -/
def elements : Contents → List Element
  | .missing => []
  | .document models => models
  | .brokenOff models => models

/-- `read`, where reading the bytes may throw. -/
def read (failing : Bool) : Contents → Except String (List ExternalTranscriptionModel)
  | .missing => .ok []
  | .document models =>
    if failing then .error "IOException" else .ok (models.filterMap Element.read)
  | .brokenOff _ => if failing then .error "IOException" else .error "JSONException"

/-- `loadExternal`. -/
def loadExternal (failing : Bool) (file : Contents) : List ExternalTranscriptionModel :=
  match file.read failing with
  | .ok models => models
  | .error _ => []

end Contents

/-- How a write ends: the file is not opened and stays as it is, the output stops
with so many whole elements in the file, everything is in the file and closing it
throws, or the write returns. -/
inductive WriteEnd where
  | notOpened
  | stopped (whole : Nat)
  | notClosed
  | returned
  deriving DecidableEq

/-- `write`. Opening the file cuts it to nothing. -/
def write (file : Contents) (models : List ExternalTranscriptionModel) :
    WriteEnd → Contents × Except String Unit
  | .notOpened => (file, .error "IOException")
  | .stopped whole => (.brokenOff ((models.map Element.write).take whole), .error "IOException")
  | .notClosed => (.document (models.map Element.write), .error "IOException")
  | .returned => (.document (models.map Element.write), .ok ())

/-- `saveVerified`: the file afterwards, and what the call returns or throws. -/
def saveVerified (file : Contents) (readFails : Bool) (writeEnd : WriteEnd) (call : SaveCall) :
    Contents × Except String ExternalTranscriptionModel :=
  match call.probe.detectedEngine with
  | none => (file, .error "The model could not be loaded")
  | some engine =>
    if !call.probe.loaded then (file, .error "The model could not be loaded")
    else
      let models := file.loadExternal readFails
      let others := takeOut call.modelPath (externalKey call.modelPath) models
      match ExternalTranscriptionModel.new others.1 call.name call.modelPath engine
          (savedComputeType engine call.computeType) with
      | .error message => (file, .error message)
      | .ok saved =>
        let written := write file (others.2 ++ [saved]) writeEnd
        (written.1, written.2.map fun _ => saved)

/-- A file that only `write` has written. -/
def ofFile : File → Contents
  | none => .missing
  | some entries => .document (entries.map .entry)

private theorem loadExternal_ofFile (file : File) :
    (ofFile file).loadExternal false = ExternalModelJsonStore.read file := by
  cases file with
  | none => rfl
  | some entries =>
    show (entries.map Element.entry).filterMap Element.read = entries.filterMap readEntry
    rw [List.filterMap_map]
    rfl

/-- Without faults it is the `saveVerified` of `ExternalModelRepository`. -/
theorem saveVerified_ofFile (file : File) (call : SaveCall) :
    saveVerified (ofFile file) false .returned call =
      match ExternalModelRepository.saveVerified file call with
      | .error message => (ofFile file, .error message)
      | .ok (after, saved) => (ofFile after, .ok saved) := by
  unfold saveVerified ExternalModelRepository.saveVerified
  cases call.probe.detectedEngine with
  | none => rfl
  | some engine =>
    cases call.probe.loaded with
    | false => rfl
    | true =>
      simp only [Bool.not_true, Bool.false_eq_true, if_false, loadExternal_ofFile]
      cases ExternalTranscriptionModel.new _ _ _ engine _ with
      | error message => rfl
      | ok saved =>
        refine Prod.ext ?_ rfl
        show Contents.document (List.map Element.write _) = Contents.document (List.map .entry _)
        rw [List.map_map]
        rfl

/-- Every element was written by `write`, or this version does not parse it. -/
def Known (file : Contents) : Prop :=
  ∀ element ∈ file.elements, element.read.isSome → ∃ model, element = Element.write model

/-- The element has the path of the call, as it is given or as it is stored. -/
def SamePath (call : SaveCall) (element : Element) : Prop :=
  element.modelPath = some call.modelPath ∨
    element.modelPath = some (throughUtf8 (trim call.modelPath))

instance (call : SaveCall) (element : Element) : Decidable (SamePath call element) :=
  inferInstanceAs (Decidable (_ ∨ _))

/-- The call throws and leaves the file as it was, or every definition of another
path is still in the file. -/
def KeepsOthers (file : Contents) (call : SaveCall)
    (outcome : Contents × Except String ExternalTranscriptionModel) : Prop :=
  ((∃ message, outcome.2 = .error message) ∧ outcome.1 = file) ∨
    ∀ element ∈ file.elements, ¬ SamePath call element → element ∈ outcome.1.elements

/-- The elements that a read without an exception brings into the new document. -/
def kept (file : Contents) (call : SaveCall) : List Element :=
  file.elements.filter fun element =>
    element.read.isSome && element.modelPath != some call.modelPath

/-- The elements of a new document that are in the file when the write has ended. -/
def WriteEnd.reached : WriteEnd → List Element → List Element
  | .notOpened, _ => []
  | .stopped whole, elements => elements.take whole
  | .notClosed, elements => elements
  | .returned, elements => elements

/-- The file was read, and the definition is one of those that were parsed and
written again. -/
structure Rewritten (file : Contents) (readFails : Bool) (writeEnd : WriteEnd) (call : SaveCall)
    (element : Element) : Prop where
  fileRead : ∃ models, file.read readFails = .ok models
  writtenAgain : element ∈ writeEnd.reached (kept file call)

private theorem writeEntry_readBack (model : ExternalTranscriptionModel) :
    writeEntry (readBack model) = writeEntry model := by
  have twice (text : Units) : throughUtf8 (throughUtf8 text) = throughUtf8 text :=
    throughUtf8_of_wellFormed (throughUtf8_wellFormed text)
  simp only [writeEntry, readBack, twice]

theorem read_write (model : ExternalTranscriptionModel) :
    (Element.write model).read = some (readBack model) :=
  readEntry_writeEntry model

private theorem write_filterMap {elements : List Element} (call : SaveCall)
    (known : ∀ element ∈ elements, element.read.isSome → ∃ model, element = Element.write model) :
    ((elements.filterMap Element.read).filter fun model => model.modelPath ≠ call.modelPath).map
        Element.write =
      elements.filter fun element =>
        element.read.isSome && element.modelPath != some call.modelPath := by
  induction elements with
  | nil => rfl
  | cons element later inductionHypothesis =>
    have others := inductionHypothesis fun other member =>
      known other (List.mem_cons_of_mem _ member)
    cases parsed : element.read with
    | none =>
      rw [List.filterMap_cons_none parsed, others, List.filter_cons_of_neg (by simp [parsed])]
    | some found =>
      obtain ⟨model, rfl⟩ := known element List.mem_cons_self (by rw [parsed]; rfl)
      obtain rfl : readBack model = found := Option.some.inj ((read_write model).symm.trans parsed)
      have path : (Element.write model).modelPath = some (readBack model).modelPath := rfl
      rw [List.filterMap_cons_some parsed]
      by_cases same : (readBack model).modelPath = call.modelPath
      · rw [List.filter_cons_of_neg (by simp [same]), others,
          List.filter_cons_of_neg (by simp [path, same])]
      · rw [List.filter_cons_of_pos (by simp [same]), List.map_cons, others,
          List.filter_cons_of_pos (by simp [parsed, path, same]), Element.write,
          writeEntry_readBack]
        rfl

private theorem write_read {file : Contents} (known : Known file) {readFails : Bool}
    {models : List ExternalTranscriptionModel} (done : file.read readFails = .ok models)
    (call : SaveCall) :
    (models.filter fun model => model.modelPath ≠ call.modelPath).map Element.write =
      kept file call := by
  unfold Contents.read at done
  cases file with
  | missing =>
    injection done with none
    rw [← none]
    rfl
  | document elements =>
    cases readFails with
    | true => cases done
    | false =>
      injection done with parsed
      rw [← parsed]
      exact write_filterMap call known
  | brokenOff elements => cases readFails <;> cases done

/-- A call that is not accepted throws before it writes. -/
theorem saveVerified_refused (file : Contents) (readFails : Bool) (writeEnd : WriteEnd)
    {call : SaveCall} (refused : ¬ call.Accepted) :
    ∃ message, saveVerified file readFails writeEnd call = (file, .error message) := by
  unfold saveVerified
  cases engineIs : call.probe.detectedEngine with
  | none => exact ⟨_, rfl⟩
  | some engine =>
    cases loaded : call.probe.loaded with
    | false => exact ⟨_, rfl⟩
    | true =>
      simp only [Bool.not_true, Bool.false_eq_true, if_false]
      rw [ExternalTranscriptionModel.new, dif_neg]
      · exact ⟨_, rfl⟩
      · rintro ⟨-, name, path⟩
        exact refused ⟨by rw [engineIs]; rfl, loaded, name, path⟩

private theorem filled_key (models : List ExternalTranscriptionModel) (modelPath : Units) :
    Filled (takeOut modelPath (externalKey modelPath) models).1 := by
  rw [takeOut_eq]
  cases models.find? fun model => model.modelPath = modelPath with
  | none => exact (readable_externalKey modelPath).2.1
  | some model => exact model.keyFilled

/-- An accepted call writes the definitions of other paths and its own. -/
theorem saveVerified_accepted (file : Contents) (readFails : Bool) (writeEnd : WriteEnd)
    {call : SaveCall} (accepted : call.Accepted) :
    ∃ saved : ExternalTranscriptionModel, saved.modelPath = trim call.modelPath ∧
      saveVerified file readFails writeEnd call =
        let written := write file (((file.loadExternal readFails).filter fun model =>
          model.modelPath ≠ call.modelPath) ++ [saved]) writeEnd
        (written.1, written.2.map fun _ => saved) := by
  obtain ⟨detected, loaded, name, path⟩ := accepted
  obtain ⟨engine, engineIs⟩ := Option.isSome_iff_exists.mp detected
  have key := filled_key (file.loadExternal readFails) call.modelPath
  have unrefused : (!call.probe.loaded) = false := by rw [loaded]; rfl
  have others : (takeOut call.modelPath (externalKey call.modelPath)
      (file.loadExternal readFails)).2 =
        (file.loadExternal readFails).filter fun model => model.modelPath ≠ call.modelPath := by
    rw [takeOut_eq]
  unfold saveVerified
  rw [engineIs]
  simp only [unrefused, Bool.false_eq_true, if_false]
  rw [ExternalTranscriptionModel.new,
    dif_pos ⟨by rw [trim_of_trimmed key.1]; exact key.2, name, path⟩, ← others]
  exact ⟨_, rfl, rfl⟩

private theorem elements_write (file : Contents) (models : List ExternalTranscriptionModel)
    {writeEnd : WriteEnd} (opened : writeEnd ≠ .notOpened) :
    (write file models writeEnd).1.elements = writeEnd.reached (models.map Element.write) := by
  cases writeEnd with
  | notOpened => exact absurd rfl opened
  | stopped whole => rfl
  | notClosed => rfl
  | returned => rfl

theorem mem_reached_append {writeEnd : WriteEnd} {elements : List Element} {element last : Element}
    (apart : element ≠ last) :
    element ∈ writeEnd.reached (elements ++ [last]) ↔ element ∈ writeEnd.reached elements := by
  cases writeEnd with
  | notOpened => exact Iff.rfl
  | stopped whole =>
    simp only [WriteEnd.reached, List.take_append, List.mem_append]
    refine or_iff_left fun taken => apart ?_
    exact List.mem_singleton.mp (List.mem_of_mem_take taken)
  | notClosed => simp [WriteEnd.reached, apart]
  | returned => simp [WriteEnd.reached, apart]

theorem mem_saved_iff {file : Contents} (known : Known file) (readFails : Bool)
    {writeEnd : WriteEnd} (opened : writeEnd ≠ .notOpened) {call : SaveCall}
    (accepted : call.Accepted) {element : Element} (other : ¬ SamePath call element) :
    element ∈ (saveVerified file readFails writeEnd call).1.elements ↔
      Rewritten file readFails writeEnd call element := by
  obtain ⟨saved, path, result⟩ := saveVerified_accepted file readFails writeEnd accepted
  have apart : element ≠ Element.write saved := by
    rintro rfl
    refine other (.inr ?_)
    rw [← path]
    rfl
  rw [result]
  simp only [elements_write file _ opened, List.map_append, List.map_singleton,
    mem_reached_append apart]
  unfold Contents.loadExternal
  cases done : file.read readFails with
  | ok models =>
    simp only [write_read known done]
    exact ⟨fun reached => ⟨⟨models, done⟩, reached⟩, fun rewritten => rewritten.writtenAgain⟩
  | error message =>
    constructor
    · intro reached
      cases writeEnd <;> simp [WriteEnd.reached] at reached
    · rintro ⟨⟨models, other⟩, -⟩
      rw [done] at other
      cases other

/-- A save keeps the definitions of other paths if and only if it is refused, does
not open the file, or wrote again each of them that it read. -/
theorem keepsOthers_iff {file : Contents} (known : Known file) (readFails : Bool)
    (writeEnd : WriteEnd) (call : SaveCall) :
    KeepsOthers file call (saveVerified file readFails writeEnd call) ↔
      ¬ call.Accepted ∨ writeEnd = .notOpened ∨
        ∀ element ∈ file.elements, ¬ SamePath call element →
          Rewritten file readFails writeEnd call element := by
  by_cases accepted : call.Accepted
  · by_cases opened : writeEnd = .notOpened
    · subst opened
      obtain ⟨saved, -, result⟩ := saveVerified_accepted file readFails .notOpened accepted
      rw [result]
      exact iff_of_true (.inl ⟨⟨_, rfl⟩, rfl⟩) (.inr (.inl rfl))
    · have others : (∀ element ∈ file.elements, ¬ SamePath call element →
          element ∈ (saveVerified file readFails writeEnd call).1.elements) ↔
            ∀ element ∈ file.elements, ¬ SamePath call element →
              Rewritten file readFails writeEnd call element :=
        forall₃_congr fun element _ other => mem_saved_iff known readFails opened accepted other
      unfold KeepsOthers
      rw [others]
      constructor
      · rintro (⟨-, same⟩ | rewritten)
        · exact .inr (.inr (others.mp fun element member _ => by rw [same]; exact member))
        · exact .inr (.inr rewritten)
      · rintro (refused | notOpened | rewritten)
        · exact absurd accepted refused
        · exact absurd notOpened opened
        · exact .inr rewritten
  · obtain ⟨message, result⟩ := saveVerified_refused file readFails writeEnd accepted
    rw [result]
    exact iff_of_true (.inl ⟨⟨message, rfl⟩, rfl⟩) (.inl accepted)

/-- A definition for an engine that this version does not know. -/
def futureModel : Element :=
  .entry ⟨ofString "external-1", ofString "future", ofString "/models/c", ofString "Future", []⟩

theorem known_futureModel : Known (.document [futureModel]) := by
  intro element member parsed
  obtain rfl := List.mem_singleton.mp member
  exact absurd parsed (by decide)

/-- Two imported definitions with the one that this version does not parse. -/
def mixedFile : Contents :=
  .document [Element.write importedLive, futureModel, Element.write importedFile]

private theorem known_mixedFile : Known mixedFile := by
  intro element member parsed
  simp only [mixedFile, Contents.elements, List.mem_cons, List.not_mem_nil, or_false] at member
  rcases member with rfl | rfl | rfl
  · exact ⟨_, rfl⟩
  · exact absurd parsed (by decide)
  · exact ⟨_, rfl⟩

/-- A save under the path of the unparsed definition keeps the other two. -/
theorem keepsOthers_iff_replaced :
    KeepsOthers mixedFile (savedFile "first" "/models/c")
      (saveVerified mixedFile false .returned (savedFile "first" "/models/c")) := by
  refine (keepsOthers_iff known_mixedFile false .returned _).mpr (.inr (.inr ?_))
  intro element member other
  refine ⟨⟨_, rfl⟩, ?_⟩
  simp only [mixedFile, Contents.elements, List.mem_cons, List.not_mem_nil, or_false] at member
  rcases member with rfl | rfl | rfl
  · decide +kernel
  · exact absurd (by decide) other
  · decide +kernel

/-- A save without any fault drops what this version does not parse. -/
theorem future_model_dropped :
    Known (.document [futureModel]) ∧
      ¬ KeepsOthers (.document [futureModel]) (savedFile "first" "/models/a")
        (saveVerified (.document [futureModel]) false .returned
          (savedFile "first" "/models/a")) := by
  refine ⟨known_futureModel, ?_⟩
  have accepted : (savedFile "first" "/models/a").Accepted := by decide
  have other : ¬ SamePath (savedFile "first" "/models/a") futureModel := by decide
  rintro (⟨⟨message, threw⟩, -⟩ | stays)
  · obtain ⟨saved, -, result⟩ :=
      saveVerified_accepted (.document [futureModel]) false .returned accepted
    rw [result] at threw
    cases threw
  · have again := (mem_saved_iff known_futureModel false (by decide) accepted other).mp
      (stays futureModel (List.mem_singleton_self _) other)
    exact absurd again.writtenAgain (by decide)

end LocalWhisper.SettingUI.StoredDefinitions
