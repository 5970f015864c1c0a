import LocalWhisper.Machine.Run
import LocalWhisper.SettingUI.Models

/-! `ExternalModelRepository` over the JSON file of `ExternalModelJsonStore`: when
every saved model can be found again. -/

namespace LocalWhisper.SettingUI

open Machine Machine.JavaString Machine.Unicode

/-- The part of `ModelLoadProbe.Result` that a save reads. -/
structure ProbeResult where
  whisperLoaded : Bool
  cTranslate2Loaded : Bool
  detectedEngine : Option WhisperInferenceEngine
  deriving DecidableEq, Repr

def ProbeResult.loaded (probe : ProbeResult) : Bool :=
  probe.whisperLoaded || probe.cTranslate2Loaded

namespace ExternalModelJsonStore

/-- The object of one model in the file, with its values as they come out of the
UTF-8 bytes. -/
structure Entry where
  key : Units
  name : Units
  modelPath : Units
  executionModel : Units
  computeType : Units
  deriving DecidableEq, Repr

/-- The file, or nothing while there is none. -/
abbrev File := Option (List Entry)

def writeEntry (model : ExternalTranscriptionModel) : Entry :=
  ⟨throughUtf8 model.key, throughUtf8 model.name, throughUtf8 model.modelPath,
    throughUtf8 model.engine.jsonValue, throughUtf8 model.computeType⟩

def write (models : List ExternalTranscriptionModel) : File := some (models.map writeEntry)

/-- An entry whose engine or texts are refused is left out. -/
def readEntry (entry : Entry) : Option ExternalTranscriptionModel :=
  match WhisperInferenceEngine.fromJsonValue entry.executionModel with
  | .error _ => none
  | .ok engine =>
    (ExternalTranscriptionModel.new entry.key entry.name entry.modelPath engine
      entry.computeType).toOption

def read : File → List ExternalTranscriptionModel
  | none => []
  | some entries => entries.filterMap readEntry

end ExternalModelJsonStore

namespace ExternalModelRepository

open ExternalModelJsonStore

def bundled : WhisperInferenceEngine → List TranscriptionModel
  | .cTranslate2 => WhisperModelOption.values.map .realtime
  | .whisperCpp => WhisperCppModelOption.values.map .file

/-- `list`. -/
def list (file : File) (engine : WhisperInferenceEngine) : List TranscriptionModel :=
  bundled engine ++ ((read file).filter (·.engine = engine)).map .external

/-- `find`; a null key finds nothing. -/
def find (file : File) (key : Option Units) (engine : WhisperInferenceEngine) :
    Option TranscriptionModel :=
  match key with
  | none => none
  | some key => (list file engine).find? fun model => model.key == key

def externalKey (modelPath : Units) : Units :=
  ofString "external-" ++ toUnsignedHex (hashCode modelPath)

/-- Two paths share a key exactly when they share a hash code. -/
theorem externalKey_eq_iff (first second : Units) :
    externalKey first = externalKey second ↔ hashCode first = hashCode second := by
  constructor
  · exact fun same => toUnsignedHex_inj (List.append_cancel_left same)
  · intro same
    rw [externalKey, externalKey, same]

/-- The loop from the last definition to the first: it takes those of the path
out and keeps the key of the one it met last. -/
def takeOut (modelPath : Units) (key : Units) :
    List ExternalTranscriptionModel → Units × List ExternalTranscriptionModel
  | [] => (key, [])
  | model :: rest =>
    let later := takeOut modelPath key rest
    if model.modelPath = modelPath then (model.key, later.2) else (later.1, model :: later.2)

/-- The arguments of `saveVerified`. -/
structure SaveCall where
  name : Units
  modelPath : Units
  computeType : Units
  probe : ProbeResult
  deriving DecidableEq, Repr

def savedComputeType (engine : WhisperInferenceEngine) (computeType : Units) : Units :=
  if engine = .cTranslate2 ∧ trim computeType = [] then ofString "int8" else trim computeType

/-- `saveVerified`: the file afterwards and the saved model. -/
def saveVerified (file : File) (call : SaveCall) :
    Except String (File × ExternalTranscriptionModel) :=
  match call.probe.detectedEngine with
  | none => .error "The model could not be loaded"
  | some engine =>
    if !call.probe.loaded then .error "The model could not be loaded"
    else
      let others := takeOut call.modelPath (externalKey call.modelPath) (read file)
      match ExternalTranscriptionModel.new others.1 call.name call.modelPath engine
          (savedComputeType engine call.computeType) with
      | .error message => .error message
      | .ok saved => .ok (write (others.2 ++ [saved]), saved)

/-- The file with the models that were saved in it, the newest first. -/
structure Saves where
  file : File
  saved : List ExternalTranscriptionModel

def Saves.initial : Saves := ⟨none, []⟩

/-- A call that throws changes nothing. -/
def step : Step Saves SaveCall := fun saves call =>
  match saveVerified saves.file call with
  | .error _ => some saves
  | .ok (file, saved) => some ⟨file, saved :: saves.saved⟩

/-- The keys are distinct, every saved path has exactly one definition, and the
model saved last is found under its key. -/
structure Findable (saves : Saves) : Prop where
  keys : ((read saves.file).map (·.key)).Nodup
  paths : ((read saves.file).map (·.modelPath)).Nodup
  stored : ∀ saved ∈ saves.saved, ∃ model ∈ read saves.file, model.modelPath = saved.modelPath
  last : ∀ saved ∈ saves.saved.head?, ∃ found,
    find saves.file (some saved.key) saved.engine = some found ∧ found.label = saved.name ∧
      found.modelPath = saved.modelPath ∧ found.engine = saved.engine ∧
      found.computeType = saved.computeType

/-- What the file holds whoever wrote it: texts that the bytes kept, and keys that
no model of the assets has. -/
structure Readable (model : ExternalTranscriptionModel) : Prop where
  key : WellFormedUtf16 model.key
  name : WellFormedUtf16 model.name
  path : WellFormedUtf16 model.modelPath
  compute : WellFormedUtf16 model.computeType
  external : model.key.head? = some 0x65

def readBack (model : ExternalTranscriptionModel) : ExternalTranscriptionModel where
  key := throughUtf8 model.key
  name := throughUtf8 model.name
  displayName := throughUtf8 model.name ++ ExternalTranscriptionModel.suffix model.engine
  modelPath := throughUtf8 model.modelPath
  engine := model.engine
  computeType := throughUtf8 model.computeType
  keyFilled := ⟨trimmed_throughUtf8 model.keyFilled.1,
    fun empty => model.keyFilled.2 ((throughUtf8_eq_nil_iff _).mp empty)⟩
  nameFilled := ⟨trimmed_throughUtf8 model.nameFilled.1,
    fun empty => model.nameFilled.2 ((throughUtf8_eq_nil_iff _).mp empty)⟩
  pathFilled := ⟨trimmed_throughUtf8 model.pathFilled.1,
    fun empty => model.pathFilled.2 ((throughUtf8_eq_nil_iff _).mp empty)⟩
  computeTrimmed := trimmed_throughUtf8 model.computeTrimmed

private theorem wellFormed_jsonValue (engine : WhisperInferenceEngine) :
    WellFormedUtf16 engine.jsonValue := by
  cases engine with
  | whisperCpp => exact wellFormedUtf16_encoded _
  | cTranslate2 => exact wellFormedUtf16_encoded _

theorem readEntry_writeEntry (model : ExternalTranscriptionModel) :
    readEntry (writeEntry model) = some (readBack model) := by
  have key : trim (throughUtf8 model.key) = throughUtf8 model.key :=
    trim_of_trimmed (readBack model).keyFilled.1
  have name : trim (throughUtf8 model.name) = throughUtf8 model.name :=
    trim_of_trimmed (readBack model).nameFilled.1
  have path : trim (throughUtf8 model.modelPath) = throughUtf8 model.modelPath :=
    trim_of_trimmed (readBack model).pathFilled.1
  have filled : trim (throughUtf8 model.key) ≠ [] ∧ trim (throughUtf8 model.name) ≠ [] ∧
      trim (throughUtf8 model.modelPath) ≠ [] := by
    rw [key, name, path]
    exact ⟨(readBack model).keyFilled.2, (readBack model).nameFilled.2,
      (readBack model).pathFilled.2⟩
  unfold readEntry writeEntry
  rw [throughUtf8_of_wellFormed (wellFormed_jsonValue _),
    WhisperInferenceEngine.fromJsonValue_jsonValue]
  simp only [ExternalTranscriptionModel.new, dif_pos filled, Except.toOption, Option.some.injEq]
  exact ExternalTranscriptionModel.ext key name rfl path rfl
    (trim_of_trimmed (readBack model).computeTrimmed)

/-- The file gives every model back as the bytes kept it. -/
theorem read_write (models : List ExternalTranscriptionModel) :
    ExternalModelJsonStore.read (write models) = models.map readBack := by
  show (models.map writeEntry).filterMap readEntry = _
  rw [List.filterMap_map, ← List.filterMap_eq_map]
  apply List.filterMap_congr
  intro model _
  exact readEntry_writeEntry model

theorem takeOut_eq (modelPath key : Units) (models : List ExternalTranscriptionModel) :
    takeOut modelPath key models =
      (((models.find? fun model => model.modelPath = modelPath).map (·.key)).getD key,
        models.filter fun model => model.modelPath ≠ modelPath) := by
  induction models with
  | nil => rfl
  | cons model rest ih =>
    rw [takeOut, ih]
    by_cases same : model.modelPath = modelPath
    · simp [same]
    · simp [same]

theorem readable_externalKey (modelPath : Units) :
    WellFormedUtf16 (externalKey modelPath) ∧ Filled (externalKey modelPath) ∧
      (externalKey modelPath).head? = some 0x65 := by
  obtain ⟨digits, some, below, -, hex⟩ := toUnsignedHex_spec (hashCode modelPath)
  have front : ofString "external-" =
      [0x65, 0x78, 0x74, 0x65, 0x72, 0x6E, 0x61, 0x6C, 0x2D] := by decide
  have digit : ∀ unit ∈ toUnsignedHex (hashCode modelPath), isHighSurrogate unit = false ∧
      isLowSurrogate unit = false ∧ isBlank unit = false := by
    rw [hex]
    intro unit member
    obtain ⟨digit, held, rfl⟩ := List.mem_map.mp member
    exact hexDigit_plain (below digit held)
  have filled : toUnsignedHex (hashCode modelPath) ≠ [] := by simpa [hex] using some
  have first : (externalKey modelPath).head? = Option.some 0x65 := by
    rw [externalKey, front]
    rfl
  refine ⟨wellFormed_of_plain ?_, ⟨⟨?_, ?_⟩, ?_⟩, first⟩
  · intro unit member
    rcases List.mem_append.mp member with ascii | hexadecimal
    · rw [front] at ascii
      have table : ([0x65, 0x78, 0x74, 0x65, 0x72, 0x6E, 0x61, 0x6C, 0x2D] : Units).all
          (fun unit => !isHighSurrogate unit && !isLowSurrogate unit) = true := by decide
      simpa using List.all_eq_true.mp table unit ascii
    · exact ⟨(digit unit hexadecimal).1, (digit unit hexadecimal).2.1⟩
  · rw [first]
    intro unit same
    cases same
    decide
  · rw [externalKey, List.getLast?_append_of_ne_nil _ filled]
    intro unit last
    exact (digit unit (List.mem_of_getLast? last)).2.2
  · intro empty
    rw [empty] at first
    cases first

private theorem bundled_key {engine : WhisperInferenceEngine} {model : TranscriptionModel}
    (member : model ∈ bundled engine) : model.key.head? = some 0x63 := by
  cases engine with
  | cTranslate2 =>
    obtain ⟨option, -, rfl⟩ := List.mem_map.mp member
    cases option <;> decide
  | whisperCpp =>
    obtain ⟨option, -, rfl⟩ := List.mem_map.mp member
    cases option <;> decide

private theorem find_bundled {engine : WhisperInferenceEngine} {key : Units}
    (external : key.head? = some 0x65) :
    (bundled engine).find? (fun model => model.key == key) = none := by
  rw [List.find?_eq_none]
  intro model member same
  have clash := bundled_key member
  rw [beq_iff_eq.mp same, external] at clash
  exact absurd clash (by decide)

theorem find_eq {file : File} {key : Units} (engine : WhisperInferenceEngine)
    (external : key.head? = some 0x65) :
    find file (some key) engine =
      (((ExternalModelJsonStore.read file).filter (·.engine = engine)).find?
        (fun model => model.key == key)).map .external := by
  rw [find, list, List.find?_append, find_bundled external, Option.none_or, List.find?_map]
  rfl

theorem find?_of_nodup {models : List ExternalTranscriptionModel}
    (distinct : (models.map (·.key)).Nodup) {model : ExternalTranscriptionModel}
    (member : model ∈ models) : models.find? (fun other => other.key == model.key) = some model := by
  induction models with
  | nil => cases member
  | cons other rest ih =>
    rw [List.map_cons, List.nodup_cons] at distinct
    rcases List.mem_cons.mp member with rfl | later
    · simp
    · have different : other.key ≠ model.key := by
        intro same
        exact distinct.1 (same ▸ List.mem_map_of_mem later)
      rw [List.find?_cons_of_neg (by simpa using different)]
      exact ih distinct.2 later

private theorem find_external {file : File} {model : ExternalTranscriptionModel}
    (distinct : ((ExternalModelJsonStore.read file).map (·.key)).Nodup)
    (member : model ∈ ExternalModelJsonStore.read file) (external : model.key.head? = some 0x65) :
    find file (some model.key) model.engine = some (.external model) := by
  have kept : model ∈ (ExternalModelJsonStore.read file).filter (·.engine = model.engine) :=
    List.mem_filter.mpr ⟨member, by simp⟩
  have fewer := (List.filter_sublist (l := ExternalModelJsonStore.read file)
    (p := (·.engine = model.engine))).map (·.key)
  rw [find_eq _ external, find?_of_nodup (distinct.sublist fewer) kept]
  rfl

/-- The arguments that `saveVerified` does not refuse. -/
def SaveCall.Accepted (call : SaveCall) : Prop :=
  call.probe.detectedEngine.isSome ∧ call.probe.loaded = true ∧ trim call.name ≠ [] ∧
    trim call.modelPath ≠ []

instance (call : SaveCall) : Decidable call.Accepted := inferInstanceAs (Decidable (_ ∧ _))

def savedKey (models : List ExternalTranscriptionModel) (modelPath : Units) : Units :=
  ((models.find? fun model => model.modelPath = modelPath).map (·.key)).getD
    (externalKey modelPath)

theorem readable_savedKey {models : List ExternalTranscriptionModel}
    (readable : ∀ model ∈ models, Readable model) (modelPath : Units) :
    WellFormedUtf16 (savedKey models modelPath) ∧ Filled (savedKey models modelPath) ∧
      (savedKey models modelPath).head? = some 0x65 := by
  unfold savedKey
  cases found : models.find? fun model => model.modelPath = modelPath with
  | none => exact readable_externalKey modelPath
  | some model =>
    have held := readable model (List.mem_of_find?_eq_some found)
    exact ⟨held.key, model.keyFilled, held.external⟩

/-- What an accepted save writes. -/
theorem saveVerified_accepted {file : File} {call : SaveCall}
    (readable : ∀ model ∈ ExternalModelJsonStore.read file, Readable model)
    (accepted : call.Accepted) :
    ∃ saved, saveVerified file call = .ok (write (((ExternalModelJsonStore.read file).filter
        fun model => model.modelPath ≠ call.modelPath) ++ [saved]), saved) ∧
      saved.key = savedKey (ExternalModelJsonStore.read file) call.modelPath ∧
      saved.name = trim call.name ∧ saved.modelPath = trim call.modelPath ∧
      saved.computeType = trim (savedComputeType saved.engine call.computeType) := by
  obtain ⟨detected, loaded, name, path⟩ := accepted
  obtain ⟨engine, engineIs⟩ := Option.isSome_iff_exists.mp detected
  have key := (readable_savedKey readable call.modelPath).2.1
  have filled : trim (savedKey (ExternalModelJsonStore.read file) call.modelPath) ≠ [] ∧
      trim call.name ≠ [] ∧ trim call.modelPath ≠ [] := by
    rw [trim_of_trimmed key.1]
    exact ⟨key.2, name, path⟩
  have unrefused : (!call.probe.loaded) = false := by rw [loaded]; rfl
  unfold saveVerified
  rw [engineIs]
  simp only [takeOut_eq, unrefused, Bool.false_eq_true, if_false]
  rw [← savedKey, ExternalTranscriptionModel.new, dif_pos filled]
  exact ⟨_, rfl, trim_of_trimmed key.1, rfl, rfl, rfl⟩

/-- A call that is not accepted throws. -/
theorem saveVerified_refused (file : File) {call : SaveCall} (refused : ¬ call.Accepted) :
    ∃ message, saveVerified file call = .error message := by
  unfold saveVerified
  cases engineIs : call.probe.detectedEngine with
  | none => exact ⟨_, rfl⟩
  | some engine =>
    cases loaded : call.probe.loaded with
    | false => exact ⟨_, rfl⟩
    | true =>
      simp only [Bool.not_true, Bool.false_eq_true, if_false]
      rw [ExternalTranscriptionModel.new, dif_neg]
      · exact ⟨_, rfl⟩
      · rintro ⟨-, name, path⟩
        exact refused ⟨by rw [engineIs]; rfl, loaded, name, path⟩

private theorem readable_readBack {model : ExternalTranscriptionModel}
    (formed : WellFormedUtf16 model.key) (external : model.key.head? = some 0x65) :
    Readable (readBack model) := by
  refine ⟨throughUtf8_wellFormed _, throughUtf8_wellFormed _, throughUtf8_wellFormed _,
    throughUtf8_wellFormed _, ?_⟩
  show (throughUtf8 model.key).head? = _
  rw [throughUtf8_of_wellFormed formed]
  exact external

theorem readBack_readable {model : ExternalTranscriptionModel} (readable : Readable model) :
    (readBack model).key = model.key ∧ (readBack model).modelPath = model.modelPath :=
  ⟨throughUtf8_of_wellFormed readable.key, throughUtf8_of_wellFormed readable.path⟩

theorem read_saved {models : List ExternalTranscriptionModel}
    (readable : ∀ model ∈ models, Readable model) (saved : ExternalTranscriptionModel)
    (savedFormed : WellFormedUtf16 saved.key) :
    (ExternalModelJsonStore.read (write (models ++ [saved]))).map (·.key) =
        models.map (·.key) ++ [saved.key] ∧
      (ExternalModelJsonStore.read (write (models ++ [saved]))).map (·.modelPath) =
        models.map (·.modelPath) ++ [throughUtf8 saved.modelPath] := by
  rw [read_write, List.map_append, List.map_append, List.map_append]
  constructor
  · congr 1
    · rw [List.map_map]
      apply List.map_congr_left
      intro model member
      exact (readBack_readable (readable model member)).1
    · exact congrArg (fun key => [key]) (throughUtf8_of_wellFormed savedFormed)
  · congr 1
    rw [List.map_map]
    apply List.map_congr_left
    intro model member
    exact (readBack_readable (readable model member)).2

/-- The texts of a call survive the bytes, and its path is that of a stored
definition or can be confused with none: neither the path without the blanks
around it nor the key made of its hash is in use. -/
structure ToldApart (file : File) (call : SaveCall) : Prop where
  name : WellFormedUtf16 (trim call.name)
  path : WellFormedUtf16 (trim call.modelPath)
  compute : WellFormedUtf16 (trim call.computeType)
  apart : (∃ model ∈ ExternalModelJsonStore.read file, model.modelPath = call.modelPath) ∨
    ∀ model ∈ ExternalModelJsonStore.read file,
      model.modelPath ≠ trim call.modelPath ∧ model.key ≠ externalKey call.modelPath

theorem wellFormed_savedComputeType (engine : WhisperInferenceEngine) (computeType : Units) :
    WellFormedUtf16 (trim (savedComputeType engine computeType)) ↔
      WellFormedUtf16 (trim computeType) := by
  unfold savedComputeType
  split
  · next unset =>
    have kept : trim (ofString "int8") = ofString "int8" := trim_of_trimmed (by decide)
    rw [kept, unset.2]
    exact iff_of_true (wellFormedUtf16_encoded _) (wellFormed_of_plain (by simp))
  · rw [trim_trim]

/-- The key and the path of an accepted save are new among the definitions that
stay exactly when its path is told apart. -/
theorem fresh_iff {models : List ExternalTranscriptionModel}
    (keys : (models.map (·.key)).Nodup) (modelPath : Units) :
    (savedKey models modelPath ∉
        (models.filter fun model => model.modelPath ≠ modelPath).map (·.key) ∧
      trim modelPath ∉
        (models.filter fun model => model.modelPath ≠ modelPath).map (·.modelPath)) ↔
    (∃ model ∈ models, model.modelPath = modelPath) ∨
      ∀ model ∈ models, model.modelPath ≠ trim modelPath ∧ model.key ≠ externalKey modelPath := by
  unfold savedKey
  cases found : models.find? fun model => model.modelPath = modelPath with
  | some known =>
    have held := List.mem_of_find?_eq_some found
    have path : known.modelPath = modelPath := by simpa using List.find?_some found
    have trimmed : trim modelPath = modelPath := by
      rw [← path]
      exact trim_of_trimmed known.pathFilled.1
    refine iff_of_true ⟨?_, ?_⟩ (.inl ⟨known, held, path⟩)
    · intro taken
      obtain ⟨other, kept, same⟩ := List.mem_map.mp taken
      obtain ⟨member, different⟩ := List.mem_filter.mp kept
      have one := List.inj_on_of_nodup_map keys member held same
      rw [one, path] at different
      simp at different
    · rw [trimmed]
      intro taken
      obtain ⟨other, kept, same⟩ := List.mem_map.mp taken
      have different := (List.mem_filter.mp kept).2
      rw [same] at different
      simp at different
  | none =>
    have unknown : ∀ model ∈ models, model.modelPath ≠ modelPath := by
      intro model member
      simpa using List.find?_eq_none.mp found model member
    have all : (models.filter fun model => model.modelPath ≠ modelPath) = models := by
      apply List.filter_eq_self.mpr
      intro model member
      simpa using unknown model member
    rw [all]
    constructor
    · rintro ⟨key, path⟩
      right
      intro model member
      refine ⟨?_, ?_⟩
      · intro same
        exact path (same ▸ List.mem_map_of_mem member)
      · intro same
        exact key (List.mem_map.mpr ⟨model, member, same⟩)
    · rintro (⟨model, member, same⟩ | free)
      · exact absurd same (unknown model member)
      · refine ⟨?_, ?_⟩
        · intro taken
          obtain ⟨model, member, same⟩ := List.mem_map.mp taken
          exact (free model member).2 same
        · intro taken
          obtain ⟨model, member, same⟩ := List.mem_map.mp taken
          exact (free model member).1 same

theorem readable_of_written {models : List ExternalTranscriptionModel}
    {model : ExternalTranscriptionModel}
    (formed : ∀ model ∈ models, WellFormedUtf16 model.key ∧ model.key.head? = some 0x65)
    (member : model ∈ ExternalModelJsonStore.read (write models)) : Readable model := by
  rw [read_write] at member
  obtain ⟨written, held, rfl⟩ := List.mem_map.mp member
  exact readable_readBack (formed written held).1 (formed written held).2

private theorem find_readable {file : File} {key : Units} {engine : WhisperInferenceEngine}
    {found : TranscriptionModel}
    (readable : ∀ model ∈ ExternalModelJsonStore.read file, Readable model)
    (external : key.head? = some 0x65) (taken : find file (some key) engine = some found) :
    WellFormedUtf16 found.label ∧ WellFormedUtf16 found.computeType := by
  rw [find_eq _ external] at taken
  obtain ⟨model, held, rfl⟩ := Option.map_eq_some_iff.mp taken
  have member := (List.mem_filter.mp (List.mem_of_find?_eq_some held)).1
  exact ⟨(readable model member).name, (readable model member).compute⟩

private theorem stored_saved {models : List ExternalTranscriptionModel} {modelPath : Units}
    {saved model : ExternalTranscriptionModel} (readable : ∀ model ∈ models, Readable model)
    (path : (readBack saved).modelPath = trim modelPath) (held : model ∈ models) :
    ∃ after ∈ ExternalModelJsonStore.read
        (write ((models.filter fun model => model.modelPath ≠ modelPath) ++ [saved])),
      after.modelPath = model.modelPath := by
  rw [read_write]
  by_cases replaced : model.modelPath = modelPath
  · refine ⟨readBack saved, ?_, ?_⟩
    · exact List.mem_map_of_mem (List.mem_append_right _ (List.mem_singleton_self _))
    · rw [path, ← replaced, trim_of_trimmed model.pathFilled.1]
  · have kept : model ∈ models.filter fun model => model.modelPath ≠ modelPath :=
      List.mem_filter.mpr ⟨held, decide_eq_true replaced⟩
    exact ⟨readBack model, List.mem_map_of_mem (List.mem_append_left _ kept),
      (readBack_readable (readable model held)).2⟩

section Saved

variable {kept earlier : List ExternalTranscriptionModel} {saved : ExternalTranscriptionModel}

private theorem readable_saved (readable : ∀ model ∈ kept, Readable model)
    (formed : WellFormedUtf16 saved.key) (external : saved.key.head? = some 0x65) :
    ∀ model ∈ ExternalModelJsonStore.read (write (kept ++ [saved])), Readable model := by
  intro model member
  refine readable_of_written (fun model member => ?_) member
  rcases List.mem_append.mp member with old | new
  · exact ⟨(readable model old).key, (readable model old).external⟩
  · rw [List.mem_singleton.mp new]
    exact ⟨formed, external⟩

/-- The bytes keep its texts, and its key and its path are new. -/
structure Distinct (kept : List ExternalTranscriptionModel) (saved : ExternalTranscriptionModel) :
    Prop where
  name : WellFormedUtf16 saved.name
  path : WellFormedUtf16 saved.modelPath
  compute : WellFormedUtf16 saved.computeType
  newKey : saved.key ∉ kept.map (·.key)
  newPath : saved.modelPath ∉ kept.map (·.modelPath)

/-- A definition that was written last and is found as it was saved. -/
theorem Findable.distinct
    (after : Findable ⟨write (kept ++ [saved]), saved :: earlier⟩)
    (readable : ∀ model ∈ kept, Readable model) (formed : WellFormedUtf16 saved.key)
    (external : saved.key.head? = some 0x65) : Distinct kept saved := by
  have afterReadable := readable_saved readable formed external
  obtain ⟨keysAfter, pathsAfter⟩ := read_saved readable saved formed
  have keys := after.keys
  have paths := after.paths
  rw [keysAfter, List.nodup_append] at keys
  rw [pathsAfter, List.nodup_append] at paths
  obtain ⟨model, member, samePath⟩ := after.stored saved (List.mem_cons_self ..)
  have path : WellFormedUtf16 saved.modelPath := by
    rw [← samePath]
    exact (afterReadable model member).path
  obtain ⟨found, taken, label, -, -, type⟩ := after.last saved rfl
  have texts := find_readable afterReadable external taken
  refine ⟨?_, path, ?_, ?_, ?_⟩
  · rw [← label]
    exact texts.1
  · rw [← type]
    exact texts.2
  · intro taken
    exact keys.2.2 _ taken _ (List.mem_singleton_self _) rfl
  · intro taken
    exact paths.2.2 _ taken _ (List.mem_singleton_self _) (throughUtf8_of_wellFormed path).symm

theorem Distinct.findable (distinct : Distinct kept saved)
    (readable : ∀ model ∈ kept, Readable model) (formed : WellFormedUtf16 saved.key)
    (external : saved.key.head? = some 0x65) (keptKeys : (kept.map (·.key)).Nodup)
    (keptPaths : (kept.map (·.modelPath)).Nodup)
    (stored : ∀ one ∈ earlier, ∃ model ∈ ExternalModelJsonStore.read (write (kept ++ [saved])),
      model.modelPath = one.modelPath) :
    Findable ⟨write (kept ++ [saved]), saved :: earlier⟩ := by
  obtain ⟨keysAfter, pathsAfter⟩ := read_saved readable saved formed
  have savedRead : readBack saved ∈ ExternalModelJsonStore.read (write (kept ++ [saved])) := by
    rw [read_write]
    exact List.mem_map_of_mem (List.mem_append_right _ (List.mem_singleton_self _))
  have readKey : (readBack saved).key = saved.key := throughUtf8_of_wellFormed formed
  have readPath : (readBack saved).modelPath = saved.modelPath :=
    throughUtf8_of_wellFormed distinct.path
  have keys : ((ExternalModelJsonStore.read (write (kept ++ [saved]))).map (·.key)).Nodup := by
    rw [keysAfter]
    exact keptKeys.append (List.nodup_singleton _) (by simpa using distinct.newKey)
  refine ⟨keys, ?_, ?_, ?_⟩
  · rw [pathsAfter, throughUtf8_of_wellFormed distinct.path]
    exact keptPaths.append (List.nodup_singleton _) (by simpa using distinct.newPath)
  · intro one member
    rcases List.mem_cons.mp member with rfl | old
    · exact ⟨_, savedRead, readPath⟩
    · exact stored one old
  · intro newest member
    cases member
    refine ⟨.external (readBack saved), ?_, throughUtf8_of_wellFormed distinct.name, readPath, rfl,
      throughUtf8_of_wellFormed distinct.compute⟩
    have found := find_external keys savedRead (by rw [readKey]; exact external)
    rwa [readKey] at found

end Saved

/-- What an accepted save writes is distinct exactly when its call is told apart. -/
theorem distinct_iff {file : File} {call : SaveCall} {saved : ExternalTranscriptionModel}
    (keys : ((ExternalModelJsonStore.read file).map (·.key)).Nodup)
    (key : saved.key = savedKey (ExternalModelJsonStore.read file) call.modelPath)
    (name : saved.name = trim call.name) (path : saved.modelPath = trim call.modelPath)
    (compute : saved.computeType = trim (savedComputeType saved.engine call.computeType)) :
    Distinct ((ExternalModelJsonStore.read file).filter
        fun model => model.modelPath ≠ call.modelPath) saved ↔ ToldApart file call := by
  have fresh := fresh_iff keys call.modelPath
  rw [← key, ← path] at fresh
  constructor
  · intro distinct
    refine ⟨name ▸ distinct.name, path ▸ distinct.path, ?_,
      path ▸ fresh.mp ⟨distinct.newKey, distinct.newPath⟩⟩
    rw [← wellFormed_savedComputeType saved.engine, ← compute]
    exact distinct.compute
  · intro apart
    obtain ⟨newKey, newPath⟩ := fresh.mpr (path.symm ▸ apart.apart)
    refine ⟨name ▸ apart.name, path ▸ apart.path, ?_, newKey, newPath⟩
    rw [compute, wellFormed_savedComputeType]
    exact apart.compute

/-- An accepted save keeps everything findable exactly when its call is told apart. -/
theorem findable_saved_iff {saves : Saves} {call : SaveCall} {saved : ExternalTranscriptionModel}
    (readable : ∀ model ∈ ExternalModelJsonStore.read saves.file, Readable model)
    (findable : Findable saves)
    (key : saved.key = savedKey (ExternalModelJsonStore.read saves.file) call.modelPath)
    (name : saved.name = trim call.name) (path : saved.modelPath = trim call.modelPath)
    (compute : saved.computeType = trim (savedComputeType saved.engine call.computeType)) :
    Findable ⟨write (((ExternalModelJsonStore.read saves.file).filter
        fun model => model.modelPath ≠ call.modelPath) ++ [saved]), saved :: saves.saved⟩ ↔
      ToldApart saves.file call := by
  obtain ⟨formed, -, external⟩ := readable_savedKey readable call.modelPath
  rw [← key] at formed external
  have keptReadable : ∀ model ∈ (ExternalModelJsonStore.read saves.file).filter
      (fun model => model.modelPath ≠ call.modelPath), Readable model :=
    fun model member => readable model (List.mem_filter.mp member).1
  rw [← distinct_iff findable.keys key name path compute]
  constructor
  · exact fun after => after.distinct keptReadable formed external
  · intro distinct
    apply distinct.findable keptReadable formed external
      (findable.keys.sublist (List.filter_sublist.map _))
      (findable.paths.sublist (List.filter_sublist.map _))
    intro earlier old
    obtain ⟨model, held, samePath⟩ := findable.stored earlier old
    have readPath : (readBack saved).modelPath = trim call.modelPath :=
      (throughUtf8_of_wellFormed distinct.path).trans path
    obtain ⟨after, stays, same⟩ := stored_saved readable readPath held
    exact ⟨after, stays, same.trans samePath⟩

/-- The condition of a step: a call that is not refused is told apart. -/
def SafeSave (saves : Saves) (call : SaveCall) : Prop := call.Accepted → ToldApart saves.file call

def Written (saves : Saves) : Prop :=
  ∀ model ∈ ExternalModelJsonStore.read saves.file, Readable model

/-- What one call leaves. -/
theorem step_cases {saves after : Saves} {call : SaveCall} (written : Written saves)
    (taken : step saves call = some after) :
    (¬ call.Accepted ∧ after = saves) ∨
      (call.Accepted ∧ ∃ saved : ExternalTranscriptionModel,
        after = ⟨write (((ExternalModelJsonStore.read saves.file).filter
          fun model => model.modelPath ≠ call.modelPath) ++ [saved]), saved :: saves.saved⟩ ∧
        saved.key = savedKey (ExternalModelJsonStore.read saves.file) call.modelPath ∧
        saved.name = trim call.name ∧ saved.modelPath = trim call.modelPath ∧
        saved.computeType = trim (savedComputeType saved.engine call.computeType)) := by
  by_cases accepted : call.Accepted
  · obtain ⟨saved, result, facts⟩ := saveVerified_accepted written accepted
    rw [step, result] at taken
    cases taken
    exact .inr ⟨accepted, saved, rfl, facts⟩
  · obtain ⟨message, result⟩ := saveVerified_refused saves.file accepted
    rw [step, result] at taken
    cases taken
    exact .inl ⟨accepted, rfl⟩

theorem step_written {saves after : Saves} {call : SaveCall} (written : Written saves)
    (taken : step saves call = some after) : Written after := by
  rcases step_cases written taken with ⟨-, rfl⟩ | ⟨-, saved, rfl, key, -⟩
  · exact written
  · have facts := readable_savedKey written call.modelPath
    rw [← key] at facts
    intro model member
    refine readable_of_written ?_ member
    intro kept held
    rcases List.mem_append.mp held with old | new
    · have readable := written kept (List.mem_filter.mp old).1
      exact ⟨readable.key, readable.external⟩
    · rw [List.mem_singleton.mp new]
      exact ⟨facts.1, facts.2.2⟩

/-- The step lemma: from a state where every model can be found, a call leads to
such a state exactly when it meets the condition. -/
theorem step_findable_iff {saves after : Saves} {call : SaveCall} (written : Written saves)
    (findable : Findable saves) (taken : step saves call = some after) :
    Findable after ↔ SafeSave saves call := by
  rcases step_cases written taken with
    ⟨refused, rfl⟩ | ⟨accepted, saved, rfl, key, name, path, type⟩
  · exact iff_of_true findable fun accepted => absurd accepted refused
  · rw [findable_saved_iff written findable key name path type]
    exact ⟨fun apart _ => apart, fun safe => safe accepted⟩

theorem written_initial : Written Saves.initial := by
  intro model member
  cases member

private theorem findable_initial : Findable Saves.initial where
  keys := List.nodup_nil
  paths := List.nodup_nil
  stored := by
    intro saved member
    cases member
  last := by
    intro saved member
    cases member

/-- Every saved model can be found again in every state of a run exactly when every
accepted call of the run is told apart from the definitions that are stored then. -/
theorem findable_iff_told_apart (calls : List SaveCall) :
    Always step Findable Saves.initial calls ↔ Each step SafeSave Saves.initial calls :=
  always_iff_each (fun written _ _ taken => step_written written taken)
    (fun written findable taken => step_findable_iff written findable taken)
    written_initial findable_initial calls

/-- A Whisper.cpp file that the probe could load. -/
def savedFile (name modelPath : String) : SaveCall :=
  ⟨ofString name, ofString modelPath, [], ⟨true, false, some .whisperCpp⟩⟩

/-- Two paths of the same hash: the second definition is saved under the key of the
first. -/
theorem same_hash_shares_key : ¬ ∀ calls, Always step Findable Saves.initial calls := by
  intro always
  have run := always [savedFile "first" "/models/Aa", savedFile "second" "/models/BB"]
  obtain ⟨first, taken⟩ : ∃ first,
      step Saves.initial (savedFile "first" "/models/Aa") = some first := by
    unfold step
    split <;> exact ⟨_, rfl⟩
  have reached := run.2 first taken
  obtain ⟨second, takenNext⟩ : ∃ second,
      step first (savedFile "second" "/models/BB") = some second := by
    unfold step
    split <;> exact ⟨_, rfl⟩
  have written := step_written written_initial taken
  have apart := (step_findable_iff written reached.1 takenNext).mp (reached.2 second takenNext)
    (by decide)
  rcases step_cases written_initial taken with ⟨refused, -⟩ | ⟨-, saved, rfl, key, -, path, -⟩
  · exact refused (by decide)
  · have held : readBack saved ∈ ExternalModelJsonStore.read (write [saved]) := by
      rw [read_write]
      exact List.mem_singleton_self _
    have facts := readable_savedKey written_initial (ofString "/models/Aa")
    have readKey : (readBack saved).key = externalKey (ofString "/models/Aa") := by
      show throughUtf8 saved.key = _
      rw [key]
      exact throughUtf8_of_wellFormed facts.1
    have sameHash : hashCode (ofString "/models/Aa") = hashCode (ofString "/models/BB") := by
      decide
    have readPath : (readBack saved).modelPath = ofString "/models/Aa" := by
      show throughUtf8 saved.modelPath = _
      rw [path]
      decide
    rcases apart.apart with ⟨model, member, same⟩ | free
    · change model ∈ ExternalModelJsonStore.read (write [saved]) at member
      rw [read_write, List.map_singleton, List.mem_singleton] at member
      rw [member, readPath] at same
      exact absurd same (by decide)
    · apply (free _ held).2
      rw [readKey, externalKey, sameHash]
      rfl

/-- Two imported definitions, one for each engine. -/
def importedLive : ExternalTranscriptionModel where
  key := ofString "external-1a"
  name := ofString "medium"
  displayName := ofString "medium(CTranslate2)"
  modelPath := ofString "/models/medium"
  engine := .cTranslate2
  computeType := ofString "float32"
  keyFilled := by unfold Filled; decide
  nameFilled := by unfold Filled; decide
  pathFilled := by unfold Filled; decide
  computeTrimmed := by decide

def importedFile : ExternalTranscriptionModel where
  key := ofString "external-2b"
  name := ofString "large"
  displayName := ofString "large(Whisper.cpp)"
  modelPath := ofString "/models/large.bin"
  engine := .whisperCpp
  computeType := []
  keyFilled := by unfold Filled; decide
  nameFilled := by unfold Filled; decide
  pathFilled := by unfold Filled; decide
  computeTrimmed := by decide

end ExternalModelRepository

end LocalWhisper.SettingUI
