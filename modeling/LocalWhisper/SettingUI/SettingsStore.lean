import LocalWhisper.SettingUI.ExternalModelRepository
import LocalWhisper.SettingUI.Settings

/-! `WhisperSettingsStore` over the preferences of the app: which settings are the
same after they were saved and loaded. -/

namespace LocalWhisper.SettingUI

open Machine Machine.JavaString

inductive PreferenceValue where
  | text (value : Units)
  | int (value : Int)
  | boolean (value : Bool)
  | float (value : JavaFloat)
  deriving DecidableEq

/-- `SharedPreferences`. -/
abbrev Preferences := String → Option PreferenceValue

namespace Preferences

/-- A getter: it falls back on its second argument where nothing was put and
refuses a value of another type. -/
def getValue {Value : Type} (pick : PreferenceValue → Option Value) (preferences : Preferences)
    (key : String) (fallback : Value) : Except String Value :=
  match preferences key with
  | none => .ok fallback
  | some value =>
    match pick value with
    | some picked => .ok picked
    | none => .error "ClassCastException"

def getString : Preferences → String → Units → Except String Units :=
  getValue fun
    | .text value => some value
    | _ => none

def getInt : Preferences → String → Int → Except String Int :=
  getValue fun
    | .int value => some value
    | _ => none

def getBoolean : Preferences → String → Bool → Except String Bool :=
  getValue fun
    | .boolean value => some value
    | _ => none

def getFloat : Preferences → String → JavaFloat → Except String JavaFloat :=
  getValue fun
    | .float value => some value
    | _ => none

/-- An editor that puts its entries one by one. -/
def edit (preferences : Preferences) (entries : List (String × PreferenceValue)) : Preferences :=
  entries.foldl (fun before entry => Function.update before entry.1 (some entry.2)) preferences

private theorem edit_other {key : String} {entries : List (String × PreferenceValue)}
    (absent : key ∉ entries.map Prod.fst) (preferences : Preferences) :
    preferences.edit entries key = preferences key := by
  induction entries generalizing preferences with
  | nil => rfl
  | cons entry rest ih =>
    rw [List.map_cons, List.mem_cons, not_or] at absent
    rw [edit, List.foldl_cons, ← edit, ih absent.2, Function.update_of_ne absent.1]

private theorem edit_returns {entries : List (String × PreferenceValue)}
    (distinct : (entries.map Prod.fst).Nodup) (preferences : Preferences) :
    ∀ entry ∈ entries, preferences.edit entries entry.1 = some entry.2 := by
  induction entries generalizing preferences with
  | nil =>
    intro entry member
    cases member
  | cons first rest ih =>
    rw [List.map_cons, List.nodup_cons] at distinct
    intro entry member
    rw [edit, List.foldl_cons, ← edit]
    rcases List.mem_cons.mp member with rfl | later
    · rw [edit_other distinct.1, Function.update_self]
    · exact ih distinct.2 _ entry later

end Preferences

/-- `WhisperSettingsStore` with the file of its model repository. -/
structure WhisperSettingsStore where
  preferences : Preferences
  models : ExternalModelJsonStore.File

namespace WhisperSettingsStore

open Preferences WhisperSettings

/-- `loadFileSettings`. -/
def loadFileSettings (store : WhisperSettingsStore) : Except String FileTranscriptionSettings := do
  let savedModel := ExternalModelRepository.find store.models
    (some (← store.preferences.getString "file_model" FileTranscriptionSettings.defaultModel.key))
    .whisperCpp
  return .new (some (savedModel.getD FileTranscriptionSettings.defaultModel))
    (some (← store.preferences.getString "file_language" defaultLanguage))
    (← store.preferences.getInt "file_max_threads" defaultMaxThreads)
    (← store.preferences.getInt "file_window_ms" FileTranscriptionSettings.defaultWindowMs)
    (← store.preferences.getBoolean "file_vad_enabled" true)
    (← store.preferences.getFloat "file_vad_threshold"
      FileTranscriptionSettings.defaultVadThreshold)
    (← store.preferences.getBoolean "file_translate_to_english" false)
    (some (← store.preferences.getString "file_prompt" []))

/-- `load`. -/
def load (store : WhisperSettingsStore) : Except String WhisperSettings := do
  let savedRealtime := ExternalModelRepository.find store.models
    (some (← store.preferences.getString "model" defaultModel.key)) .cTranslate2
  let realtimeModel := savedRealtime.getD defaultModel
  let fileSettings ← store.loadFileSettings
  return .new (some realtimeModel)
    (some (← store.preferences.getString "language" defaultLanguage))
    (← store.preferences.getInt "window_ms" defaultWindowMs)
    (← store.preferences.getInt "overlap_ms" defaultOverlapMs)
    (← store.preferences.getInt "min_final_ms" defaultMinFinalMs)
    (← store.preferences.getInt "max_threads" defaultMaxThreads)
    (← store.preferences.getBoolean "audio_recording_enabled" false)
    (← store.preferences.getBoolean "auto_retranscribe_enabled" false)
    (← store.preferences.getBoolean "vad_enabled" true)
    (← store.preferences.getFloat "vad_threshold" defaultVadThreshold)
    (← store.preferences.getBoolean "translate_to_english" false)
    (some (← store.preferences.getString "prompt" []))
    (some fileSettings)

/-- The entries that `save` puts. -/
def fileEntries (file : FileTranscriptionSettings) : List (String × PreferenceValue) :=
  [("file_model", .text file.model.key),
    ("file_language", .text file.language),
    ("file_max_threads", .int file.maxThreads),
    ("file_window_ms", .int file.windowMs),
    ("file_vad_enabled", .boolean file.vadEnabled),
    ("file_vad_threshold", .float file.vadThreshold),
    ("file_translate_to_english", .boolean file.translateToEnglish),
    ("file_prompt", .text file.prompt)]

def entries (value : WhisperSettings) : List (String × PreferenceValue) :=
  [("model", .text value.model.key),
    ("language", .text value.language),
    ("window_ms", .int value.windowMs),
    ("overlap_ms", .int value.overlapMs),
    ("min_final_ms", .int value.minFinalMs),
    ("max_threads", .int value.maxThreads),
    ("audio_recording_enabled", .boolean value.audioRecordingEnabled),
    ("auto_retranscribe_enabled", .boolean value.autoRetranscribeEnabled),
    ("vad_enabled", .boolean value.vadEnabled),
    ("vad_threshold", .float value.vadThreshold),
    ("translate_to_english", .boolean value.translateToEnglish),
    ("prompt", .text value.prompt)] ++ fileEntries value.fileTranscription

/-- `save`; null stands for the default settings. -/
def save (store : WhisperSettingsStore) (settings : Option WhisperSettings) :
    WhisperSettingsStore :=
  { store with preferences := store.preferences.edit (entries (settings.getD defaultSettings)) }

/-- The model is listed for the engine, and no other listed model has its key. -/
def ListedOnce (models : ExternalModelJsonStore.File) (engine : WhisperInferenceEngine)
    (model : TranscriptionModel) : Prop :=
  model ∈ ExternalModelRepository.list models engine ∧
    ∀ other ∈ ExternalModelRepository.list models engine, other.key = model.key → other = model

section Rules

variable {store : WhisperSettingsStore} {value : WhisperSettings}

theorem ListedOnce.find {models : ExternalModelJsonStore.File} {engine : WhisperInferenceEngine}
    {model : TranscriptionModel} (listed : ListedOnce models engine model) :
    ExternalModelRepository.find models (some model.key) engine = some model := by
  simp only [ExternalModelRepository.find]
  cases found : (ExternalModelRepository.list models engine).find?
      fun other => other.key == model.key with
  | none =>
    have missing := List.find?_eq_none.mp found model listed.1
    simp at missing
  | some other =>
    have same := listed.2 other (List.mem_of_find?_eq_some found)
      (by simpa using List.find?_some found)
    rw [same]

/-- The preferences hold every entry of the settings. -/
def Holds (preferences : Preferences) (entries : List (String × PreferenceValue)) : Prop :=
  ∀ entry ∈ entries, preferences entry.1 = some entry.2

private theorem distinct_entries (value : WhisperSettings) :
    ((entries value).map Prod.fst).Nodup := by
  simp [entries, fileEntries]

private theorem loadFileSettings_of_holds {file : FileTranscriptionSettings}
    (held : Holds store.preferences (fileEntries file))
    (listed : ListedOnce store.models .whisperCpp file.model) :
    store.loadFileSettings = .ok file.rebuilt := by
  simp only [Holds, fileEntries, List.forall_mem_cons, List.not_mem_nil, false_imp_iff,
    implies_true, and_true] at held
  simp only [loadFileSettings, getString, getInt, getBoolean, getFloat, getValue, held,
    pure, bind, Except.pure, Except.bind, listed.find]
  rfl

private theorem load_of_holds (held : Holds store.preferences (entries value))
    (realtime : ListedOnce store.models .cTranslate2 value.model)
    (listed : ListedOnce store.models .whisperCpp value.fileTranscription.model) :
    store.load = .ok value.rebuilt := by
  obtain ⟨live, file⟩ := List.forall_mem_append.mp held
  have fileSettings := loadFileSettings_of_holds file listed
  simp only [List.forall_mem_cons, List.not_mem_nil, false_imp_iff, implies_true,
    and_true] at live
  simp only [load, getString, getInt, getBoolean, getFloat, getValue, live, pure, bind,
    Except.pure, Except.bind, realtime.find, fileSettings]
  rfl

theorem load_save_eq (realtime : ListedOnce store.models .cTranslate2 value.model)
    (listed : ListedOnce store.models .whisperCpp value.fileTranscription.model) :
    (store.save (some value)).load = .ok value.rebuilt :=
  load_of_holds (edit_returns (distinct_entries value) store.preferences) realtime listed

end Rules

/-- Saved settings come back exactly when no prompt of theirs ends in a blank. -/
theorem load_save_iff {store : WhisperSettingsStore} {settings : WhisperSettings}
    (realtime : ListedOnce store.models .cTranslate2 settings.model)
    (file : ListedOnce store.models .whisperCpp settings.fileTranscription.model) :
    (store.save (some settings)).load = .ok settings ↔
      (∀ unit ∈ settings.prompt.getLast?, isBlank unit = false) ∧
        ∀ unit ∈ settings.fileTranscription.prompt.getLast?, isBlank unit = false := by
  rw [load_save_eq realtime file, Except.ok.injEq, WhisperSettings.rebuilt_eq_self_iff]

/-- A store in which nothing was put, with two imported models. -/
def imported : WhisperSettingsStore :=
  ⟨fun _ => none, ExternalModelJsonStore.write
    [ExternalModelRepository.importedFile, ExternalModelRepository.importedLive]⟩

/-- Settings that differ from the default ones in every field. -/
def tunedSettings : WhisperSettings :=
  .new (some (.external ExternalModelRepository.importedLive)) (some (ofString "fr"))
    8000 2000 1500 2 true true false .one true (some (ofString "noms propres"))
    (some (.new (some (.external ExternalModelRepository.importedFile)) (some (ofString "de"))
      8 120000 false .zero true (some (ofString "Eigennamen"))))

theorem load_save_iff_tuned : (imported.save (some tunedSettings)).load = .ok tunedSettings := by
  have ends {units : Units} (last : units.getLast?.all (fun unit => !isBlank unit) = true) :
      ∀ unit ∈ units.getLast?, isBlank unit = false := by
    intro unit member
    rw [Option.mem_def.mp member] at last
    simpa using last
  refine (load_save_iff ⟨?_, ?_⟩ ⟨?_, ?_⟩).mpr ⟨ends ?_, ends ?_⟩
  all_goals decide +kernel

/-- A store in which nothing was put and no model imported. -/
def fresh : WhisperSettingsStore := ⟨fun _ => none, none⟩

theorem listedOnce_default : ListedOnce fresh.models .cTranslate2 defaultModel := by
  refine ⟨by decide, ?_⟩
  decide

theorem listedOnce_file_default :
    ListedOnce fresh.models .whisperCpp FileTranscriptionSettings.defaultModel := by
  refine ⟨by decide, ?_⟩
  decide

/-- A prompt of 301 units, cut behind its only blank. -/
def blankAtCut : WhisperSettings :=
  .new none none 5000 1000 1000 4 false false true .zero false
    (some (List.replicate 299 0x61 ++ ofString " b")) none

/-- The blank is stored, and lost when the settings are loaded. -/
theorem blank_at_cut_lost : ¬ ∀ (store : WhisperSettingsStore) (settings : WhisperSettings),
    ListedOnce store.models .cTranslate2 settings.model →
    ListedOnce store.models .whisperCpp settings.fileTranscription.model →
    (store.save (some settings)).load = .ok settings := by
  intro always
  have same := always fresh blankAtCut listedOnce_default listedOnce_file_default
  rw [load_save_eq listedOnce_default listedOnce_file_default, Except.ok.injEq] at same
  have prompts : blankAtCut.rebuilt.prompt.length = blankAtCut.prompt.length := by rw [same]
  exact absurd prompts (by decide +kernel)

end WhisperSettingsStore

end LocalWhisper.SettingUI
