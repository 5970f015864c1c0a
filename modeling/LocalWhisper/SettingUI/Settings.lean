import LocalWhisper.Machine.JavaFloat
import LocalWhisper.SettingUI.Models
import LocalWhisper.Transcription.Settings

/-! The user's settings with all they hold, as the constructors leave them, and
what the constructors make of settings that went through one before. -/

namespace LocalWhisper.SettingUI

open Machine Machine.JavaString
open Transcription (clamp)

inductive WhisperLanguageOption where
  | japanese
  | english
  | auto
  | chinese
  | korean
  | spanish
  | french
  | german
  deriving DecidableEq, Repr

namespace WhisperLanguageOption

def values : List WhisperLanguageOption :=
  [.japanese, .english, .auto, .chinese, .korean, .spanish, .french, .german]

def value : WhisperLanguageOption → Units
  | .japanese => ofString "ja"
  | .english => ofString "en"
  | .auto => ofString "auto"
  | .chinese => ofString "zh"
  | .korean => ofString "ko"
  | .spanish => ofString "es"
  | .french => ofString "fr"
  | .german => ofString "de"

/-- `fromValue`; null and unknown texts stand for Japanese. -/
def fromValue : Option Units → WhisperLanguageOption
  | none => .japanese
  | some text => (values.find? fun option => option.value == trim text).getD .japanese

theorem fromValue_value (option : WhisperLanguageOption) : fromValue (some option.value) = option := by
  cases option <;> decide

end WhisperLanguageOption

/-- A language of the list. -/
def KnownLanguage (language : Units) : Prop :=
  ∃ option : WhisperLanguageOption, option.value = language

theorem KnownLanguage.fromValue {language : Units} (known : KnownLanguage language) :
    (WhisperLanguageOption.fromValue (some language)).value = language := by
  obtain ⟨option, rfl⟩ := known
  rw [WhisperLanguageOption.fromValue_value]

theorem clamp_mem {lower upper : Int} (range : lower ≤ upper) (value : Int) :
    lower ≤ clamp value lower upper ∧ clamp value lower upper ≤ upper := max_min_mem range value

theorem clampThreads_mem (maxThreads : Int) :
    1 ≤ clamp maxThreads 1 8 ∧ clamp maxThreads 1 8 ≤ 8 := clamp_mem (by decide) maxThreads

theorem clampWindow_mem (windowMs : Int) :
    1000 ≤ clamp windowMs 1000 30000 ∧ clamp windowMs 1000 30000 ≤ 30000 :=
  clamp_mem (by decide) windowMs

private theorem clampMinFinal_mem (minFinalMs windowMs : Int) :
    250 ≤ clamp minFinalMs 250 (clamp windowMs 1000 30000) ∧
      clamp minFinalMs 250 (clamp windowMs 1000 30000) ≤ clamp windowMs 1000 30000 :=
  clamp_mem (le_trans (by decide) (clampWindow_mem windowMs).1) minFinalMs

theorem clamp_of_mem {lower upper value : Int} (range : lower ≤ value ∧ value ≤ upper) :
    clamp value lower upper = value := max_min_of_mem range.1 range.2

/-- A threshold between `0.0f` and `1.0f`. -/
def clampThreshold (value : JavaFloat) : JavaFloat := max .zero (min .one value)

/-- Both constructors trim a prompt and cut it at 300 units. -/
def cutPrompt (prompt : Option Units) : Units :=
  let value := match prompt with
    | none => []
    | some text => trim text
  if value.length ≤ 300 then value else value.take 300

/-- What is left of a prompt: only a cut one can end in a blank. -/
structure PromptRange (text : Units) : Prop where
  short : text.length ≤ 300
  start : ∀ unit ∈ text.head?, isBlank unit = false
  ending : text.length < 300 → ∀ unit ∈ text.getLast?, isBlank unit = false

theorem cutPrompt_some (text : Units) : cutPrompt (some text) = (trim text).take 300 := by
  simp only [cutPrompt]
  split
  · next short => exact (List.take_of_length_le short).symm
  · rfl

theorem promptRange_cutPrompt (prompt : Option Units) : PromptRange (cutPrompt prompt) := by
  cases prompt with
  | none => exact ⟨by decide, nofun, nofun⟩
  | some text =>
    have trimmed := trimmed_trim text
    rw [cutPrompt_some]
    refine ⟨?_, ?_, ?_⟩
    · exact List.length_take_le ..
    · intro unit first
      exact trimmed.1 unit (head_of_front (List.take_prefix ..) unit first)
    · intro short
      rw [List.length_take] at short
      rw [List.take_of_length_le (by omega)]
      exact trimmed.2

theorem PromptRange.trimmed_iff {text : Units} (range : PromptRange text) :
    Trimmed text ↔ ∀ unit ∈ text.getLast?, isBlank unit = false :=
  ⟨fun trimmed => trimmed.2, fun ending => ⟨range.start, ending⟩⟩

theorem promptRange_iff (text : Units) : PromptRange text ↔ ∃ prompt, cutPrompt prompt = text := by
  refine ⟨fun range => ?_, fun ⟨prompt, same⟩ => same ▸ promptRange_cutPrompt prompt⟩
  by_cases ending : ∀ unit ∈ text.getLast?, isBlank unit = false
  · refine ⟨some text, ?_⟩
    rw [cutPrompt_some, trim_of_trimmed (range.trimmed_iff.mpr ending),
      List.take_of_length_le range.short]
  · have full : text.length = 300 := by
      rcases Nat.lt_or_ge text.length 300 with short | long
      · exact absurd (range.ending short) ending
      · exact Nat.le_antisymm range.short long
    have longer : Trimmed (text ++ ofString "a") := by
      constructor
      · intro unit first
        have filled : text ≠ [] := by
          intro empty
          simp [empty] at full
        rw [List.head?_append_of_ne_nil _ filled] at first
        exact range.start unit first
      · intro unit last
        have same : unit = 0x61 := by simpa [ofString, Unicode.utf16EncodeChar] using last.symm
        rw [same]
        decide
    refine ⟨some (text ++ ofString "a"), ?_⟩
    rw [cutPrompt_some, trim_of_trimmed longer, List.take_left' full]

theorem PromptRange.cutPrompt_eq_self_iff {text : Units} (range : PromptRange text) :
    cutPrompt (some text) = text ↔ ∀ unit ∈ text.getLast?, isBlank unit = false := by
  rw [cutPrompt_some, List.take_of_length_le ((length_trim_le text).trans range.short),
    trim_eq_self_iff, range.trimmed_iff]

namespace FileTranscriptionWindowLimits

def minSeconds : Int := 30

def absoluteMaxSeconds : Int := 5 * 60

def stepSeconds : Int := 10

/-- `normalizeSeconds`. `Math.round` of the quotient is the floor after half a step
is added: below 2^23 tenths the float is never on the wrong side of a half. -/
def normalizeSeconds (seconds maxSeconds : Int) : Int :=
  let safeMax := max minSeconds maxSeconds
  let rounded := (seconds + stepSeconds / 2) / stepSeconds * stepSeconds
  max minSeconds (min safeMax rounded)

theorem normalizeSeconds_of_steps {windowMs : Int} (range : 30000 ≤ windowMs ∧ windowMs ≤ 300000)
    (steps : windowMs % 10000 = 0) :
    normalizeSeconds (windowMs.tdiv 1000) absoluteMaxSeconds * 1000 = windowMs := by
  have floor : windowMs.tdiv 1000 = windowMs / 1000 :=
    Int.tdiv_eq_ediv_of_nonneg (by omega)
  simp only [normalizeSeconds, minSeconds, absoluteMaxSeconds, stepSeconds, floor]
  omega

end FileTranscriptionWindowLimits

open FileTranscriptionWindowLimits

@[ext] structure FileTranscriptionSettings where
  model : TranscriptionModel
  language : Units
  maxThreads : Int
  windowMs : Int
  vadEnabled : Bool
  vadThreshold : JavaFloat
  translateToEnglish : Bool
  prompt : Units
  languageKnown : KnownLanguage language
  threadRange : 1 ≤ maxThreads ∧ maxThreads ≤ 8
  windowRange : 30000 ≤ windowMs ∧ windowMs ≤ 300000
  windowSteps : windowMs % 10000 = 0
  thresholdRange : .zero ≤ vadThreshold ∧ vadThreshold ≤ .one
  promptRange : PromptRange prompt

namespace FileTranscriptionSettings

def defaultModel : TranscriptionModel := .file .smallQ80

def defaultWindowMs : Int := 30000

/-- `0.5f`. -/
def defaultVadThreshold : JavaFloat := ⟨0x3F000000, by decide⟩

/-- The constructor. -/
def new (model : Option TranscriptionModel) (language : Option Units) (maxThreads windowMs : Int)
    (vadEnabled : Bool) (vadThreshold : JavaFloat) (translateToEnglish : Bool)
    (prompt : Option Units) : FileTranscriptionSettings where
  model := model.getD defaultModel
  language := (WhisperLanguageOption.fromValue language).value
  maxThreads := clamp maxThreads 1 8
  windowMs := normalizeSeconds (windowMs.tdiv 1000) absoluteMaxSeconds * 1000
  vadEnabled
  vadThreshold := clampThreshold vadThreshold
  translateToEnglish
  prompt := cutPrompt prompt
  languageKnown := ⟨_, rfl⟩
  threadRange := clampThreads_mem maxThreads
  windowRange := by
    simp only [normalizeSeconds, minSeconds, absoluteMaxSeconds, stepSeconds]
    omega
  windowSteps := by
    simp only [normalizeSeconds, minSeconds, absoluteMaxSeconds, stepSeconds]
    omega
  thresholdRange := max_min_mem JavaFloat.zero_le_one vadThreshold
  promptRange := promptRange_cutPrompt prompt

/-- The constructor once more, over the values it made before. -/
def rebuilt (settings : FileTranscriptionSettings) : FileTranscriptionSettings :=
  .new (some settings.model) (some settings.language) settings.maxThreads settings.windowMs
    settings.vadEnabled settings.vadThreshold settings.translateToEnglish (some settings.prompt)

theorem new_of_fields (settings : FileTranscriptionSettings) (prompt : Option Units) :
    new (some settings.model) (some settings.language) settings.maxThreads settings.windowMs
      settings.vadEnabled settings.vadThreshold settings.translateToEnglish prompt =
      { settings with
        prompt := cutPrompt prompt
        promptRange := promptRange_cutPrompt prompt } := by
  ext1
  · rfl
  · exact settings.languageKnown.fromValue
  · exact clamp_of_mem settings.threadRange
  · exact normalizeSeconds_of_steps settings.windowRange settings.windowSteps
  · rfl
  · exact max_min_of_mem settings.thresholdRange.1 settings.thresholdRange.2
  · rfl
  · rfl

end FileTranscriptionSettings

/-- The settings for live transcription, with those for files. -/
@[ext] structure WhisperSettings where
  model : TranscriptionModel
  language : Units
  windowMs : Int
  overlapMs : Int
  minFinalMs : Int
  maxThreads : Int
  audioRecordingEnabled : Bool
  autoRetranscribeEnabled : Bool
  vadEnabled : Bool
  vadThreshold : JavaFloat
  translateToEnglish : Bool
  prompt : Units
  fileTranscription : FileTranscriptionSettings
  languageKnown : KnownLanguage language
  windowRange : 1000 ≤ windowMs ∧ windowMs ≤ 30000
  overlapRange : 0 ≤ overlapMs ∧ overlapMs ≤ max 0 (windowMs - 250)
  minFinalRange : 250 ≤ minFinalMs ∧ minFinalMs ≤ windowMs
  threadRange : 1 ≤ maxThreads ∧ maxThreads ≤ 8
  retranscribeRecorded : autoRetranscribeEnabled = true → audioRecordingEnabled = true
  thresholdRange : .zero ≤ vadThreshold ∧ vadThreshold ≤ .one
  promptRange : PromptRange prompt

namespace WhisperSettings

def defaultModel : TranscriptionModel := .realtime .ct2SmallInt8

def defaultLanguage : Units := WhisperLanguageOption.japanese.value

def defaultWindowMs : Int := 5000

def defaultOverlapMs : Int := 1000

def defaultMinFinalMs : Int := 1000

def defaultMaxThreads : Int := 4

/-- `0.1f`. -/
def defaultVadThreshold : JavaFloat := ⟨0x3DCCCCCD, by decide⟩

end WhisperSettings

/-- `FileTranscriptionSettings.defaultSettings`. -/
def FileTranscriptionSettings.defaultSettings : FileTranscriptionSettings :=
  .new (some defaultModel) (some WhisperSettings.defaultLanguage) WhisperSettings.defaultMaxThreads
    defaultWindowMs true defaultVadThreshold false (some [])

namespace WhisperSettings

private theorem recorded_of_retranscribe {recording retranscribe : Bool}
    (enabled : (recording && retranscribe) = true) : recording = true :=
  (Bool.and_eq_true_iff.mp enabled).1

/-- The constructor; the overlap and the shortest final window depend on the
window that is kept. -/
def new (model : Option TranscriptionModel) (language : Option Units)
    (windowMs overlapMs minFinalMs maxThreads : Int)
    (audioRecordingEnabled autoRetranscribeEnabled vadEnabled : Bool) (vadThreshold : JavaFloat)
    (translateToEnglish : Bool) (prompt : Option Units)
    (fileTranscription : Option FileTranscriptionSettings) : WhisperSettings where
  model := model.getD defaultModel
  language := (WhisperLanguageOption.fromValue language).value
  windowMs := clamp windowMs 1000 30000
  overlapMs := clamp overlapMs 0 (max 0 (clamp windowMs 1000 30000 - 250))
  minFinalMs := clamp minFinalMs 250 (clamp windowMs 1000 30000)
  maxThreads := clamp maxThreads 1 8
  audioRecordingEnabled
  autoRetranscribeEnabled := audioRecordingEnabled && autoRetranscribeEnabled
  vadEnabled
  vadThreshold := clampThreshold vadThreshold
  translateToEnglish
  prompt := cutPrompt prompt
  fileTranscription := fileTranscription.getD .defaultSettings
  languageKnown := ⟨_, rfl⟩
  windowRange := clampWindow_mem windowMs
  overlapRange := clamp_mem (le_max_left ..) overlapMs
  minFinalRange := clampMinFinal_mem minFinalMs windowMs
  threadRange := clampThreads_mem maxThreads
  retranscribeRecorded := recorded_of_retranscribe
  thresholdRange := max_min_mem JavaFloat.zero_le_one vadThreshold
  promptRange := promptRange_cutPrompt prompt

/-- `defaultSettings`. -/
def defaultSettings : WhisperSettings :=
  .new (some defaultModel) (some defaultLanguage) defaultWindowMs defaultOverlapMs
    defaultMinFinalMs defaultMaxThreads false false true defaultVadThreshold false (some [])
    (some .defaultSettings)

/-- Both constructors once more, over the values they made before. -/
def rebuilt (settings : WhisperSettings) : WhisperSettings :=
  .new (some settings.model) (some settings.language) settings.windowMs settings.overlapMs
    settings.minFinalMs settings.maxThreads settings.audioRecordingEnabled
    settings.autoRetranscribeEnabled settings.vadEnabled settings.vadThreshold
    settings.translateToEnglish (some settings.prompt) (some settings.fileTranscription.rebuilt)

theorem new_of_fields (settings : WhisperSettings) (prompt : Option Units)
    (file : FileTranscriptionSettings) :
    new (some settings.model) (some settings.language) settings.windowMs settings.overlapMs
      settings.minFinalMs settings.maxThreads settings.audioRecordingEnabled
      settings.autoRetranscribeEnabled settings.vadEnabled settings.vadThreshold
      settings.translateToEnglish prompt (some file) =
      { settings with
        prompt := cutPrompt prompt
        fileTranscription := file
        promptRange := promptRange_cutPrompt prompt } := by
  have window : clamp settings.windowMs 1000 30000 = settings.windowMs :=
    clamp_of_mem settings.windowRange
  ext1
  · rfl
  · exact settings.languageKnown.fromValue
  · exact window
  · simp only [new, window]
    exact clamp_of_mem settings.overlapRange
  · simp only [new, window]
    exact clamp_of_mem settings.minFinalRange
  · exact clamp_of_mem settings.threadRange
  · rfl
  · simp only [new]
    cases recorded : settings.audioRecordingEnabled with
    | true => exact Bool.true_and _
    | false =>
      cases enabled : settings.autoRetranscribeEnabled with
      | true => exact absurd (settings.retranscribeRecorded enabled) (by simp [recorded])
      | false => rfl
  · rfl
  · exact max_min_of_mem settings.thresholdRange.1 settings.thresholdRange.2
  · rfl
  · rfl
  · rfl

end WhisperSettings

theorem FileTranscriptionSettings.exists_new (settings : FileTranscriptionSettings) :
    ∃ prompt, new (some settings.model) (some settings.language) settings.maxThreads
      settings.windowMs settings.vadEnabled settings.vadThreshold settings.translateToEnglish
      prompt = settings := by
  obtain ⟨prompt, same⟩ := (promptRange_iff settings.prompt).mp settings.promptRange
  refine ⟨prompt, ?_⟩
  rw [new_of_fields, FileTranscriptionSettings.ext_iff]
  simp [same]

theorem WhisperSettings.exists_new (settings : WhisperSettings) :
    ∃ prompt, new (some settings.model) (some settings.language) settings.windowMs
      settings.overlapMs settings.minFinalMs settings.maxThreads settings.audioRecordingEnabled
      settings.autoRetranscribeEnabled settings.vadEnabled settings.vadThreshold
      settings.translateToEnglish prompt (some settings.fileTranscription) = settings := by
  obtain ⟨prompt, same⟩ := (promptRange_iff settings.prompt).mp settings.promptRange
  refine ⟨prompt, ?_⟩
  rw [new_of_fields, WhisperSettings.ext_iff]
  simp [same]

/-- The settings with which the constructors change nothing. -/
theorem FileTranscriptionSettings.rebuilt_eq_self_iff (settings : FileTranscriptionSettings) :
    settings.rebuilt = settings ↔ ∀ unit ∈ settings.prompt.getLast?, isBlank unit = false := by
  rw [← settings.promptRange.cutPrompt_eq_self_iff, rebuilt, new_of_fields,
    FileTranscriptionSettings.ext_iff]
  simp

theorem WhisperSettings.rebuilt_eq_self_iff (settings : WhisperSettings) :
    settings.rebuilt = settings ↔ (∀ unit ∈ settings.prompt.getLast?, isBlank unit = false) ∧
      ∀ unit ∈ settings.fileTranscription.prompt.getLast?, isBlank unit = false := by
  rw [← settings.promptRange.cutPrompt_eq_self_iff,
    ← settings.fileTranscription.rebuilt_eq_self_iff, rebuilt, new_of_fields,
    WhisperSettings.ext_iff]
  simp

end LocalWhisper.SettingUI
