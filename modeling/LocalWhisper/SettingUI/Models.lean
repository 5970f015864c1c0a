import LocalWhisper.Machine.JavaString

/-! The transcription models that the settings know: those in the assets and the
definitions of imported ones. Texts are UTF-16 units as Java has them. -/

namespace LocalWhisper.SettingUI

open Machine.JavaString

inductive WhisperInferenceEngine where
  | whisperCpp
  | cTranslate2
  deriving DecidableEq, Repr

/-- A unit up to case, as far as a comparison with ASCII letters tells. -/
def foldCase (unit : UInt16) : UInt16 :=
  if 0x41 ≤ unit ∧ unit ≤ 0x5A then unit + 0x20
  else if unit = 0x130 ∨ unit = 0x131 then 0x69
  else if unit = 0x17F then 0x73
  else if unit = 0x212A then 0x6B
  else unit

/-- `equalsIgnoreCase` of an ASCII text. -/
def equalsIgnoreCase (ascii other : Units) : Bool := ascii.map foldCase == other.map foldCase

namespace WhisperInferenceEngine

def jsonValue : WhisperInferenceEngine → Units
  | .whisperCpp => ofString "Whisper"
  | .cTranslate2 => ofString "CTranslate2"

/-- `fromJsonValue`; the error is the text before the value. -/
def fromJsonValue (value : Units) : Except String WhisperInferenceEngine :=
  if equalsIgnoreCase (ofString "Whisper") value then .ok .whisperCpp
  else if equalsIgnoreCase (ofString "CTranslate2") value then .ok .cTranslate2
  else .error "Unknown execution model: "

theorem fromJsonValue_jsonValue (engine : WhisperInferenceEngine) :
    fromJsonValue engine.jsonValue = .ok engine := by
  cases engine with
  | whisperCpp => rfl
  | cTranslate2 => rfl

end WhisperInferenceEngine

/-- The models for live transcription in the assets. -/
inductive WhisperModelOption where
  | ct2BaseInt8
  | ct2SmallInt8
  deriving DecidableEq, Repr

namespace WhisperModelOption

def values : List WhisperModelOption := [.ct2BaseInt8, .ct2SmallInt8]

def key : WhisperModelOption → Units
  | .ct2BaseInt8 => ofString "ct2-openai-base-int8"
  | .ct2SmallInt8 => ofString "ct2-openai-small-int8"

def assetPath : WhisperModelOption → Units
  | .ct2BaseInt8 => ofString "ctranslate2/openai-whisper-base-int8"
  | .ct2SmallInt8 => ofString "ctranslate2/openai-whisper-small-int8"

def description : WhisperModelOption → Units
  | .ct2BaseInt8 => ofString "CTranslate2 openai/whisper-base・int8"
  | .ct2SmallInt8 => ofString "CTranslate2 openai/whisper-small・int8"

end WhisperModelOption

inductive WhisperCppModelOption where
  | baseQ80
  | smallQ80
  deriving DecidableEq, Repr

namespace WhisperCppModelOption

def values : List WhisperCppModelOption := [.baseQ80, .smallQ80]

def key : WhisperCppModelOption → Units
  | .baseQ80 => ofString "cpp-base-q8-0"
  | .smallQ80 => ofString "cpp-small-q8-0"

def assetName : WhisperCppModelOption → Units
  | .baseQ80 => ofString "ggml-base_q8_0.bin"
  | .smallQ80 => ofString "ggml-small_q8_0.bin"

def displayName : WhisperCppModelOption → Units
  | .baseQ80 => ofString "Whisper.cpp base・Q8_0"
  | .smallQ80 => ofString "Whisper.cpp small・Q8_0"

end WhisperCppModelOption

/-- A text that the constructor has trimmed and found not to be empty. -/
def Filled (text : Units) : Prop := Trimmed text ∧ text ≠ []

theorem filled_trim {text : Units} (notEmpty : trim text ≠ []) : Filled (trim text) :=
  ⟨trimmed_trim text, notEmpty⟩

/-- The definition of an imported model. Only the constructor below makes one. -/
@[ext] structure ExternalTranscriptionModel where
  key : Units
  name : Units
  displayName : Units
  modelPath : Units
  engine : WhisperInferenceEngine
  computeType : Units
  keyFilled : Filled key
  nameFilled : Filled name
  pathFilled : Filled modelPath
  computeTrimmed : Trimmed computeType
  deriving DecidableEq

namespace ExternalTranscriptionModel

def suffix : WhisperInferenceEngine → Units
  | .whisperCpp => ofString "(Whisper.cpp)"
  | .cTranslate2 => ofString "(CTranslate2)"

/-- The constructor. The name on the screen keeps the blanks of the argument. -/
def new (key name modelPath : Units) (engine : WhisperInferenceEngine) (computeType : Units) :
    Except String ExternalTranscriptionModel :=
  if filled : trim key ≠ [] ∧ trim name ≠ [] ∧ trim modelPath ≠ [] then
    .ok {
      key := trim key
      name := trim name
      displayName := name ++ suffix engine
      modelPath := trim modelPath
      engine
      computeType := trim computeType
      keyFilled := filled_trim filled.1
      nameFilled := filled_trim filled.2.1
      pathFilled := filled_trim filled.2.2
      computeTrimmed := trimmed_trim computeType }
  else .error "External model fields must not be empty"

end ExternalTranscriptionModel

/-- `ITranscriptionModel` with its three implementations. -/
inductive TranscriptionModel where
  | realtime (option : WhisperModelOption)
  | file (option : WhisperCppModelOption)
  | external (model : ExternalTranscriptionModel)
  deriving DecidableEq

namespace TranscriptionModel

def key : TranscriptionModel → Units
  | .realtime option => option.key
  | .file option => option.key
  | .external model => model.key

def label : TranscriptionModel → Units
  | .realtime option => option.description
  | .file option => option.displayName
  | .external model => model.name

def modelPath : TranscriptionModel → Units
  | .realtime option => option.assetPath
  | .file option => option.assetName
  | .external model => model.modelPath

def engine : TranscriptionModel → WhisperInferenceEngine
  | .realtime _ => .cTranslate2
  | .file _ => .whisperCpp
  | .external model => model.engine

def computeType : TranscriptionModel → Units
  | .realtime _ => ofString "int8"
  | .file _ => []
  | .external model => model.computeType

end TranscriptionModel

end LocalWhisper.SettingUI
