import LocalWhisper.TransscriptsJSON.Data

/-! `TranscriptionTextRepository` with its extractor and formatter: the text
file that is made from the JSON file of a session. -/

namespace LocalWhisper.TranscriptionText

open LocalWhisper.TransscriptsJSON

structure TranscriptionTextItem where
  timeMs : Int
  text : String
  deriving DecidableEq, Repr

namespace TranscriptionJsonItemTextExtractor

/-- `extract` of an item that was not yet turned into an object. -/
def extractItem (item : TranscriptionJsonItem) : TranscriptionTextItem :=
  ⟨item.recordingTimeMs, item.text⟩

def extract (object : JSONObject) : TranscriptionTextItem :=
  ⟨object.optLong "recordingTimeMs" 0, object.optString "text" ""⟩

/-- `items.getJSONObject(i)`, which throws a JSONException on anything else. -/
def getJSONObject : JSONValue → Option JSONObject
  | .object entries => some entries
  | _ => none

def extractItems (root : JSONObject) : Option (List TranscriptionTextItem) :=
  match root.optJSONArray "items" with
  | none => some []
  | some items => items.mapM fun item => (getJSONObject item).map extract

end TranscriptionJsonItemTextExtractor

namespace TranscriptionTextFormatter

/-- A number with at least this many digits, as `%02d` prints it. -/
def padded (width number : Nat) : List Char :=
  let digits := Nat.toDigits 10 number
  List.replicate (width - digits.length) '0' ++ digits

def formatTime (timeMs : Int) : List Char :=
  let safeMs := (max 0 timeMs).toNat
  padded 2 (safeMs / 60000) ++ ':' :: padded 2 (safeMs % 60000 / 1000) ++
    '.' :: padded 3 (safeMs % 1000)

/-- `String.trim`: everything up to the blank counts as white space. -/
def trim (text : List Char) : List Char :=
  let blank (char : Char) : Bool := char.toNat ≤ 0x20
  ((text.dropWhile blank).reverse.dropWhile blank).reverse

def formatLine (timeMs : Int) (text : String) : List Char :=
  '[' :: formatTime timeMs ++ [']', ' '] ++ trim text.toList ++ ['\n']

def format (items : List TranscriptionTextItem) : String :=
  String.ofList (items.flatMap fun item => formatLine item.timeMs item.text)

end TranscriptionTextFormatter

namespace TranscriptionTextFilter

def filter (input : String) : String := input

end TranscriptionTextFilter

/-- `sanitizeFileName`, which the writer and the repository both have. -/
def sanitizeFileName (value : Text) : Text :=
  if value.isEmpty then "transcription".toList
  else value.map fun char =>
    if char.isAlphanum || char == '.' || char == '_' || char == '-' then char else '_'

def jsonExtension : Text := ['.', 'j', 's', 'o', 'n']

/-- The name of `outputFile`. -/
def jsonFileName (sessionId : Text) : Text := sanitizeFileName sessionId ++ jsonExtension

/-- Cut at the last dot, unless the name begins with it. -/
def removeExtension (fileName : Text) : Text :=
  match fileName.reverse.dropWhile (· != '.') with
  | [] => fileName
  | _ :: front => if front.isEmpty then fileName else front.reverse

def textFileName (baseName : Text) : Text := sanitizeFileName baseName ++ ['.', 't', 'x', 't']

/-- The directories `transcriptions` and `transcription_texts` by file name. A
JSON file that holds no document is not there. -/
structure TranscriptionFiles where
  jsons : Text → Option JSONObject
  texts : Text → Option String

namespace TranscriptionTextRepository

def saveText (files : TranscriptionFiles) (baseName : Text) (text : String) : TranscriptionFiles :=
  { files with texts := fun name =>
      if name = textFileName baseName then some text else files.texts name }

def clearFilteredText (files : TranscriptionFiles) (baseName : Text) : TranscriptionFiles :=
  saveText files baseName ""

/-- The text goes to the end of the file, which is created when it is missing. -/
def appendFilteredText (files : TranscriptionFiles) (baseName : Text) (text : String) :
    TranscriptionFiles :=
  let before := (files.texts (textFileName baseName)).getD ""
  { files with texts := fun name =>
      if name = textFileName baseName then some (before ++ TranscriptionTextFilter.filter text)
      else files.texts name }

/-- Nothing when the file cannot be read as a document. -/
def saveFromJsonFile (files : TranscriptionFiles) (jsonFile : Text) : Option TranscriptionFiles := do
  let root ← files.jsons jsonFile
  let items ← TranscriptionJsonItemTextExtractor.extractItems root
  return saveText files (removeExtension jsonFile)
    (TranscriptionTextFilter.filter (TranscriptionTextFormatter.format items))

end TranscriptionTextRepository

private theorem extract_toJsonObject (item : TranscriptionJsonItem) :
    TranscriptionJsonItemTextExtractor.extract item.toJsonObject =
      TranscriptionJsonItemTextExtractor.extractItem item := by
  simp [TranscriptionJsonItemTextExtractor.extract, TranscriptionJsonItemTextExtractor.extractItem,
    TranscriptionJsonItem.toJsonObject, JSONObject.optLong, JSONObject.optString,
    JSONObject.opt_put]

/-- The text items of a document are those of its stored items, in order. -/
theorem extractItems_buildRootObject (writer : TranscriptionJsonWriter) (finishedAtUnixMs : Nat)
    (events : List WhisperTranscriptionEvent) :
    TranscriptionJsonItemTextExtractor.extractItems
        (writer.buildRootObject finishedAtUnixMs (events.map jsonItem)) =
      some (events.map fun event => TranscriptionJsonItemTextExtractor.extractItem
        (TranscriptionJsonItem.fromEvent event)) := by
  unfold TranscriptionJsonItemTextExtractor.extractItems
  rw [TranscriptionJsonWriter.items_buildRootObject]
  simp only
  induction events with
  | nil => rfl
  | cons event rest ih =>
    rw [List.map_cons, List.mapM_cons, ih]
    simp only [jsonItem, TranscriptionJsonItemTextExtractor.getJSONObject, Option.map_some,
      extract_toJsonObject, List.map_cons]
    rfl

theorem sanitizeFileName_ne_nil (value : Text) : sanitizeFileName value ≠ [] := by
  unfold sanitizeFileName
  split
  · decide
  · rename_i present
    simpa using present

/-- A file name is clean, so cleaning it again changes nothing. -/
theorem sanitizeFileName_idem (value : Text) :
    sanitizeFileName (sanitizeFileName value) = sanitizeFileName value := by
  have clean : ∀ char ∈ sanitizeFileName value,
      (if char.isAlphanum || char == '.' || char == '_' || char == '-' then char else '_') =
        char := by
    intro char member
    unfold sanitizeFileName at member
    split at member
    · have fallback : ("transcription".toList.all fun char =>
          decide ((if char.isAlphanum || char == '.' || char == '_' || char == '-' then char
            else '_') = char)) = true := by
        decide
      exact of_decide_eq_true (List.all_eq_true.mp fallback char member)
    · obtain ⟨origin, _, rfl⟩ := List.mem_map.mp member
      by_cases kept : origin.isAlphanum || origin == '.' || origin == '_' || origin == '-'
      · simp only [kept, if_true]
      · simp only [kept, Bool.false_eq_true, if_false]
        decide
  have full := sanitizeFileName_ne_nil value
  generalize sanitizeFileName value = name at clean full
  unfold sanitizeFileName
  rw [if_neg (by simpa using full)]
  exact (List.map_congr_left clean).trans (List.map_id' name)

/-- The text made from the JSON file of a session is the text of that session. -/
theorem textFileName_jsonFileName (sessionId : Text) :
    textFileName (removeExtension (jsonFileName sessionId)) = textFileName sessionId := by
  have cut : removeExtension (jsonFileName sessionId) = sanitizeFileName sessionId := by
    have full := sanitizeFileName_ne_nil sessionId
    unfold removeExtension jsonFileName
    generalize sanitizeFileName sessionId = name at full
    simp [jsonExtension, full]
  rw [cut]
  unfold textFileName
  rw [sanitizeFileName_idem]

end LocalWhisper.TranscriptionText
