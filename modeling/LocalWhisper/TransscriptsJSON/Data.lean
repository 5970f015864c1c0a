import LocalWhisper.Events

/-! The JSON document of a session as a tree: `TranscriptionJsonItem`, the root
that `TranscriptionJsonWriter` builds, and reading a document by its keys. -/

namespace LocalWhisper.TransscriptsJSON

inductive JSONValue where
  | integer (value : Int)
  | real (value : Rat)
  | boolean (value : Bool)
  | text (value : String)
  | array (items : List JSONValue)
  | object (entries : List (String × JSONValue))

/-- The entries of an object in the order in which their keys were first put. -/
abbrev JSONObject := List (String × JSONValue)

namespace JSONObject

/-- A key that is there keeps its place and gets the new value. -/
def put : JSONObject → String → JSONValue → JSONObject
  | [], name, value => [(name, value)]
  | (key, held) :: rest, name, value =>
    if key = name then (key, value) :: rest else (key, held) :: put rest name value

def opt (object : JSONObject) (name : String) : Option JSONValue := List.lookup name object

/-- `optLong`. A number written as a text, which no writer here produces, is not
converted. -/
def optLong (object : JSONObject) (name : String) (fallback : Int) : Int :=
  match object.opt name with
  | some (.integer value) => value
  | some (.real value) => if 0 ≤ value then value.floor else value.ceil
  | _ => fallback

/-- `optString`, of a text; no writer here puts anything else. -/
def optString (object : JSONObject) (name : String) (fallback : String) : String :=
  match object.opt name with
  | some (.text value) => value
  | _ => fallback

def optJSONArray (object : JSONObject) (name : String) : Option (List JSONValue) :=
  match object.opt name with
  | some (.array items) => some items
  | _ => none

theorem opt_cons (entry : String × JSONValue) (rest : JSONObject) (name : String) :
    opt (entry :: rest) name = if name = entry.1 then some entry.2 else opt rest name := by
  obtain ⟨key, held⟩ := entry
  by_cases same : name = key
  · simp [opt, same]
  · have test : (name == key) = false := beq_eq_false_iff_ne.mpr same
    simp only [opt, List.lookup_cons, test, if_neg same]

theorem opt_put (object : JSONObject) (name other : String) (value : JSONValue) :
    (object.put name value).opt other = if other = name then some value else object.opt other := by
  induction object with
  | nil => exact opt_cons (name, value) [] other
  | cons entry rest ih =>
    obtain ⟨key, held⟩ := entry
    unfold put
    by_cases here : key = name
    · rw [if_pos here, opt_cons, opt_cons]
      by_cases same : other = name
      · simp [same, here]
      · simp [same, here]
    · rw [if_neg here, opt_cons, opt_cons, ih]
      by_cases same : other = key
      · simp [same, here]
      · simp [same]

end JSONObject

structure TranscriptionJsonItem where
  sequence : Int
  recordingTimeMs : Int
  durationMs : Int
  processingTimeMs : Int
  text : String
  speakerChanged : Bool
  deriving DecidableEq, Repr

namespace TranscriptionJsonItem

def fromEvent (event : WhisperTranscriptionEvent) : TranscriptionJsonItem :=
  { sequence := event.sequence
    recordingTimeMs := event.startMs
    durationMs := event.durationMs
    processingTimeMs := max 0 event.processingTimeMs
    text := event.text
    speakerChanged := event.speakerChanged }

def toJsonObject (item : TranscriptionJsonItem) : JSONObject :=
  let object : JSONObject := []
  let object := object.put "sequence" (.integer item.sequence)
  let object := object.put "recordingTimeMs" (.integer item.recordingTimeMs)
  let object := object.put "durationMs" (.integer item.durationMs)
  let object := object.put "processingTimeMs" (.integer item.processingTimeMs)
  let object := object.put "text" (.text item.text)
  object.put "speakerChanged" (.boolean item.speakerChanged)

end TranscriptionJsonItem

/-- The stored form of an event. -/
def jsonItem (event : WhisperTranscriptionEvent) : JSONValue :=
  .object (TranscriptionJsonItem.fromEvent event).toJsonObject

def WhisperTranscriptionTag.name : WhisperTranscriptionTag → String
  | .recording => "Recording"
  | .fileTranscribing => "FileTranscribing"
  | .stopping => "Stopping"

/-- The fields of the writer that stay as its constructor set them. -/
structure TranscriptionJsonWriter where
  sessionId : Text
  createdAtUnixMs : Nat
  initialPrompt : String
  vadEnabled : Bool
  vadThreshold : Rat
  windowMs : Nat
  lang : String
  modelKey : String
  tag : WhisperTranscriptionTag

namespace TranscriptionJsonWriter

def schemaVersion : Int := 1

/-- The document with these items; `finishedAtUnixMs` is 0 until `finish`. -/
def buildRootObject (writer : TranscriptionJsonWriter) (finishedAtUnixMs : Nat)
    (items : List JSONValue) : JSONObject :=
  let root : JSONObject := []
  let root := root.put "schemaVersion" (.integer schemaVersion)
  let root := root.put "sessionId" (.text (String.ofList writer.sessionId))
  let root := root.put "createdAtUnixMs" (.integer writer.createdAtUnixMs)
  let root := root.put "finishedAtUnixMs" (.integer finishedAtUnixMs)
  let root := root.put "modelKey" (.text writer.modelKey)
  let root := root.put "tag" (.text (WhisperTranscriptionTag.name writer.tag))
  let root := root.put "initialPrompt" (.text writer.initialPrompt)
  let root := root.put "vadEnabled" (.boolean writer.vadEnabled)
  let root := root.put "vadThreshold" (.real writer.vadThreshold)
  let root := root.put "windowMs" (.integer writer.windowMs)
  let root := root.put "language" (.text writer.lang)
  root.put "items" (.array items)

theorem items_buildRootObject (writer : TranscriptionJsonWriter) (finishedAtUnixMs : Nat)
    (items : List JSONValue) :
    (writer.buildRootObject finishedAtUnixMs items).optJSONArray "items" = some items := by
  simp [buildRootObject, JSONObject.optJSONArray, JSONObject.opt_put]

end TranscriptionJsonWriter

end LocalWhisper.TransscriptsJSON
