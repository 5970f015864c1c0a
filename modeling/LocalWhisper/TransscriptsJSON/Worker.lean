import LocalWhisper.Events

/-! `TranscriptionJsonWorker` with its `TranscriptionJsonWriter`: the queue of
results, the calls of the service, and the thread that writes the file. -/

namespace LocalWhisper.TransscriptsJSON

/-- Where the JSON thread stands in `run`. -/
inductive JsonPhase where
  | created
  /-- clearing the text and creating the writer -/
  | opening
  /-- the loop condition -/
  | looping
  /-- inside `eventQueue.poll(200, MILLISECONDS)` -/
  | taking
  | appending (event : WhisperTranscriptionEvent)
  /-- the text of an event whose item is stored -/
  | appendingText (event : WhisperTranscriptionEvent)
  /-- the finally block: the rest of the queue -/
  | draining (errorMessage : Option String)
  /-- `finishWriter` -/
  | finishing (errorMessage : Option String)
  /-- before `workerThread = null` -/
  | closing (errorMessage : Option String)
  /-- the stop event is not yet delivered -/
  | ended (errorMessage : Option String)
  | stopped
  deriving DecidableEq, Repr

def JsonPhase.writes : JsonPhase → Bool
  | .looping | .taking | .appending _ | .appendingText _ | .draining _ | .finishing _ => true
  | .created | .opening | .closing _ | .ended _ | .stopped => false

/-- How one `save` of the JSON file ends. The stream truncates the file before
it writes, so a write that fails leaves no items behind. -/
inductive SaveResult where
  | written
  /-- it failed before the file was touched -/
  | kept
  | truncated
  deriving DecidableEq, Repr

/-- What the file system answers in one step of the thread. -/
structure JsonAnswer where
  /-- the message of an exception of the text file or of the writer's constructor -/
  thrown : Option String
  save : SaveResult
  deriving DecidableEq, Repr

/-- What the thread does to the files of its session. -/
inductive JsonOutput where
  | clearedText
  /-- the whole JSON file is written anew with these items -/
  | saved (items : List WhisperTranscriptionEvent)
  | truncated
  | appendedText (text : String)
  /-- the JSON file as it is now is turned into text -/
  | savedText
  deriving DecidableEq, Repr

structure TranscriptionJsonWorker where
  sessionId : Text
  eventQueue : List WhisperTranscriptionEvent
  running : Bool
  interrupted : Bool
  /-- the items of the writer, if there is one -/
  writer : Option (List WhisperTranscriptionEvent)
  phase : JsonPhase
  deriving DecidableEq, Repr

namespace TranscriptionJsonWorker

def queueCapacity : Nat := 128

def new (sessionId : Text) : TranscriptionJsonWorker :=
  { sessionId
    eventQueue := []
    running := false
    interrupted := false
    writer := none
    phase := .created }

def start (worker : TranscriptionJsonWorker) : TranscriptionJsonWorker :=
  if worker.running then worker
  else { worker with running := true, phase := .opening }

/-- `workerThread` is not null: `start` sets it and the finally block clears it. -/
def workerThread (worker : TranscriptionJsonWorker) : Bool :=
  match worker.phase with
  | .created | .ended _ | .stopped => false
  | _ => true

def isAlive (worker : TranscriptionJsonWorker) : Bool := worker.workerThread

/-- Errors are not stored; a full queue drops its oldest event. -/
def submit (worker : TranscriptionJsonWorker) (event : WhisperTranscriptionEvent) :
    TranscriptionJsonWorker :=
  if !worker.running || event.hasError then worker
  else if worker.eventQueue.length < queueCapacity then
    { worker with eventQueue := worker.eventQueue ++ [event] }
  else { worker with eventQueue := worker.eventQueue.tail ++ [event] }

def requestStop (worker : TranscriptionJsonWorker) : TranscriptionJsonWorker × Bool :=
  if worker.workerThread then ({ worker with running := false, interrupted := true }, true)
  else ({ worker with running := false }, false)

/-- `save`: an exception is caught and logged by its callers. -/
def save (items : List WhisperTranscriptionEvent) : SaveResult → List JsonOutput
  | .written => [.saved items]
  | .kept => []
  | .truncated => [.truncated]

/-- `appendEvent`: the writer keeps the item and saves the whole file. -/
def appendEvent (worker : TranscriptionJsonWorker) (event : WhisperTranscriptionEvent)
    (result : SaveResult) (next : JsonPhase) : TranscriptionJsonWorker × List JsonOutput :=
  match worker.writer with
  | none => ({ worker with phase := next }, [])
  | some items =>
    if event.hasError then ({ worker with phase := next }, [])
    else ({ worker with writer := some (items ++ [event]), phase := next },
      save (items ++ [event]) result)

/-- One step of the thread. -/
def advance (worker : TranscriptionJsonWorker) (answer : JsonAnswer) :
    Option (TranscriptionJsonWorker × List JsonOutput) :=
  match worker.phase with
  | .created | .ended _ | .stopped => none
  | .opening =>
    match answer.thrown with
    | some message => some ({ worker with phase := .draining (some message) }, [])
    | none =>
      some ({ worker with writer := some [], phase := .looping },
        .clearedText :: save [] answer.save)
  | .looping =>
    if worker.running && !worker.interrupted then some ({ worker with phase := .taking }, [])
    else some ({ worker with phase := .draining none }, [])
  | .taking =>
    if worker.interrupted then some ({ worker with phase := .draining none }, [])
    else match worker.eventQueue with
      | [] => some ({ worker with phase := .looping }, [])
      | event :: rest => some ({ worker with eventQueue := rest, phase := .appending event }, [])
  | .appending event => some (worker.appendEvent event answer.save (.appendingText event))
  | .appendingText event =>
    match answer.thrown with
    | some message => some ({ worker with phase := .draining (some message) }, [])
    | none => some ({ worker with phase := .looping }, [.appendedText (event.text ++ "\n")])
  | .draining errorMessage =>
    match worker.eventQueue with
    | [] => some ({ worker with phase := .finishing errorMessage }, [])
    | event :: rest =>
      some ({ worker with eventQueue := rest }.appendEvent event answer.save
        (.draining errorMessage))
  | .finishing errorMessage =>
    match worker.writer with
    | none => some ({ worker with phase := .closing errorMessage }, [])
    | some items =>
      some ({ worker with writer := none, phase := .closing errorMessage },
        save items answer.save ++ if answer.thrown.isNone then [.savedText] else [])
  | .closing errorMessage =>
    some ({ worker with running := false, phase := .ended errorMessage }, [])

/-- The end of `stopEventId`. -/
def stopSuffix : Text := [':', 'j', 's', 'o', 'n']

def stoppedEvent (worker : TranscriptionJsonWorker) (errorMessage : Option String) :
    ThreadStoppedEvent :=
  { threadId := worker.sessionId ++ stopSuffix
    owner := .json
    interrupted := worker.interrupted
    errorMessage }

end TranscriptionJsonWorker

end LocalWhisper.TransscriptsJSON
