import LocalWhisper.Service.World

/-! The methods of `BackgroundWhisperService`, each as the change it makes to
the world. -/

namespace LocalWhisper.Service

open LocalWhisper.Machine LocalWhisper.Record LocalWhisper.Transcription
open LocalWhisper.TransscriptsJSON

variable {Sample : Type}

def sessionPurpose : Text := ['s', 'e', 's', 's', 'i', 'o', 'n']

def recordedFilePurpose : Text :=
  ['r', 'e', 'c', 'o', 'r', 'd', 'e', 'd', '-', 'f', 'i', 'l', 'e']

def filePurpose : Text := ['f', 'i', 'l', 'e']

def recordSuffix : Text := [':', 'r', 'e', 'c', 'o', 'r', 'd']

def whisperSuffix : Text := [':', 'w', 'h', 'i', 's', 'p', 'e', 'r']

namespace World

/-- `recordWorker`, if it is not null and its thread is alive. -/
def liveRecorder (world : World Sample) : Option Nat :=
  world.recorder.recordWorker.filter fun address =>
    (world.recorder.workers.get address).isAlive

/-- `transcriptionWorker`, if it is not null and its thread is alive. -/
def liveTranscription (world : World Sample) : Option Nat :=
  world.inference.transcriptionWorker.filter fun address =>
    (world.inference.threads.get address).worker.isAlive

/-- `retranscriptionWorker`, if it is not null and its thread is alive. -/
def liveFileWorker (world : World Sample) : Option Nat :=
  world.file.retranscriptionWorker.filter fun address =>
    (world.file.workers.get address).isAlive

def publishState (world : World Sample) (message : String) : World Sample :=
  { world with screen := { world.screen with
      published := world.screen.published ++ [{
        sessionId := world.session.recordingSessionId
        sessionActive := world.session.sessionActive
        recording := world.session.recording
        stopping := !world.session.sessionActive && world.session.inferenceAlive
        inferenceAlive := world.session.inferenceAlive
        inferenceAccepting := world.session.inferenceAccepting
        message
        latestText := world.screen.latestText
        modelKey := world.screen.currentModelKey }] } }

def updateSessionState (world : World Sample) : World Sample :=
  let session := world.session
  let state :=
    if !session.sessionActive then
      if session.sessionEndRequested then some RecordTranscriptionState.stopRecord else none
    else if session.recording && session.inferenceAccepting then some .recording
    else if !session.recording && session.inferenceAccepting then some .recordingPaused
    else if session.recording then some .inferencePaused
    else some .recordingAndInferencePaused
  { world with session := { session with currentState := state } }

def releaseMediaProjection (world : World Sample) : World Sample :=
  { world with setup := { world.setup with mediaProjection := false } }

def stopForegroundAndSelf (world : World Sample) (reason : StopReason) : World Sample :=
  { world with
    session := ⟨false, false, false, false, none, none, none, none, false⟩
    life := { world.life with
      stopCalls := world.life.stopCalls ++ [⟨reason, world.session⟩] } }

/-- The new thread runs `startRecordingInternal` at some later time. -/
def startRecordingInternalAsync (world : World Sample) : World Sample :=
  { world with life := { world.life with startThreads := world.life.startThreads + 1 } }

def setThread (world : World Sample) (address : Nat) (thread : InferenceThread Sample) :
    World Sample :=
  { world with inference := { world.inference with
      threads := world.inference.threads.set address thread } }

def setRecorder (world : World Sample) (address : Nat) (recorder : AudioRecordWorker Sample) :
    World Sample :=
  { world with recorder := { world.recorder with
      workers := world.recorder.workers.set address recorder } }

/-- `requestStop` on the worker at an address. -/
def stopTranscription (world : World Sample) (address : Nat) : World Sample :=
  let thread := world.inference.threads.get address
  world.setThread address { thread with worker := thread.worker.requestStop.1 }

/-- `inferenceAccepting = false` and `transcriptionWorker.requestStop()`. -/
def drainTranscription (world : World Sample) (address : Nat) : World Sample :=
  { world with session := { world.session with inferenceAccepting := false } }.stopTranscription
    address

def openAudioFile (world : World Sample) (sessionId : Text) (env : Environment) :
    World Sample × Bool :=
  if !(world.setup.settings.getD .defaultSettings).audioRecordingEnabled then (world, true)
  else match env.audioFileError with
    | some message =>
      (world.publishState ("音声記録ファイルを作成できませんでした: " ++ message), false)
    | none =>
      ({ world with audio := {
          audioFileWriter := some world.audio.writers.count
          writers := world.audio.writers.create (.new sessionId) } }, true)

/-- `retranscriptionQueue.offer`. -/
def offerRetranscription (world : World Sample) (request : RetranscriptionRequest) :
    World Sample :=
  { world with file := { world.file with
      retranscriptionQueue := world.file.retranscriptionQueue ++ [request] } }

/-- An empty recording is deleted; a close that fails is only logged. -/
def closeAudioFile (world : World Sample) (enqueueRetranscription : Bool) (env : Environment) :
    World Sample :=
  match world.audio.audioFileWriter with
  | none => world
  | some address =>
    let (writer, closed) := (world.audio.writers.get address).close env.closeFails
    let after := { world with audio := {
      audioFileWriter := none, writers := world.audio.writers.set address writer } }
    if !closed || writer.fileLength ≤ headerSize then after
    else match world.setup.settings with
      | none => after
      | some settings =>
        if enqueueRetranscription && settings.autoRetranscribeEnabled then
          after.offerRetranscription {
            uri := .recorded writer.sessionId
            settings
            sessionId := sessionId recordedFilePurpose
              (world.session.recordingTimeData.getD env.timeData)
            label := "保存音声" }
        else after

/-- Start the worker of the next request. It is new, so its start succeeds and
the retry that the source has for a refused start is never taken. -/
def startRetranscription (world : World Sample) (request : RetranscriptionRequest)
    (rest : List RetranscriptionRequest) : World Sample :=
  let shown := { world with
      session := { world.session with
        currentState := some .fileTranscribing
        inferenceAlive := true
        inferenceAccepting := false }
      file := { world.file with retranscriptionQueue := rest }
      screen := { world.screen with currentModelKey := request.settings.fileModelKey }
    }.publishState (request.label ++ "をバックグラウンドで文字起こししています")
  { shown with file := { shown.file with
      retranscriptionSessionId := some request.sessionId
      retranscriptionWorker := some shown.file.workers.count
      workers := shown.file.workers.create
        (WhisperFileTranscriptionWorker.new request.sessionId request.settings).start.1 } }

def startNextRetranscriptionOrStop (world : World Sample) : World Sample :=
  if world.session.sessionActive || world.session.inferenceAlive
      || world.pending.pendingRecordingStart then
    if world.pending.pendingRecordingStart then world.startRecordingInternalAsync else world
  else if world.liveFileWorker.isSome then world
  else match world.file.retranscriptionQueue with
    | [] => (world.publishState "録音と推論を終了しました").stopForegroundAndSelf .nothingLeft
    | request :: rest => world.startRetranscription request rest

def finishIdleWorkIfPossible (world : World Sample) : World Sample :=
  if world.session.sessionActive then
    world.updateSessionState.publishState
      (if world.session.inferenceAccepting then "セッション継続中" else "推論一時停止中")
  else if !world.inference.whisperThreadStopped || !world.json.jsonThreadStopped then world
  else
    let cleared := if world.inference.inferenceFailed then
      { world with file := { world.file with retranscriptionQueue := [] } } else world
    if cleared.pending.pendingRecordingStart then cleared.startRecordingInternalAsync
    else cleared.startNextRetranscriptionOrStop

def requestJsonThreadStop (world : World Sample) : World Sample :=
  let detached (world : World Sample) : World Sample :=
    { world with json := { world.json with
        jsonThreadStopped := true, transcriptionJsonWorker := none } }.finishIdleWorkIfPossible
  match world.json.transcriptionJsonWorker with
  | none => detached world
  | some address =>
    let (worker, stopping) := (world.json.workers.get address).requestStop
    let asked := { world with json := { world.json with
      workers := world.json.workers.set address worker } }
    if stopping then asked else detached asked

private theorem roomForSettings (settings : WhisperSettings) :
    2 * max 1 (WhisperTranscriptionWorker.defaultSampleRate * settings.windowMs / 1000) +
      WhisperTranscriptionWorker.defaultSampleRate ≤ (2 ^ 31 - 1) / Record.Buffer.shortBytes := by
  have bound := settings.windowRange.2
  have least := settings.windowRange.1
  simp only [WhisperTranscriptionWorker.defaultSampleRate, Record.Buffer.shortBytes]
  omega

/-- Whether the pipeline in `inferenceSessionId` belongs to this time data. -/
def servesSession (world : World Sample) (sessionTimeData : Text) : Bool :=
  match world.inference.inferenceSessionId with
  | none => false
  | some session => ('-' :: sessionTimeData).isSuffixOf session

/-- A recording that could not start drains the pipeline it had started. -/
def stopInferenceIfNotRecording (world : World Sample) : World Sample :=
  let closed := { world with session := { world.session with
    sessionActive := false, sessionEndRequested := true } }
  match closed.liveTranscription with
  | some address =>
    if !closed.session.recording then closed.drainTranscription address
    else closed.requestJsonThreadStop
  | none => closed.requestJsonThreadStop

def prepareMediaProjectionIfNeeded (world : World Sample) (env : Environment) :
    World Sample × Bool :=
  if !world.setup.requestedAudioSource.requiresAppCapture then (world, true)
  else if !world.setup.projectionGranted || !world.setup.projectionResultData then (world, false)
  else match env.projection with
    | .noManager => (world, false)
    | .granted =>
      ({ world with setup := { world.setup with
          projectionResultData := false, mediaProjection := true } }, true)
    | .rejected => (world.releaseMediaProjection, false)

/-- Make a recorder for the current session, store it and start it. -/
def createRecorder (world : World Sample) (bufferSize : Nat) (env : Environment) :
    World Sample × Bool :=
  let (recorder, started) := (AudioRecordWorker.new
    (world.session.recordingSessionId.getD [] ++ recordSuffix) bufferSize
    world.setup.requestedAudioSource world.setup.mediaProjection).start env.devicesStart
  ({ world with recorder := { world.recorder with
      recordWorker := if started then some world.recorder.workers.count else none
      workers := world.recorder.workers.create recorder } }, started)

def startRecordingWorkerForSession (world : World Sample) (env : Environment) : World Sample :=
  if !env.permission then
    (world.publishState "録音権限がありません").stopForegroundAndSelf .resumePermission
  else
    let bufferSize := AudioRecordWorker.createBufferSize
      WhisperTranscriptionWorker.defaultSampleRate env.minBufferSize
    if bufferSize ≤ 0 then world.publishState "録音バッファを再作成できませんでした"
    else
      let (created, started) := { world with pending := { world.pending with
        pendingRecordingResume := false } }.createRecorder bufferSize.toNat env
      if !started then
        created.updateSessionState.publishState "AudioRecord の再初期化に失敗しました"
      else
        { created with session := { created.session with
            recording := true } }.updateSessionState.publishState
          "同じセッションで録音を再開しました"

def detachRecorder (world : World Sample) : World Sample :=
  { world with recorder := { world.recorder with recordWorker := none } }

/-- The part of `finishRecordThread` for a session that is to end. -/
def endRecording (world : World Sample) (env : Environment) : World Sample :=
  let closed := world.releaseMediaProjection.closeAudioFile true env
  if closed.pending.pendingRecordingStart then closed.startRecordingInternalAsync
  else match closed.liveTranscription with
    | some address => closed.drainTranscription address
    | none => closed.requestJsonThreadStop

def finishRecordThread (world : World Sample) (env : Environment) : World Sample :=
  if !world.session.sessionEndRequested then
    if world.pending.pendingRecordingResume && world.session.sessionActive then
      world.detachRecorder.startRecordingWorkerForSession env
    else world.detachRecorder.updateSessionState.publishState "録音一時停止中"
  else world.detachRecorder.endRecording env

def requestRecordThreadStop (world : World Sample) (env : Environment) : World Sample :=
  match world.recorder.recordWorker with
  | none => world.finishRecordThread env
  | some address =>
    let (recorder, stopping) := (world.recorder.workers.get address).requestStop
    let asked := world.setRecorder address recorder
    if stopping then asked else asked.finishRecordThread env

/-- The assignments of `startRecordingInternal` that open the session. -/
def activateSession (world : World Sample) (sessionTimeData : Text) : World Sample :=
  { world with
    pending := { world.pending with pendingRecordingStart := false }
    session := { world.session with
      sessionEndRequested := false
      sessionActive := true
      recordingTimeData := some sessionTimeData
      pendingRecordingTimeData := none } }

/-- The rest of `startRecordingInternal` once the WAV file and the projection
are ready: the session opens and its recorder starts. -/
def openSession (world : World Sample) (sessionTimeData : Text) (bufferSize : Nat)
    (env : Environment) : World Sample :=
  let (opened, started) := (world.activateSession sessionTimeData).createRecorder bufferSize env
  if !started then
    ((opened.releaseMediaProjection.closeAudioFile false env).publishState
      "AudioRecord の初期化に失敗しました").stopInferenceIfNotRecording
  else
    { opened with session := { opened.session with
        recording := true, currentState := some .recording } }.publishState
      "バックグラウンド録音中"

def requestStopRecording (world : World Sample) (env : Environment) : World Sample :=
  if !world.session.sessionActive then world
  else
    let closing := { world with
        session := { world.session with
          sessionActive := false
          sessionEndRequested := true
          recording := false
          inferenceAccepting := false
          currentState := some .stopRecord }
        pending := ⟨false, false, false⟩
      }.publishState "セッション終了: 残り音声を推論中です"
    if closing.liveRecorder.isSome then closing.requestRecordThreadStop env
    else closing.finishRecordThread env

def requestPauseRecording (world : World Sample) (env : Environment) : World Sample :=
  if !world.session.sessionActive || !world.session.recording then world
  else
    ({ world with
      session := { world.session with recording := false }
      pending := { world.pending with
        pendingRecordingResume := false } }.updateSessionState.publishState
      "録音を一時停止しました").requestRecordThreadStop env

def requestResumeRecording (world : World Sample) (env : Environment) : World Sample :=
  if !world.session.sessionActive || world.session.recording then world
  else if world.liveRecorder.isSome then
    { world with pending := { world.pending with
        pendingRecordingResume := true } }.publishState "録音workerの停止後に再開します"
  else world.startRecordingWorkerForSession env

def requestStopFileTranscription (world : World Sample) : World Sample :=
  let cleared := { world with
    file := { world.file with retranscriptionQueue := [] }
    pending := { world.pending with pendingRecordingStart := false } }
  match cleared.liveFileWorker with
  | some address =>
    let text := "ファイル文字起こしを停止しています"
    { cleared with
      file := { cleared.file with
        workers := cleared.file.workers.set address
          (cleared.file.workers.get address).requestStop.1 }
      screen := { cleared.screen with latestText := text } }.publishState text
  | none =>
    ({ cleared with
      file := { cleared.file with retranscriptionSessionId := none }
      session := { cleared.session with
        inferenceAlive := false, currentState := none } }.publishState
      "ファイル文字起こしを停止しました").stopForegroundAndSelf .stopFileTranscription

def requestStopInference (world : World Sample) : World Sample :=
  match world.inference.transcriptionWorker with
  | none => world
  | some address =>
    if !world.session.sessionActive then world
    else
      ({ world with
        pending := { world.pending with pendingInferenceResume := false }
        session := { world.session with
          inferenceAccepting := false } }.updateSessionState.stopTranscription address).publishState
        "推論停止: キュー排出後にworkerを停止します"

/-- Does a stop event belong to the session with this id? -/
def belongsTo (session : Option Text) (event : ThreadStoppedEvent) : Bool :=
  match session with
  | none => false
  | some session => session.isPrefixOf event.threadId

def enqueueSelectedFile (world : World Sample) (uri : Option Text) (env : Environment) :
    World Sample :=
  match uri with
  | none =>
    let text := "音声ファイル文字起こし要求が不正です"
    ({ world with screen := { world.screen with latestText := text } }.publishState
      text).stopForegroundAndSelf .malformedFileRequest
  | some uri =>
    (world.offerRetranscription {
      uri := .selected uri
      settings := env.settings
      sessionId := sessionId filePurpose env.timeData
      label := "音声ファイル" }).startNextRetranscriptionOrStop

def onRetranscriptionComplete (world : World Sample) : World Sample :=
  if world.life.destroyed then world
  else
    let cleared := { world with
      file := { world.file with retranscriptionWorker := none, retranscriptionSessionId := none }
      session := { world.session with
        inferenceAlive := false, inferenceAccepting := false, currentState := none } }
    if cleared.pending.pendingRecordingStart then cleared.startRecordingInternalAsync
    else cleared.startNextRetranscriptionOrStop

/-- `onTranscriptionEvent` for the file that is being transcribed. -/
def showFileEvent (world : World Sample) (event : WhisperTranscriptionEvent) : World Sample :=
  { world with screen := { world.screen with
      latestText :=
        if event.hasError then "ファイル文字起こしエラー: " ++ event.errorMessage.getD ""
        else if event.text.isEmpty then "..." else event.text } }.publishState
    (if event.finalResult then "ファイル文字起こしが完了しました" else "ファイル文字起こし中です")

/-- The end of `onTranscriptionEvent` for a live result. -/
def showLiveEvent (world : World Sample) (event : WhisperTranscriptionEvent) : World Sample :=
  { world with
    inference := { world.inference with
      inferenceFailed := world.inference.inferenceFailed || event.hasError }
    screen := { world.screen with
      latestText :=
        if event.hasError then "Whisper エラー: " ++ event.errorMessage.getD ""
        else if event.text.isEmpty then "..." else event.text } }.publishState
    (if world.session.recording then "バックグラウンド録音中" else "残り音声を推論中です")

def onDestroy (world : World Sample) (env : Environment) : World Sample :=
  let closed := { world with life := { world.life with destroyed := true } }.closeAudioFile
    false env
  let stopped : World Sample := match closed.file.retranscriptionWorker with
    | none => closed
    | some address => { closed with file := { closed.file with
        workers := closed.file.workers.set address (closed.file.workers.get address).requestStop.1
        retranscriptionWorker := none } }
  { stopped with
    file := { stopped.file with retranscriptionQueue := [] }
    setup := { stopped.setup with mediaProjection := false }
    session := { stopped.session with
      sessionActive := false
      recording := false
      inferenceAlive := false
      inferenceAccepting := false
      currentState := none } }

/-- The time data of the session that is about to start. -/
def nextSessionTime (world : World Sample) (env : Environment) : Text :=
  world.session.pendingRecordingTimeData.getD env.timeData

def nameSession (world : World Sample) (env : Environment) : World Sample :=
  { world with session := { world.session with
      pendingRecordingTimeData := some (world.nextSessionTime env)
      recordingSessionId := some (sessionId sessionPurpose (world.nextSessionTime env)) } }

section Pipeline

variable [Inhabited Sample]

/-- The worker that `startInferencePipeline` makes and starts. -/
def pipelineThread (world : World Sample) (session : Text) : InferenceThread Sample :=
  let settings := world.setup.settings.getD .defaultSettings
  { worker := (WhisperTranscriptionWorker.new session WhisperTranscriptionWorker.defaultSampleRate
      settings world.inference.nextInferenceSequence world.inference.sessionRecordedSamples
      (roomForSettings settings)).start
    handling := .idle }

def startInferencePipeline (world : World Sample) (sessionTimeData : Text) : World Sample :=
  let session := world.session.recordingSessionId.getD (sessionId sessionPurpose sessionTimeData)
  let json := match world.json.transcriptionJsonWorker with
    | some _ => world.json
    | none => { world.json with
      transcriptionJsonWorker := some world.json.workers.count
      jsonThreadStopped := false
      workers := world.json.workers.create (TranscriptionJsonWorker.new session).start }
  { world with
    session := { world.session with inferenceAlive := true, inferenceAccepting := true }
    inference := { world.inference with
      inferenceSessionId := some session
      transcriptionWorker := some world.inference.threads.count
      whisperThreadStopped := false
      inferenceFailed := false
      threads := world.inference.threads.create (world.pipelineThread session) }
    json }

def ensureInferenceAccepting (world : World Sample) (sessionTimeData : Text) :
    World Sample × Bool :=
  match world.liveTranscription with
  | none => (world.startInferencePipeline sessionTimeData, true)
  | some address =>
    if !world.servesSession sessionTimeData then (world.drainTranscription address, false)
    else
      let thread := world.inference.threads.get address
      let (worker, resumed) := thread.worker.resumeAudioSubmission
      ({ world.setThread address { thread with worker } with
        session := { world.session with
          inferenceAlive := true, inferenceAccepting := resumed } }, resumed)

/-- `startRecordingInternal` after the models are ready. -/
def prepareSession (world : World Sample) (env : Environment) : World Sample :=
  let sessionTimeData := world.nextSessionTime env
  let (ensured, accepting) := (world.nameSession env).ensureInferenceAccepting sessionTimeData
  if !accepting then
    { ensured with pending := { ensured.pending with
        pendingRecordingStart := true } }.publishState "推論workerの再起動後に録音を開始します"
  else
    let bufferSize := AudioRecordWorker.createBufferSize
      WhisperTranscriptionWorker.defaultSampleRate env.minBufferSize
    if bufferSize ≤ 0 then
      (ensured.publishState "録音バッファを作成できませんでした").stopInferenceIfNotRecording
    else
      let (recorded, file) := ensured.openAudioFile (sessionId sessionPurpose sessionTimeData) env
      if !file then recorded.stopInferenceIfNotRecording
      else
        let (projected, capture) := recorded.prepareMediaProjectionIfNeeded env
        if !capture then
          ((projected.closeAudioFile false env).publishState
            "アプリ音声のキャプチャ許可を開始できませんでした").stopInferenceIfNotRecording
        else projected.openSession sessionTimeData bufferSize.toNat env

def startRecordingInternal (world : World Sample) (env : Environment) : World Sample :=
  if world.session.recording then world.publishState "録音中です"
  else if world.liveRecorder.isSome then
    { world with pending := { world.pending with pendingRecordingStart := true } }.publishState
      "前の録音停止後に録音を再開します"
  else if world.liveFileWorker.isSome then
    { world with pending := { world.pending with pendingRecordingStart := true } }.publishState
      "保存音声の再推論後に録音を開始します"
  else if !env.permission then
    (world.publishState "録音権限がありません").stopForegroundAndSelf .startPermission
  else
    let loaded := { world with
      setup := { world.setup with settings := some env.settings }
      screen := { world.screen with currentModelKey := env.settings.modelKey } }
    match env.modelError with
    | some message =>
      (loaded.publishState ("モデル準備に失敗しました: " ++ message)).stopForegroundAndSelf .startModels
    | none => loaded.prepareSession env

def requestResumeInference (world : World Sample) : World Sample :=
  if !world.session.sessionActive then world.publishState "セッション継続中のみ推論を再開できます"
  else
    let (ensured, accepting) := { world with pending := { world.pending with
      pendingInferenceResume := true } }.ensureInferenceAccepting
        (world.session.recordingTimeData.getD [])
    if accepting then
      { ensured with pending := { ensured.pending with
          pendingInferenceResume := false } }.updateSessionState.publishState
        "リアルタイム推論を再開しました"
    else ensured.publishState "推論workerを再起動しています"

def onWhisperStopped (world : World Sample) (event : ThreadStoppedEvent) : World Sample :=
  let cleared := { world with
    inference := { world.inference with
      inferenceFailed := world.inference.inferenceFailed || event.hasError
      whisperThreadStopped := true
      transcriptionWorker := none }
    session := { world.session with inferenceAlive := false, inferenceAccepting := false } }
  if cleared.session.sessionEndRequested then cleared.requestJsonThreadStop
  else if cleared.pending.pendingInferenceResume && cleared.session.sessionActive then
    ({ cleared with pending := { cleared.pending with
        pendingInferenceResume := false } }.startInferencePipeline
          (cleared.session.recordingTimeData.getD [])).updateSessionState.publishState
      "同じセッションで推論を再開しました"
  else cleared.updateSessionState.publishState "推論を一時停止しました"

def onThreadStopped (world : World Sample) (event : ThreadStoppedEvent) (env : Environment) :
    World Sample :=
  match event.owner with
  | .record =>
    if belongsTo world.session.recordingSessionId event then world.finishRecordThread env else world
  | .whisper =>
    if belongsTo world.inference.inferenceSessionId event then world.onWhisperStopped event
    else world
  | .json =>
    if belongsTo world.inference.inferenceSessionId event then
      { world with json := { world.json with
          jsonThreadStopped := true, transcriptionJsonWorker := none } }.finishIdleWorkIfPossible
    else world

end Pipeline

end World

end LocalWhisper.Service
