import LocalWhisper.Service.Frames

/-! What the service makes of a stop event: it acts on an event whose thread id
begins with the id of the current session, and on no other. -/

namespace LocalWhisper.Service

open LocalWhisper.Machine LocalWhisper.Record LocalWhisper.Transcription
open LocalWhisper.TransscriptsJSON World

variable {Sample : Type}

/-- `onThreadStopped` takes the stop event of this recorder for one of the
current session. -/
def RecordStopMatches (world : World Sample) (address : Nat) : Prop :=
  world.life.destroyed = false ∧
    belongsTo world.session.recordingSessionId
      ((world.recorder.workers.get address).stoppedEvent none) = true

/-- `onThreadStopped` takes the stop event of this inference worker for one of
the current pipeline. -/
def WhisperStopMatches (world : World Sample) (address : Nat) : Prop :=
  world.life.destroyed = false ∧
    belongsTo world.inference.inferenceSessionId
      (whisperStoppedEvent (world.inference.threads.get address).worker) = true

def JsonStopMatches (world : World Sample) (address : Nat) : Prop :=
  world.life.destroyed = false ∧
    belongsTo world.inference.inferenceSessionId
      ((world.json.workers.get address).stoppedEvent none) = true

/-- The branch of `onThreadStopped` for JSON workers. -/
def detachJson (world : World Sample) : World Sample :=
  { world with json := { world.json with
      jsonThreadStopped := true, transcriptionJsonWorker := none } }

variable [Inhabited Sample] {world after : World Sample} {address : Nat} {env : Environment}

theorem deliver_of_destroyed {event : ThreadStoppedEvent} (gone : world.life.destroyed = true) :
    world.deliver event env = world :=
  if_pos gone

theorem deliver_of_subscribed {event : ThreadStoppedEvent} (kept : world.life.destroyed = false) :
    world.deliver event env = world.onThreadStopped event env :=
  if_neg (by simp [kept])

/-- The delivery of a recorder's stop event either ends in `finishRecordThread`
or changes nothing but the recorder itself. -/
theorem recordStopped_cases (taken : world.recordStopped address env = some after) :
    (∃ errorMessage, (world.recorder.workers.get address).phase = .ended errorMessage) ∧
      (RecordStopMatches world address ∧
          after = (world.moveRecorder address .stopped).finishRecordThread env ∨
        ¬ RecordStopMatches world address ∧ after = world.moveRecorder address .stopped) := by
  simp only [recordStopped] at taken
  split at taken
  · rename_i errorMessage place
    cases taken
    refine ⟨⟨errorMessage, place⟩, ?_⟩
    cases kept : world.life.destroyed with
    | true => exact .inr ⟨fun both => Bool.noConfusion (kept.symm.trans both.1),
        deliver_of_destroyed kept⟩
    | false =>
      by_cases matching : belongsTo world.session.recordingSessionId
          ((world.recorder.workers.get address).stoppedEvent none) = true
      · refine .inl ⟨⟨kept, matching⟩, ?_⟩
        rw [deliver_of_subscribed (by exact kept)]
        exact if_pos matching
      · refine .inr ⟨fun both => matching both.2, ?_⟩
        rw [deliver_of_subscribed (by exact kept)]
        exact if_neg matching
  · cases taken

theorem whisperStopped_cases (taken : world.whisperStopped address env = some after) :
    (world.inference.threads.get address).worker.phase = .ended ∧
      (WhisperStopMatches world address ∧
          after = (world.retireThread address).onWhisperStopped
            (whisperStoppedEvent (world.inference.threads.get address).worker) ∨
        ¬ WhisperStopMatches world address ∧ after = world.retireThread address) := by
  simp only [whisperStopped] at taken
  split at taken
  · rename_i place
    cases taken
    refine ⟨place, ?_⟩
    cases kept : world.life.destroyed with
    | true => exact .inr ⟨fun both => Bool.noConfusion (kept.symm.trans both.1),
        deliver_of_destroyed kept⟩
    | false =>
      by_cases matching : belongsTo world.inference.inferenceSessionId
          (whisperStoppedEvent (world.inference.threads.get address).worker) = true
      · refine .inl ⟨⟨kept, matching⟩, ?_⟩
        rw [deliver_of_subscribed (by exact kept)]
        exact if_pos matching
      · refine .inr ⟨fun both => matching both.2, ?_⟩
        rw [deliver_of_subscribed (by exact kept)]
        exact if_neg matching
  · cases taken

theorem jsonStopped_cases (taken : world.jsonStopped address env = some after) :
    (∃ errorMessage, (world.json.workers.get address).phase = .ended errorMessage) ∧
      (JsonStopMatches world address ∧
          after = (detachJson (world.retireJson address)).finishIdleWorkIfPossible ∨
        ¬ JsonStopMatches world address ∧ after = world.retireJson address) := by
  simp only [jsonStopped] at taken
  split at taken
  · rename_i errorMessage place
    cases taken
    refine ⟨⟨errorMessage, place⟩, ?_⟩
    cases kept : world.life.destroyed with
    | true => exact .inr ⟨fun both => Bool.noConfusion (kept.symm.trans both.1),
        deliver_of_destroyed kept⟩
    | false =>
      by_cases matching : belongsTo world.inference.inferenceSessionId
          ((world.json.workers.get address).stoppedEvent none) = true
      · refine .inl ⟨⟨kept, matching⟩, ?_⟩
        rw [deliver_of_subscribed (by exact kept)]
        exact if_pos matching
      · refine .inr ⟨fun both => matching both.2, ?_⟩
        rw [deliver_of_subscribed (by exact kept)]
        exact if_neg matching
  · cases taken

theorem whisperStopped_frame (taken : world.whisperStopped address env = some after) :
    after.recorder = world.recorder ∧ after.audio = world.audio ∧ after.setup = world.setup := by
  obtain ⟨_, ⟨_, rfl⟩ | ⟨_, rfl⟩⟩ := whisperStopped_cases taken <;> simp [retireThread]

theorem jsonStopped_frame (taken : world.jsonStopped address env = some after) :
    after.pending = world.pending ∧ after.recorder = world.recorder ∧
    after.inference = world.inference ∧ after.audio = world.audio ∧
    after.setup = world.setup := by
  obtain ⟨_, ⟨_, rfl⟩ | ⟨_, rfl⟩⟩ := jsonStopped_cases taken <;> simp [retireJson, detachJson]

end LocalWhisper.Service
