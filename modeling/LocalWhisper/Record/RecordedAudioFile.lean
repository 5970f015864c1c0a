import LocalWhisper.Events
import LocalWhisper.Record.Buffer.RingBuffer

/-! `RecordedAudioFileWriter` as the service uses it: one WAV file that is
appended to and closed. -/

namespace LocalWhisper.Record

open LocalWhisper.Record.Buffer

def headerSize : Nat := 44

structure RecordedAudioFileWriter where
  sessionId : Text
  pcmBytes : Nat
  /-- bytes in the file, header included -/
  fileLength : Nat
  closed : Bool
  /-- `close` was called, whether or not it succeeded -/
  closeCalled : Bool
  deriving DecidableEq, Repr

namespace RecordedAudioFileWriter

def new (sessionId : Text) : RecordedAudioFileWriter :=
  { sessionId, pcmBytes := 0, fileLength := headerSize, closed := false, closeCalled := false }

/-- Appending to a closed file is an IOException, and so is a write that stops
after `stoppedAfter` bytes. -/
def append (writer : RecordedAudioFileWriter) (sampleCount : Nat) (stoppedAfter : Option Nat) :
    RecordedAudioFileWriter × Bool :=
  if writer.closed then (writer, false)
  else match stoppedAfter with
    | some written => ({ writer with fileLength := writer.fileLength + written }, false)
    | none =>
      let length := sampleCount * shortBytes
      ({ writer with
        pcmBytes := writer.pcmBytes + length
        fileLength := writer.fileLength + length }, true)

/-- A failed close leaves the file open. -/
def close (writer : RecordedAudioFileWriter) (fails : Bool) : RecordedAudioFileWriter × Bool :=
  if writer.closed then ({ writer with closeCalled := true }, true)
  else if fails then ({ writer with closeCalled := true }, false)
  else ({ writer with closed := true, closeCalled := true }, true)

@[simp] theorem append_closeCalled (writer : RecordedAudioFileWriter) (sampleCount : Nat)
    (stoppedAfter : Option Nat) :
    (writer.append sampleCount stoppedAfter).1.closeCalled = writer.closeCalled := by
  unfold append
  split
  · rfl
  · split <;> rfl

@[simp] theorem append_sessionId (writer : RecordedAudioFileWriter) (sampleCount : Nat)
    (stoppedAfter : Option Nat) :
    (writer.append sampleCount stoppedAfter).1.sessionId = writer.sessionId := by
  unfold append
  split
  · rfl
  · split <;> rfl

@[simp] theorem close_closeCalled (writer : RecordedAudioFileWriter) (fails : Bool) :
    (writer.close fails).1.closeCalled = true := by
  unfold close
  split
  · rfl
  · split <;> rfl

end RecordedAudioFileWriter

end LocalWhisper.Record
