import LocalWhisper.Machine.ByteFile
import LocalWhisper.Machine.Riff
import LocalWhisper.Record.RecordedAudioFile

/-! `RecordedAudioFileWriter` down to the bytes of its file: the header that is
written twice, and the writes of the channel behind it. -/

namespace LocalWhisper.Record.Wav

open LocalWhisper.Machine LocalWhisper.Machine.Riff LocalWhisper.Record.Buffer

inductive WriterError where
  | io (message : String)
  | illegalArgument (message : String)
  /-- what the channel throws -/
  | channel
  deriving DecidableEq, Repr

/-- `CHANNEL_COUNT`. -/
def channelCount : Int := 1

/-- `BITS_PER_SAMPLE`. -/
def bitsPerSample : Int := 16

/-- `output.write(value)` keeps the low eight bits. -/
def lowByte (value : Int) : UInt8 := UInt8.ofInt value

def writeLittleEndianShort (output : ByteFile) (value : Int) : ByteFile :=
  (output.write [lowByte value]).write [lowByte (value >>> (8 : Nat))]

def writeLittleEndianInt (output : ByteFile) (value : Int) : ByteFile :=
  (((output.write [lowByte value]).write [lowByte (value >>> (8 : Nat))]).write
    [lowByte (value >>> (16 : Nat))]).write [lowByte (value >>> (24 : Nat))]

def writeHeader (output : ByteFile) (sampleRate : Int) (dataSize : Nat) :
    Except WriterError ByteFile :=
  let output := output.write (ascii "RIFF")
  let output := writeLittleEndianInt output (36 + dataSize)
  let output := output.write (ascii "WAVEfmt ")
  let output := writeLittleEndianInt output 16
  let output := writeLittleEndianShort output 1
  let output := writeLittleEndianShort output channelCount
  let output := writeLittleEndianInt output sampleRate
  let output := writeLittleEndianInt output
    ((sampleRate * channelCount * bitsPerSample).tdiv 8)
  let output := writeLittleEndianShort output ((channelCount * bitsPerSample).tdiv 8)
  let output := writeLittleEndianShort output bitsPerSample
  let output := output.write (ascii "data")
  let output := writeLittleEndianInt output dataSize
  if output.position ≠ headerSize then .error (.io "invalid WAV header size") else .ok output

structure RecordedAudioFileWriter where
  output : ByteFile
  sampleRate : Int
  pcmBytes : Nat
  closed : Bool
  deriving DecidableEq, Repr

structure ByteBuffer where
  isDirect : Bool
  bytes : List UInt8
  limit : Nat
  deriving DecidableEq, Repr

/-- One `channel.write`: how many of the remaining bytes reach the file, and
whether it throws then. -/
structure ChannelWrite where
  taken : Nat
  throws : Bool
  deriving DecidableEq, Repr

/-- The loop over the writes of the channel, and whether it ended normally.
There is no result while bytes remain and no further write is given. -/
def writeAll : List ChannelWrite → List UInt8 → ByteFile → Option (ByteFile × Bool)
  | [], view, output => if view = [] then some (output, true) else none
  | write :: later, view, output =>
    if view = [] then some (output, true)
    else if view.length < write.taken then none
    else
      let output := output.write (view.take write.taken)
      if write.throws then some (output, false)
      else writeAll later (view.drop write.taken) output

/-- A call of `append` with what the channel does in it. -/
structure AppendCall where
  samples : ByteBuffer
  byteOffset : Int
  length : Int
  writes : List ChannelWrite
  deriving DecidableEq, Repr

/-- The argument check of `append`. -/
def AppendCall.Invalid (call : AppendCall) : Prop :=
  call.samples.isDirect = false ∨ call.byteOffset < 0 ∨ call.byteOffset % 2 ≠ 0 ∨
    call.length < 0 ∨ (call.samples.bytes.length : Int) < call.byteOffset + call.length * shortBytes

instance (call : AppendCall) : Decidable call.Invalid :=
  inferInstanceAs (Decidable (_ ∨ _ ∨ _ ∨ _ ∨ _))

/-- The bytes between `byteOffset` and the end of the last sample. -/
def AppendCall.range (call : AppendCall) : List UInt8 :=
  (call.samples.bytes.drop call.byteOffset.toNat).take (call.length.toNat * shortBytes)

namespace RecordedAudioFileWriter

/-- The constructor, on a file that may exist already. `directoryReady` says that
the directory was there or could be made. -/
def new (directory : String) (directoryReady : Bool) (existing : List UInt8) (sampleRate : Int) :
    Except WriterError RecordedAudioFileWriter :=
  if directoryReady then do
    let output := (ByteFile.mk existing 0).setLength 0
    let output ← writeHeader output sampleRate 0
    return { output, sampleRate, pcmBytes := 0, closed := false }
  else .error (.io s!"recording directory creation failed: {directory}")

/-- The view keeps the limit of the samples until its position is set. -/
def append (writer : RecordedAudioFileWriter) (call : AppendCall) :
    Option (RecordedAudioFileWriter × Except WriterError Int) :=
  if writer.closed then
    some (writer, .error (.io "recording file is already closed"))
  else if call.Invalid then
    some (writer, .error (.illegalArgument "invalid Direct PCM16 range"))
  else if (call.samples.limit : Int) < call.byteOffset then
    some (writer, .error (.illegalArgument "newPosition > limit"))
  else
    match writeAll call.writes call.range writer.output with
    | none => none
    | some (output, false) => some ({ writer with output }, .error .channel)
    | some (output, true) =>
      some ({ writer with
        output
        pcmBytes := writer.pcmBytes + call.length.toNat * shortBytes }, .ok call.length)

def close (writer : RecordedAudioFileWriter) : Except WriterError RecordedAudioFileWriter :=
  if writer.closed then .ok writer
  else do
    let output ← writeHeader (writer.output.seek 0) writer.sampleRate writer.pcmBytes
    return { writer with output, closed := true }

end RecordedAudioFileWriter

/-- The four bytes of an int, the lowest first. -/
def intBytes (value : Int) : List UInt8 :=
  [lowByte value, lowByte (value >>> (8 : Nat)), lowByte (value >>> (16 : Nat)),
    lowByte (value >>> (24 : Nat))]

def header (sampleRate : Int) (dataSize : Nat) : List UInt8 :=
  ascii "RIFF" ++ intBytes (36 + dataSize) ++ ascii "WAVEfmt " ++ [16, 0, 0, 0] ++ [1, 0] ++
    [1, 0] ++ intBytes sampleRate ++ intBytes ((sampleRate * channelCount * bitsPerSample).tdiv 8) ++
    [2, 0] ++ [16, 0] ++ ascii "data" ++ intBytes dataSize

private theorem writeLittleEndianInt_eq (output : ByteFile) (value : Int) :
    writeLittleEndianInt output value = output.write (intBytes value) := by
  simp only [writeLittleEndianInt, ByteFile.write_write, intBytes, List.cons_append,
    List.nil_append]

private theorem writeLittleEndianShort_eq (output : ByteFile) (value : Int) :
    writeLittleEndianShort output value =
      output.write [lowByte value, lowByte (value >>> (8 : Nat))] := by
  simp only [writeLittleEndianShort, ByteFile.write_write, List.cons_append, List.nil_append]

@[simp] theorem length_header (sampleRate : Int) (dataSize : Nat) :
    (header sampleRate dataSize).length = headerSize := by
  simp [header, ascii, intBytes, headerSize]

/-- The header is one write of 44 bytes, and its last check never fails at the start. -/
theorem writeHeader_eq {output : ByteFile} (start : output.position = 0) (sampleRate : Int)
    (dataSize : Nat) :
    writeHeader output sampleRate dataSize = .ok (output.write (header sampleRate dataSize)) := by
  have bytes : writeLittleEndianInt ((writeLittleEndianShort (writeLittleEndianShort
      (writeLittleEndianInt (writeLittleEndianInt (writeLittleEndianShort (writeLittleEndianShort
        (writeLittleEndianInt ((writeLittleEndianInt (output.write (ascii "RIFF"))
          (36 + dataSize)).write (ascii "WAVEfmt ")) 16) 1) channelCount) sampleRate)
        ((sampleRate * channelCount * bitsPerSample).tdiv 8))
      ((channelCount * bitsPerSample).tdiv 8)) bitsPerSample).write (ascii "data")) dataSize =
        output.write (header sampleRate dataSize) := by
    simp only [writeLittleEndianInt_eq, writeLittleEndianShort_eq, ByteFile.write_write]
    rfl
  unfold writeHeader
  simp only [bytes]
  rw [if_neg]
  rw [ByteFile.write_position, start, length_header, Nat.zero_add]
  exact fun different => different rfl

private theorem intBytes_natCast (value : Nat) : intBytes (value : Int) = littleEndian 4 value := by
  have low (shifted : Nat) : lowByte (shifted : Int) = UInt8.ofNat shifted := by
    apply UInt8.toNat_inj.mp
    show ((shifted : Int) % 2 ^ 8).toNat % 2 ^ 8 = shifted % 2 ^ 8
    omega
  have shift (bits : Nat) : ((value : Int) >>> bits) = ((value >>> bits : Nat) : Int) := rfl
  simp only [intBytes, shift, low, littleEndian, Nat.shiftRight_eq_div_pow, Nat.div_div_eq_div_mul]

theorem ofLittleEndian_intBytes (value : Nat) :
    ofLittleEndian (intBytes (value : Int)) = value % 2 ^ 32 := by
  rw [intBytes_natCast, ofLittleEndian_littleEndian]
  rfl

theorem ascii_riff : ascii "RIFF" = [82, 73, 70, 70] := by decide

theorem ascii_waveFormat : ascii "WAVEfmt " = [87, 65, 86, 69, 102, 109, 116, 32] := by decide

private theorem ascii_format : ascii "fmt " = [102, 109, 116, 32] := by decide

theorem ascii_data : ascii "data" = [100, 97, 116, 97] := by decide

section Fields

variable (sampleRate : Int) (dataSize : Nat) (data : List UInt8)

private theorem header_drop : (header sampleRate dataSize ++ data).drop 12 =
    ascii "fmt " ++ [16, 0, 0, 0] ++ ([1, 0, 1, 0] ++ intBytes sampleRate ++
      intBytes ((sampleRate * channelCount * bitsPerSample).tdiv 8) ++ [2, 0, 16, 0]) ++
      (ascii "data" ++ intBytes dataSize ++ data) := by
  rw [header, ascii_riff, ascii_waveFormat, ascii_format, ascii_data]
  rfl

theorem header_riffSize : number (header sampleRate dataSize ++ data) 4 4 =
    ofLittleEndian (intBytes (36 + dataSize)) := by
  rw [header, ascii_riff, ascii_waveFormat, ascii_data]
  rfl

theorem header_dataSize : number (header sampleRate dataSize ++ data) 40 4 = dataSize % 2 ^ 32 := by
  rw [← ofLittleEndian_intBytes, header, ascii_riff, ascii_waveFormat, ascii_data]
  rfl

end Fields

/-- The reader accepts a finished header in front of its data. -/
theorem parseWave_header {sampleRate : Nat} (rate : sampleRate < 2 ^ 31) {data : List UInt8}
    (size : 36 + data.length < 2 ^ 32) :
    parseWave (header sampleRate data.length ++ data) = some {
      riffSize := 36 + data.length
      format := 1
      channels := 1
      sampleRate := sampleRate
      byteRate := 2 * sampleRate
      blockAlign := 2
      bitsPerSample := 16
      dataSize := data.length
      data := data } := by
  have bytesPerSecond : ((sampleRate : Int) * channelCount * bitsPerSample).tdiv 8 =
      ((2 * sampleRate : Nat) : Int) := by
    rw [Int.tdiv_eq_ediv_of_nonneg (by unfold channelCount bitsPerSample; omega)]
    unfold channelCount bitsPerSample
    omega
  have riffSize : ofLittleEndian (intBytes (36 + (data.length : Int))) = 36 + data.length := by
    have sum : 36 + (data.length : Int) = ((36 + data.length : Nat) : Int) := by omega
    rw [sum, ofLittleEndian_intBytes, Nat.mod_eq_of_lt size]
  have dataSize : ofLittleEndian (intBytes data.length) = data.length := by
    rw [ofLittleEndian_intBytes, Nat.mod_eq_of_lt (by omega)]
  have rateField : ofLittleEndian (intBytes sampleRate) = sampleRate := by
    rw [ofLittleEndian_intBytes, Nat.mod_eq_of_lt (by omega)]
  have byteRateField : ofLittleEndian (intBytes ((2 * sampleRate : Nat) : Int)) = 2 * sampleRate := by
    rw [ofLittleEndian_intBytes, Nat.mod_eq_of_lt (by omega)]
  have length : (header sampleRate data.length ++ data).length = data.length + 42 + 1 + 1 := by
    rw [List.length_append, length_header, headerSize]
    omega
  have parts : chunks (data.length + 42 + 1 + 1) ((header sampleRate data.length ++ data).drop 12) =
      some [⟨ascii "fmt ", [1, 0, 1, 0] ++ intBytes sampleRate ++
        intBytes ((2 * sampleRate : Nat) : Int) ++ [2, 0, 16, 0]⟩, ⟨ascii "data", data⟩] := by
    rw [header_drop, bytesPerSecond, chunks_append rfl rfl rfl (.inl (by simp [intBytes])),
      ← List.append_nil (ascii "data" ++ intBytes data.length ++ data),
      chunks_append rfl rfl dataSize (.inr rfl)]
    cases data <;> rfl
  unfold parseWave
  rw [if_neg, length, parts]
  · have apart : ascii "fmt " ≠ ascii "data" := by decide
    simp only [Option.bind_eq_bind, Option.bind_some, List.find?_cons, decide_true, apart,
      decide_false, header_riffSize, riffSize]
    rw [if_neg (by simp [intBytes])]
    have format : number ([1, 0, 1, 0] ++ intBytes sampleRate ++
        intBytes ((2 * sampleRate : Nat) : Int) ++ [2, 0, 16, 0]) 4 4 = sampleRate := rateField
    have bytes : number ([1, 0, 1, 0] ++ intBytes sampleRate ++
        intBytes ((2 * sampleRate : Nat) : Int) ++ [2, 0, 16, 0]) 8 4 = 2 * sampleRate :=
      byteRateField
    rw [format, bytes]
    rfl
  · rw [header_riffSize, riffSize, length]
    rintro (first | form | rest)
    · exact first rfl
    · exact form rfl
    · omega

end LocalWhisper.Record.Wav
