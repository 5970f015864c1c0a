import LocalWhisper.Record.RecordedAudioFileWriter

/-! What stands in the file after a history of appends and a close: the samples
of every append that returned, and whatever a failed one had written already. -/

namespace LocalWhisper.Record.Wav

open LocalWhisper.Machine LocalWhisper.Machine.Riff LocalWhisper.Record.Buffer

/-- The bytes that the writes of a channel bring into the file, and whether the
loop over them ends normally. -/
def transfer : List ChannelWrite → List UInt8 → Option (List UInt8 × Bool)
  | [], view => if view = [] then some ([], true) else none
  | write :: later, view =>
    if view = [] then some ([], true)
    else if view.length < write.taken then none
    else if write.throws then some (view.take write.taken, false)
    else
      (transfer later (view.drop write.taken)).map fun result =>
        (view.take write.taken ++ result.1, result.2)

private theorem writeAll_eq (writes : List ChannelWrite) (view : List UInt8) (output : ByteFile) :
    writeAll writes view output =
      (transfer writes view).map fun result => (output.write result.1, result.2) := by
  induction writes generalizing view output with
  | nil =>
    simp only [writeAll, transfer]
    split <;> simp
  | cons write later ih =>
    simp only [writeAll, transfer]
    split
    · simp
    · split
      · rfl
      · split
        · rfl
        · rw [ih, Option.map_map]
          congr 1
          funext result
          rw [Function.comp_apply, ByteFile.write_write]

theorem transfer_done {writes : List ChannelWrite} {view bytes : List UInt8}
    (ended : transfer writes view = some (bytes, true)) : bytes = view := by
  induction writes generalizing view bytes with
  | nil =>
    simp only [transfer] at ended
    split at ended
    · next none =>
      cases ended
      exact none.symm
    · cases ended
  | cons write later ih =>
    simp only [transfer] at ended
    split at ended
    · next none =>
      cases ended
      exact none.symm
    · split at ended
      · cases ended
      · split at ended
        · cases ended
        · obtain ⟨⟨rest, done⟩, moved, same⟩ := Option.map_eq_some_iff.mp ended
          simp only [Prod.mk.injEq] at same
          obtain ⟨rfl, rfl⟩ := same
          rw [ih moved, List.take_append_drop]

/-- What a call on an open writer brings into the file, and whether it returns
normally. A refused range brings nothing. -/
def AppendCall.outcome (call : AppendCall) : Option (List UInt8 × Bool) :=
  if call.Invalid ∨ (call.samples.limit : Int) < call.byteOffset then some ([], false)
  else transfer call.writes call.range

/-- A range that is accepted has two bytes for every sample. -/
theorem AppendCall.length_range {call : AppendCall} (valid : ¬ call.Invalid) :
    call.range.length = call.length.toNat * shortBytes := by
  unfold AppendCall.Invalid shortBytes at valid
  unfold AppendCall.range shortBytes
  rw [List.length_take, List.length_drop]
  omega

theorem AppendCall.outcome_done {call : AppendCall} {bytes : List UInt8}
    (returned : call.outcome = some (bytes, true)) :
    bytes = call.range ∧ bytes.length = call.length.toNat * shortBytes := by
  unfold AppendCall.outcome at returned
  split at returned
  · cases returned
  · next accepted =>
    have same := transfer_done returned
    exact ⟨same, same ▸ AppendCall.length_range fun invalid => accepted (.inl invalid)⟩

namespace RecordedAudioFileWriter

/-- The writer after a call that brought these bytes into the file. -/
def grown (writer : RecordedAudioFileWriter) (bytes : List UInt8) (returned : Bool) :
    RecordedAudioFileWriter :=
  { writer with
    output := writer.output.write bytes
    pcmBytes := writer.pcmBytes + if returned then bytes.length else 0 }

theorem append_eq {writer : RecordedAudioFileWriter} (opened : writer.closed = false)
    (call : AppendCall) :
    (writer.append call).map (fun result => (result.1, result.2.isOk)) =
      call.outcome.map fun result => (writer.grown result.1 result.2, result.2) := by
  unfold append AppendCall.outcome
  rw [if_neg (by simp [opened])]
  by_cases invalid : call.Invalid
  · simp [invalid, grown, Except.isOk, Except.toBool]
  · by_cases beyond : (call.samples.limit : Int) < call.byteOffset
    · simp [invalid, beyond, grown, Except.isOk, Except.toBool]
    · simp only [invalid, beyond, if_false, or_self, writeAll_eq]
      cases moved : transfer call.writes call.range with
      | none => rfl
      | some result =>
        obtain ⟨bytes, returned⟩ := result
        cases returned with
        | false => simp [grown, Except.isOk, Except.toBool]
        | true =>
          have all := transfer_done moved
          simp [grown, Except.isOk, Except.toBool, all, AppendCall.length_range invalid]

/-- One call after the other, whether it returns or throws. -/
def appendEach (writer : RecordedAudioFileWriter) (calls : List AppendCall) :
    Option RecordedAudioFileWriter :=
  calls.foldlM (fun writer call => (writer.append call).map Prod.fst) writer

/-- A history in which every call returns normally. -/
def appendAll (writer : RecordedAudioFileWriter) (calls : List AppendCall) :
    Option RecordedAudioFileWriter :=
  calls.foldlM (fun writer call => match writer.append call with
    | some (next, .ok _) => some next
    | _ => none) writer

/-- `close`, called again and again. -/
def closeTimes (writer : RecordedAudioFileWriter) : Nat → Except WriterError RecordedAudioFileWriter
  | 0 => .ok writer
  | times + 1 => do (← writer.close).closeTimes times

end RecordedAudioFileWriter

def AppendCall.recorded (call : AppendCall) : List UInt8 :=
  match call.outcome with
  | some (_, true) => call.range
  | _ => []

/-- What a call that throws has brought into the file. -/
def AppendCall.leftBehind (call : AppendCall) : List UInt8 :=
  match call.outcome with
  | some (bytes, false) => bytes
  | _ => []

def recording (calls : List AppendCall) : List UInt8 := calls.flatMap AppendCall.recorded

/-- A writer that is not closed yet: the first header, then the bytes that came,
and the position at the end. -/
structure Writing (writer : RecordedAudioFileWriter) (sampleRate : Int) (size : Nat)
    (body : List UInt8) : Prop where
  contents : writer.output.contents = header sampleRate 0 ++ body
  position : writer.output.position = writer.output.contents.length
  rate : writer.sampleRate = sampleRate
  size : writer.pcmBytes = size
  opened : writer.closed = false

theorem writing_new {directory : String} {existing : List UInt8} {sampleRate : Int}
    {writer : RecordedAudioFileWriter}
    (made : RecordedAudioFileWriter.new directory true existing sampleRate = .ok writer) :
    Writing writer sampleRate 0 [] := by
  have emptied : (ByteFile.mk existing 0).setLength 0 = ByteFile.mk [] 0 := by
    simp [ByteFile.setLength]
  unfold RecordedAudioFileWriter.new at made
  rw [if_pos rfl, emptied] at made
  simp only [writeHeader_eq, bind, Except.bind, pure, Except.pure, Except.ok.injEq] at made
  subst made
  have atEnd : (ByteFile.mk [] 0).position = (ByteFile.mk [] 0).contents.length := rfl
  refine ⟨?_, ?_, rfl, rfl, rfl⟩
  · rw [List.append_nil]
    exact ByteFile.write_end atEnd _
  · simp only [ByteFile.write_position, ByteFile.write_end atEnd, List.length_append,
      List.length_nil]

theorem Writing.grown {writer : RecordedAudioFileWriter} {sampleRate : Int} {size : Nat}
    {body : List UInt8} (writing : Writing writer sampleRate size body) (bytes : List UInt8)
    (returned : Bool) :
    Writing (writer.grown bytes returned) sampleRate
      (size + if returned then bytes.length else 0) (body ++ bytes) := by
  have contents : (writer.output.write bytes).contents =
      header sampleRate 0 ++ (body ++ bytes) := by
    rw [ByteFile.write_end writing.position, writing.contents, List.append_assoc]
  refine ⟨contents, ?_, writing.rate, ?_, writing.opened⟩
  · show (writer.output.write bytes).position = (writer.output.write bytes).contents.length
    rw [ByteFile.write_position, ByteFile.write_end writing.position, List.length_append,
      writing.position]
  · show writer.pcmBytes + _ = size + _
    rw [writing.size]

section History

variable {writer after : RecordedAudioFileWriter} {sampleRate : Int} {size : Nat}
  {body : List UInt8}

/-- A call brings its samples or what it leaves behind, and counts its samples only. -/
theorem Writing.append (writing : Writing writer sampleRate size body) {call : AppendCall}
    {result : Except WriterError Int} (taken : writer.append call = some (after, result)) :
    Writing after sampleRate (size + call.recorded.length)
        (body ++ (call.recorded ++ call.leftBehind)) ∧
      (result.isOk = true → call.leftBehind = [] ∧ call.recorded = call.range) := by
  have both := RecordedAudioFileWriter.append_eq writing.opened call
  rw [taken] at both
  obtain ⟨⟨bytes, returned⟩, outcome, same⟩ := Option.map_eq_some_iff.mp both.symm
  simp only [Prod.mk.injEq] at same
  obtain ⟨rfl, ended⟩ := same
  have grown := writing.grown bytes returned
  unfold AppendCall.recorded AppendCall.leftBehind
  rw [outcome, ← ended]
  cases returned with
  | false => exact ⟨grown, nofun⟩
  | true =>
    obtain ⟨rfl, -⟩ := AppendCall.outcome_done outcome
    refine ⟨?_, fun _ => ⟨rfl, rfl⟩⟩
    simpa using grown

theorem Writing.appendEach (writing : Writing writer sampleRate size body)
    {calls : List AppendCall} (ran : writer.appendEach calls = some after) :
    Writing after sampleRate (size + (recording calls).length)
      (body ++ calls.flatMap fun call => call.recorded ++ call.leftBehind) := by
  induction calls generalizing writer size body with
  | nil =>
    cases ran
    simpa [recording] using writing
  | cons call rest ih =>
    simp only [RecordedAudioFileWriter.appendEach, List.foldlM_cons] at ran
    obtain ⟨next, stepped, continued⟩ := Option.bind_eq_some_iff.mp ran
    obtain ⟨⟨reached, result⟩, taken, rfl⟩ := Option.map_eq_some_iff.mp stepped
    have later := ih (writing.append taken).1 continued
    simpa [recording, Nat.add_assoc, List.append_assoc] using later

/-- Where every call returns, nothing is left behind. -/
theorem Writing.appendAll (writing : Writing writer sampleRate size body)
    {calls : List AppendCall} (ran : writer.appendAll calls = some after) :
    Writing after sampleRate (size + (calls.flatMap AppendCall.range).length)
      (body ++ calls.flatMap AppendCall.range) := by
  induction calls generalizing writer size body with
  | nil =>
    cases ran
    simpa using writing
  | cons call rest ih =>
    simp only [RecordedAudioFileWriter.appendAll, List.foldlM_cons] at ran
    obtain ⟨next, stepped, continued⟩ := Option.bind_eq_some_iff.mp ran
    split at stepped
    · next reached length taken =>
      cases stepped
      obtain ⟨grown, returned⟩ := writing.append taken
      obtain ⟨clean, whole⟩ := returned rfl
      rw [clean, whole, List.append_nil] at grown
      have later := ih grown continued
      simpa [Nat.add_assoc, List.append_assoc] using later
    · cases stepped

/-- The second header takes the place of the first. -/
theorem Writing.close (writing : Writing writer sampleRate size body) :
    ∃ finished, writer.close = .ok finished ∧ finished.closed = true ∧
      finished.output.contents = header sampleRate size ++ body := by
  have start : (writer.output.seek 0).position = 0 := rfl
  have replaced := ByteFile.seek_write writer.output writing.contents
    (by rw [length_header, length_header] :
      (header sampleRate size).length = (header sampleRate 0).length)
  refine ⟨{ writer with
    output := (writer.output.seek 0).write (header sampleRate size)
    closed := true }, ?_, rfl, replaced⟩
  unfold RecordedAudioFileWriter.close
  rw [if_neg (by simp [writing.opened]), writeHeader_eq start, writing.rate, writing.size]
  rfl

theorem Writing.closeTimes (writing : Writing writer sampleRate size body) (more : Nat) :
    ∃ finished, writer.closeTimes (more + 1) = .ok finished ∧
      finished.output.contents = header sampleRate size ++ body := by
  obtain ⟨finished, closed, isClosed, contents⟩ := writing.close
  have again (times : Nat) : finished.closeTimes times = .ok finished := by
    induction times with
    | zero => rfl
    | succ times ih =>
      have stays : finished.close = .ok finished := by
        unfold RecordedAudioFileWriter.close
        exact if_pos isClosed
      simp only [RecordedAudioFileWriter.closeTimes, stays]
      exact ih
  refine ⟨finished, ?_, contents⟩
  simp only [RecordedAudioFileWriter.closeTimes, closed]
  exact again more

end History

theorem drop_header (sampleRate : Int) (dataSize : Nat) (body : List UInt8) :
    (header sampleRate dataSize ++ body).drop 44 = body :=
  List.drop_left' (length_header _ _)

/-- Recorded samples are read back by any reader of WAVE files when every append
returned and 32 bits hold the size. The file can then be closed, any number of
times. -/
theorem wav_reads_back {directory : String} {existing : List UInt8} {sampleRate : Nat}
    {writer after : RecordedAudioFileWriter} {calls : List AppendCall}
    (rate : 0 < sampleRate ∧ sampleRate < 2 ^ 31)
    (made : RecordedAudioFileWriter.new directory true existing sampleRate = .ok writer)
    (appended : writer.appendAll calls = some after)
    (size : 36 + (calls.flatMap AppendCall.range).length < 2 ^ 32) (more : Nat) :
    ∃ finished, after.closeTimes (more + 1) = .ok finished ∧
      finished.output.contents.length = 44 + (calls.flatMap AppendCall.range).length ∧
      parseWave finished.output.contents = some {
        riffSize := 36 + (calls.flatMap AppendCall.range).length
        format := 1
        channels := 1
        sampleRate := sampleRate
        byteRate := 2 * sampleRate
        blockAlign := 2
        bitsPerSample := 16
        dataSize := (calls.flatMap AppendCall.range).length
        data := calls.flatMap AppendCall.range } ∧
      after.output.contents.drop 44 = calls.flatMap AppendCall.range ∧
      finished.output.contents.drop 44 = calls.flatMap AppendCall.range := by
  have writing := (writing_new made).appendAll appended
  rw [Nat.zero_add, List.nil_append] at writing
  obtain ⟨finished, closed, contents⟩ := writing.closeTimes more
  refine ⟨finished, closed, ?_, ?_, ?_, ?_⟩
  · rw [contents, List.length_append, length_header, headerSize]
  · rw [contents]
    exact parseWave_header rate.2 size
  · rw [writing.contents, drop_header]
  · rw [contents, drop_header]

/-- The bytes of two samples at offset 2 of a direct buffer, in three writes. -/
def splitAppend : AppendCall :=
  ⟨⟨true, [9, 9, 1, 2, 3, 4, 9, 9], 8⟩, 2, 2, [⟨1, false⟩, ⟨2, false⟩, ⟨1, false⟩]⟩

/-- A file of three bytes is begun again, appended to twice and closed twice. -/
theorem wav_reads_back_split : ∃ writer after finished,
    RecordedAudioFileWriter.new "recordings" true [7, 7, 7] 16000 = .ok writer ∧
      writer.appendAll [splitAppend, splitAppend] = some after ∧
      after.closeTimes 2 = .ok finished ∧
      (parseWave finished.output.contents).map (·.data) = some [1, 2, 3, 4, 1, 2, 3, 4] := by
  obtain ⟨writer, made⟩ : ∃ writer,
      RecordedAudioFileWriter.new "recordings" true [7, 7, 7] (16000 : Nat) = .ok writer := ⟨_, rfl⟩
  have ran : ((RecordedAudioFileWriter.new "recordings" true [7, 7, 7] (16000 : Nat)).toOption.bind
      fun writer => writer.appendAll [splitAppend, splitAppend]).isSome = true := by decide +kernel
  rw [made] at ran
  obtain ⟨after, appended⟩ := Option.isSome_iff_exists.mp ran
  obtain ⟨finished, closed, -, parsed, -⟩ :=
    wav_reads_back ⟨by decide, by decide⟩ made appended (by decide) 1
  refine ⟨writer, after, finished, made, appended, closed, ?_⟩
  rw [parsed]
  rfl

/-- The file body has at least the recorded samples, and no more only when nothing
was left behind. -/
theorem length_body (calls : List AppendCall) :
    (recording calls).length ≤
        (calls.flatMap fun call => call.recorded ++ call.leftBehind).length ∧
      ((calls.flatMap fun call => call.recorded ++ call.leftBehind).length ≤
        (recording calls).length → ∀ call ∈ calls, call.leftBehind = []) := by
  induction calls with
  | nil => exact ⟨Nat.le_refl _, fun _ => nofun⟩
  | cons call rest ih =>
    obtain ⟨least, clean⟩ := ih
    simp only [recording, List.flatMap_cons, List.length_append] at least clean ⊢
    refine ⟨by omega, fun most other member => ?_⟩
    rcases List.mem_cons.mp member with rfl | later
    · exact List.eq_nil_of_length_eq_zero (by omega)
    · exact clean (by omega) other later

private theorem body_of_clean {calls : List AppendCall}
    (clean : ∀ call ∈ calls, call.leftBehind = []) :
    (calls.flatMap fun call => call.recorded ++ call.leftBehind) = recording calls := by
  apply List.flatMap_congr
  intro call member
  rw [clean call member, List.append_nil]

/-- A finished file holds exactly the samples of the appends that returned, and
the size of the data is that of the file, if and only if no failed append had
written a byte and 32 bits hold the size. -/
theorem failed_append_harmless_iff {directory : String} {existing : List UInt8}
    {sampleRate : Int} {writer after finished : RecordedAudioFileWriter} {calls : List AppendCall}
    (made : RecordedAudioFileWriter.new directory true existing sampleRate = .ok writer)
    (appended : writer.appendEach calls = some after) (closed : after.close = .ok finished) :
    (number finished.output.contents 40 4 = finished.output.contents.length - 44 ∧
      (finished.output.contents.drop 44).take (number finished.output.contents 40 4) =
        recording calls) ↔
      (∀ call ∈ calls, call.leftBehind = []) ∧ (recording calls).length < 2 ^ 32 := by
  have writing := (writing_new made).appendEach appended
  rw [Nat.zero_add, List.nil_append] at writing
  obtain ⟨other, again, -, contents⟩ := writing.close
  obtain rfl : other = finished := Except.ok.inj (again.symm.trans closed)
  have file : (header sampleRate (recording calls).length ++
      calls.flatMap fun call => call.recorded ++ call.leftBehind).length - 44 =
        (calls.flatMap fun call => call.recorded ++ call.leftBehind).length := by
    rw [List.length_append, length_header, headerSize, Nat.add_sub_cancel_left]
  rw [contents, header_dataSize, file, drop_header]
  obtain ⟨least, clean⟩ := length_body calls
  constructor
  · rintro ⟨size, -⟩
    have below := Nat.mod_le (recording calls).length (2 ^ 32)
    have inside := Nat.mod_lt (recording calls).length (by decide : 0 < 2 ^ 32)
    exact ⟨clean (by omega), by omega⟩
  · rintro ⟨nothing, small⟩
    rw [body_of_clean nothing, Nat.mod_eq_of_lt small]
    exact ⟨rfl, List.take_length⟩

/-- A channel that throws before it takes a byte, between two appends that return. -/
def cleanFailure : List AppendCall :=
  [splitAppend, ⟨⟨true, [5, 6], 2⟩, 0, 1, [⟨0, true⟩]⟩, splitAppend]

theorem failed_append_harmless_iff_clean : ∃ writer after finished,
    RecordedAudioFileWriter.new "recordings" true [] 16000 = .ok writer ∧
      writer.appendEach cleanFailure = some after ∧ after.close = .ok finished ∧
      number finished.output.contents 40 4 = finished.output.contents.length - 44 := by
  obtain ⟨writer, made⟩ : ∃ writer,
      RecordedAudioFileWriter.new "recordings" true [] 16000 = .ok writer := ⟨_, rfl⟩
  have ran : ((RecordedAudioFileWriter.new "recordings" true [] 16000).toOption.bind
      fun writer => writer.appendEach cleanFailure).isSome = true := by decide +kernel
  rw [made] at ran
  obtain ⟨after, appended⟩ := Option.isSome_iff_exists.mp ran
  obtain ⟨finished, closed, -⟩ := ((writing_new made).appendEach appended).close
  exact ⟨writer, after, finished, made, appended, closed,
    ((failed_append_harmless_iff made appended closed).mpr (by decide)).1⟩

/-- A write takes one byte of a sample and throws, and the next sample follows it. -/
def tornSample : List AppendCall :=
  [⟨⟨true, [1, 2], 2⟩, 0, 1, [⟨1, true⟩]⟩, ⟨⟨true, [3, 4], 2⟩, 0, 1, [⟨2, false⟩]⟩]

/-- The data is the first byte of the lost sample and one of the kept sample. -/
theorem torn_sample_in_data : ¬ ∀ (calls : List AppendCall)
    (writer after finished : RecordedAudioFileWriter),
    RecordedAudioFileWriter.new "recordings" true [] 16000 = .ok writer →
      writer.appendEach calls = some after → after.close = .ok finished →
        number finished.output.contents 40 4 = finished.output.contents.length - 44 ∧
          (finished.output.contents.drop 44).take (number finished.output.contents 40 4) =
            recording calls := by
  intro always
  obtain ⟨writer, made⟩ : ∃ writer,
      RecordedAudioFileWriter.new "recordings" true [] 16000 = .ok writer := ⟨_, rfl⟩
  have data : ((RecordedAudioFileWriter.new "recordings" true [] 16000).toOption.bind fun writer =>
      (writer.appendEach tornSample).bind fun after => after.close.toOption.map fun finished =>
        (finished.output.contents.drop 44).take (number finished.output.contents 40 4)) =
      some [1, 3] := by decide +kernel
  simp only [made, Except.toOption, Option.bind_some] at data
  obtain ⟨after, appended, last⟩ := Option.bind_eq_some_iff.mp data
  cases closed : after.close with
  | error => simp [closed] at last
  | ok finished =>
    have seen : (finished.output.contents.drop 44).take (number finished.output.contents 40 4) =
        [1, 3] := by simpa [closed] using last
    have kept := (always tornSample writer after finished made appended closed).2
    rw [seen] at kept
    exact absurd kept (by decide)

/-- The sizes and flags of a writer, for the session it belongs to. -/
def RecordedAudioFileWriter.view (writer : RecordedAudioFileWriter) (sessionId : Text)
    (closeCalled : Bool) : Record.RecordedAudioFileWriter :=
  { sessionId
    pcmBytes := writer.pcmBytes
    fileLength := writer.output.contents.length
    closed := writer.closed
    closeCalled }

/-- Seen through its sizes, an append that returns or that the channel breaks off
is the append of the service's model. -/
theorem Writing.view_append {writer after : RecordedAudioFileWriter} {sampleRate : Int} {size : Nat}
    {body : List UInt8} (writing : Writing writer sampleRate size body) {call : AppendCall}
    {result : Except WriterError Int} (taken : writer.append call = some (after, result))
    (sessionId : Text) (closeCalled : Bool) :
    (writer.view sessionId closeCalled).append call.length.toNat
        (if result.isOk then none else some call.leftBehind.length) =
      (after.view sessionId closeCalled, result.isOk) := by
  have both := RecordedAudioFileWriter.append_eq writing.opened call
  rw [taken] at both
  obtain ⟨⟨bytes, returned⟩, outcome, same⟩ := Option.map_eq_some_iff.mp both.symm
  simp only [Prod.mk.injEq] at same
  obtain ⟨rfl, ended⟩ := same
  have length : (writer.output.write bytes).contents.length =
      writer.output.contents.length + bytes.length := by
    rw [ByteFile.write_end writing.position, List.length_append]
  unfold Record.RecordedAudioFileWriter.append
  simp only [RecordedAudioFileWriter.view, writing.opened, RecordedAudioFileWriter.grown, length,
    AppendCall.leftBehind, outcome, ← ended]
  cases returned with
  | false => rfl
  | true =>
    rw [(AppendCall.outcome_done outcome).2]
    rfl

end LocalWhisper.Record.Wav
