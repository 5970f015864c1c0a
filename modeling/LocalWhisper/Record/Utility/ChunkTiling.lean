import LocalWhisper.Record.Utility.ChunkEmitter

/-! The chunks of a decoded file: consecutive blocks of its mono samples, each
resampled on its own, however the decoder cuts the file into buffers. -/

namespace LocalWhisper.Record.Pcm

open LocalWhisper.Machine
open LocalWhisper.Transcription (WhisperTranscriptionWorker.defaultSampleRate)

/-- Consecutive blocks of `length` values; the last one may be shorter. -/
def blocks {Value : Type} (length : Nat) (values : List Value) : List (List Value) :=
  if _more : values ≠ [] ∧ 0 < length then
    values.take length :: blocks length (values.drop length)
  else []
termination_by values.length
decreasing_by
  have := List.length_pos_of_ne_nil _more.1
  rw [List.length_drop]
  omega

section Blocks

variable {Value : Type} {length : Nat}

theorem blocks_nil : blocks length ([] : List Value) = [] := by
  rw [blocks, dif_neg (by simp)]

theorem blocks_append (positive : 0 < length) {block : List Value}
    (full : block.length = length) (rest : List Value) :
    blocks length (block ++ rest) = block :: blocks length rest := by
  have some : block ++ rest ≠ [] := by
    intro empty
    rw [(List.append_eq_nil_iff.mp empty).1] at full
    simp only [List.length_nil] at full
    omega
  rw [blocks, dif_pos ⟨some, positive⟩, List.take_left' full, List.drop_left' full]

theorem blocks_short {values : List Value} (some : values ≠ []) (short : values.length ≤ length) :
    blocks length values = [values] := by
  have positive := List.length_pos_of_ne_nil some
  rw [blocks, dif_pos ⟨some, by omega⟩, List.take_of_length_le short,
    List.drop_eq_nil_of_le short, blocks_nil]

private theorem take_mem_blocks {values : List Value} (positive : 0 < length)
    (long : length ≤ values.length) : values.take length ∈ blocks length values := by
  have some : values ≠ [] := by
    intro empty
    rw [empty, List.length_nil] at long
    omega
  rw [blocks, dif_pos ⟨some, positive⟩]
  exact List.mem_cons_self

theorem blocks_flatten (positive : 0 < length) {full : List (List Value)}
    (lengths : ∀ block ∈ full, block.length = length) {rest : List Value}
    (short : rest.length < length) :
    blocks length (full.flatten ++ rest) = full ++ if rest = [] then [] else [rest] := by
  induction full with
  | nil =>
    by_cases empty : rest = []
    · rw [if_pos empty, empty]
      exact blocks_nil
    · rw [if_neg empty]
      exact blocks_short empty (Nat.le_of_lt short)
  | cons block later ih =>
    rw [List.flatten_cons, List.append_assoc,
      blocks_append positive (lengths block List.mem_cons_self),
      ih fun other member => lengths other (List.mem_cons_of_mem block member)]
    rfl

end Blocks

/-- The calls for outputs that are all followed by another one. -/
def openCalls (start : Nat) : List (List Int16) → List ChunkCall
  | [] => []
  | output :: rest =>
    ⟨output, Int64.ofNat start, false⟩ :: openCalls (start + output.length) rest

/-- The calls for all outputs of a file: each starts where the earlier ones
end, and the last one is final. -/
def chunkCalls (start : Nat) : List (List Int16) → List ChunkCall
  | [] => []
  | output :: rest =>
    ⟨output, Int64.ofNat start, rest.isEmpty⟩ :: chunkCalls (start + output.length) rest

def totalLength (outputs : List (List Int16)) : Nat := outputs.flatten.length

private theorem totalLength_append (outputs : List (List Int16)) (output : List Int16) :
    totalLength (outputs ++ [output]) = totalLength outputs + output.length := by
  simp [totalLength]

theorem openCalls_append (start : Nat) (outputs : List (List Int16)) (output : List Int16) :
    openCalls start (outputs ++ [output]) = openCalls start outputs ++
      [⟨output, Int64.ofNat (start + totalLength outputs), false⟩] := by
  induction outputs generalizing start with
  | nil => rfl
  | cons first rest ih =>
    have total : start + totalLength (first :: rest) =
        start + first.length + totalLength rest := by
      simp only [totalLength, List.flatten_cons, List.length_append]
      omega
    rw [List.cons_append, openCalls, ih, total]
    rfl

theorem chunkCalls_append (start : Nat) (outputs : List (List Int16)) (output : List Int16) :
    chunkCalls start (outputs ++ [output]) = openCalls start outputs ++
      [⟨output, Int64.ofNat (start + totalLength outputs), true⟩] := by
  induction outputs generalizing start with
  | nil => rfl
  | cons first rest ih =>
    have total : start + totalLength (first :: rest) =
        start + first.length + totalLength rest := by
      simp only [totalLength, List.flatten_cons, List.length_append]
      omega
    have more : (rest ++ [output]).isEmpty = false := by
      cases rest <;> rfl
    rw [List.cons_append, chunkCalls, ih, total, more]
    rfl

@[simp] theorem length_chunkCalls (start : Nat) (outputs : List (List Int16)) :
    (chunkCalls start outputs).length = outputs.length := by
  induction outputs generalizing start with
  | nil => rfl
  | cons output rest ih => rw [chunkCalls, List.length_cons, ih, List.length_cons]

namespace WhisperPcmChunkEmitter

/-- The call for the pending chunk if another one follows it. -/
def pendingCalls (emitter : WhisperPcmChunkEmitter) : List ChunkCall :=
  match emitter.pending with
  | none => []
  | some pending => [⟨pending.audio.read emitter.storages, pending.startSample, false⟩]

/-- The outputs so far are delivered, except for the last one, which is
pending. The spare storage is never the storage of the pending chunk. -/
structure Emitted (emitter : WhisperPcmChunkEmitter) (outputs : List (List Int16)) : Prop where
  target : emitter.targetSampleRate = (WhisperTranscriptionWorker.defaultSampleRate : Nat)
  calls : emitter.calls ++ emitter.pendingCalls = openCalls 0 outputs
  waiting : emitter.pending = none ↔ outputs = []
  stored : ∀ pending, emitter.pending = some pending →
    pending.audio.samples < emitter.storages.count ∧
      emitter.storages.get pending.audio.samples ≠ []
  spare : ∀ spare, emitter.spareOutput = some spare → spare.bytes < emitter.storages.count
  apart : ∀ pending spare, emitter.pending = some pending → emitter.spareOutput = some spare →
    pending.audio.samples ≠ spare.bytes
  emitted : emitter.emittedSampleCount = Int64.ofNat (totalLength outputs)
  counted : emitter.chunkCount = Int32.ofNat outputs.length

/-- A storage that can take the output and is not the pending chunk's. -/
structure Output.Chosen (emitter : WhisperPcmChunkEmitter) (length : Nat) (storages : Storages)
    (output : DirectPcm16Buffer) : Prop where
  created : output.bytes < storages.count
  room : length ≤ output.sampleCapacity storages
  grown : emitter.storages.count ≤ storages.count
  pending : ∀ pending, emitter.pending = some pending →
    pending.audio.samples ≠ output.bytes ∧
      storages.get pending.audio.samples = emitter.storages.get pending.audio.samples

theorem Emitted.chooseOutput {emitter : WhisperPcmChunkEmitter} {outputs : List (List Int16)}
    (emitted : emitter.Emitted outputs) {length : Nat} (positive : 0 < length)
    (room : length ≤ maxInt / 2) :
    ∃ storages output, emitter.chooseOutput (length : Int) = .ok (storages, output) ∧
      Output.Chosen emitter length storages output := by
  have fresh : ∃ storages output,
      DirectPcm16Buffer.create emitter.storages (max 1 (length : Int)) = .ok (storages, output) ∧
        Output.Chosen emitter length storages output := by
    have capacity : max 1 (length : Int) = (length : Int) := by omega
    let samples : List Int16 := List.replicate length 0
    refine ⟨emitter.storages.create samples, ⟨emitter.storages.count, 0⟩, ?_, ?_⟩
    · unfold DirectPcm16Buffer.create
      rw [capacity, newSamples_ok positive room]
      rfl
    · refine ⟨Nat.lt_succ_self _, ?_, Nat.le_succ _, ?_⟩
      · show length ≤ ((emitter.storages.create samples).get emitter.storages.count).length
        rw [Objects.create_get_new, List.length_replicate]
      · intro pending held
        have other : pending.audio.samples ≠ emitter.storages.count :=
          Nat.ne_of_lt (emitted.stored pending held).1
        exact ⟨other, emitter.storages.create_get_of_ne samples other⟩
  unfold WhisperPcmChunkEmitter.chooseOutput
  cases kept : emitter.spareOutput with
  | none => exact fresh
  | some spare =>
    by_cases large : (length : Int) ≤ spare.sampleCapacity emitter.storages
    · refine ⟨emitter.storages, spare, if_pos large, emitted.spare spare kept, by omega,
        Nat.le_refl _, ?_⟩
      intro pending held
      exact ⟨emitted.apart pending spare held kept, rfl⟩
    · obtain ⟨storages, output, made, chosen⟩ := fresh
      exact ⟨storages, output, (if_neg large).trans made, chosen⟩

private theorem deliverPending_ok (emitter : WhisperPcmChunkEmitter)
    (stored : ∀ pending, emitter.pending = some pending →
      emitter.storages.get pending.audio.samples ≠ []) (unspared : emitter.spareOutput = none) :
    ∃ spare : Option DirectPcm16Buffer, emitter.deliverPending = .ok { emitter with
        calls := emitter.calls ++ emitter.pendingCalls
        spareOutput := spare } ∧
      ∀ kept, spare = some kept →
        ∃ pending, emitter.pending = some pending ∧ kept.bytes = pending.audio.samples := by
  cases Option.eq_none_or_eq_some emitter.pending with
  | inl held =>
    refine ⟨none, ?_, nofun⟩
    have calls : emitter.pendingCalls = [] := by
      unfold pendingCalls
      rw [held]
    have delivered : emitter.deliverPending = .ok emitter := by
      unfold deliverPending
      rw [held]
    rw [delivered, calls, List.append_nil, ← unspared]
  | inr found =>
    obtain ⟨pending, held⟩ := found
    have some : (emitter.storages.get pending.audio.samples).length ≠ 0 := by
      intro empty
      exact stored pending held (List.eq_nil_of_length_eq_zero empty)
    refine ⟨.some ⟨pending.audio.samples, 0⟩, ?_, ?_⟩
    · have calls : emitter.pendingCalls =
          [⟨pending.audio.read emitter.storages, pending.startSample, false⟩] := by
        unfold pendingCalls
        rw [held]
      have wrapped : DirectPcm16Buffer.wrap (emitter.onChunk pending false).storages
          pending.audio.samples = .ok ⟨pending.audio.samples, 0⟩ := if_neg some
      unfold deliverPending
      rw [held, calls]
      show (DirectPcm16Buffer.wrap (emitter.onChunk pending false).storages
        pending.audio.samples >>= _) = _
      rw [wrapped, ← held]
      rfl
    · intro kept same
      cases same
      exact ⟨pending, held, rfl⟩

/-- The emitter once its samples are in one of these storages. -/
def resampledTo (emitter : WhisperPcmChunkEmitter) (storages : Storages) :
    WhisperPcmChunkEmitter :=
  { emitter with
    storages
    spareOutput := none
    sourceSamples := emitter.sourceSamples.clear }

/-- The emitter once the pending chunk is delivered and this one is pending. -/
def holding (emitter : WhisperPcmChunkEmitter) (spare : Option DirectPcm16Buffer)
    (audio : DecodedAudio) (length : Nat) : WhisperPcmChunkEmitter :=
  { emitter with
    calls := emitter.calls ++ emitter.pendingCalls
    spareOutput := spare
    pending := some ⟨audio, emitter.emittedSampleCount⟩
    emittedSampleCount := emitter.emittedSampleCount + Int64.ofNat length
    chunkCount := emitter.chunkCount + 1 }

section Holding

variable {emitter : WhisperPcmChunkEmitter} {outputs : List (List Int16)} {length : Nat}
variable {grown : Storages} {output : DirectPcm16Buffer}

theorem Output.Chosen.pending_set (chosen : Output.Chosen emitter length grown output)
    (samples : List Int16) {pending : PendingChunk} (waiting : emitter.pending = some pending) :
    (grown.set output.bytes samples).get pending.audio.samples =
      emitter.storages.get pending.audio.samples := by
  have place := chosen.pending pending waiting
  rw [← place.2]
  exact grown.set_get_of_ne samples place.1

theorem Output.Chosen.pendingCalls_resampledTo
    (chosen : Output.Chosen emitter length grown output) (samples : List Int16) :
    (emitter.resampledTo (grown.set output.bytes samples)).pendingCalls =
      emitter.pendingCalls := by
  unfold pendingCalls
  rw [show (emitter.resampledTo _).pending = emitter.pending from rfl]
  cases waiting : emitter.pending with
  | none => rfl
  | some pending =>
    show [ChunkCall.mk (pending.audio.read (grown.set output.bytes samples)) _ _] = _
    unfold DecodedAudio.read
    rw [chosen.pending_set samples waiting]

theorem Output.Chosen.read_set (chosen : Output.Chosen emitter length grown output)
    {block : List Int16} (size : block.length = length) (rest : List Int16) (rate : Int) :
    DecodedAudio.read ⟨output.bytes, length, rate⟩ (grown.set output.bytes (block ++ rest)) =
      block := by
  show ((grown.set output.bytes (block ++ rest)).get output.bytes).take length = block
  rw [grown.set_get_self _ chosen.created, ← size, List.take_left]

/-- The next block is pending, in a storage that the spare one is not. -/
theorem Emitted.holding (emitted : emitter.Emitted outputs)
    (chosen : Output.Chosen emitter length grown output) (positive : 0 < length)
    {block : List Int16} (size : block.length = length) (rest : List Int16)
    {spare : Option DirectPcm16Buffer}
    (spared : ∀ kept, spare = some kept →
      ∃ pending, emitter.pending = some pending ∧ kept.bytes = pending.audio.samples) :
    ((emitter.resampledTo (grown.set output.bytes (block ++ rest))).holding spare
      ⟨output.bytes, length, emitter.targetSampleRate⟩ length).Emitted (outputs ++ [block]) where
  target := emitted.target
  calls := by
    show (emitter.calls ++ (emitter.resampledTo _).pendingCalls) ++
      [ChunkCall.mk (DecodedAudio.read ⟨output.bytes, length, emitter.targetSampleRate⟩
        (grown.set output.bytes (block ++ rest))) emitter.emittedSampleCount false] = _
    rw [chosen.pendingCalls_resampledTo, emitted.calls, chosen.read_set size, openCalls_append,
      Nat.zero_add, emitted.emitted]
  waiting := by
    constructor
    · intro none
      cases none
    · intro empty
      exact absurd empty (List.append_ne_nil_of_right_ne_nil _ (List.cons_ne_nil _ _))
  stored := by
    intro pending held
    cases held
    refine ⟨chosen.created, ?_⟩
    show (grown.set output.bytes (block ++ rest)).get output.bytes ≠ []
    rw [grown.set_get_self _ chosen.created]
    intro empty
    have none := congrArg List.length empty
    rw [List.length_append, List.length_nil] at none
    omega
  spare := by
    intro kept here
    obtain ⟨pending, waiting, same⟩ := spared kept here
    show kept.bytes < grown.count
    have before := (emitted.stored pending waiting).1
    have more := chosen.grown
    omega
  apart := by
    intro pending kept waiting here
    cases waiting
    obtain ⟨earlier, delivered, same⟩ := spared kept here
    rw [same]
    exact Ne.symm (chosen.pending earlier delivered).1
  emitted := by
    show emitter.emittedSampleCount + Int64.ofNat length = _
    rw [emitted.emitted, totalLength_append, size, Int64.ofNat_add]
  counted := by
    show emitter.chunkCount + 1 = _
    rw [emitted.counted, List.length_append, Int32.ofNat_add]
    rfl

end Holding

/-- A non-empty block is written to a storage of its own while the chunk
before it is delivered. -/
theorem Emitted.preparePendingChunk {emitter : WhisperPcmChunkEmitter}
    {outputs : List (List Int16)} (emitted : emitter.Emitted outputs) {double : Rounding}
    {values : List Int16} (stores : emitter.sourceSamples.Stores values)
    (some : 0 < values.length)
    (rated : Rated double emitter.sourceSampleRate emitter.targetSampleRate values.length)
    {length : Nat}
    (computed : resampledLength double values.length emitter.sourceSampleRate
      emitter.targetSampleRate = .ok (length : Int))
    (room : length ≤ maxInt / 2) :
    ∃ prepared, emitter.preparePendingChunk double = .ok prepared ∧
      prepared.Emitted (outputs ++
        [resampleBlock double emitter.sourceSampleRate emitter.targetSampleRate values]) ∧
      prepared.sourceSamples.Stores [] ∧
      prepared.sourceSampleRate = emitter.sourceSampleRate ∧
      prepared.sourceSamplesPerChunk = emitter.sourceSamplesPerChunk := by
  let block := resampleBlock double emitter.sourceSampleRate emitter.targetSampleRate values
  have size : block.length = length := length_resampleBlock rated computed
  have positive : 0 < length := by
    obtain ⟨other, otherComputed, empty⟩ :=
      resampledLength_ok double values.length rated.source rated.target
    rw [computed] at otherComputed
    injection otherComputed with equal
    omega
  obtain ⟨grown, output, chosenOutput, chosen⟩ := emitted.chooseOutput positive room
  have resampled := stores.resampleInto some rated computed chosen.created chosen.room
  let rest := (grown.get output.bytes).drop length
  let written := grown.set output.bytes (block ++ rest)
  have held : written.get output.bytes = block ++ rest := grown.set_get_self _ chosen.created
  obtain ⟨spare, delivered, spared⟩ := (emitter.resampledTo written).deliverPending_ok
    (fun pending waiting => by
      show written.get pending.audio.samples ≠ []
      rw [chosen.pending_set _ waiting]
      exact (emitted.stored pending waiting).2) rfl
  have created : DecodedAudio.create written output.bytes length emitter.targetSampleRate =
      .ok ⟨output.bytes, length, emitter.targetSampleRate⟩ := by
    unfold DecodedAudio.create
    rw [held, if_neg (by rw [List.length_append]; omega), if_neg (by
      have target := rated.target
      omega)]
  refine ⟨_, ?_, emitted.holding chosen positive size rest spared, stores.clear, rfl, rfl⟩
  unfold WhisperPcmChunkEmitter.preparePendingChunk
  rw [stores.size, computed]
  show (emitter.chooseOutput (length : Int) >>= _) = _
  rw [chosenOutput]
  show (emitter.sourceSamples.resampleInto double emitter.sourceSampleRate
    emitter.targetSampleRate grown output >>= _) = _
  rw [resampled]
  show ((emitter.resampledTo written).deliverPending >>= _) = _
  rw [delivered]
  show (DecodedAudio.create written output.bytes length emitter.targetSampleRate >>= _) = _
  rw [created]
  rfl

/-- At equal rates a block as long as an `int` keeps its length. -/
theorem rated_default (double : Rounding) {sourceSampleRate : Int} (positive : 0 < sourceSampleRate)
    {count : Nat} (small : count ≤ maxInt) :
    Rated double sourceSampleRate (WhisperTranscriptionWorker.defaultSampleRate : Nat) count := by
  refine ⟨positive, by decide, ?_⟩
  intro same
  rw [same]
  apply resampledLength_same double (by decide) small
  simp only [WhisperTranscriptionWorker.defaultSampleRate]
  unfold maxInt at small
  omega

/-- A block of this length can be resampled into one direct buffer. -/
def RoomFor (double : Rounding) (sourceSampleRate : Int) (length : Nat) : Prop :=
  ∀ outputLength, resampledLength double length sourceSampleRate
    (WhisperTranscriptionWorker.defaultSampleRate : Nat) = .ok outputLength →
      outputLength ≤ ((maxInt / 2 : Nat) : Int)

/-- The samples so far are the full blocks, which have been emitted, and the
rest, which is in the builder. -/
structure Holds (double : Rounding) (sourceSampleRate : Int) (length : Nat)
    (emitter : WhisperPcmChunkEmitter) (full : List (List Int16)) (rest : List Int16) :
    Prop where
  rate : emitter.sourceSampleRate = sourceSampleRate
  perChunk : emitter.sourceSamplesPerChunk = length
  lengths : ∀ block ∈ full, block.length = length
  short : rest.length < length
  stores : emitter.sourceSamples.Stores rest
  emitted : emitter.Emitted (full.map (resampleBlock double sourceSampleRate
    (WhisperTranscriptionWorker.defaultSampleRate : Nat)))

section Appending

variable {double : Rounding} {sourceSampleRate : Int} {length : Nat}

theorem emit_block {emitter : WhisperPcmChunkEmitter} {full : List (List Int16)}
    {block : List Int16} (positive : 0 < sourceSampleRate)
    (rate : emitter.sourceSampleRate = sourceSampleRate)
    (emitted : emitter.Emitted (full.map (resampleBlock double sourceSampleRate
      (WhisperTranscriptionWorker.defaultSampleRate : Nat))))
    (stores : emitter.sourceSamples.Stores block) (some : 0 < block.length)
    (small : block.length ≤ maxInt) (room : RoomFor double sourceSampleRate block.length) :
    ∃ prepared, emitter.preparePendingChunk double = .ok prepared ∧
      prepared.Emitted ((full ++ [block]).map (resampleBlock double sourceSampleRate
        (WhisperTranscriptionWorker.defaultSampleRate : Nat))) ∧
      prepared.sourceSamples.Stores [] ∧ prepared.sourceSampleRate = sourceSampleRate ∧
      prepared.sourceSamplesPerChunk = emitter.sourceSamplesPerChunk := by
  have rated : Rated double emitter.sourceSampleRate emitter.targetSampleRate block.length := by
    rw [rate, emitted.target]
    exact rated_default double positive small
  obtain ⟨outputLength, computed, -⟩ :=
    resampledLength_ok double block.length rated.source rated.target
  have fits : outputLength ≤ maxInt / 2 := by
    rw [rate, emitted.target] at computed
    exact Int.ofNat_le.mp (room _ computed)
  obtain ⟨prepared, done, outputs, empty, sameRate, samePerChunk⟩ :=
    emitted.preparePendingChunk stores some rated computed fits
  refine ⟨prepared, done, ?_, empty, sameRate.trans rate, samePerChunk⟩
  rw [rate, emitted.target] at outputs
  rw [List.map_append]
  exact outputs

/-- Samples up to the end of the block go to the builder, and the block is
emitted where they complete it. -/
theorem Holds.extend {emitter : WhisperPcmChunkEmitter} {full : List (List Int16)}
    {rest added : List Int16} (holds : Holds double sourceSampleRate length emitter full rest)
    (positive : 0 < sourceSampleRate) (small : length ≤ maxInt)
    {sourceSamples : DirectPcm16Builder} (stores : sourceSamples.Stores (rest ++ added))
    (within : rest.length + added.length ≤ length)
    (room : rest.length + added.length = length → RoomFor double sourceSampleRate length) :
    ∃ extended fuller left,
      ({ emitter with sourceSamples := sourceSamples } : WhisperPcmChunkEmitter).prepareFull
        double = .ok extended ∧
      Holds double sourceSampleRate length extended fuller left ∧
      left.length ≤ rest.length + added.length ∧
      fuller.flatten ++ left = full.flatten ++ rest ++ added := by
  have size : sourceSamples.size = rest.length + added.length := by
    rw [stores.size, List.length_append]
  let filled : WhisperPcmChunkEmitter := { emitter with sourceSamples := sourceSamples }
  have emitted : filled.Emitted (full.map (resampleBlock double sourceSampleRate
      (WhisperTranscriptionWorker.defaultSampleRate : Nat))) :=
    { target := holds.emitted.target, calls := holds.emitted.calls
      waiting := holds.emitted.waiting, stored := holds.emitted.stored
      spare := holds.emitted.spare, apart := holds.emitted.apart
      emitted := holds.emitted.emitted, counted := holds.emitted.counted }
  have filledRate : filled.sourceSampleRate = sourceSampleRate := holds.rate
  have filledStores : filled.sourceSamples.Stores (rest ++ added) := stores
  have blockLength : (rest ++ added).length = rest.length + added.length := List.length_append
  by_cases complete : rest.length + added.length = length
  · have short := holds.short
    obtain ⟨prepared, done, outputs, empty, rate, perChunk⟩ :=
      emit_block positive filledRate emitted filledStores (by omega) (by omega)
        (by rw [blockLength, complete]; exact room complete)
    refine ⟨prepared, full ++ [rest ++ added], [], ?_, ?_, Nat.zero_le _, ?_⟩
    · unfold prepareFull
      rw [if_pos (by rw [size, holds.perChunk]; exact complete)]
      exact done
    · refine ⟨rate, perChunk.trans holds.perChunk, ?_, ?_, empty, outputs⟩
      · intro block member
        cases List.mem_append.mp member with
        | inl old => exact holds.lengths block old
        | inr new =>
          rw [List.mem_singleton.mp new, blockLength]
          exact complete
      · rw [List.length_nil]
        omega
    · simp
  · refine ⟨filled, full, rest ++ added, ?_, ?_, Nat.le_of_eq blockLength, ?_⟩
    · unfold prepareFull
      rw [if_neg (by rw [size, holds.perChunk]; exact complete)]
    · exact ⟨holds.rate, holds.perChunk, holds.lengths, by omega, stores, emitted⟩
    · rw [List.append_assoc]

/-- One round takes what the buffer still has, at most what the chunk lacks. -/
theorem min_available {byteEnd offset bytesPerFrame count perChunk size : Nat}
    (lower : offset + count * bytesPerFrame ≤ byteEnd)
    (upper : byteEnd < offset + count * bytesPerFrame + bytesPerFrame)
    (within : size ≤ perChunk) :
    min (((byteEnd : Int) - offset).tdiv bytesPerFrame) ((perChunk : Int) - size) =
      ((min count (perChunk - size) : Nat) : Int) := by
  have gap : (byteEnd : Int) - offset = ((byteEnd - offset : Nat) : Int) := by omega
  have quotient : (byteEnd - offset) / bytesPerFrame = count := by
    apply Nat.div_eq_of_lt_le
    · omega
    · rw [Nat.succ_mul]
      omega
  rw [gap, ← Int.ofNat_tdiv, quotient]
  omega

/-- A round of the loop over a buffer that still has whole frames: it takes some of
them, at most what the chunk lacks, and goes on after them. -/
theorem Holds.round {buffer : ByteBuffer} {encoding : PcmEncoding}
    {channelCount pcmEncoding : Int} (encoded : PcmEncoding.of pcmEncoding = .ok encoding)
    (channels : 0 < channelCount) {bytesPerFrame : Nat}
    (perFrame : (bytesPerFrame : Int) = encoding.bytesPerSample * channelCount)
    (frameBytes : 0 < bytesPerFrame) {byteEnd : Nat} (inside : byteEnd ≤ buffer.limit)
    (positive : 0 < sourceSampleRate) (small : length ≤ maxInt) {count offset : Nat}
    {emitter : WhisperPcmChunkEmitter} {full : List (List Int16)} {rest : List Int16}
    (some : 0 < count) (lower : offset + count * bytesPerFrame ≤ byteEnd)
    (upper : byteEnd < offset + count * bytesPerFrame + bytesPerFrame)
    (holds : Holds double sourceSampleRate length emitter full rest)
    (room : length ≤ rest.length + count → RoomFor double sourceSampleRate length) :
    ∃ taken extended fuller left, 0 < taken ∧ taken ≤ count ∧
      (∀ fuel, WhisperPcmChunkEmitter.appendFrom double buffer channelCount pcmEncoding
          bytesPerFrame byteEnd (fuel + 1) offset emitter =
        WhisperPcmChunkEmitter.appendFrom double buffer channelCount pcmEncoding bytesPerFrame
          byteEnd fuel ((offset + taken * bytesPerFrame : Nat) : Int) extended) ∧
      Holds double sourceSampleRate length extended fuller left ∧
      left.length ≤ rest.length + taken ∧
      fuller.flatten ++ left = full.flatten ++ rest ++
        (framesFrom buffer.get bytesPerFrame taken offset).map
          (encoding.mixer.mono channelCount) := by
  have intRange : byteEnd ≤ maxInt :=
    Nat.le_trans inside (Nat.le_trans buffer.inside buffer.small)
  have short := holds.short
  obtain ⟨taken, takenIs⟩ : ∃ taken, taken = min count (length - rest.length) := ⟨_, rfl⟩
  have takenBytes : taken * bytesPerFrame ≤ count * bytesPerFrame :=
    Nat.mul_le_mul_right _ (by omega)
  have first : bytesPerFrame ≤ count * bytesPerFrame := Nat.le_mul_of_pos_left _ some
  obtain ⟨sourceSamples, mixed, stores⟩ :=
    appendMonoPcm16_ok buffer encoded channels perFrame frameBytes (by omega)
      (show offset + taken * bytesPerFrame ≤ buffer.limit by omega) holds.stores
  obtain ⟨added, addedIs⟩ : ∃ added, added =
      (framesFrom buffer.get bytesPerFrame taken offset).map
        (encoding.mixer.mono channelCount) := ⟨_, rfl⟩
  have addedLength : added.length = taken := by
    rw [addedIs, List.length_map, length_framesFrom]
  rw [← addedIs] at stores
  obtain ⟨extended, fuller, left, done, kept, leftLength, flat⟩ :=
    holds.extend positive small stores (by omega) (fun complete => room (by omega))
  refine ⟨taken, extended, fuller, left, by omega, by omega, ?_, kept,
    by rw [← addedLength]; exact leftLength, by rw [← addedIs]; exact flat⟩
  intro fuel
  have nonzero : ¬ (bytesPerFrame : Int) = 0 := by omega
  have more : ¬ (byteEnd : Int) < ((offset + bytesPerFrame : Nat) : Int) := by omega
  have taking : taken * bytesPerFrame ≤ maxInt := by omega
  have going : offset + taken * bytesPerFrame ≤ maxInt := by omega
  have next : javaInt ((offset : Int) + bytesPerFrame) = ((offset + bytesPerFrame : Nat) : Int) := by
    rw [← Int.natCast_add]
    exact javaInt_natCast (by omega)
  have size : javaInt ((taken : Int) * bytesPerFrame) = ((taken * bytesPerFrame : Nat) : Int) := by
    rw [← Int.natCast_mul]
    exact javaInt_natCast taking
  have moved : javaInt ((offset : Int) + ((taken * bytesPerFrame : Nat) : Int)) =
      ((offset + taken * bytesPerFrame : Nat) : Int) := by
    rw [← Int.natCast_add]
    exact javaInt_natCast going
  have frames : min (((byteEnd : Int) - offset).tdiv bytesPerFrame)
      ((emitter.sourceSamplesPerChunk : Int) - (emitter.sourceSamples.size : Int)) =
      (taken : Int) := by
    rw [holds.perChunk, holds.stores.size, min_available lower upper (Nat.le_of_lt short), takenIs]
  conv => lhs; unfold WhisperPcmChunkEmitter.appendFrom
  rw [next, if_neg more, if_neg nonzero]
  simp only [frames, size, moved]
  show (appendMonoPcm16 buffer offset ((taken * bytesPerFrame : Nat) : Int) channelCount
    pcmEncoding emitter.sourceSamples >>= _) = _
  rw [mixed]
  show (({ emitter with sourceSamples := sourceSamples } :
    WhisperPcmChunkEmitter).prepareFull double >>= _) = _
  rw [done]
  rfl

/-- The loop over one buffer consumes all its frames. It is by induction on
the fuel: every round takes at least one frame, as the builder is never full. -/
theorem Holds.appendFrom {buffer : ByteBuffer} {encoding : PcmEncoding}
    {channelCount pcmEncoding : Int} (encoded : PcmEncoding.of pcmEncoding = .ok encoding)
    (channels : 0 < channelCount) {bytesPerFrame : Nat}
    (perFrame : (bytesPerFrame : Int) = encoding.bytesPerSample * channelCount)
    (frameBytes : 0 < bytesPerFrame) {byteEnd : Nat} (inside : byteEnd ≤ buffer.limit)
    (range : byteEnd + bytesPerFrame ≤ maxInt) (positive : 0 < sourceSampleRate)
    (small : length ≤ maxInt) (fuel : Nat) :
    ∀ {count offset : Nat} {emitter : WhisperPcmChunkEmitter} {full : List (List Int16)}
      {rest : List Int16}, count < fuel → offset + count * bytesPerFrame ≤ byteEnd →
      byteEnd < offset + count * bytesPerFrame + bytesPerFrame →
      Holds double sourceSampleRate length emitter full rest →
      (length ≤ rest.length + count → RoomFor double sourceSampleRate length) →
      ∃ appended fuller left,
        WhisperPcmChunkEmitter.appendFrom double buffer channelCount pcmEncoding bytesPerFrame
          byteEnd fuel offset emitter = .ok appended ∧
        Holds double sourceSampleRate length appended fuller left ∧
        fuller.flatten ++ left = full.flatten ++ rest ++
          (framesFrom buffer.get bytesPerFrame count offset).map
            (encoding.mixer.mono channelCount) := by
  induction fuel with
  | zero =>
    intro count offset emitter full rest fueled
    omega
  | succ fuel ih =>
    intro count offset emitter full rest fueled lower upper holds room
    rcases Nat.eq_zero_or_pos count with none | some
    · rw [none, Nat.zero_mul] at lower upper
      have beyond : (byteEnd : Int) < ((offset + bytesPerFrame : Nat) : Int) := by omega
      have next : javaInt ((offset : Int) + bytesPerFrame) =
          ((offset + bytesPerFrame : Nat) : Int) := by
        rw [← Int.natCast_add]
        exact javaInt_natCast (by omega)
      refine ⟨emitter, full, rest, ?_, holds, ?_⟩
      · unfold WhisperPcmChunkEmitter.appendFrom
        rw [next, if_pos beyond]
      · simp [none, framesFrom]
    · obtain ⟨taken, extended, fuller, left, one, most, round, kept, leftLength, flat⟩ :=
        holds.round encoded channels perFrame frameBytes inside positive small some lower upper room
      have split : count = taken + (count - taken) := by omega
      have bytes : count * bytesPerFrame =
          taken * bytesPerFrame + (count - taken) * bytesPerFrame := by
        rw [← Nat.add_mul, ← split]
      obtain ⟨appended, fullest, last, continued, lastHolds, lastFlat⟩ :=
        ih (show count - taken < fuel by omega)
          (show offset + taken * bytesPerFrame + (count - taken) * bytesPerFrame ≤ byteEnd by
            omega) (by omega) kept (fun complete => room (by omega))
      refine ⟨appended, fullest, last, ?_, lastHolds, ?_⟩
      · rw [round]
        exact continued
      · rw [lastFlat, flat]
        conv => rhs; rw [split, framesFrom_add, List.map_append, ← List.append_assoc]

/-- A buffer in a supported format and in range is consumed frame by frame. -/
theorem Holds.appendBuffer {given : DecoderBuffer} {encoding : PcmEncoding}
    (decodable : given.Decodable encoding) (range : given.InRange encoding)
    (positive : 0 < sourceSampleRate) (small : length ≤ maxInt) {fuel : Nat}
    (fueled : given.size < fuel) {emitter : WhisperPcmChunkEmitter} {full : List (List Int16)}
    {rest : List Int16} (holds : Holds double sourceSampleRate length emitter full rest)
    (room : length ≤ rest.length + given.frames.length →
      RoomFor double sourceSampleRate length) :
    ∃ appended fuller left, emitter.appendBuffer double fuel given = .ok appended ∧
      Holds double sourceSampleRate length appended fuller left ∧
      fuller.flatten ++ left = full.flatten ++ rest ++ given.frames.map Frame.mono := by
  obtain ⟨channels, encoded⟩ := decodable
  let bytesPerFrame := given.bytesPerFrame encoding
  let count := given.size / bytesPerFrame
  have perFrame : (bytesPerFrame : Int) = encoding.bytesPerSample * given.channelCount := by
    show ((encoding.bytesPerSample * given.channelCount.toNat : Nat) : Int) = _
    rw [Int.natCast_mul, Int.toNat_of_nonneg (Int.le_of_lt channels)]
  have frameBytes : 0 < bytesPerFrame := by
    apply Nat.mul_pos
    · cases encoding <;> decide
    · omega
  have framesIs : given.frames = (framesFrom given.buffer.get bytesPerFrame count
      given.offset).map (Frame.mk encoding given.channelCount) := by
    unfold DecoderBuffer.frames
    rw [encoded]
  have framesLength : given.frames.length = count := by
    rw [framesIs, List.length_map, length_framesFrom]
  have lower : count * bytesPerFrame ≤ given.size := Nat.div_mul_le_self _ _
  have upper : given.size < count * bytesPerFrame + bytesPerFrame := by
    have parts : count * bytesPerFrame + given.size % bytesPerFrame = given.size :=
      Nat.div_add_mod' given.size bytesPerFrame
    have remainder := Nat.mod_lt given.size frameBytes
    omega
  have rangeIs : given.offset + given.size + bytesPerFrame ≤ maxInt := range
  obtain ⟨appended, fuller, left, done, kept, flat⟩ :=
    Holds.appendFrom encoded channels perFrame frameBytes given.inside rangeIs positive small fuel
      (show count < fuel from Nat.lt_of_le_of_lt (Nat.div_le_self _ _) fueled)
      (show given.offset + count * bytesPerFrame ≤ given.offset + given.size by omega)
      (by omega) holds (by rw [← framesLength]; exact room)
  refine ⟨appended, fuller, left, ?_, kept, ?_⟩
  · have width : javaInt (encoding.bytesPerSample * given.channelCount) =
        (bytesPerFrame : Int) := by
      rw [← perFrame]
      exact javaInt_natCast (by omega)
    have ended : javaInt ((given.offset : Int) + given.size) =
        ((given.offset + given.size : Nat) : Int) := by
      rw [← Int.natCast_add]
      exact javaInt_natCast (by omega)
    unfold WhisperPcmChunkEmitter.appendBuffer
    rw [if_neg (by omega), encoded, ended]
    show WhisperPcmChunkEmitter.appendFrom double given.buffer given.channelCount
      given.pcmEncoding (javaInt (encoding.bytesPerSample * given.channelCount)) _ fuel
      given.offset emitter = _
    rw [width]
    exact done
  · rw [flat, framesIs, List.map_map]
    rfl

/-- What the theorem below asks of an output: a supported format, positions in
the range of an `int`, and fuel for its bytes. -/
structure Fed (fuel : Nat) (given : DecoderBuffer) : Prop where
  supported : ∃ encoding, given.Decodable encoding ∧ given.InRange encoding
  fueled : given.size < fuel

theorem Holds.append {output : Output} {fuel : Nat} (fed : output.Every (Fed fuel))
    (positive : 0 < sourceSampleRate) (small : length ≤ maxInt)
    {emitter : WhisperPcmChunkEmitter} {full : List (List Int16)} {rest : List Int16}
    (holds : Holds double sourceSampleRate length emitter full rest)
    (room : length ≤ rest.length + output.frames.length →
      RoomFor double sourceSampleRate length) :
    ∃ appended fuller left, emitter.append double fuel output = .ok appended ∧
      Holds double sourceSampleRate length appended fuller left ∧
      fuller.flatten ++ left = full.flatten ++ rest ++ output.frames.map Frame.mono := by
  have whole : ∀ given : DecoderBuffer, Fed fuel given →
      (length ≤ rest.length + given.frames.length → RoomFor double sourceSampleRate length) →
      ∃ appended fuller left, emitter.appendBuffer double fuel given = .ok appended ∧
        Holds double sourceSampleRate length appended fuller left ∧
        fuller.flatten ++ left = full.flatten ++ rest ++ given.frames.map Frame.mono := by
    intro given ready roomy
    obtain ⟨encoding, decodable, range⟩ := ready.supported
    exact holds.appendBuffer decodable range positive small ready.fueled roomy
  cases output with
  | raw given => exact whole given fed room
  | codec outputBuffer =>
    cases outputBuffer with
    | none => exact ⟨emitter, full, rest, rfl, holds, (List.append_nil _).symm⟩
    | some given =>
      by_cases empty : 0 < given.size
      · obtain ⟨appended, fuller, left, done, kept, flat⟩ := whole given fed room
        exact ⟨appended, fuller, left, (if_pos empty).trans done, kept, flat⟩
      · have none := given.frames_eq_nil (Nat.eq_zero_of_not_pos empty)
        refine ⟨emitter, full, rest, if_neg empty, holds, ?_⟩
        show full.flatten ++ rest = full.flatten ++ rest ++ given.frames.map Frame.mono
        rw [none, List.map_nil, List.append_nil]

/-- All outputs of the decoder, by induction on their list. -/
theorem Holds.appendAll {fuel : Nat} (outputs : List Output)
    (fed : ∀ output ∈ outputs, output.Every (Fed fuel)) (positive : 0 < sourceSampleRate)
    (small : length ≤ maxInt) {emitter : WhisperPcmChunkEmitter} {full : List (List Int16)}
    {rest : List Int16} (holds : Holds double sourceSampleRate length emitter full rest)
    (room : length ≤ (full.flatten ++ rest).length + (outputs.flatMap Output.frames).length →
      RoomFor double sourceSampleRate length) :
    ∃ appended fuller left,
      outputs.foldlM (fun emitter output => emitter.append double fuel output) emitter =
        .ok appended ∧
      Holds double sourceSampleRate length appended fuller left ∧
      fuller.flatten ++ left =
        full.flatten ++ rest ++ (outputs.flatMap Output.frames).map Frame.mono := by
  induction outputs generalizing emitter full rest with
  | nil => exact ⟨emitter, full, rest, rfl, holds, (List.append_nil _).symm⟩
  | cons output later ih =>
    simp only [List.flatMap_cons, List.length_append] at room
    obtain ⟨appended, fuller, left, done, kept, flat⟩ :=
      holds.append (fed output List.mem_cons_self) positive small
        (fun complete => room (by omega))
    have total := congrArg List.length flat
    simp only [List.length_append, List.length_map] at total
    obtain ⟨last, fullest, ending, continued, lastHolds, lastFlat⟩ :=
      ih (fun other member => fed other (List.mem_cons_of_mem output member)) kept
        (fun complete => room (by
          simp only [List.length_append] at complete
          omega))
    refine ⟨last, fullest, ending, ?_, lastHolds, ?_⟩
    · rw [List.foldlM_cons, done]
      exact continued
    · rw [lastFlat, flat, List.flatMap_cons, List.map_append, ← List.append_assoc]

/-- The pending chunk is the last one and its call is final. -/
theorem Emitted.deliverLast {emitter : WhisperPcmChunkEmitter} {outputs : List (List Int16)}
    (emitted : emitter.Emitted outputs) :
    emitter.deliverLast.calls = chunkCalls 0 outputs := by
  cases List.eq_nil_or_concat outputs with
  | inl empty =>
    have none := emitted.waiting.mpr empty
    have calls := emitted.calls
    unfold pendingCalls at calls
    unfold WhisperPcmChunkEmitter.deliverLast
    rw [none] at calls ⊢
    rw [List.append_nil, empty] at calls
    rw [empty]
    exact calls
  | inr some =>
    obtain ⟨earlier, last, split⟩ := some
    rw [List.concat_eq_append] at split
    have calls := emitted.calls
    unfold pendingCalls at calls
    unfold WhisperPcmChunkEmitter.deliverLast
    cases held : emitter.pending with
    | none =>
      rw [emitted.waiting.mp held] at split
      exact absurd split (List.append_ne_nil_of_right_ne_nil _ (List.cons_ne_nil _ _)).symm
    | some pending =>
      rw [held, split, openCalls_append] at calls
      obtain ⟨before, same⟩ := List.append_inj' calls rfl
      injection same with call
      injection call with read start
      show emitter.calls ++ [ChunkCall.mk (pending.audio.read emitter.storages)
        pending.startSample true] = _
      rw [before, read, start, split, chunkCalls_append]

/-- The end of the file: the short window if there is one, then the last chunk. -/
theorem Holds.finish {emitter : WhisperPcmChunkEmitter} {full : List (List Int16)}
    {rest : List Int16} (holds : Holds double sourceSampleRate length emitter full rest)
    (positive : 0 < sourceSampleRate) (small : length ≤ maxInt)
    (room : rest ≠ [] → RoomFor double sourceSampleRate rest.length)
    {outputs : List (List Int16)} (outputsAre : outputs =
      (blocks length (full.flatten ++ rest)).map (resampleBlock double sourceSampleRate
        (WhisperTranscriptionWorker.defaultSampleRate : Nat))) :
    ∃ finished, emitter.finish double = .ok (finished,
        ⟨Int64.ofNat (totalLength outputs), (WhisperTranscriptionWorker.defaultSampleRate : Nat),
          Int32.ofNat outputs.length⟩) ∧
      finished.calls = chunkCalls 0 outputs ∧ finished.sourceSampleRate = sourceSampleRate ∧
      finished.sourceSamplesPerChunk = length := by
  have short := holds.short
  rw [blocks_flatten (by omega) holds.lengths short] at outputsAre
  have prepared : ∃ prepared, emitter.prepareRest double = .ok prepared ∧
      prepared.Emitted outputs ∧ prepared.sourceSampleRate = sourceSampleRate ∧
      prepared.sourceSamplesPerChunk = length := by
    have size := holds.stores.size
    unfold prepareRest
    by_cases empty : rest = []
    · rw [if_pos empty, List.append_nil] at outputsAre
      rw [empty, List.length_nil] at size
      rw [outputsAre]
      exact ⟨emitter, if_neg (by omega), holds.emitted, holds.rate, holds.perChunk⟩
    · have some := List.length_pos_of_ne_nil empty
      rw [if_neg empty] at outputsAre
      obtain ⟨prepared, done, emitted, -, rate, perChunk⟩ := emit_block positive holds.rate
        holds.emitted holds.stores some (by omega) (room empty)
      rw [outputsAre]
      exact ⟨prepared, (if_pos (by omega)).trans done, emitted, rate,
        perChunk.trans holds.perChunk⟩
  obtain ⟨last, done, emitted, rate, perChunk⟩ := prepared
  have unchanged : last.deliverLast.sourceSampleRate = last.sourceSampleRate ∧
      last.deliverLast.sourceSamplesPerChunk = last.sourceSamplesPerChunk := by
    unfold WhisperPcmChunkEmitter.deliverLast
    cases last.pending with
    | none => exact ⟨rfl, rfl⟩
    | some pending => exact ⟨rfl, rfl⟩
  refine ⟨last.deliverLast, ?_, emitted.deliverLast, unchanged.1.trans rate,
    unchanged.2.trans perChunk⟩
  unfold WhisperPcmChunkEmitter.finish
  rw [done]
  show Except.ok (last.deliverLast, DecodeSummary.mk last.deliverLast.emittedSampleCount
    last.deliverLast.targetSampleRate last.deliverLast.chunkCount) = _
  have same : last.deliverLast.emittedSampleCount = last.emittedSampleCount ∧
      last.deliverLast.targetSampleRate = last.targetSampleRate ∧
      last.deliverLast.chunkCount = last.chunkCount := by
    unfold WhisperPcmChunkEmitter.deliverLast
    cases last.pending with
    | none => exact ⟨rfl, rfl, rfl⟩
    | some pending => exact ⟨rfl, rfl, rfl⟩
  rw [same.1, same.2.1, same.2.2, emitted.emitted, emitted.target, emitted.counted]

end Appending

/-- A new emitter holds nothing. -/
theorem create_holds (double : Rounding) {sourceSampleRate chunkDurationMs : Int}
    {emitter : WhisperPcmChunkEmitter}
    (accepted : create sourceSampleRate chunkDurationMs = .ok emitter) :
    0 < sourceSampleRate ∧ emitter.sourceSamplesPerChunk ≤ maxInt ∧
      Holds double sourceSampleRate emitter.sourceSamplesPerChunk emitter [] [] := by
  unfold create at accepted
  split at accepted
  · cases accepted
  · rename_i positive
    simp only at accepted
    split at accepted
    · cases accepted
    · rename_i fits
      injection accepted with new
      subst new
      refine ⟨by omega, ?_, rfl, rfl, nofun, ?_, ?_, ?_⟩
      · show (max 1 (sourceSampleRate * chunkDurationMs / 1000)).toNat ≤ maxInt
        unfold maxInt at *
        omega
      · show 0 < (max 1 (sourceSampleRate * chunkDurationMs / 1000)).toNat
        omega
      · exact DirectPcm16Builder.Stores.create (by decide) (by decide)
      · exact
          { target := rfl, calls := rfl, waiting := ⟨fun _ => rfl, fun _ => rfl⟩
            stored := nofun, spare := nofun, apart := nofun, emitted := rfl, counted := rfl }

/-- Silent 16-bit mono samples at the end of a buffer. -/
def silence (offset size : Nat) (small : offset + size ≤ maxInt) : DecoderBuffer where
  buffer := ⟨fun _ => 0, offset + size, offset + size, Nat.le_refl _, small⟩
  offset := offset
  size := size
  inside := Nat.le_refl _
  channelCount := 1
  pcmEncoding := 2

theorem silence_decodable {offset size : Nat} (small : offset + size ≤ maxInt) :
    (silence offset size small).Decodable .pcm16 :=
  ⟨Int.zero_lt_one, rfl⟩

/-- At the target rate a block is as long as its output. -/
theorem roomFor_target (double : Rounding) {length : Nat} (small : length ≤ maxInt / 2) :
    RoomFor double (WhisperTranscriptionWorker.defaultSampleRate : Nat) length := by
  intro outputLength computed
  have bound : maxInt / 2 ≤ maxInt := Nat.div_le_self _ _
  rw [resampledLength_same double (by decide) (Nat.le_trans small bound) (by
    simp only [WhisperTranscriptionWorker.defaultSampleRate]
    unfold maxInt at small
    omega)] at computed
  injection computed with same
  rw [← same]
  exact Int.ofNat_le.mpr small

/-- However the frames of a file are cut into decoder buffers, the consumer is
called for the consecutive blocks of the mono samples, each resampled on its
own: every call starts at the sum of the output lengths before it, the last one
is final, there is no call only if there is no frame, and the summary holds the
totals. -/
theorem decode_calls {double : Rounding} {sourceSampleRate chunkDurationMs : Int}
    {emitter : WhisperPcmChunkEmitter}
    (accepted : create sourceSampleRate chunkDurationMs = .ok emitter) {frames : List Frame}
    {outputs : List Output} (cut : outputs.flatMap Output.frames = frames) {fuel : Nat}
    (fed : ∀ output ∈ outputs, output.Every (Fed fuel))
    (room : ∀ block ∈ blocks emitter.sourceSamplesPerChunk (frames.map Frame.mono),
      RoomFor double sourceSampleRate block.length)
    {chunks : List (List Int16)} (chunksAre : chunks =
      (blocks emitter.sourceSamplesPerChunk (frames.map Frame.mono)).map
        (resampleBlock double sourceSampleRate
          (WhisperTranscriptionWorker.defaultSampleRate : Nat))) :
    ∃ finished, emitter.decode double fuel outputs = .ok (finished,
        ⟨Int64.ofNat (totalLength chunks), (WhisperTranscriptionWorker.defaultSampleRate : Nat),
          Int32.ofNat finished.calls.length⟩) ∧
      finished.calls = chunkCalls 0 chunks ∧ (finished.calls = [] ↔ frames = []) := by
  obtain ⟨positive, small, holds⟩ := create_holds double accepted
  have chunked : 0 < emitter.sourceSamplesPerChunk := Nat.lt_of_le_of_lt (Nat.zero_le _) holds.short
  have fullRoom : emitter.sourceSamplesPerChunk ≤ frames.length →
      RoomFor double sourceSampleRate emitter.sourceSamplesPerChunk := by
    intro long
    have sized : emitter.sourceSamplesPerChunk ≤ (frames.map Frame.mono).length := by
      rw [List.length_map]
      exact long
    have first := room _ (take_mem_blocks chunked sized)
    rw [List.length_take, Nat.min_eq_left sized] at first
    exact first
  obtain ⟨appended, full, rest, fedAll, kept, flat⟩ :=
    holds.appendAll outputs fed positive small (by
      rw [cut]
      exact fun complete => fullRoom (by simpa using complete))
  rw [cut] at flat
  have flatIs : full.flatten ++ rest = frames.map Frame.mono := flat
  have restRoom : rest ≠ [] → RoomFor double sourceSampleRate rest.length := by
    intro some
    apply room
    rw [← flatIs, blocks_flatten chunked kept.lengths kept.short, if_neg some]
    exact List.mem_append_right full List.mem_cons_self
  rw [← flatIs] at chunksAre
  obtain ⟨finished, done, calls, -⟩ := kept.finish positive small restRoom chunksAre
  rw [flatIs] at chunksAre
  refine ⟨finished, ?_, calls, ?_⟩
  · unfold decode
    rw [fedAll, calls, length_chunkCalls, ← done]
    rfl
  · rw [← List.length_eq_zero_iff, calls, length_chunkCalls, chunksAre, List.length_map]
    constructor
    · intro none
      have empty := List.eq_nil_of_length_eq_zero none
      rw [blocks] at empty
      by_cases some : frames.map Frame.mono ≠ [] ∧ 0 < emitter.sourceSamplesPerChunk
      · rw [dif_pos some] at empty
        cases empty
      · have mapped : frames.map Frame.mono = [] :=
          Decidable.byContradiction fun more => some ⟨more, chunked⟩
        exact List.map_eq_nil_iff.mp mapped
    · intro none
      rw [none, List.map_nil, blocks_nil]
      rfl

/-- Stereo frames of 16-bit samples at the end of a buffer. -/
def stereo (offset count : Nat) (small : offset + count * 4 ≤ maxInt) : DecoderBuffer where
  buffer := ⟨fun index => .ofNat index, offset + count * 4, offset + count * 4, Nat.le_refl _, small⟩
  offset := offset
  size := count * 4
  inside := Nat.le_refl _
  channelCount := 2
  pcmEncoding := 2

/-- Fifty frames at twice the target rate, in two buffers: the blocks of 32 and
18 samples cross the buffers and are halved. -/
theorem decode_calls_two_buffers :
    ∃ emitter finished, create 32000 1 = .ok emitter ∧
      emitter.decode .rational 200
        [.raw (stereo 0 40 (by decide)), .codec (some (stereo 8 10 (by decide)))] =
          .ok (finished, ⟨25, 16000, 2⟩) ∧
      finished.calls.map (fun call => (call.startSample, call.finalChunk)) =
        [(0, false), (16, true)] := by
  let outputs : List Output :=
    [.raw (stereo 0 40 (by decide)), .codec (some (stereo 8 10 (by decide)))]
  obtain ⟨emitter, new⟩ : ∃ emitter, create 32000 1 = .ok emitter := ⟨_, rfl⟩
  have window : emitter.sourceSamplesPerChunk = 32 := by
    injection new with same
    rw [← same]
    rfl
  obtain ⟨frames, cut⟩ : ∃ frames, outputs.flatMap Output.frames = frames := ⟨_, rfl⟩
  obtain ⟨monos, mixed⟩ : ∃ monos, frames.map Frame.mono = monos := ⟨_, rfl⟩
  have count : monos.length = 50 := by
    rw [← mixed, ← cut]
    rfl
  have first : (monos.take 32).length = 32 := by
    rw [List.length_take, count]
    rfl
  have second : (monos.drop 32).length = 18 := by rw [List.length_drop, count]
  have inBlocks : blocks emitter.sourceSamplesPerChunk (frames.map Frame.mono) =
      [monos.take 32, monos.drop 32] := by
    rw [window, mixed]
    conv => lhs; rw [← List.take_append_drop 32 monos]
    rw [blocks_append (by decide) first,
      blocks_short (List.ne_nil_of_length_pos (by omega)) (by omega)]
  have fed : ∀ output ∈ outputs, output.Every (Fed 200) := by
    have supported : ∀ offset count (small : offset + count * 4 ≤ maxInt),
        offset + count * 4 + 4 ≤ maxInt → count * 4 < 200 → Fed 200 (stereo offset count small) :=
      fun offset count small range few => ⟨⟨.pcm16, ⟨show (0 : Int) < 2 by decide, rfl⟩, range⟩, few⟩
    intro output member
    cases List.mem_cons.mp member with
    | inl one =>
      rw [one]
      exact supported 0 40 (by decide) (by decide) (by decide)
    | inr other =>
      rw [List.mem_singleton.mp other]
      exact supported 8 10 (by decide) (by decide) (by decide)
  have halves : resampledLength .rational (32 : Nat) 32000
        (WhisperTranscriptionWorker.defaultSampleRate : Nat) = .ok (16 : Nat) ∧
      resampledLength .rational (18 : Nat) 32000
        (WhisperTranscriptionWorker.defaultSampleRate : Nat) = .ok (9 : Nat) := by
    decide +kernel
  have room : ∀ block ∈ blocks emitter.sourceSamplesPerChunk (frames.map Frame.mono),
      RoomFor .rational 32000 block.length := by
    intro one member outputLength computed
    rw [inBlocks] at member
    have half : outputLength = 16 ∨ outputLength = 9 := by
      rcases List.mem_cons.mp member with rfl | last
      · rw [first, halves.1] at computed
        exact .inl (Except.ok.inj computed).symm
      · rw [List.mem_singleton.mp last, second, halves.2] at computed
        exact .inr (Except.ok.inj computed).symm
    have large : (16 : Int) ≤ ((maxInt / 2 : Nat) : Int) := by decide
    omega
  have rated : ∀ count : Nat, Rated .rational 32000
      (WhisperTranscriptionWorker.defaultSampleRate : Nat) count :=
    fun count => ⟨by decide, by decide, fun same => absurd same (by decide)⟩
  obtain ⟨finished, done, calls, -⟩ := decode_calls new cut fed room rfl
  rw [inBlocks] at done calls
  have short : (resampleBlock .rational 32000
      (WhisperTranscriptionWorker.defaultSampleRate : Nat) (monos.take 32)).length = 16 :=
    length_resampleBlock (rated _) (by rw [first, halves.1])
  have shorter : (resampleBlock .rational 32000
      (WhisperTranscriptionWorker.defaultSampleRate : Nat) (monos.drop 32)).length = 9 :=
    length_resampleBlock (rated _) (by rw [second, halves.2])
  refine ⟨emitter, finished, new, ?_, ?_⟩
  · rw [done, calls]
    simp only [List.map_cons, List.map_nil, totalLength, List.flatten_cons, List.flatten_nil,
      List.length_append, short, shorter]
    rfl
  · rw [calls]
    simp only [List.map_cons, List.map_nil, chunkCalls, short]
    rfl

private theorem preparePendingChunk_refused {emitter : WhisperPcmChunkEmitter} {double : Rounding}
    {length : Int} (unspared : emitter.spareOutput = none)
    (computed : resampledLength double emitter.sourceSamples.size emitter.sourceSampleRate
      emitter.targetSampleRate = .ok length) (large : ((maxInt / 2 : Nat) : Int) < length) :
    emitter.preparePendingChunk double =
      .error (.illegalArgument s!"invalid PCM16 sample capacity: {length}") := by
  have capacity : max 1 length = length := by
    have : (0 : Int) ≤ ((maxInt / 2 : Nat) : Int) := Int.natCast_nonneg _
    omega
  have refused : emitter.chooseOutput length =
      .error (.illegalArgument s!"invalid PCM16 sample capacity: {length}") := by
    unfold chooseOutput
    rw [unspared]
    show DirectPcm16Buffer.create emitter.storages (max 1 length) = _
    unfold DirectPcm16Buffer.create newSamples
    rw [capacity, if_pos (.inr large)]
    rfl
  unfold preparePendingChunk
  rw [computed]
  show (emitter.chooseOutput length >>= _) = _
  rw [refused]
  rfl

/-- At the end of a buffer that reaches the last `int` positions the loop goes
on without consuming anything. -/
theorem appendFrom_stuck (double : Rounding) {buffer : ByteBuffer} {encoding : PcmEncoding}
    {channelCount pcmEncoding : Int} (encoded : PcmEncoding.of pcmEncoding = .ok encoding)
    (channels : 0 < channelCount) {bytesPerFrame : Nat}
    (perFrame : (bytesPerFrame : Int) = encoding.bytesPerSample * channelCount)
    (frameBytes : 0 < bytesPerFrame) (bounded : bytesPerFrame ≤ maxInt) {byteEnd : Nat}
    (inside : byteEnd ≤ buffer.limit) (overflows : maxInt < byteEnd + bytesPerFrame) (fuel : Nat)
    {emitter : WhisperPcmChunkEmitter} {rest : List Int16}
    (stores : emitter.sourceSamples.Stores rest)
    (short : rest.length < emitter.sourceSamplesPerChunk) :
    appendFrom double buffer channelCount pcmEncoding bytesPerFrame byteEnd fuel byteEnd emitter =
      .error .running := by
  induction fuel generalizing emitter with
  | zero => rfl
  | succ fuel ih =>
    have within := buffer.inside
    have small := buffer.small
    obtain ⟨sourceSamples, mixed, still⟩ :=
      appendMonoPcm16_ok buffer encoded channels perFrame frameBytes bounded
        (show byteEnd + 0 * bytesPerFrame ≤ buffer.limit by omega) stores
    rw [framesFrom, List.map_nil, List.append_nil] at still
    have unchanged : ({ emitter with sourceSamples := sourceSamples } :
        WhisperPcmChunkEmitter).prepareFull double =
          .ok { emitter with sourceSamples := sourceSamples } := by
      unfold prepareFull
      rw [if_neg (by
        show sourceSamples.size ≠ emitter.sourceSamplesPerChunk
        rw [still.size]
        omega)]
    have again : appendFrom double buffer channelCount pcmEncoding bytesPerFrame byteEnd fuel
        byteEnd { emitter with sourceSamples := sourceSamples } = .error .running :=
      ih still short
    have nonzero : ¬ (bytesPerFrame : Int) = 0 := by omega
    have frames : min (((byteEnd : Int) - byteEnd).tdiv bytesPerFrame)
        ((emitter.sourceSamplesPerChunk : Int) - emitter.sourceSamples.size) = 0 := by
      rw [Int.sub_self, Int.zero_tdiv, stores.size]
      omega
    unfold appendFrom
    rw [if_neg (javaInt_wraps (by omega) overflows (by omega)), if_neg nonzero]
    simp only [frames, Int.zero_mul, javaInt_zero, Int.add_zero]
    rw [Nat.zero_mul] at mixed
    show (appendMonoPcm16 buffer byteEnd ((0 : Nat) : Int) channelCount pcmEncoding
      emitter.sourceSamples >>= _) = _
    rw [mixed]
    show (({ emitter with sourceSamples := sourceSamples } :
      WhisperPcmChunkEmitter).prepareFull double >>= _) = _
    rw [unchanged]
    show appendFrom double buffer channelCount pcmEncoding bytesPerFrame byteEnd fuel
      (javaInt byteEnd) { emitter with sourceSamples := sourceSamples } = _
    rw [javaInt_natCast (by omega)]
    exact again

theorem appendBuffer_silence (emitter : WhisperPcmChunkEmitter) (double : Rounding) (fuel : Nat)
    {offset size : Nat} (small : offset + size ≤ maxInt) :
    emitter.appendBuffer double fuel (silence offset size small) =
      appendFrom double (silence offset size small).buffer 1 2 2 ((offset + size : Nat) : Int) fuel
        offset emitter := by
  have ended : javaInt ((offset : Int) + size) = ((offset + size : Nat) : Int) := by
    rw [← Int.natCast_add]
    exact javaInt_natCast small
  show appendFrom double (silence offset size small).buffer 1 2 (javaInt (2 * 1))
    (javaInt ((offset : Int) + size)) fuel offset emitter = _
  rw [ended]
  rfl

theorem appendFrom_silence (double : Rounding) {offset size : Nat} (small : offset + size ≤ maxInt)
    {emitter : WhisperPcmChunkEmitter} (stores : emitter.sourceSamples.Stores []) {taken : Nat}
    (takenIs : taken = min (size / 2) emitter.sourceSamplesPerChunk) (some : 0 < taken)
    (fuel : Nat) :
    ∃ sourceSamples values,
      appendFrom double (silence offset size small).buffer 1 2 2 (offset + size : Nat) (fuel + 1)
          offset emitter =
        ({ emitter with sourceSamples := sourceSamples } : WhisperPcmChunkEmitter).prepareFull
          double >>= (appendFrom double (silence offset size small).buffer 1 2 2
            (offset + size : Nat) fuel ((offset + taken * 2 : Nat) : Int)) ∧
      sourceSamples.Stores values ∧ values.length = taken := by
  have encoded : PcmEncoding.of 2 = .ok .pcm16 := rfl
  have takenSmall : taken * 2 ≤ size := by omega
  obtain ⟨sourceSamples, mixed, still⟩ :=
    appendMonoPcm16_ok (silence offset size small).buffer encoded Int.zero_lt_one
      (show ((2 : Nat) : Int) = PcmEncoding.pcm16.bytesPerSample * 1 from rfl) (by decide)
      (by decide) (show offset + taken * 2 ≤ offset + size by omega) stores
  refine ⟨sourceSamples, _, ?_, still, ?_⟩
  · have next : ¬ ((offset + size : Nat) : Int) < javaInt ((offset : Int) + 2) := by
      have wide : javaInt ((offset + 2 : Nat) : Int) = ((offset + 2 : Nat) : Int) :=
        javaInt_natCast (by omega)
      rw [Int.natCast_add] at wide
      rw [show ((offset : Int) + 2) = (offset : Int) + ((2 : Nat) : Int) from rfl, wide]
      omega
    have frames : min ((((offset + size : Nat) : Int) - offset).tdiv 2)
        ((emitter.sourceSamplesPerChunk : Int) - emitter.sourceSamples.size) = (taken : Int) := by
      have gap : ((offset + size : Nat) : Int) - offset = ((size : Nat) : Int) := by omega
      rw [stores.size, gap, show (2 : Int) = ((2 : Nat) : Int) from rfl, ← Int.ofNat_tdiv,
        takenIs, List.length_nil]
      omega
    have bytes : javaInt ((taken : Int) * 2) = ((taken * 2 : Nat) : Int) :=
      javaInt_natCast (show taken * 2 ≤ maxInt by omega)
    have moved : javaInt ((offset : Int) + ((taken * 2 : Nat) : Int)) =
        ((offset + taken * 2 : Nat) : Int) := by
      rw [← Int.natCast_add]
      exact javaInt_natCast (by omega)
    conv => lhs; unfold appendFrom
    rw [if_neg next, if_neg (by decide)]
    simp only [frames, bytes, moved]
    show (appendMonoPcm16 (silence offset size small).buffer offset ((taken * 2 : Nat) : Int) 1 2
      emitter.sourceSamples >>= _) = _
    rw [mixed]
    rfl
  · rw [List.nil_append, List.length_map, length_framesFrom]

theorem decode_refused (double : Rounding) (fuel : Nat) {size : Nat} (small : 0 + size ≤ maxInt)
    {emitter : WhisperPcmChunkEmitter} (stores : emitter.sourceSamples.Stores [])
    (unspared : emitter.spareOutput = none) {taken : Nat} (takenIs : taken = size / 2)
    (window : taken = emitter.sourceSamplesPerChunk) (some : 0 < taken) {length : Int}
    (computed : resampledLength double taken emitter.sourceSampleRate emitter.targetSampleRate =
      .ok length) (large : ((maxInt / 2 : Nat) : Int) < length) :
    ∃ failure, emitter.decode double fuel [.raw (silence 0 size small)] = .error failure := by
  have appended : ∃ failure, emitter.append double fuel (.raw (silence 0 size small)) =
      .error failure := by
    show ∃ failure, emitter.appendBuffer double fuel (silence 0 size small) = .error failure
    rw [appendBuffer_silence]
    cases fuel with
    | zero => exact ⟨.running, rfl⟩
    | succ fuel =>
      obtain ⟨sourceSamples, values, round, stores, count⟩ :=
        appendFrom_silence double small stores
          (show taken = min (size / 2) emitter.sourceSamplesPerChunk by omega) some fuel
      have filled : sourceSamples.size = taken := stores.size.trans count
      rw [← filled] at computed
      have refused := preparePendingChunk_refused
        (show ({ emitter with sourceSamples := sourceSamples } :
          WhisperPcmChunkEmitter).spareOutput = none from unspared) computed large
      have full : ({ emitter with sourceSamples := sourceSamples } :
          WhisperPcmChunkEmitter).prepareFull double = _ :=
        (if_pos (filled.trans window)).trans refused
      refine ⟨.illegalArgument s!"invalid PCM16 sample capacity: {length}", round.trans ?_⟩
      rw [full]
      rfl
  obtain ⟨failure, failed⟩ := appended
  refine ⟨failure, ?_⟩
  show (emitter.append double fuel (.raw (silence 0 size small)) >>= _) >>= _ = _
  rw [failed]
  rfl

private theorem append_codec (emitter : WhisperPcmChunkEmitter) (double : Rounding) (fuel : Nat)
    {given : DecoderBuffer} (some : 0 < given.size) :
    emitter.append double fuel (.codec (.some given)) = emitter.appendBuffer double fuel given :=
  if_pos some

/-- One frame at the last `int` positions: the loop takes it and never ends. -/
theorem appendBuffer_endless (double : Rounding) (fuel : Nat) {offset : Nat}
    (small : offset + 2 ≤ maxInt) (overflows : maxInt < offset + 2 + 2)
    {emitter : WhisperPcmChunkEmitter} (stores : emitter.sourceSamples.Stores [])
    (window : 1 < emitter.sourceSamplesPerChunk) :
    emitter.appendBuffer double fuel (silence offset 2 small) = .error .running := by
  rw [appendBuffer_silence]
  cases fuel with
  | zero => rfl
  | succ fuel =>
    obtain ⟨sourceSamples, values, round, stores, length⟩ :=
      appendFrom_silence double small stores
        (show 1 = min (2 / 2) emitter.sourceSamplesPerChunk by omega) (by decide) fuel
    have size : sourceSamples.size = 1 := stores.size.trans length
    have partly : ({ emitter with sourceSamples := sourceSamples } :
        WhisperPcmChunkEmitter).prepareFull double =
          .ok { emitter with sourceSamples := sourceSamples } :=
      if_neg (by
        show sourceSamples.size ≠ emitter.sourceSamplesPerChunk
        omega)
    have encoded : PcmEncoding.of 2 = .ok .pcm16 := rfl
    have bounded : 2 ≤ maxInt := by decide
    have perFrame : ((2 : Nat) : Int) = PcmEncoding.pcm16.bytesPerSample * 1 := rfl
    have left : ({ emitter with sourceSamples := sourceSamples } :
        WhisperPcmChunkEmitter).sourceSamples.Stores values := stores
    have short : values.length < ({ emitter with sourceSamples := sourceSamples } :
        WhisperPcmChunkEmitter).sourceSamplesPerChunk := by
      rw [length]
      exact window
    have stuck := appendFrom_stuck double encoded Int.zero_lt_one perFrame Nat.zero_lt_two bounded
      (silence offset 2 small).inside overflows fuel left short
    refine round.trans ?_
    rw [partly]
    exact stuck

private theorem decode_endless (double : Rounding) (fuel : Nat) {offset : Nat}
    (small : offset + 2 ≤ maxInt) (overflows : maxInt < offset + 2 + 2)
    {emitter : WhisperPcmChunkEmitter} (stores : emitter.sourceSamples.Stores [])
    (window : 1 < emitter.sourceSamplesPerChunk) :
    emitter.decode double fuel [.codec (some (silence offset 2 small))] = .error .running := by
  have appended : emitter.append double fuel (.codec (some (silence offset 2 small))) =
      .error .running :=
    (append_codec emitter double fuel Nat.zero_lt_two).trans
      (appendBuffer_endless double fuel small overflows stores window)
  show (emitter.append double fuel (.codec (some (silence offset 2 small))) >>= _) >>= _ = _
  rw [appended]
  rfl

/-- Two emitters whose construction is accepted. At 1 Hz the output of the one
full block does not fit a direct buffer. A buffer that ends at the last `int`
positions is never left. -/
theorem decode_fails :
    (∃ emitter, create 1 67109000 = .ok emitter ∧
      (silence 0 134218 (by decide)).Decodable .pcm16 ∧
      (silence 0 134218 (by decide)).InRange .pcm16 ∧
      ∀ fuel, ∃ failure, emitter.decode .rational fuel [.raw (silence 0 134218 (by decide))] =
        .error failure) ∧
    ∃ emitter, create 16000 1000 = .ok emitter ∧
      (silence 2147483644 2 (by decide)).Decodable .pcm16 ∧
      ∀ fuel, emitter.decode .rational fuel
        [.codec (some (silence 2147483644 2 (by decide)))] = .error .running := by
  have new : DirectPcm16Builder.Stores ⟨DirectPcm16Builder.defaultChunkSamples, [], 0⟩ [] :=
    DirectPcm16Builder.Stores.create (by decide) (by decide)
  constructor
  · have small : 0 + 134218 ≤ maxInt := by decide
    have computed : resampledLength .rational 67109 1 16000 = .ok 1073744000 := by
      decide +kernel
    exact ⟨_, rfl, silence_decodable small, (show 0 + 134218 + 2 ≤ maxInt by decide),
      fun fuel => decode_refused .rational fuel small new rfl (by decide) rfl (by decide)
        computed (by decide)⟩
  · have small : 2147483644 + 2 ≤ maxInt := by decide
    exact ⟨_, rfl, silence_decodable small,
      fun fuel => decode_endless .rational fuel small (by decide) new (by decide)⟩

end WhisperPcmChunkEmitter

end LocalWhisper.Record.Pcm
