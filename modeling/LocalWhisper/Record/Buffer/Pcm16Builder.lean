import Mathlib.Algebra.Group.Nat.Defs
import LocalWhisper.Machine.Objects

/-! Decoded samples of unknown number, collected in direct chunks of fixed
length, and their conversion to another rate in a direct output buffer. -/

namespace LocalWhisper.Record.Pcm

open LocalWhisper.Machine

/-- The exceptions of the conversion, and the state of a loop that is still
running when its fuel is used up. -/
inductive Failure where
  | illegalArgument (message : String)
  | indexOutOfBounds (message : String)
  | bufferUnderflow
  | divisionByZero
  | running
  deriving DecidableEq, Repr

/-- `Integer.MAX_VALUE`. -/
def maxInt : Nat := 2147483647

/-- An `int` result: the low 32 bits in two's complement. -/
def javaInt (value : Int) : Int := value.bmod (2 ^ 32)

theorem javaInt_of_range {value : Int} (lower : 0 ≤ value) (upper : value ≤ maxInt) :
    javaInt value = value := by
  unfold javaInt
  unfold maxInt at upper
  rw [Int.bmod_eq_of_le (by omega) (by omega)]

theorem javaInt_natCast {value : Nat} (small : value ≤ maxInt) :
    javaInt (value : Int) = (value : Int) :=
  javaInt_of_range (by omega) (by omega)

@[simp] theorem javaInt_zero : javaInt 0 = 0 := rfl

/-- A sum of two positive values that overflows is not above the first one. -/
theorem javaInt_wraps {first second : Nat} (firstSmall : first ≤ maxInt)
    (overflows : maxInt < first + second) (secondSmall : second ≤ maxInt) :
    ¬ (first : Int) < javaInt ((first : Int) + second) := by
  unfold maxInt at *
  unfold javaInt Int.bmod
  dsimp only
  split <;> omega

/-- How a `double` operation rounds its exact result. Sign and the integers
that a `double` holds are kept. -/
structure Rounding where
  round : Rat → Rat
  nonneg : ∀ value, 0 ≤ value → 0 ≤ round value
  exact : ∀ value : Int, value.natAbs < 2 ^ 53 → round value = value

/-- No rounding at all. -/
def Rounding.rational : Rounding := ⟨id, fun _ bound => bound, fun _ _ => rfl⟩

/-- `Math.round(double)`. -/
def mathRound (value : Rat) : Int := (value + 1 / 2).floor

/-- The `(int)` cast of a `double`. -/
def truncate (value : Rat) : Int := if 0 ≤ value then value.floor else value.ceil

def clampToShort (value : Int) : Int16 := Int16.ofInt (max (-32768) (min 32767 value))

/-- `Pcm16AudioConverter.resampledLength`. -/
def resampledLength (double : Rounding) (sampleCount sourceSampleRate targetSampleRate : Int) :
    Except Failure Int :=
  if sampleCount < 0 ∨ sourceSampleRate ≤ 0 ∨ targetSampleRate ≤ 0 then
    .error (.illegalArgument "sample count and rates must be valid")
  else if sampleCount = 0 then .ok 0
  else
    let scaled := double.round ((sampleCount * targetSampleRate : Int) : Rat)
    .ok (max 1 (javaInt (mathRound (double.round (scaled / sourceSampleRate)))))

/-- The samples of a new `DirectPcm16Buffer`. -/
def newSamples (sampleCapacity : Int) : Except Failure (List Int16) :=
  if sampleCapacity ≤ 0 ∨ ((maxInt / 2 : Nat) : Int) < sampleCapacity then
    .error (.illegalArgument s!"invalid PCM16 sample capacity: {sampleCapacity}")
  else .ok (List.replicate sampleCapacity.toNat 0)

theorem newSamples_ok {sampleCapacity : Nat} (positive : 0 < sampleCapacity)
    (room : sampleCapacity ≤ maxInt / 2) :
    newSamples sampleCapacity = .ok (List.replicate sampleCapacity 0) := by
  unfold newSamples
  rw [if_neg (by omega)]
  rfl

/-- `ShortBuffer.put` at an index. -/
def putSample (storage : List Int16) (index : Nat) (value : Int16) :
    Except Failure (List Int16) :=
  if index < storage.length then .ok (storage.set index value)
  else .error (.indexOutOfBounds (toString index))

structure Pcm16Chunk where
  samples : List Int16
  sampleCount : Nat

structure DirectPcm16Builder where
  chunkSamples : Nat
  chunks : List Pcm16Chunk
  size : Nat

namespace DirectPcm16Builder

/-- `DEFAULT_CHUNK_SAMPLES`. -/
def defaultChunkSamples : Nat := 16000

def create (chunkSamples : Nat) : Except Failure DirectPcm16Builder :=
  if chunkSamples = 0 then .error (.illegalArgument "chunkSamples must be positive")
  else .ok ⟨chunkSamples, [], 0⟩

/-- The missing chunks up to `chunkIndex`, all of the same length. -/
def ensureChunk (builder : DirectPcm16Builder) (chunkIndex : Nat) :
    Except Failure (List Pcm16Chunk) :=
  if chunkIndex < builder.chunks.length then .ok builder.chunks
  else do
    let samples ← newSamples builder.chunkSamples
    return builder.chunks ++
      List.replicate (chunkIndex + 1 - builder.chunks.length) ⟨samples, 0⟩

def append (builder : DirectPcm16Builder) (value : Int16) : Except Failure DirectPcm16Builder := do
  let chunkIndex := builder.size / builder.chunkSamples
  let indexInChunk := builder.size % builder.chunkSamples
  let chunks ← builder.ensureChunk chunkIndex
  match chunks[chunkIndex]? with
  | none => .error (.indexOutOfBounds (toString chunkIndex))
  | some chunk =>
    let samples ← putSample chunk.samples indexInChunk value
    return { builder with
      chunks := chunks.set chunkIndex ⟨samples, indexInChunk + 1⟩
      size := builder.size + 1 }

def clear (builder : DirectPcm16Builder) : DirectPcm16Builder :=
  { builder with
    chunks := builder.chunks.map fun chunk => { chunk with sampleCount := 0 }
    size := 0 }

/-- What the short views hold at a position, written or not. -/
def view (builder : DirectPcm16Builder) (index : Nat) : Option Int16 :=
  (builder.chunks[index / builder.chunkSamples]?).bind
    fun chunk => chunk.samples[index % builder.chunkSamples]?

def get (builder : DirectPcm16Builder) (index : Int) : Except Failure Int16 :=
  if index < 0 ∨ (builder.size : Int) ≤ index then
    .error (.indexOutOfBounds s!"PCM index: {index}")
  else
    match builder.view index.toNat with
    | none => .error (.indexOutOfBounds (toString index))
    | some value => .ok value

/-- One output sample of the linear interpolation. -/
def interpolated (builder : DirectPcm16Builder) (double : Rounding) (sourcePerTarget : Rat)
    (index : Nat) : Except Failure Int16 := do
  let sourceIndex := double.round (index * sourcePerTarget)
  let left := min (truncate sourceIndex) (builder.size - 1)
  let right := min (left + 1) (builder.size - 1)
  let fraction := double.round (sourceIndex - left)
  let leftValue ← builder.get left
  let rightValue ← builder.get right
  let difference := double.round (((rightValue.toInt - leftValue.toInt : Int) : Rat) * fraction)
  return clampToShort (javaInt (mathRound (double.round (leftValue.toInt + difference))))

end DirectPcm16Builder

/-- The direct storages, by the order of their allocation. -/
abbrev Storages := Objects (List Int16) (· = [])

def Storages.empty : Storages := Objects.empty [] rfl

/-- A wrapper around a direct storage, with the number of valid samples. -/
structure DirectPcm16Buffer where
  bytes : Nat
  sampleCount : Nat
  deriving DecidableEq, Repr

namespace DirectPcm16Buffer

def create (storages : Storages) (sampleCapacity : Int) :
    Except Failure (Storages × DirectPcm16Buffer) := do
  let samples ← newSamples sampleCapacity
  return (storages.create samples, ⟨storages.count, 0⟩)

/-- Storage that exists already under a new wrapper. -/
def wrap (storages : Storages) (bytes : Nat) : Except Failure DirectPcm16Buffer :=
  if (storages.get bytes).length = 0 then
    .error (.illegalArgument "invalid Direct PCM16 storage")
  else .ok ⟨bytes, 0⟩

def sampleCapacity (storages : Storages) (buffer : DirectPcm16Buffer) : Nat :=
  (storages.get buffer.bytes).length

def setSampleCount (storages : Storages) (buffer : DirectPcm16Buffer) (value : Int) :
    Except Failure DirectPcm16Buffer :=
  if value < 0 ∨ (buffer.sampleCapacity storages : Int) < value then
    .error (.illegalArgument "sampleCount is outside buffer")
  else .ok { buffer with sampleCount := value.toNat }

def clear (buffer : DirectPcm16Buffer) : DirectPcm16Buffer := { buffer with sampleCount := 0 }

end DirectPcm16Buffer

/-- `outputSamples.put(index, sample(index))`, `remaining` times from `index` on. -/
def putSamples (sample : Nat → Except Failure Int16) :
    Nat → Nat → List Int16 → Except Failure (List Int16)
  | 0, _, storage => .ok storage
  | remaining + 1, index, storage => do
    let value ← sample index
    let storage ← putSample storage index value
    putSamples sample remaining (index + 1) storage

/-- The two loops of `resampleInto`. Equal rates copy all samples. -/
def DirectPcm16Builder.writeResampled (builder : DirectPcm16Builder) (double : Rounding)
    (sourceSampleRate targetSampleRate : Int) (outputLength : Nat) (storage : List Int16) :
    Except Failure (List Int16) :=
  if sourceSampleRate = targetSampleRate then
    putSamples (fun index => builder.get index) builder.size 0 storage
  else
    let sourcePerTarget := double.round ((sourceSampleRate : Rat) / targetSampleRate)
    putSamples (builder.interpolated double sourcePerTarget) outputLength 0 storage

/-- The content of the builder at the target rate, written over the start of
the output storage. -/
def DirectPcm16Builder.resampleInto (builder : DirectPcm16Builder) (double : Rounding)
    (sourceSampleRate targetSampleRate : Int) (storages : Storages)
    (output : DirectPcm16Buffer) : Except Failure (Storages × DirectPcm16Buffer) := do
  let outputLength ← resampledLength double builder.size sourceSampleRate targetSampleRate
  if (output.sampleCapacity storages : Int) < outputLength then
    .error (.illegalArgument "resampled PCM exceeds output capacity")
  else if outputLength = 0 then
    return (storages, ← output.clear.setSampleCount storages 0)
  else do
    let written ← builder.writeResampled double sourceSampleRate targetSampleRate
      outputLength.toNat (storages.get output.bytes)
    let storages := storages.set output.bytes written
    return (storages, ← output.clear.setSampleCount storages outputLength)

@[simp] theorem mathRound_intCast (value : Int) : mathRound value = value := by
  have half : ((1 : Rat) / 2).floor = 0 := by decide +kernel
  unfold mathRound
  rw [Rat.add_comm, Rat.floor_add_intCast, half, Int.zero_add]

/-- Equal rates keep the number of samples. -/
theorem resampledLength_same (double : Rounding) {sampleCount rate : Nat}
    (rated : 0 < rate) (small : sampleCount ≤ maxInt) (exact : sampleCount * rate < 2 ^ 53) :
    resampledLength double sampleCount rate rate = .ok (sampleCount : Int) := by
  unfold resampledLength
  rw [if_neg (by omega)]
  split
  · rename_i none
    rw [none]
  · rename_i some
    have rateNonzero : ((rate : Int) : Rat) ≠ 0 := by
      rw [Ne, Rat.intCast_eq_zero_iff]
      omega
    have scaled : double.round (((sampleCount : Int) * rate : Int) : Rat) =
        ((sampleCount : Int) * rate : Int) := by
      apply double.exact
      rw [← Int.natCast_mul]
      exact exact
    have divided : (((sampleCount : Int) * rate : Int) : Rat) / ((rate : Int) : Rat) =
        ((sampleCount : Int) : Rat) := by
      rw [Rat.intCast_mul, Rat.mul_div_cancel rateNonzero]
    have kept : double.round ((sampleCount : Int) : Rat) = ((sampleCount : Int) : Rat) :=
      double.exact sampleCount (by unfold maxInt at small; omega)
    simp only [scaled, divided, kept, mathRound_intCast]
    rw [javaInt_of_range (by omega) (by omega), Int.max_eq_right (by omega)]

/-- There is output exactly where there is input. -/
theorem resampledLength_ok (double : Rounding) (sampleCount : Nat)
    {sourceSampleRate targetSampleRate : Int} (source : 0 < sourceSampleRate)
    (target : 0 < targetSampleRate) :
    ∃ length : Nat,
      resampledLength double sampleCount sourceSampleRate targetSampleRate = .ok (length : Int) ∧
        (length = 0 ↔ sampleCount = 0) := by
  unfold resampledLength
  rw [if_neg (by omega)]
  split
  · rename_i none
    exact ⟨0, rfl, by omega⟩
  · rename_i some
    let rounded := javaInt (mathRound (double.round
      (double.round (((sampleCount : Int) * targetSampleRate : Int) : Rat) / sourceSampleRate)))
    refine ⟨(max 1 rounded).toNat, ?_, by omega⟩
    rw [Int.toNat_of_nonneg (by omega)]

namespace DirectPcm16Builder

/-- The builder holds these samples, in chunks that can be allocated. -/
structure Stores (builder : DirectPcm16Builder) (values : List Int16) : Prop where
  size : builder.size = values.length
  positive : 0 < builder.chunkSamples
  room : builder.chunkSamples ≤ maxInt / 2
  full : ∀ chunk ∈ builder.chunks, chunk.samples.length = builder.chunkSamples
  view : ∀ index, index < values.length → builder.view index = values[index]?

theorem Stores.create {chunkSamples : Nat} (positive : 0 < chunkSamples)
    (room : chunkSamples ≤ maxInt / 2) : Stores ⟨chunkSamples, [], 0⟩ [] :=
  ⟨rfl, positive, room, nofun, nofun⟩

theorem Stores.get {builder : DirectPcm16Builder} {values : List Int16}
    (stores : builder.Stores values) {index : Nat} (inside : index < values.length) :
    builder.get index = .ok values[index] := by
  have held : builder.view index = some values[index] := by
    rw [stores.view index inside, List.getElem?_eq_getElem inside]
  have size := stores.size
  unfold DirectPcm16Builder.get
  rw [if_neg (by omega), Int.toNat_natCast, held]

theorem Stores.clear {builder : DirectPcm16Builder} {values : List Int16}
    (stores : builder.Stores values) : builder.clear.Stores [] := by
  refine ⟨rfl, stores.positive, stores.room, ?_, nofun⟩
  intro chunk member
  obtain ⟨used, listed, cleared⟩ := List.mem_map.mp member
  rw [← cleared]
  exact stores.full used listed

/-- After `ensureChunk` the chunk is there, all chunks have the one length, and
those that were there are unchanged. -/
theorem Stores.ensureChunk {builder : DirectPcm16Builder} {values : List Int16}
    (stores : builder.Stores values) (chunkIndex : Nat) :
    ∃ chunks : List Pcm16Chunk,
      builder.ensureChunk chunkIndex = .ok chunks ∧ chunkIndex < chunks.length ∧
      (∀ chunk ∈ chunks, chunk.samples.length = builder.chunkSamples) ∧
      ∀ (index : Nat) (chunk : Pcm16Chunk),
        builder.chunks[index]? = some chunk → chunks[index]? = some chunk := by
  unfold DirectPcm16Builder.ensureChunk
  split
  · rename_i present
    exact ⟨builder.chunks, rfl, present, stores.full, fun _ _ found => found⟩
  · rename_i missing
    rw [newSamples_ok stores.positive stores.room]
    refine ⟨_, rfl, ?_, ?_, ?_⟩
    · rw [List.length_append, List.length_replicate]
      omega
    · intro chunk member
      cases List.mem_append.mp member with
      | inl old => exact stores.full chunk old
      | inr new =>
        rw [List.eq_of_mem_replicate new]
        exact List.length_replicate
    · intro index chunk found
      have inside : index < builder.chunks.length := by
        apply Nat.lt_of_not_le
        intro beyond
        rw [List.getElem?_eq_none beyond] at found
        cases found
      rw [List.getElem?_append_left inside]
      exact found

theorem Stores.append {builder : DirectPcm16Builder} {values : List Int16}
    (stores : builder.Stores values) (value : Int16) :
    ∃ appended, builder.append value = .ok appended ∧ appended.Stores (values ++ [value]) := by
  obtain ⟨chunks, ensured, present, full, kept⟩ :=
    stores.ensureChunk (builder.size / builder.chunkSamples)
  have within : builder.size % builder.chunkSamples < builder.chunkSamples :=
    Nat.mod_lt _ stores.positive
  let chunkIndex := builder.size / builder.chunkSamples
  let indexInChunk := builder.size % builder.chunkSamples
  let chunk := chunks[chunkIndex]
  have found : chunks[chunkIndex]? = some chunk := List.getElem?_eq_getElem present
  have length : chunk.samples.length = builder.chunkSamples := full chunk (List.getElem_mem present)
  have put : putSample chunk.samples indexInChunk value =
      .ok (chunk.samples.set indexInChunk value) := by
    unfold putSample
    rw [if_pos (by rw [length]; exact within)]
  let appended : DirectPcm16Builder := { builder with
    chunks := chunks.set chunkIndex ⟨chunk.samples.set indexInChunk value, indexInChunk + 1⟩
    size := builder.size + 1 }
  refine ⟨appended, ?_, ?_, stores.positive, stores.room, ?_, ?_⟩
  · simp only [DirectPcm16Builder.append, ensured]
    show (match chunks[chunkIndex]? with | none => _ | some chunk => _) = _
    rw [found]
    show (putSample chunk.samples indexInChunk value >>= _) = _
    rw [put]
    rfl
  · show builder.size + 1 = (values ++ [value]).length
    rw [stores.size, List.length_append]
    rfl
  · intro other member
    cases List.mem_or_eq_of_mem_set member with
    | inl old => exact full other old
    | inr new =>
      rw [new]
      show (chunk.samples.set indexInChunk value).length = builder.chunkSamples
      rw [List.length_set]
      exact length
  · intro index inside
    have bound : index < values.length + 1 := by
      rw [List.length_append] at inside
      exact inside
    by_cases last : index = values.length
    · have here : index = builder.size := last.trans stores.size.symm
      show ((chunks.set chunkIndex _)[index / builder.chunkSamples]?).bind _ = _
      rw [here, List.getElem?_set_self present, Option.bind_some,
        List.getElem?_set_self (by rw [length]; exact within), stores.size,
        List.getElem?_append_right (Nat.le_refl _), Nat.sub_self]
      rfl
    · have earlier : index < values.length := by omega
      have held := stores.view index earlier
      rw [List.getElem?_append_left earlier, ← held]
      rw [List.getElem?_eq_getElem earlier] at held
      obtain ⟨old, chunkFound, sampleFound⟩ := Option.bind_eq_some_iff.mp held
      have still := kept _ old chunkFound
      show ((chunks.set chunkIndex _)[index / builder.chunkSamples]?).bind _ = _
      unfold DirectPcm16Builder.view
      rw [chunkFound]
      by_cases same : index / builder.chunkSamples = chunkIndex
      · -- In the chunk that is written, the position is another one.
        have position : index % builder.chunkSamples ≠ indexInChunk := by
          intro equal
          have left := Nat.div_add_mod index builder.chunkSamples
          have right : builder.chunkSamples * chunkIndex + indexInChunk = builder.size :=
            Nat.div_add_mod builder.size builder.chunkSamples
          have size := stores.size
          rw [same, equal] at left
          omega
        rw [same] at still
        have chunkSame : chunk = old := Option.some.inj (found.symm.trans still)
        rw [same, List.getElem?_set_self present, Option.bind_some, Option.bind_some,
          List.getElem?_set_ne (Ne.symm position), chunkSame]
      · rw [List.getElem?_set_ne (Ne.symm same), still]

end DirectPcm16Builder

/-- The interpolated sample of a block, between two of its samples. -/
def interpolatedAt (double : Rounding) (values : List Int16) (sourcePerTarget : Rat)
    (index : Nat) : Int16 :=
  let sourceIndex := double.round (index * sourcePerTarget)
  let left := min (truncate sourceIndex).toNat (values.length - 1)
  let right := min (left + 1) (values.length - 1)
  let fraction := double.round (sourceIndex - left)
  let leftValue := (values.getD left 0).toInt
  let rightValue := (values.getD right 0).toInt
  let difference := double.round (((rightValue - leftValue : Int) : Rat) * fraction)
  clampToShort (javaInt (mathRound (double.round (leftValue + difference))))

/-- A block of samples on its own at the target rate. -/
def resampleBlock (double : Rounding) (sourceSampleRate targetSampleRate : Int)
    (values : List Int16) : List Int16 :=
  match resampledLength double values.length sourceSampleRate targetSampleRate with
  | .error _ => []
  | .ok outputLength =>
    if sourceSampleRate = targetSampleRate then values
    else
      (List.range outputLength.toNat).map
        (interpolatedAt double values
          (double.round ((sourceSampleRate : Rat) / targetSampleRate)))

private theorem truncate_nonneg {value : Rat} (nonneg : 0 ≤ value) : 0 ≤ truncate value := by
  unfold truncate
  rw [if_pos nonneg, Rat.le_floor_iff]
  exact nonneg

theorem DirectPcm16Builder.Stores.interpolated {builder : DirectPcm16Builder}
    {values : List Int16} (stores : builder.Stores values) (some : 0 < values.length)
    (double : Rounding) {sourcePerTarget : Rat} (nonneg : 0 ≤ sourcePerTarget) (index : Nat) :
    builder.interpolated double sourcePerTarget index =
      .ok (interpolatedAt double values sourcePerTarget index) := by
  let sourceIndex := double.round (index * sourcePerTarget)
  let left := min (truncate sourceIndex).toNat (values.length - 1)
  let right := min (left + 1) (values.length - 1)
  have indexNonneg : (0 : Rat) ≤ (index : Rat) := by
    exact_mod_cast Nat.zero_le index
  have positionNonneg : 0 ≤ truncate sourceIndex :=
    truncate_nonneg (double.nonneg _ (Rat.mul_nonneg indexNonneg nonneg))
  have size := stores.size
  have leftIs : min (truncate sourceIndex) ((builder.size : Int) - 1) = (left : Int) := by
    omega
  have rightIs : min ((left : Int) + 1) ((builder.size : Int) - 1) = (right : Int) := by
    omega
  have leftInside : left < values.length := by omega
  have rightInside : right < values.length := by omega
  have leftRead : builder.get (left : Int) = .ok (values.getD left 0) := by
    rw [stores.get leftInside, List.getD_eq_getElem?_getD, List.getElem?_eq_getElem leftInside]
    rfl
  have rightRead : builder.get (right : Int) = .ok (values.getD right 0) := by
    rw [stores.get rightInside, List.getD_eq_getElem?_getD, List.getElem?_eq_getElem rightInside]
    rfl
  show (builder.get (min (truncate sourceIndex) ((builder.size : Int) - 1)) >>= _) = _
  rw [leftIs, leftRead]
  show (builder.get (min ((left : Int) + 1) ((builder.size : Int) - 1)) >>= _) = _
  rw [rightIs, rightRead]
  rfl

private theorem putSamples_ok {sample : Nat → Except Failure Int16} (values : List Int16)
    (index : Nat) (storage : List Int16)
    (read : ∀ (step : Nat) (inside : step < values.length),
      sample (index + step) = .ok values[step])
    (room : index + values.length ≤ storage.length) :
    putSamples sample values.length index storage =
      .ok (storage.take index ++ values ++ storage.drop (index + values.length)) := by
  induction values generalizing index storage with
  | nil =>
    show (.ok storage : Except Failure (List Int16)) = _
    simp
  | cons value rest ih =>
    simp only [List.length_cons] at room
    have here : sample index = .ok value := read 0 (by simp)
    have written : putSample storage index value = .ok (storage.set index value) := by
      unfold putSample
      rw [if_pos (by omega)]
    have later : ∀ (step : Nat) (inside : step < rest.length),
        sample (index + 1 + step) = .ok rest[step] := by
      intro step inside
      have shifted := read (step + 1) (by simp only [List.length_cons]; omega)
      rw [Nat.add_assoc, Nat.add_comm 1 step]
      exact shifted
    have fits : index + 1 + rest.length ≤ (storage.set index value).length := by
      rw [List.length_set]
      omega
    have front : (storage.set index value).take (index + 1) = storage.take index ++ [value] := by
      rw [List.take_succ_eq_append_getElem (by rw [List.length_set]; omega),
        List.take_set_of_le (Nat.le_refl _), List.getElem_set_self]
    have back : (storage.set index value).drop (index + 1 + rest.length) =
        storage.drop (index + (rest.length + 1)) := by
      rw [List.drop_set_of_lt (by omega)]
      congr 1
      omega
    show (sample index >>= _) = _
    rw [here]
    show (putSample storage index value >>= _) = _
    rw [written]
    show putSamples sample rest.length (index + 1) (storage.set index value) = _
    rw [ih (index + 1) (storage.set index value) later fits, front, back]
    simp

/-- The two rates of one conversion. At equal rates the computed length is the
number of samples. -/
structure Rated (double : Rounding) (sourceSampleRate targetSampleRate : Int)
    (sampleCount : Nat) : Prop where
  source : 0 < sourceSampleRate
  target : 0 < targetSampleRate
  same : sourceSampleRate = targetSampleRate →
    resampledLength double sampleCount sourceSampleRate targetSampleRate =
      .ok (sampleCount : Int)

theorem length_resampleBlock {double : Rounding} {sourceSampleRate targetSampleRate : Int}
    {values : List Int16} (rated : Rated double sourceSampleRate targetSampleRate values.length)
    {length : Nat}
    (computed : resampledLength double values.length sourceSampleRate targetSampleRate =
      .ok (length : Int)) :
    (resampleBlock double sourceSampleRate targetSampleRate values).length = length := by
  unfold resampleBlock
  rw [computed]
  by_cases same : sourceSampleRate = targetSampleRate
  · have kept := rated.same same
    rw [computed] at kept
    injection kept with equal
    simp only [if_pos same]
    omega
  · simp only [if_neg same, List.length_map, List.length_range, Int.toNat_natCast]

theorem resampleBlock_of_same {double : Rounding} {sourceSampleRate targetSampleRate : Int}
    {values : List Int16} {outputLength : Int}
    (computed : resampledLength double values.length sourceSampleRate targetSampleRate =
      .ok outputLength) (same : sourceSampleRate = targetSampleRate) :
    resampleBlock double sourceSampleRate targetSampleRate values = values := by
  unfold resampleBlock
  rw [computed]
  exact if_pos same

theorem DirectPcm16Builder.Stores.writeResampled {builder : DirectPcm16Builder}
    {values : List Int16} (stores : builder.Stores values) (some : 0 < values.length)
    {double : Rounding} {sourceSampleRate targetSampleRate : Int}
    (rated : Rated double sourceSampleRate targetSampleRate values.length) {length : Nat}
    (computed : resampledLength double values.length sourceSampleRate targetSampleRate =
      .ok (length : Int))
    {storage : List Int16} (room : length ≤ storage.length) :
    builder.writeResampled double sourceSampleRate targetSampleRate length storage =
      .ok (resampleBlock double sourceSampleRate targetSampleRate values ++
        storage.drop length) := by
  let block := resampleBlock double sourceSampleRate targetSampleRate values
  have blockLength : block.length = length := length_resampleBlock rated computed
  have put : ∀ sample : Nat → Except Failure Int16,
      (∀ (step : Nat) (inside : step < block.length), sample (0 + step) = .ok block[step]) →
      putSamples sample length 0 storage = .ok (block ++ storage.drop length) := by
    intro sample read
    have all := putSamples_ok block 0 storage read (by omega)
    rw [List.take_zero, List.nil_append, Nat.zero_add, blockLength] at all
    exact all
  unfold DirectPcm16Builder.writeResampled
  by_cases same : sourceSampleRate = targetSampleRate
  · have blockIs : block = values := resampleBlock_of_same computed same
    have count : builder.size = length := by rw [stores.size, ← blockIs, blockLength]
    rw [if_pos same, count]
    apply put
    intro step inside
    have within : step < values.length := by rw [← blockIs]; exact inside
    rw [Nat.zero_add, stores.get within]
    simp only [blockIs]
  · rw [if_neg same]
    apply put
    intro step inside
    have ratio : (0 : Rat) ≤ (sourceSampleRate : Rat) / targetSampleRate := by
      rw [Rat.div_def]
      have source := Rat.intCast_nonneg.mpr (Int.le_of_lt rated.source)
      have target := Rat.inv_pos.mpr (Rat.intCast_pos.mpr rated.target)
      exact Rat.mul_nonneg source (Rat.le_of_lt target)
    have blockIs : block = (List.range length).map (interpolatedAt double values
        (double.round ((sourceSampleRate : Rat) / targetSampleRate))) := by
      show resampleBlock double sourceSampleRate targetSampleRate values = _
      unfold resampleBlock
      rw [computed]
      exact if_neg same
    rw [Nat.zero_add, stores.interpolated some double (double.nonneg _ ratio)]
    simp only [blockIs, List.getElem_map, List.getElem_range]

/-- A non-empty block is written over the start of a storage with room for it. -/
theorem DirectPcm16Builder.Stores.resampleInto {builder : DirectPcm16Builder}
    {values : List Int16} (stores : builder.Stores values) (some : 0 < values.length)
    {double : Rounding} {sourceSampleRate targetSampleRate : Int}
    (rated : Rated double sourceSampleRate targetSampleRate values.length) {length : Nat}
    (computed : resampledLength double values.length sourceSampleRate targetSampleRate =
      .ok (length : Int))
    {storages : Storages} {output : DirectPcm16Buffer} (created : output.bytes < storages.count)
    (room : length ≤ output.sampleCapacity storages) :
    builder.resampleInto double sourceSampleRate targetSampleRate storages output =
      .ok (storages.set output.bytes
          (resampleBlock double sourceSampleRate targetSampleRate values ++
            (storages.get output.bytes).drop length), ⟨output.bytes, length⟩) := by
  let storage := storages.get output.bytes
  let written := resampleBlock double sourceSampleRate targetSampleRate values ++
    storage.drop length
  have capacity : length ≤ storage.length := room
  have positive : length ≠ 0 := by
    obtain ⟨other, otherComputed, empty⟩ :=
      resampledLength_ok double values.length rated.source rated.target
    rw [computed] at otherComputed
    injection otherComputed with equal
    omega
  have writtenLength : written.length = storage.length := by
    rw [List.length_append, List.length_drop, length_resampleBlock rated computed]
    omega
  have counted : output.clear.setSampleCount (storages.set output.bytes written) (length : Int) =
      .ok ⟨output.bytes, length⟩ := by
    have still : output.clear.sampleCapacity (storages.set output.bytes written) =
        storage.length := by
      show ((storages.set output.bytes written).get output.bytes).length = storage.length
      rw [storages.set_get_self _ created]
      exact writtenLength
    unfold DirectPcm16Buffer.setSampleCount
    rw [still, if_neg (by omega)]
    rfl
  unfold DirectPcm16Builder.resampleInto
  rw [stores.size, computed]
  show (if (output.sampleCapacity storages : Int) < (length : Int) then _ else _) = _
  rw [if_neg (by omega)]
  show (if (length : Int) = 0 then _ else _) = _
  rw [if_neg (by omega), Int.toNat_natCast]
  show (builder.writeResampled double sourceSampleRate targetSampleRate length storage >>= _) = _
  rw [stores.writeResampled some rated computed capacity]
  show (output.clear.setSampleCount (storages.set output.bytes written) (length : Int) >>= _) = _
  rw [counted]
  rfl

end LocalWhisper.Record.Pcm
