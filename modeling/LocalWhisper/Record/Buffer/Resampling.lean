import Mathlib.Algebra.Order.Field.Rat
import Mathlib.Algebra.Order.Group.MinMax
import Mathlib.Data.List.GetD
import Mathlib.Data.Rat.Cast.Defs
import Mathlib.Tactic.Linarith
import Mathlib.Tactic.FieldSimp
import LocalWhisper.Record.Buffer.Pcm16Builder

/-! `resampleInto` in exact arithmetic, after any history of the builder: where
it reads and writes, and that every output sample lies between two neighbours of
the input. -/

namespace LocalWhisper.Record.Pcm

inductive BuilderCall where
  | append (value : Int16)
  | clear
  deriving DecidableEq, Repr

namespace DirectPcm16Builder

def call (builder : DirectPcm16Builder) : BuilderCall → Except Failure DirectPcm16Builder
  | .append value => builder.append value
  | .clear => .ok builder.clear

def run (builder : DirectPcm16Builder) (calls : List BuilderCall) :
    Except Failure DirectPcm16Builder :=
  calls.foldlM call builder

end DirectPcm16Builder

/-- The samples appended since the last `clear`. -/
def samplesSince (samples : List Int16) : List BuilderCall → List Int16
  | [] => samples
  | .append value :: rest => samplesSince (samples ++ [value]) rest
  | .clear :: rest => samplesSince [] rest

/-- What `Math.round` gets for an output sample, rounded. -/
def interpolation (double : Rounding) (values : List Int16) (sourcePerTarget : Rat)
    (index : Nat) : Int :=
  let sourceIndex := double.round (index * sourcePerTarget)
  let left := min (truncate sourceIndex).toNat (values.length - 1)
  let right := min (left + 1) (values.length - 1)
  let fraction := double.round (sourceIndex - left)
  let leftValue := (values.getD left 0).toInt
  let rightValue := (values.getD right 0).toInt
  let difference := double.round (((rightValue - leftValue : Int) : Rat) * fraction)
  mathRound (double.round (leftValue + difference))

private theorem interpolatedAt_eq (double : Rounding) (values : List Int16) (sourcePerTarget : Rat)
    (index : Nat) : interpolatedAt double values sourcePerTarget index =
      clampToShort (javaInt (interpolation double values sourcePerTarget index)) := rfl

/-- The input sample at or before the position of an output sample, or the last. -/
def leftNeighbour (sourceSampleRate targetSampleRate : Int) (count index : Nat) : Nat :=
  min (((index : Rat) * ((sourceSampleRate : Rat) / targetSampleRate)).floor).toNat (count - 1)

def rightNeighbour (sourceSampleRate targetSampleRate : Int) (count index : Nat) : Nat :=
  min (leftNeighbour sourceSampleRate targetSampleRate count index + 1) (count - 1)

namespace DirectPcm16Builder

theorem Stores.run {builder : DirectPcm16Builder} {values : List Int16}
    (stores : builder.Stores values) (calls : List BuilderCall) :
    ∃ after, builder.run calls = .ok after ∧ after.Stores (samplesSince values calls) := by
  induction calls generalizing builder values with
  | nil => exact ⟨builder, rfl, stores⟩
  | cons call rest ih =>
    cases call with
    | append value =>
      obtain ⟨appended, returned, holds⟩ := stores.append value
      obtain ⟨after, ran, kept⟩ := ih holds
      refine ⟨after, ?_, kept⟩
      show (builder.append value >>= fun next => next.run rest) = _
      rw [returned]
      exact ran
    | clear => exact ih stores.clear

private theorem append_of_large {builder : DirectPcm16Builder} (none : builder.chunks = [])
    (large : maxInt / 2 < builder.chunkSamples) (value : Int16) :
    ∃ failure, builder.append value = .error failure := by
  have refused : ∃ failure, newSamples builder.chunkSamples = .error failure := by
    unfold newSamples
    rw [if_pos (by omega)]
    exact ⟨_, rfl⟩
  obtain ⟨failure, refused⟩ := refused
  refine ⟨failure, ?_⟩
  unfold DirectPcm16Builder.append DirectPcm16Builder.ensureChunk
  simp only [none, List.length_nil, Nat.not_lt_zero, if_false, refused]
  rfl

private theorem run_of_large {builder after : DirectPcm16Builder} (none : builder.chunks = [])
    (zero : builder.size = 0) (large : maxInt / 2 < builder.chunkSamples)
    {calls : List BuilderCall} (ran : builder.run calls = .ok after) :
    samplesSince [] calls = [] ∧ after = builder := by
  induction calls with
  | nil =>
    cases ran
    exact ⟨rfl, rfl⟩
  | cons call rest ih =>
    cases call with
    | append value =>
      obtain ⟨failure, refused⟩ := append_of_large none large value
      have stopped : (builder.append value >>= fun next => next.run rest) = .ok after := ran
      rw [refused] at stopped
      cases stopped
    | clear =>
      have same : builder.clear = builder := by
        cases builder
        simp_all [DirectPcm16Builder.clear]
      have continued : builder.clear.run rest = .ok after := ran
      rw [same] at continued
      exact ih continued

end DirectPcm16Builder

private theorem mathRound_between {value : Rat} {low high : Int} (above : (low : Rat) ≤ value)
    (below : value ≤ high) : low ≤ mathRound value ∧ mathRound value ≤ high := by
  constructor
  · rw [← mathRound_intCast low]
    exact Rat.floor_monotone (by linarith)
  · rw [← mathRound_intCast high]
    exact Rat.floor_monotone (by linarith)

theorem convex_above (first second : Int) {fraction : Rat} (lower : 0 ≤ fraction)
    (upper : fraction ≤ 1) :
    ((min first second : Int) : Rat) ≤ first + ((second - first : Int) : Rat) * fraction := by
  rcases le_total first second with up | down
  · have rise : (0 : Rat) ≤ ((second - first : Int) : Rat) := by exact_mod_cast Int.sub_nonneg.mpr up
    rw [min_eq_left up]
    exact le_add_of_nonneg_right (mul_nonneg rise lower)
  · have fall : ((second : Int) : Rat) ≤ first := by exact_mod_cast down
    rw [min_eq_right down]
    push_cast
    nlinarith

private theorem convex_below (first second : Int) {fraction : Rat} (lower : 0 ≤ fraction)
    (upper : fraction ≤ 1) :
    first + ((second - first : Int) : Rat) * fraction ≤ ((max first second : Int) : Rat) := by
  have mirrored := convex_above (-first) (-second) lower upper
  rw [min_neg_neg] at mirrored
  push_cast at mirrored ⊢
  linarith

private theorem clampToShort_of_range {value : Int} (low : -32768 ≤ value) (high : value ≤ 32767) :
    (clampToShort (javaInt value)).toInt = value := by
  have same : javaInt value = value := by
    unfold javaInt
    rw [Int.bmod_eq_of_le (by omega) (by omega)]
  unfold clampToShort
  rw [same, min_eq_right high, max_eq_right low, Int16.toInt_ofInt]
  exact Int.bmod_eq_of_le (by simpa using low) (by simpa using (by omega : value < 32768))

theorem toInt_range (value : Int16) : -32768 ≤ value.toInt ∧ value.toInt ≤ 32767 := by
  have low := value.le_toInt
  have high := value.toInt_lt
  omega

/-- Sign included, the value is one of the two or lies between them. -/
def Between (first second value : Int) : Prop :=
  min first second ≤ value ∧ value ≤ max first second

/-- The place of an output sample in the input: the neighbours, and the distance
from the left one, which is below 1 unless the neighbours are the same. -/
theorem position_spec {sourceSampleRate targetSampleRate : Int} (source : 0 < sourceSampleRate)
    (target : 0 < targetSampleRate) (count index : Nat) :
    let position := (index : Rat) * ((sourceSampleRate : Rat) / targetSampleRate)
    let left := leftNeighbour sourceSampleRate targetSampleRate count index
    let right := rightNeighbour sourceSampleRate targetSampleRate count index
    min (truncate position).toNat (count - 1) = left ∧
      (right = left ∨ 0 ≤ position - left ∧ position - left < 1) := by
  intro position left right
  have indexNonneg : (0 : Rat) ≤ index := by exact_mod_cast Nat.zero_le index
  have sourcePositive : (0 : Rat) < sourceSampleRate := by exact_mod_cast source
  have targetPositive : (0 : Rat) < targetSampleRate := by exact_mod_cast target
  have nonneg : 0 ≤ position :=
    mul_nonneg indexNonneg (div_nonneg (le_of_lt sourcePositive) (le_of_lt targetPositive))
  have whole : truncate position = position.floor := if_pos nonneg
  have floorNonneg : 0 ≤ position.floor := Rat.le_floor_iff.mpr nonneg
  have leftIs : left = min position.floor.toNat (count - 1) := rfl
  have rightIs : right = min (left + 1) (count - 1) := rfl
  refine ⟨by rw [whole, leftIs], ?_⟩
  by_cases inside : position.floor.toNat < count - 1
  · right
    have leftFloor : ((left : Nat) : Int) = position.floor := by omega
    have leftRat : (left : Rat) = position.floor := by exact_mod_cast leftFloor
    have lower := Rat.floor_le position
    have upper := Rat.lt_floor_add_one position
    push_cast at upper
    rw [leftRat]
    constructor <;> linarith
  · left
    omega

section Samples

variable {values : List Int16} {sourceSampleRate targetSampleRate : Int}

theorem interpolation_eq (values : List Int16) (source : 0 < sourceSampleRate)
    (target : 0 < targetSampleRate) (index : Nat) :
    let position := (index : Rat) * ((sourceSampleRate : Rat) / targetSampleRate)
    let left := leftNeighbour sourceSampleRate targetSampleRate values.length index
    let right := rightNeighbour sourceSampleRate targetSampleRate values.length index
    let leftValue := (values.getD left 0).toInt
    let rightValue := (values.getD right 0).toInt
    interpolation .rational values (sourceSampleRate / targetSampleRate) index =
      mathRound (leftValue + ((rightValue - leftValue : Int) : Rat) * (position - left)) := by
  intro position left right leftValue rightValue
  have place := (position_spec source target values.length index).1
  simp only [interpolation, Rounding.rational, id, place]
  rfl

/-- The interpolated value lies between the two samples before it is rounded, and after it. -/
theorem interpolation_between (values : List Int16) (source : 0 < sourceSampleRate)
    (target : 0 < targetSampleRate) (index : Nat) :
    Between
      (values.getD (leftNeighbour sourceSampleRate targetSampleRate values.length index) 0).toInt
      (values.getD (rightNeighbour sourceSampleRate targetSampleRate values.length index) 0).toInt
      (interpolation .rational values (sourceSampleRate / targetSampleRate) index) := by
  have computed := interpolation_eq values source target index
  obtain ⟨-, place⟩ := position_spec source target values.length index
  simp only at computed place
  rw [computed]
  rcases place with same | ⟨lower, upper⟩
  · rw [same, sub_self, Int.cast_zero, zero_mul, add_zero, mathRound_intCast]
    exact ⟨min_le_left _ _, le_max_left _ _⟩
  · exact mathRound_between (convex_above _ _ lower upper.le) (convex_below _ _ lower upper.le)

theorem interpolation_of_whole (source : 0 < sourceSampleRate) (target : 0 < targetSampleRate)
    {index place : Nat} (inside : place < values.length)
    (whole : (index : Rat) * ((sourceSampleRate : Rat) / targetSampleRate) = place) :
    interpolation .rational values (sourceSampleRate / targetSampleRate) index =
      values[place].toInt := by
  have computed := interpolation_eq values source target index
  have floor : (place : Rat).floor = place := by
    have cast : ((place : Int) : Rat).floor = place := Rat.floor_intCast place
    simpa using cast
  have left : leftNeighbour sourceSampleRate targetSampleRate values.length index = place := by
    rw [leftNeighbour, whole, floor, Int.toNat_natCast]
    omega
  simp only [whole, left, sub_self, mul_zero, add_zero, mathRound_intCast] at computed
  rw [computed, List.getD_eq_getElem _ _ inside]

theorem interpolation_of_constant (source : 0 < sourceSampleRate) (target : 0 < targetSampleRate)
    (index : Nat) {value : Int16} (constant : ∀ sample ∈ values, sample = value)
    (some : values ≠ []) :
    interpolation .rational values (sourceSampleRate / targetSampleRate) index = value.toInt := by
  have filled : 0 < values.length := List.length_pos_of_ne_nil some
  have read (place : Nat) (inside : place < values.length) : values.getD place 0 = value := by
    rw [List.getD_eq_getElem _ _ inside]
    exact constant _ (List.getElem_mem inside)
  have between := interpolation_between values source target index
  rw [read _ (by unfold leftNeighbour; omega), read _ (by unfold rightNeighbour; omega)] at between
  obtain ⟨low, high⟩ := between
  rw [min_self] at low
  rw [max_self] at high
  exact Int.le_antisymm high low

end Samples

structure Resampled (values : List Int16) (sourceSampleRate targetSampleRate : Int)
    (written : List Int16) : Prop where
  filled : written ≠ [] ↔ values ≠ []
  first : written.head? = values.head?
  between : ∀ (index : Nat) (inside : index < written.length), ∃ left right,
    values[leftNeighbour sourceSampleRate targetSampleRate values.length index]? = some left ∧
    values[rightNeighbour sourceSampleRate targetSampleRate values.length index]? = some right ∧
    Between left.toInt right.toInt written[index].toInt
  /-- also for equal rates, where the samples are copied -/
  formula : written = (List.range written.length).map
    (interpolatedAt .rational values ((sourceSampleRate : Rat) / targetSampleRate))
  unclamped : ∀ index < written.length, (interpolatedAt .rational values
      ((sourceSampleRate : Rat) / targetSampleRate) index).toInt =
    interpolation .rational values ((sourceSampleRate : Rat) / targetSampleRate) index
  constant : ∀ value, (∀ sample ∈ values, sample = value) → ∀ sample ∈ written, sample = value

section Output

variable {values : List Int16} {sourceSampleRate targetSampleRate : Int}

theorem interpolatedAt_toInt (source : 0 < sourceSampleRate) (target : 0 < targetSampleRate)
    (index : Nat) :
    (interpolatedAt .rational values ((sourceSampleRate : Rat) / targetSampleRate) index).toInt =
      interpolation .rational values ((sourceSampleRate : Rat) / targetSampleRate) index := by
  obtain ⟨low, high⟩ := interpolation_between values source target index
  have left := toInt_range
    (values.getD (leftNeighbour sourceSampleRate targetSampleRate values.length index) 0)
  have right := toInt_range
    (values.getD (rightNeighbour sourceSampleRate targetSampleRate values.length index) 0)
  rw [interpolatedAt_eq]
  exact clampToShort_of_range (by omega) (by omega)

private theorem interpolatedAt_of_same {rate : Int} (positive : 0 < rate) {index : Nat}
    (inside : index < values.length) :
    interpolatedAt .rational values ((rate : Rat) / rate) index = values[index] := by
  have nonzero : (rate : Rat) ≠ 0 := by exact_mod_cast positive.ne'
  apply Int16.toInt_inj.mp
  rw [interpolatedAt_toInt positive positive]
  exact interpolation_of_whole positive positive inside (by rw [div_self nonzero, mul_one])

private theorem interpolatedAt_zero (source : 0 < sourceSampleRate) (target : 0 < targetSampleRate)
    (filled : 0 < values.length) :
    interpolatedAt .rational values ((sourceSampleRate : Rat) / targetSampleRate) 0 =
      values[0] := by
  apply Int16.toInt_inj.mp
  rw [interpolatedAt_toInt source target]
  exact interpolation_of_whole source target filled (by rw [Nat.cast_zero, zero_mul])

/-- Without rounding equal rates keep the number of samples, whatever the rate. -/
theorem resampledLength_of_same {rate : Int} (positive : 0 < rate) {sampleCount : Nat}
    (small : sampleCount ≤ maxInt) :
    resampledLength .rational sampleCount rate rate = .ok (sampleCount : Int) := by
  have nonzero : (rate : Rat) ≠ 0 := by exact_mod_cast positive.ne'
  unfold resampledLength
  rw [if_neg (by omega)]
  split
  · next none => rw [none]
  · have divided : (((sampleCount : Int) * rate : Int) : Rat) / rate = ((sampleCount : Int) : Rat) := by
      rw [Int.cast_mul, mul_div_cancel_right₀ _ nonzero]
    simp only [Rounding.rational, id, divided, mathRound_intCast]
    rw [javaInt_natCast small, max_eq_right (by omega)]

theorem resampleBlock_eq_formula (values : List Int16) (source : 0 < sourceSampleRate)
    (small : values.length ≤ maxInt) {length : Nat}
    (computed : resampledLength .rational values.length sourceSampleRate targetSampleRate =
      .ok (length : Int)) :
    resampleBlock .rational sourceSampleRate targetSampleRate values =
      (List.range length).map
        (interpolatedAt .rational values ((sourceSampleRate : Rat) / targetSampleRate)) := by
  by_cases same : sourceSampleRate = targetSampleRate
  · subst same
    have count : values.length = length := by
      rw [resampledLength_of_same source small] at computed
      injection computed with equal
      omega
    rw [resampleBlock_of_same computed rfl]
    apply List.ext_getElem
    · simp [count]
    · intro index inside _
      rw [List.getElem_map, List.getElem_range, interpolatedAt_of_same source inside]
  · unfold resampleBlock
    rw [computed]
    exact if_neg same

theorem resampled_block (values : List Int16) (source : 0 < sourceSampleRate)
    (target : 0 < targetSampleRate) (small : values.length ≤ maxInt) {length : Nat}
    (computed : resampledLength .rational values.length sourceSampleRate targetSampleRate =
      .ok (length : Int)) :
    Resampled values sourceSampleRate targetSampleRate
      (resampleBlock .rational sourceSampleRate targetSampleRate values) := by
  have formula := resampleBlock_eq_formula values source small computed
  obtain ⟨other, again, empty⟩ := resampledLength_ok .rational values.length source target
  have same : other = length := by
    rw [computed] at again
    injection again with equal
    omega
  rw [same] at empty
  rw [formula]
  have filled : 0 < length → 0 < values.length := by
    intro some
    exact Nat.pos_of_ne_zero fun none => Nat.ne_of_gt some (empty.mpr none)
  constructor
  · simp [empty]
  · rcases Nat.eq_zero_or_pos length with none | some
    · have nothing : values = [] := List.length_eq_zero_iff.mp (empty.mp none)
      simp [none, nothing]
    · rw [List.head?_map, List.head?_range, if_neg (Nat.ne_of_gt some), Option.map_some,
        interpolatedAt_zero source target (filled some), List.head?_eq_getElem?,
        List.getElem?_eq_getElem (filled some)]
  · intro index inside
    have some := filled (by simp at inside; omega)
    have left : leftNeighbour sourceSampleRate targetSampleRate values.length index <
        values.length := by
      unfold leftNeighbour
      omega
    have right : rightNeighbour sourceSampleRate targetSampleRate values.length index <
        values.length := by
      unfold rightNeighbour
      omega
    refine ⟨_, _, List.getElem?_eq_getElem left, List.getElem?_eq_getElem right, ?_⟩
    have between := interpolation_between values source target index
    rw [List.getD_eq_getElem _ _ left, List.getD_eq_getElem _ _ right] at between
    rw [List.getElem_map, List.getElem_range, interpolatedAt_toInt source target]
    exact between
  · rw [List.length_map, List.length_range]
  · intro index _
    exact interpolatedAt_toInt source target index
  · intro value constant sample member
    obtain ⟨index, inside, rfl⟩ := List.mem_map.mp member
    have some := filled (Nat.lt_of_le_of_lt (Nat.zero_le _) (List.mem_range.mp inside))
    apply Int16.toInt_inj.mp
    rw [interpolatedAt_toInt source target]
    exact interpolation_of_constant source target index constant (List.ne_nil_of_length_pos some)

end Output

namespace DirectPcm16Builder

/-- What a conversion leaves in the storages and in the output buffer. -/
def Converts (builder : DirectPcm16Builder) (values : List Int16)
    (sourceSampleRate targetSampleRate : Int) : Prop :=
  ∃ length : Nat, resampledLength .rational builder.size sourceSampleRate targetSampleRate =
      .ok (length : Int) ∧
    ∀ (storages : Storages) (output : DirectPcm16Buffer), output.bytes < storages.count →
      length ≤ output.sampleCapacity storages →
      ∃ after written, builder.resampleInto .rational sourceSampleRate targetSampleRate
          storages output = .ok (after, ⟨output.bytes, length⟩) ∧
        written.length = length ∧
        after.get output.bytes = written ++ (storages.get output.bytes).drop length ∧
        (∀ other ≠ output.bytes, after.get other = storages.get other) ∧
        Resampled values sourceSampleRate targetSampleRate written

theorem converts_empty {builder : DirectPcm16Builder} {sourceSampleRate targetSampleRate : Int}
    (none : builder.size = 0) (source : 0 < sourceSampleRate) (target : 0 < targetSampleRate) :
    builder.Converts [] sourceSampleRate targetSampleRate := by
  have computed : resampledLength .rational (0 : Nat) sourceSampleRate targetSampleRate =
      .ok ((0 : Nat) : Int) := by
    unfold resampledLength
    rw [if_neg (by omega)]
    rfl
  have block := resampled_block [] source target (Nat.zero_le _) computed
  rw [resampleBlock_eq_formula [] source (Nat.zero_le _) computed] at block
  refine ⟨0, none ▸ computed, fun storages output _ _ => ?_⟩
  refine ⟨storages, [], ?_, rfl, rfl, fun _ _ => rfl, block⟩
  have counted : output.clear.setSampleCount storages 0 = .ok ⟨output.bytes, 0⟩ := by
    unfold DirectPcm16Buffer.setSampleCount
    rw [if_neg (by omega)]
    rfl
  unfold resampleInto
  rw [none, computed]
  simp only [bind, Except.bind, Nat.cast_zero, if_true, counted]
  rw [if_neg (by omega)]
  rfl

theorem Stores.converts {builder : DirectPcm16Builder} {values : List Int16}
    (stores : builder.Stores values) {sourceSampleRate targetSampleRate : Int}
    (small : values.length ≤ maxInt) (source : 0 < sourceSampleRate)
    (target : 0 < targetSampleRate) :
    builder.Converts values sourceSampleRate targetSampleRate := by
  by_cases some : values = []
  · subst some
    exact converts_empty stores.size source target
  · obtain ⟨length, computed, -⟩ := resampledLength_ok .rational values.length source target
    have rated : Rated .rational sourceSampleRate targetSampleRate values.length :=
      ⟨source, target, fun same => same ▸ resampledLength_of_same source small⟩
    refine ⟨length, stores.size ▸ computed, fun storages output created room => ?_⟩
    refine ⟨_, resampleBlock .rational sourceSampleRate targetSampleRate values,
      stores.resampleInto (List.length_pos_of_ne_nil some) rated computed created room,
      length_resampleBlock rated computed, ?_, ?_, resampled_block values source target small computed⟩
    · rw [storages.set_get_self _ created]
    · exact fun other different => storages.set_get_of_ne _ different

end DirectPcm16Builder

/-- Whatever the history of the builder, it holds the samples appended since the
last `clear`, of which there are to be no more than an `int` can count, and a
conversion of them reads and writes inside the storages, fills exactly the computed
length of the output, and is an interpolation of them. -/
theorem resampleInto_convex {chunkSamples : Nat} (positive : 0 < chunkSamples)
    (calls : List BuilderCall) (small : (samplesSince [] calls).length ≤ maxInt) :
    (chunkSamples ≤ maxInt / 2 →
      ∃ builder, DirectPcm16Builder.run ⟨chunkSamples, [], 0⟩ calls = .ok builder) ∧
    ∀ builder, DirectPcm16Builder.run ⟨chunkSamples, [], 0⟩ calls = .ok builder →
      builder.size = (samplesSince [] calls).length ∧
      (∀ (index : Nat) (inside : index < (samplesSince [] calls).length),
        builder.get index = .ok (samplesSince [] calls)[index]) ∧
      ∀ sourceSampleRate targetSampleRate : Int, 0 < sourceSampleRate → 0 < targetSampleRate →
        builder.Converts (samplesSince [] calls) sourceSampleRate targetSampleRate := by
  by_cases room : chunkSamples ≤ maxInt / 2
  · obtain ⟨after, ran, stores⟩ :=
      (DirectPcm16Builder.Stores.create positive room).run calls
    refine ⟨fun _ => ⟨after, ran⟩, fun builder returned => ?_⟩
    obtain rfl : after = builder := Except.ok.inj (ran.symm.trans returned)
    exact ⟨stores.size, fun index inside => stores.get inside,
      fun _ _ source target => stores.converts small source target⟩
  · refine ⟨fun small => absurd small room, fun builder returned => ?_⟩
    obtain ⟨none, rfl⟩ := DirectPcm16Builder.run_of_large rfl rfl (Nat.not_le.mp room) returned
    rw [none]
    exact ⟨rfl, fun index inside => absurd inside (Nat.not_lt_zero index),
      fun _ _ source target => DirectPcm16Builder.converts_empty rfl source target⟩

/-- Chunks of two samples are filled, cleared and filled again, and three samples
per second become two. -/
theorem resampleInto_convex_reused :
    ∃ builder, DirectPcm16Builder.run ⟨2, [], 0⟩
        [.append 1, .append 2, .append 3, .clear, .append 4, .append (-6), .append 9] = .ok builder ∧
      builder.get 1 = .ok (-6) ∧ builder.Converts [4, -6, 9] 3 2 := by
  obtain ⟨runs, holds⟩ := resampleInto_convex (Nat.succ_pos 1)
    [.append 1, .append 2, .append 3, .clear, .append 4, .append (-6), .append 9] (by decide)
  obtain ⟨builder, ran⟩ := runs (by decide)
  obtain ⟨-, read, converts⟩ := holds builder ran
  exact ⟨builder, ran, read 1 (by decide), converts 3 2 (by decide) (by decide)⟩

end LocalWhisper.Record.Pcm
