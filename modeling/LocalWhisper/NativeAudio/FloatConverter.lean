import Mathlib.Algebra.Group.Nat.Defs
import Mathlib.Data.List.Basic

/-! `pcm16_spans_to_float_vector`: two spans of PCM16 behind one another in one
vector of floats. The conversion of one sample is a parameter; the vector
instructions apply it to eight samples at a time. -/

namespace LocalWhisper.NativeAudio

variable {Sample Value : Type}

/-- `kNeonSamplesPerIteration`. -/
def kNeonSamplesPerIteration : Nat := 8

/-- `std::numeric_limits<std::size_t>::max()`. -/
def sizeMax : Nat := 2 ^ 64 - 1

/-- Eight lanes from `index` on: two stores of four floats. -/
def storeLanes (convert : Sample → Value) (input : Nat → Sample) (output : Nat → Value)
    (index : Nat) : Nat → Value :=
  fun position =>
    if index ≤ position ∧ position < index + 4 then convert (input position)
    else if index + 4 ≤ position ∧ position < index + 8 then convert (input position)
    else output position

/-- The loop over whole vector registers. -/
def convertLanes (convert : Sample → Value) (input : Nat → Sample) (count index : Nat)
    (output : Nat → Value) : Nat × (Nat → Value) :=
  if index + kNeonSamplesPerIteration ≤ count then
    convertLanes convert input count (index + kNeonSamplesPerIteration)
      (storeLanes convert input output index)
  else (index, output)
termination_by count - index
decreasing_by
  unfold kNeonSamplesPerIteration at *
  omega

def storeOne (convert : Sample → Value) (input : Nat → Sample) (output : Nat → Value)
    (index : Nat) : Nat → Value :=
  fun position => if position = index then convert (input position) else output position

/-- The loop over single samples. -/
def convertRest (convert : Sample → Value) (input : Nat → Sample) (count index : Nat)
    (output : Nat → Value) : Nat → Value :=
  if index < count then
    convertRest convert input count (index + 1) (storeOne convert input output index)
  else output
termination_by count - index

/-- `convert_pcm16_chunk`, with or without NEON. -/
def convertPcm16Chunk (neon : Bool) (convert : Sample → Value) (input : Nat → Sample)
    (output : Nat → Value) (count : Nat) : Nat → Value :=
  let started := if neon then convertLanes convert input count 0 output else (0, output)
  convertRest convert input count started.1 started.2

/-- A conversion of `count` samples to `output.data() + offset`. -/
def convertSpan (neon : Bool) (convert : Sample → Value) (span : Option (Nat → Sample))
    (count offset : Nat) (output : Nat → Value) : Nat → Value :=
  match span with
  | none => output
  | some input =>
    if count > 0 then fun position =>
      if offset ≤ position then
        convertPcm16Chunk neon convert input (fun index => output (offset + index)) count
          (position - offset)
      else output position
    else output

/-- `pcm16_spans_to_float_vector`; `none` is a null pointer and `resized` the
vector after its `resize`. -/
def pcm16SpansToFloatVector (neon : Bool) (convert : Sample → Value)
    (first : Option (Nat → Sample)) (firstCount : Nat) (second : Option (Nat → Sample))
    (secondCount : Nat) (resized : Nat → Value) : Except String (List Value) :=
  if (firstCount > 0 ∧ first.isNone) ∨ (secondCount > 0 ∧ second.isNone) then
    .error "PCM16 span pointer is null"
  else if secondCount > sizeMax - firstCount then .error "PCM16 span length overflow"
  else .ok ((List.range (firstCount + secondCount)).map
    (convertSpan neon convert second secondCount firstCount
      (convertSpan neon convert first firstCount 0 resized)))

/-- What stands in the output when the samples before `index` are converted. -/
def Converted (convert : Sample → Value) (input : Nat → Sample) (before : Nat → Value)
    (index : Nat) (output : Nat → Value) : Prop :=
  ∀ position, output position =
    if position < index then convert (input position) else before position

theorem convertRest_converted {convert : Sample → Value} {input : Nat → Sample}
    {before output : Nat → Value} {count index : Nat} (inside : index ≤ count)
    (converted : Converted convert input before index output) :
    Converted convert input before count (convertRest convert input count index output) := by
  fun_induction convertRest convert input count index output with
  | case1 index output below ih =>
    apply ih below
    intro position
    unfold storeOne
    by_cases here : position = index
    · rw [if_pos here, if_pos (by omega)]
    · rw [if_neg here, converted position]
      by_cases earlier : position < index
      · rw [if_pos earlier, if_pos (by omega)]
      · rw [if_neg earlier, if_neg (by omega)]
  | case2 index output above =>
    have same : index = count := by omega
    rw [← same]
    exact converted

private theorem convertLanes_converted {convert : Sample → Value} {input : Nat → Sample}
    {before output : Nat → Value} {count index : Nat} (inside : index ≤ count)
    (converted : Converted convert input before index output) :
    (convertLanes convert input count index output).1 ≤ count ∧
      Converted convert input before (convertLanes convert input count index output).1
        (convertLanes convert input count index output).2 := by
  fun_induction convertLanes convert input count index output with
  | case1 index output room ih =>
    apply ih room
    intro position
    unfold storeLanes kNeonSamplesPerIteration
    by_cases earlier : position < index
    · rw [if_neg (by omega), if_neg (by omega), converted position, if_pos earlier,
        if_pos (by omega)]
    · rw [converted position, if_neg earlier]
      split_ifs <;> first | rfl | omega
  | case2 index output full => exact ⟨inside, converted⟩

/-- The vector loop changes nothing but the order of the stores. -/
theorem convertPcm16Chunk_converted (neon : Bool) (convert : Sample → Value)
    (input : Nat → Sample) (output : Nat → Value) (count : Nat) :
    Converted convert input output count (convertPcm16Chunk neon convert input output count) := by
  have start : Converted convert input output 0 output := fun position => rfl
  unfold convertPcm16Chunk
  cases neon with
  | false => exact convertRest_converted (Nat.zero_le _) start
  | true =>
    obtain ⟨inside, converted⟩ := convertLanes_converted (Nat.zero_le count) start
    exact convertRest_converted inside converted

theorem convertSpan_at (neon : Bool) (convert : Sample → Value) (input : Nat → Sample)
    (count offset : Nat) (output : Nat → Value) (position : Nat) :
    convertSpan neon convert (some input) count offset output position =
      if offset ≤ position ∧ position < offset + count then convert (input (position - offset))
      else output position := by
  unfold convertSpan
  by_cases some : count > 0
  · simp only [some, if_true]
    by_cases behind : offset ≤ position
    · rw [if_pos behind, convertPcm16Chunk_converted]
      by_cases inside : position < offset + count
      · rw [if_pos (by omega), if_pos ⟨behind, inside⟩]
      · rw [if_neg (by omega), if_neg (fun both => inside both.2), Nat.add_sub_cancel' behind]
    · rw [if_neg behind, if_neg (fun both => behind both.1)]
  · simp only [some, if_false]
    rw [if_neg (by omega)]

/-- The vector holds the converted samples of the first span, then those of the second. -/
theorem pcm16SpansToFloatVector_eq (neon : Bool) (convert : Sample → Value)
    (first second : Nat → Sample) {firstCount secondCount : Nat} (resized : Nat → Value)
    (room : firstCount + secondCount ≤ sizeMax) :
    pcm16SpansToFloatVector neon convert (some first) firstCount (some second) secondCount
        resized =
      .ok ((List.range firstCount).map (fun index => convert (first index)) ++
        (List.range secondCount).map fun index => convert (second index)) := by
  unfold pcm16SpansToFloatVector
  rw [if_neg (by simp), if_neg (by omega), List.range_add, List.map_append, List.map_map]
  congr 2
  · apply List.map_congr_left
    intro index member
    have inside := List.mem_range.mp member
    rw [convertSpan_at, if_neg (by omega), convertSpan_at, if_pos (by omega), Nat.sub_zero]
  · apply List.map_congr_left
    intro index member
    have inside := List.mem_range.mp member
    rw [Function.comp_apply, convertSpan_at, if_pos (by omega), Nat.add_sub_cancel_left]

end LocalWhisper.NativeAudio
