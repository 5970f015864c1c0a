import LocalWhisper.Machine.Lanes
import LocalWhisper.NativeAudio.FloatConverter
import Mathlib.Algebra.Field.Basic

/-! `pcm16-float-converter.cpp` with its vector instructions, in exact arithmetic:
arrays end where their spans end, and an access outside has no result. -/

namespace LocalWhisper.NativeAudio.Pcm16Lanes

open Machine

variable {Value : Type} [Field Value]

/-- `kInvPcm16Amplitude`. -/
def kInvPcm16Amplitude : Value := 1 / 32768

/-- `vmovl_s16`. -/
def vmovl {width : Nat} (register : Lanes width Int16) : Lanes width Int32 :=
  fun lane => (register lane).toInt32

/-- `vcvtq_f32_s32`. -/
def vcvt {width : Nat} (register : Lanes width Int32) : Lanes width Value :=
  fun lane => ((register lane).toInt : Value)

/-- A sample as the scalar loop converts it. -/
def sampleValue (sample : Int16) : Value := (sample.toInt : Value) * kInvPcm16Amplitude

/-- `convert_pcm16_chunk`. -/
def convertPcm16Chunk (neon : Bool) (input : List Int16) (output : List Value) (count : Nat) :
    Option (List Value) :=
  let scale : Lanes 4 Value := Lanes.dup kInvPcm16Amplitude
  vectorised neon kNeonSamplesPerIteration count
    (fun index output => do
      let pcm ← Lanes.load (4 + 4) input index
      let low := vmovl (Lanes.low pcm)
      let high := vmovl (Lanes.high pcm)
      let output ← Lanes.store output index (Lanes.mul (vcvt low) scale)
      Lanes.store output (index + 4) (Lanes.mul (vcvt high) scale))
    (fun index output => do
      let sample ← input[index]?
      writeAt output index (sampleValue sample))
    output

/-- A span that is converted to its part of the output. -/
def convertSpan (neon : Bool) (span : Option (List Int16)) (count : Nat) (output : List Value) :
    Option (List Value) :=
  if count > 0 then
    match span with
    | some input => convertPcm16Chunk neon input output count
    | none => none
  else some output

/-- `pcm16_spans_to_float_vector`. A null pointer is `none`; so is the result where
an access is outside a span. -/
def pcm16SpansToFloatVector (neon : Bool) (first : Option (List Int16)) (firstCount : Nat)
    (second : Option (List Int16)) (secondCount : Nat) (output : List Value) :
    Option (Except String (List Value)) :=
  if (firstCount > 0 ∧ first.isNone) ∨ (secondCount > 0 ∧ second.isNone) then
    some (.error "PCM16 span pointer is null")
  else if secondCount > sizeMax - firstCount then
    some (.error "PCM16 span length overflow")
  else do
    let output := resize output (firstCount + secondCount) 0
    let firstPart ← convertSpan neon first firstCount (output.take firstCount)
    let secondPart ← convertSpan neon second secondCount (output.drop firstCount)
    return .ok (firstPart ++ secondPart)

/-- Eight samples at a time or one by one, every sample is converted in its place. -/
theorem convertPcm16Chunk_filled (neon : Bool) {input : List Int16} {output : List Value}
    {count : Nat} (inputRoom : count ≤ input.length) (outputRoom : count ≤ output.length) :
    convertPcm16Chunk neon input output count =
      some (filled (fun position => sampleValue (input.getD position 0)) output count) := by
  apply vectorised_filled neon (by decide)
  · intro _ index inside
    have whole : index + (4 + 4) ≤ count := inside
    let result (position : Nat) : Value := sampleValue (input.getD position 0)
    have lowStore : Lanes.store (filled result output index) index (Lanes.mul (vcvt (vmovl
          (Lanes.low fun lane : Fin (4 + 4) => input.getD (index + lane) 0)))
        (Lanes.dup kInvPcm16Amplitude)) = some (filled result output (index + 4)) := by
      apply store_filled (by omega)
      intro lane
      simp only [Lanes.mul, vcvt, vmovl, Lanes.low, Lanes.dup, Int16.toInt_toInt32,
        Fin.val_castAdd]
      rfl
    have highStore : Lanes.store (filled result output (index + 4)) (index + 4) (Lanes.mul
        (vcvt (vmovl (Lanes.high fun lane : Fin (4 + 4) => input.getD (index + lane) 0)))
        (Lanes.dup kInvPcm16Amplitude)) = some (filled result output (index + 4 + 4)) := by
      apply store_filled (by omega)
      intro lane
      simp only [Lanes.mul, vcvt, vmovl, Lanes.high, Lanes.dup, Int16.toInt_toInt32,
        Fin.val_natAdd, ← Nat.add_assoc]
      rfl
    rw [Lanes.load_inside (by omega), Option.bind_eq_bind, Option.bind_some]
    simp only [result] at lowStore highStore
    simp only [lowStore, Option.bind_eq_bind, Option.bind_some]
    exact highStore
  · intro index inside
    have within : index < input.length := by omega
    rw [List.getElem?_eq_getElem within, Option.bind_eq_bind, Option.bind_some]
    apply writeAt_filled (by omega)
    simp [List.getD_eq_getElem?_getD, List.getElem?_eq_getElem within]

/-- Where the arrays are long enough the loops do what they do on a memory without
bounds. -/
theorem convertPcm16Chunk_unbounded (neon : Bool) (input : List Int16) {output : List Value}
    (room : output.length = input.length) :
    convertPcm16Chunk neon input output input.length =
      some ((List.range input.length).map (NativeAudio.convertPcm16Chunk neon sampleValue
        (fun index => input.getD index 0) (fun index => output.getD index 0) input.length)) := by
  rw [convertPcm16Chunk_filled neon le_rfl room.ge, filled_all room.le]
  congr 1
  apply List.map_congr_left
  intro position inside
  rw [convertPcm16Chunk_converted neon sampleValue _ _ _ position,
    if_pos (List.mem_range.mp inside)]

theorem convertPcm16Chunk_eq (neon : Bool) (input : List Int16) {output : List Value}
    (room : output.length = input.length) :
    convertPcm16Chunk neon input output input.length = some (input.map sampleValue) := by
  rw [convertPcm16Chunk_unbounded neon input room]
  congr 1
  apply List.ext_getElem
  · rw [List.length_map, List.length_range, List.length_map]
  · intro position inside _
    have within : position < input.length := by simpa using inside
    rw [List.getElem_map, List.getElem_map, List.getElem_range,
      convertPcm16Chunk_converted neon sampleValue _ _ _ position, if_pos within,
      List.getD_eq_getElem?_getD, List.getElem?_eq_getElem within]
    rfl

def samplesOf (span : Option (List Int16)) : List Int16 := span.getD []

theorem convertSpan_eq (neon : Bool) {span : Option (List Int16)} {output : List Value}
    (room : output.length = (samplesOf span).length) :
    convertSpan neon span (samplesOf span).length output =
      some ((samplesOf span).map sampleValue) := by
  unfold convertSpan
  split
  · cases span with
    | none => next some => exact absurd some (by decide)
    | some input => exact convertPcm16Chunk_eq neon input room
  · next none =>
    have empty : samplesOf span = [] := List.length_eq_zero_iff.mp (by omega)
    rw [empty] at room ⊢
    rw [List.length_eq_zero_iff.mp room]
    rfl

/-- Two spans become what their concatenation becomes. -/
theorem pcm16SpansToFloatVector_eq (neon : Bool) (first second : Option (List Int16))
    (output : List Value)
    (countable : (samplesOf second).length ≤ sizeMax - (samplesOf first).length) :
    pcm16SpansToFloatVector neon first (samplesOf first).length second (samplesOf second).length
        output = some (.ok ((samplesOf first ++ samplesOf second).map sampleValue)) := by
  have given : ¬ (((samplesOf first).length > 0 ∧ first.isNone) ∨
      ((samplesOf second).length > 0 ∧ second.isNone)) := by
    cases first <;> cases second <;> simp [samplesOf]
  unfold pcm16SpansToFloatVector
  rw [if_neg given, if_neg (by omega)]
  dsimp only
  rw [convertSpan_eq neon (by simp), Option.bind_eq_bind, Option.bind_some,
    convertSpan_eq neon (by simp), Option.bind_some, List.map_append]
  rfl

/-- Whatever the spans are, the vector instructions change nothing. -/
theorem pcm16SpansToFloatVector_neon {first second : Option (List Int16)}
    {firstCount secondCount : Nat} (firstRoom : ∀ input ∈ first, input.length = firstCount)
    (secondRoom : ∀ input ∈ second, input.length = secondCount) (output : List Value) :
    VectorsAgree fun neon =>
      pcm16SpansToFloatVector neon first firstCount second secondCount output := by
  by_cases null : (firstCount > 0 ∧ first.isNone) ∨ (secondCount > 0 ∧ second.isNone)
  · exact ⟨_, if_pos null, if_pos null⟩
  · have firstIs : firstCount = (samplesOf first).length := by
      cases first with
      | none => simpa [samplesOf] using (not_or.mp null).1
      | some input => exact (firstRoom input rfl).symm
    have secondIs : secondCount = (samplesOf second).length := by
      cases second with
      | none => simpa [samplesOf] using (not_or.mp null).2
      | some input => exact (secondRoom input rfl).symm
    by_cases overflow : secondCount > sizeMax - firstCount
    · exact ⟨_, (if_neg null).trans (if_pos overflow), (if_neg null).trans (if_pos overflow)⟩
    · subst firstIs secondIs
      have countable := Nat.le_of_not_lt overflow
      exact ⟨_, pcm16SpansToFloatVector_eq true first second output countable,
        pcm16SpansToFloatVector_eq false first second output countable⟩

end LocalWhisper.NativeAudio.Pcm16Lanes
