import LocalWhisper.CTranslate2.FeatureExtractor
import LocalWhisper.NativeAudio.Pcm16Lanes
import LocalWhisper.Machine.Tables
import Mathlib.Algebra.Order.Field.Basic
import Mathlib.Algebra.QuadraticAlgebra.Defs

/-! The loops of the feature extractor that have a vector path, in exact
arithmetic: the frames of the window, the power, the scalar product and the
normalisation. -/

namespace LocalWhisper.CTranslate2

open Machine

/-- `std::complex<float>`. -/
abbrev Complex (Value : Type) [Field Value] := QuadraticAlgebra Value (-1) 0

variable {Value : Type} [Field Value]

/-- `kFftBins`. -/
def kFftBins : Nat := 201

/-- `kNeonFloatLanes`. -/
def kNeonFloatLanes : Nat := 4

def floats (array : List (Complex Value)) : List Value :=
  (array.map fun value => [value.re, value.im]).flatten

def complexes : List Value → List (Complex Value)
  | re :: im :: rest => ⟨re, im⟩ :: complexes rest
  | _ => []

/-- `vld2q_f32` from an array of complex values. -/
def loadComplex (array : List (Complex Value)) (index : Nat) :
    Option (Lanes 4 Value × Lanes 4 Value) :=
  Lanes.loadPairs 4 (floats array) (2 * index)

/-- `vst2q_f32` to an array of complex values. -/
def storeComplex (array : List (Complex Value)) (index : Nat) (re im : Lanes 4 Value) :
    Option (List (Complex Value)) :=
  (Lanes.storePairs (floats array) (2 * index) re im).map complexes

section Floats

theorem floats_cons (value : Complex Value) (rest : List (Complex Value)) :
    floats (value :: rest) = value.re :: value.im :: floats rest := rfl

theorem floats_append (first second : List (Complex Value)) :
    floats (first ++ second) = floats first ++ floats second := by
  rw [floats, List.map_append, List.flatten_append]
  rfl

@[simp] theorem complexes_floats (array : List (Complex Value)) :
    complexes (floats array) = array := by
  induction array with
  | nil => rfl
  | cons value rest inductionHypothesis => rw [floats_cons, complexes, inductionHypothesis]

@[simp] theorem length_floats (array : List (Complex Value)) :
    (floats array).length = 2 * array.length := by
  induction array with
  | nil => rfl
  | cons value rest inductionHypothesis =>
    rw [floats_cons, List.length_cons, List.length_cons, inductionHypothesis, List.length_cons]
    omega

private theorem getD_floats (array : List (Complex Value)) (index : Nat) :
    (floats array).getD (2 * index) 0 = (array.getD index 0).re ∧
      (floats array).getD (2 * index + 1) 0 = (array.getD index 0).im := by
  induction array generalizing index with
  | nil => exact ⟨rfl, rfl⟩
  | cons value rest inductionHypothesis =>
    rw [floats_cons]
    cases index with
    | zero => exact ⟨rfl, rfl⟩
    | succ index => exact inductionHypothesis index

private theorem take_floats (array : List (Complex Value)) (count : Nat) :
    (floats array).take (2 * count) = floats (array.take count) := by
  induction array generalizing count with
  | nil => simp [floats]
  | cons value rest inductionHypothesis =>
    cases count with
    | zero => rfl
    | succ count =>
      rw [List.take_succ_cons, floats_cons, floats_cons, Nat.mul_succ, List.take_succ_cons,
        List.take_succ_cons, inductionHypothesis]

private theorem drop_floats (array : List (Complex Value)) (count : Nat) :
    (floats array).drop (2 * count) = floats (array.drop count) := by
  induction array generalizing count with
  | nil => simp [floats]
  | cons value rest inductionHypothesis =>
    cases count with
    | zero => rfl
    | succ count =>
      rw [List.drop_succ_cons, floats_cons, Nat.mul_succ, List.drop_succ_cons,
        List.drop_succ_cons, inductionHypothesis]

private theorem loadComplex_inside {array : List (Complex Value)} {index : Nat}
    (inside : index + 4 ≤ array.length) :
    loadComplex array index = some (fun lane : Fin 4 => (array.getD (index + lane) 0).re,
      fun lane : Fin 4 => (array.getD (index + lane) 0).im) := by
  have parts (lane : Fin 4) := getD_floats array (index + lane)
  rw [loadComplex, Lanes.loadPairs, if_pos (by rw [length_floats]; omega)]
  congr 2
  · funext lane
    rw [← Nat.mul_add]
    exact (parts lane).1
  · funext lane
    rw [← Nat.mul_add]
    exact (parts lane).2

theorem storeComplex_eq (array : List (Complex Value)) (index : Nat) (re im : Lanes 4 Value) :
    storeComplex array index re im =
      Lanes.store array index fun lane : Fin 4 => (⟨re lane, im lane⟩ : Complex Value) := by
  have pairs : (List.ofFn fun lane : Fin 4 => [re lane, im lane]).flatten =
      floats (List.ofFn fun lane : Fin 4 => (⟨re lane, im lane⟩ : Complex Value)) := by
    rw [floats, List.map_ofFn]
    rfl
  rw [storeComplex, Lanes.storePairs, Lanes.store, length_floats]
  by_cases inside : index + 4 ≤ array.length
  · rw [if_pos (by omega), if_pos inside, take_floats, pairs, ← Nat.mul_add, drop_floats,
      ← floats_append, ← floats_append, Option.map_some, complexes_floats]
  · rw [if_neg (by omega), if_neg inside]
    rfl

end Floats

/-- The index after the loop of `reflected_sample`. An array of one sample or none
does not get there. -/
def reflectIndex (size index : Int) : Int :=
  if 2 ≤ size ∧ (index < 0 ∨ index ≥ size) then
    reflectIndex size (if index < 0 then -index else 2 * size - index - 2)
  else index
termination_by 2 * index.natAbs + if index < 0 then 1 else 0
decreasing_by
  split_ifs <;> omega

/-- `reflected_sample`. -/
def reflectedSample (audio : List Value) (index : Int) : Value :=
  let size : Int := audio.length
  if size ≤ 1 then if size = 1 then audio.getD 0 0 else 0
  else audio.getD (reflectIndex size index).toNat 0

/-- `make_windowed_frame`. -/
def makeWindowedFrame (neon : Bool) (audio hann : List Value) (start : Int)
    (output : List (Complex Value)) : Option (List (Complex Value)) :=
  let isContiguous := decide (0 ≤ start ∧ start + kFftSize ≤ audio.length)
  vectorised (neon && isContiguous) kNeonFloatLanes kFftSize
    (fun index output => do
      let source ← Lanes.load 4 audio (start.toNat + index)
      let window ← Lanes.load 4 hann index
      storeComplex output index (Lanes.mul source window) (Lanes.dup 0))
    (if isContiguous then fun index output => do
        let sample ← audio[start.toNat + index]?
        let factor ← hann[index]?
        writeAt output index ⟨sample * factor, 0⟩
      else fun index output => do
        let factor ← hann[index]?
        writeAt output index ⟨reflectedSample audio (start + index) * factor, 0⟩)
    output

/-- `std::norm`. -/
def norm (value : Complex Value) : Value := value.re * value.re + value.im * value.im

/-- `calculate_power`. -/
def calculatePower (neon : Bool) (fftOutput : List (Complex Value)) (power : List Value) :
    Option (List Value) :=
  vectorised neon kNeonFloatLanes kFftBins
    (fun bin power => do
      let values ← loadComplex fftOutput bin
      Lanes.store power bin
        (Lanes.mulAdd (Lanes.mul values.1 values.1) values.2 values.2))
    (fun bin power => do
      let value ← fftOutput[bin]?
      writeAt power bin (norm value))
    power

/-- The products of one register's worth, added to the sums of the lanes. -/
def addProducts (left right : List Value) (index : Nat) (sum : Lanes (2 + 2) Value) :
    Option (Lanes (2 + 2) Value) := do
  let leftValues ← Lanes.load 4 left index
  let rightValues ← Lanes.load 4 right index
  return Lanes.mulAdd sum leftValues rightValues

/-- The vector instructions of `dot_product`: the index they get to and the sum. -/
def dotProductLanes (left right : List Value) (count : Nat) : Option (Nat × Value) := do
  let ended ← loopBy kNeonFloatLanes count (addProducts left right) 0 (Lanes.dup 0)
  let pairSum := Lanes.add (Lanes.low ended.2) (Lanes.high ended.2)
  return (ended.1, Lanes.firstLane (Lanes.pairAdd pairSum pairSum))

/-- `dot_product`. -/
def dotProduct (neon : Bool) (left right : List Value) (count : Nat) : Option Value := do
  let started ← (if neon then dotProductLanes left right count else some (0, 0) :
    Option (Nat × Value))
  let ended ← loopBy 1 count (fun index result => do
    let leftValue ← left[index]?
    let rightValue ← right[index]?
    return result + leftValue * rightValue) started.1 started.2
  return ended.2

section Normalize

variable [LinearOrder Value]

/-- `floor`, with `kDynamicRange`. -/
def floorOf (maximum : Value) : Value := maximum - 8

/-- A value in the range of the model, with `kNormalizationOffset` and
`kNormalizationScale`. -/
def normalized (floor value : Value) : Value := (max value floor + 4) * (1 / 4)

/-- `normalize_features`. -/
def normalizeFeatures (neon : Bool) (values : List Value) (maximum : Value) :
    Option (List Value) :=
  let floor := floorOf maximum
  vectorised neon kNeonFloatLanes values.length
    (fun index values => do
      let value ← Lanes.load 4 values index
      Lanes.store values index
        (Lanes.mul (Lanes.add (Lanes.max value (Lanes.dup floor)) (Lanes.dup 4))
          (Lanes.dup (1 / 4))))
    (fun index values => do
      let value ← values[index]?
      writeAt values index (normalized floor value))
    values

end Normalize

theorem reflectIndex_of_inside {size index : Int} (inside : 0 ≤ index ∧ index < size) :
    reflectIndex size index = index := by
  rw [reflectIndex, if_neg (by omega)]

private theorem reflectedSample_of_inside (audio : List Value) {index : Nat}
    (inside : index < audio.length) : reflectedSample audio index = audio.getD index 0 := by
  unfold reflectedSample
  dsimp only
  split_ifs with few one
  · obtain rfl : index = 0 := by omega
    rfl
  · omega
  · rw [reflectIndex_of_inside (by omega), Int.toNat_natCast]

/-- What a frame holds at `index`. -/
def windowed (audio hann : List Value) (start : Int) (index : Nat) : Complex Value :=
  ⟨reflectedSample audio (start + index) * hann.getD index 0, 0⟩

theorem makeWindowedFrame_eq (neon : Bool) (audio : List Value) {hann : List Value} (start : Int)
    {output : List (Complex Value)} (hannRoom : kFftSize ≤ hann.length)
    (outputRoom : kFftSize ≤ output.length) :
    makeWindowedFrame neon audio hann start output =
      some (filled (windowed audio hann start) output kFftSize) := by
  have sample (contiguous : 0 ≤ start ∧ start + kFftSize ≤ audio.length) {index : Nat}
      (inside : index < kFftSize) :
      start.toNat + index < audio.length ∧
        reflectedSample audio (start + index) = audio.getD (start.toNat + index) 0 := by
    have within : start.toNat + index < audio.length := by omega
    refine ⟨within, ?_⟩
    rw [← reflectedSample_of_inside audio within]
    congr 1
    omega
  apply vectorised_filled _ (by decide)
  · intro contiguous index inside
    have whole : index + 4 ≤ kFftSize := inside
    simp only [Bool.and_eq_true, decide_eq_true_eq] at contiguous
    have last := (sample contiguous.2 (show index + 3 < kFftSize by omega)).1
    rw [Lanes.load_inside (by omega), Option.bind_eq_bind, Option.bind_some,
      Lanes.load_inside (by omega), Option.bind_some, storeComplex_eq]
    apply store_filled (by omega)
    intro lane
    rw [windowed, (sample contiguous.2 (show index + lane < kFftSize by omega)).2,
      ← Nat.add_assoc]
    rfl
  · intro index inside
    have factor := getElem?_eq_getD (show index < hann.length by omega)
    split
    · next contiguous =>
      obtain ⟨within, same⟩ := sample (of_decide_eq_true contiguous) inside
      dsimp only
      rw [getElem?_eq_getD within, Option.bind_eq_bind, Option.bind_some, factor,
        Option.bind_some]
      exact writeAt_filled (by omega) (by rw [windowed, same])
    · dsimp only
      rw [factor, Option.bind_eq_bind, Option.bind_some]
      exact writeAt_filled (by omega) rfl

theorem calculatePower_eq (neon : Bool) {fftOutput : List (Complex Value)} {power : List Value}
    (outputRoom : kFftBins ≤ fftOutput.length) (powerRoom : kFftBins ≤ power.length) :
    calculatePower neon fftOutput power =
      some (filled (fun bin => norm (fftOutput.getD bin 0)) power kFftBins) := by
  apply vectorised_filled _ (by decide)
  · intro _ bin inside
    have whole : bin + 4 ≤ kFftBins := inside
    have values := loadComplex_inside (show bin + 4 ≤ fftOutput.length by omega)
    rw [values, Option.bind_eq_bind, Option.bind_some]
    exact store_filled (by omega) fun lane => rfl
  · intro bin inside
    rw [getElem?_eq_getD (show bin < fftOutput.length by omega), Option.bind_eq_bind,
      Option.bind_some]
    exact writeAt_filled (by omega) rfl

/-- The products of the first `count` elements. -/
def scalarProduct (left right : List Value) (count : Nat) : Value :=
  ∑ index ∈ Finset.range count, left.getD index 0 * right.getD index 0

private theorem scalarProduct_succ (left right : List Value) (count : Nat) :
    scalarProduct left right (count + 1) =
      scalarProduct left right count + left.getD count 0 * right.getD count 0 :=
  Finset.sum_range_succ _ count

private theorem scalarProduct_lanes (left right : List Value) (count : Nat) :
    scalarProduct left right (count + 4) = scalarProduct left right count +
      ∑ lane : Fin 4, left.getD (count + lane) 0 * right.getD (count + lane) 0 := by
  rw [scalarProduct, Finset.sum_range_add, Finset.sum_range fun lane =>
    left.getD (count + lane) 0 * right.getD (count + lane) 0]
  rfl

private theorem pairAdd_lanes (sum : Lanes (2 + 2) Value) :
    Lanes.firstLane (Lanes.pairAdd (Lanes.add (Lanes.low sum) (Lanes.high sum))
      (Lanes.add (Lanes.low sum) (Lanes.high sum))) = ∑ lane : Fin 4, sum lane := by
  rw [Fin.sum_univ_four]
  change sum 0 + sum 2 + (sum 1 + sum 3) = _
  ring

section Products

variable {left right : List Value} {count : Nat}

theorem dotProductLanes_eq (leftRoom : count ≤ left.length) (rightRoom : count ≤ right.length) :
    ∃ index ≤ count,
      dotProductLanes left right count = some (index, scalarProduct left right index) := by
  have pass (index : Nat) (sum : Lanes (2 + 2) Value) (room : index + kNeonFloatLanes ≤ count)
      (sums : ∑ lane : Fin 4, sum lane = scalarProduct left right index) :
      ∃ next, addProducts left right index sum = some next ∧
        ∑ lane : Fin 4, next lane = scalarProduct left right (index + kNeonFloatLanes) := by
    have whole : index + 4 ≤ count := room
    refine ⟨_, by rw [addProducts, Lanes.load_inside (by omega), Lanes.load_inside (by omega)]; rfl,
      ?_⟩
    simp only [Lanes.mulAdd, Finset.sum_add_distrib, sums]
    exact (scalarProduct_lanes left right index).symm
  have start : ∑ lane : Fin 4, (Lanes.dup 0 : Lanes (2 + 2) Value) lane =
      scalarProduct left right 0 := by
    simp [Lanes.dup, scalarProduct]
  obtain ⟨index, sum, ran, inside, -, sums⟩ := loopBy_invariant (show 0 < kNeonFloatLanes by decide)
    (fun index (sum : Lanes (2 + 2) Value) =>
      ∑ lane : Fin 4, sum lane = scalarProduct left right index) (Nat.zero_le count) start pass
  refine ⟨index, inside, ?_⟩
  rw [dotProductLanes, ran, Option.bind_eq_bind, Option.bind_some, ← sums, ← pairAdd_lanes]
  rfl

/-- In whichever order the products are added, the result is their sum. -/
theorem dotProduct_eq (neon : Bool) (leftRoom : count ≤ left.length)
    (rightRoom : count ≤ right.length) :
    dotProduct neon left right count = some (scalarProduct left right count) := by
  obtain ⟨index, inside, ran⟩ : ∃ index ≤ count,
      (if neon then dotProductLanes left right count else some (0, 0)) =
        some (index, scalarProduct left right index) := by
    cases neon with
    | false => exact ⟨0, Nat.zero_le count, rfl⟩
    | true => exact dotProductLanes_eq leftRoom rightRoom
  have pass (index : Nat) (result : Value) (room : index + 1 ≤ count)
      (sums : result = scalarProduct left right index) :
      ∃ next, (do
          let leftValue ← left[index]?
          let rightValue ← right[index]?
          return result + leftValue * rightValue) = some next ∧
        next = scalarProduct left right (index + 1) := by
    refine ⟨_, ?_, (scalarProduct_succ left right index).symm⟩
    rw [getElem?_eq_getD (show index < left.length by omega),
      getElem?_eq_getD (show index < right.length by omega), sums]
    rfl
  obtain ⟨stop, result, rest, most, least, rfl⟩ := loopBy_invariant Nat.one_pos
    (fun index result => result = scalarProduct left right index) inside rfl pass
  obtain rfl : stop = count := by omega
  rw [dotProduct, ran, Option.bind_eq_bind, Option.bind_some, rest]
  rfl

end Products

/-- Every value is normalised in its place. -/
theorem normalizeFeatures_eq [LinearOrder Value] (neon : Bool) (values : List Value)
    (maximum : Value) :
    normalizeFeatures neon values maximum = some (values.map (normalized (floorOf maximum))) := by
  let result (index : Nat) : Value := normalized (floorOf maximum) (values.getD index 0)
  have everything : filled result values values.length =
      values.map (normalized (floorOf maximum)) := by
    rw [filled_all le_rfl]
    apply List.ext_getElem
    · rw [List.length_map, List.length_range, List.length_map]
    · intro position inside _
      have within : position < values.length := by simpa using inside
      simp [result, List.getD_eq_getElem?_getD, List.getElem?_eq_getElem within]
  rw [← everything]
  apply vectorised_filled neon (by decide)
  · intro _ index inside
    have whole : index + 4 ≤ values.length := inside
    rw [Lanes.load_inside (by rw [length_filled (by omega)]; exact whole), Option.bind_eq_bind,
      Option.bind_some]
    apply store_filled whole
    intro lane
    simp only [Lanes.mul, Lanes.add, Lanes.max, Lanes.dup]
    rw [getD_filled 0 (Nat.le_add_right index lane)]
    rfl
  · intro index inside
    rw [getElem?_eq_getD (by rw [length_filled inside.le]; exact inside), Option.bind_eq_bind,
      Option.bind_some, getD_filled 0 le_rfl]
    exact writeAt_filled inside rfl

/-- Every kernel computes with registers what it computes without them, on arrays
that may end where its range ends; two spans become what their concatenation becomes. -/
theorem neon_agrees [LinearOrder Value] :
    (∀ (input : List Int16) (output : List Value) (count : Nat), count ≤ input.length →
      count ≤ output.length → VectorsAgree fun neon =>
        NativeAudio.Pcm16Lanes.convertPcm16Chunk neon input output count) ∧
    (∀ (first second : Option (List Int16)) (firstCount secondCount : Nat) (output : List Value),
      (∀ input ∈ first, input.length = firstCount) →
      (∀ input ∈ second, input.length = secondCount) → VectorsAgree fun neon =>
        NativeAudio.Pcm16Lanes.pcm16SpansToFloatVector neon first firstCount second secondCount
          output) ∧
    (∀ (first second : List Int16) (output before : List Value) (neon : Bool),
      second.length ≤ NativeAudio.sizeMax - first.length →
      before.length = (first ++ second).length → ∃ floats,
        NativeAudio.Pcm16Lanes.convertPcm16Chunk neon (first ++ second) before
          (first ++ second).length = some floats ∧
        NativeAudio.Pcm16Lanes.pcm16SpansToFloatVector neon (some first) first.length
          (some second) second.length output = some (.ok floats)) ∧
    (∀ (audio hann : List Value) (start : Int) (output : List (Complex Value)),
      kFftSize ≤ hann.length → kFftSize ≤ output.length → VectorsAgree fun neon =>
        makeWindowedFrame neon audio hann start output) ∧
    (∀ (fftOutput : List (Complex Value)) (power : List Value), kFftBins ≤ fftOutput.length →
      kFftBins ≤ power.length → VectorsAgree fun neon => calculatePower neon fftOutput power) ∧
    (∀ (left right : List Value) (count : Nat), count ≤ left.length → count ≤ right.length →
      VectorsAgree fun neon => dotProduct neon left right count) ∧
    ∀ (values : List Value) (maximum : Value),
      VectorsAgree fun neon => normalizeFeatures neon values maximum := by
  refine ⟨?chunk, ?spans, ?concatenation, ?frame, ?power, ?product, ?normalize⟩
  case chunk =>
    intro input output count inputRoom outputRoom
    exact .of_eq fun neon =>
      NativeAudio.Pcm16Lanes.convertPcm16Chunk_filled neon inputRoom outputRoom
  case spans =>
    intro first second firstCount secondCount output firstRoom secondRoom
    exact NativeAudio.Pcm16Lanes.pcm16SpansToFloatVector_neon firstRoom secondRoom output
  case concatenation =>
    intro first second output before neon countable room
    exact ⟨_, NativeAudio.Pcm16Lanes.convertPcm16Chunk_eq neon _ room,
      NativeAudio.Pcm16Lanes.pcm16SpansToFloatVector_eq neon (some first) (some second) output
        countable⟩
  case frame =>
    intro audio hann start output hannRoom outputRoom
    exact .of_eq fun neon => makeWindowedFrame_eq neon audio start hannRoom outputRoom
  case power =>
    intro fftOutput power outputRoom powerRoom
    exact .of_eq fun neon => calculatePower_eq neon outputRoom powerRoom
  case product =>
    intro left right count leftRoom rightRoom
    exact .of_eq fun neon => dotProduct_eq neon leftRoom rightRoom
  case normalize =>
    intro values maximum
    exact .of_eq fun neon => normalizeFeatures_eq neon values maximum

/-- Nine samples, of which one is left for the scalar loop. -/
theorem neon_agrees_nine :
    (VectorsAgree fun neon => NativeAudio.Pcm16Lanes.convertPcm16Chunk neon
      (List.replicate 9 16384) (List.replicate 9 (0 : ℚ)) 9) ∧
    (VectorsAgree fun neon => NativeAudio.Pcm16Lanes.pcm16SpansToFloatVector neon
      (some (List.replicate 9 16384)) 9 none 0 ([] : List ℚ)) ∧
    (∃ floats, NativeAudio.Pcm16Lanes.convertPcm16Chunk true (List.replicate 8 16384 ++ [-1])
        (List.replicate 9 (0 : ℚ)) 9 = some floats ∧
      NativeAudio.Pcm16Lanes.pcm16SpansToFloatVector true (some (List.replicate 8 16384)) 8
        (some [-1]) 1 [] = some (.ok floats)) ∧
    (VectorsAgree fun neon => makeWindowedFrame neon (List.replicate 9 (1 : ℚ))
      (List.replicate 400 1) (-200) (List.replicate 400 0)) ∧
    (VectorsAgree fun neon => calculatePower neon (List.replicate 400 (0 : Complex ℚ))
      (List.replicate 201 0)) ∧
    (VectorsAgree fun neon => dotProduct neon (List.replicate 9 (1 : ℚ))
      (List.replicate 9 2) 9) ∧
    VectorsAgree fun neon => normalizeFeatures neon (List.replicate 9 (-10 : ℚ)) (-2) := by
  obtain ⟨chunk, spans, concatenation, frame, power, product, normalize⟩ := @neon_agrees ℚ _ _
  have room {Cell : Type} (size : Nat) (cell : Cell) : size ≤ (List.replicate size cell).length :=
    List.length_replicate.ge
  refine ⟨chunk _ _ 9 (room 9 _) (room 9 _), spans _ _ 9 0 [] ?_ (fun _ none => nomatch none),
    concatenation (List.replicate 8 16384) [-1] [] (List.replicate 9 0) true (by decide) rfl,
    frame _ _ (-200) _ (room 400 _) (room 400 _), power _ _ ((by decide : 201 ≤ 400).trans
      (room 400 _)) (room 201 _), product _ _ 9 (room 9 _) (room 9 _), normalize _ (-2)⟩
  rintro _ ⟨⟩
  rfl

end LocalWhisper.CTranslate2
