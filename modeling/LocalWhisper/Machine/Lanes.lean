import Mathlib.Algebra.BigOperators.Fin
import Mathlib.Algebra.BigOperators.Intervals
import Mathlib.Data.List.OfFn

/-! Vector registers over arrays: loads and stores that have no result outside the
array, the operations lane by lane, and the loop that goes through an array by the
width of a register. -/

namespace LocalWhisper.Machine

universe u v

/-- A register of `width` lanes. -/
abbrev Lanes (width : Nat) (Value : Type u) := Fin width → Value

namespace Lanes

variable {Value : Type u} {width : Nat}

/-- The same value in every lane. -/
def dup (value : Value) : Lanes width Value := fun _ => value

def mul [Mul Value] (left right : Lanes width Value) : Lanes width Value :=
  fun lane => left lane * right lane

def add [Add Value] (left right : Lanes width Value) : Lanes width Value :=
  fun lane => left lane + right lane

/-- `sum + left * right`. -/
def mulAdd [Add Value] [Mul Value] (sum left right : Lanes width Value) : Lanes width Value :=
  fun lane => sum lane + left lane * right lane

def max [Max Value] (left right : Lanes width Value) : Lanes width Value :=
  fun lane => Max.max (left lane) (right lane)

def low (register : Lanes (width + width) Value) : Lanes width Value :=
  fun lane => register (Fin.castAdd width lane)

def high (register : Lanes (width + width) Value) : Lanes width Value :=
  fun lane => register (Fin.natAdd width lane)

/-- The sums of neighbours, first of one register of two lanes, then of the other. -/
def pairAdd [Add Value] (first second : Lanes 2 Value) : Lanes 2 Value
  | 0 => first 0 + first 1
  | 1 => second 0 + second 1

def firstLane (register : Lanes 2 Value) : Value := register 0

def load [Zero Value] (width : Nat) (array : List Value) (index : Nat) :
    Option (Lanes width Value) :=
  if index + width ≤ array.length then some fun lane : Fin width => array.getD (index + lane) 0
  else none

def store (array : List Value) (index : Nat) (register : Lanes width Value) :
    Option (List Value) :=
  if index + width ≤ array.length then
    some (array.take index ++ List.ofFn register ++ array.drop (index + width))
  else none

/-- A load that takes pairs apart, the first values and the second ones. -/
def loadPairs [Zero Value] (width : Nat) (array : List Value) (index : Nat) :
    Option (Lanes width Value × Lanes width Value) :=
  if index + 2 * width ≤ array.length then
    some (fun lane => array.getD (index + 2 * lane) 0,
      fun lane => array.getD (index + 2 * lane + 1) 0)
  else none

def storePairs (array : List Value) (index : Nat) (first second : Lanes width Value) :
    Option (List Value) :=
  if index + 2 * width ≤ array.length then
    some (array.take index ++ (List.ofFn fun lane => [first lane, second lane]).flatten ++
      array.drop (index + 2 * width))
  else none

theorem load_inside [Zero Value] {array : List Value} {index : Nat}
    (inside : index + width ≤ array.length) :
    load width array index = some fun lane : Fin width => array.getD (index + lane) 0 :=
  if_pos inside

end Lanes

/-- `array[index] = value`. -/
def writeAt {Value : Type u} (array : List Value) (index : Nat) (value : Value) :
    Option (List Value) :=
  if index < array.length then some (array.set index value) else none

/-- `vector.resize(size, blank)`. -/
def resize {Value : Type u} (values : List Value) (size : Nat) (blank : Value) : List Value :=
  values.take size ++ List.replicate (size - values.length) blank

@[simp] theorem length_resize {Value : Type u} (values : List Value) (size : Nat)
    (blank : Value) : (resize values size blank).length = size := by
  rw [resize, List.length_append, List.length_take, List.length_replicate]
  omega

section Filled

variable {Value : Type u}

/-- The first `count` cells are computed, the others as they were. -/
def filled (result : Nat → Value) (before : List Value) (count : Nat) : List Value :=
  (List.range count).map result ++ before.drop count

variable {result : Nat → Value} {before : List Value}

theorem filled_all {count : Nat} (most : before.length ≤ count) :
    filled result before count = (List.range count).map result := by
  rw [filled, List.drop_eq_nil_of_le most, List.append_nil]

theorem length_filled {count : Nat} (inside : count ≤ before.length) :
    (filled result before count).length = before.length := by
  rw [filled, List.length_append, List.length_map, List.length_range, List.length_drop]
  omega

theorem take_filled (count : Nat) :
    (filled result before count).take count = (List.range count).map result :=
  List.take_left' (by rw [List.length_map, List.length_range])

theorem drop_filled (count more : Nat) :
    (filled result before count).drop (count + more) = before.drop (count + more) := by
  rw [filled, ← List.drop_drop, List.drop_left' (by rw [List.length_map, List.length_range]),
    List.drop_drop]

/-- The cells behind the computed ones are those from before. -/
theorem getD_filled (default : Value) {count position : Nat} (behind : count ≤ position) :
    (filled result before count).getD position default = before.getD position default := by
  rw [filled, List.getD_eq_getElem?_getD, List.getElem?_append_right
    (by rw [List.length_map, List.length_range]; exact behind), List.getElem?_drop,
    List.length_map, List.length_range, Nat.add_sub_cancel' behind, List.getD_eq_getElem?_getD]

theorem filled_add (count more : Nat) :
    filled result before (count + more) =
      (List.range count).map result ++ (List.range more).map (fun lane => result (count + lane)) ++
        before.drop (count + more) := by
  rw [filled, List.range_add, List.map_append, List.map_map]
  rfl

/-- A register with the next results fills as many cells more. -/
theorem store_filled {width count : Nat} {register : Lanes width Value}
    (room : count + width ≤ before.length)
    (next : ∀ lane, register lane = result (count + lane)) :
    Lanes.store (filled result before count) count register =
      some (filled result before (count + width)) := by
  have lanes : List.ofFn register = (List.range width).map fun lane => result (count + lane) := by
    rw [List.ofFn_eq_map, ← List.map_coe_finRange_eq_range, List.map_map]
    exact List.map_congr_left fun lane _ => next lane
  rw [Lanes.store, if_pos (by rw [length_filled (by omega)]; exact room), take_filled, drop_filled,
    lanes, filled_add]

theorem writeAt_filled {count : Nat} {value : Value} (room : count < before.length)
    (next : value = result count) :
    writeAt (filled result before count) count value = some (filled result before (count + 1)) := by
  have inside : count < (filled result before count).length := by
    rw [length_filled (by omega)]
    exact room
  rw [writeAt, if_pos inside, List.set_eq_take_append_cons_drop, if_pos inside, take_filled,
    drop_filled, filled_add, next]
  simp

end Filled

section Loop

variable {State : Type v}

/-- `for (; index + width <= count; index += width)`: the index and the state
behind the loop. -/
def loopBy (width count : Nat) (body : Nat → State → Option State) (index : Nat) (state : State) :
    Option (Nat × State) :=
  if 0 < width ∧ index + width ≤ count then do
    let next ← body index state
    loopBy width count body (index + width) next
  else some (index, state)
termination_by count - index

/-- A loop whose passes keep the invariant ends with it, less than a pass before
the end. -/
theorem loopBy_invariant {width count : Nat} (positive : 0 < width)
    (Invariant : Nat → State → Prop) {body : Nat → State → Option State} {index : Nat}
    {state : State} (inside : index ≤ count) (start : Invariant index state)
    (pass : ∀ index state, index + width ≤ count → Invariant index state →
      ∃ next, body index state = some next ∧ Invariant (index + width) next) :
    ∃ stop after, loopBy width count body index state = some (stop, after) ∧ stop ≤ count ∧
      count < stop + width ∧ Invariant stop after := by
  fun_induction loopBy width count body index state with
  | case1 index state room inductionHypothesis =>
    obtain ⟨next, ran, holds⟩ := pass index state room.2 start
    obtain ⟨stop, after, rest, ends⟩ := inductionHypothesis next room.2 holds
    exact ⟨stop, after, by rw [ran]; exact rest, ends⟩
  | case2 index state full => exact ⟨index, state, rfl, inside, by omega, start⟩

/-- A loop over whole registers where there are any, then one over what is left. -/
def vectorised (vector : Bool) (width count : Nat) (wide narrow : Nat → State → Option State)
    (state : State) : Option State := do
  let started ← (if vector then loopBy width count wide 0 state else some (0, state) :
    Option (Nat × State))
  let ended ← loopBy 1 count narrow started.1 started.2
  return ended.2

/-- Where both bodies get from one known state to the next, the loops get to the last. -/
theorem vectorised_states (vector : Bool) {width count : Nat} (positive : 0 < width)
    {wide narrow : Nat → State → Option State} (states : Nat → State)
    (wideNext : ∀ index, index + width ≤ count →
      wide index (states index) = some (states (index + width)))
    (narrowNext : ∀ index, index + 1 ≤ count →
      narrow index (states index) = some (states (index + 1))) :
    vectorised vector width count wide narrow (states 0) = some (states count) := by
  have loop {step : Nat} (some : 0 < step) {body : Nat → State → Option State}
      (next : ∀ index, index + step ≤ count →
        body index (states index) = .some (states (index + step))) {index : Nat}
      (inside : index ≤ count) : ∃ stop,
        loopBy step count body index (states index) = .some (stop, states stop) ∧ stop ≤ count ∧
          count < stop + step := by
    obtain ⟨stop, after, ran, most, least, rfl⟩ := loopBy_invariant some
      (fun index state => state = states index) inside rfl
      (fun index state room same => ⟨_, by rw [same]; exact next index room, rfl⟩)
    exact ⟨stop, ran, most, least⟩
  obtain ⟨index, ran, inside⟩ : ∃ index,
      (if vector then loopBy width count wide 0 (states 0) else some (0, states 0)) =
        some (index, states index) ∧ index ≤ count := by
    cases vector with
    | false => exact ⟨0, rfl, Nat.zero_le count⟩
    | true =>
      obtain ⟨index, ran, inside, -⟩ := loop positive wideNext (Nat.zero_le count)
      exact ⟨index, ran, inside⟩
  obtain ⟨stop, rest, most, least⟩ := loop Nat.one_pos narrowNext inside
  obtain rfl : stop = count := by omega
  unfold vectorised
  rw [ran, Option.bind_eq_bind, Option.bind_some, rest]
  rfl

/-- With vector instructions and without, the code gets to the same result and
makes no access outside an array. -/
def VectorsAgree (code : Bool → Option State) : Prop :=
  ∃ result, code true = some result ∧ code false = some result

theorem VectorsAgree.of_eq {code : Bool → Option State} {result : State}
    (same : ∀ vector, code vector = some result) : VectorsAgree code :=
  ⟨result, same true, same false⟩

end Loop

section FilledLoop

variable {Value : Type u} {result : Nat → Value} {before : List Value}

theorem loopBy_filled {width count : Nat} (positive : 0 < width)
    {body : Nat → List Value → Option (List Value)} {index : Nat} (inside : index ≤ count)
    (pass : ∀ index, index + width ≤ count →
      body index (filled result before index) = some (filled result before (index + width))) :
    ∃ stop, loopBy width count body index (filled result before index) =
      some (stop, filled result before stop) ∧ stop ≤ count ∧ count < stop + width := by
  obtain ⟨stop, after, ran, most, least, rfl⟩ := loopBy_invariant positive
    (fun index state => state = filled result before index) inside rfl
    (fun index state room same => ⟨_, by rw [same]; exact pass index room, rfl⟩)
  exact ⟨stop, ran, most, least⟩

/-- Where both bodies compute the next cells, the loops compute all of them, with
registers or without. -/
theorem vectorised_filled (vector : Bool) {width count : Nat} (positive : 0 < width)
    {wide narrow : Nat → List Value → Option (List Value)}
    (wideNext : vector = true → ∀ index, index + width ≤ count →
      wide index (filled result before index) = some (filled result before (index + width)))
    (narrowNext : ∀ index, index < count →
      narrow index (filled result before index) = some (filled result before (index + 1))) :
    vectorised vector width count wide narrow before = some (filled result before count) := by
  obtain ⟨index, ran, inside⟩ : ∃ index,
      (if vector then loopBy width count wide 0 before else some (0, before)) =
        some (index, filled result before index) ∧ index ≤ count := by
    cases vector with
    | false => exact ⟨0, rfl, Nat.zero_le count⟩
    | true =>
      obtain ⟨index, ran, inside, -⟩ :=
        loopBy_filled positive (Nat.zero_le count) (wideNext rfl)
      exact ⟨index, ran, inside⟩
  obtain ⟨stop, rest, most, least⟩ :=
    loopBy_filled Nat.one_pos inside fun index room => narrowNext index room
  obtain rfl : stop = count := by omega
  unfold vectorised
  rw [ran, Option.bind_eq_bind, Option.bind_some, rest]
  rfl

end FilledLoop

end LocalWhisper.Machine
