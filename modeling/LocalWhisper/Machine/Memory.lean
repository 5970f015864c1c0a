import Mathlib.Algebra.BigOperators.Group.Finset.Basic
import Mathlib.Algebra.BigOperators.Intervals

/-! Arrays of cells that a program reads and writes through pointers. An access
outside the first `limit` cells of an array has no result, so a program that
ends with a memory has made none. -/

namespace LocalWhisper.Machine

universe v

variable {Area : Type} {Value : Type v}

structure Pointer (Area : Type) where
  area : Area
  offset : Nat
  deriving DecidableEq, Repr

/-- `pointer + count`. -/
def Pointer.advance (pointer : Pointer Area) (count : Nat) : Pointer Area :=
  ⟨pointer.area, pointer.offset + count⟩

@[simp] theorem Pointer.advance_area (pointer : Pointer Area) (count : Nat) :
    (pointer.advance count).area = pointer.area := rfl

@[simp] theorem Pointer.advance_offset (pointer : Pointer Area) (count : Nat) :
    (pointer.advance count).offset = pointer.offset + count := rfl

@[simp] theorem Pointer.advance_inj (pointer : Pointer Area) {first second : Nat} :
    pointer.advance first = pointer.advance second ↔ first = second := by
  simp [advance]

theorem Pointer.advance_advance (pointer : Pointer Area) (first second : Nat) :
    (pointer.advance first).advance second = pointer.advance (first + second) := by
  rw [advance, advance, advance, Nat.add_assoc]

abbrev Memory (Area : Type) (Value : Type v) := Area → Nat → Value

namespace Memory

def get (memory : Memory Area Value) (pointer : Pointer Area) : Value :=
  memory pointer.area pointer.offset

def read (limit : Nat) (memory : Memory Area Value) (pointer : Pointer Area) : Option Value :=
  if pointer.offset < limit then some (memory.get pointer) else none

theorem read_inside {limit : Nat} (memory : Memory Area Value) {pointer : Pointer Area}
    (inside : pointer.offset < limit) : memory.read limit pointer = some (memory.get pointer) := by
  rw [read, if_pos inside]

variable [DecidableEq Area]

def set (memory : Memory Area Value) (pointer : Pointer Area) (value : Value) :
    Memory Area Value :=
  fun area index => if area = pointer.area ∧ index = pointer.offset then value else memory area index

def write (limit : Nat) (memory : Memory Area Value) (pointer : Pointer Area) (value : Value) :
    Option (Memory Area Value) :=
  if pointer.offset < limit then some (memory.set pointer value) else none

theorem write_inside {limit : Nat} (memory : Memory Area Value) {pointer : Pointer Area}
    (value : Value) (inside : pointer.offset < limit) :
    memory.write limit pointer value = some (memory.set pointer value) := by
  rw [write, if_pos inside]

@[simp] theorem get_set_self (memory : Memory Area Value) (pointer : Pointer Area)
    (value : Value) : (memory.set pointer value).get pointer = value := by
  simp [get, set]

theorem get_set_of_ne (memory : Memory Area Value) {pointer other : Pointer Area} (value : Value)
    (different : other ≠ pointer) : (memory.set pointer value).get other = memory.get other := by
  rw [get, set, if_neg]
  · rfl
  · rintro ⟨area, offset⟩
    exact different (by cases other; cases pointer; simp_all)

theorem get_set (memory : Memory Area Value) (pointer other : Pointer Area)
    (value : Value) : (memory.set pointer value).get other =
      if other = pointer then value else memory.get other := by
  split
  · next same => rw [same, get_set_self]
  · next different => rw [get_set_of_ne memory value different]

@[simp] theorem set_set (memory : Memory Area Value) (pointer : Pointer Area)
    (first second : Value) : (memory.set pointer first).set pointer second =
      memory.set pointer second := by
  funext area index
  simp only [set]
  split
  · rfl
  · rfl

end Memory

section Loops

variable {State : Type v}

/-- `for (index = 0; index < count; ++index)` over a state. -/
def forRange (count : Nat) (body : Nat → State → Option State) (state : State) : Option State :=
  (List.range count).foldlM (fun state index => body index state) state

@[simp] theorem forRange_zero (body : Nat → State → Option State) (state : State) :
    forRange 0 body state = some state := rfl

private theorem forRange_succ (count : Nat) (body : Nat → State → Option State) (state : State) :
    forRange (count + 1) body state = (forRange count body state).bind (body count) := by
  simp [forRange, List.range_succ, List.foldlM_append]

/-- A loop whose passes keep the invariant ends with it. -/
theorem forRange_invariant (Invariant : Nat → State → Prop) {count : Nat}
    {body : Nat → State → Option State} {start : State} (first : Invariant 0 start)
    (pass : ∀ index < count, ∀ state, Invariant index state →
      ∃ next, body index state = some next ∧ Invariant (index + 1) next) :
    ∃ after, forRange count body start = some after ∧ Invariant count after := by
  induction count with
  | zero => exact ⟨start, rfl, first⟩
  | succ count ih =>
    obtain ⟨middle, ran, holds⟩ := ih fun index below =>
      pass index (Nat.lt_succ_of_lt below)
    obtain ⟨after, last, ends⟩ := pass count (Nat.lt_succ_self count) middle holds
    refine ⟨after, ?_, ends⟩
    rw [forRange_succ, ran]
    exact last

/-- A loop whose states are known. -/
theorem forRange_states {count : Nat} {body : Nat → State → Option State} (states : Nat → State)
    (pass : ∀ index < count, body index (states index) = some (states (index + 1))) :
    forRange count body (states 0) = some (states count) := by
  obtain ⟨after, ran, rfl⟩ := forRange_invariant (fun passes state => state = states passes) rfl
    fun index below state here => ⟨_, here ▸ pass index below, rfl⟩
  exact ran

end Loops

/-- Passes that write cells of their own, with values that are known beforehand, fill
them and change nothing else. -/
theorem forRange_fills {count : Nat} {cells : Nat → Pointer Area → Prop}
    (value : Pointer Area → Value) {body : Nat → Memory Area Value → Option (Memory Area Value)}
    {before : Memory Area Value}
    (pass : ∀ index < count, ∀ now : Memory Area Value,
      (∀ other, (∀ place < count, ¬ cells place other) → now.get other = before.get other) →
      ∃ next, body index now = some next ∧
        (∀ other, cells index other → next.get other = value other) ∧
        ∀ other, ¬ cells index other → next.get other = now.get other) :
    ∃ after, forRange count body before = some after ∧
      (∀ index < count, ∀ other, cells index other → after.get other = value other) ∧
      ∀ other, (∀ index < count, ¬ cells index other) → after.get other = before.get other := by
  apply forRange_invariant fun passes (now : Memory Area Value) =>
    (∀ index < passes, ∀ other, cells index other → now.get other = value other) ∧
    ∀ other, (∀ index < count, ¬ cells index other) → now.get other = before.get other
  · exact ⟨fun index below => absurd below (Nat.not_lt_zero index), fun other _ => rfl⟩
  · rintro index below now ⟨done, kept⟩
    obtain ⟨next, ran, written, others⟩ := pass index below now kept
    refine ⟨next, ran, ?_, ?_⟩
    · intro earlier upTo other member
      by_cases here : cells index other
      · exact written other here
      · rcases Nat.lt_succ_iff_lt_or_eq.mp upTo with old | rfl
        · rw [others other here]
          exact done earlier old other member
        · exact absurd member here
    · intro other outside
      rw [others other (outside index below)]
      exact kept other outside

/-- Passes that each write one cell. -/
theorem forRange_sets [DecidableEq Area] {count : Nat} {cell : Nat → Pointer Area}
    {value : Nat → Value} {body : Nat → Memory Area Value → Option (Memory Area Value)}
    {before : Memory Area Value}
    (apart : ∀ first < count, ∀ second < count, cell first = cell second → first = second)
    (pass : ∀ index < count, ∀ now : Memory Area Value,
      (∀ other, (∀ place < count, other ≠ cell place) → now.get other = before.get other) →
      body index now = some (now.set (cell index) (value index))) :
    ∃ after, forRange count body before = some after ∧
      (∀ index < count, after.get (cell index) = value index) ∧
      ∀ other, (∀ index < count, other ≠ cell index) → after.get other = before.get other := by
  apply forRange_invariant fun passes (now : Memory Area Value) =>
    (∀ index < passes, now.get (cell index) = value index) ∧
    ∀ other, (∀ index < count, other ≠ cell index) → now.get other = before.get other
  · exact ⟨fun index below => absurd below (Nat.not_lt_zero index), fun other _ => rfl⟩
  · rintro index below now ⟨done, kept⟩
    refine ⟨_, pass index below now kept, ?_, ?_⟩
    · intro earlier upTo
      rcases Nat.lt_succ_iff_lt_or_eq.mp upTo with old | rfl
      · rw [Memory.get_set_of_ne]
        · exact done earlier old
        · exact fun same => Nat.ne_of_lt old (apart earlier (by omega) index below same)
      · exact Memory.get_set_self _ _ _
    · intro other outside
      rw [Memory.get_set_of_ne _ _ (outside index below)]
      exact kept other outside

/-- The position is one of the `count` from `start` on. -/
def Pointer.Within (start : Pointer Area) (count : Nat) (other : Pointer Area) : Prop :=
  other.area = start.area ∧ start.offset ≤ other.offset ∧ other.offset < start.offset + count

theorem Pointer.within_advance (start : Pointer Area) {count index : Nat} (below : index < count) :
    start.Within count (start.advance index) :=
  ⟨rfl, Nat.le_add_right _ _, Nat.add_lt_add_left below _⟩

theorem Pointer.Within.mono {start other : Pointer Area} {count more : Nat}
    (within : start.Within count other) (most : count ≤ more) : start.Within more other :=
  ⟨within.1, within.2.1, Nat.lt_of_lt_of_le within.2.2 (Nat.add_le_add_left most _)⟩

theorem Pointer.advance_within (start : Pointer Area) {first count other : Nat} :
    (start.advance first).Within count (start.advance other) ↔
      first ≤ other ∧ other < first + count := by
  simp only [Within, advance, true_and]
  omega

/-- What lies in a part lies in the whole. -/
theorem Pointer.Within.of_advance {start other : Pointer Area} {first count whole : Nat}
    (within : (start.advance first).Within count other) (most : first + count ≤ whole) :
    start.Within whole other := by
  obtain ⟨area, low, high⟩ := within
  rw [Pointer.advance_offset] at low high
  exact ⟨area, by omega, by omega⟩

section Sums

variable [DecidableEq Area] {limit : Nat}

/-- `*target += *source * factor`. -/
def addProduct [Add Value] [Mul Value] (limit : Nat) (target source : Pointer Area)
    (factor : Value) (memory : Memory Area Value) : Option (Memory Area Value) := do
  let sum ← memory.read limit target
  let value ← memory.read limit source
  memory.write limit target (sum + value * factor)

theorem addProduct_inside [Add Value] [Mul Value] {target source : Pointer Area} (factor : Value)
    (memory : Memory Area Value) (room : target.offset < limit) (inside : source.offset < limit) :
    addProduct limit target source factor memory =
      some (memory.set target (memory.get target + memory.get source * factor)) := by
  rw [addProduct, Memory.read_inside _ room, Memory.read_inside _ inside]
  exact Memory.write_inside _ _ room

/-- `*target = {}`, then `*target += *source(index) * factor(index)` for every index. -/
def sumInto [Zero Value] [Add Value] [Mul Value] (limit : Nat) (target : Pointer Area)
    (count : Nat) (source : Nat → Pointer Area) (factor : Nat → Value)
    (memory : Memory Area Value) : Option (Memory Area Value) := do
  let memory ← memory.write limit target 0
  forRange count (fun index => addProduct limit target (source index) (factor index)) memory

/-- The target holds the sum afterwards and nothing else has changed. -/
theorem sumInto_eq [NonUnitalNonAssocSemiring Value] {target : Pointer Area} {count : Nat}
    {source : Nat → Pointer Area} (factor : Nat → Value) (memory : Memory Area Value)
    (room : target.offset < limit) (inside : ∀ index < count, (source index).offset < limit)
    (apart : ∀ index < count, source index ≠ target) :
    sumInto limit target count source factor memory = some (memory.set target
      (∑ index ∈ Finset.range count, memory.get (source index) * factor index)) := by
  have start : memory.set target 0 = memory.set target
      (∑ index ∈ Finset.range 0, memory.get (source index) * factor index) := by
    rw [Finset.sum_range_zero]
  have pass : ∀ index < count, ∀ now, now = memory.set target
        (∑ earlier ∈ Finset.range index, memory.get (source earlier) * factor earlier) →
      ∃ next, addProduct limit target (source index) (factor index) now = some next ∧
        next = memory.set target
          (∑ earlier ∈ Finset.range (index + 1), memory.get (source earlier) * factor earlier) := by
    rintro index below now rfl
    refine ⟨_, addProduct_inside _ _ room (inside index below), ?_⟩
    rw [Memory.set_set, Memory.get_set_self, Memory.get_set_of_ne _ _ (apart index below),
      Finset.sum_range_succ]
  obtain ⟨after, ran, sum⟩ := forRange_invariant (fun passes now => now = memory.set target
    (∑ earlier ∈ Finset.range passes, memory.get (source earlier) * factor earlier)) start pass
  rw [sumInto, Memory.write_inside _ _ room]
  exact ran.trans (congrArg some sum)

/-- Neighbouring targets get a sum each; the sums read other arrays. -/
theorem forRange_sumInto [NonUnitalNonAssocSemiring Value] {target : Pointer Area}
    {targets count : Nat} {source : Nat → Nat → Pointer Area} (factor : Nat → Nat → Value)
    (memory : Memory Area Value) (room : target.offset + targets ≤ limit)
    (inside : ∀ k < targets, ∀ index < count, (source k index).offset < limit)
    (apart : ∀ k < targets, ∀ index < count, (source k index).area ≠ target.area) :
    ∃ after, forRange targets (fun k =>
        sumInto limit (target.advance k) count (source k) (factor k)) memory = some after ∧
      (∀ k < targets, after.get (target.advance k) =
        ∑ index ∈ Finset.range count, memory.get (source k index) * factor k index) ∧
      ∀ other, ¬ target.Within targets other → after.get other = memory.get other := by
  apply forRange_invariant (fun passes (now : Memory Area Value) =>
    (∀ k < passes, now.get (target.advance k) =
      ∑ index ∈ Finset.range count, memory.get (source k index) * factor k index) ∧
    ∀ other, ¬ target.Within passes other → now.get other = memory.get other)
  · exact ⟨fun k below => absurd below (Nat.not_lt_zero k), fun other _ => rfl⟩
  · rintro k below now ⟨sums, kept⟩
    have here : (target.advance k).offset < limit := by
      rw [Pointer.advance_offset]
      omega
    refine ⟨_, sumInto_eq (factor k) now here (inside k below) ?_, ?_, ?_⟩
    · intro index member same
      apply apart k below index member
      rw [same, Pointer.advance_area]
    · intro earlier before
      rcases Nat.lt_succ_iff_lt_or_eq.mp before with old | rfl
      · rw [Memory.get_set_of_ne _ _ (by simp [Pointer.advance]; omega)]
        exact sums earlier old
      · rw [Memory.get_set_self]
        apply Finset.sum_congr rfl
        intro index member
        have far := apart earlier below index (Finset.mem_range.mp member)
        rw [kept _ fun within => far within.1]
    · intro other outside
      have before : ¬ target.Within k other := fun within =>
        outside (within.mono (Nat.le_succ k))
      have different : other ≠ target.advance k := by
        rintro rfl
        exact outside (target.within_advance (Nat.lt_succ_self k))
      rw [Memory.get_set_of_ne _ _ different]
      exact kept other before

end Sums

end LocalWhisper.Machine
