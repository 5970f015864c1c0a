import Mathlib.Data.Nat.ModEq
import Mathlib.Data.List.Basic

/-! `DirectPcm16RingBuffer`: the audio waiting for inference, kept in one
direct storage area and read as two spans. Offsets are byte offsets as in the
source; the storage is addressed by sample, two bytes each. -/

namespace LocalWhisper.Record.Buffer

variable {Sample : Type}

/-- `Short.BYTES`. -/
def shortBytes : Nat := 2

/-- `length` samples of a storage area from `offset` on. -/
def readSpan (storage : Nat → Sample) (offset : Nat) : Nat → List Sample
  | 0 => []
  | length + 1 => storage offset :: readSpan storage (offset + 1) length

@[simp] theorem length_readSpan (storage : Nat → Sample) (offset length : Nat) :
    (readSpan storage offset length).length = length := by
  induction length generalizing offset with
  | zero => rfl
  | succ length ih => simp [readSpan, ih]

@[simp] theorem getElem_readSpan (storage : Nat → Sample) (offset length index : Nat)
    (inside : index < (readSpan storage offset length).length) :
    (readSpan storage offset length)[index] = storage (offset + index) := by
  induction length generalizing offset index with
  | zero => simp [readSpan] at inside
  | succ length ih =>
    cases index with
    | zero => rfl
    | succ index =>
      simp only [readSpan, List.getElem_cons_succ]
      rw [ih]
      congr 1
      omega

/-- `copyBytes`, in samples: everything outside the destination range stays. -/
def copySamples (source : Nat → Sample) (sourceOffset : Nat) (destination : Nat → Sample)
    (destinationOffset count : Nat) : Nat → Sample :=
  fun index =>
    if destinationOffset ≤ index ∧ index < destinationOffset + count then
      source (sourceOffset + (index - destinationOffset))
    else destination index

/-- The exceptions of the ring, by the argument check that raises them. -/
inductive RingError where
  | invalidSource
  | full
  | outsideRing
  | windowOutside
  deriving DecidableEq, Repr

def RingError.message : RingError → String
  | .invalidSource => "invalid direct PCM source"
  | .full => "PCM ring buffer is full"
  | .outsideRing => "discard count is outside ring"
  | .windowOutside => "requested window is outside ring"

/-- The head stays inside the storage and the ring never holds more samples
than its capacity, so no reader of the ring has to check either again. -/
structure DirectPcm16RingBuffer (Sample : Type) where
  storage : Nat → Sample
  capacitySamples : Nat
  headSample : Nat
  sizeSamples : Nat
  headInside : headSample < capacitySamples
  sizeInside : sizeSamples ≤ capacitySamples

namespace DirectPcm16RingBuffer

/-- The constructor; a capacity of zero or beyond the int byte range is refused. -/
def new (blank : Sample) (capacitySamples : Nat)
    (valid : 0 < capacitySamples ∧ capacitySamples ≤ (2 ^ 31 - 1) / shortBytes) :
    DirectPcm16RingBuffer Sample :=
  ⟨fun _ => blank, capacitySamples, 0, 0, valid.1, Nat.zero_le _⟩

def size (ring : DirectPcm16RingBuffer Sample) : Nat := ring.sizeSamples

@[simp] theorem size_eq (ring : DirectPcm16RingBuffer Sample) : ring.size = ring.sizeSamples := rfl

/-- The storage after a copy to the tail, in up to two pieces. -/
def copyToTail (ring : DirectPcm16RingBuffer Sample) (source : Nat → Sample)
    (sampleCount : Nat) : Nat → Sample :=
  let tailSample := (ring.headSample + ring.sizeSamples) % ring.capacitySamples
  let firstSamples := min sampleCount (ring.capacitySamples - tailSample)
  let storage := copySamples source 0 ring.storage tailSample firstSamples
  let secondSamples := sampleCount - firstSamples
  if secondSamples > 0 then copySamples source firstSamples storage 0 secondSamples
  else storage

/-- Copy the first `sampleCount` samples of a source behind the others and
return the number added. -/
def append (ring : DirectPcm16RingBuffer Sample) (source : Nat → Sample)
    (sourceCapacity sampleCount : Nat) :
    Except RingError (DirectPcm16RingBuffer Sample × Nat) :=
  if sampleCount > sourceCapacity then .error .invalidSource
  else if room : sampleCount > ring.capacitySamples - ring.sizeSamples then .error .full
  else .ok ({ ring with
    storage := ring.copyToTail source sampleCount
    sizeSamples := ring.sizeSamples + sampleCount
    sizeInside := by have := ring.sizeInside; omega }, sampleCount)

def firstByteOffset (ring : DirectPcm16RingBuffer Sample) (requestedSamples : Nat) :
    Except RingError Nat :=
  if requestedSamples > ring.sizeSamples then .error .windowOutside
  else .ok (ring.headSample * shortBytes)

def firstSampleCount (ring : DirectPcm16RingBuffer Sample) (requestedSamples : Nat) :
    Except RingError Nat :=
  if requestedSamples > ring.sizeSamples then .error .windowOutside
  else .ok (min requestedSamples (ring.capacitySamples - ring.headSample))

def secondByteOffset (ring : DirectPcm16RingBuffer Sample) (requestedSamples : Nat) :
    Except RingError Nat :=
  if requestedSamples > ring.sizeSamples then .error .windowOutside else .ok 0

def secondSampleCount (ring : DirectPcm16RingBuffer Sample) (requestedSamples : Nat) :
    Except RingError Nat := do
  let first ← ring.firstSampleCount requestedSamples
  return requestedSamples - first

/-- The head after `sampleCount` samples were dropped; an emptied ring starts over. -/
def headAfter (ring : DirectPcm16RingBuffer Sample) (sampleCount : Nat) : Nat :=
  if ring.sizeSamples - sampleCount = 0 then 0
  else (ring.headSample + sampleCount) % ring.capacitySamples

theorem headAfter_lt (ring : DirectPcm16RingBuffer Sample) (sampleCount : Nat) :
    ring.headAfter sampleCount < ring.capacitySamples := by
  have positive := Nat.lt_of_le_of_lt (Nat.zero_le _) ring.headInside
  unfold headAfter
  split
  · exact positive
  · exact Nat.mod_lt _ positive

/-- Drop processed samples from the front and return the number dropped. -/
def discardFirst (ring : DirectPcm16RingBuffer Sample) (sampleCount : Nat) :
    Except RingError (DirectPcm16RingBuffer Sample × Nat) :=
  if sampleCount > ring.sizeSamples then .error .outsideRing
  else .ok ({ ring with
    headSample := ring.headAfter sampleCount
    sizeSamples := ring.sizeSamples - sampleCount
    headInside := ring.headAfter_lt sampleCount
    sizeInside := by have := ring.sizeInside; omega }, sampleCount)

def clear (ring : DirectPcm16RingBuffer Sample) : DirectPcm16RingBuffer Sample :=
  ⟨ring.storage, ring.capacitySamples, 0, 0,
    Nat.lt_of_le_of_lt (Nat.zero_le _) ring.headInside, Nat.zero_le _⟩

/-- The samples a reader of the two spans sees, first span first. -/
def window (ring : DirectPcm16RingBuffer Sample) (requestedSamples : Nat) :
    Except RingError (List Sample) := do
  let firstOffset ← ring.firstByteOffset requestedSamples
  let firstCount ← ring.firstSampleCount requestedSamples
  let secondOffset ← ring.secondByteOffset requestedSamples
  let secondCount ← ring.secondSampleCount requestedSamples
  return readSpan ring.storage (firstOffset / shortBytes) firstCount ++
    readSpan ring.storage (secondOffset / shortBytes) secondCount

def contents (ring : DirectPcm16RingBuffer Sample) : List Sample :=
  (List.range ring.sizeSamples).map fun index =>
    ring.storage ((ring.headSample + index) % ring.capacitySamples)

@[simp] theorem length_contents (ring : DirectPcm16RingBuffer Sample) :
    ring.contents.length = ring.sizeSamples := by
  simp [contents]

theorem getElem_contents (ring : DirectPcm16RingBuffer Sample) (index : Nat)
    (inside : index < ring.contents.length) :
    ring.contents[index] = ring.storage ((ring.headSample + index) % ring.capacitySamples) := by
  simp [contents]

@[simp] theorem contents_clear (ring : DirectPcm16RingBuffer Sample) : ring.clear.contents = [] := rfl

/-- A position counted from the head, with the wrap written out. -/
private theorem wrapped {capacity head index : Nat} (headInside : head < capacity)
    (inside : index < capacity) :
    (head + index) % capacity =
      if head + index < capacity then head + index else head + index - capacity := by
  split
  · rename_i direct
    exact Nat.mod_eq_of_lt direct
  · rename_i around
    rw [Nat.mod_eq_sub_mod (by omega), Nat.mod_eq_of_lt (by omega)]

/-- The two spans of a window are the oldest samples in their order. -/
theorem window_eq_take (ring : DirectPcm16RingBuffer Sample) (requested : Nat)
    (inside : requested ≤ ring.sizeSamples) :
    ring.window requested = .ok (ring.contents.take requested) := by
  have notOutside : ¬ requested > ring.sizeSamples := Nat.not_lt.mpr inside
  have headInside := ring.headInside
  have sizeInside := ring.sizeInside
  simp only [window, firstByteOffset, firstSampleCount, secondByteOffset, secondSampleCount,
    notOutside, ↓reduceIte, bind, Except.bind, pure, Except.pure, Except.ok.injEq]
  apply List.ext_getElem
  · simp only [List.length_append, length_readSpan, List.length_take, length_contents]
    omega
  · intro index left right
    simp only [List.length_append, length_readSpan] at left
    rw [List.getElem_take, getElem_contents, wrapped headInside (by omega)]
    by_cases first : index < min requested (ring.capacitySamples - ring.headSample)
    · rw [List.getElem_append_left (by simpa using first), getElem_readSpan]
      rw [if_pos (by omega)]
      simp [shortBytes]
    · rw [List.getElem_append_right (by simp only [length_readSpan]; omega), getElem_readSpan]
      rw [if_neg (by omega)]
      simp only [length_readSpan, shortBytes]
      congr 1
      omega

private theorem copyToTail_at (ring : DirectPcm16RingBuffer Sample) (source : Nat → Sample)
    (sampleCount index : Nat) (fits : ring.sizeSamples + sampleCount ≤ ring.capacitySamples)
    (inside : index < ring.sizeSamples + sampleCount) :
    ring.copyToTail source sampleCount ((ring.headSample + index) % ring.capacitySamples) =
      if index < ring.sizeSamples then ring.storage ((ring.headSample + index) % ring.capacitySamples)
      else source (index - ring.sizeSamples) := by
  have headInside := ring.headInside
  simp only [copyToTail, wrapped headInside (Nat.lt_of_lt_of_le inside fits)]
  by_cases none : sampleCount = 0
  · subst none
    simp [copySamples, show index < ring.sizeSamples by omega]
  rw [wrapped headInside (by omega)]
  -- both positions, and both pieces of the copy, may lie before or behind the wrap
  split_ifs <;> simp only [copySamples] <;> split_ifs <;>
    first | rfl | omega | (congr 1; omega)

/-- Appending succeeds when the samples fit, and puts them behind the others. -/
theorem append_contents (ring : DirectPcm16RingBuffer Sample) (source : Nat → Sample)
    (sourceCapacity sampleCount : Nat) (provided : sampleCount ≤ sourceCapacity)
    (fits : ring.sizeSamples + sampleCount ≤ ring.capacitySamples) :
    ∃ next, ring.append source sourceCapacity sampleCount = .ok (next, sampleCount) ∧
      next.contents = ring.contents ++ readSpan source 0 sampleCount ∧
      next.capacitySamples = ring.capacitySamples := by
  have accepted : ¬ sampleCount > ring.capacitySamples - ring.sizeSamples := by omega
  refine ⟨{ ring with
    storage := ring.copyToTail source sampleCount
    sizeSamples := ring.sizeSamples + sampleCount
    sizeInside := fits }, by rw [append, if_neg (Nat.not_lt.mpr provided), dif_neg accepted], ?_, rfl⟩
  apply List.ext_getElem
  · simp
  · intro index left right
    simp only [length_contents] at left
    rw [getElem_contents]
    refine (ring.copyToTail_at source sampleCount index fits left).trans ?_
    split
    · rename_i old
      rw [List.getElem_append_left (by simpa using old), getElem_contents]
    · rename_i new
      rw [List.getElem_append_right (by simpa using new), getElem_readSpan]
      simp

/-- Discarding drops from the front, whether or not the head starts over. -/
theorem discardFirst_contents (ring : DirectPcm16RingBuffer Sample) (sampleCount : Nat)
    (inside : sampleCount ≤ ring.sizeSamples) :
    ∃ next, ring.discardFirst sampleCount = .ok (next, sampleCount) ∧
      next.contents = ring.contents.drop sampleCount ∧
      next.capacitySamples = ring.capacitySamples := by
  refine ⟨{ ring with
    headSample := ring.headAfter sampleCount
    sizeSamples := ring.sizeSamples - sampleCount
    headInside := ring.headAfter_lt sampleCount
    sizeInside := Nat.le_trans (Nat.sub_le _ _) ring.sizeInside },
    by rw [discardFirst, if_neg (Nat.not_lt.mpr inside)], ?_, rfl⟩
  apply List.ext_getElem
  · simp
  · intro index left right
    simp only [length_contents] at left
    rw [List.getElem_drop, getElem_contents, getElem_contents]
    simp only [headAfter]
    rw [if_neg (by omega), Nat.mod_add_mod]
    congr 2
    omega

end DirectPcm16RingBuffer

end LocalWhisper.Record.Buffer
