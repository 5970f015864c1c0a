import LocalWhisper.NativeAudio.FloatConverter
import LocalWhisper.Record.Buffer.RingBuffer

/-! The ring as a queue: every history of calls leaves the list that appending,
dropping and emptying leave, and the spans that the native side reads are the
front of that list. -/

namespace LocalWhisper.Record.Buffer

open LocalWhisper.NativeAudio

variable {Sample Value : Type}

/-- A byte buffer of a caller whose limit is its capacity, other than the storage
of the ring; `samples` are its 16-bit cells. -/
structure SourceBuffer (Sample : Type) where
  isDirect : Bool
  capacity : Nat
  samples : Nat → Sample

/-- The calls that change a ring, with int arguments. -/
inductive RingCall (Sample : Type) where
  | append (source : SourceBuffer Sample) (sampleCount : Int)
  | discardFirst (sampleCount : Int)
  | clear

/-- The first argument check of `append`. -/
def SourceBuffer.Invalid (source : SourceBuffer Sample) (sampleCount : Int) : Prop :=
  source.isDirect = false ∨ sampleCount < 0 ∨ sampleCount > (source.capacity / shortBytes : Nat)

instance (source : SourceBuffer Sample) (sampleCount : Int) :
    Decidable (source.Invalid sampleCount) :=
  inferInstanceAs (Decidable (_ ∨ _ ∨ _))

/-- The four numbers that the native side gets for a window. -/
structure Spans where
  firstByteOffset : Nat
  firstSampleCount : Nat
  secondByteOffset : Nat
  secondSampleCount : Nat
  deriving DecidableEq, Repr

namespace DirectPcm16RingBuffer

/-- A call with the ring that it leaves behind, returning or throwing. -/
def call (ring : DirectPcm16RingBuffer Sample) :
    RingCall Sample → DirectPcm16RingBuffer Sample × Except RingError (Option Int)
  | .append source sampleCount =>
    if source.Invalid sampleCount then (ring, .error .invalidSource)
    else
      match ring.append source.samples (source.capacity / shortBytes) sampleCount.toNat with
      | .ok (next, added) => (next, .ok (some added))
      | .error error => (ring, .error error)
  | .discardFirst sampleCount =>
    if sampleCount < 0 then (ring, .error .outsideRing)
    else
      match ring.discardFirst sampleCount.toNat with
      | .ok (next, dropped) => (next, .ok (some dropped))
      | .error error => (ring, .error error)
  | .clear => (ring.clear, .ok none)

def after (ring : DirectPcm16RingBuffer Sample) (calls : List (RingCall Sample)) :
    DirectPcm16RingBuffer Sample :=
  calls.foldl (fun ring call => (ring.call call).1) ring

/-- The arguments of a transcription of the first `requestedSamples` samples. -/
def spans (ring : DirectPcm16RingBuffer Sample) (requestedSamples : Nat) :
    Except RingError Spans := do
  return ⟨← ring.firstByteOffset requestedSamples, ← ring.firstSampleCount requestedSamples,
    ← ring.secondByteOffset requestedSamples, ← ring.secondSampleCount requestedSamples⟩

/-- What the native side makes of the storage and the spans. -/
def floats (ring : DirectPcm16RingBuffer Sample) (neon : Bool) (convert : Sample → Value)
    (resized : Nat → Value) (spans : Spans) : Except String (List Value) :=
  pcm16SpansToFloatVector neon convert
    (some fun index => ring.storage (spans.firstByteOffset / shortBytes + index))
    spans.firstSampleCount
    (some fun index => ring.storage (spans.secondByteOffset / shortBytes + index))
    spans.secondSampleCount resized

end DirectPcm16RingBuffer

/-- The same calls on a plain list with a bound on its length. -/
def fifoCall (capacity : Nat) (items : List Sample) :
    RingCall Sample → List Sample × Except RingError (Option Int)
  | .append source sampleCount =>
    if source.Invalid sampleCount then (items, .error .invalidSource)
    else if items.length + sampleCount > capacity then (items, .error .full)
    else (items ++ readSpan source.samples 0 sampleCount.toNat, .ok (some sampleCount))
  | .discardFirst sampleCount =>
    if sampleCount < 0 ∨ sampleCount > items.length then (items, .error .outsideRing)
    else (items.drop sampleCount.toNat, .ok (some sampleCount))
  | .clear => ([], .ok none)

def fifoAfter (capacity : Nat) (items : List Sample) (calls : List (RingCall Sample)) :
    List Sample :=
  calls.foldl (fun items call => (fifoCall capacity items call).1) items

namespace DirectPcm16RingBuffer

private theorem append_full (ring : DirectPcm16RingBuffer Sample) (source : Nat → Sample)
    {sourceCapacity sampleCount : Nat} (provided : sampleCount ≤ sourceCapacity)
    (overflow : ring.capacitySamples < ring.sizeSamples + sampleCount) :
    ring.append source sourceCapacity sampleCount = .error .full := by
  have sizeInside := ring.sizeInside
  rw [append, if_neg (Nat.not_lt.mpr provided), dif_pos (by omega)]

theorem call_refines (ring : DirectPcm16RingBuffer Sample) (call : RingCall Sample) :
    (ring.call call).1.contents = (fifoCall ring.capacitySamples ring.contents call).1 ∧
      (ring.call call).2 = (fifoCall ring.capacitySamples ring.contents call).2 ∧
      (ring.call call).1.capacitySamples = ring.capacitySamples := by
  cases call with
  | append source sampleCount =>
    simp only [DirectPcm16RingBuffer.call, fifoCall, length_contents]
    by_cases invalid : source.Invalid sampleCount
    · rw [if_pos invalid, if_pos invalid]
      exact ⟨rfl, rfl, rfl⟩
    rw [if_neg invalid, if_neg invalid]
    have bounds : 0 ≤ sampleCount ∧ sampleCount ≤ (source.capacity / shortBytes : Nat) := by
      simp only [SourceBuffer.Invalid, not_or, Int.not_lt] at invalid
      exact invalid.2
    obtain ⟨count, rfl⟩ := Int.eq_ofNat_of_zero_le bounds.1
    have provided : count ≤ source.capacity / shortBytes := Int.ofNat_le.mp bounds.2
    by_cases overflow : ring.capacitySamples < ring.sizeSamples + count
    · rw [if_pos (by omega), Int.toNat_natCast, append_full ring _ provided overflow]
      exact ⟨rfl, rfl, rfl⟩
    · rw [if_neg (by omega), Int.toNat_natCast]
      obtain ⟨next, taken, contents, capacity⟩ :=
        ring.append_contents source.samples _ count provided (by omega)
      rw [taken]
      exact ⟨contents, rfl, capacity⟩
  | discardFirst sampleCount =>
    simp only [DirectPcm16RingBuffer.call, fifoCall, length_contents]
    by_cases negative : sampleCount < 0
    · rw [if_pos negative, if_pos (Or.inl negative)]
      exact ⟨rfl, rfl, rfl⟩
    obtain ⟨count, rfl⟩ := Int.eq_ofNat_of_zero_le (Int.not_lt.mp negative)
    rw [if_neg negative, Int.toNat_natCast]
    by_cases outside : ring.sizeSamples < count
    · rw [if_pos (Or.inr (by omega)), DirectPcm16RingBuffer.discardFirst, if_pos outside]
      exact ⟨rfl, rfl, rfl⟩
    · rw [if_neg (by omega)]
      obtain ⟨next, taken, contents, capacity⟩ :=
        ring.discardFirst_contents count (Nat.not_lt.mp outside)
      rw [taken]
      exact ⟨contents, rfl, capacity⟩
  | clear => exact ⟨rfl, rfl, rfl⟩

theorem after_refines (ring : DirectPcm16RingBuffer Sample) (calls : List (RingCall Sample)) :
    (ring.after calls).contents = fifoAfter ring.capacitySamples ring.contents calls ∧
      (ring.after calls).capacitySamples = ring.capacitySamples := by
  induction calls generalizing ring with
  | nil => exact ⟨rfl, rfl⟩
  | cons call rest ih =>
    obtain ⟨same, -, capacity⟩ := ring.call_refines call
    obtain ⟨contents, kept⟩ := ih (ring.call call).1
    rw [capacity, same] at contents
    exact ⟨contents, kept.trans capacity⟩

theorem append_throws_iff (ring : DirectPcm16RingBuffer Sample) (source : SourceBuffer Sample)
    (sampleCount : Int) :
    (∃ error, (ring.call (.append source sampleCount)).2 = .error error) ↔
      source.Invalid sampleCount ∨ ring.contents.length + sampleCount > ring.capacitySamples := by
  rw [(ring.call_refines (.append source sampleCount)).2.1, fifoCall]
  split
  · next invalid => simp [invalid]
  split
  · next invalid overflow => exact iff_of_true ⟨.full, rfl⟩ (.inr overflow)
  · next invalid overflow =>
    apply iff_of_false
    · rintro ⟨error, thrown⟩
      cases thrown
    · exact not_or.mpr ⟨invalid, overflow⟩

private theorem throw_keeps (ring : DirectPcm16RingBuffer Sample) (call : RingCall Sample)
    (thrown : ∃ error, (ring.call call).2 = .error error) :
    (ring.call call).1.contents = ring.contents := by
  obtain ⟨error, thrown⟩ := thrown
  obtain ⟨contents, result, -⟩ := ring.call_refines call
  rw [result] at thrown
  rw [contents]
  cases call with
  | append source sampleCount =>
    simp only [fifoCall] at thrown ⊢
    split_ifs at thrown ⊢
    · rfl
    · rfl
  | discardFirst sampleCount =>
    simp only [fifoCall] at thrown ⊢
    split_ifs at thrown ⊢
    rfl
  | clear => cases thrown

theorem spans_eq (ring : DirectPcm16RingBuffer Sample) {requested : Nat}
    (inside : requested ≤ ring.size) :
    ring.spans requested = .ok ⟨ring.headSample * shortBytes,
      min requested (ring.capacitySamples - ring.headSample), 0,
      requested - min requested (ring.capacitySamples - ring.headSample)⟩ := by
  have notOutside : ¬ requested > ring.sizeSamples := Nat.not_lt.mpr inside
  simp only [spans, firstByteOffset, firstSampleCount, secondByteOffset, secondSampleCount,
    notOutside, ↓reduceIte, bind, Except.bind, pure, Except.pure]

private theorem spans_inside (ring : DirectPcm16RingBuffer Sample) {requested : Nat} {spans : Spans}
    (inside : requested ≤ ring.size) (taken : ring.spans requested = .ok spans) :
    spans.firstByteOffset + spans.firstSampleCount * shortBytes ≤
        ring.capacitySamples * shortBytes ∧
      spans.secondByteOffset + spans.secondSampleCount * shortBytes ≤ spans.firstByteOffset := by
  have headInside := ring.headInside
  have fits : requested ≤ ring.capacitySamples := Nat.le_trans inside ring.sizeInside
  rw [ring.spans_eq inside] at taken
  cases taken
  simp only [shortBytes]
  omega

theorem readSpan_eq_map (storage : Nat → Sample) (offset length : Nat) :
    readSpan storage offset length =
      (List.range length).map fun index => storage (offset + index) := by
  apply List.ext_getElem
  · simp
  · intro index left right
    simp

theorem floats_eq_take (ring : DirectPcm16RingBuffer Sample) {requested : Nat} {spans : Spans}
    (inside : requested ≤ ring.size) (taken : ring.spans requested = .ok spans)
    (addressable : ring.capacitySamples ≤ sizeMax) (neon : Bool) (convert : Sample → Value)
    (resized : Nat → Value) :
    ring.floats neon convert resized spans = .ok ((ring.contents.take requested).map convert) := by
  have notOutside : ¬ requested > ring.sizeSamples := Nat.not_lt.mpr inside
  have front := ring.window_eq_take requested inside
  have fits : requested ≤ ring.capacitySamples := Nat.le_trans inside ring.sizeInside
  simp only [window, firstByteOffset, firstSampleCount, secondByteOffset, secondSampleCount,
    notOutside, ↓reduceIte, bind, Except.bind, pure, Except.pure, Except.ok.injEq] at front
  rw [ring.spans_eq inside] at taken
  cases taken
  rw [floats, pcm16SpansToFloatVector_eq _ _ _ _ _ (by simp only; omega), ← front,
    List.map_append, readSpan_eq_map, readSpan_eq_map, List.map_map, List.map_map]
  rfl

/-- No int expression of the ring overflows: neither a position before its
remainder is taken, nor a byte offset or byte count. -/
theorem positions_fit (ring : DirectPcm16RingBuffer Sample) {sampleCount : Nat}
    (accepted : ring.capacitySamples ≤ (2 ^ 31 - 1) / shortBytes)
    (inside : sampleCount ≤ ring.capacitySamples) :
    ring.headSample + ring.sizeSamples < 2 ^ 31 ∧ ring.headSample + sampleCount < 2 ^ 31 ∧
      ring.capacitySamples * shortBytes < 2 ^ 31 := by
  have headInside := ring.headInside
  have sizeInside := ring.sizeInside
  simp only [shortBytes] at accepted ⊢
  omega

/-- After any history of calls the ring holds what the list holds, the spans of a
window lie in the storage, apart from each other, and read the front of the
list; and `append` throws in two cases only, with the contents kept. -/
theorem ring_refines_fifo (blank : Sample) (capacity : Nat)
    (valid : 0 < capacity ∧ capacity ≤ (2 ^ 31 - 1) / shortBytes)
    (calls : List (RingCall Sample)) :
    ((new blank capacity valid).after calls).contents = fifoAfter capacity [] calls ∧
    (∀ requested ≤ ((new blank capacity valid).after calls).size,
      ∃ spans, ((new blank capacity valid).after calls).spans requested = .ok spans ∧
        spans.firstByteOffset + spans.firstSampleCount * shortBytes ≤ capacity * shortBytes ∧
        spans.secondByteOffset + spans.secondSampleCount * shortBytes ≤ spans.firstByteOffset ∧
        ∀ (neon : Bool) (convert : Sample → Value) (resized : Nat → Value),
          ((new blank capacity valid).after calls).floats neon convert resized spans =
            .ok (((fifoAfter capacity [] calls).take requested).map convert)) ∧
    (∀ source sampleCount,
      (∃ error, (((new blank capacity valid).after calls).call (.append source sampleCount)).2 =
        .error error) ↔
      source.Invalid sampleCount ∨
        (fifoAfter capacity [] calls).length + sampleCount > capacity) ∧
    ∀ call, (∃ error, (((new blank capacity valid).after calls).call call).2 = .error error) →
      (((new blank capacity valid).after calls).call call).1.contents =
        ((new blank capacity valid).after calls).contents := by
  obtain ⟨contents, kept⟩ := (new blank capacity valid).after_refines calls
  have same : ((new blank capacity valid).after calls).contents = fifoAfter capacity [] calls :=
    contents
  have capacityIs : ((new blank capacity valid).after calls).capacitySamples = capacity := kept
  refine ⟨same, ?_, ?_, ?_⟩
  · intro requested inside
    refine ⟨_, spans_eq _ inside, ?_⟩
    obtain ⟨first, second⟩ := spans_inside _ inside (spans_eq _ inside)
    rw [capacityIs] at first
    refine ⟨by rw [capacityIs]; exact first, second, ?_⟩
    intro neon convert resized
    have addressable : ((new blank capacity valid).after calls).capacitySamples ≤ sizeMax := by
      rw [capacityIs]
      exact Nat.le_trans valid.2 (by decide)
    rw [floats_eq_take _ inside (spans_eq _ inside) addressable, same]
  · intro source sampleCount
    rw [append_throws_iff, same, capacityIs]
  · exact fun call => throw_keeps _ call

/-- Three samples in a ring of four, two dropped, three more: the window wraps. -/
theorem ring_refines_fifo_wrapped :
    let source : SourceBuffer Nat := ⟨true, 6, fun index => index⟩
    let ring := (new 0 4 (by decide)).after
      [.append source 3, .discardFirst 2, .append source 3]
    ring.contents = [2, 0, 1, 2] ∧ ∃ spans, ring.spans 4 = .ok spans ∧
      ring.floats true (fun sample => sample) (fun _ => 0) spans = .ok [2, 0, 1, 2] := by
  intro source ring
  have items : fifoAfter 4 [] [.append source 3, .discardFirst 2, .append source 3] =
      [2, 0, 1, 2] := by decide
  obtain ⟨contents, windows, -, -⟩ := ring_refines_fifo 0 4 (by decide)
    [.append source 3, .discardFirst 2, .append source 3]
  obtain ⟨spans, taken, -, -, read⟩ := windows 4 (by decide)
  rw [items] at contents read
  exact ⟨contents, spans, taken, read true (fun sample => sample) fun _ => 0⟩

end DirectPcm16RingBuffer

end LocalWhisper.Record.Buffer
