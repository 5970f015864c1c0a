import Mathlib.Algebra.Group.Nat.Defs
import Mathlib.Data.List.TakeWhile
import LocalWhisper.Machine.Unicode

/-! `utf-converter.cpp`: text between the UTF-16 of Java and the UTF-8 of the
native libraries. A `std::string` is the list of its bytes. -/

namespace LocalWhisper.NativeText

open Machine.Unicode

abbrev Bytes := List UInt8

def replacementCharacter : Nat := 0xFFFD

/-- `append_utf16`: the appended units. -/
def appendUtf16 (point : Nat) : List UInt16 :=
  if point ≤ 0xFFFF then [UInt16.ofNat point]
  else
    let value := point - 0x10000
    [UInt16.ofNat (0xD800 + (value >>> 10)), UInt16.ofNat (0xDC00 + (value &&& 0x3FF))]

/-- `append_utf8`: the appended bytes. -/
def appendUtf8 (point : Nat) : Bytes :=
  if point ≤ 0x7F then [UInt8.ofNat point]
  else if point ≤ 0x7FF then
    [UInt8.ofNat (0xC0 ||| point >>> 6), UInt8.ofNat (0x80 ||| point &&& 0x3F)]
  else if point ≤ 0xFFFF then
    [UInt8.ofNat (0xE0 ||| point >>> 12), UInt8.ofNat (0x80 ||| (point >>> 6) &&& 0x3F),
      UInt8.ofNat (0x80 ||| point &&& 0x3F)]
  else
    [UInt8.ofNat (0xF0 ||| point >>> 18), UInt8.ofNat (0x80 ||| (point >>> 12) &&& 0x3F),
      UInt8.ofNat (0x80 ||| (point >>> 6) &&& 0x3F), UInt8.ofNat (0x80 ||| point &&& 0x3F)]

/-- `is_continuation`. -/
def isContinuation (value : UInt8) : Bool := value.toNat &&& 0xC0 == 0x80

/-- `sequence_length` and the initial `point` of a first byte above 7F. -/
def sequenceStart (first : Nat) : Option (Nat × Nat) :=
  if first ≥ 0xC2 ∧ first ≤ 0xDF then some (2, first &&& 0x1F)
  else if first ≥ 0xE0 ∧ first ≤ 0xEF then some (3, first &&& 0x0F)
  else if first ≥ 0xF0 ∧ first ≤ 0xF4 then some (4, first &&& 0x07)
  else none

/-- `valid_length` after its loop; `rest` follows the first byte. -/
def validLength (sequenceLength : Nat) (rest : Bytes) : Nat :=
  1 + ((rest.take (sequenceLength - 1)).takeWhile isContinuation).length

/-- `invalid_range`. -/
def invalidRange (first second : Nat) : Bool :=
  (first == 0xE0 && decide (second < 0xA0))
    || (first == 0xED && decide (second > 0x9F))
    || (first == 0xF0 && decide (second < 0x90))
    || (first == 0xF4 && decide (second > 0x8F))

/-- The loop that completes `point`. -/
def completePoint (point : Nat) (continuation : Bytes) : Nat :=
  continuation.foldl (fun point byte => (point <<< 6) ||| (byte.toNat &&& 0x3F)) point

/-- One pass of the decoder's loop: the appended units and the increment of `index`. -/
def decodePass (first : Nat) (rest : Bytes) : List UInt16 × Nat :=
  if first ≤ 0x7F then ([UInt16.ofNat first], 1)
  else
    match sequenceStart first with
    | none => (appendUtf16 replacementCharacter, 1)
    | some (sequenceLength, point) =>
      if validLength sequenceLength rest ≠ sequenceLength then
        (appendUtf16 replacementCharacter, validLength sequenceLength rest)
      else if invalidRange first (rest.headD 0).toNat then
        (appendUtf16 replacementCharacter, sequenceLength)
      else
        (appendUtf16 (completePoint point (rest.take (sequenceLength - 1))), sequenceLength)

private theorem sequenceLength_pos {first sequenceLength point : Nat}
    (start : sequenceStart first = some (sequenceLength, point)) : 0 < sequenceLength := by
  unfold sequenceStart at start
  split at start
  · cases start
    decide
  split at start
  · cases start
    decide
  split at start
  · cases start
    decide
  · cases start

theorem decodePass_pos (first : Nat) (rest : Bytes) : 0 < (decodePass first rest).2 := by
  unfold decodePass
  split
  · exact Nat.one_pos
  split
  · exact Nat.one_pos
  · next sequenceLength point start =>
    have positive := sequenceLength_pos start
    split
    · simp only [validLength]
      omega
    split
    · exact positive
    · exact positive

/-- `utf8_to_utf16_replacing_invalid`, the bytes from `index` on. -/
def utf8ToUtf16ReplacingInvalid : Bytes → List UInt16
  | [] => []
  | first :: rest =>
    (decodePass first.toNat rest).1 ++
      utf8ToUtf16ReplacingInvalid ((first :: rest).drop (decodePass first.toNat rest).2)
termination_by bytes => bytes.length
decreasing_by
  have moved := decodePass_pos first.toNat rest
  simp only [List.length_drop, List.length_cons]
  omega

/-- The loop of `utf16_to_utf8_replacing_invalid`. A pair takes two units in one
pass. -/
def encodeUnits : List UInt16 → Bytes
  | [] => []
  | first :: rest =>
    if first.toNat ≥ 0xD800 ∧ first.toNat ≤ 0xDBFF then
      match rest with
      | [] => appendUtf8 replacementCharacter ++ encodeUnits []
      | second :: later =>
        if second.toNat ≥ 0xDC00 ∧ second.toNat ≤ 0xDFFF then
          appendUtf8 (0x10000 + ((first.toNat - 0xD800) <<< 10) + (second.toNat - 0xDC00)) ++
            encodeUnits later
        else appendUtf8 replacementCharacter ++ encodeUnits (second :: later)
    else if first.toNat ≥ 0xDC00 ∧ first.toNat ≤ 0xDFFF then
      appendUtf8 replacementCharacter ++ encodeUnits rest
    else appendUtf8 first.toNat ++ encodeUnits rest

/-- `utf16_to_utf8_replacing_invalid`; `none` is a null pointer. -/
def utf16ToUtf8ReplacingInvalid (text : Option (List UInt16)) (length : Nat) :
    Except String Bytes :=
  match text with
  | some units => .ok (encodeUnits (units.take length))
  | none =>
    if length ≠ 0 then .error "UTF-16 text must not be null when length is nonzero"
    else .ok []

theorem or_eq_add (width : Nat) {lead value : Nat} (aligned : lead % 2 ^ width = 0)
    (small : value < 2 ^ width) : lead ||| value = lead + value := by
  have whole : lead = 2 ^ width * (lead / 2 ^ width) :=
    (Nat.mul_div_cancel' (Nat.dvd_of_mod_eq_zero aligned)).symm
  rw [whole, Nat.two_pow_add_eq_or_of_lt small]

private theorem or_continuation (value : Nat) : 0x80 ||| value &&& 0x3F = value % 0x40 + 0x80 := by
  have low : value &&& 0x3F = value % 0x40 := Nat.and_two_pow_sub_one_eq_mod value 6
  have sum : 0x80 ||| value % 0x40 = 0x80 + value % 0x40 := or_eq_add 6 (by decide) (by omega)
  rw [low, sum, Nat.add_comm]

theorem appendUtf8_char (character : Char) :
    appendUtf8 character.toNat = String.utf8EncodeChar character := by
  have valid := scalar character
  unfold appendUtf8 String.utf8EncodeChar
  simp only [or_continuation, Nat.shiftRight_eq_div_pow, Nat.reducePow, Char.toNat_val]
  split
  · rfl
  split
  · next two =>
    have lead : 0xC0 ||| character.toNat / 64 = 0xC0 + character.toNat / 64 :=
      or_eq_add 6 (by decide) (by omega)
    rw [lead, show 0xC0 + character.toNat / 64 = character.toNat / 64 % 0x20 + 0xC0 by omega]
  split
  · next three =>
    have lead : 0xE0 ||| character.toNat / 4096 = 0xE0 + character.toNat / 4096 :=
      or_eq_add 4 (by decide) (by omega)
    rw [lead, show 0xE0 + character.toNat / 4096 = character.toNat / 4096 % 0x10 + 0xE0 by omega]
  · next four =>
    have lead : 0xF0 ||| character.toNat / 262144 = 0xF0 + character.toNat / 262144 :=
      or_eq_add 4 (by decide) (by omega)
    rw [lead,
      show 0xF0 + character.toNat / 262144 = character.toNat / 262144 % 0x08 + 0xF0 by omega]

theorem appendUtf16_char (character : Char) :
    appendUtf16 character.toNat = utf16EncodeChar character := by
  unfold appendUtf16 utf16EncodeChar
  by_cases small : character.toNat < 0x10000
  · rw [if_pos (show character.toNat ≤ 0xFFFF by omega), if_pos small]
  · rw [if_neg (show ¬ character.toNat ≤ 0xFFFF by omega), if_neg small]
    have low := Nat.and_two_pow_sub_one_eq_mod (character.toNat - 0x10000) 10
    simp only [Nat.shiftRight_eq_div_pow, Nat.reducePow,
      show character.toNat - 0x10000 &&& 0x3FF = (character.toNat - 0x10000) % 0x400 from low]

theorem isContinuation_iff (value : UInt8) :
    isContinuation value = true ↔ 0x80 ≤ value.toNat ∧ value.toNat ≤ 0xBF := by
  have table : ∀ byte < 256, ((byte &&& 0xC0) == 0x80) = decide (0x80 ≤ byte ∧ byte ≤ 0xBF) := by
    decide +kernel
  rw [isContinuation, table _ (toNat_lt8 value), decide_eq_true_eq]

private theorem validLength_all {continuation : Bytes}
    (all : ∀ byte ∈ continuation, isContinuation byte = true) (later : Bytes) :
    validLength (continuation.length + 1) (continuation ++ later) = continuation.length + 1 := by
  have taken : (continuation ++ later).take (continuation.length + 1 - 1) = continuation := by
    simp
  rw [validLength, taken, List.takeWhile_eq_self_iff.mpr all, Nat.add_comm]

/-- A whole sequence starts with as many continuation bytes as announced. -/
theorem continuation_of_validLength {sequenceLength : Nat} {rest : Bytes}
    (whole : validLength (sequenceLength + 1) rest = sequenceLength + 1) :
    (rest.take sequenceLength).length = sequenceLength ∧
      ∀ byte ∈ rest.take sequenceLength, isContinuation byte = true := by
  have counted : ((rest.take sequenceLength).takeWhile isContinuation).length =
      sequenceLength := by
    rw [validLength] at whole
    have reduced : sequenceLength + 1 - 1 = sequenceLength := rfl
    rw [reduced] at whole
    omega
  have front : (rest.take sequenceLength).takeWhile isContinuation <+: rest.take sequenceLength :=
    List.takeWhile_prefix _
  have bound := List.length_take_le sequenceLength rest
  have same : (rest.take sequenceLength).takeWhile isContinuation = rest.take sequenceLength :=
    front.eq_of_length_le (by omega)
  constructor
  · rw [← same, counted]
  · exact List.takeWhile_eq_self_iff.mp same

theorem completePoint_cons (point : Nat) (byte : UInt8) (continuation : Bytes) :
    completePoint point (byte :: continuation) =
      completePoint (point * 64 + byte.toNat % 64) continuation := by
  have low : byte.toNat &&& 0x3F = byte.toNat % 64 :=
    Nat.and_two_pow_sub_one_eq_mod byte.toNat 6
  have high : point <<< 6 = point * 64 := Nat.shiftLeft_eq point 6
  have step : (point <<< 6) ||| (byte.toNat &&& 0x3F) = point * 64 + byte.toNat % 64 := by
    rw [low, high]
    exact or_eq_add 6 (by omega) (by omega)
  rw [completePoint, List.foldl_cons, step, ← completePoint]

@[simp] theorem completePoint_nil (point : Nat) : completePoint point [] = point := rfl

theorem sequenceStart_two {first : Nat} (range : 0xC2 ≤ first ∧ first ≤ 0xDF) :
    sequenceStart first = some (2, first - 0xC0) := by
  have low : first &&& 0x1F = first % 0x20 := Nat.and_two_pow_sub_one_eq_mod first 5
  rw [sequenceStart, if_pos range, low, show first % 0x20 = first - 0xC0 by omega]

theorem sequenceStart_three {first : Nat} (range : 0xE0 ≤ first ∧ first ≤ 0xEF) :
    sequenceStart first = some (3, first - 0xE0) := by
  have low : first &&& 0x0F = first % 0x10 := Nat.and_two_pow_sub_one_eq_mod first 4
  rw [sequenceStart, if_neg (by omega), if_pos range, low,
    show first % 0x10 = first - 0xE0 by omega]

theorem sequenceStart_four {first : Nat} (range : 0xF0 ≤ first ∧ first ≤ 0xF4) :
    sequenceStart first = some (4, first - 0xF0) := by
  have low : first &&& 0x07 = first % 0x08 := Nat.and_two_pow_sub_one_eq_mod first 3
  rw [sequenceStart, if_neg (by omega), if_neg (by omega), if_pos range, low,
    show first % 0x08 = first - 0xF0 by omega]

private theorem sequenceStart_none {first : Nat} (range : first < 0xC2 ∨ 0xF4 < first) :
    sequenceStart first = none := by
  rw [sequenceStart, if_neg (by omega), if_neg (by omega), if_neg (by omega)]

theorem invalidRange_eq_false_iff (first second : Nat) :
    invalidRange first second = false ↔
      (first = 0xE0 → 0xA0 ≤ second) ∧ (first = 0xED → second ≤ 0x9F) ∧
        (first = 0xF0 → 0x90 ≤ second) ∧ (first = 0xF4 → second ≤ 0x8F) := by
  simp only [invalidRange, Bool.or_eq_false_iff, Bool.and_eq_false_iff, beq_eq_false_iff_ne,
    decide_eq_false_iff_not]
  omega

private theorem decodePass_whole {first point : Nat} {second : UInt8} {more : Bytes}
    (start : sequenceStart first = some (more.length + 2, point)) (above : 0x7F < first)
    (all : ∀ byte ∈ second :: more, isContinuation byte = true) (later : Bytes) :
    decodePass first (second :: more ++ later) =
      (if invalidRange first second.toNat then appendUtf16 replacementCharacter
        else appendUtf16 (completePoint point (second :: more)), more.length + 2) := by
  have whole : validLength (more.length + 2) (second :: more ++ later) = more.length + 2 :=
    validLength_all all later
  have taken : (second :: more ++ later).take (more.length + 2 - 1) = second :: more := by
    simp
  have next : (second :: more ++ later).headD 0 = second := rfl
  rw [decodePass, if_neg (by omega), start]
  simp only [whole, ne_eq, not_true_eq_false, if_false, taken, next]
  split
  · rfl
  · rfl

theorem decodePass_valid {first point : Nat} {second : UInt8} {more : Bytes} {character : Char}
    (start : sequenceStart first = some (more.length + 2, point)) (above : 0x7F < first)
    (all : ∀ byte ∈ second :: more, isContinuation byte = true)
    (inRange : invalidRange first second.toNat = false)
    (complete : completePoint point (second :: more) = character.toNat) (later : Bytes) :
    decodePass first (second :: more ++ later) =
      (utf16EncodeChar character, more.length + 2) := by
  rw [decodePass_whole start above all, inRange, complete, appendUtf16_char]
  rfl

theorem toNat_continuation (value : Nat) :
    (UInt8.ofNat (value % 0x40 + 0x80)).toNat = value % 0x40 + 0x80 := by
  rw [toNat_ofNat8]
  omega

theorem isContinuation_encoded (value : Nat) :
    isContinuation (UInt8.ofNat (value % 0x40 + 0x80)) = true := by
  rw [isContinuation_iff, toNat_continuation]
  omega

theorem completePoint_encoded (point value : Nat) (continuation : Bytes) :
    completePoint point (UInt8.ofNat (value % 0x40 + 0x80) :: continuation) =
      completePoint (point * 64 + value % 0x40) continuation := by
  have low : (value % 0x40 + 0x80) % 64 = value % 0x40 := by omega
  rw [completePoint_cons, toNat_continuation, low]

private theorem decodePass_two {character : Char} (above : 0x7F < character.toNat)
    (atMost : character.toNat ≤ 0x7FF) (later : Bytes) :
    decodePass (UInt8.ofNat (character.toNat / 64 % 0x20 + 0xC0)).toNat
      ([UInt8.ofNat (character.toNat % 0x40 + 0x80)] ++ later) =
      (utf16EncodeChar character, 2) := by
  have lead : (UInt8.ofNat (character.toNat / 64 % 0x20 + 0xC0)).toNat =
      character.toNat / 64 + 0xC0 := by
    rw [toNat_ofNat8]
    omega
  rw [lead]
  apply decodePass_valid (sequenceStart_two (by omega)) (by omega)
  · exact List.forall_mem_singleton.mpr (isContinuation_encoded _)
  · rw [invalidRange_eq_false_iff, toNat_continuation]
    omega
  · rw [completePoint_encoded, completePoint_nil]
    omega

private theorem decodePass_three {character : Char} (above : 0x7FF < character.toNat)
    (atMost : character.toNat ≤ 0xFFFF) (later : Bytes) :
    decodePass (UInt8.ofNat (character.toNat / 4096 % 0x10 + 0xE0)).toNat
      ([UInt8.ofNat (character.toNat / 64 % 0x40 + 0x80),
        UInt8.ofNat (character.toNat % 0x40 + 0x80)] ++ later) =
      (utf16EncodeChar character, 3) := by
  have valid := scalar character
  have lead : (UInt8.ofNat (character.toNat / 4096 % 0x10 + 0xE0)).toNat =
      character.toNat / 4096 + 0xE0 := by
    rw [toNat_ofNat8]
    omega
  rw [lead]
  apply decodePass_valid (sequenceStart_three (by omega)) (by omega)
  · exact List.forall_mem_cons.mpr ⟨isContinuation_encoded _,
      List.forall_mem_singleton.mpr (isContinuation_encoded _)⟩
  · -- no overlong form, and no surrogate
    rw [invalidRange_eq_false_iff, toNat_continuation]
    omega
  · rw [completePoint_encoded, completePoint_encoded, completePoint_nil]
    omega

theorem decodePass_four {character : Char} (above : 0xFFFF < character.toNat) (later : Bytes) :
    decodePass (UInt8.ofNat (character.toNat / 262144 % 0x08 + 0xF0)).toNat
      ([UInt8.ofNat (character.toNat / 4096 % 0x40 + 0x80),
        UInt8.ofNat (character.toNat / 64 % 0x40 + 0x80),
        UInt8.ofNat (character.toNat % 0x40 + 0x80)] ++ later) =
      (utf16EncodeChar character, 4) := by
  have valid := scalar character
  have lead : (UInt8.ofNat (character.toNat / 262144 % 0x08 + 0xF0)).toNat =
      character.toNat / 262144 + 0xF0 := by
    rw [toNat_ofNat8]
    omega
  rw [lead]
  apply decodePass_valid (sequenceStart_four (by omega)) (by omega)
  · exact List.forall_mem_cons.mpr ⟨isContinuation_encoded _, List.forall_mem_cons.mpr
      ⟨isContinuation_encoded _, List.forall_mem_singleton.mpr (isContinuation_encoded _)⟩⟩
  · -- no overlong form, and nothing above U+10FFFF
    rw [invalidRange_eq_false_iff, toNat_continuation]
    omega
  · rw [completePoint_encoded, completePoint_encoded, completePoint_encoded, completePoint_nil]
    omega

private theorem decodePass_encoded (character : Char) :
    ∃ first continuation, String.utf8EncodeChar character = first :: continuation ∧
      ∀ later, decodePass first.toNat (continuation ++ later) =
        (utf16EncodeChar character, continuation.length + 1) := by
  unfold String.utf8EncodeChar
  simp only [Char.toNat_val]
  split
  · next one =>
    refine ⟨_, [], rfl, ?_⟩
    intro later
    have value : (UInt8.ofNat character.toNat).toNat = character.toNat := by
      rw [toNat_ofNat8]
      omega
    rw [← appendUtf16_char, value, decodePass, if_pos one, appendUtf16, if_pos (by omega)]
    rfl
  split
  · next two =>
    exact ⟨_, _, rfl, fun later => decodePass_two (by omega) two later⟩
  split
  · next three =>
    exact ⟨_, _, rfl, fun later => decodePass_three (by omega) three later⟩
  · exact ⟨_, _, rfl, fun later => decodePass_four (by omega) later⟩

theorem sequenceStart_cases {first sequenceLength point : Nat}
    (start : sequenceStart first = some (sequenceLength, point)) :
    (0xC2 ≤ first ∧ first ≤ 0xDF ∧ sequenceLength = 2 ∧ point = first - 0xC0) ∨
    (0xE0 ≤ first ∧ first ≤ 0xEF ∧ sequenceLength = 3 ∧ point = first - 0xE0) ∨
    (0xF0 ≤ first ∧ first ≤ 0xF4 ∧ sequenceLength = 4 ∧ point = first - 0xF0) := by
  by_cases two : 0xC2 ≤ first ∧ first ≤ 0xDF
  · have same := Option.some.inj ((sequenceStart_two two).symm.trans start)
    rw [Prod.mk.injEq] at same
    omega
  by_cases three : 0xE0 ≤ first ∧ first ≤ 0xEF
  · have same := Option.some.inj ((sequenceStart_three three).symm.trans start)
    rw [Prod.mk.injEq] at same
    omega
  by_cases four : 0xF0 ≤ first ∧ first ≤ 0xF4
  · have same := Option.some.inj ((sequenceStart_four four).symm.trans start)
    rw [Prod.mk.injEq] at same
    omega
  · rw [sequenceStart_none (by omega)] at start
    cases start

/-- The range check leaves only scalar values: no surrogate and nothing above U+10FFFF. -/
theorem completePoint_scalar {first sequenceLength point : Nat} {continuation : Bytes}
    (start : sequenceStart first = some (sequenceLength + 1, point))
    (counted : continuation.length = sequenceLength)
    (all : ∀ byte ∈ continuation, isContinuation byte = true)
    (inRange : invalidRange first (continuation.headD 0).toNat = false) :
    ∃ character : Char, character.toNat = completePoint point continuation := by
  apply exists_char
  have range := (invalidRange_eq_false_iff _ _).mp inRange
  rcases sequenceStart_cases start with ⟨low, high, length, lead⟩ | ⟨low, high, length, lead⟩ |
    ⟨low, high, length, lead⟩
  · obtain ⟨second, rfl⟩ := List.length_eq_one_iff.mp (show continuation.length = 1 by omega)
    have secondRange := (isContinuation_iff second).mp (all second (by simp))
    rw [completePoint_cons, completePoint_nil]
    omega
  · obtain ⟨second, third, rfl⟩ := List.length_eq_two.mp (show continuation.length = 2 by omega)
    have secondRange := (isContinuation_iff second).mp (all second (by simp))
    have thirdRange := (isContinuation_iff third).mp (all third (by simp))
    rw [List.headD_cons] at range
    rw [completePoint_cons, completePoint_cons, completePoint_nil]
    omega
  · obtain ⟨second, third, fourth, rfl⟩ :=
      List.length_eq_three.mp (show continuation.length = 3 by omega)
    have secondRange := (isContinuation_iff second).mp (all second (by simp))
    have thirdRange := (isContinuation_iff third).mp (all third (by simp))
    have fourthRange := (isContinuation_iff fourth).mp (all fourth (by simp))
    rw [List.headD_cons] at range
    rw [completePoint_cons, completePoint_cons, completePoint_cons, completePoint_nil]
    omega

private theorem decodePass_units (byte : UInt8) (rest : Bytes) :
    ∃ character, (decodePass byte.toNat rest).1 = utf16EncodeChar character := by
  have replaced : appendUtf16 replacementCharacter = utf16EncodeChar replacement := by decide
  have small := toNat_lt8 byte
  obtain ⟨first, firstIs⟩ : ∃ first, byte.toNat = first := ⟨_, rfl⟩
  rw [firstIs] at small ⊢
  unfold decodePass
  split
  · next one =>
    obtain ⟨character, same⟩ : ∃ character : Char, character.toNat = first :=
      exists_char (by omega)
    refine ⟨character, ?_⟩
    rw [← appendUtf16_char, same, appendUtf16, if_pos (by omega)]
  split
  · exact ⟨replacement, replaced⟩
  · next sequenceLength point start =>
    split
    · exact ⟨replacement, replaced⟩
    split
    · exact ⟨replacement, replaced⟩
    · next whole inRange =>
      obtain ⟨more, rfl⟩ : ∃ more, sequenceLength = more + 2 := by
        refine ⟨sequenceLength - 2, ?_⟩
        have length := sequenceStart_cases start
        omega
      obtain ⟨counted, all⟩ := continuation_of_validLength (Decidable.not_not.mp whole)
      have head : (rest.take (more + 1)).headD 0 = rest.headD 0 := by cases rest <;> rfl
      rw [Bool.not_eq_true, ← head] at inRange
      obtain ⟨character, same⟩ := completePoint_scalar start counted all inRange
      exact ⟨character, by rw [← appendUtf16_char, same]; rfl⟩

@[simp] theorem utf8ToUtf16_nil : utf8ToUtf16ReplacingInvalid [] = [] := by
  rw [utf8ToUtf16ReplacingInvalid]

theorem utf8ToUtf16_cons (first : UInt8) (rest : Bytes) :
    utf8ToUtf16ReplacingInvalid (first :: rest) =
      (decodePass first.toNat rest).1 ++
        utf8ToUtf16ReplacingInvalid ((first :: rest).drop (decodePass first.toNat rest).2) := by
  rw [utf8ToUtf16ReplacingInvalid]

theorem utf8ToUtf16_text (text : List Char) :
    utf8ToUtf16ReplacingInvalid (text.flatMap String.utf8EncodeChar) =
      text.flatMap utf16EncodeChar := by
  induction text with
  | nil => exact utf8ToUtf16_nil
  | cons character later inductionHypothesis =>
    obtain ⟨first, continuation, encoded, pass⟩ := decodePass_encoded character
    rw [List.flatMap_cons, List.flatMap_cons, encoded, List.cons_append, utf8ToUtf16_cons, pass,
      List.drop_succ_cons, List.drop_left, inductionHypothesis]

private theorem exists_text_utf8ToUtf16 (bytes : Bytes) :
    ∃ text : List Char, utf8ToUtf16ReplacingInvalid bytes = text.flatMap utf16EncodeChar := by
  induction bytes using utf8ToUtf16ReplacingInvalid.induct with
  | case1 => exact ⟨[], utf8ToUtf16_nil⟩
  | case2 first rest inductionHypothesis =>
    obtain ⟨character, units⟩ := decodePass_units first rest
    obtain ⟨later, decoded⟩ := inductionHypothesis
    refine ⟨character :: later, ?_⟩
    rw [utf8ToUtf16_cons, units, decoded, List.flatMap_cons]

theorem encodeUnits_single {unit : UInt16} (rest : List UInt16)
    (noHigh : isHighSurrogate unit = false) (noLow : isLowSurrogate unit = false) :
    encodeUnits (unit :: rest) = appendUtf8 unit.toNat ++ encodeUnits rest := by
  simp only [isHighSurrogate, isLowSurrogate, decide_eq_false_iff_not] at noHigh noLow
  rw [encodeUnits.eq_def]
  simp only [ge_iff_le, noHigh, noLow, if_false]

theorem encodeUnits_pair {high low : UInt16} (rest : List UInt16)
    (isHigh : isHighSurrogate high = true) (isLow : isLowSurrogate low = true) :
    encodeUnits (high :: low :: rest) =
      appendUtf8 (0x10000 + (high.toNat - 0xD800) * 0x400 + (low.toNat - 0xDC00)) ++
        encodeUnits rest := by
  simp only [isHighSurrogate, isLowSurrogate, decide_eq_true_eq] at isHigh isLow
  rw [encodeUnits.eq_def]
  simp only [ge_iff_le, isHigh, isLow, and_self, if_true, Nat.shiftLeft_eq, Nat.reducePow]

theorem encodeUnits_unpaired {unit : UInt16} {rest : List UInt16}
    (surrogate : (isHighSurrogate unit || isLowSurrogate unit) = true)
    (apart : (isHighSurrogate unit && rest.head?.any isLowSurrogate) = false) :
    encodeUnits (unit :: rest) = String.utf8EncodeChar replacement ++ encodeUnits rest := by
  have replaced : appendUtf8 replacementCharacter = String.utf8EncodeChar replacement := by decide
  rw [encodeUnits.eq_def]
  cases isHigh : isHighSurrogate unit with
  | false =>
    have isLow : isLowSurrogate unit = true := by simpa [isHigh] using surrogate
    simp only [isHighSurrogate, isLowSurrogate, decide_eq_true_eq, decide_eq_false_iff_not]
      at isHigh isLow
    simp only [ge_iff_le, isHigh, isLow, and_self, if_true, if_false, replaced]
  | true =>
    rw [isHigh, Bool.true_and] at apart
    simp only [isHighSurrogate, decide_eq_true_eq] at isHigh
    simp only [ge_iff_le, isHigh, and_self, if_true]
    cases rest with
    | nil => rw [replaced]
    | cons second later =>
      have noLow : isLowSurrogate second = false := by simpa using apart
      simp only [isLowSurrogate, decide_eq_false_iff_not] at noLow
      simp only [noLow, if_false, replaced]

/-- A pair of surrogates is the code of one scalar value. -/
theorem exists_char_pair {high low : UInt16} (isHigh : isHighSurrogate high = true)
    (isLow : isLowSurrogate low = true) :
    ∃ character : Char, utf16EncodeChar character = [high, low] ∧
      character.toNat = 0x10000 + (high.toNat - 0xD800) * 0x400 + (low.toNat - 0xDC00) := by
  simp only [isHighSurrogate, isLowSurrogate, decide_eq_true_eq] at isHigh isLow
  obtain ⟨character, value⟩ : ∃ character : Char, character.toNat =
      0x10000 + (high.toNat - 0xD800) * 0x400 + (low.toNat - 0xDC00) := exists_char (by omega)
  refine ⟨character, ?_, value⟩
  rw [utf16EncodeChar, if_neg (by omega),
    show 0xD800 + (character.toNat - 0x10000) / 0x400 = high.toNat by omega,
    show 0xDC00 + (character.toNat - 0x10000) % 0x400 = low.toNat by omega,
    UInt16.ofNat_toNat, UInt16.ofNat_toNat]

theorem exists_char_single {unit : UInt16} (noHigh : isHighSurrogate unit = false)
    (noLow : isLowSurrogate unit = false) :
    ∃ character : Char, utf16EncodeChar character = [unit] ∧ character.toNat = unit.toNat := by
  simp only [isHighSurrogate, isLowSurrogate, decide_eq_false_iff_not] at noHigh noLow
  have small := toNat_lt16 unit
  obtain ⟨character, value⟩ : ∃ character : Char, character.toNat = unit.toNat :=
    exists_char (by omega)
  refine ⟨character, ?_, value⟩
  rw [utf16EncodeChar, if_pos (by omega), value, UInt16.ofNat_toNat]

private theorem exists_text_encodeUnits (units : List UInt16) :
    ∃ text : List Char, encodeUnits units = text.flatMap String.utf8EncodeChar ∧
      replaceUnpaired units = text.flatMap utf16EncodeChar := by
  induction units using units_induction with
  | nil => exact ⟨[], rfl, rfl⟩
  | pair high low rest isHigh isLow inductionHypothesis =>
    obtain ⟨text, bytes, replaced⟩ := inductionHypothesis
    obtain ⟨character, pair, value⟩ := exists_char_pair isHigh isLow
    refine ⟨character :: text, ?_, ?_⟩
    · rw [encodeUnits_pair rest isHigh isLow, ← value, appendUtf8_char, bytes, List.flatMap_cons]
    · rw [replaceUnpaired_pair isHigh isLow, replaced, List.flatMap_cons, pair]
      rfl
  | unpaired unit rest surrogate apart inductionHypothesis =>
    obtain ⟨text, bytes, replaced⟩ := inductionHypothesis
    refine ⟨replacement :: text, ?_, ?_⟩
    · rw [encodeUnits_unpaired surrogate apart, bytes, List.flatMap_cons]
    · rw [replaceUnpaired_cons apart, if_pos surrogate, replaced, List.flatMap_cons]
      rfl
  | single unit rest noHigh noLow inductionHypothesis =>
    obtain ⟨text, bytes, replaced⟩ := inductionHypothesis
    obtain ⟨character, single, value⟩ := exists_char_single noHigh noLow
    refine ⟨character :: text, ?_, ?_⟩
    · rw [encodeUnits_single rest noHigh noLow, ← value, appendUtf8_char, bytes,
        List.flatMap_cons]
    · rw [replaceUnpaired_cons (by simp [noHigh]), if_neg (by simp [noHigh, noLow]), replaced,
        List.flatMap_cons, single]
      rfl

theorem encodeUnits_text (text : List Char) :
    encodeUnits (text.flatMap utf16EncodeChar) = text.flatMap String.utf8EncodeChar := by
  induction text with
  | nil => rfl
  | cons character later inductionHypothesis =>
    rw [List.flatMap_cons, List.flatMap_cons]
    rcases utf16EncodeChar_cases character with ⟨unit, code, noHigh, noLow, value⟩ |
      ⟨high, low, code, isHigh, isLow, value⟩
    · rw [code, List.singleton_append, encodeUnits_single _ noHigh noLow, value, appendUtf8_char,
        inductionHypothesis]
    · rw [code, List.cons_append, List.singleton_append, encodeUnits_pair _ isHigh isLow, value,
        appendUtf8_char, inductionHypothesis]

theorem utf16ToUtf8_units (units : List UInt16) :
    utf16ToUtf8ReplacingInvalid (some units) units.length = .ok (encodeUnits units) := by
  rw [utf16ToUtf8ReplacingInvalid, List.take_length]

/-- Units come back from UTF-8 with U+FFFD for every unpaired surrogate, and
well-formed units, only these, as they were. -/
theorem utf16ToUtf8_roundTrip (units : List UInt16) :
    ∃ bytes, utf16ToUtf8ReplacingInvalid (some units) units.length = .ok bytes ∧
      WellFormedUtf8 bytes ∧
      utf8ToUtf16ReplacingInvalid bytes = replaceUnpaired units ∧
      (utf8ToUtf16ReplacingInvalid bytes = units ↔ WellFormedUtf16 units) := by
  obtain ⟨text, encoded, replaced⟩ := exists_text_encodeUnits units
  have decoded : utf8ToUtf16ReplacingInvalid (encodeUnits units) = replaceUnpaired units := by
    rw [encoded, utf8ToUtf16_text, replaced]
  refine ⟨encodeUnits units, utf16ToUtf8_units units, ?_, decoded, ?_⟩
  · exact (wellFormedUtf8_iff _).mpr ⟨text, encoded⟩
  · rw [decoded, wellFormedUtf16_iff]

/-- Bytes become well-formed units, and come back from them exactly when they
were UTF-8. -/
theorem utf8ToUtf16_roundTrip (bytes : Bytes) :
    WellFormedUtf16 (utf8ToUtf16ReplacingInvalid bytes) ∧
      (utf16ToUtf8ReplacingInvalid (some (utf8ToUtf16ReplacingInvalid bytes))
        (utf8ToUtf16ReplacingInvalid bytes).length = .ok bytes ↔ WellFormedUtf8 bytes) := by
  obtain ⟨text, decoded⟩ := exists_text_utf8ToUtf16 bytes
  rw [utf16ToUtf8_units, decoded, encodeUnits_text, wellFormedUtf8_iff]
  refine ⟨wellFormedUtf16_encoded text, ?_⟩
  constructor
  · intro same
    exact ⟨text, (Except.ok.inj same).symm⟩
  · rintro ⟨original, rfl⟩
    rw [utf8ToUtf16_text] at decoded
    rw [← encodeUnits_text original, decoded, encodeUnits_text]

end LocalWhisper.NativeText
