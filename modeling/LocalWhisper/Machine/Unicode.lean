import Mathlib.Data.List.Basic

/-! The two encoding forms of Unicode text that are not UTF-32: sequences of
UTF-8 bytes and sequences of UTF-16 code units. A `Char` is a scalar value. -/

namespace LocalWhisper.Machine.Unicode

theorem toNat_ofNat8 (value : Nat) : (UInt8.ofNat value).toNat = value % 256 := rfl

theorem toNat_ofNat16 (value : Nat) : (UInt16.ofNat value).toNat = value % 65536 := rfl

theorem toNat_lt8 (byte : UInt8) : byte.toNat < 256 := byte.toBitVec.isLt

theorem toNat_lt16 (unit : UInt16) : unit.toNat < 65536 := unit.toBitVec.isLt

/-- The scalar values leave out the surrogates and end at U+10FFFF. -/
theorem scalar (character : Char) :
    character.toNat < 0xD800 ∨ 0xDFFF < character.toNat ∧ character.toNat < 0x110000 :=
  character.valid

theorem exists_char {point : Nat} (valid : point < 0xD800 ∨ 0xDFFF < point ∧ point < 0x110000) :
    ∃ character : Char, character.toNat = point :=
  ⟨Char.ofNatAux point valid, rfl⟩

/-- The encodings of scalar values one after another, each in its shortest form. -/
def WellFormedUtf8 (bytes : List UInt8) : Prop := bytes.toByteArray.IsValidUTF8

theorem wellFormedUtf8_iff (bytes : List UInt8) :
    WellFormedUtf8 bytes ↔ ∃ text : List Char, bytes = text.flatMap String.utf8EncodeChar := by
  constructor
  · rintro ⟨text, same⟩
    refine ⟨text, ?_⟩
    have listed := congrArg (fun array : ByteArray => array.data.toList) same
    simpa [List.utf8Encode] using listed
  · rintro ⟨text, rfl⟩
    exact ⟨text, rfl⟩

def isHighSurrogate (unit : UInt16) : Bool := decide (0xD800 ≤ unit.toNat ∧ unit.toNat ≤ 0xDBFF)

def isLowSurrogate (unit : UInt16) : Bool := decide (0xDC00 ≤ unit.toNat ∧ unit.toNat ≤ 0xDFFF)

/-- The code units of a scalar value. -/
def utf16EncodeChar (character : Char) : List UInt16 :=
  if character.toNat < 0x10000 then [UInt16.ofNat character.toNat]
  else
    [UInt16.ofNat (0xD800 + (character.toNat - 0x10000) / 0x400),
      UInt16.ofNat (0xDC00 + (character.toNat - 0x10000) % 0x400)]

/-- A high surrogate that no low surrogate follows, or a low surrogate that no
high surrogate precedes. -/
def unpairedAt (units : List UInt16) (index : Nat) : Bool :=
  units[index]?.any fun unit =>
    isHighSurrogate unit && !units[index + 1]?.any isLowSurrogate ||
      isLowSurrogate unit && !(index != 0 && units[index - 1]?.any isHighSurrogate)

/-- Every high surrogate is followed by a low one, and every low surrogate
follows a high one. -/
def WellFormedUtf16 (units : List UInt16) : Prop := ∀ index, unpairedAt units index = false

/-- U+FFFD. -/
def replacement : Char := Char.ofNat 0xFFFD

/-- The units with U+FFFD in place of every unpaired surrogate. -/
def replaceUnpaired (units : List UInt16) : List UInt16 :=
  units.mapIdx fun index unit => if unpairedAt units index then 0xFFFD else unit

variable {unit high low : UInt16} {rest : List UInt16}

theorem not_low_of_high (isHigh : isHighSurrogate unit = true) : isLowSurrogate unit = false := by
  simp only [isHighSurrogate, isLowSurrogate, decide_eq_true_eq, decide_eq_false_iff_not]
    at isHigh ⊢
  omega

theorem not_high_of_low (isLow : isLowSurrogate unit = true) : isHighSurrogate unit = false := by
  simp only [isHighSurrogate, isLowSurrogate, decide_eq_true_eq, decide_eq_false_iff_not]
    at isLow ⊢
  omega

theorem unpairedAt_cons_succ_succ (unit : UInt16) (rest : List UInt16) (index : Nat) :
    unpairedAt (unit :: rest) (index + 2) = unpairedAt rest (index + 1) := by
  simp [unpairedAt]

theorem unpairedAt_cons_succ
    (apart : (isHighSurrogate unit && rest.head?.any isLowSurrogate) = false) (index : Nat) :
    unpairedAt (unit :: rest) (index + 1) = unpairedAt rest index := by
  cases index with
  | succ previous => exact unpairedAt_cons_succ_succ unit rest previous
  | zero =>
    cases rest with
    | nil => rfl
    | cons next later =>
      cases nextLow : isLowSurrogate next with
      | false => simp [unpairedAt, nextLow]
      | true =>
        have notHigh : isHighSurrogate unit = false := by simpa [nextLow] using apart
        simp [unpairedAt, nextLow, notHigh]

private theorem unpairedAt_cons_low (isLow : isLowSurrogate low = true) (index : Nat) :
    unpairedAt (high :: low :: rest) (index + 2) = unpairedAt rest index := by
  rw [unpairedAt_cons_succ_succ]
  apply unpairedAt_cons_succ
  simp [not_high_of_low isLow]

theorem replaceUnpaired_pair (isHigh : isHighSurrogate high = true)
    (isLow : isLowSurrogate low = true) :
    replaceUnpaired (high :: low :: rest) = high :: low :: replaceUnpaired rest := by
  have first : unpairedAt (high :: low :: rest) 0 = false := by
    simp [unpairedAt, isLow, not_low_of_high isHigh]
  have second : unpairedAt (high :: low :: rest) 1 = false := by
    simp [unpairedAt, isHigh, not_high_of_low isLow]
  simp only [replaceUnpaired, List.mapIdx_cons, first, second, Nat.add_assoc, Nat.reduceAdd,
    Nat.zero_add, unpairedAt_cons_low isLow, Bool.false_eq_true, if_false]

theorem replaceUnpaired_cons
    (apart : (isHighSurrogate unit && rest.head?.any isLowSurrogate) = false) :
    replaceUnpaired (unit :: rest) =
      (if isHighSurrogate unit || isLowSurrogate unit then 0xFFFD else unit) ::
        replaceUnpaired rest := by
  have first : unpairedAt (unit :: rest) 0 = (isHighSurrogate unit || isLowSurrogate unit) := by
    cases isHigh : isHighSurrogate unit with
    | false => simp [unpairedAt, isHigh]
    | true =>
      have noneLow : rest.head?.any isLowSurrogate = false := by simpa [isHigh] using apart
      have nextOf : rest[0]? = rest.head? := by cases rest <;> rfl
      simp [unpairedAt, isHigh, nextOf, noneLow]
  simp only [replaceUnpaired, List.mapIdx_cons, first, unpairedAt_cons_succ apart]

/-- Units taken from the front: a pair, a surrogate that makes none, or a unit
that is no surrogate. -/
theorem units_induction {motive : List UInt16 → Prop} (nil : motive [])
    (pair : ∀ high low rest, isHighSurrogate high = true → isLowSurrogate low = true →
      motive rest → motive (high :: low :: rest))
    (unpaired : ∀ unit rest, (isHighSurrogate unit || isLowSurrogate unit) = true →
      (isHighSurrogate unit && rest.head?.any isLowSurrogate) = false →
      motive rest → motive (unit :: rest))
    (single : ∀ unit rest, isHighSurrogate unit = false → isLowSurrogate unit = false →
      motive rest → motive (unit :: rest))
    (units : List UInt16) : motive units := by
  induction length : units.length using Nat.strongRecOn generalizing units with
  | ind size inductionHypothesis =>
    cases units with
    | nil => exact nil
    | cons unit rest =>
      rw [List.length_cons] at length
      have restHolds : motive rest := inductionHypothesis rest.length (by omega) rest rfl
      cases apart : isHighSurrogate unit && rest.head?.any isLowSurrogate with
      | true =>
        cases rest with
        | nil => simp at apart
        | cons low later =>
          obtain ⟨isHigh, isLow⟩ : isHighSurrogate unit = true ∧ isLowSurrogate low = true := by
            simpa using apart
          rw [List.length_cons] at length
          exact pair unit low later isHigh isLow
            (inductionHypothesis later.length (by omega) later rfl)
      | false =>
        cases surrogate : isHighSurrogate unit || isLowSurrogate unit with
        | true => exact unpaired unit rest surrogate apart restHolds
        | false =>
          obtain ⟨noHigh, noLow⟩ := Bool.or_eq_false_iff.mp surrogate
          exact single unit rest noHigh noLow restHolds

/-- U+FFFD is no surrogate, so only units that stand alone change. -/
theorem wellFormedUtf16_iff (units : List UInt16) :
    WellFormedUtf16 units ↔ replaceUnpaired units = units := by
  have entry (index : Nat) : (replaceUnpaired units)[index]? =
      units[index]?.map fun unit => if unpairedAt units index then 0xFFFD else unit := by
    simp [replaceUnpaired]
  constructor
  · intro wellFormed
    apply List.ext_getElem?
    intro index
    rw [entry, wellFormed index]
    simp
  · intro same index
    cases unpaired : unpairedAt units index with
    | false => rfl
    | true =>
      have here := entry index
      rw [same, unpaired] at here
      cases found : units[index]? with
      | none => simp [unpairedAt, found] at unpaired
      | some unit =>
        rw [found] at here
        have replaced : unit = 0xFFFD := by simpa using here
        rw [replaced] at found
        have surrogate := unpaired
        simp [unpairedAt, found, isHighSurrogate, isLowSurrogate] at surrogate

/-- The code of a scalar value is one unit that is no surrogate, or a pair. -/
theorem utf16EncodeChar_cases (character : Char) :
    (∃ unit, utf16EncodeChar character = [unit] ∧ isHighSurrogate unit = false ∧
      isLowSurrogate unit = false ∧ unit.toNat = character.toNat) ∨
    (∃ high low, utf16EncodeChar character = [high, low] ∧ isHighSurrogate high = true ∧
      isLowSurrogate low = true ∧
      0x10000 + (high.toNat - 0xD800) * 0x400 + (low.toNat - 0xDC00) = character.toNat) := by
  have valid := scalar character
  by_cases small : character.toNat < 0x10000
  · left
    have value := toNat_ofNat16 character.toNat
    refine ⟨_, if_pos small, ?_, ?_, by omega⟩
    · simp only [isHighSurrogate, decide_eq_false_iff_not]
      omega
    · simp only [isLowSurrogate, decide_eq_false_iff_not]
      omega
  · right
    have highValue := toNat_ofNat16 (0xD800 + (character.toNat - 0x10000) / 0x400)
    have lowValue := toNat_ofNat16 (0xDC00 + (character.toNat - 0x10000) % 0x400)
    refine ⟨_, _, if_neg small, ?_, ?_, by omega⟩
    · simp only [isHighSurrogate, decide_eq_true_eq]
      omega
    · simp only [isLowSurrogate, decide_eq_true_eq]
      omega

private theorem replaceUnpaired_encoded (text : List Char) :
    replaceUnpaired (text.flatMap utf16EncodeChar) = text.flatMap utf16EncodeChar := by
  induction text with
  | nil => rfl
  | cons character later inductionHypothesis =>
    rw [List.flatMap_cons]
    rcases utf16EncodeChar_cases character with ⟨unit, code, noHigh, noLow, -⟩ |
      ⟨high, low, code, isHigh, isLow, -⟩
    · rw [code, List.singleton_append, replaceUnpaired_cons (by simp [noHigh]),
        inductionHypothesis]
      simp [noHigh, noLow]
    · rw [code, List.cons_append, List.singleton_append, replaceUnpaired_pair isHigh isLow,
        inductionHypothesis]

theorem wellFormedUtf16_encoded (text : List Char) :
    WellFormedUtf16 (text.flatMap utf16EncodeChar) :=
  (wellFormedUtf16_iff _).mpr (replaceUnpaired_encoded text)

end LocalWhisper.Machine.Unicode
