import LocalWhisper.Machine.Unicode
import Mathlib.Data.List.DropRight
import Mathlib.Data.Nat.Digits.Lemmas

/-! Operations on Java strings as lists of UTF-16 code units: `trim`, `hashCode`,
unsigned hexadecimal digits, and the way of a string through UTF-8 bytes. -/

namespace LocalWhisper

/-- A Java string. -/
abbrev Units := List UInt16

namespace Machine.JavaString

open Unicode

def ofString (text : String) : List UInt16 := text.toList.flatMap utf16EncodeChar

/-- `trim` takes everything up to the space for white. -/
def isBlank (unit : UInt16) : Bool := decide (unit.toNat ≤ 0x20)

/-- `String.trim`. -/
def trim (text : List UInt16) : List UInt16 := (text.dropWhile isBlank).rdropWhile isBlank

def Trimmed (text : List UInt16) : Prop :=
  (∀ unit ∈ text.head?, isBlank unit = false) ∧ ∀ unit ∈ text.getLast?, isBlank unit = false

/-- Only the two ends are looked at. -/
instance (text : List UInt16) : Decidable (Trimmed text) :=
  decidable_of_iff (text.head?.all (!isBlank ·) = true ∧ text.getLast?.all (!isBlank ·) = true) (by
    simp only [Trimmed, Option.all_eq_true, Option.mem_def, Bool.not_eq_true'])

theorem head_of_front {front text : List UInt16} (isPrefix : front <+: text) :
    ∀ unit ∈ front.head?, unit ∈ text.head? := by
  obtain ⟨rest, rfl⟩ := isPrefix
  intro unit first
  rw [List.head?_append, first]
  rfl

theorem trimmed_trim (text : List UInt16) : Trimmed (trim text) := by
  constructor
  · intro unit first
    have inner := head_of_front (List.rdropWhile_prefix isBlank _) unit first
    have kept := List.head?_dropWhile_not isBlank text
    rw [inner] at kept
    exact kept
  · intro unit last
    have filled : trim text ≠ [] := by
      intro empty
      rw [empty] at last
      cases last
    have kept := List.rdropWhile_last_not isBlank (text.dropWhile isBlank) filled
    rw [List.getLast?_eq_getLast_of_ne_nil filled, Option.mem_some_iff] at last
    rw [← last]
    exact Bool.eq_false_iff.mpr kept

theorem trim_of_trimmed {text : List UInt16} (trimmed : Trimmed text) : trim text = text := by
  have front : text.dropWhile isBlank = text := by
    rw [List.dropWhile_eq_self_iff]
    intro filled
    have first := trimmed.1 text[0] (by
      rw [List.head?_eq_getElem?, List.getElem?_eq_getElem filled]
      rfl)
    simp [first]
  rw [trim, front, List.rdropWhile_eq_self_iff]
  intro filled
  have last := trimmed.2 (text.getLast filled) (by
    rw [List.getLast?_eq_getLast_of_ne_nil filled]
    rfl)
  simp [last]

theorem trim_eq_self_iff (text : List UInt16) : trim text = text ↔ Trimmed text :=
  ⟨fun same => same ▸ trimmed_trim text, trim_of_trimmed⟩

@[simp] theorem trim_trim (text : List UInt16) : trim (trim text) = trim text :=
  trim_of_trimmed (trimmed_trim text)

theorem length_trim_le (text : List UInt16) : (trim text).length ≤ text.length :=
  (List.rdropWhile_prefix isBlank _).length_le.trans (List.dropWhile_suffix isBlank).length_le

/-- `codePoints`: a surrogate without its partner stands for itself. -/
def codePoints : List UInt16 → List Nat
  | high :: low :: rest =>
    if isHighSurrogate high && isLowSurrogate low then
      (0x10000 + (high.toNat - 0xD800) * 0x400 + (low.toNat - 0xDC00)) :: codePoints rest
    else high.toNat :: codePoints (low :: rest)
  | [unit] => [unit.toNat]
  | [] => []

/-- `codePointCount` of the whole string. -/
def codePointCount (text : List UInt16) : Nat := (codePoints text).length

/-- `String.join(" ", words)`. -/
def joinSpaced (words : List (List UInt16)) : List UInt16 := [0x20].intercalate words

/-- The space is no surrogate, so it joins no pair. -/
theorem codePointCount_spaced (front back : List UInt16) :
    codePointCount (front ++ 0x20 :: back) = codePointCount front + 1 + codePointCount back := by
  have space (rest : List UInt16) : codePoints (0x20 :: rest) = 0x20 :: codePoints rest := by
    cases rest with
    | nil => rfl
    | cons unit rest =>
      have plain : isHighSurrogate 0x20 = false := by decide
      rw [codePoints, if_neg (by rw [plain]; exact Bool.false_ne_true)]
      rfl
  unfold codePointCount
  fun_induction codePoints front with
  | case1 high low rest pair inductionHypothesis =>
    rw [List.cons_append, List.cons_append, codePoints, if_pos pair, List.length_cons,
      List.length_cons, inductionHypothesis]
    omega
  | case2 high low rest single inductionHypothesis =>
    rw [List.cons_append, List.cons_append, codePoints, if_neg single, List.length_cons,
      List.length_cons, ← List.cons_append, inductionHypothesis]
    omega
  | case3 unit =>
    have alone : (isHighSurrogate unit && isLowSurrogate 0x20) ≠ true := by
      rw [show isLowSurrogate 0x20 = false from by decide, Bool.and_false]
      decide
    rw [List.singleton_append, codePoints, if_neg alone, space]
    simp only [List.length_cons, List.length_nil]
    omega
  | case4 =>
    rw [List.nil_append, space, List.length_cons, List.length_nil]
    omega

/-- A word costs its code points, and one for the space before other words. -/
theorem codePointCount_joinSpaced (word : List UInt16) (words : List (List UInt16)) :
    codePointCount (joinSpaced (word :: words)) =
      codePointCount word + (if words.isEmpty then 0 else 1) +
        codePointCount (joinSpaced words) := by
  cases words with
  | nil => simp [joinSpaced, codePointCount, codePoints]
  | cons next rest =>
    have joined : joinSpaced (word :: next :: rest) =
        word ++ 0x20 :: joinSpaced (next :: rest) := by
      simp [joinSpaced, List.intercalate]
    rw [joined, codePointCount_spaced]
    rfl

/-- `hashCode`, modulo 2^32. -/
def hashCode (text : List UInt16) : UInt32 :=
  text.foldl (fun hash unit => 31 * hash + unit.toUInt32) 0

def hexDigit (digit : Nat) : UInt16 :=
  if digit < 10 then UInt16.ofNat (0x30 + digit) else UInt16.ofNat (0x61 + (digit - 10))

/-- The digits of a number in base 16, the highest first. -/
def hexUnits (value : Nat) : List UInt16 :=
  (if value = 0 then [0] else (Nat.digits 16 value).reverse).map hexDigit

/-- `Integer.toUnsignedString(value, 16)`. -/
def toUnsignedHex (value : UInt32) : List UInt16 := hexUnits value.toNat

/-- `Long.toHexString`: a negative number stands for its two's complement. -/
def toHexString (value : Int64) : List UInt16 := hexUnits value.toUInt64.toNat

/-- `getBytes(UTF_8)` and a decoding of the bytes: a question mark stands for
every unpaired surrogate. -/
def throughUtf8 (text : List UInt16) : List UInt16 :=
  text.mapIdx fun index unit => if unpairedAt text index then 0x3F else unit

@[simp] theorem length_throughUtf8 (text : List UInt16) :
    (throughUtf8 text).length = text.length := by
  simp [throughUtf8]

theorem getElem?_throughUtf8 (text : List UInt16) (index : Nat) :
    (throughUtf8 text)[index]? =
      text[index]?.map fun unit => if unpairedAt text index then 0x3F else unit := by
  simp [throughUtf8, List.getElem?_mapIdx]

private theorem not_unpairedAt_of_plain {text : List UInt16} {index : Nat}
    (plain : ∀ unit ∈ text[index]?, isHighSurrogate unit = false ∧ isLowSurrogate unit = false) :
    unpairedAt text index = false := by
  unfold unpairedAt
  cases found : text[index]? with
  | none => rfl
  | some unit =>
    obtain ⟨notHigh, notLow⟩ := plain unit found
    simp [notHigh, notLow]

/-- A text without surrogates. -/
theorem wellFormed_of_plain {text : List UInt16}
    (plain : ∀ unit ∈ text, isHighSurrogate unit = false ∧ isLowSurrogate unit = false) :
    WellFormedUtf16 text := fun _ =>
  not_unpairedAt_of_plain fun unit found => plain unit (List.mem_of_getElem? found)

theorem throughUtf8_of_wellFormed {text : List UInt16} (formed : WellFormedUtf16 text) :
    throughUtf8 text = text := by
  apply List.ext_getElem?
  intro index
  rw [getElem?_throughUtf8, formed index]
  simp

theorem any_throughUtf8 (p : UInt16 → Bool) (question : p 0x3F = false) (text : List UInt16)
    (index : Nat) : ((throughUtf8 text)[index]?.any p) =
      (text[index]?.any p && !unpairedAt text index) := by
  rw [getElem?_throughUtf8]
  cases text[index]? with
  | none => rfl
  | some unit => cases unpairedAt text index <;> simp [question]

theorem unpairedAt_eq (text : List UInt16) (index : Nat) : unpairedAt text index =
    (text[index]?.any isHighSurrogate && !text[index + 1]?.any isLowSurrogate ||
      text[index]?.any isLowSurrogate &&
        !(index != 0 && text[index - 1]?.any isHighSurrogate)) := by
  unfold unpairedAt
  cases text[index]? with
  | none => rfl
  | some unit => rfl

private theorem not_low_of_any_high {text : List UInt16} {index : Nat}
    (high : text[index]?.any isHighSurrogate = true) :
    text[index]?.any isLowSurrogate = false := by
  cases found : text[index]? with
  | none => rfl
  | some unit =>
    rw [found] at high
    exact not_low_of_high high

theorem throughUtf8_wellFormed (text : List UInt16) : WellFormedUtf16 (throughUtf8 text) := by
  intro index
  have low := any_throughUtf8 isLowSurrogate (by decide) text
  have high := any_throughUtf8 isHighSurrogate (by decide) text
  rw [unpairedAt_eq, low, low, high, high]
  have here := unpairedAt_eq text index
  have next := unpairedAt_eq text (index + 1)
  have before := unpairedAt_eq text (index - 1)
  have apart : ∀ place, text[place]?.any isHighSurrogate = true →
      text[place]?.any isLowSurrogate = false := fun _ => not_low_of_any_high
  cases index with
  | zero => grind
  | succ previous => grind

/-- The question mark is not blank. -/
theorem trimmed_throughUtf8 {text : List UInt16} (trimmed : Trimmed text) :
    Trimmed (throughUtf8 text) := by
  have kept (index : Nat) (ends : ∀ unit ∈ text[index]?, isBlank unit = false) :
      ∀ unit ∈ (throughUtf8 text)[index]?, isBlank unit = false := by
    rw [getElem?_throughUtf8]
    intro unit found
    obtain ⟨old, held, rfl⟩ := Option.map_eq_some_iff.mp found
    split
    · decide
    · exact ends old held
  constructor
  · rw [List.head?_eq_getElem?]
    exact kept 0 (List.head?_eq_getElem? ▸ trimmed.1)
  · rw [List.getLast?_eq_getElem?, length_throughUtf8]
    exact kept _ (List.getLast?_eq_getElem? ▸ trimmed.2)

theorem throughUtf8_eq_nil_iff (text : List UInt16) : throughUtf8 text = [] ↔ text = [] := by
  rw [← List.length_eq_zero_iff, length_throughUtf8, List.length_eq_zero_iff]

/-- The digits are no surrogates and not blank. -/
theorem hexDigit_plain {digit : Nat} (below : digit < 16) :
    isHighSurrogate (hexDigit digit) = false ∧ isLowSurrogate (hexDigit digit) = false ∧
      isBlank (hexDigit digit) = false := by
  have table : ∀ digit < 16, isHighSurrogate (hexDigit digit) = false ∧
      isLowSurrogate (hexDigit digit) = false ∧ isBlank (hexDigit digit) = false := by decide
  exact table digit below

/-- The digits are those of the number. -/
theorem hexUnits_spec (value : Nat) :
    ∃ digits : List Nat, digits ≠ [] ∧ (∀ digit ∈ digits, digit < 16) ∧
      Nat.ofDigits 16 digits.reverse = value ∧ hexUnits value = digits.map hexDigit := by
  refine ⟨_, ?_, ?_, ?_, rfl⟩
  · split
    · simp
    · next nonzero => simp [Nat.digits_eq_nil_iff_eq_zero, nonzero]
  · split
    · simp
    · intro digit member
      exact Nat.digits_lt_base (by decide) (List.mem_reverse.mp member)
  · split
    · next zero => simp [zero]
    · rw [List.reverse_reverse, Nat.ofDigits_digits]

/-- The digits are those of the number, the highest first. -/
theorem toUnsignedHex_spec (value : UInt32) :
    ∃ digits : List Nat, digits ≠ [] ∧ (∀ digit ∈ digits, digit < 16) ∧
      Nat.ofDigits 16 digits.reverse = value.toNat ∧
      toUnsignedHex value = digits.map hexDigit := hexUnits_spec value.toNat

theorem hexDigit_inj {first second : Nat} (firstBelow : first < 16) (secondBelow : second < 16)
    (same : hexDigit first = hexDigit second) : first = second := by
  have table : ∀ first < 16, ∀ second < 16, hexDigit first = hexDigit second → first = second := by
    decide
  exact table first firstBelow second secondBelow same

theorem map_hexDigit_inj {first second : List Nat} (firstBelow : ∀ digit ∈ first, digit < 16)
    (secondBelow : ∀ digit ∈ second, digit < 16)
    (same : first.map hexDigit = second.map hexDigit) : first = second := by
  induction first generalizing second with
  | nil => exact (List.map_eq_nil_iff.mp same.symm).symm
  | cons digit rest ih =>
    cases second with
    | nil => cases same
    | cons other later =>
      rw [List.map_cons, List.map_cons, List.cons.injEq] at same
      rw [hexDigit_inj (firstBelow digit (List.mem_cons_self ..))
          (secondBelow other (List.mem_cons_self ..)) same.1,
        ih (fun digit member => firstBelow digit (List.mem_cons_of_mem _ member))
          (fun digit member => secondBelow digit (List.mem_cons_of_mem _ member)) same.2]

theorem hexUnits_inj {first second : Nat} (same : hexUnits first = hexUnits second) :
    first = second := by
  obtain ⟨left, -, leftBelow, leftValue, leftDigits⟩ := hexUnits_spec first
  obtain ⟨right, -, rightBelow, rightValue, rightDigits⟩ := hexUnits_spec second
  rw [leftDigits, rightDigits] at same
  rw [← leftValue, ← rightValue, map_hexDigit_inj leftBelow rightBelow same]

theorem toUnsignedHex_inj {first second : UInt32}
    (same : toUnsignedHex first = toUnsignedHex second) : first = second :=
  UInt32.toNat_inj.mp (hexUnits_inj same)

end Machine.JavaString

end LocalWhisper
