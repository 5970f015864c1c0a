import LocalWhisper.NativeText.UtfConverter

/-! How the two bridges take a Java string: `to_string` of `native-lib.cpp` and
`JStringUtf8` of `ctranslate2-jni.cpp`. A `jstring` is its code units, or `none`
for null. -/

namespace LocalWhisper.NativeText

open Machine.Unicode

/-- The string functions of the JNI. A character array lies in memory with the
byte that ends it. -/
structure JNIEnv where
  getStringUTFChars : List UInt16 → Option Bytes
  getStringLength : List UInt16 → Nat
  getStringChars : List UInt16 → Option (List UInt16)

def modifiedUtf8Unit (unit : UInt16) : Bytes :=
  if unit.toNat ≠ 0 ∧ unit.toNat ≤ 0x7F then [UInt8.ofNat unit.toNat]
  else if unit.toNat ≤ 0x7FF then
    [UInt8.ofNat (unit.toNat / 64 % 0x20 + 0xC0), UInt8.ofNat (unit.toNat % 0x40 + 0x80)]
  else
    [UInt8.ofNat (unit.toNat / 4096 % 0x10 + 0xE0), UInt8.ofNat (unit.toNat / 64 % 0x40 + 0x80),
      UInt8.ofNat (unit.toNat % 0x40 + 0x80)]

/-- The JNI specification of the string functions while memory lasts. -/
structure JNIEnv.Specified (env : JNIEnv) : Prop where
  utfChars : ∀ units, env.getStringUTFChars units = some (units.flatMap modifiedUtf8Unit ++ [0])
  length : ∀ units, env.getStringLength units = units.length
  chars : ∀ units, env.getStringChars units = some units

/-- `std::string` from a character array ends before its first NUL. -/
def cString (chars : Bytes) : Bytes := chars.takeWhile (· != 0)

/-- `to_string` of `native-lib.cpp`. -/
def NativeLib.toString (env : JNIEnv) (value : Option (List UInt16)) : Bytes :=
  match value with
  | none => []
  | some units =>
    match env.getStringUTFChars units with
    | none => []
    | some chars => cString chars

/-- `JStringUtf8` of `ctranslate2-jni.cpp`: its text. -/
def JStringUtf8.str (env : JNIEnv) (value : Option (List UInt16)) : Except String Bytes :=
  match value with
  | none => .ok []
  | some units =>
    match env.getStringChars units with
    | none => .ok []
    | some chars => utf16ToUtf8ReplacingInvalid (some chars) (env.getStringLength units)

/-- Neither NUL nor a surrogate. -/
def Plain (unit : UInt16) : Prop :=
  unit ≠ 0 ∧ isHighSurrogate unit = false ∧ isLowSurrogate unit = false

private theorem modifiedUtf8Unit_plain {unit : UInt16} (plain : Plain unit) :
    modifiedUtf8Unit unit = appendUtf8 unit.toNat := by
  obtain ⟨nonzero, noHigh, noLow⟩ := plain
  obtain ⟨character, -, value⟩ := exists_char_single noHigh noLow
  have small := toNat_lt16 unit
  have positive : unit.toNat ≠ 0 := by
    intro zero
    exact nonzero (UInt16.toNat_inj.mp zero)
  rw [← value, appendUtf8_char, String.utf8EncodeChar, modifiedUtf8Unit]
  simp only [Char.toNat_val, value, positive, ne_eq, not_false_eq_true, true_and]
  split
  · rfl
  split
  · rfl
  · next large =>
    rw [if_pos (by omega)]

private theorem nonzero_of_toNat {byte : UInt8} (positive : byte.toNat ≠ 0) : byte ≠ 0 := by
  rintro rfl
  exact positive rfl

theorem modifiedUtf8Unit_nonzero (unit : UInt16) : ∀ byte ∈ modifiedUtf8Unit unit, byte ≠ 0 := by
  intro byte member
  apply nonzero_of_toNat
  unfold modifiedUtf8Unit at member
  split at member
  · next one =>
    rw [List.mem_singleton.mp member, toNat_ofNat8]
    omega
  split at member
  · simp only [List.mem_cons, List.not_mem_nil, or_false] at member
    rcases member with rfl | rfl
    · rw [toNat_ofNat8]
      omega
    · rw [toNat_ofNat8]
      omega
  · simp only [List.mem_cons, List.not_mem_nil, or_false] at member
    rcases member with rfl | rfl | rfl
    · rw [toNat_ofNat8]
      omega
    · rw [toNat_ofNat8]
      omega
    · rw [toNat_ofNat8]
      omega

/-- No byte of modified UTF-8 is NUL, so a character array has all of it. -/
theorem cString_modified (units : List UInt16) :
    cString (units.flatMap modifiedUtf8Unit ++ [0]) = units.flatMap modifiedUtf8Unit := by
  have nonzero : ∀ byte ∈ units.flatMap modifiedUtf8Unit, (byte != 0) = true := by
    intro byte member
    obtain ⟨unit, -, inUnit⟩ := List.mem_flatMap.mp member
    exact bne_iff_ne.mpr (modifiedUtf8Unit_nonzero unit byte inUnit)
  rw [cString, List.takeWhile_append_of_pos nonzero]
  simp

private theorem head_modified_nul (rest : List UInt16) :
    ((0 :: rest).flatMap modifiedUtf8Unit).head? = some 0xC0 := rfl

theorem head_modified_surrogate {unit : UInt16}
    (surrogate : (isHighSurrogate unit || isLowSurrogate unit) = true) (rest : List UInt16) :
    ((unit :: rest).flatMap modifiedUtf8Unit).head? = some 0xED := by
  have range : 0xD800 ≤ unit.toNat ∧ unit.toNat ≤ 0xDFFF := by
    simp only [isHighSurrogate, isLowSurrogate, Bool.or_eq_true, decide_eq_true_eq] at surrogate
    omega
  rw [List.flatMap_cons, modifiedUtf8Unit, if_neg (by omega), if_neg (by omega),
    show unit.toNat / 4096 % 0x10 + 0xE0 = 0xED by omega]
  rfl

private theorem head_encodeUnits_pair {high low : UInt16} (rest : List UInt16)
    (isHigh : isHighSurrogate high = true) (isLow : isLowSurrogate low = true) :
    (encodeUnits (high :: low :: rest)).head? ≠ some 0xED := by
  obtain ⟨character, -, value⟩ := exists_char_pair isHigh isLow
  rw [encodeUnits_pair rest isHigh isLow, ← value, appendUtf8_char, String.utf8EncodeChar]
  simp only [Char.toNat_val]
  rw [if_neg (by omega), if_neg (by omega), if_neg (by omega), List.cons_append, List.head?_cons]
  intro same
  have byte := congrArg UInt8.toNat (Option.some.inj same)
  rw [toNat_ofNat8] at byte
  have limit : (0xED : UInt8).toNat = 0xED := rfl
  omega

private theorem head_encodeUnits_unpaired {unit : UInt16} {rest : List UInt16}
    (surrogate : (isHighSurrogate unit || isLowSurrogate unit) = true)
    (apart : (isHighSurrogate unit && rest.head?.any isLowSurrogate) = false) :
    (encodeUnits (unit :: rest)).head? = some 0xEF := by
  rw [encodeUnits_unpaired surrogate apart]
  rfl

theorem encodeUnits_eq_modified_iff (units : List UInt16) :
    encodeUnits units = units.flatMap modifiedUtf8Unit ↔ ∀ unit ∈ units, Plain unit := by
  induction units using units_induction with
  | nil => simp [encodeUnits]
  | pair high low rest isHigh isLow inductionHypothesis =>
    constructor
    · intro same
      have heads := head_encodeUnits_pair rest isHigh isLow
      rw [same, head_modified_surrogate (by simp [isHigh])] at heads
      exact absurd rfl heads
    · intro plain
      obtain ⟨-, noHigh, -⟩ := plain high (by simp)
      rw [noHigh] at isHigh
      cases isHigh
  | unpaired unit rest surrogate apart inductionHypothesis =>
    constructor
    · intro same
      have heads := head_encodeUnits_unpaired surrogate apart
      rw [same, head_modified_surrogate surrogate] at heads
      exact absurd heads (by decide)
    · intro plain
      obtain ⟨-, noHigh, noLow⟩ := plain unit (by simp)
      simp [noHigh, noLow] at surrogate
  | single unit rest noHigh noLow inductionHypothesis =>
    by_cases nul : unit = 0
    · subst nul
      constructor
      · intro same
        have heads := head_modified_nul rest
        rw [← same, encodeUnits_single rest noHigh noLow] at heads
        have bytes : (0x00 : UInt8) = 0xC0 := Option.some.inj heads
        exact absurd bytes (by decide)
      · intro plain
        exact absurd rfl (plain 0 (by simp)).1
    · have plain : Plain unit := ⟨nul, noHigh, noLow⟩
      rw [encodeUnits_single rest noHigh noLow, List.flatMap_cons, modifiedUtf8Unit_plain plain,
        List.append_cancel_left_eq, inductionHypothesis, List.forall_mem_cons]
      exact ⟨fun all => ⟨plain, all⟩, fun all => all.2⟩

private theorem toString_units {env : JNIEnv} (specified : env.Specified) (units : List UInt16) :
    NativeLib.toString env (some units) = units.flatMap modifiedUtf8Unit := by
  rw [NativeLib.toString, specified.utfChars]
  exact cString_modified units

theorem str_units {env : JNIEnv} (specified : env.Specified) (units : List UInt16) :
    JStringUtf8.str env (some units) = .ok (encodeUnits units) := by
  rw [JStringUtf8.str, specified.chars, specified.length]
  exact utf16ToUtf8_units units

/-- The bridges give the same bytes for exactly the strings without NUL and
without surrogates. -/
theorem bridges_agree_iff {env : JNIEnv} (specified : env.Specified)
    (value : Option (List UInt16)) :
    JStringUtf8.str env value = .ok (NativeLib.toString env value) ↔
      ∀ units, value = some units → ∀ unit ∈ units, Plain unit := by
  cases value with
  | none => simp [JStringUtf8.str, NativeLib.toString]
  | some units =>
    rw [toString_units specified, str_units specified]
    constructor
    · intro same
      rintro _ ⟨rfl⟩
      exact (encodeUnits_eq_modified_iff units).mp (Except.ok.inj same)
    · intro plain
      rw [(encodeUnits_eq_modified_iff units).mpr (plain units rfl)]

/-- A virtual machine that follows the specification. -/
def specifiedEnv : JNIEnv where
  getStringUTFChars units := some (units.flatMap modifiedUtf8Unit ++ [0])
  getStringLength units := units.length
  getStringChars units := some units

theorem specifiedEnv_specified : specifiedEnv.Specified where
  utfChars _ := rfl
  length _ := rfl
  chars _ := rfl

theorem bridges_agree_kana :
    JStringUtf8.str specifiedEnv (some [0x41, 0x3042]) =
      .ok (NativeLib.toString specifiedEnv (some [0x41, 0x3042])) :=
  (bridges_agree_iff specifiedEnv_specified (some [0x41, 0x3042])).mpr (by
    rintro _ ⟨rfl⟩ unit member
    simp only [List.mem_cons, List.not_mem_nil, or_false] at member
    rcases member with rfl | rfl
    · exact ⟨by decide, by decide, by decide⟩
    · exact ⟨by decide, by decide, by decide⟩)

/-- A supplementary character, here U+1F600, has four bytes on one side and six
on the other. -/
theorem bridges_differ :
    specifiedEnv.Specified ∧
      JStringUtf8.str specifiedEnv (some [0xD83D, 0xDE00]) = .ok [0xF0, 0x9F, 0x98, 0x80] ∧
      NativeLib.toString specifiedEnv (some [0xD83D, 0xDE00]) =
        [0xED, 0xA0, 0xBD, 0xED, 0xB8, 0x80] ∧
      JStringUtf8.str specifiedEnv (some [0xD83D, 0xDE00]) ≠
        .ok (NativeLib.toString specifiedEnv (some [0xD83D, 0xDE00])) := by
  have standard : JStringUtf8.str specifiedEnv (some [0xD83D, 0xDE00]) =
      .ok [0xF0, 0x9F, 0x98, 0x80] := by
    rw [str_units specifiedEnv_specified]
    exact congrArg Except.ok (by decide)
  have modified : NativeLib.toString specifiedEnv (some [0xD83D, 0xDE00]) =
      [0xED, 0xA0, 0xBD, 0xED, 0xB8, 0x80] := by
    decide
  refine ⟨specifiedEnv_specified, standard, modified, ?_⟩
  rw [standard, modified]
  intro same
  exact absurd (Except.ok.inj same) (by decide)

end LocalWhisper.NativeText
