import LocalWhisper.NativeText.UtfConverter

/-! The decoder of `utf-converter.cpp` on a text that is cut in two before a byte
that continues nothing: each part decodes as it does alone. -/

namespace LocalWhisper.NativeText

open Machine.Unicode

private theorem validLength_le (sequenceLength : Nat) (rest : Bytes) :
    validLength sequenceLength rest ≤ rest.length + 1 := by
  have counted := (List.takeWhile_prefix isContinuation
    (l := rest.take (sequenceLength - 1))).length_le
  have taken := List.length_take_le' (sequenceLength - 1) rest
  simp only [validLength]
  omega

private theorem decodePass_le (first : Nat) (rest : Bytes) :
    (decodePass first rest).2 ≤ rest.length + 1 := by
  unfold decodePass
  split
  · exact Nat.le_add_left 1 rest.length
  split
  · exact Nat.le_add_left 1 rest.length
  · next sequenceLength point start =>
    have counted := validLength_le sequenceLength rest
    split
    · exact counted
    · next whole =>
      have same : validLength sequenceLength rest = sequenceLength := of_not_not whole
      rw [same] at counted
      split <;> exact counted

/-- The bytes 80 to BF. -/
def ContinuesSequence (byte : UInt8) : Prop := 0x80 ≤ byte.toNat ∧ byte.toNat ≤ 0xBF

/-- The bytes are empty or begin with a byte that continues nothing. -/
def StartsAnew (bytes : Bytes) : Prop := ∀ byte ∈ bytes.head?, ¬ ContinuesSequence byte

section Boundary

variable {text : Bytes} (anew : StartsAnew text)

include anew

theorem takeWhile_of_anew (count : Nat) : (text.take count).takeWhile isContinuation = [] := by
  cases text with
  | nil => simp
  | cons byte rest =>
    have stops : isContinuation byte = false := by
      rw [← Bool.not_eq_true, isContinuation_iff]
      exact anew byte rfl
    cases count with
    | zero => rfl
    | succ count => simp [stops]

private theorem validLength_append (sequenceLength : Nat) (front : Bytes) :
    validLength sequenceLength (front ++ text) = validLength sequenceLength front := by
  have counted : ((front ++ text).take (sequenceLength - 1)).takeWhile isContinuation =
      (front.take (sequenceLength - 1)).takeWhile isContinuation := by
    rw [List.take_append, List.takeWhile_append, takeWhile_of_anew anew, List.append_nil]
    split
    · next whole =>
      exact ((List.takeWhile_prefix isContinuation).eq_of_length whole).symm
    · rfl
  rw [validLength, validLength, counted]

/-- Whatever the pass appends and skips, it is decided by the first part. -/
theorem decodePass_append (first : Nat) (front : Bytes) :
    decodePass first (front ++ text) = decodePass first front := by
  unfold decodePass
  split
  · rfl
  split
  · rfl
  · next sequenceLength point start =>
    rw [validLength_append anew]
    split
    · rfl
    · next whole =>
      obtain ⟨more, rfl⟩ : ∃ more, sequenceLength = more + 2 :=
        ⟨sequenceLength - 2, by rcases sequenceStart_cases start with h | h | h <;> omega⟩
      have enough := (continuation_of_validLength (of_not_not whole)).1
      rw [List.length_take] at enough
      have head : (front ++ text).headD 0 = front.headD 0 := by
        cases front with
        | nil => simp at enough
        | cons byte rest => rfl
      have taken : (front ++ text).take (more + 2 - 1) = front.take (more + 2 - 1) :=
        List.take_append_of_le_length (by omega)
      rw [head, taken]

/-- A truncated or invalid sequence at the end of the first part takes nothing from
the second. -/
theorem utf8ToUtf16_append (front : Bytes) :
    utf8ToUtf16ReplacingInvalid (front ++ text) =
      utf8ToUtf16ReplacingInvalid front ++ utf8ToUtf16ReplacingInvalid text := by
  induction front using utf8ToUtf16ReplacingInvalid.induct with
  | case1 => simp
  | case2 first rest inductionHypothesis =>
    have pass : decodePass first.toNat (rest ++ text) = decodePass first.toNat rest :=
      decodePass_append anew first.toNat rest
    have within : (decodePass first.toNat rest).2 ≤ (first :: rest).length :=
      decodePass_le first.toNat rest
    have later : (first :: rest ++ text).drop (decodePass first.toNat rest).2 =
        (first :: rest).drop (decodePass first.toNat rest).2 ++ text :=
      List.drop_append_of_le_length within
    rw [List.cons_append] at later ⊢
    rw [utf8ToUtf16_cons, pass, later, inductionHypothesis, utf8ToUtf16_cons, List.append_assoc]

end Boundary

/-- Two bytes of a sequence of three, then a letter. -/
theorem utf8ToUtf16_append_truncated :
    utf8ToUtf16ReplacingInvalid ([0xE3, 0x81] ++ [0x41]) =
      utf8ToUtf16ReplacingInvalid [0xE3, 0x81] ++ utf8ToUtf16ReplacingInvalid [0x41] :=
  utf8ToUtf16_append (by
    intro byte first
    cases first
    simp [ContinuesSequence]) [0xE3, 0x81]

end LocalWhisper.NativeText
