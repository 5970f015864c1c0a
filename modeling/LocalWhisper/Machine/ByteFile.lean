import Mathlib.Data.List.Basic

/-! A file of bytes that is read and written at one position. -/

namespace LocalWhisper.Machine

/-- The bytes of an open file, and where the next access begins. -/
structure ByteFile where
  contents : List UInt8
  position : Nat
  deriving DecidableEq, Repr

namespace ByteFile

def seek (file : ByteFile) (position : Nat) : ByteFile := { file with position }

/-- A file that is cut also takes its position back; one that grows gets zeros. -/
def setLength (file : ByteFile) (length : Nat) : ByteFile :=
  { contents := file.contents.take length ++ List.replicate (length - file.contents.length) 0
    position := min file.position length }

/-- The bytes replace those at the position, or follow at the end. A gap before
the position is filled with zeros. -/
def write (file : ByteFile) (bytes : List UInt8) : ByteFile :=
  if bytes = [] then file
  else
    { contents := file.contents.take file.position ++
        List.replicate (file.position - file.contents.length) 0 ++ bytes ++
        file.contents.drop (file.position + bytes.length)
      position := file.position + bytes.length }

@[simp] theorem write_nil (file : ByteFile) : file.write [] = file := if_pos rfl

@[simp] theorem write_position (file : ByteFile) (bytes : List UInt8) :
    (file.write bytes).position = file.position + bytes.length := by
  unfold write
  split
  · next none => simp [none]
  · rfl

private theorem length_front (contents : List UInt8) (position : Nat) :
    (contents.take position ++ List.replicate (position - contents.length) 0).length = position := by
  rw [List.length_append, List.length_take, List.length_replicate]
  omega

/-- Two writes in a row are one. -/
theorem write_write (file : ByteFile) (first second : List UInt8) :
    (file.write first).write second = file.write (first ++ second) := by
  by_cases firstNone : first = []
  · rw [firstNone, write_nil, List.nil_append]
  by_cases secondNone : second = []
  · rw [secondNone, write_nil, List.append_nil]
  obtain ⟨front, frontIs⟩ : ∃ front, file.contents.take file.position ++
      List.replicate (file.position - file.contents.length) 0 = front := ⟨_, rfl⟩
  have frontLength : front.length = file.position := frontIs ▸ length_front _ _
  have reached : (front ++ first).length = file.position + first.length := by
    rw [List.length_append, frontLength]
  have written : file.write first =
      ⟨front ++ first ++ file.contents.drop (file.position + first.length),
        file.position + first.length⟩ := by
    rw [write, if_neg firstNone, frontIs]
  have both : file.write (first ++ second) =
      ⟨front ++ first ++ second ++ file.contents.drop (file.position + first.length + second.length),
        file.position + first.length + second.length⟩ := by
    rw [write, if_neg (by simp [firstNone]), frontIs, List.length_append, ← List.append_assoc,
      Nat.add_assoc]
  have dropped (rest : List UInt8) :
      (front ++ first ++ rest).drop (file.position + first.length + second.length) =
        rest.drop second.length := by
    rw [← reached, ← List.drop_drop, List.drop_left]
  have noGap (rest : List UInt8) :
      file.position + first.length - (front ++ first ++ rest).length = 0 := by
    rw [List.length_append, reached]
    omega
  rw [both, written, write, if_neg secondNone]
  simp only [mk.injEq, and_true]
  rw [List.take_left' reached, dropped, noGap, List.drop_drop, List.replicate_zero,
    List.append_nil]

/-- A write at the end appends. -/
theorem write_end {file : ByteFile} (atEnd : file.position = file.contents.length)
    (bytes : List UInt8) : (file.write bytes).contents = file.contents ++ bytes := by
  unfold write
  split
  · next none => rw [none, List.append_nil]
  · simp [atEnd]

/-- A write at the start replaces as many bytes as it has. -/
theorem seek_write (file : ByteFile) {front back bytes : List UInt8}
    (parts : file.contents = front ++ back) (same : bytes.length = front.length) :
    ((file.seek 0).write bytes).contents = bytes ++ back := by
  unfold write seek
  split
  · next none =>
    rw [none, List.length_nil] at same
    rw [parts, List.eq_nil_of_length_eq_zero same.symm, none]
  · simp [parts, same]

end ByteFile

end LocalWhisper.Machine
