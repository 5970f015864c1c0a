import Mathlib.Algebra.Group.Nat.Defs
import LocalWhisper.Machine.Unicode

/-! Little-endian numbers, and a reader of RIFF files of the form WAVE. -/

namespace LocalWhisper.Machine.Riff

open Unicode

def littleEndian : Nat → Nat → List UInt8
  | 0, _ => []
  | width + 1, value => UInt8.ofNat value :: littleEndian width (value / 256)

def ofLittleEndian : List UInt8 → Nat
  | [] => 0
  | byte :: rest => byte.toNat + 256 * ofLittleEndian rest

@[simp] theorem length_littleEndian (width value : Nat) :
    (littleEndian width value).length = width := by
  induction width generalizing value with
  | zero => rfl
  | succ width ih => rw [littleEndian, List.length_cons, ih]

/-- A number comes back up to the range of its width. -/
theorem ofLittleEndian_littleEndian (width value : Nat) :
    ofLittleEndian (littleEndian width value) = value % 256 ^ width := by
  induction width generalizing value with
  | zero => rw [littleEndian, ofLittleEndian, Nat.pow_zero, Nat.mod_one]
  | succ width ih =>
    rw [littleEndian, ofLittleEndian, ih, toNat_ofNat8, Nat.pow_succ, Nat.mul_comm (256 ^ width),
      Nat.mod_mul]

def ascii (text : String) : List UInt8 := text.toList.map fun char => UInt8.ofNat char.toNat

structure Chunk where
  id : List UInt8
  body : List UInt8
  deriving DecidableEq, Repr

def number (bytes : List UInt8) (offset width : Nat) : Nat :=
  ofLittleEndian ((bytes.drop offset).take width)

/-- The chunks one behind the other; every one takes at least eight bytes, and
one of odd size a byte more. -/
def chunks : Nat → List UInt8 → Option (List Chunk)
  | _, [] => some []
  | 0, _ :: _ => none
  | fuel + 1, bytes =>
    let size := number bytes 4 4
    if bytes.length < 8 + size then none
    else
      (chunks fuel (bytes.drop (8 + size + size % 2))).map
        (⟨bytes.take 4, (bytes.drop 8).take size⟩ :: ·)

private theorem number_append {front bytes back : List UInt8} {offset width : Nat}
    (before : front.length = offset) (wide : bytes.length = width) :
    number (front ++ bytes ++ back) offset width = ofLittleEndian bytes := by
  rw [number, List.append_assoc, List.drop_left' before, List.take_left' wide]

/-- A chunk is read if its size is that of its body. -/
theorem chunks_append {fuel : Nat} {id size body later : List UInt8} (named : id.length = 4)
    (sized : size.length = 4) (right : ofLittleEndian size = body.length)
    (padded : body.length % 2 = 0 ∨ later = []) :
    chunks (fuel + 1) (id ++ size ++ body ++ later) =
      (chunks fuel later).map (⟨id, body⟩ :: ·) := by
  obtain ⟨bytes, all⟩ : ∃ bytes, id ++ size ++ body ++ later = bytes := ⟨_, rfl⟩
  have field : number bytes 4 4 = body.length := by
    rw [← all, List.append_assoc (id ++ size), number_append named sized, right]
  have length : bytes.length = 8 + body.length + later.length := by
    simp only [← all, List.length_append]
    omega
  have front : (id ++ size).length = 8 := by rw [List.length_append, named, sized]
  have name : bytes.take 4 = id := by
    rw [← all, List.append_assoc, List.append_assoc, List.take_left' named]
  have content : (bytes.drop 8).take body.length = body := by
    rw [← all, List.append_assoc (id ++ size), List.drop_left' front, List.take_left' rfl]
  have rest : bytes.drop (8 + body.length + body.length % 2) = later := by
    rcases padded with even | none
    · rw [even, ← all]
      exact List.drop_left' (by rw [List.length_append, front, Nat.add_zero])
    · rw [none, List.length_nil] at length
      rw [none]
      exact List.drop_eq_nil_of_le (by omega)
  rw [all]
  cases bytes with
  | nil => simp at length; omega
  | cons byte more =>
    rw [chunks, field, name, content, rest]
    · exact if_neg (by omega)
    · exact nofun

structure Wave where
  riffSize : Nat
  format : Nat
  channels : Nat
  sampleRate : Nat
  byteRate : Nat
  blockAlign : Nat
  bitsPerSample : Nat
  dataSize : Nat
  data : List UInt8
  deriving DecidableEq, Repr

/-- The file is one RIFF chunk of the form WAVE, with a format and data in it. -/
def parseWave (file : List UInt8) : Option Wave := do
  if file.take 4 ≠ ascii "RIFF" ∨ (file.drop 8).take 4 ≠ ascii "WAVE" ∨
      file.length ≠ 8 + number file 4 4 then none
  else do
    let parts ← chunks file.length (file.drop 12)
    let format ← parts.find? (·.id = ascii "fmt ")
    let data ← parts.find? (·.id = ascii "data")
    if format.body.length < 16 then none
    else some {
      riffSize := number file 4 4
      format := number format.body 0 2
      channels := number format.body 2 2
      sampleRate := number format.body 4 4
      byteRate := number format.body 8 4
      blockAlign := number format.body 12 2
      bitsPerSample := number format.body 14 2
      dataSize := data.body.length
      data := data.body }

end LocalWhisper.Machine.Riff
