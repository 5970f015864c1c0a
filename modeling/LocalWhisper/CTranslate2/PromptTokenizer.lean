import Mathlib.Algebra.Group.Nat.Defs

/-! `WhisperPromptTokenizer`: byte-level pair encoding of a prompt with the
tables of `tokenizer.json`. A `std::string` is the list of its bytes. -/

namespace LocalWhisper.CTranslate2

abbrev Bytes := List UInt8

/-- `utf8_from_code_point`. -/
def utf8FromCodePoint (point : Nat) : Except String Bytes :=
  let byte (value : Nat) : UInt8 := UInt8.ofNat value
  if point ≤ 0x7F then .ok [byte point]
  else if point ≤ 0x7FF then
    .ok [byte (0xC0 ||| point >>> 6), byte (0x80 ||| point &&& 0x3F)]
  else if point ≤ 0xFFFF then
    .ok [byte (0xE0 ||| point >>> 12), byte (0x80 ||| (point >>> 6) &&& 0x3F),
      byte (0x80 ||| point &&& 0x3F)]
  else if point ≤ 0x10FFFF then
    .ok [byte (0xF0 ||| point >>> 18), byte (0x80 ||| (point >>> 12) &&& 0x3F),
      byte (0x80 ||| (point >>> 6) &&& 0x3F), byte (0x80 ||| point &&& 0x3F)]
  else .error "invalid Unicode code point"

/-- The byte values with a printable character of their own: `first` up to `last`. -/
def byteRange (first last : Nat) : List Nat := List.range' first (last + 1 - first)

/-- The columns `bytes` and `unicode` of `make_byte_encoder`. The other bytes
follow in order, numbered from 256 on. -/
def encoderColumns : List Nat × List Nat :=
  let printable := byteRange 33 126 ++ byteRange 161 172 ++ byteRange 174 255
  let columns := (List.range 256).foldl
    (fun (columns : List Nat × List Nat × Nat) value =>
      if columns.1.contains value then columns
      else (columns.1 ++ [value], columns.2.1 ++ [256 + columns.2.2], columns.2.2 + 1))
    (printable, printable, 0)
  (columns.1, columns.2.1)

/-- `make_byte_encoder`. The first entry of a byte counts. -/
def makeByteEncoder : Except String (List (UInt8 × Bytes)) :=
  (encoderColumns.1.zip encoderColumns.2).mapM fun entry => do
    let text ← utf8FromCodePoint entry.2
    return (UInt8.ofNat entry.1, text)

/-- `pair_key`. -/
def pairKey (left right : Bytes) : Bytes := left ++ 0 :: right

/-- What the constructor distinguishes in an entry of the merge list: a string,
an array whose items may be strings, or a value with another number of items. -/
inductive MergeValue where
  | text (value : Bytes)
  | list (items : List (Option Bytes))
  | other (size : Nat)
  deriving DecidableEq, Repr

/-- The parts of `tokenizer.json` that are read. -/
structure TokenizerDocument where
  vocab : List (Bytes × Nat)
  merges : List MergeValue

/-- Tables in the order of insertion; the first entry of a key counts. -/
structure WhisperPromptTokenizer where
  mergeRanks : List (Bytes × Nat)
  byteEncoder : List (UInt8 × Bytes)
  vocabulary : List (Bytes × Nat)

namespace WhisperPromptTokenizer

def arrayMerge : MergeValue → Except String (Bytes × Bytes)
  | .list [left, right] =>
    match left, right with
    | some left, some right =>
      if left.isEmpty || right.isEmpty then .error "empty BPE merge token in tokenizer.json"
      else .ok (left, right)
    | _, _ => .error "type_error"
  | .other 2 => .error "type_error"
  | _ => .error "invalid array BPE merge in tokenizer.json"

/-- An entry of a list of strings, split at its first space. -/
def stringMerge : MergeValue → Except String (Bytes × Bytes)
  | .text merge =>
    if merge.contains 32 then
      let left := merge.takeWhile (· != 32)
      let right := merge.drop (left.length + 1)
      if left.isEmpty || right.isEmpty then .error "empty BPE merge token in tokenizer.json"
      else .ok (left, right)
    else .error "invalid string BPE merge in tokenizer.json"
  | _ => .error "type_error"

/-- The ranks count all entries, also those whose key is taken already. -/
def rankMerges (entries : List (Bytes × Bytes)) : List (Bytes × Nat) :=
  (entries.map fun entry => pairKey entry.1 entry.2).zipIdx

/-- The entries of the merge list, in the form of its first entry. -/
def readMerges : List MergeValue → Except String (List (Bytes × Bytes))
  | [] => .error "BPE merges is empty in tokenizer.json"
  | .list items :: later => (.list items :: later).mapM arrayMerge
  | .text value :: later => (.text value :: later).mapM stringMerge
  | .other _ :: _ => .error "unsupported BPE merge type in tokenizer.json"

def create (document : TokenizerDocument) : Except String WhisperPromptTokenizer := do
  let byteEncoder ← makeByteEncoder
  let entries ← readMerges document.merges
  return ⟨rankMerges entries, byteEncoder, document.vocab⟩

/-- `byte_encoder_.at`. -/
def bytePiece (tokenizer : WhisperPromptTokenizer) (byte : UInt8) : Except String Bytes :=
  match tokenizer.byteEncoder.lookup byte with
  | some piece => .ok piece
  | none => .error "out_of_range"

end WhisperPromptTokenizer

/-- The largest `size_t`. -/
def maxSize : Nat := 2 ^ 64 - 1

/-- The search for the adjacent pair of lowest rank, from `index` on, with the
best rank and index so far. -/
def bestPair (rank : Bytes → Option Nat) : Nat → List Bytes → Nat × Nat → Nat × Nat
  | index, left :: right :: rest, best =>
    bestPair rank (index + 1) (right :: rest)
      (match rank (pairKey left right) with
        | some found => if found < best.1 then (found, index) else best
        | none => best)
  | _, _, best => best

/-- One pass that merges a pair wherever it occurs, from left to right. A merged
piece is compared again with what follows it. -/
def mergePair (left right : Bytes) : List Bytes → List Bytes
  | first :: second :: rest =>
    if first = left ∧ second = right then mergePair left right ((first ++ second) :: rest)
    else first :: mergePair left right (second :: rest)
  | pieces => pieces
termination_by pieces => pieces.length

private theorem length_mergePair_le (left right : Bytes) (pieces : List Bytes) :
    (mergePair left right pieces).length ≤ pieces.length := by
  fun_induction mergePair left right pieces with
  | case1 first second rest same ih =>
    simp only [List.length_cons] at *
    omega
  | case2 first second rest different ih =>
    simp only [List.length_cons] at *
    omega
  | case3 pieces _ => exact Nat.le_refl _

private theorem length_mergePair_lt {left right : Bytes} {pieces : List Bytes} {index : Nat}
    (first : pieces[index]? = some left) (second : pieces[index + 1]? = some right) :
    (mergePair left right pieces).length < pieces.length := by
  induction pieces generalizing index with
  | nil => cases first
  | cons head tail ih =>
    cases tail with
    | nil => cases second
    | cons next rest =>
      rw [mergePair]
      split
      · have shorter := length_mergePair_le left right ((head ++ next) :: rest)
        simp only [List.length_cons] at *
        omega
      · rename_i different
        cases index with
        | zero =>
          cases first
          cases second
          exact absurd ⟨rfl, rfl⟩ different
        | succ index =>
          have shorter := ih first second
          simp only [List.length_cons] at *
          omega

private theorem bestPair_inside (rank : Bytes → Option Nat) (index : Nat) (pieces : List Bytes)
    (best : Nat × Nat) :
    (bestPair rank index pieces best).2 = best.2 ∨
      (index ≤ (bestPair rank index pieces best).2 ∧
        (bestPair rank index pieces best).2 + 1 < index + pieces.length) := by
  fun_induction bestPair rank index pieces best with
  | case1 index left right rest best ih =>
    simp only [List.length_cons] at *
    cases ih with
    | inl kept =>
      rw [kept]
      cases rank (pairKey left right) with
      | none => exact .inl rfl
      | some found =>
        by_cases lower : found < best.1
        · simp only [if_pos lower]
          exact .inr ⟨Nat.le_refl _, by omega⟩
        · simp only [if_neg lower, true_or]
    | inr later => exact .inr ⟨by omega, by omega⟩
  | case2 index pieces best _ => exact .inl rfl

/-- The loop of `encode`: it ends where no adjacent pair has a rank. -/
def mergeLoop (rank : Bytes → Option Nat) (pieces : List Bytes) : List Bytes :=
  if 1 < pieces.length then
    let bestIndex := (bestPair rank 0 pieces (maxSize, pieces.length)).2
    if _found : bestIndex = pieces.length then pieces
    else mergeLoop rank (mergePair (pieces.getD bestIndex []) (pieces.getD (bestIndex + 1) []) pieces)
  else pieces
termination_by pieces.length
decreasing_by
  cases bestPair_inside rank 0 pieces (maxSize, pieces.length) with
  | inl none => exact absurd none _found
  | inr inside =>
    rw [Nat.zero_add] at inside
    apply length_mergePair_lt
    · rw [List.getD_eq_getElem?_getD, List.getElem?_eq_getElem (Nat.lt_of_succ_lt inside.2)]
      rfl
    · rw [List.getD_eq_getElem?_getD, List.getElem?_eq_getElem inside.2]
      rfl

namespace WhisperPromptTokenizer

/-- The pieces before the vocabulary check and the cut to `max_tokens`. -/
def untruncated (tokenizer : WhisperPromptTokenizer) (text : Bytes) :
    Except String (List Bytes) := do
  let pieces ← text.mapM tokenizer.bytePiece
  return mergeLoop (fun key => tokenizer.mergeRanks.lookup key) pieces

def encode (tokenizer : WhisperPromptTokenizer) (text : Bytes) (maxTokens : Nat) :
    Except String (List Bytes) :=
  if text.isEmpty || maxTokens == 0 then .ok []
  else do
    let pieces ← tokenizer.untruncated text
    if pieces.all fun piece => (tokenizer.vocabulary.lookup piece).isSome then
      return pieces.drop (pieces.length - maxTokens)
    else .error "prompt token is not in Whisper vocabulary"

end WhisperPromptTokenizer

end LocalWhisper.CTranslate2
