import LocalWhisper.CTranslate2.PromptTokenizer
import LocalWhisper.Machine.Tables

/-! `decode_whisper_tokens`, and the way of a prompt through the tokenizer and
back. -/

namespace LocalWhisper.CTranslate2

/-- The continuation bytes of a code point, as many as there are. -/
def takeTrailing : Nat → Nat → Bytes → Nat × Bytes
  | trailing + 1, point, byte :: rest =>
    takeTrailing trailing (point <<< 6 ||| (byte.toNat &&& 0x3F)) rest
  | _, point, rest => (point, rest)

private theorem length_takeTrailing_le (trailing point : Nat) (bytes : Bytes) :
    (takeTrailing trailing point bytes).2.length ≤ bytes.length := by
  fun_induction takeTrailing trailing point bytes with
  | case1 trailing point byte rest ih =>
    rw [List.length_cons]
    omega
  | case2 => exact Nat.le_refl _

/-- `utf8_code_points`. -/
def utf8CodePoints : Bytes → List Nat
  | [] => []
  | first :: rest =>
    if first < 0x80 then first.toNat :: utf8CodePoints rest
    else
      let trailing := if first < 0xE0 then 1 else if first < 0xF0 then 2 else 3
      let point := takeTrailing trailing (first.toNat &&& (0x7F >>> trailing)) rest
      point.1 :: utf8CodePoints point.2
termination_by text => text.length
decreasing_by
  · exact Nat.lt_succ_self _
  · exact Nat.lt_succ_of_le (length_takeTrailing_le _ _ _)

/-- The columns `bytes` and `unicode` of `byte_decoder`. -/
def decoderColumns : List Nat × List Nat :=
  let printable := byteRange 33 126 ++ byteRange 161 172 ++ byteRange 174 255
  let columns := (List.range 256).foldl
    (fun (columns : List Nat × List Nat × Nat) value =>
      let included := columns.1.foldl (fun included byte => included || byte == value) false
      if included then columns
      else (columns.1 ++ [value], columns.2.1 ++ [256 + columns.2.2], columns.2.2 + 1))
    (printable, printable, 0)
  (columns.1, columns.2.1)

/-- `byte_decoder`. -/
def byteDecoder : List (Nat × UInt8) :=
  decoderColumns.2.zip (decoderColumns.1.map UInt8.ofNat)

/-- `decoder.find`. -/
def decodePoint (point : Nat) : Option UInt8 := byteDecoder.lookup point

/-- A token that the decoder leaves out: four bytes or more, the first two "<|". -/
def isSpecial (token : Bytes) : Bool := decide (4 ≤ token.length) && token.take 2 == [0x3C, 0x7C]

def decodeToken (token : Bytes) : Bytes :=
  if isSpecial token then []
  else (utf8CodePoints token).filterMap decodePoint

def decodeWhisperTokens (tokens : List Bytes) : Bytes := tokens.flatMap decodeToken

/-- The code point of a text of one or two bytes. -/
def shortPoint : Bytes → Nat
  | [first] => first.toNat
  | [first, second] => (first.toNat &&& 0x3F) <<< 6 ||| (second.toNat &&& 0x3F)
  | _ => 0

/-- A text that is read as one code point, whatever follows it. -/
def isShort : Bytes → Bool
  | [first] => decide (first < 0x80)
  | [first, _] => decide (¬ first < 0x80 ∧ first < 0xE0)
  | _ => false

theorem utf8CodePoints_short {piece : Bytes} (short : isShort piece = true) (rest : Bytes) :
    utf8CodePoints (piece ++ rest) = shortPoint piece :: utf8CodePoints rest := by
  match piece, short with
  | [first], short =>
    have ascii := of_decide_eq_true short
    rw [List.cons_append, utf8CodePoints, if_pos ascii]
    rfl
  | [first, second], short =>
    have lead := of_decide_eq_true short
    rw [List.cons_append, utf8CodePoints, if_neg lead.1]
    simp only [if_pos lead.2]
    rfl

/-- The bytes in the order of both tables: the printable ones, then the others. -/
def byteValues : List Nat :=
  byteRange 33 126 ++ byteRange 161 172 ++ byteRange 174 255 ++
    (byteRange 0 32 ++ byteRange 127 160 ++ [173])

def pointOf (byte : Nat) : Nat :=
  if byte ≤ 32 then byte + 256
  else if 127 ≤ byte ∧ byte ≤ 160 then byte + 162
  else if byte = 173 then 323
  else byte

def textOf (byte : Nat) : Bytes := (utf8FromCodePoint (pointOf byte)).toOption.getD []

/-- The values below `count` that a list lacks. -/
def missing (bytes : List Nat) (count : Nat) : List Nat :=
  (List.range count).filter fun value => !bytes.contains value

private theorem missing_succ (bytes : List Nat) (count : Nat) : missing bytes (count + 1) =
    if bytes.contains count then missing bytes count else missing bytes count ++ [count] := by
  unfold missing
  rw [List.range_succ, List.filter_append, List.filter_cons, List.filter_nil]
  cases bytes.contains count with
  | true => exact List.append_nil _
  | false => rfl

/-- The loop that numbers the bytes missing in `bytes`: it finds those of the
list it starts with, as the bytes it adds are all smaller. -/
theorem foldl_columns (included : List Nat → Nat → Bool)
    (membership : ∀ bytes value, included bytes value = bytes.contains value)
    (bytes : List Nat) (count : Nat) :
    (List.range count).foldl
        (fun (columns : List Nat × List Nat × Nat) value =>
          if included columns.1 value then columns
          else (columns.1 ++ [value], columns.2.1 ++ [256 + columns.2.2], columns.2.2 + 1))
        (bytes, bytes, 0) =
      (bytes ++ missing bytes count,
        bytes ++ (List.range (missing bytes count).length).map (256 + ·),
        (missing bytes count).length) := by
  induction count with
  | zero => simp [missing]
  | succ count ih =>
    have later : (missing bytes count).contains count = false := by
      rw [← Bool.not_eq_true, List.contains_iff_mem]
      intro member
      have below := List.mem_range.mp (List.mem_filter.mp member).1
      omega
    rw [List.range_succ, List.foldl_append, ih, List.foldl_cons, List.foldl_nil, membership,
      List.contains_append, later, Bool.or_false, missing_succ]
    cases bytes.contains count with
    | true => rfl
    | false =>
      simp only [Bool.false_eq_true, if_false, List.length_append, List.length_singleton,
        List.range_succ, List.map_append, List.map_singleton, List.append_assoc]

private theorem contains_printable (value : Nat) :
    (byteRange 33 126 ++ byteRange 161 172 ++ byteRange 174 255).contains value =
      decide (33 ≤ value ∧ value ≤ 126 ∨ 161 ≤ value ∧ value ≤ 172 ∨
        174 ≤ value ∧ value ≤ 255) := by
  rw [Bool.eq_iff_iff, List.contains_iff_mem, decide_eq_true_iff]
  simp only [byteRange, List.mem_append, List.mem_range'_1]
  omega

theorem missing_printable :
    missing (byteRange 33 126 ++ byteRange 161 172 ++ byteRange 174 255) 256 =
      byteRange 0 32 ++ byteRange 127 160 ++ [173] := by
  unfold missing
  simp only [contains_printable]
  decide +kernel

theorem points_of_bytes :
    byteRange 33 126 ++ byteRange 161 172 ++ byteRange 174 255 ++
      (List.range (byteRange 0 32 ++ byteRange 127 160 ++ [173]).length).map (256 + ·) =
        byteValues.map pointOf := by
  decide +kernel

private theorem encoderColumns_eq : encoderColumns = (byteValues, byteValues.map pointOf) := by
  have columns := foldl_columns List.contains (fun _ _ => rfl)
    (byteRange 33 126 ++ byteRange 161 172 ++ byteRange 174 255) 256
  rw [missing_printable, points_of_bytes] at columns
  unfold encoderColumns
  simp only [columns]
  rfl

private theorem decoderColumns_eq : decoderColumns = (byteValues, byteValues.map pointOf) := by
  have search : ∀ (bytes : List Nat) (value : Nat) (start : Bool),
      bytes.foldl (fun included byte => included || byte == value) start =
        (start || bytes.contains value) := by
    intro bytes value
    induction bytes with
    | nil => simp
    | cons byte rest ih =>
      intro start
      rw [List.foldl_cons, ih, List.contains_cons, Bool.or_assoc, Bool.beq_comm]
  have columns := foldl_columns
    (fun bytes value => bytes.foldl (fun included byte => included || byte == value) false)
    (fun bytes value => (search bytes value false).trans (Bool.false_or _))
    (byteRange 33 126 ++ byteRange 161 172 ++ byteRange 174 255) 256
  rw [missing_printable, points_of_bytes] at columns
  unfold decoderColumns
  simp only [columns]
  rfl

theorem mem_byteValues {byte : Nat} : byte ∈ byteValues ↔ byte < 256 := by
  simp only [byteValues, byteRange, List.mem_append, List.mem_range'_1, List.mem_singleton]
  omega

theorem pointOf_injective {first second : Nat} (firstByte : first < 256) (secondByte : second < 256)
    (same : pointOf first = pointOf second) : first = second := by
  unfold pointOf at same
  grind

private theorem points_short :
    ((List.range 324).all fun point =>
      match utf8FromCodePoint point with
      | .ok piece => isShort piece && shortPoint piece == point
      | .error _ => false) = true := by
  decide +kernel

private theorem pointOf_lt {byte : Nat} (small : byte < 256) : pointOf byte < 324 := by
  unfold pointOf
  grind

theorem textOf_short {byte : Nat} (small : byte < 256) :
    utf8FromCodePoint (pointOf byte) = .ok (textOf byte) ∧ isShort (textOf byte) = true ∧
      shortPoint (textOf byte) = pointOf byte := by
  have point := List.all_eq_true.mp points_short (pointOf byte)
    (List.mem_range.mpr (pointOf_lt small))
  unfold textOf
  cases made : utf8FromCodePoint (pointOf byte) with
  | error message =>
    rw [made] at point
    cases point
  | ok piece =>
    rw [made] at point
    obtain ⟨short, same⟩ := Bool.and_eq_true_iff.mp point
    exact ⟨rfl, short, beq_iff_eq.mp same⟩

theorem lookup_map {Index Key Value : Type} [BEq Key] [LawfulBEq Key] (key : Index → Key)
    (value : Index → Value) {indices : List Index} {index : Index} (member : index ∈ indices)
    (different : ∀ other ∈ indices, key other = key index → other = index) :
    (indices.map fun index => (key index, value index)).lookup (key index) =
      some (value index) := by
  induction indices with
  | nil => cases member
  | cons first rest ih =>
    rw [List.map_cons, List.lookup_cons]
    by_cases same : key index = key first
    · rw [different first List.mem_cons_self same.symm, beq_self_eq_true]
    · rw [beq_eq_false_iff_ne.mpr same]
      cases List.mem_cons.mp member with
      | inl here => exact absurd (congrArg key here) same
      | inr later =>
        exact ih later fun other listed => different other (List.mem_cons_of_mem first listed)

theorem mapM_ok {First Second : Type} {list : List First} {step : First → Except String Second}
    (result : First → Second) (all : ∀ value ∈ list, step value = .ok (result value)) :
    list.mapM step = .ok (list.map result) :=
  Machine.mapM_of_pure result all

theorem makeByteEncoder_eq :
    makeByteEncoder = .ok (byteValues.map fun byte => (UInt8.ofNat byte, textOf byte)) := by
  have entries : encoderColumns.1.zip encoderColumns.2 =
      byteValues.map fun byte => (byte, pointOf byte) := by
    rw [encoderColumns_eq]
    exact List.map_prod_left_eq_zip.symm
  unfold makeByteEncoder
  rw [entries, mapM_ok fun entry => (UInt8.ofNat entry.1, textOf entry.1)]
  · rw [List.map_map]
    rfl
  · intro entry member
    obtain ⟨byte, listed, same⟩ := List.mem_map.mp member
    rw [← same, (textOf_short (mem_byteValues.mp listed)).1]
    rfl

theorem byteDecoder_eq :
    byteDecoder = byteValues.map fun byte => (pointOf byte, UInt8.ofNat byte) := by
  unfold byteDecoder
  rw [decoderColumns_eq]
  exact List.zip_map'

/-- The byte tables of the tokenizer and of the decoder are inverse to each
other. -/
structure InverseTables (encoder : List (UInt8 × Bytes)) : Prop where
  encoded : ∀ byte, ∃ point piece, encoder.lookup byte = some piece ∧
    utf8FromCodePoint point = .ok piece ∧ utf8CodePoints piece = [point] ∧
      decodePoint point = some byte
  decoded : ∀ point byte, decodePoint point = some byte →
    ∃ piece, encoder.lookup byte = some piece ∧ utf8FromCodePoint point = .ok piece

section Tables

variable {encoder : List (UInt8 × Bytes)}

theorem encoder_lookup (made : makeByteEncoder = .ok encoder) (byte : UInt8) :
    encoder.lookup byte = some (textOf byte.toNat) := by
  rw [← Except.ok.inj (makeByteEncoder_eq.symm.trans made)]
  have found := lookup_map UInt8.ofNat textOf (mem_byteValues.mpr byte.toNat_lt)
    (fun other listed same => by
      have value := congrArg UInt8.toNat same
      rw [UInt8.ofNat_toNat, UInt8.toNat_ofNat_of_lt' (mem_byteValues.mp listed)] at value
      exact value)
  rw [UInt8.ofNat_toNat] at found
  exact found

theorem decodePoint_pointOf {byte : Nat} (small : byte < 256) :
    decodePoint (pointOf byte) = some (UInt8.ofNat byte) := by
  unfold decodePoint
  rw [byteDecoder_eq]
  exact lookup_map pointOf UInt8.ofNat (mem_byteValues.mpr small)
    (fun other listed same => pointOf_injective (mem_byteValues.mp listed) small same)

theorem mem_of_lookup {Key Value : Type} [BEq Key] [LawfulBEq Key] {table : List (Key × Value)}
    {key : Key} {value : Value} (found : table.lookup key = some value) :
    (key, value) ∈ table := by
  induction table with
  | nil => cases found
  | cons entry later ih =>
    obtain ⟨name, held⟩ := entry
    rw [List.lookup_cons] at found
    by_cases same : key = name
    · rw [same, beq_self_eq_true] at found
      injection found with equal
      rw [same, equal]
      exact List.mem_cons_self
    · rw [beq_eq_false_iff_ne.mpr same] at found
      exact List.mem_cons_of_mem _ (ih found)

private theorem inverseTables (made : makeByteEncoder = .ok encoder) : InverseTables encoder := by
  constructor
  · intro byte
    obtain ⟨text, short, point⟩ := textOf_short byte.toNat_lt
    have decoded := decodePoint_pointOf byte.toNat_lt
    rw [UInt8.ofNat_toNat] at decoded
    refine ⟨pointOf byte.toNat, textOf byte.toNat, encoder_lookup made byte, text, ?_, decoded⟩
    have read := utf8CodePoints_short short []
    rw [List.append_nil] at read
    rw [read, utf8CodePoints, point]
  · intro point byte held
    unfold decodePoint at held
    rw [byteDecoder_eq] at held
    obtain ⟨value, listed, entry⟩ := List.mem_map.mp (mem_of_lookup held)
    have small := mem_byteValues.mp listed
    injection entry with pointIs byteIs
    refine ⟨textOf value, ?_, ?_⟩
    · rw [← byteIs, encoder_lookup made, UInt8.toNat_ofNat_of_lt' small]
    · rw [← pointIs]
      exact (textOf_short small).1

def encodeBytes (encoder : List (UInt8 × Bytes)) (part : Bytes) : Bytes :=
  part.flatMap fun byte => (encoder.lookup byte).getD []

theorem encodeBytes_append (left right : Bytes) :
    encodeBytes encoder (left ++ right) = encodeBytes encoder left ++ encodeBytes encoder right :=
  List.flatMap_append

/-- The text of some bytes is read as these bytes. -/
theorem read_encodeBytes (made : makeByteEncoder = .ok encoder) (part : Bytes) :
    (utf8CodePoints (encodeBytes encoder part)).filterMap decodePoint = part := by
  induction part with
  | nil =>
    show (utf8CodePoints []).filterMap _ = []
    rw [utf8CodePoints]
    rfl
  | cons byte rest ih =>
    obtain ⟨text, short, point⟩ := textOf_short byte.toNat_lt
    have decoded := decodePoint_pointOf byte.toNat_lt
    rw [UInt8.ofNat_toNat] at decoded
    have split : encodeBytes encoder (byte :: rest) =
        textOf byte.toNat ++ encodeBytes encoder rest := by
      unfold encodeBytes
      rw [List.flatMap_cons, encoder_lookup made]
      rfl
    rw [split, utf8CodePoints_short short, List.filterMap_cons, point, decoded, ih]

private theorem decodeToken_encodeBytes (made : makeByteEncoder = .ok encoder) {part : Bytes}
    (plain : isSpecial (encodeBytes encoder part) = false) :
    decodeToken (encodeBytes encoder part) = part := by
  unfold decodeToken
  rw [plain]
  exact read_encodeBytes made part

private theorem mergePair_parts (left right : Bytes) (pieces parts : List Bytes)
    (grouped : pieces = parts.map (encodeBytes encoder)) :
    ∃ joined : List Bytes, mergePair left right pieces = joined.map (encodeBytes encoder) ∧
      joined.flatten = parts.flatten := by
  fun_induction mergePair left right pieces generalizing parts with
  | case1 first second rest same ih =>
    obtain ⟨one, tail, rfl, firstIs, grouped⟩ := List.map_eq_cons_iff.mp grouped.symm
    obtain ⟨two, later, rfl, secondIs, restIs⟩ := List.map_eq_cons_iff.mp grouped
    obtain ⟨joined, merged, flat⟩ := ih ((one ++ two) :: later) (by
      rw [List.map_cons, encodeBytes_append, firstIs, secondIs, restIs])
    refine ⟨joined, merged, ?_⟩
    rw [flat, List.flatten_cons, List.flatten_cons, List.flatten_cons, List.append_assoc]
  | case2 first second rest different ih =>
    obtain ⟨one, later, rfl, firstIs, laterIs⟩ := List.map_eq_cons_iff.mp grouped.symm
    obtain ⟨joined, merged, flat⟩ := ih later laterIs.symm
    refine ⟨one :: joined, ?_, ?_⟩
    · rw [merged, List.map_cons, firstIs]
    · rw [List.flatten_cons, flat, List.flatten_cons]
  | case3 => exact ⟨parts, grouped, rfl⟩

/-- The loop joins the byte groups of the pieces, by induction on its passes. -/
theorem mergeLoop_parts (rank : Bytes → Option Nat) (pieces parts : List Bytes)
    (grouped : pieces = parts.map (encodeBytes encoder)) :
    ∃ joined : List Bytes, mergeLoop rank pieces = joined.map (encodeBytes encoder) ∧
      joined.flatten = parts.flatten := by
  fun_induction mergeLoop rank pieces generalizing parts with
  | case1 => exact ⟨parts, grouped, rfl⟩
  | case2 pieces more bestIndex found ih =>
    obtain ⟨joined, merged, flat⟩ := mergePair_parts _ _ pieces parts grouped
    obtain ⟨last, final, lastFlat⟩ := ih joined merged
    exact ⟨last, final, lastFlat.trans flat⟩
  | case3 => exact ⟨parts, grouped, rfl⟩

end Tables

theorem flatten_mergePair (left right : Bytes) (pieces : List Bytes) :
    (mergePair left right pieces).flatten = pieces.flatten := by
  fun_induction mergePair left right pieces with
  | case1 first second rest same ih =>
    rw [ih, List.flatten_cons, List.flatten_cons, List.flatten_cons, List.append_assoc]
  | case2 first second rest different ih =>
    rw [List.flatten_cons, ih]
    rfl
  | case3 => rfl

/-- Merging never changes the concatenation of the pieces. -/
theorem flatten_mergeLoop (rank : Bytes → Option Nat) (pieces : List Bytes) :
    (mergeLoop rank pieces).flatten = pieces.flatten := by
  fun_induction mergeLoop rank pieces with
  | case1 => rfl
  | case2 pieces more bestIndex found ih => rw [ih, flatten_mergePair]
  | case3 => rfl

namespace WhisperPromptTokenizer

theorem ok_of_bind {First Second : Type} {first : Except String First}
    {next : First → Except String Second} {result : Second}
    (done : (first >>= next) = .ok result) :
    ∃ value, first = .ok value ∧ next value = .ok result := by
  cases first with
  | error message => cases done
  | ok value => exact ⟨value, rfl, done⟩

theorem byteEncoder_of_create {document : TokenizerDocument} {tokenizer : WhisperPromptTokenizer}
    (accepted : create document = .ok tokenizer) : makeByteEncoder = .ok tokenizer.byteEncoder := by
  unfold create at accepted
  have first := ok_of_bind accepted
  obtain ⟨encoder, made, later⟩ := first
  have second := ok_of_bind later
  obtain ⟨entries, read, last⟩ := second
  rw [← Except.ok.inj last]
  exact made

private theorem untruncated_parts {tokenizer : WhisperPromptTokenizer}
    (made : makeByteEncoder = .ok tokenizer.byteEncoder) (text : Bytes) :
    ∃ parts : List Bytes,
      tokenizer.untruncated text = .ok (parts.map (encodeBytes tokenizer.byteEncoder)) ∧
        parts.flatten = text := by
  have single : ∀ byte, tokenizer.bytePiece byte =
      .ok (encodeBytes tokenizer.byteEncoder [byte]) := by
    intro byte
    unfold bytePiece encodeBytes
    rw [List.flatMap_cons, encoder_lookup made]
    exact congrArg Except.ok (List.append_nil _).symm
  have pieces : text.mapM tokenizer.bytePiece =
      .ok ((text.map fun byte => [byte]).map (encodeBytes tokenizer.byteEncoder)) := by
    rw [mapM_ok _ fun byte _ => single byte, List.map_map]
    rfl
  obtain ⟨joined, merged, flat⟩ := mergeLoop_parts
    (fun key => tokenizer.mergeRanks.lookup key) _ (text.map fun byte => [byte])
    (show (text.map fun byte => [byte]).map (encodeBytes tokenizer.byteEncoder) = _ from rfl)
  refine ⟨joined, ?_, ?_⟩
  · unfold untruncated
    rw [pieces, ← merged]
    rfl
  · rw [flat]
    rw [← List.flatMap_def]
    exact List.flatMap_singleton' text

private theorem decode_parts {encoder : List (UInt8 × Bytes)} (made : makeByteEncoder = .ok encoder)
    (parts : List Bytes)
    (plain : ∀ token ∈ parts.map (encodeBytes encoder), isSpecial token = false) :
    decodeWhisperTokens (parts.map (encodeBytes encoder)) = parts.flatten := by
  induction parts with
  | nil => rfl
  | cons part later ih =>
    have first : decodeToken (encodeBytes encoder part) = part :=
      decodeToken_encodeBytes made (plain _ List.mem_cons_self)
    have others := ih fun token member => plain token (List.mem_cons_of_mem _ member)
    unfold decodeWhisperTokens at *
    rw [List.map_cons, List.flatMap_cons, first, others, List.flatten_cons]

/-- A prompt that is encoded without an exception is decoded to its end, and to
the whole of it where no token is cut off. -/
theorem decode_encode {document : TokenizerDocument} {tokenizer : WhisperPromptTokenizer}
    (accepted : create document = .ok tokenizer) {text : Bytes} {maxTokens : Nat}
    {tokens : List Bytes} (encoded : tokenizer.encode text maxTokens = .ok tokens)
    (plain : ∀ token ∈ tokens, isSpecial token = false) :
    decodeWhisperTokens tokens <:+ text ∧
      (∃ pieces, tokenizer.untruncated text = .ok pieces ∧
        (pieces.length ≤ maxTokens → decodeWhisperTokens tokens = text)) ∧
      InverseTables tokenizer.byteEncoder ∧
      ∀ pieces, (mergeLoop (fun key => tokenizer.mergeRanks.lookup key) pieces).flatten =
        pieces.flatten := by
  have made := byteEncoder_of_create accepted
  obtain ⟨parts, untruncated, flat⟩ := untruncated_parts made text
  have ends : ∃ dropped, tokens = (parts.drop dropped).map (encodeBytes tokenizer.byteEncoder) ∧
      (parts.length ≤ maxTokens → dropped = 0) := by
    unfold encode at encoded
    by_cases skipped : (text.isEmpty || maxTokens == 0) = true
    · rw [if_pos skipped] at encoded
      injection encoded with none
      refine ⟨parts.length, ?_, ?_⟩
      · rw [List.drop_length, ← none]
        rfl
      · intro fits
        cases Bool.or_eq_true_iff.mp skipped with
        | inl empty =>
          rw [List.isEmpty_iff.mp empty] at untruncated
          have none : parts.map (encodeBytes tokenizer.byteEncoder) = [] := by
            have noPieces : tokenizer.untruncated [] = .ok [] := by
              unfold WhisperPromptTokenizer.untruncated
              rw [List.mapM_nil]
              show Except.ok (mergeLoop _ []) = _
              rw [mergeLoop]
              rfl
            exact Except.ok.inj (untruncated.symm.trans noPieces)
          exact congrArg List.length (List.map_eq_nil_iff.mp none)
        | inr zero =>
          have limit := beq_iff_eq.mp zero
          omega
    · rw [if_neg skipped, untruncated] at encoded
      let pieces := parts.map (encodeBytes tokenizer.byteEncoder)
      have checked : (if pieces.all fun piece => (tokenizer.vocabulary.lookup piece).isSome then
          .ok (pieces.drop (pieces.length - maxTokens))
          else .error "prompt token is not in Whisper vocabulary" : Except String (List Bytes)) =
            .ok tokens := encoded
      split at checked
      · injection checked with kept
        have length : pieces.length = parts.length := List.length_map _
        refine ⟨pieces.length - maxTokens, ?_, by omega⟩
        rw [← kept, List.map_drop]
      · cases checked
  obtain ⟨dropped, tokensAre, whole⟩ := ends
  have decoded : decodeWhisperTokens tokens = (parts.drop dropped).flatten := by
    rw [tokensAre] at plain ⊢
    exact decode_parts made _ plain
  refine ⟨?_, ⟨_, untruncated, ?_⟩, inverseTables made, fun pieces => flatten_mergeLoop _ pieces⟩
  · rw [decoded, ← flat]
    refine ⟨(parts.take dropped).flatten, ?_⟩
    rw [← List.flatten_append, List.take_append_drop]
  · intro fits
    rw [List.length_map] at fits
    rw [decoded, whole fits, List.drop_zero, flat]

theorem ok_of_toOption {Value : Type} {result : Except String Value} {value : Value}
    (done : result.toOption = some value) : result = .ok value := by
  cases result with
  | error message => cases done
  | ok other => exact congrArg Except.ok (Option.some.inj done)

/-- "ab", merged to one token. -/
theorem decode_encode_pair :
    ∃ tokenizer tokens, create ⟨[([97, 98], 0)], [.text [97, 32, 98]]⟩ = .ok tokenizer ∧
      tokenizer.encode [97, 98] 5 = .ok tokens ∧ tokens = [[97, 98]] ∧
      decodeWhisperTokens tokens = [97, 98] := by
  let tokenizer : WhisperPromptTokenizer :=
    ⟨[([97, 0, 98], 0)], byteValues.map fun byte => (UInt8.ofNat byte, textOf byte),
      [([97, 98], 0)]⟩
  have accepted : create ⟨[([97, 98], 0)], [.text [97, 32, 98]]⟩ = .ok tokenizer := by
    unfold create
    rw [makeByteEncoder_eq]
    rfl
  have encoded : tokenizer.encode [97, 98] 5 = .ok [[97, 98]] :=
    ok_of_toOption (by decide +kernel)
  have short : tokenizer.untruncated [97, 98] = .ok [[97, 98]] :=
    ok_of_toOption (by decide +kernel)
  obtain ⟨-, ⟨pieces, untruncated, whole⟩, -⟩ :=
    decode_encode accepted encoded (by decide)
  have one : pieces.length ≤ 5 := by
    rw [← Except.ok.inj (short.symm.trans untruncated)]
    decide
  exact ⟨tokenizer, _, accepted, encoded, rfl, whole one⟩

end WhisperPromptTokenizer

end LocalWhisper.CTranslate2
