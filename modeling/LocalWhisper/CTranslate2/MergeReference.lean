import LocalWhisper.CTranslate2.TokenDecoder
import LocalWhisper.Machine.PairMerging

/-! The merge loop of `WhisperPromptTokenizer::encode` against the reference that
merges one pair at a time. -/

namespace LocalWhisper.CTranslate2

open Machine.PairMerging

section Pass

variable {rank : Bytes → Bytes → Option Nat} (fresh : Fresh rank)
  {left right : Bytes} {level : Nat} (ranked : rank left right = some level)

include fresh ranked

theorem mergePair_steps (passed rest : List Bytes) (lowest : AtLeast rank level (passed ++ rest))
    (avoids : Avoids left right (passed ++ rest.take 1)) :
    Relation.ReflTransGen (Step rank) (passed ++ rest) (passed ++ mergePair left right rest) := by
  fun_induction mergePair left right rest generalizing passed with
  | case1 first second rest same inductionHypothesis =>
    obtain ⟨rfl, rfl⟩ := same
    have step : Step rank (passed ++ first :: second :: rest)
        (passed ++ (first ++ second) :: rest) := .merge ranked lowest avoids
    exact .head step (inductionHypothesis passed (atLeast_merge fresh ranked lowest)
      (avoids_merged fresh ranked avoids))
  | case2 first second rest different inductionHypothesis =>
    have moved : passed ++ first :: second :: rest = passed ++ [first] ++ second :: rest := by simp
    have later := inductionHypothesis (passed ++ [first]) (moved ▸ lowest) (by
      rw [List.append_assoc]
      exact List.isChain_append_cons_cons.mpr ⟨avoids, different, List.isChain_singleton _⟩)
    rw [moved]
    simpa only [List.append_assoc, List.singleton_append] using later
  | case3 => exact .refl

end Pass

/-- One comparison of the search. -/
def improveBest (rank : Option Nat) (index : Nat) (best : Nat × Nat) : Nat × Nat :=
  match rank with
  | some found => if found < best.1 then (found, index) else best
  | none => best

private theorem bestPair_cons (rank : Bytes → Option Nat) (index : Nat) (left right : Bytes)
    (rest : List Bytes) (best : Nat × Nat) :
    bestPair rank index (left :: right :: rest) best =
      bestPair rank (index + 1) (right :: rest)
        (improveBest (rank (pairKey left right)) index best) := by
  rw [bestPair]
  rfl

private theorem improveBest_cases (rank : Option Nat) (index : Nat) (best : Nat × Nat) :
    improveBest rank index best = best ∨
      rank = some (improveBest rank index best).1 ∧ (improveBest rank index best).2 = index ∧
        (improveBest rank index best).1 < best.1 := by
  unfold improveBest
  cases rank with
  | none => exact .inl rfl
  | some level =>
    by_cases lower : level < best.1
    · simp only [if_pos lower]
      exact .inr ⟨trivial, trivial, lower⟩
    · simp only [if_neg lower, true_or]

private theorem improveBest_le {rank : Option Nat} {level : Nat} (ranked : rank = some level)
    (index : Nat) (best : Nat × Nat) : (improveBest rank index best).1 ≤ level := by
  subst ranked
  unfold improveBest
  by_cases lower : level < best.1
  · simp only [if_pos lower, Nat.le_refl]
  · simp only [if_neg lower]
    exact Nat.le_of_not_lt lower

/-- The search finds a pair of the lowest rank, or every rank is that of the best
so far or more. -/
theorem bestPair_lowest (rank : Bytes → Option Nat) (index : Nat) (pieces : List Bytes)
    (best : Nat × Nat) :
    AtLeast (fun left right => rank (pairKey left right))
        (bestPair rank index pieces best).1 pieces ∧
      (bestPair rank index pieces best = best ∨
        ∃ front left right back, pieces = front ++ left :: right :: back ∧
          (bestPair rank index pieces best).2 = index + front.length ∧
          rank (pairKey left right) = some (bestPair rank index pieces best).1 ∧
          (bestPair rank index pieces best).1 < best.1) := by
  match pieces with
  | [] => exact ⟨List.isChain_nil, .inl (by rw [bestPair]; simp)⟩
  | [piece] => exact ⟨List.isChain_singleton piece, .inl (by rw [bestPair]; simp)⟩
  | left :: right :: rest =>
    rw [bestPair_cons]
    generalize nextIs : improveBest (rank (pairKey left right)) index best = next
    have improved := improveBest_cases (rank (pairKey left right)) index best
    rw [nextIs] at improved
    obtain ⟨lowest, found⟩ := bestPair_lowest rank (index + 1) (right :: rest) next
    have atMost : (bestPair rank (index + 1) (right :: rest) next).1 ≤ next.1 := by
      rcases found with kept | ⟨front, first, second, back, -, -, -, lower⟩
      · rw [kept]
      · exact lower.le
    refine ⟨List.isChain_cons_cons.mpr ⟨?_, lowest⟩, ?_⟩
    · intro level ranked
      exact atMost.trans (nextIs ▸ improveBest_le ranked index best)
    rcases found with kept | ⟨front, first, second, back, whole, position, ranked, lower⟩
    · rw [kept]
      rcases improved with same | ⟨ranked, here, lower⟩
      · exact .inl same
      · exact .inr ⟨[], left, right, rest, rfl, here, ranked, lower⟩
    · refine .inr ⟨left :: front, first, second, back, congrArg (left :: ·) whole, ?_, ranked, ?_⟩
      · rw [position, List.length_cons]
        omega
      · rcases improved with same | ⟨-, -, better⟩
        · exact same ▸ lower
        · exact lower.trans better
termination_by pieces.length

section Loop

variable {rank : Bytes → Bytes → Option Nat} (key : Bytes → Option Nat)
  (agrees : ∀ left right, 0 ∉ left → key (pairKey left right) = rank left right)

include agrees

theorem atLeast_agrees {pieces : List Bytes} (plain : 0 ∉ pieces.flatten) {level : Nat}
    (lowest : AtLeast (fun left right => key (pairKey left right)) level pieces) :
    AtLeast rank level pieces := by
  refine List.IsChain.imp_of_mem_imp ?_ lowest
  intro left right member _ low found ranked
  refine low found (Eq.trans (agrees left right ?_) ranked)
  exact fun zero => plain (List.mem_flatten.mpr ⟨left, member, zero⟩)

variable (fresh : Fresh rank)
  (bounded : ∀ left right level, rank left right = some level → level < maxSize)

include fresh bounded

/-- By induction on the passes. -/
theorem mergeLoop_result (pieces : List Bytes) (plain : 0 ∉ pieces.flatten) :
    Result rank pieces (mergeLoop key pieces) := by
  fun_induction mergeLoop key pieces with
  | case1 pieces more bestIndex none =>
    refine ⟨.refl, ?_⟩
    obtain ⟨lowest, found⟩ := bestPair_lowest key 0 pieces (maxSize, pieces.length)
    rcases found with kept | ⟨front, left, right, back, whole, position, -⟩
    · rw [kept] at lowest
      refine (atLeast_agrees key agrees plain lowest).imp ?_
      intro left right low
      cases ranked : rank left right with
      | none => rfl
      | some level => exact absurd (low level ranked) (Nat.not_le_of_lt (bounded _ _ _ ranked))
    · have length := congrArg List.length whole
      rw [show (bestPair key 0 pieces (maxSize, pieces.length)).2 = pieces.length from none]
        at position
      simp only [List.length_append, List.length_cons] at length
      omega
  | case2 pieces more bestIndex found inductionHypothesis =>
    obtain ⟨lowest, kept | ⟨front, left, right, back, whole, position, ranked, -⟩⟩ :=
      bestPair_lowest key 0 pieces (maxSize, pieces.length)
    · exact absurd (congrArg Prod.snd kept) found
    have here : bestIndex = front.length := position.trans (Nat.zero_add _)
    have leftIs : pieces.getD bestIndex [] = left := by simp [whole, here]
    have rightIs : pieces.getD (bestIndex + 1) [] = right := by simp [whole, here]
    rw [leftIs, rightIs] at inductionHypothesis ⊢
    have pairRanked : rank left right = some _ := (agrees left right fun zero =>
      plain (List.mem_flatten.mpr ⟨left, by simp [whole], zero⟩)).symm.trans ranked
    have steps := mergePair_steps fresh pairRanked [] pieces
      (atLeast_agrees key agrees plain lowest) (by
      rw [List.nil_append]
      cases pieces with
      | nil => exact List.isChain_nil
      | cons piece _ => exact List.isChain_singleton piece)
    rw [← flatten_mergePair left right] at plain
    obtain ⟨later, finished⟩ := inductionHypothesis plain
    exact ⟨steps.trans later, finished⟩
  | case3 pieces short =>
    refine ⟨.refl, ?_⟩
    cases pieces with
    | nil => exact List.isChain_nil
    | cons piece rest =>
      cases rest with
      | nil => exact List.isChain_singleton piece
      | cons next rest => exact (short (by simp)).elim

end Loop

/-- The rank of a pair is the position of its first entry. -/
def mergeRank (entries : List (Bytes × Bytes)) (left right : Bytes) : Option Nat :=
  entries.idxOf? (left, right)

/-- The piece is the text of one byte, or what an entry before `index` merges. -/
def MadeBefore (tokenizer : WhisperPromptTokenizer) (entries : List (Bytes × Bytes)) (index : Nat)
    (piece : Bytes) : Prop :=
  (∃ byte, tokenizer.bytePiece byte = .ok piece) ∨
    ∃ earlier left right, earlier < index ∧ entries[earlier]? = some (left, right) ∧
      piece = left ++ right

/-- The merges use what earlier merges made, and different merges make different
pieces. -/
structure MergesInOrder (tokenizer : WhisperPromptTokenizer) (entries : List (Bytes × Bytes)) :
    Prop where
  operands : ∀ {index left right}, entries[index]? = some (left, right) →
    MadeBefore tokenizer entries index left ∧ MadeBefore tokenizer entries index right
  different : ∀ {entry other}, entry ∈ entries → other ∈ entries →
    entry.1 ++ entry.2 = other.1 ++ other.2 → entry = other

theorem mergeRank_some {entries : List (Bytes × Bytes)} {left right : Bytes} {level : Nat}
    (ranked : mergeRank entries left right = some level) :
    entries[level]? = some (left, right) ∧
      ∀ index, entries[index]? = some (left, right) → level ≤ index := by
  obtain ⟨inside, here, first⟩ := List.idxOf?_eq_some_iff.mp ranked
  refine ⟨List.getElem?_eq_some_iff.mpr ⟨inside, here⟩, ?_⟩
  intro index there
  obtain ⟨within, there⟩ := List.getElem?_eq_some_iff.mp there
  exact Nat.le_of_not_lt fun earlier => first index earlier there

private theorem pairKey_injective {left right first second : Bytes} (leftPlain : 0 ∉ left)
    (firstPlain : 0 ∉ first) (same : pairKey left right = pairKey first second) :
    left = first ∧ right = second := by
  unfold pairKey at same
  induction left generalizing first with
  | nil =>
    cases first with
    | nil => exact ⟨rfl, List.cons.inj same |>.2⟩
    | cons byte rest => exact (firstPlain (by simp [(List.cons.inj same).1])).elim
  | cons byte rest inductionHypothesis =>
    cases first with
    | nil => exact (leftPlain (by simp [(List.cons.inj same).1])).elim
    | cons other others =>
      obtain ⟨byteIs, same⟩ := List.cons.inj same
      obtain ⟨restIs, rightIs⟩ := inductionHypothesis
        (fun zero => leftPlain (List.mem_cons_of_mem _ zero))
        (fun zero => firstPlain (List.mem_cons_of_mem _ zero)) same
      exact ⟨by rw [byteIs, restIs], rightIs⟩

namespace WhisperPromptTokenizer

theorem lookup_rankMerges {entries : List (Bytes × Bytes)} (plain : ∀ entry ∈ entries, 0 ∉ entry.1)
    {left : Bytes} (leftPlain : 0 ∉ left) (right : Bytes) :
    (rankMerges entries).lookup (pairKey left right) = mergeRank entries left right := by
  have counted : ∀ start, ((entries.map fun entry => pairKey entry.1 entry.2).zipIdx start).lookup
      (pairKey left right) = (mergeRank entries left right).map (· + start) := by
    induction entries with
    | nil => intro start; rfl
    | cons entry later inductionHypothesis =>
      intro start
      have others := inductionHypothesis fun entry member =>
        plain entry (List.mem_cons_of_mem _ member)
      unfold mergeRank at others ⊢
      rw [List.map_cons, List.zipIdx_cons, List.lookup_cons, others, List.idxOf?_cons]
      by_cases same : entry = (left, right)
      · simp [same]
      · have otherKey : pairKey left right ≠ pairKey entry.1 entry.2 := by
          intro sameKey
          obtain ⟨leftIs, rightIs⟩ := pairKey_injective leftPlain
            (plain entry List.mem_cons_self) sameKey
          exact same (Prod.ext leftIs.symm rightIs.symm)
        rw [beq_eq_false_iff_ne.mpr otherKey, beq_eq_false_iff_ne.mpr same]
        simp only [Bool.false_eq_true, if_false, Option.map_map]
        congr 1
        funext position
        show position + (start + 1) = position + 1 + start
        omega
  rw [rankMerges, counted 0]
  simp

section Ordered

variable {tokenizer : WhisperPromptTokenizer} {entries : List (Bytes × Bytes)}
  (made : makeByteEncoder = .ok tokenizer.byteEncoder)

include made

theorem bytePiece_ok (byte : UInt8) :
    tokenizer.bytePiece byte = .ok (encodeBytes tokenizer.byteEncoder [byte]) := by
  unfold bytePiece encodeBytes
  rw [List.flatMap_cons, encoder_lookup made]
  exact congrArg Except.ok (List.append_nil _).symm

theorem encodeBytes_plain (part : Bytes) : 0 ∉ encodeBytes tokenizer.byteEncoder part := by
  have texts : ((List.range 256).all fun byte => !(textOf byte).contains 0) = true := by
    decide +kernel
  intro zero
  obtain ⟨byte, _, member⟩ := List.mem_flatMap.mp zero
  rw [encoder_lookup made] at member
  have text := List.all_eq_true.mp texts byte.toNat (List.mem_range.mpr byte.toNat_lt)
  rw [Bool.not_eq_true', ← Bool.not_eq_true, List.contains_iff_mem] at text
  exact text member

theorem encodeBytes_injective {part other : Bytes}
    (same : encodeBytes tokenizer.byteEncoder part = encodeBytes tokenizer.byteEncoder other) :
    part = other := by
  rw [← read_encodeBytes made part, same, read_encodeBytes made other]

variable (ordered : MergesInOrder tokenizer entries)

include ordered

theorem madeBefore_part (index : Nat) (piece : Bytes)
    (before : MadeBefore tokenizer entries index piece) :
    ∃ part, part ≠ [] ∧ piece = encodeBytes tokenizer.byteEncoder part := by
  induction index using Nat.strong_induction_on generalizing piece with
  | _ index inductionHypothesis =>
    rcases before with ⟨byte, single⟩ | ⟨earlier, left, right, less, entry, rfl⟩
    · rw [bytePiece_ok made] at single
      exact ⟨[byte], by simp, (Except.ok.inj single).symm⟩
    · obtain ⟨leftMade, rightMade⟩ := ordered.operands entry
      obtain ⟨leftPart, leftHas, rfl⟩ := inductionHypothesis earlier less left leftMade
      obtain ⟨rightPart, rightHas, rfl⟩ := inductionHypothesis earlier less right rightMade
      exact ⟨leftPart ++ rightPart, by simp [leftHas], (encodeBytes_append _ _).symm⟩

theorem operands_part {index : Nat} {left right : Bytes}
    (entry : entries[index]? = some (left, right)) :
    (∃ part, part ≠ [] ∧ left = encodeBytes tokenizer.byteEncoder part) ∧
      ∃ part, part ≠ [] ∧ right = encodeBytes tokenizer.byteEncoder part := by
  obtain ⟨leftMade, rightMade⟩ := ordered.operands entry
  exact ⟨madeBefore_part made ordered index left leftMade,
    madeBefore_part made ordered index right rightMade⟩

/-- A merged piece is no text of one byte, and one merge only makes it, so an entry
that uses it stands after that merge. -/
theorem rank_lt_of_uses {left right : Bytes} {level index : Nat}
    (ranked : mergeRank entries left right = some level)
    (before : MadeBefore tokenizer entries index (left ++ right)) : level < index := by
  obtain ⟨entry, first⟩ := mergeRank_some ranked
  rcases before with ⟨byte, single⟩ | ⟨earlier, other, others, less, used, same⟩
  · obtain ⟨⟨leftPart, leftHas, rfl⟩, rightPart, rightHas, rfl⟩ := operands_part made ordered entry
    rw [bytePiece_ok made, ← encodeBytes_append] at single
    have length := congrArg List.length (encodeBytes_injective made (Except.ok.inj single))
    have leftLength := List.length_pos_iff.mpr leftHas
    have rightLength := List.length_pos_iff.mpr rightHas
    simp only [List.length_append, List.length_singleton] at length
    omega
  · have pair := ordered.different (List.mem_of_getElem? entry) (List.mem_of_getElem? used) same
    rw [← pair] at used
    exact Nat.lt_of_le_of_lt (first earlier used) less

private theorem mergeRank_fresh : Fresh (mergeRank entries) where
  different := by
    intro left right first second level ranked other
    have same := (mergeRank_some ranked).1.symm.trans (mergeRank_some other).1
    injection same with pair
    exact Prod.ext_iff.mp pair
  higher := by
    intro left right first second level later ranked used merged
    obtain ⟨firstMade, secondMade⟩ := ordered.operands (mergeRank_some used).1
    rcases merged with rfl | rfl
    · exact rank_lt_of_uses made ordered ranked firstMade
    · exact rank_lt_of_uses made ordered ranked secondMade
  nonempty := by
    intro left right level ranked
    obtain ⟨⟨leftPart, leftHas, rfl⟩, rightPart, rightHas, rfl⟩ :=
      operands_part made ordered (mergeRank_some ranked).1
    have empty : encodeBytes tokenizer.byteEncoder [] = [] := rfl
    rw [← empty]
    exact ⟨fun same => leftHas (encodeBytes_injective made same),
      fun same => rightHas (encodeBytes_injective made same)⟩

end Ordered

theorem length_of_mapM {First Second : Type} {step : First → Except String Second}
    {list : List First} {results : List Second} (done : list.mapM step = .ok results) :
    results.length = list.length := by
  induction list generalizing results with
  | nil =>
    injection done with none
    rw [← none]
    rfl
  | cons first later inductionHypothesis =>
    rw [List.mapM_cons] at done
    obtain ⟨value, -, rest⟩ := ok_of_bind done
    obtain ⟨values, laterDone, last⟩ := ok_of_bind rest
    rw [← Except.ok.inj last, List.length_cons, List.length_cons, inductionHypothesis laterDone]

private theorem length_readMerges {merges : List MergeValue} {entries : List (Bytes × Bytes)}
    (read : readMerges merges = .ok entries) : entries.length = merges.length := by
  match merges with
  | .list items :: later => exact length_of_mapM read
  | .text value :: later => exact length_of_mapM read

theorem mergeRanks_of_create {document : TokenizerDocument} {tokenizer : WhisperPromptTokenizer}
    {entries : List (Bytes × Bytes)} (accepted : create document = .ok tokenizer)
    (read : readMerges document.merges = .ok entries) :
    tokenizer.mergeRanks = rankMerges entries := by
  unfold create at accepted
  obtain ⟨encoder, -, later⟩ := ok_of_bind accepted
  rw [read] at later
  rw [← Except.ok.inj later]

/-- The pieces of a text are those of the reference, and no two neighbours have a
rank any more. A list has at most as many values as a `size_t` counts. -/
theorem untruncated_reference {document : TokenizerDocument} {tokenizer : WhisperPromptTokenizer}
    {entries : List (Bytes × Bytes)} (accepted : create document = .ok tokenizer)
    (read : readMerges document.merges = .ok entries) (counted : document.merges.length ≤ maxSize)
    (ordered : MergesInOrder tokenizer entries) (text : Bytes) :
    ∃ start result, text.mapM tokenizer.bytePiece = .ok start ∧
      tokenizer.untruncated text = .ok result ∧
      (∀ other, Result (mergeRank entries) start other ↔ other = result) ∧
      result.IsChain fun left right => tokenizer.mergeRanks.lookup (pairKey left right) = none := by
  have made := byteEncoder_of_create accepted
  have fresh := mergeRank_fresh made ordered
  have bounded : ∀ left right level, mergeRank entries left right = some level →
      level < maxSize := by
    intro left right level ranked
    obtain ⟨inside, -⟩ := List.getElem?_eq_some_iff.mp (mergeRank_some ranked).1
    exact Nat.lt_of_lt_of_le inside (length_readMerges read ▸ counted)
  have agrees : ∀ left right, 0 ∉ left →
      tokenizer.mergeRanks.lookup (pairKey left right) = mergeRank entries left right := by
    intro left right plain
    rw [mergeRanks_of_create accepted read]
    refine lookup_rankMerges ?_ plain right
    intro entry member
    obtain ⟨index, inside, here⟩ := List.mem_iff_getElem.mp member
    obtain ⟨⟨part, -, leftIs⟩, -⟩ := operands_part made ordered
      (List.getElem?_eq_some_iff.mpr ⟨inside, here⟩)
    rw [leftIs]
    exact encodeBytes_plain made part
  let start := text.map fun byte => encodeBytes tokenizer.byteEncoder [byte]
  have pieces : text.mapM tokenizer.bytePiece = .ok start :=
    mapM_ok _ fun byte _ => bytePiece_ok made byte
  have plain : 0 ∉ start.flatten := by
    intro zero
    obtain ⟨piece, member, zero⟩ := List.mem_flatten.mp zero
    obtain ⟨byte, -, rfl⟩ := List.mem_map.mp member
    exact encodeBytes_plain made [byte] zero
  have result :=
    mergeLoop_result (fun key => tokenizer.mergeRanks.lookup key) agrees fresh bounded start plain
  refine ⟨start, mergeLoop (fun key => tokenizer.mergeRanks.lookup key) start, pieces, ?_, ?_, ?_⟩
  · unfold untruncated
    rw [pieces]
    rfl
  · intro other
    constructor
    · exact fun otherResult => result_unique fresh otherResult result
    · rintro rfl
      exact result
  · refine List.IsChain.imp_of_mem_imp ?_ result.2
    intro left right member _ none
    rw [agrees left right, none]
    rw [← flatten_mergeLoop (fun key => tokenizer.mergeRanks.lookup key) start] at plain
    exact fun zero => plain (List.mem_flatten.mpr ⟨left, member, zero⟩)

/-- The merges "a a", "aa a" and "a a" again, in the form of strings. -/
theorem untruncated_reference_repeated :
    ∃ tokenizer start result,
      create ⟨[], [.text [97, 32, 97], .text [97, 97, 32, 97], .text [97, 32, 97]]⟩ =
        .ok tokenizer ∧
      [97, 97, 97, 97, 97].mapM tokenizer.bytePiece = .ok start ∧
      tokenizer.untruncated [97, 97, 97, 97, 97] = .ok result ∧
      (∀ other, Result (mergeRank [([97], [97]), ([97, 97], [97]), ([97], [97])]) start other ↔
        other = result) ∧
      result.IsChain fun left right =>
        tokenizer.mergeRanks.lookup (pairKey left right) = none := by
  let tokenizer : WhisperPromptTokenizer :=
    ⟨rankMerges [([97], [97]), ([97, 97], [97]), ([97], [97])],
      byteValues.map fun byte => (UInt8.ofNat byte, textOf byte), []⟩
  have accepted : create ⟨[], [.text [97, 32, 97], .text [97, 97, 32, 97], .text [97, 32, 97]]⟩ =
      .ok tokenizer := by
    unfold create
    rw [makeByteEncoder_eq]
    rfl
  have letter : tokenizer.bytePiece 97 = .ok [97] := ok_of_toOption (by decide +kernel)
  have ordered : MergesInOrder tokenizer [([97], [97]), ([97, 97], [97]), ([97], [97])] := by
    constructor
    · intro index left right entry
      match index, entry with
      | 0, entry => cases entry; exact ⟨.inl ⟨97, letter⟩, .inl ⟨97, letter⟩⟩
      | 1, entry =>
        cases entry
        exact ⟨.inr ⟨0, [97], [97], Nat.one_pos, rfl, rfl⟩, .inl ⟨97, letter⟩⟩
      | 2, entry => cases entry; exact ⟨.inl ⟨97, letter⟩, .inl ⟨97, letter⟩⟩
    · have all : ∀ entry ∈ [(([97], [97]) : Bytes × Bytes), ([97, 97], [97]), ([97], [97])],
          ∀ other ∈ [(([97], [97]) : Bytes × Bytes), ([97, 97], [97]), ([97], [97])],
            entry.1 ++ entry.2 = other.1 ++ other.2 → entry = other := by decide
      intro entry other member otherMember
      exact all entry member other otherMember
  obtain ⟨start, result, reference⟩ := untruncated_reference accepted rfl (by decide) ordered
    [97, 97, 97, 97, 97]
  exact ⟨tokenizer, start, result, accepted, reference⟩

end WhisperPromptTokenizer

end LocalWhisper.CTranslate2
