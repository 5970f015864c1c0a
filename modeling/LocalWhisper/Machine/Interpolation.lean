import Mathlib.Data.Int.Cast.Basic
import Mathlib.Data.List.Destutter

/-! Reading a table of places and values between its entries. -/

namespace LocalWhisper.Machine

variable {Entry : Type} (place value : Entry → Int)

/-- The places increase, and the values do not decrease. -/
def Ascending (table : List Entry) : Prop :=
  table.Pairwise fun first second => place first < place second ∧ value first ≤ value second

def Rising (table : List Entry) : Prop :=
  table.Pairwise fun first second => place first ≤ place second ∧ value first ≤ value second

/-- The value on the line between two entries, cut off to a whole number. -/
def onLine (lower upper : Entry) (query : Int) : Int :=
  value lower +
    ((query - place lower) * (value upper - value lower)).tdiv (place upper - place lower)

/-- What a table says of a place: before its first and after its last entry their values,
in between what lies on the line. -/
inductive Reads (table : List Entry) (query : Int) : Int → Prop where
  | front {entry : Entry} (first : table.head? = some entry) (before : query ≤ place entry) :
      Reads table query (value entry)
  | back {entry : Entry} (last : table.getLast? = some entry) (after : place entry ≤ query) :
      Reads table query (value entry)
  | inside {index : Nat} {lower upper : Entry} (atLower : table[index]? = some lower)
      (atUpper : table[index + 1]? = some upper) (after : place lower < query)
      (before : query ≤ place upper) : Reads table query (onLine place value lower upper query)

section Line

variable {place value} {lower upper : Entry} {first second query : Int}

theorem onLine_mono (wide : place lower < place upper) (rising : value lower ≤ value upper)
    (above : place lower ≤ first) (ordered : first ≤ second) :
    onLine place value lower upper first ≤ onLine place value lower upper second := by
  have run : 0 < place upper - place lower := by omega
  have rise : 0 ≤ value upper - value lower := by omega
  have scaled : (first - place lower) * (value upper - value lower) ≤
      (second - place lower) * (value upper - value lower) :=
    Int.mul_le_mul_of_nonneg_right (by omega) rise
  have positive : 0 ≤ (first - place lower) * (value upper - value lower) :=
    Int.mul_nonneg (by omega) rise
  unfold onLine
  rw [Int.tdiv_eq_ediv_of_nonneg positive, Int.tdiv_eq_ediv_of_nonneg (Int.le_trans positive scaled)]
  exact Int.add_le_add_left (Int.ediv_le_ediv run scaled) _

private theorem onLine_lower : onLine place value lower upper (place lower) = value lower := by
  rw [onLine, Int.sub_self, Int.zero_mul, Int.zero_tdiv, Int.add_zero]

theorem onLine_upper (wide : place lower < place upper) :
    onLine place value lower upper (place upper) = value upper := by
  rw [onLine, Int.mul_tdiv_cancel_left _ (by omega)]
  omega

/-- How much more the values of two entries differ than their places. -/
def drift (place value : Entry → Int) (lower upper : Entry) : Int :=
  (value upper - value lower) - (place upper - place lower)

private theorem onLine_near (wide : place lower < place upper) (rising : value lower ≤ value upper)
    (after : place lower ≤ query) (before : query ≤ place upper) :
    min 0 (drift place value lower upper) ≤
        onLine place value lower upper query - (value lower + (query - place lower)) ∧
      onLine place value lower upper query - (value lower + (query - place lower)) ≤
        max 0 (drift place value lower upper) := by
  obtain ⟨run, runIs⟩ : ∃ run, run = place upper - place lower := ⟨_, rfl⟩
  obtain ⟨passed, passedIs⟩ : ∃ passed, passed = query - place lower := ⟨_, rfl⟩
  obtain ⟨apart, apartIs⟩ : ∃ apart, apart = drift place value lower upper := ⟨_, rfl⟩
  have rise : value upper - value lower = run + apart := by
    rw [apartIs, drift, runIs]
    omega
  have line : onLine place value lower upper query - (value lower + (query - place lower)) =
      passed * apart / run := by
    rw [onLine, rise, ← passedIs, ← runIs, Int.tdiv_eq_ediv_of_nonneg
      (Int.mul_nonneg (by omega) (by omega)), Int.mul_add, Int.add_comm (passed * run),
      Int.add_mul_ediv_right _ _ (by omega)]
    omega
  rw [line, ← apartIs]
  rcases Int.lt_or_le apart 0 with shrinks | grows
  · have lower : apart * run ≤ passed * apart := by
      rw [Int.mul_comm passed]
      exact Int.mul_le_mul_of_nonpos_left (by omega) (by omega)
    have upper : passed * apart ≤ 0 := Int.mul_nonpos_of_nonneg_of_nonpos (by omega) (by omega)
    have above := (Int.le_ediv_iff_mul_le (show 0 < run by omega)).mpr lower
    have below := Int.ediv_le_ediv (show 0 < run by omega) upper
    rw [Int.zero_ediv] at below
    omega
  · have lower : 0 ≤ passed * apart := Int.mul_nonneg (by omega) grows
    have upper : passed * apart ≤ apart * run := by
      rw [Int.mul_comm passed]
      exact Int.mul_le_mul_of_nonneg_left (by omega) grows
    have above := Int.ediv_nonneg lower (show 0 ≤ run by omega)
    have below := Int.ediv_le_ediv (show 0 < run by omega) upper
    rw [Int.mul_ediv_cancel _ (by omega)] at below
    omega

end Line

section Table

variable {place value} {table : List Entry} {entry other : Entry}

theorem Ascending.getElem (ascending : Ascending place value table) {first second : Nat}
    (ordered : first ≤ second) (atFirst : table[first]? = some entry)
    (atSecond : table[second]? = some other) :
    place entry ≤ place other ∧ value entry ≤ value other := by
  rcases Nat.lt_or_eq_of_le ordered with before | rfl
  · obtain ⟨firstInside, rfl⟩ := List.getElem?_eq_some_iff.mp atFirst
    obtain ⟨secondInside, rfl⟩ := List.getElem?_eq_some_iff.mp atSecond
    have pair := List.pairwise_iff_getElem.mp ascending first second firstInside secondInside before
    exact ⟨Int.le_of_lt pair.1, pair.2⟩
  · obtain rfl := Option.some.inj (atFirst.symm.trans atSecond)
    exact ⟨Int.le_refl _, Int.le_refl _⟩

theorem Ascending.getElem_lt (ascending : Ascending place value table) {first second : Nat}
    (before : first < second) (atFirst : table[first]? = some entry)
    (atSecond : table[second]? = some other) : place entry < place other := by
  obtain ⟨firstInside, rfl⟩ := List.getElem?_eq_some_iff.mp atFirst
  obtain ⟨secondInside, rfl⟩ := List.getElem?_eq_some_iff.mp atSecond
  exact (List.pairwise_iff_getElem.mp ascending first second firstInside secondInside before).1

theorem Ascending.value_le (ascending : Ascending place value table) (member : entry ∈ table)
    (otherMember : other ∈ table) (ordered : place entry ≤ place other) :
    value entry ≤ value other := by
  obtain ⟨first, atFirst⟩ := List.mem_iff_getElem?.mp member
  obtain ⟨second, atSecond⟩ := List.mem_iff_getElem?.mp otherMember
  rcases Nat.lt_or_ge second first with after | before
  · have further := ascending.getElem_lt after atSecond atFirst
    omega
  · exact (ascending.getElem before atFirst atSecond).2

theorem Ascending.eq_of_place (ascending : Ascending place value table) (member : entry ∈ table)
    (otherMember : other ∈ table) (same : place entry = place other) : entry = other := by
  obtain ⟨first, atFirst⟩ := List.mem_iff_getElem?.mp member
  obtain ⟨second, atSecond⟩ := List.mem_iff_getElem?.mp otherMember
  rcases Nat.lt_trichotomy first second with before | rfl | after
  · have further := ascending.getElem_lt before atFirst atSecond
    omega
  · exact Option.some.inj (atFirst.symm.trans atSecond)
  · have further := ascending.getElem_lt after atSecond atFirst
    omega

theorem head_le (ascending : Ascending place value table) (first : table.head? = some entry)
    (member : other ∈ table) : place entry ≤ place other := by
  obtain ⟨index, atIndex⟩ := List.mem_iff_getElem?.mp member
  rw [List.head?_eq_getElem?] at first
  exact (ascending.getElem (Nat.zero_le index) first atIndex).1

theorem le_getLast (ascending : Ascending place value table) (last : table.getLast? = some entry)
    (member : other ∈ table) : place other ≤ place entry := by
  obtain ⟨index, atIndex⟩ := List.mem_iff_getElem?.mp member
  obtain ⟨inside, -⟩ := List.getElem?_eq_some_iff.mp atIndex
  rw [List.getLast?_eq_getElem?] at last
  exact (ascending.getElem (by omega) atIndex last).1

variable {query result : Int}

namespace Reads

theorem value_le (ascending : Ascending place value table)
    (reads : Reads place value table query result) (member : entry ∈ table)
    (behind : place entry ≤ query) : value entry ≤ result := by
  cases reads with
  | front first before =>
    have bound := head_le ascending first member
    exact ascending.value_le member (List.mem_of_head? first) (by omega)
  | back last after =>
    exact ascending.value_le member (List.mem_of_getLast? last) (le_getLast ascending last member)
  | @inside index lower upper atLower atUpper after before =>
    have wide := ascending.getElem_lt (Nat.lt_succ_self index) atLower atUpper
    have rising := (ascending.getElem (Nat.le_succ index) atLower atUpper).2
    have lowerMember := List.mem_of_getElem? atLower
    rcases Int.lt_or_le (place lower) (place entry) with beyond | within
    · -- Then the entry is `upper`, and the place its own.
      obtain ⟨position, atPosition⟩ := List.mem_iff_getElem?.mp member
      have upperBehind : place upper ≤ place entry := by
        rcases Nat.lt_or_ge index position with later | earlier
        · exact (ascending.getElem later atUpper atPosition).1
        · have bound := (ascending.getElem earlier atPosition atLower).1
          omega
      have same : query = place upper := by omega
      have reached := ascending.value_le member (List.mem_of_getElem? atUpper) (by omega)
      rw [same, onLine_upper wide]
      exact reached
    · have start := onLine_mono wide rising (Int.le_refl _) (Int.le_of_lt after)
      rw [onLine_lower] at start
      exact Int.le_trans (ascending.value_le member lowerMember within) start

theorem le_value (ascending : Ascending place value table)
    (reads : Reads place value table query result) (member : entry ∈ table)
    (ahead : query ≤ place entry) : result ≤ value entry := by
  cases reads with
  | front first before =>
    exact ascending.value_le (List.mem_of_head? first) member (head_le ascending first member)
  | back last after =>
    exact ascending.value_le (List.mem_of_getLast? last) member (by omega)
  | @inside index lower upper atLower atUpper after before =>
    have wide := ascending.getElem_lt (Nat.lt_succ_self index) atLower atUpper
    have rising := (ascending.getElem (Nat.le_succ index) atLower atUpper).2
    obtain ⟨position, atPosition⟩ := List.mem_iff_getElem?.mp member
    have later : index + 1 ≤ position := by
      rcases Nat.lt_or_ge index position with later | earlier
      · exact later
      · have bound := (ascending.getElem earlier atPosition atLower).1
        omega
    have reached := onLine_mono wide rising (Int.le_of_lt after) before
    rw [onLine_upper wide] at reached
    exact Int.le_trans reached (ascending.getElem later atUpper atPosition).2

/-- A place further on has no smaller result. -/
theorem mono (ascending : Ascending place value table) {later further : Int}
    (reads : Reads place value table query result) (readsLater : Reads place value table later further)
    (ordered : query ≤ later) : result ≤ further := by
  by_cases between : ∃ entry ∈ table, query ≤ place entry ∧ place entry ≤ later
  · obtain ⟨entry, member, ahead, behind⟩ := between
    exact Int.le_trans (reads.le_value ascending member ahead)
      (readsLater.value_le ascending member behind)
  · -- No entry lies between the two places, so both are read off the same ones.
    have none (entry : Entry) (member : entry ∈ table) (ahead : query ≤ place entry) :
        later < place entry := by
      rcases Int.lt_or_le later (place entry) with beyond | within
      · exact beyond
      · exact absurd ⟨entry, member, ahead, within⟩ between
    cases readsLater with
    | front first before => exact reads.le_value ascending (List.mem_of_head? first) (by omega)
    | @back last isLast after =>
      have lastMember := List.mem_of_getLast? isLast
      have behind : place last < query := by
        have bound := none last lastMember
        omega
      cases reads with
      | front first before =>
        have bound := head_le ascending first lastMember
        omega
      | back isLast' after' =>
        obtain rfl := Option.some.inj (isLast.symm.trans isLast')
        exact Int.le_refl _
      | inside atLower atUpper after' before =>
        have bound := le_getLast ascending isLast (List.mem_of_getElem? atUpper)
        omega
    | @inside index lower upper atLower atUpper after before =>
      have lowerMember := List.mem_of_getElem? atLower
      have upperMember := List.mem_of_getElem? atUpper
      have behind : place lower < query := by
        have bound := none lower lowerMember
        omega
      cases reads with
      | front first before' =>
        have bound := head_le ascending first lowerMember
        omega
      | back last after' =>
        have bound := le_getLast ascending last upperMember
        have passed := none upper upperMember
        omega
      | @inside position lower' upper' atLower' atUpper' after' before' =>
        have same : position = index := by
          rcases Nat.lt_trichotomy position index with earlier | same | further
          · have bound := (ascending.getElem earlier atUpper' atLower).1
            omega
          · exact same
          · have bound := (ascending.getElem further atUpper atLower').1
            omega
        subst same
        obtain rfl := Option.some.inj (atLower.symm.trans atLower')
        obtain rfl := Option.some.inj (atUpper.symm.trans atUpper')
        exact onLine_mono (ascending.getElem_lt (Nat.lt_succ_self _) atLower atUpper)
          (ascending.getElem (Nat.le_succ _) atLower atUpper).2 (Int.le_of_lt after') ordered

/-- Between two entries without another one between them the result follows the place up
to their drift. -/
theorem near (ascending : Ascending place value table)
    (reads : Reads place value table query result) (member : entry ∈ table)
    (otherMember : other ∈ table) (after : place entry ≤ query) (before : query ≤ place other)
    (alone : ∀ third ∈ table, place third ≤ place entry ∨ place other ≤ place third) :
    min 0 (drift place value entry other) ≤ result - (value entry + (query - place entry)) ∧
      result - (value entry + (query - place entry)) ≤ max 0 (drift place value entry other) := by
  have low := reads.value_le ascending member after
  have high := reads.le_value ascending otherMember before
  rcases Int.lt_or_eq_of_le after with inside | atStart
  · rcases Int.lt_or_eq_of_le before with within | atEnd
    · cases reads with
      | front first before' =>
        have bound := head_le ascending first member
        omega
      | back last after' =>
        have bound := le_getLast ascending last otherMember
        omega
      | @inside index lower upper atLower atUpper after' before' =>
        have lowerMember := List.mem_of_getElem? atLower
        have upperMember := List.mem_of_getElem? atUpper
        have wide := ascending.getElem_lt (Nat.lt_succ_self index) atLower atUpper
        have lowerBehind := (alone lower lowerMember).resolve_right (by omega)
        have upperAhead := (alone upper upperMember).resolve_left (by omega)
        obtain ⟨first, atFirst⟩ := List.mem_iff_getElem?.mp member
        obtain ⟨second, atSecond⟩ := List.mem_iff_getElem?.mp otherMember
        have lowerIs : lower = entry := by
          refine ascending.eq_of_place lowerMember member ?_
          rcases Nat.lt_or_ge index first with later | earlier
          · have bound := (ascending.getElem later atUpper atFirst).1
            omega
          · have bound := (ascending.getElem earlier atFirst atLower).1
            omega
        have upperIs : upper = other := by
          refine ascending.eq_of_place upperMember otherMember ?_
          rcases Nat.lt_or_ge index second with later | earlier
          · have bound := (ascending.getElem later atUpper atSecond).1
            omega
          · have bound := (ascending.getElem earlier atSecond atLower).1
            omega
        subst lowerIs upperIs
        exact onLine_near wide (ascending.value_le member otherMember (Int.le_of_lt wide)) after
          before
    · have reached := reads.value_le ascending otherMember (by omega)
      have exactly : result - (value entry + (query - place entry)) =
          drift place value entry other := by
        rw [drift]
        omega
      rw [exactly]
      omega
  · have reached := reads.le_value ascending member (by omega)
    omega

end Reads

end Table

section Sorting

variable {place value} {table sorted : List Entry} {entry other : Entry}

/-- Another entry before the first one. -/
theorem Rising.cons (rising : Rising place value (other :: table))
    (before : place entry ≤ place other) (below : value entry ≤ value other) :
    Rising place value (entry :: other :: table) := by
  refine List.pairwise_cons.mpr ⟨fun later member => ?_, rising⟩
  rcases List.mem_cons.mp member with rfl | member
  · exact ⟨before, below⟩
  · have further := (List.pairwise_cons.mp rising).1 later member
    exact ⟨Int.le_trans before further.1, Int.le_trans below further.2⟩

theorem Rising.value_le (rising : Rising place value table) (member : entry ∈ table)
    (otherMember : other ∈ table) (before : place entry < place other) :
    value entry ≤ value other := by
  obtain ⟨first, firstInside, rfl⟩ := List.mem_iff_getElem.mp member
  obtain ⟨second, secondInside, rfl⟩ := List.mem_iff_getElem.mp otherMember
  have pairs := List.pairwise_iff_getElem.mp rising
  rcases Nat.lt_trichotomy first second with earlier | rfl | later
  · exact (pairs first second firstInside secondInside earlier).2
  · omega
  · have back := (pairs second first secondInside firstInside later).1
    omega

/-- Sorting by the places, whatever becomes of equal ones, and keeping one entry of each
place makes an ascending table of a rising one. -/
theorem Rising.ascending (rising : Rising place value table) (same : sorted.Perm table)
    (inOrder : sorted.Pairwise fun first second => place first ≤ place second) :
    Ascending place value (sorted.destutter fun first second => place first ≠ place second) := by
  have part := List.destutter_sublist (fun first second : Entry => place first ≠ place second) sorted
  have neighbours := List.isChain_destutter
    (fun first second : Entry => place first ≠ place second) sorted
  obtain ⟨kept, keptIs⟩ : ∃ kept,
      kept = sorted.destutter fun first second => place first ≠ place second := ⟨_, rfl⟩
  rw [← keptIs] at part neighbours ⊢
  have ordered := inOrder.sublist part
  have strict : kept.Pairwise fun first second => place first < place second := by
    have lifted : Trans (fun first second : Entry => place first < place second)
        (fun first second : Entry => place first < place second)
        (fun first second : Entry => place first < place second) := ⟨Int.lt_trans⟩
    refine List.isChain_iff_pairwise.mp ?_
    refine List.isChain_iff_getElem.mpr fun index inside => ?_
    have apart := List.isChain_iff_getElem.mp neighbours index inside
    have below := List.pairwise_iff_getElem.mp ordered index (index + 1) (by omega) inside
      (Nat.lt_succ_self index)
    omega
  refine strict.imp_of_mem fun {first second} firstMember secondMember before => ⟨before, ?_⟩
  exact rising.value_le (same.mem_iff.mp (part.subset firstMember))
    (same.mem_iff.mp (part.subset secondMember)) before

private theorem exists_mem_destutter' {first : Entry} {rest : List Entry}
    (member : entry ∈ first :: rest) :
    ∃ kept ∈ rest.destutter' (fun first second => place first ≠ place second) first,
      place kept = place entry := by
  induction rest generalizing first entry with
  | nil =>
    obtain rfl := List.mem_singleton.mp member
    exact ⟨entry, List.mem_singleton.mpr rfl, rfl⟩
  | cons second rest ih =>
    rw [List.destutter'_cons]
    split
    · rcases List.mem_cons.mp member with rfl | later
      · exact ⟨entry, List.mem_cons_self, rfl⟩
      · obtain ⟨kept, isKept, samePlace⟩ := ih later
        exact ⟨kept, List.mem_cons_of_mem _ isKept, samePlace⟩
    · rename_i equal
      rcases List.mem_cons.mp member with rfl | later
      · exact ih List.mem_cons_self
      · rcases List.mem_cons.mp later with rfl | later
        · obtain ⟨kept, isKept, samePlace⟩ := @ih first first List.mem_cons_self
          exact ⟨kept, isKept, by omega⟩
        · exact ih (List.mem_cons_of_mem _ later)

theorem exists_mem_destutter (member : entry ∈ sorted) :
    ∃ kept ∈ sorted.destutter fun first second => place first ≠ place second,
      place kept = place entry := by
  cases sorted with
  | nil => cases member
  | cons first rest => exact exists_mem_destutter' member

section Neighbours

variable {before after : List Entry} {query result : Int}

/-- Where an entry of a rising table stands to two neighbours in it. -/
theorem Rising.cases (rising : Rising place value (before ++ [entry, other] ++ after))
    (earlier : ∀ third ∈ before, place third < place entry ∨ value third = value entry)
    (later : ∀ third ∈ after, place other < place third ∨ value third = value other)
    {third : Entry} (member : third ∈ before ++ [entry, other] ++ after) :
    place third < place entry ∨ place third = place entry ∧ value third = value entry ∨
      place third = place other ∧ value third = value other ∨ place other < place third := by
  obtain ⟨front, _, beyond⟩ := List.pairwise_append.mp rising
  obtain ⟨_, _, across⟩ := List.pairwise_append.mp front
  rcases List.mem_append.mp member with inFront | isAfter
  · rcases List.mem_append.mp inFront with isBefore | isOne
    · have bound := (across third isBefore entry List.mem_cons_self).1
      rcases earlier third isBefore with strict | same
      · exact .inl strict
      · rcases Int.lt_or_eq_of_le bound with strict | equal
        · exact .inl strict
        · exact .inr (.inl ⟨equal, same⟩)
    · rcases List.mem_cons.mp isOne with rfl | isOther
      · exact .inr (.inl ⟨rfl, rfl⟩)
      · obtain rfl := List.mem_singleton.mp isOther
        exact .inr (.inr (.inl ⟨rfl, rfl⟩))
  · have bound := (beyond other (List.mem_append_right _ (List.mem_cons_of_mem _
      List.mem_cons_self)) third isAfter).1
    rcases later third isAfter with strict | same
    · exact .inr (.inr (.inr strict))
    · rcases Int.lt_or_eq_of_le bound with strict | equal
      · exact .inr (.inr (.inr strict))
      · exact .inr (.inr (.inl ⟨equal.symm, same⟩))

/-- Between two neighbours of a rising table the result follows the place up to their
drift, also after sorting and keeping one entry of each place. -/
theorem Rising.near (rising : Rising place value (before ++ [entry, other] ++ after))
    (same : sorted.Perm (before ++ [entry, other] ++ after))
    (inOrder : sorted.Pairwise fun first second => place first ≤ place second)
    (earlier : ∀ third ∈ before, place third < place entry ∨ value third = value entry)
    (later : ∀ third ∈ after, place other < place third ∨ value third = value other)
    (reads : Reads place value
      (sorted.destutter fun first second => place first ≠ place second) query result)
    (behind : place entry ≤ query) (ahead : query ≤ place other) :
    min 0 (drift place value entry other) ≤ result - (value entry + (query - place entry)) ∧
      result - (value entry + (query - place entry)) ≤ max 0 (drift place value entry other) := by
  have ascending := rising.ascending same inOrder
  have entryMember : entry ∈ before ++ [entry, other] ++ after :=
    List.mem_append_left _ (List.mem_append_right _ List.mem_cons_self)
  have otherMember : other ∈ before ++ [entry, other] ++ after :=
    List.mem_append_left _ (List.mem_append_right _ (List.mem_cons_of_mem _ List.mem_cons_self))
  have known {third : Entry} (isKept : third ∈ sorted.destutter fun first second =>
      place first ≠ place second) := rising.cases earlier later
    (same.mem_iff.mp ((List.destutter_sublist _ sorted).subset isKept))
  have rises : value entry ≤ value other := by
    obtain ⟨front, _⟩ := List.pairwise_append.mp rising
    obtain ⟨_, two, _⟩ := List.pairwise_append.mp front
    exact ((List.pairwise_cons.mp two).1 other List.mem_cons_self).2
  obtain ⟨lower, lowerKept, lowerPlace⟩ := exists_mem_destutter (same.mem_iff.mpr entryMember)
  obtain ⟨upper, upperKept, upperPlace⟩ := exists_mem_destutter (same.mem_iff.mpr otherMember)
  have lowerCases := known lowerKept
  have upperCases := known upperKept
  rcases Int.lt_or_eq_of_le (Int.le_trans behind ahead) with wide | equal
  · have lowerValue : value lower = value entry := by omega
    have upperValue : value upper = value other := by omega
    have near := reads.near ascending lowerKept upperKept (by omega) (by omega)
      fun third isKept => by
        have thirdCases := known isKept
        omega
    rw [drift, lowerPlace, upperPlace, lowerValue, upperValue] at near
    exact near
  · -- Then the place is that of both, and either value may have been kept.
    have low := reads.value_le ascending lowerKept (by omega)
    have high := reads.le_value ascending lowerKept (by omega)
    rw [drift]
    omega

end Neighbours

end Sorting

end LocalWhisper.Machine
