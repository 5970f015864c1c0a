import LocalWhisper.Machine.Searching
import Mathlib.Data.List.Pairwise
import Mathlib.Data.Int.Cast.Basic

/-! Lists of intervals that follow one another, what merging and mapping make of them,
and the parts of a list that they cut out. -/

namespace LocalWhisper.Machine

/-- The places from `start` up to `finish`, which is not one of them. -/
structure Interval where
  start : Int
  finish : Int
  deriving DecidableEq, Repr

namespace Interval

def contains (interval : Interval) (place : Int) : Bool :=
  interval.start ≤ place ∧ place < interval.finish

theorem contains_iff {interval : Interval} {place : Int} :
    interval.contains place = true ↔ interval.start ≤ place ∧ place < interval.finish :=
  decide_eq_true_iff

/-- One after another between two bounds, with at least `gap` places between two of
them. -/
def Ordered (gap upper : Int) : Int → List Interval → Prop
  | _, [] => True
  | lower, first :: rest =>
    lower ≤ first.start ∧ first.start ≤ first.finish ∧ first.finish ≤ upper ∧
      Ordered gap upper (first.finish + gap) rest

section Ordered

variable {gap upper lower : Int} {first : Interval} {intervals rest more : List Interval}

theorem Ordered.of_lower {below : Int} (ordered : Ordered gap upper lower intervals)
    (bound : below ≤ lower) : Ordered gap upper below intervals := by
  cases intervals with
  | nil => trivial
  | cons first rest => exact ⟨Int.le_trans bound ordered.1, ordered.2⟩

theorem Ordered.of_bounds {smaller beyond : Int} (ordered : Ordered gap upper lower intervals)
    (closer : smaller ≤ gap) (bound : upper ≤ beyond) :
    Ordered smaller beyond lower intervals := by
  induction intervals generalizing lower with
  | nil => trivial
  | cons first rest ih =>
    obtain ⟨after, forward, inside, later⟩ := ordered
    exact ⟨after, forward, Int.le_trans inside bound, (ih later).of_lower (by omega)⟩

theorem Ordered.mem (ordered : Ordered gap upper lower intervals) (apart : 0 ≤ gap)
    (member : first ∈ intervals) :
    lower ≤ first.start ∧ first.start ≤ first.finish ∧ first.finish ≤ upper := by
  induction intervals generalizing lower with
  | nil => cases member
  | cons head rest ih =>
    obtain ⟨after, forward, inside, later⟩ := ordered
    rcases List.mem_cons.mp member with rfl | member
    · exact ⟨after, forward, inside⟩
    · obtain ⟨below, bounds⟩ := ih later member
      exact ⟨by omega, bounds⟩

/-- Any two of them are as far apart as neighbours are. -/
theorem Ordered.pairwise (ordered : Ordered gap upper lower intervals) (apart : 0 ≤ gap) :
    intervals.Pairwise fun first second => first.finish + gap ≤ second.start := by
  induction intervals generalizing lower with
  | nil => exact .nil
  | cons head rest ih =>
    refine List.pairwise_cons.mpr ⟨fun second member => ?_, ih ordered.2.2.2⟩
    exact (ordered.2.2.2.mem apart member).1

theorem Ordered.of_pairwise
    (bounds : ∀ interval ∈ intervals,
      lower ≤ interval.start ∧ interval.start ≤ interval.finish ∧ interval.finish ≤ upper)
    (apart : intervals.Pairwise fun first second => first.finish + gap ≤ second.start) :
    Ordered gap upper lower intervals := by
  induction intervals generalizing lower with
  | nil => trivial
  | cons first rest ih =>
    obtain ⟨later, apart⟩ := List.pairwise_cons.mp apart
    obtain ⟨after, forward, inside⟩ := bounds first List.mem_cons_self
    refine ⟨after, forward, inside, ih (fun interval member => ?_) apart⟩
    exact ⟨later interval member, (bounds interval (List.mem_cons_of_mem _ member)).2⟩

theorem Ordered.append (ordered : Ordered gap upper lower intervals) {next : Int}
    (later : Ordered gap upper next more) (bound : lower ≤ next)
    (before : ∀ interval ∈ intervals, interval.finish + gap ≤ next) :
    Ordered gap upper lower (intervals ++ more) := by
  induction intervals generalizing lower with
  | nil => exact later.of_lower bound
  | cons first rest ih =>
    obtain ⟨after, forward, inside, further⟩ := ordered
    have closer := before first List.mem_cons_self
    exact ⟨after, forward, inside,
      ih further closer fun interval member => before interval (List.mem_cons_of_mem _ member)⟩

/-- Leaving some of them out keeps the order. -/
theorem Ordered.sublist (ordered : Ordered gap upper lower intervals) (apart : 0 ≤ gap)
    (part : more.Sublist intervals) : Ordered gap upper lower more := by
  induction part generalizing lower with
  | slnil => trivial
  | cons head _ ih =>
    obtain ⟨after, forward, _, later⟩ := ordered
    exact (ih later).of_lower (by omega)
  | cons_cons head _ ih => exact ⟨ordered.1, ordered.2.1, ordered.2.2.1, ih ordered.2.2.2⟩

/-- A map of the places that keeps their order keeps that of the intervals, though not
their distances. -/
theorem Ordered.map {move : Int → Int}
    (monotone : ∀ first second, lower ≤ first → first ≤ second → second ≤ upper →
      move first ≤ move second)
    (ordered : Ordered gap upper lower intervals) (apart : 0 ≤ gap) :
    Ordered 0 (move upper) (move lower)
      (intervals.map fun interval => ⟨move interval.start, move interval.finish⟩) := by
  induction intervals generalizing lower with
  | nil => trivial
  | cons first rest ih =>
    obtain ⟨after, forward, inside, later⟩ := ordered
    have rest : Ordered gap upper first.finish rest := later.of_lower (by omega)
    have rests := ih (fun one two above => monotone one two (by omega)) rest
    exact ⟨monotone _ _ (Int.le_refl _) after (Int.le_trans forward inside),
      monotone _ _ after forward inside,
      monotone _ _ (Int.le_trans after forward) inside (Int.le_refl _),
      rests.of_lower (by simp)⟩

/-- Between two bounds there is room for so many. -/
theorem Ordered.length_le (ordered : Ordered gap upper lower intervals) (apart : 0 ≤ gap) :
    ((intervals.length - 1 : Nat) : Int) * gap ≤ max 0 (upper - lower) := by
  induction intervals generalizing lower with
  | nil => exact Int.le_trans (Int.le_of_eq (Int.zero_mul gap)) (by omega)
  | cons first rest ih =>
    obtain ⟨after, forward, inside, later⟩ := ordered
    cases rest with
    | nil => exact Int.le_trans (Int.le_of_eq (Int.zero_mul gap)) (by omega)
    | cons next rest =>
      have bound := ih later
      have bounds := later.mem apart List.mem_cons_self
      have more : (((first :: next :: rest).length - 1 : Nat) : Int) * gap =
          gap + (((next :: rest).length - 1 : Nat) : Int) * gap := by
        simp only [List.length_cons, Nat.add_sub_cancel, Int.natCast_add, Int.natCast_one,
          Int.add_mul, Int.one_mul, Int.add_comm gap]
      omega

end Ordered

/-- Neighbours closer than `gap` become one. -/
def mergeClose (gap : Int) : Interval → List Interval → List Interval
  | first, [] => [first]
  | first, next :: rest =>
    if next.start - first.finish < gap then mergeClose gap ⟨first.start, next.finish⟩ rest
    else first :: mergeClose gap next rest

section Merging

variable {gap upper lower : Int} {first : Interval} {rest : List Interval}

theorem mergeClose_ordered (ordered : Ordered 0 upper lower (first :: rest)) :
    Ordered gap upper lower (mergeClose gap first rest) := by
  induction rest generalizing first lower with
  | nil =>
    obtain ⟨after, forward, inside, -⟩ := ordered
    exact ⟨after, forward, inside, trivial⟩
  | cons next rest ih =>
    obtain ⟨after, forward, inside, nextAfter, nextForward, nextInside, later⟩ := ordered
    unfold mergeClose
    split
    · exact ih ⟨after, by simp only; omega, nextInside, later⟩
    · rename_i wide
      exact ⟨after, forward, inside, ih ⟨by omega, nextForward, nextInside, later⟩⟩

/-- Intervals that are far enough apart stay. -/
theorem mergeClose_of_ordered (ordered : Ordered gap upper lower (first :: rest)) :
    mergeClose gap first rest = first :: rest := by
  induction rest generalizing first lower with
  | nil => rfl
  | cons next rest ih =>
    have nextAfter := ordered.2.2.2.1
    rw [mergeClose, if_neg (by omega), ih ordered.2.2.2]

/-- A merged interval begins where one of the intervals does. -/
theorem exists_start_mergeClose {merged : Interval} (member : merged ∈ mergeClose gap first rest) :
    ∃ interval ∈ first :: rest, merged.start = interval.start := by
  induction rest generalizing first with
  | nil => exact ⟨merged, member, rfl⟩
  | cons next rest ih =>
    unfold mergeClose at member
    split at member
    · obtain ⟨interval, isOne, same⟩ := ih member
      rcases List.mem_cons.mp isOne with rfl | later
      · exact ⟨first, List.mem_cons_self, same⟩
      · exact ⟨interval, List.mem_cons_of_mem _ (List.mem_cons_of_mem _ later), same⟩
    · rcases List.mem_cons.mp member with rfl | later
      · exact ⟨merged, List.mem_cons_self, rfl⟩
      · obtain ⟨interval, isOne, same⟩ := ih later
        exact ⟨interval, List.mem_cons_of_mem _ isOne, same⟩

end Merging

end Interval

open LocalWhisper.Machine.Interval

section Cutting

variable {Item : Type}

def pieces (items : List Item) (intervals : List Interval) : List Item :=
  intervals.flatMap fun interval => substring items interval.start interval.finish

/-- The items whose places one of the intervals contains. -/
def covered (intervals : List Interval) (first : Nat) (items : List Item) : List Item :=
  ((items.zipIdx first).filter fun placed =>
    intervals.any fun interval => interval.contains placed.2).map Prod.fst

private theorem covered_cons (intervals : List Interval) (first : Nat) (item : Item)
    (rest : List Item) :
    covered intervals first (item :: rest) =
      (if intervals.any fun interval => interval.contains first then [item] else []) ++
        covered intervals (first + 1) rest := by
  unfold covered
  rw [List.zipIdx_cons, List.filter_cons]
  split <;> simp

/-- The part of a list inside an interval, where the list begins at the place `first`. -/
def piece (first : Nat) (items : List Item) (interval : Interval) : List Item :=
  substring items (interval.start - first) (interval.finish - first)

theorem piece_of_le {first : Nat} {interval : Interval} (before : interval.finish ≤ first)
    (items : List Item) : piece first items interval = [] := by
  have none : (interval.finish - first).toNat = 0 := by omega
  rw [piece, substring, none, List.take_zero, List.drop_nil]

private theorem piece_cons (first : Nat) (interval : Interval) (item : Item) (rest : List Item) :
    piece first (item :: rest) interval =
      (if interval.contains first then [item] else []) ++ piece (first + 1) rest interval := by
  rcases Int.lt_or_le first interval.finish with inside | beyond
  · obtain ⟨count, counted⟩ := Int.eq_ofNat_of_zero_le (a := interval.finish - (first + 1))
      (by omega)
    have finish : (interval.finish - first).toNat = count + 1 := by omega
    have later : (interval.finish - ((first + 1 : Nat) : Int)).toNat = count := by omega
    rcases Int.lt_or_le first interval.start with ahead | started
    · obtain ⟨skipped, skips⟩ := Int.eq_ofNat_of_zero_le (a := interval.start - (first + 1))
        (by omega)
      have start : (interval.start - first).toNat = skipped + 1 := by omega
      have next : (interval.start - ((first + 1 : Nat) : Int)).toNat = skipped := by omega
      have outside : interval.contains first = false := by
        rw [← Bool.not_eq_true, contains_iff]
        omega
      rw [piece, piece, substring, substring, finish, later, start, next, outside]
      rfl
    · have within : interval.contains first = true := contains_iff.mpr ⟨started, inside⟩
      have start : (interval.start - first).toNat = 0 := by omega
      have next : (interval.start - ((first + 1 : Nat) : Int)).toNat = 0 := by omega
      rw [piece, piece, substring, substring, finish, later, start, next, within]
      rfl
  · have outside : interval.contains first = false := by
      rw [← Bool.not_eq_true, contains_iff]
      omega
    rw [piece_of_le beyond, piece_of_le (by omega), outside]
    rfl

/-- Of ordered intervals at most one contains the first place, and the parts of those
before it are empty. -/
theorem flatMap_piece_cons {upper lower : Int} {intervals : List Interval}
    (ordered : Ordered 0 upper lower intervals) (first : Nat) (item : Item) (rest : List Item) :
    intervals.flatMap (piece first (item :: rest)) =
      (if intervals.any fun interval => interval.contains first then [item] else []) ++
        intervals.flatMap (piece (first + 1) rest) := by
  induction intervals generalizing lower with
  | nil => rfl
  | cons head intervals ih =>
    obtain ⟨_, _, _, later⟩ := ordered
    rw [List.flatMap_cons, List.flatMap_cons, piece_cons, ih later, List.any_cons]
    cases inside : head.contains first with
    | false =>
      rw [Bool.false_or]
      rcases Int.lt_or_le first head.finish with before | after
      · -- The place lies before `head`, hence before all that follow.
        have none : (intervals.any fun interval => interval.contains first) = false := by
          rw [← Bool.not_eq_true, List.any_eq_true]
          rintro ⟨interval, member, holds⟩
          have starts := (later.mem (by omega) member).1
          have bounds := contains_iff.mp holds
          omega
        rw [none]
        rfl
      · rw [piece_of_le (by omega)]
        rfl
    | true =>
      have bounds := contains_iff.mp inside
      have none : (intervals.any fun interval => interval.contains first) = false := by
        rw [← Bool.not_eq_true, List.any_eq_true]
        rintro ⟨interval, member, holds⟩
        have starts := (later.mem (by omega) member).1
        have others := contains_iff.mp holds
        omega
      rw [none]
      rfl

private theorem flatMap_piece {upper lower : Int} {intervals : List Interval}
    (ordered : Ordered 0 upper lower intervals) (first : Nat) (items : List Item) :
    intervals.flatMap (piece first items) = covered intervals first items := by
  induction items generalizing first with
  | nil =>
    have empty : piece first ([] : List Item) = fun _ => [] := by
      funext interval
      rw [piece, substring, List.take_nil, List.drop_nil]
    rw [empty, List.flatMap_eq_nil_iff.mpr fun _ _ => rfl]
    rfl
  | cons item rest ih => rw [flatMap_piece_cons ordered, ih, covered_cons]

/-- What ordered intervals cut out are the items at their places, in their order. -/
theorem pieces_eq_covered {upper lower : Int} {intervals : List Interval}
    (ordered : Ordered 0 upper lower intervals) (items : List Item) :
    pieces items intervals = covered intervals 0 items := by
  have same : piece 0 items = fun interval => substring items interval.start interval.finish := by
    funext interval
    rw [piece, Int.natCast_zero, Int.sub_zero, Int.sub_zero]
  rw [← flatMap_piece ordered, pieces, same]

theorem covered_sublist (intervals : List Interval) (first : Nat) (items : List Item) :
    (covered intervals first items).Sublist items := by
  have part := (List.filter_sublist (l := items.zipIdx first) (p := fun placed =>
    intervals.any fun interval => interval.contains placed.2)).map Prod.fst
  rwa [List.zipIdx_map_fst] at part

end Cutting

end LocalWhisper.Machine
