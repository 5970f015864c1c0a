import Mathlib.Order.Monotone.Basic
import Mathlib.Tactic.ByContra
import Mathlib.Tactic.SplitIfs

/-! How `parallel_for` divides a range that starts at 0 among threads: with the thread
pool, and with OpenMP. -/

namespace LocalWhisper.CTranslate2

/-- The ranges of one `parallel_for`: disjoint, covering the first `size` indices, at
most as many as there are threads. -/
structure Admissible (size threads : Nat) (ranges : List (Nat × Nat)) : Prop where
  few : ranges.length ≤ threads
  ordered : ∀ range ∈ ranges, range.1 ≤ range.2 ∧ range.2 ≤ size
  covers : ∀ index < size, ∃ range ∈ ranges, range.1 ≤ index ∧ index < range.2
  disjoint : ∀ (first second : Nat) (firstRange secondRange : Nat × Nat),
    ranges[first]? = some firstRange → ranges[second]? = some secondRange → first ≠ second →
      ∀ index, firstRange.1 ≤ index → index < firstRange.2 →
        ¬ (secondRange.1 ≤ index ∧ index < secondRange.2)

/-- The calls that `parallel_for` makes of its function, for so many indices and
threads. -/
structure ParallelFor where
  ranges : Nat → Nat → List (Nat × Nat)
  admissible : ∀ size threads, 0 < size → 0 < threads →
    Admissible size threads (ranges size threads)

def between (boundary : Nat → Nat) (count : Nat) : List (Nat × Nat) :=
  (List.range count).map fun block => (boundary block, boundary (block + 1))

theorem getElem?_between {boundary : Nat → Nat} {count block : Nat} {range : Nat × Nat}
    (found : (between boundary count)[block]? = some range) :
    block < count ∧ range = (boundary block, boundary (block + 1)) := by
  rw [between, List.getElem?_map] at found
  obtain ⟨position, present, rfl⟩ := Option.map_eq_some_iff.mp found
  obtain ⟨inside, same⟩ := List.getElem?_eq_some_iff.mp present
  rw [List.getElem_range] at same
  rw [List.length_range] at inside
  exact ⟨inside, by rw [same]⟩

private theorem exists_between {boundary : Nat → Nat} {count index : Nat} (first : boundary 0 = 0)
    (below : index < boundary count) :
    ∃ block < count, boundary block ≤ index ∧ index < boundary (block + 1) := by
  induction count with
  | zero => omega
  | succ count inductionHypothesis =>
    by_cases earlier : index < boundary count
    · obtain ⟨block, inside, range⟩ := inductionHypothesis earlier
      exact ⟨block, Nat.lt_succ_of_lt inside, range⟩
    · exact ⟨count, Nat.lt_succ_self count, Nat.le_of_not_lt earlier, below⟩

theorem admissible_between {boundary : Nat → Nat} {size threads count : Nat}
    (monotone : Monotone boundary) (first : boundary 0 = 0) (last : boundary count = size)
    (few : count ≤ threads) : Admissible size threads (between boundary count) := by
  constructor
  case few =>
    rw [between, List.length_map, List.length_range]
    exact few
  case ordered =>
    intro range member
    obtain ⟨block, inside, rfl⟩ := List.mem_map.mp member
    refine ⟨monotone (Nat.le_succ block), ?_⟩
    rw [← last]
    exact monotone (List.mem_range.mp inside)
  case covers =>
    intro index below
    rw [← last] at below
    obtain ⟨block, inside, range⟩ := exists_between first below
    exact ⟨_, List.mem_map.mpr ⟨block, List.mem_range.mpr inside, rfl⟩, range⟩
  case disjoint =>
    intro earlier later earlierRange laterRange earlierFound laterFound different index
      begun stopped within
    obtain ⟨-, rfl⟩ := getElem?_between earlierFound
    obtain ⟨-, rfl⟩ := getElem?_between laterFound
    rcases Nat.lt_or_gt_of_ne different with before | before
    · have apart := monotone (Nat.succ_le_of_lt before)
      exact absurd (Nat.lt_of_lt_of_le stopped apart) (Nat.not_lt.mpr within.1)
    · have apart := monotone (Nat.succ_le_of_lt before)
      exact absurd (Nat.lt_of_lt_of_le within.2 apart) (Nat.not_lt.mpr begun)

theorem admissible_whole {size threads : Nat} (some : 0 < threads) :
    Admissible size threads [(0, size)] := by
  have whole : Admissible size threads (between (fun block => block * size) 1) :=
    admissible_between (fun _ _ most => Nat.mul_le_mul_right size most) (Nat.zero_mul size)
      (Nat.one_mul size) some
  simpa [between] using whole

/-- `ceil_divide`. -/
def ceilDivide (dividend divisor : Nat) : Nat := (dividend + divisor - 1) / divisor

/-- `kFeatureParallelGrainFrames`. -/
def kFeatureParallelGrainFrames : Nat := 16

theorem ceilDivide_pos {dividend divisor : Nat} (some : 0 < dividend) (positive : 0 < divisor) :
    0 < ceilDivide dividend divisor :=
  Nat.div_pos (by omega) positive

theorem le_ceilDivide_mul (dividend : Nat) {divisor : Nat} (positive : 0 < divisor) :
    dividend ≤ divisor * ceilDivide dividend divisor := by
  have whole := Nat.div_add_mod (dividend + divisor - 1) divisor
  have rest := Nat.mod_lt (dividend + divisor - 1) positive
  rw [ceilDivide]
  omega

/-- `blocks.start` of the thread pool. -/
def blockStart (blockSize remainder block : Nat) : Nat :=
  block * blockSize + if block < remainder then block else remainder

/-- `parallel_for` with `detach_blocks` of the thread pool. -/
def poolRanges (size threads : Nat) : List (Nat × Nat) :=
  let blocks := min threads (ceilDivide size kFeatureParallelGrainFrames)
  if blocks = 1 then [(0, size)]
  else
    let count := min blocks size
    let start := blockStart (size / count) (size % count)
    (List.range count).map fun block =>
      (start block, if block = count - 1 then size else start (block + 1))

/-- `parallel_for` with the threads of OpenMP. -/
def openMpRanges (size threads : Nat) : List (Nat × Nat) :=
  if threads = 1 ∨ size ≤ kFeatureParallelGrainFrames then [(0, size)]
  else
    let count := min threads (ceilDivide size kFeatureParallelGrainFrames)
    let chunk := ceilDivide size count
    ((List.range threads).filter fun thread => thread * chunk < size).map fun thread =>
      (thread * chunk, min size (chunk + thread * chunk))

private theorem monotone_blockStart (blockSize remainder : Nat) :
    Monotone (blockStart blockSize remainder) := by
  apply monotone_nat_of_le_succ
  intro block
  rw [blockStart, blockStart, Nat.succ_mul]
  split_ifs <;> omega

/-- The pool gives each of its blocks the same number of indices, the first ones one
more. -/
theorem admissible_poolRanges {size threads : Nat} (some : 0 < size) (positive : 0 < threads) :
    Admissible size threads (poolRanges size threads) := by
  have grains := ceilDivide_pos some (show 0 < kFeatureParallelGrainFrames by decide)
  unfold poolRanges
  dsimp only
  split
  · exact admissible_whole positive
  · obtain ⟨count, countIs⟩ : ∃ count, min (min threads
        (ceilDivide size kFeatureParallelGrainFrames)) size = count := ⟨_, rfl⟩
    have several : 0 < count := by omega
    have last : blockStart (size / count) (size % count) count = size := by
      have rest := Nat.mod_lt size several
      rw [blockStart, if_neg (by omega), Nat.div_add_mod]
    have ranges : (List.range count).map (fun block =>
        (blockStart (size / count) (size % count) block, if block = count - 1 then size
          else blockStart (size / count) (size % count) (block + 1))) =
        between (blockStart (size / count) (size % count)) count := by
      apply List.map_congr_left
      intro block inside
      split
      · next isLast =>
        have next : block + 1 = count := by omega
        rw [next, last]
      · rfl
    rw [countIs, ranges]
    apply admissible_between (monotone_blockStart _ _) _ last (by omega)
    rw [blockStart, Nat.zero_mul]
    split <;> omega

theorem mul_lt_iff_lt_ceilDivide {index size chunk : Nat} (positive : 0 < chunk) :
    index * chunk < size ↔ index < ceilDivide size chunk := by
  rw [ceilDivide, ← Nat.succ_le_iff (m := index), Nat.le_div_iff_mul_le positive, Nat.succ_mul]
  omega

private theorem filter_range {count kept : Nat} {test : Nat → Bool} (most : kept ≤ count)
    (tests : ∀ index, test index = decide (index < kept)) :
    (List.range count).filter test = List.range kept := by
  obtain ⟨rest, rfl⟩ := Nat.exists_eq_add_of_le most
  have first : (List.range kept).filter test = List.range kept := by
    apply List.filter_eq_self.mpr
    intro index inside
    rw [tests]
    exact decide_eq_true (List.mem_range.mp inside)
  have second : ((List.range rest).map fun index => kept + index).filter test = [] := by
    apply List.filter_eq_nil_iff.mpr
    intro index member
    obtain ⟨position, -, rfl⟩ := List.mem_map.mp member
    rw [tests]
    simp
  rw [List.range_add, List.filter_append, first, second, List.append_nil]

theorem admissible_openMpRanges {size threads : Nat} (some : 0 < size) (positive : 0 < threads) :
    Admissible size threads (openMpRanges size threads) := by
  have grains := ceilDivide_pos some (show 0 < kFeatureParallelGrainFrames by decide)
  unfold openMpRanges
  dsimp only
  split
  · exact admissible_whole positive
  · obtain ⟨count, countIs⟩ : ∃ count,
        min threads (ceilDivide size kFeatureParallelGrainFrames) = count := ⟨_, rfl⟩
    have several : 0 < count := by omega
    obtain ⟨chunk, chunkIs⟩ : ∃ chunk, ceilDivide size count = chunk := ⟨_, rfl⟩
    have room : 0 < chunk := chunkIs ▸ ceilDivide_pos some several
    have enough : size ≤ count * chunk := chunkIs ▸ le_ceilDivide_mul size several
    have used : ceilDivide size chunk ≤ threads := by
      by_contra more
      have inside := (mul_lt_iff_lt_ceilDivide room).mpr (Nat.lt_of_not_le more)
      have most : count * chunk ≤ threads * chunk := Nat.mul_le_mul_right chunk (by omega)
      omega
    have boundaries : ((List.range threads).filter fun thread => thread * chunk < size).map
        (fun thread => (thread * chunk, min size (chunk + thread * chunk))) =
        between (fun block => min size (block * chunk)) (ceilDivide size chunk) := by
      rw [filter_range used fun thread => decide_eq_decide.mpr (mul_lt_iff_lt_ceilDivide room)]
      apply List.map_congr_left
      intro thread inside
      have below := (mul_lt_iff_lt_ceilDivide room).mpr (List.mem_range.mp inside)
      dsimp only
      rw [Nat.succ_mul, Nat.add_comm chunk, Nat.min_eq_right below.le]
    rw [countIs, chunkIs, boundaries]
    apply admissible_between _ (by simp) _ used
    · intro earlier later most
      have ordered : earlier * chunk ≤ later * chunk := Nat.mul_le_mul_right chunk most
      dsimp only
      omega
    · have last := le_ceilDivide_mul size room
      rw [Nat.mul_comm] at last
      exact Nat.min_eq_left last

def ParallelFor.pool : ParallelFor := ⟨poolRanges, fun _ _ => admissible_poolRanges⟩

def ParallelFor.openMp : ParallelFor := ⟨openMpRanges, fun _ _ => admissible_openMpRanges⟩

end LocalWhisper.CTranslate2
