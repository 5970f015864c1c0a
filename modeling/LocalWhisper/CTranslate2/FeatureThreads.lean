import LocalWhisper.CTranslate2.WhisperFeatures
import Mathlib.Data.Fintype.Card
import Mathlib.Order.Bounds.Basic

/-! The threads of one call: what each of them finds in its buffers and leaves in the
output, in whichever order they make their steps. -/

namespace LocalWhisper.CTranslate2

open Machine

variable {Value : Type} [Field Value]

section Frames

variable (extractor : Extractor Value) (job : Job Value)

def frameSample (frame index : Nat) : Complex Value :=
  windowed job.audio job.hann ((frame * kHopLength : Nat) - (kFftHalfSize : Int)) index

def spectrum (frame bin : Nat) : Complex Value :=
  ∑ index ∈ Finset.range kFftSize, frameSample job frame index * extractor.root ^ (bin * index)

def framePower (frame : Nat) : List Value :=
  (List.range kFftBins).map fun bin => norm (spectrum extractor job frame bin)

def logMel [LinearOrder Value] (cell : Nat × Nat) : Value :=
  extractor.log10 (max (scalarProduct (job.filters.drop (cell.1 * kFftBins))
    (framePower extractor job cell.2) kFftBins) kMinimumMelEnergy)

/-- The values that are compared for the maximum: those of the first `frames` frames
and the initial one. -/
def levels [LinearOrder Value] (frames : Nat) : Set Value :=
  insert kInitialLogMel (Set.image (logMel extractor job)
    {cell | cell.1 < job.nMels ∧ cell.2 < frames})

/-- The output of a call whose largest level is `maximum`. -/
def features [LinearOrder Value] (frames : Nat) (maximum : Value) : List Value :=
  (List.range (job.nMels * kFrames)).map fun index =>
    normalized (floorOf maximum) (if index % kFrames < frames then
      logMel extractor job (index / kFrames, index % kFrames) else kInitialLogMel)

end Frames

namespace ThreadWorkspace

/-- The buffers have the sizes that the kernels need. -/
structure Sized (thread : ThreadWorkspace Value) : Prop where
  power : thread.power.length = kFftBins
  fftInput : thread.fftInput.length = kFftSize
  fftOutput : thread.fftOutput.length = kFftSize
  fftScratch : thread.fftScratch.length = kFftSize

theorem sized_prepared (thread : ThreadWorkspace Value) : thread.prepared.Sized :=
  ⟨length_resize _ _ _, length_resize _ _ _, length_resize _ _ _, length_resize _ _ _⟩

/-- The transform depends on nothing that `fftOutput` and `fftScratch` held. -/
theorem transform_eq (extractor : Extractor Value) {thread : ThreadWorkspace Value}
    (sized : thread.Sized) : ∃ after, thread.transform extractor = some after ∧ after.Sized ∧
      after.fftOutput = (List.range kFftSize).map fun bin =>
        ∑ index ∈ Finset.range kFftSize,
          thread.fftInput.getD index 0 * extractor.root ^ (bin * index) := by
  obtain ⟨memory, ran, points, -⟩ := fft_eq_dft extractor.unity thread.memory
  have tabulated (cells : Nat → Complex Value) :
      ((List.range kFftSize).map cells).length = kFftSize := by
    rw [List.length_map, List.length_range]
  refine ⟨thread.withMemory memory, ?_, ⟨sized.power, tabulated _, tabulated _, tabulated _⟩,
    List.map_congr_left fun bin inside => points bin (List.mem_range.mp inside)⟩
  rw [transform, if_pos ⟨sized.fftInput, sized.fftOutput, sized.fftScratch⟩]
  exact (congrArg (Option.bind · _) ran).trans rfl

end ThreadWorkspace

namespace Block

/-- The mel values of the current frame that are computed. -/
def melsDone (block : Block Value) : Nat :=
  match block.stage with
  | .mel mel => mel
  | _ => 0

def computed (nMels : Nat) (block : Block Value) : Set (Nat × Nat) :=
  {cell | cell.1 < nMels ∧ block.first ≤ cell.2 ∧
    (cell.2 < block.frame ∨ cell.2 = block.frame ∧ cell.1 < block.melsDone)}

omit [Field Value] in
theorem computed_succ {nMels mel : Nat} {block : Block Value} (isStage : block.stage = .mel mel)
    (below : mel < nMels) (begun : block.first ≤ block.frame) (maximum : Value) :
    computed nMels
        { block with stage := .mel (mel + 1), localMaximum := maximum } =
      insert (mel, block.frame) (block.computed nMels) := by
  ext ⟨cellMel, cellFrame⟩
  simp only [computed, melsDone, isStage, Set.mem_ofPred_eq, Set.mem_insert_iff,
    Prod.mk.injEq]
  constructor
  · rintro ⟨inside, started, earlier | ⟨same, done⟩⟩
    · exact .inr ⟨inside, started, .inl earlier⟩
    · rcases Nat.lt_succ_iff_lt_or_eq.mp done with before | now
      · exact .inr ⟨inside, started, .inr ⟨same, before⟩⟩
      · exact .inl ⟨now, same⟩
  · rintro (⟨rfl, rfl⟩ | ⟨inside, started, earlier | ⟨same, done⟩⟩)
    · exact ⟨below, begun, .inr ⟨rfl, Nat.lt_succ_self _⟩⟩
    · exact ⟨inside, started, .inl earlier⟩
    · exact ⟨inside, started, .inr ⟨same, Nat.lt_succ_of_lt done⟩⟩

omit [Field Value] in
theorem computed_next {nMels : Nat} {block : Block Value} (isStage : block.stage = .mel nMels)
    (begun : block.first ≤ block.frame) :
    computed nMels { block with stage := .window, frame := block.frame + 1 } =
      block.computed nMels := by
  ext ⟨cellMel, cellFrame⟩
  simp only [computed, melsDone, isStage, Set.mem_ofPred_eq]
  omega

def work (nMels : Nat) (block : Block Value) : Nat :=
  match block.stage with
  | .waiting => (block.stop - block.frame) * (nMels + 4) + 2
  | .window => (block.stop - block.frame) * (nMels + 4) + 1
  | .transform => (block.stop - block.frame - 1) * (nMels + 4) + nMels + 4
  | .power => (block.stop - block.frame - 1) * (nMels + 4) + nMels + 3
  | .mel mel => (block.stop - block.frame - 1) * (nMels + 4) + (nMels - mel) + 2
  | .finished => 0

omit [Field Value] in
theorem taken_of {block : Block Value} {stage : Stage} (isStage : block.stage = stage)
    (other : stage ≠ .waiting) : block.stage ≠ .waiting := by
  rw [isStage]
  exact other

omit [Field Value] in
/-- A block without steps left has finished. -/
theorem work_eq_zero {nMels : Nat} {block : Block Value} (idle : block.work nMels = 0) :
    block.stage = .finished := by
  unfold work at idle
  split at idle
  case h_6 isStage => exact isStage
  all_goals omega

end Block

def Threads.work (nMels : Nat) (state : Threads Value) (index : Nat) : Nat :=
  (state.blocks[index]?.map (Block.work nMels)).getD 0

section Owners

variable {state later : Threads Value} {index : Nat} {block after : Block Value}

/-- The buffers are handed out one by one, and every block has its own. -/
structure Owners (state : Threads Value) : Prop where
  taken : ∀ {index : Nat} {block : Block Value}, state.blocks[index]? = some block →
    block.stage ≠ .waiting → block.workspaceIndex < state.nextWorkspace
  apart : ∀ {first second : Nat} {firstBlock secondBlock : Block Value},
    state.blocks[first]? = some firstBlock → state.blocks[second]? = some secondBlock →
      firstBlock.stage ≠ .waiting → secondBlock.stage ≠ .waiting →
        firstBlock.workspaceIndex = secondBlock.workspaceIndex → first = second
  owned : ∀ position < state.nextWorkspace, ∃ (index : Nat) (block : Block Value),
    state.blocks[index]? = some block ∧ block.stage ≠ .waiting ∧ block.workspaceIndex = position

theorem blocks_set {position : Nat} {other : Block Value}
    (blocks : later.blocks = state.blocks.set index after)
    (placed : later.blocks[position]? = some other) :
    position = index ∧ other = after ∨ position ≠ index ∧ state.blocks[position]? = some other := by
  rw [blocks, List.getElem?_set] at placed
  split at placed
  · next same =>
    split at placed
    · exact .inl ⟨same.symm, (Option.some.inj placed).symm⟩
    · cases placed
  · next different => exact .inr ⟨fun same => different same.symm, placed⟩

theorem Owners.keep (owners : Owners state) (found : state.blocks[index]? = some block)
    (blocks : later.blocks = state.blocks.set index after) (taken : block.stage ≠ .waiting)
    (same : after.workspaceIndex = block.workspaceIndex)
    (counter : later.nextWorkspace = state.nextWorkspace) (still : after.stage ≠ .waiting) :
    Owners later where
  taken := by
    intro position other placed started
    rw [counter]
    obtain ⟨rfl, rfl⟩ | ⟨-, before⟩ := blocks_set blocks placed
    · exact same ▸ owners.taken found taken
    · exact owners.taken before started
  apart := by
    intro first second firstBlock secondBlock firstAt secondAt firstTaken secondTaken equal
    obtain ⟨rfl, rfl⟩ | ⟨-, firstBefore⟩ := blocks_set blocks firstAt <;>
      obtain ⟨rfl, rfl⟩ | ⟨-, secondBefore⟩ := blocks_set blocks secondAt
    · rfl
    · exact owners.apart found secondBefore taken secondTaken (same.symm.trans equal)
    · exact owners.apart firstBefore found firstTaken taken (equal.trans same)
    · exact owners.apart firstBefore secondBefore firstTaken secondTaken equal
  owned := by
    intro position below
    rw [counter] at below
    obtain ⟨owner, other, placed, started, samePosition⟩ := owners.owned position below
    by_cases isIndex : owner = index
    · subst isIndex
      rw [found] at placed
      cases placed
      have within := (List.getElem?_eq_some_iff.mp found).1
      exact ⟨owner, after, by rw [blocks, List.getElem?_set_self within], still,
        same.trans samePosition⟩
    · refine ⟨owner, other, ?_, started, samePosition⟩
      rwa [blocks, List.getElem?_set_ne fun equal => isIndex equal.symm]

/-- The next buffers go to a block that has none. -/
theorem Owners.take (owners : Owners state) (found : state.blocks[index]? = some block)
    (blocks : later.blocks = state.blocks.set index after) (free : block.stage = .waiting)
    (given : after.workspaceIndex = state.nextWorkspace)
    (counter : later.nextWorkspace = state.nextWorkspace + 1) (started : after.stage ≠ .waiting) :
    Owners later where
  taken := by
    intro position other placed otherTaken
    rw [counter]
    obtain ⟨rfl, rfl⟩ | ⟨-, before⟩ := blocks_set blocks placed
    · exact given ▸ Nat.lt_succ_self _
    · exact Nat.lt_succ_of_lt (owners.taken before otherTaken)
  apart := by
    intro first second firstBlock secondBlock firstAt secondAt firstTaken secondTaken equal
    obtain ⟨rfl, rfl⟩ | ⟨-, firstBefore⟩ := blocks_set blocks firstAt <;>
      obtain ⟨rfl, rfl⟩ | ⟨-, secondBefore⟩ := blocks_set blocks secondAt
    · rfl
    · exact absurd (owners.taken secondBefore secondTaken) (by omega)
    · exact absurd (owners.taken firstBefore firstTaken) (by omega)
    · exact owners.apart firstBefore secondBefore firstTaken secondTaken equal
  owned := by
    intro position below
    rw [counter] at below
    have within := (List.getElem?_eq_some_iff.mp found).1
    rcases Nat.lt_succ_iff_lt_or_eq.mp below with earlier | rfl
    · obtain ⟨owner, other, placed, otherTaken, samePosition⟩ := owners.owned position earlier
      refine ⟨owner, other, ?_, otherTaken, samePosition⟩
      rw [blocks, List.getElem?_set_ne, placed]
      rintro rfl
      rw [found] at placed
      cases placed
      exact otherTaken free
    · exact ⟨index, after, by rw [blocks, List.getElem?_set_self within], started, given⟩

/-- A block for each of the buffers that are handed out. -/
theorem Owners.injection (owners : Owners state) :
    ∃ owner : Fin state.nextWorkspace → Fin state.blocks.length, Function.Injective owner ∧
      ∀ place block, state.blocks[(owner place).val]? = some block → block.stage ≠ .waiting := by
  choose owner other placed taken position using owners.owned
  have inside (place : Fin state.nextWorkspace) : owner place place.isLt < state.blocks.length :=
    (List.getElem?_eq_some_iff.mp (placed place place.isLt)).1
  refine ⟨fun place => ⟨owner place place.isLt, inside place⟩, ?_, ?_⟩
  · intro first second same
    have sameOwner : owner first first.isLt = owner second second.isLt := congrArg Fin.val same
    have sameBlock : other first first.isLt = other second second.isLt := by
      have firstAt := placed first first.isLt
      rw [sameOwner, placed second second.isLt] at firstAt
      exact (Option.some.inj firstAt).symm
    apply Fin.ext
    rw [← position first first.isLt, ← position second second.isLt, sameBlock]
  · intro place block found
    rw [placed place place.isLt] at found
    exact Option.some.inj found ▸ taken place place.isLt

theorem Owners.le (owners : Owners state) : state.nextWorkspace ≤ state.blocks.length := by
  obtain ⟨owner, injective, -⟩ := owners.injection
  simpa using Fintype.card_le_of_injective owner injective

theorem Owners.lt (owners : Owners state) (found : state.blocks[index]? = some block)
    (free : block.stage = .waiting) : state.nextWorkspace < state.blocks.length := by
  obtain ⟨owner, injective, taken⟩ := owners.injection
  have missed : (⟨index, (List.getElem?_eq_some_iff.mp found).1⟩ : Fin state.blocks.length) ∉
      Set.range owner := by
    rintro ⟨place, same⟩
    have placeIs : (owner place).val = index := congrArg Fin.val same
    exact taken place block (by rw [placeIs, found]) free
  simpa using Fintype.card_lt_of_injective_of_notMem owner injective missed

end Owners

variable [LinearOrder Value]

/-- What a thread at its stage finds in the buffers it took, or has left in
`thread_maxima`. -/
def StageHolds (extractor : Extractor Value) (job : Job Value) (state : Threads Value)
    (block : Block Value) : Prop :=
  match block.stage with
  | .waiting => block.frame = block.first
  | .window => block.frame ≤ block.stop
  | .transform => block.frame < block.stop ∧
      ∃ thread, state.threadWorkspaces[block.workspaceIndex]? = some thread ∧
        thread.fftInput = (List.range kFftSize).map (frameSample job block.frame)
  | .power => block.frame < block.stop ∧
      ∃ thread, state.threadWorkspaces[block.workspaceIndex]? = some thread ∧
        thread.fftOutput = (List.range kFftSize).map (spectrum extractor job block.frame)
  | .mel mel => block.frame < block.stop ∧ mel ≤ job.nMels ∧
      ∃ thread, state.threadWorkspaces[block.workspaceIndex]? = some thread ∧
        thread.power = framePower extractor job block.frame
  | .finished => block.frame = block.stop ∧
      state.threadMaxima[block.workspaceIndex]? = some block.localMaximum

structure BlockHolds (extractor : Extractor Value) (job : Job Value) (state : Threads Value)
    (block : Block Value) : Prop where
  begun : block.first ≤ block.frame
  ordered : block.first ≤ block.stop
  stage : StageHolds extractor job state block
  written : ∀ cell ∈ block.computed job.nMels,
    state.output[cell.1 * kFrames + cell.2]? = some (logMel extractor job cell)
  greatest : IsGreatest (insert kInitialLogMel
    (Set.image (logMel extractor job) (block.computed job.nMels))) block.localMaximum

/-- The tables of a call have the sizes that the kernels need. -/
structure Job.Sized (job : Job Value) : Prop where
  hann : job.hann.length = kFftSize
  filters : job.filters.length = job.nMels * kFftBins

structure Consistent (extractor : Extractor Value) (job : Job Value) (ranges : List (Nat × Nat))
    (threads : Nat) (state : Threads Value) : Prop where
  ranges : state.blocks.map (fun block => (block.first, block.stop)) = ranges
  buffers : state.threadWorkspaces.length = threads
  maxima : state.threadMaxima.length = threads
  outputSize : state.output.length = job.nMels * kFrames
  sized : ∀ thread ∈ state.threadWorkspaces, thread.Sized
  owners : Owners state
  block : ∀ {index : Nat} {block : Block Value}, state.blocks[index]? = some block →
    BlockHolds extractor job state block
  untouched : ∀ mel < job.nMels, ∀ frame < kFrames,
    (∀ block ∈ state.blocks, (mel, frame) ∉ block.computed job.nMels) →
      state.output[mel * kFrames + frame]? = some kInitialLogMel

section Steps

variable {extractor : Extractor Value} {job : Job Value} {ranges : List (Nat × Nat)}
variable {size threads : Nat} {state later : Threads Value} {index : Nat}
variable {block after : Block Value}

theorem BlockHolds.frame_le (holds : BlockHolds extractor job state block) :
    block.frame ≤ block.stop := by
  have stage := holds.stage
  have ordered := holds.ordered
  unfold StageHolds at stage
  split at stage <;> omega

/-- A block writes frames of its own range only. -/
theorem BlockHolds.inside (holds : BlockHolds extractor job state block) {cell : Nat × Nat}
    (computed : cell ∈ block.computed job.nMels) :
    block.first ≤ cell.2 ∧ cell.2 < block.stop := by
  obtain ⟨-, begun, earlier | ⟨same, done⟩⟩ := computed
  · exact ⟨begun, Nat.lt_of_lt_of_le earlier holds.frame_le⟩
  · have stage := holds.stage
    unfold Block.melsDone at done
    unfold StageHolds at stage
    split at done
    · next mel isMel =>
      rw [isMel] at stage
      exact ⟨begun, same ▸ stage.1⟩
    · exact absurd done (Nat.not_lt_zero _)

/-- A block is not concerned by what happens outside its buffers and its cells. -/
theorem BlockHolds.of_same (holds : BlockHolds extractor job state block)
    (buffers : block.stage ≠ .waiting →
      later.threadWorkspaces[block.workspaceIndex]? = state.threadWorkspaces[block.workspaceIndex]? ∧
        later.threadMaxima[block.workspaceIndex]? = state.threadMaxima[block.workspaceIndex]?)
    (cells : ∀ cell ∈ block.computed job.nMels,
      later.output[cell.1 * kFrames + cell.2]? = state.output[cell.1 * kFrames + cell.2]?) :
    BlockHolds extractor job later block where
  begun := holds.begun
  ordered := holds.ordered
  stage := by
    have stage := holds.stage
    unfold StageHolds at stage ⊢
    split at stage
    case h_1 | h_2 => exact stage
    all_goals
      next isStage =>
        obtain ⟨workspaces, maxima⟩ := buffers (by rw [isStage]; exact Stage.noConfusion)
        simpa only [workspaces, maxima] using stage
  written := fun cell computed => (cells cell computed).trans (holds.written cell computed)
  greatest := holds.greatest

/-- A block keeps the range it was called with. -/
theorem Consistent.range_of (holds : Consistent extractor job ranges threads state)
    (found : state.blocks[index]? = some block) :
    ranges[index]? = some (block.first, block.stop) := by
  rw [← holds.ranges, List.getElem?_map, found]
  rfl

/-- A step of one block, as the other blocks and the untouched cells see it. -/
structure Moves (extractor : Extractor Value) (job : Job Value) (state later : Threads Value)
    (index : Nat) (block after : Block Value) : Prop where
  blocks : later.blocks = state.blocks.set index after
  range : (after.first, after.stop) = (block.first, block.stop)
  taken : after.stage ≠ .waiting
  buffers : later.threadWorkspaces.length = state.threadWorkspaces.length
  maxima : later.threadMaxima.length = state.threadMaxima.length
  outputSize : later.output.length = state.output.length
  sized : ∀ thread ∈ later.threadWorkspaces, thread ∈ state.threadWorkspaces ∨ thread.Sized
  elsewhere : ∀ position ≠ after.workspaceIndex,
    later.threadWorkspaces[position]? = state.threadWorkspaces[position]? ∧
      later.threadMaxima[position]? = state.threadMaxima[position]?
  grows : block.computed job.nMels ⊆ after.computed job.nMels
  unwritten : ∀ mel frame, frame < kFrames → (mel, frame) ∉ after.computed job.nMels →
    later.output[mel * kFrames + frame]? = state.output[mel * kFrames + frame]?
  owners : Owners later
  own : BlockHolds extractor job later after
  work : after.work job.nMels + 1 = block.work job.nMels

theorem Consistent.moved (admissible : Admissible size threads ranges) (most : size ≤ kFrames)
    (holds : Consistent extractor job ranges threads state)
    (found : state.blocks[index]? = some block)
    (moves : Moves extractor job state later index block after) :
    Consistent extractor job ranges threads later := by
  have within : index < state.blocks.length := (List.getElem?_eq_some_iff.mp found).1
  have here : later.blocks[index]? = some after := by
    rw [moves.blocks, List.getElem?_set_self within]
  obtain ⟨sameFirst, sameStop⟩ := Prod.mk.inj moves.range
  constructor
  case ranges =>
    rw [← holds.ranges, moves.blocks]
    apply List.ext_getElem?
    intro position
    rw [List.getElem?_map, List.getElem?_map, List.getElem?_set]
    split
    · next same => rw [← same, found, Option.map_some, Option.map_some, moves.range]
    · rfl
  case buffers => exact moves.buffers.trans holds.buffers
  case maxima => exact moves.maxima.trans holds.maxima
  case outputSize => exact moves.outputSize.trans holds.outputSize
  case sized => exact fun thread member => (moves.sized thread member).elim (holds.sized thread) id
  case owners => exact moves.owners
  case block =>
    intro position other placed
    by_cases same : position = index
    · subst same
      rw [here] at placed
      cases placed
      exact moves.own
    · have before : state.blocks[position]? = some other := by
        rwa [moves.blocks, List.getElem?_set_ne fun equal => same equal.symm] at placed
      have known := holds.block before
      apply known.of_same
      · intro started
        exact moves.elsewhere _ fun equal =>
          same (moves.owners.apart placed here started moves.taken equal)
      · rintro ⟨mel, frame⟩ computed
        have frames := known.inside computed
        have most := (admissible.ordered _ (List.mem_of_getElem? (holds.range_of before))).2
        apply moves.unwritten mel frame (by omega)
        intro written
        have others := moves.own.inside written
        rw [sameFirst, sameStop] at others
        exact admissible.disjoint _ _ _ _ (holds.range_of found) (holds.range_of before)
          (fun equal => same equal.symm) frame others.1 others.2 frames
  case untouched =>
    intro mel below frame inside none
    have notAfter := none after (List.mem_of_getElem? here)
    rw [moves.unwritten mel frame inside notAfter]
    apply holds.untouched mel below frame inside
    intro other member computed
    obtain ⟨position, placed⟩ := List.mem_iff_getElem?.mp member
    by_cases same : position = index
    · subst same
      rw [found] at placed
      cases placed
      exact notAfter (moves.grows computed)
    · apply none other (List.mem_iff_getElem?.mpr ⟨position, ?_⟩) computed
      rwa [moves.blocks, List.getElem?_set_ne fun equal => same equal.symm]

/-- A step that changes the buffers of its block and nothing else. -/
theorem Consistent.moves_buffered (holds : Consistent extractor job ranges threads state)
    (found : state.blocks[index]? = some block) (taken : block.stage ≠ .waiting)
    (thread : ThreadWorkspace Value) (stage : Stage) (still : stage ≠ .waiting)
    (sized : thread.Sized)
    (done : Block.melsDone { block with stage := stage } = block.melsDone)
    (work : Block.work job.nMels { block with stage := stage } + 1 = block.work job.nMels)
    (stageHolds : StageHolds extractor job
      (state.buffered index { block with stage := stage } thread) { block with stage := stage }) :
    Moves extractor job state (state.buffered index { block with stage := stage } thread) index
      block { block with stage := stage } where
  blocks := rfl
  range := rfl
  taken := still
  buffers := List.length_set
  maxima := rfl
  outputSize := rfl
  sized := by
    intro other member
    rcases List.mem_or_eq_of_mem_set member with before | rfl
    · exact .inl before
    · exact .inr sized
  elsewhere := fun position different => ⟨List.getElem?_set_ne different.symm, rfl⟩
  grows := by
    intro cell computed
    rwa [Block.computed, done]
  unwritten := fun _ _ _ _ => rfl
  owners := holds.owners.keep found rfl taken rfl rfl still
  own := by
    have known := holds.block found
    have same : Block.computed job.nMels { block with stage := stage } =
        block.computed job.nMels := by
      rw [Block.computed, done]
      rfl
    exact ⟨known.begun, known.ordered, stageHolds, by rw [same]; exact known.written,
      by rw [same]; exact known.greatest⟩
  work := work

theorem Consistent.buffers_le (holds : Consistent extractor job ranges threads state)
    (admissible : Admissible size threads ranges) : state.blocks.length ≤ threads := by
  rw [← List.length_map, holds.ranges]
  exact admissible.few

/-- `workspace_index` is below the sizes of `thread_workspaces` and `thread_maxima`. -/
theorem Consistent.workspaceIndex_lt (holds : Consistent extractor job ranges threads state)
    (admissible : Admissible size threads ranges) (found : state.blocks[index]? = some block)
    (taken : block.stage ≠ .waiting) : block.workspaceIndex < state.threadWorkspaces.length ∧
      block.workspaceIndex < state.threadMaxima.length := by
  have below := holds.owners.taken found taken
  have most := holds.owners.le
  have room := holds.buffers_le admissible
  rw [holds.buffers, holds.maxima]
  omega

/-- The buffers that a thread works with. -/
theorem Consistent.thread (holds : Consistent extractor job ranges threads state)
    (admissible : Admissible size threads ranges) (found : state.blocks[index]? = some block)
    (taken : block.stage ≠ .waiting) : ∃ thread,
      state.threadWorkspaces[block.workspaceIndex]? = some thread ∧ thread.Sized := by
  have inside := (holds.workspaceIndex_lt admissible found taken).1
  exact ⟨_, List.getElem?_eq_getElem inside, holds.sized _ (List.getElem_mem inside)⟩

private theorem frames_work {frame stop : Nat} (more : frame < stop) (nMels : Nat) :
    (stop - frame) * (nMels + 4) = (stop - frame - 1) * (nMels + 4) + nMels + 4 := by
  obtain ⟨rest, rfl⟩ := Nat.exists_eq_add_of_lt more
  have frames : frame + rest + 1 - frame = rest + 1 := by omega
  rw [frames, Nat.succ_mul]
  rfl

theorem Consistent.step_window (holds : Consistent extractor job ranges threads state)
    (admissible : Admissible size threads ranges) (sizes : job.Sized)
    (found : state.blocks[index]? = some block) (isStage : block.stage = .window)
    (more : block.frame < block.stop) : ∃ later after,
      blockStep extractor job state index = some later ∧
        Moves extractor job state later index block after := by
  have taken := Block.taken_of isStage Stage.noConfusion
  obtain ⟨thread, buffers, sized⟩ := holds.thread admissible found taken
  have window := makeWindowedFrame_eq extractor.neon job.audio
    ((block.frame * kHopLength : Nat) - (kFftHalfSize : Int)) sizes.hann.ge sized.fftInput.ge
  rw [filled_all sized.fftInput.le] at window
  refine ⟨_, _, ?_, holds.moves_buffered found taken
    { thread with fftInput := (List.range kFftSize).map (frameSample job block.frame) } .transform
    Stage.noConfusion ?_ ?_ ?_ ?_⟩
  · simp only [blockStep, found, isStage, Option.bind_eq_bind, Option.bind_some, if_pos more,
      buffers, window]
    rfl
  · exact ⟨sized.power, by rw [List.length_map, List.length_range], sized.fftOutput,
      sized.fftScratch⟩
  · rw [Block.melsDone, Block.melsDone, isStage]
  · have frames := frames_work more job.nMels
    simp only [Block.work, isStage]
    omega
  · exact ⟨more, _, List.getElem?_set_self (List.getElem?_eq_some_iff.mp buffers).1, rfl⟩

theorem Consistent.step_transform (holds : Consistent extractor job ranges threads state)
    (found : state.blocks[index]? = some block) (isStage : block.stage = .transform) :
    ∃ later after, blockStep extractor job state index = some later ∧
      Moves extractor job state later index block after := by
  have taken := Block.taken_of isStage Stage.noConfusion
  have stage := (holds.block found).stage
  simp only [StageHolds, isStage] at stage
  obtain ⟨more, thread, buffers, input⟩ := stage
  obtain ⟨transformed, ran, sized, output⟩ := thread.transform_eq extractor
    (holds.sized thread (List.mem_of_getElem? buffers))
  refine ⟨_, _, ?_, holds.moves_buffered found taken transformed .power Stage.noConfusion sized
    ?_ ?_ ?_⟩
  · simp only [blockStep, found, isStage, Option.bind_eq_bind, Option.bind_some, buffers, ran]
    rfl
  · rw [Block.melsDone, Block.melsDone, isStage]
  · simp only [Block.work, isStage]
  · refine ⟨more, _, List.getElem?_set_self (List.getElem?_eq_some_iff.mp buffers).1, ?_⟩
    rw [output]
    apply List.map_congr_left
    intro bin _
    apply Finset.sum_congr rfl
    intro position inside
    rw [input, getD_tabulated _ _ (Finset.mem_range.mp inside)]

theorem Consistent.step_power (holds : Consistent extractor job ranges threads state)
    (found : state.blocks[index]? = some block) (isStage : block.stage = .power) :
    ∃ later after, blockStep extractor job state index = some later ∧
      Moves extractor job state later index block after := by
  have taken := Block.taken_of isStage Stage.noConfusion
  have stage := (holds.block found).stage
  simp only [StageHolds, isStage] at stage
  obtain ⟨more, thread, buffers, output⟩ := stage
  have sized := holds.sized thread (List.mem_of_getElem? buffers)
  have bins : kFftBins ≤ thread.fftOutput.length := by
    rw [sized.fftOutput]
    decide
  have power := calculatePower_eq extractor.neon bins sized.power.ge
  have ofFrame : filled (fun bin => norm (thread.fftOutput.getD bin 0)) thread.power kFftBins =
      framePower extractor job block.frame := by
    rw [filled_all sized.power.le, output]
    apply List.map_congr_left
    intro bin inside
    have below : bin < kFftSize := Nat.lt_trans (List.mem_range.mp inside) (by decide)
    rw [getD_tabulated _ _ below]
  rw [ofFrame] at power
  refine ⟨_, _, ?_, holds.moves_buffered found taken
    { thread with power := framePower extractor job block.frame } (.mel 0) Stage.noConfusion
    ?_ ?_ ?_ ?_⟩
  · simp only [blockStep, found, isStage, Option.bind_eq_bind, Option.bind_some, buffers, power]
    rfl
  · exact ⟨by simp only [framePower, List.length_map, List.length_range], sized.fftInput,
      sized.fftOutput, sized.fftScratch⟩
  · rw [Block.melsDone, Block.melsDone, isStage]
  · simp only [Block.work, isStage]
    omega
  · exact ⟨more, Nat.zero_le _, _,
      List.getElem?_set_self (List.getElem?_eq_some_iff.mp buffers).1, rfl⟩

theorem Consistent.step_waiting (holds : Consistent extractor job ranges threads state)
    (admissible : Admissible size threads ranges) (found : state.blocks[index]? = some block)
    (isStage : block.stage = .waiting) : ∃ later after,
      blockStep extractor job state index = some later ∧
        Moves extractor job state later index block after := by
  have room : state.nextWorkspace < state.threadWorkspaces.length := by
    rw [holds.buffers]
    exact Nat.lt_of_lt_of_le (holds.owners.lt found isStage) (holds.buffers_le admissible)
  let after : Block Value :=
    { block with
      stage := .window, workspaceIndex := state.nextWorkspace, localMaximum := kInitialLogMel }
  let later : Threads Value :=
    { state.proceed index after with nextWorkspace := state.nextWorkspace + 1 }
  have known := holds.block found
  have begins : block.frame = block.first := by
    have stage := known.stage
    simpa only [StageHolds, isStage] using stage
  have none (cell : Nat × Nat) : cell ∉ after.computed job.nMels := by
    rintro ⟨-, begun, earlier | ⟨-, done⟩⟩
    · exact absurd (Nat.lt_of_lt_of_le earlier begins.le) (Nat.not_lt.mpr begun)
    · exact absurd done (Nat.not_lt_zero _)
  refine ⟨later, after, ?_, ?_⟩
  · simp only [blockStep, found, isStage, Option.bind_eq_bind, Option.bind_some, if_pos room]
    rfl
  · exact {
      blocks := rfl
      range := rfl
      taken := Stage.noConfusion
      buffers := rfl
      maxima := rfl
      outputSize := rfl
      sized := fun _ member => .inl member
      elsewhere := fun _ _ => ⟨rfl, rfl⟩
      grows := by
        rintro cell ⟨-, begun, earlier | ⟨-, done⟩⟩
        · exact absurd (Nat.lt_of_lt_of_le earlier begins.le) (Nat.not_lt.mpr begun)
        · rw [Block.melsDone, isStage] at done
          exact absurd done (Nat.not_lt_zero _)
      unwritten := fun _ _ _ _ => rfl
      owners := holds.owners.take found rfl isStage rfl rfl Stage.noConfusion
      own := by
        refine ⟨known.begun, known.ordered, known.frame_le, fun cell computed =>
          absurd computed (none cell), ?_⟩
        have empty : after.computed job.nMels = ∅ := Set.eq_empty_of_forall_notMem none
        rw [empty, Set.image_empty, insert_empty_eq]
        exact isGreatest_singleton
      work := by simp only [Block.work, after, isStage] }

theorem Consistent.step_stop (holds : Consistent extractor job ranges threads state)
    (admissible : Admissible size threads ranges) (found : state.blocks[index]? = some block)
    (isStage : block.stage = .window) (most : block.stop ≤ block.frame) : ∃ later after,
      blockStep extractor job state index = some later ∧
        Moves extractor job state later index block after := by
  have taken := Block.taken_of isStage Stage.noConfusion
  have inside := (holds.workspaceIndex_lt admissible found taken).2
  let after : Block Value := { block with stage := .finished }
  let later : Threads Value :=
    { state.proceed index after with
      threadMaxima := state.threadMaxima.set block.workspaceIndex block.localMaximum }
  have known := holds.block found
  have same : after.computed job.nMels = block.computed job.nMels := by
    rw [Block.computed, Block.computed, Block.melsDone, Block.melsDone, isStage]
  refine ⟨later, after, ?_, ?_⟩
  · simp only [blockStep, found, isStage, Option.bind_eq_bind, Option.bind_some,
      if_neg (Nat.not_lt.mpr most), writeAt, if_pos inside]
    rfl
  · exact {
      blocks := rfl
      range := rfl
      taken := Stage.noConfusion
      buffers := rfl
      maxima := List.length_set
      outputSize := rfl
      sized := fun _ member => .inl member
      elsewhere := fun _ different => ⟨rfl, List.getElem?_set_ne different.symm⟩
      grows := same.symm.subset
      unwritten := fun _ _ _ _ => rfl
      owners := holds.owners.keep found rfl taken rfl rfl Stage.noConfusion
      own :=
        ⟨known.begun, known.ordered,
          ⟨Nat.le_antisymm known.frame_le most, List.getElem?_set_self inside⟩,
          by rw [same]; exact known.written, by rw [same]; exact known.greatest⟩
      work := by
        have frames : block.stop - block.frame = 0 := Nat.sub_eq_zero_of_le most
        simp only [Block.work, after, isStage, frames, Nat.zero_mul] }

omit [LinearOrder Value] in
theorem Job.Sized.energy_eq (sizes : job.Sized) (neon : Bool) {mel : Nat}
    (below : mel < job.nMels) {power : List Value} (powerRoom : kFftBins ≤ power.length) :
    dotProduct neon (job.filters.drop (mel * kFftBins)) power kFftBins =
      some (scalarProduct (job.filters.drop (mel * kFftBins)) power kFftBins) := by
  have filters := Nat.mul_le_mul_right kFftBins below
  rw [Nat.succ_mul] at filters
  apply dotProduct_eq neon _ powerRoom
  rw [List.length_drop, sizes.filters]
  omega

theorem Consistent.step_mel (holds : Consistent extractor job ranges threads state)
    (admissible : Admissible size threads ranges) (most : size ≤ kFrames) (sizes : job.Sized)
    (found : state.blocks[index]? = some block) {mel : Nat} (isStage : block.stage = .mel mel)
    (below : mel < job.nMels) : ∃ later after,
      blockStep extractor job state index = some later ∧
        Moves extractor job state later index block after := by
  have taken := Block.taken_of isStage Stage.noConfusion
  have known := holds.block found
  have stage := known.stage
  simp only [StageHolds, isStage] at stage
  obtain ⟨more, -, thread, buffers, power⟩ := stage
  have last : block.stop ≤ kFrames :=
    (admissible.ordered _ (List.mem_of_getElem? (holds.range_of found))).2.trans most
  have framesBelow : block.frame < kFrames := Nat.lt_of_lt_of_le more last
  have energy := sizes.energy_eq extractor.neon below
    (holds.sized thread (List.mem_of_getElem? buffers)).power.ge
  rw [power] at energy
  have inside : mel * kFrames + block.frame < state.output.length := by
    rw [holds.outputSize]
    exact cell_inside below framesBelow
  let value := logMel extractor job (mel, block.frame)
  let after : Block Value :=
    { block with stage := .mel (mel + 1), localMaximum := max block.localMaximum value }
  let later : Threads Value :=
    { state.proceed index after with
      output := state.output.set (mel * kFrames + block.frame) value }
  have computed : after.computed job.nMels =
      insert (mel, block.frame) (block.computed job.nMels) :=
    Block.computed_succ isStage below known.begun _
  refine ⟨later, after, ?_, ?_⟩
  · simp only [blockStep, found, isStage, Option.bind_eq_bind, Option.bind_some, if_pos below,
      buffers, power, energy, writeAt, if_pos inside]
    rfl
  · exact {
      blocks := rfl
      range := rfl
      taken := Stage.noConfusion
      buffers := rfl
      maxima := rfl
      outputSize := List.length_set
      sized := fun _ member => .inl member
      elsewhere := fun _ _ => ⟨rfl, rfl⟩
      grows := by
        rw [computed]
        exact Set.subset_insert _ _
      unwritten := by
        intro otherMel otherFrame otherBelow new
        apply List.getElem?_set_ne
        intro same
        rw [← cell_injective framesBelow otherBelow same, computed] at new
        exact new (Set.mem_insert _ _)
      owners := holds.owners.keep found rfl taken rfl rfl Stage.noConfusion
      own := by
        refine ⟨known.begun, known.ordered, ⟨more, below, thread, buffers, power⟩, ?_, ?_⟩
        · intro cell written
          rw [computed] at written
          by_cases now : cell = (mel, block.frame)
          · rw [now]
            exact List.getElem?_set_self inside
          · have before := Set.mem_of_mem_insert_of_ne written now
            have cellFrame := (known.inside before).2
            refine (List.getElem?_set_ne fun same => now ?_).trans (known.written cell before)
            exact (cell_injective framesBelow (by omega) same).symm
        · have larger := known.greatest.insert value
          rw [max_comm] at larger
          rw [computed, Set.image_insert_eq, Set.insert_comm]
          exact larger
      work := by
        simp only [Block.work, after, isStage]
        omega }

theorem Consistent.step_frame (holds : Consistent extractor job ranges threads state)
    (found : state.blocks[index]? = some block) (isStage : block.stage = .mel job.nMels) :
    ∃ later after, blockStep extractor job state index = some later ∧
      Moves extractor job state later index block after := by
  have taken := Block.taken_of isStage Stage.noConfusion
  have known := holds.block found
  have stage := known.stage
  simp only [StageHolds, isStage] at stage
  obtain ⟨more, -, -⟩ := stage
  let after : Block Value := { block with stage := .window, frame := block.frame + 1 }
  have computed : after.computed job.nMels = block.computed job.nMels :=
    Block.computed_next isStage known.begun
  refine ⟨state.proceed index after, after, ?_, ?_⟩
  · simp only [blockStep, found, isStage, Option.bind_eq_bind, Option.bind_some,
      if_neg (Nat.lt_irrefl _)]
    rfl
  · exact {
      blocks := rfl
      range := rfl
      taken := Stage.noConfusion
      buffers := rfl
      maxima := rfl
      outputSize := rfl
      sized := fun _ member => .inl member
      elsewhere := fun _ _ => ⟨rfl, rfl⟩
      grows := computed.symm.subset
      unwritten := fun _ _ _ _ => rfl
      owners := holds.owners.keep found rfl taken rfl rfl Stage.noConfusion
      own :=
        ⟨Nat.le_succ_of_le known.begun, known.ordered, more, by rw [computed]; exact known.written,
          by rw [computed]; exact known.greatest⟩
      work := by
        have frames : block.stop - block.frame - 1 = block.stop - (block.frame + 1) := by omega
        simp only [Block.work, after, isStage, frames, Nat.sub_self] }

/-- A block that has steps left can make the next one. -/
theorem Consistent.step (holds : Consistent extractor job ranges threads state)
    (admissible : Admissible size threads ranges) (most : size ≤ kFrames) (sizes : job.Sized)
    (found : state.blocks[index]? = some block) (left : 0 < block.work job.nMels) :
    ∃ later after, blockStep extractor job state index = some later ∧
      Moves extractor job state later index block after := by
  cases isStage : block.stage with
  | waiting => exact holds.step_waiting admissible found isStage
  | window =>
    by_cases more : block.frame < block.stop
    · exact holds.step_window admissible sizes found isStage more
    · exact holds.step_stop admissible found isStage (Nat.le_of_not_lt more)
  | transform => exact holds.step_transform found isStage
  | power => exact holds.step_power found isStage
  | mel mel =>
    have stage := (holds.block found).stage
    simp only [StageHolds, isStage] at stage
    rcases Nat.lt_or_eq_of_le stage.2.1 with below | rfl
    · exact holds.step_mel admissible most sizes found isStage below
    · exact holds.step_frame found isStage
  | finished =>
    rw [Block.work, isStage] at left
    exact absurd left (Nat.lt_irrefl 0)

theorem blockStep_progress (admissible : Admissible size threads ranges) (most : size ≤ kFrames)
    (sizes : job.Sized) (state : Threads Value) (index : Nat)
    (holds : Consistent extractor job ranges threads state)
    (left : 0 < state.work job.nMels index) :
    ∃ later, blockStep extractor job state index = some later ∧
      Progress (Consistent extractor job ranges threads) (Threads.work job.nMels) state index
        later := by
  obtain ⟨block, found⟩ : ∃ block, state.blocks[index]? = some block := by
    cases found : state.blocks[index]? with
    | some block => exact ⟨block, rfl⟩
    | none =>
      rw [Threads.work, found] at left
      exact absurd left (Nat.lt_irrefl 0)
  rw [Threads.work, found] at left
  obtain ⟨later, after, ran, moves⟩ := holds.step admissible most sizes found left
  have within := (List.getElem?_eq_some_iff.mp found).1
  refine ⟨later, ran, holds.moved admissible most found moves, ?_, ?_⟩
  · rw [Threads.work, Threads.work, moves.blocks, List.getElem?_set_self within, found]
    exact moves.work
  · intro other different
    rw [Threads.work, Threads.work, moves.blocks, List.getElem?_set_ne different.symm]

theorem blockStep_idle (state : Threads Value) (index : Nat)
    (idle : state.work job.nMels index = 0) : blockStep extractor job state index = none := by
  cases found : state.blocks[index]? with
  | none => simp only [blockStep, found, Option.bind_eq_bind, Option.bind_none]
  | some block =>
    rw [Threads.work, found] at idle
    have finished := Block.work_eq_zero idle
    simp only [blockStep, found, Option.bind_eq_bind, Option.bind_some, finished]

end Steps

end LocalWhisper.CTranslate2
