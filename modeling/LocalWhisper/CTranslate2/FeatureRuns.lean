import LocalWhisper.CTranslate2.FeatureTables
import LocalWhisper.CTranslate2.FeatureThreads

/-! Whatever a workspace was used for before, and however the frames are divided among
threads, a call gives the features of its samples. -/

namespace LocalWhisper.CTranslate2

open Machine

variable {Value : Type} [Field Value]

/-- What every call leaves: tables that are there are the right ones. -/
structure Valid (extractor : Extractor Value) (workspace : Workspace Value) : Prop where
  threads : 0 < workspace.numThreads
  hann : workspace.hann.length = kFftSize → workspace.hann = extractor.hann
  filters : workspace.customFilterMels ≠ 0 →
    workspace.customFilters = extractor.makeMelFilters workspace.customFilterMels

/-- What a call for `nMels` finds after its preparation. -/
structure Prepared (extractor : Extractor Value) (nMels : Nat) (workspace : Workspace Value) :
    Prop where
  audio : workspace.audio.length = kChunkSamples
  hann : workspace.hann = extractor.hann
  filters : nMels ≠ 80 → nMels ≠ 128 → workspace.customFilters = extractor.makeMelFilters nMels
  buffers : workspace.threadWorkspaces.length = workspace.numThreads
  maxima : workspace.threadMaxima.length = workspace.numThreads
  sized : ∀ thread ∈ workspace.threadWorkspaces, thread.Sized

theorem valid_fresh (extractor : Extractor Value) : Valid extractor {} :=
  ⟨Nat.one_pos, fun full : 0 = kFftSize => absurd full (by decide), fun other => absurd rfl other⟩

section Preparation

variable {extractor : Extractor Value} {workspace : Workspace Value} {nMels : Nat}

theorem Valid.prepare (valid : Valid extractor workspace) (positive : nMels ≠ 0)
    (numThreads : Nat) : ∃ prepared,
      prepareWhisperFeatureWorkspace extractor nMels workspace numThreads = .ok prepared ∧
        Valid extractor prepared ∧ Prepared extractor nMels prepared ∧
        prepared.numThreads = if numThreads > 0 then numThreads else workspace.numThreads := by
  have hann : (if workspace.hann.length ≠ kFftSize then extractor.hann else workspace.hann) =
      extractor.hann := by
    split
    · rfl
    · next full => exact valid.hann (not_not.mp full)
  refine ⟨_, if_neg positive, ⟨?_, fun _ => hann, ?_⟩, ⟨length_resize _ _ _, hann, ?_, ?_,
    length_resize _ _ _, ?_⟩, rfl⟩
  · dsimp only
    split
    · assumption
    · exact valid.threads
  · dsimp only
    split
    · exact fun _ => rfl
    · exact valid.filters
  · intro notEighty notOther
    dsimp only
    split
    · rfl
    · next kept =>
      have same : workspace.customFilterMels = nMels := by
        by_contra different
        exact kept ⟨notEighty, notOther, different⟩
      rw [valid.filters (same ▸ positive), same]
  · rw [List.length_map, length_resize]
  · intro thread member
    obtain ⟨before, -, rfl⟩ := List.mem_map.mp member
    exact before.sized_prepared

/-- What the threads read in a call for these samples, whichever workspace it is made
with. -/
def featureJob (extractor : Extractor Value) (samples : List Value) (nMels : Nat) :
    Job Value where
  audio := samples.take kChunkSamples ++
    (List.replicate kChunkSamples 0).drop (min samples.length kChunkSamples)
  hann := extractor.hann
  filters := extractor.makeMelFilters nMels
  nMels := nMels

theorem Prepared.jobOf_eq (prepared : Prepared extractor nMels workspace) (samples : List Value) :
    jobOf extractor samples nMels workspace = featureJob extractor samples nMels := by
  have filters : (if nMels = 80 then extractor.makeMelFilters 80
      else if nMels = 128 then extractor.makeMelFilters 128
      else workspace.customFilters) = extractor.makeMelFilters nMels := by
    split
    · next eighty => rw [eighty]
    · next notEighty =>
      split
      · next other => rw [other]
      · next notOther => exact prepared.filters notEighty notOther
  rw [jobOf, prepared.audio, prepared.hann, filters]
  rfl

theorem sized_featureJob (samples : List Value) :
    (featureJob extractor samples nMels).Sized :=
  ⟨extractor.hannSize, extractor.filtersSize nMels⟩

end Preparation

theorem computed_ofRange (nMels : Nat) (range : Nat × Nat) :
    (Block.ofRange range : Block Value).computed nMels = ∅ := by
  apply Set.eq_empty_of_forall_notMem
  rintro cell ⟨-, begun, earlier | ⟨-, done⟩⟩
  · exact Nat.not_lt.mpr begun earlier
  · exact Nat.not_lt_zero _ done

def Finished (state : Threads Value) : Prop :=
  ∀ block ∈ state.blocks, block.stage = .finished

theorem finished_of_work {state : Threads Value} {nMels : Nat}
    (idle : ∀ index, state.work nMels index = 0) : Finished state := by
  intro block member
  obtain ⟨index, found⟩ := List.mem_iff_getElem?.mp member
  have none := idle index
  rw [Threads.work, found] at none
  exact Block.work_eq_zero none

theorem work_threadsOf (workspace : Workspace Value) (nMels : Nat) (output : List Value)
    (ranges : List (Nat × Nat)) :
    Threads.work nMels (threadsOf nMels output workspace ranges) = stepsOf nMels ranges := by
  funext index
  rw [Threads.work, threadsOf, List.getElem?_map, Option.map_map]
  rfl

variable [LinearOrder Value]

section Threads

variable {extractor : Extractor Value} {workspace : Workspace Value} {job : Job Value}
variable {size threads : Nat} {ranges : List (Nat × Nat)} {state : Threads Value}

/-- Before the first step nothing is computed and no buffers are handed out. -/
theorem Prepared.consistent (job : Job Value) (prepared : Prepared extractor job.nMels workspace)
    (admissible : Admissible size workspace.numThreads ranges) (output : List Value) :
    Consistent extractor job ranges workspace.numThreads
      (threadsOf job.nMels output workspace ranges) := by
  have waiting {index : Nat} {block : Block Value}
      (found : (threadsOf job.nMels output workspace ranges).blocks[index]? = some block) :
      ∃ range ∈ ranges, block = .ofRange range := by
    obtain ⟨range, member, same⟩ := List.mem_map.mp (List.mem_of_getElem? found)
    exact ⟨range, member, same.symm⟩
  have free {index : Nat} {block : Block Value}
      (found : (threadsOf job.nMels output workspace ranges).blocks[index]? = some block)
      (taken : block.stage ≠ .waiting) : False := by
    obtain ⟨range, -, rfl⟩ := waiting found
    exact taken rfl
  have outputSize : (threadsOf job.nMels output workspace ranges).output.length =
      job.nMels * kFrames := by
    rw [threadsOf, List.length_replicate, length_resize]
  constructor
  case ranges =>
    rw [threadsOf, List.map_map]
    exact List.map_id ranges
  case buffers => exact prepared.buffers
  case maxima => rw [threadsOf, List.length_replicate, prepared.maxima]
  case outputSize => exact outputSize
  case sized => exact prepared.sized
  case owners =>
    exact ⟨fun found taken => (free found taken).elim,
      fun found _ taken => (free found taken).elim, fun _ below => absurd below (Nat.not_lt_zero _)⟩
  case block =>
    intro index block found
    obtain ⟨range, member, rfl⟩ := waiting found
    refine ⟨le_rfl, (admissible.ordered range member).1, rfl, ?_, ?_⟩
    · intro cell computed
      rw [computed_ofRange] at computed
      exact computed.elim
    · rw [computed_ofRange, Set.image_empty, insert_empty_eq]
      exact isGreatest_singleton
  case untouched =>
    intro mel below frame inside _
    have cell := cell_inside below inside
    rw [← outputSize] at cell
    rw [List.getElem?_eq_getElem cell]
    simp only [threadsOf, List.getElem_replicate]

theorem Consistent.computed_finished (holds : Consistent extractor job ranges threads state)
    (finished : Finished state) {index : Nat} {block : Block Value}
    (found : state.blocks[index]? = some block) : block.computed job.nMels =
      {cell | cell.1 < job.nMels ∧ block.first ≤ cell.2 ∧ cell.2 < block.stop} := by
  have isStage := finished block (List.mem_of_getElem? found)
  have stage := (holds.block found).stage
  simp only [StageHolds, isStage] at stage
  ext cell
  simp only [Block.computed, Block.melsDone, isStage, Set.mem_ofPred_eq, stage.1]
  omega

theorem Consistent.block_of (holds : Consistent extractor job ranges threads state)
    (admissible : Admissible size threads ranges) {frame : Nat} (below : frame < size) :
    ∃ (index : Nat) (block : Block Value), state.blocks[index]? = some block ∧
      block.first ≤ frame ∧ frame < block.stop := by
  obtain ⟨range, member, inside⟩ := admissible.covers frame below
  rw [← holds.ranges] at member
  obtain ⟨block, present, rfl⟩ := List.mem_map.mp member
  obtain ⟨index, found⟩ := List.mem_iff_getElem?.mp present
  exact ⟨index, block, found, inside⟩

theorem Consistent.output_eq (holds : Consistent extractor job ranges threads state)
    (admissible : Admissible size threads ranges) (finished : Finished state) :
    state.output = (List.range (job.nMels * kFrames)).map fun index =>
      if index % kFrames < size then logMel extractor job (index / kFrames, index % kFrames)
      else kInitialLogMel := by
  apply List.ext_getElem?
  intro index
  by_cases inside : index < job.nMels * kFrames
  · rw [getElem?_tabulated _ inside]
    have mels : index / kFrames < job.nMels := Nat.div_lt_of_lt_mul (by rwa [Nat.mul_comm])
    have frames : index % kFrames < kFrames := Nat.mod_lt _ (by decide)
    have place : index / kFrames * kFrames + index % kFrames = index := Nat.div_add_mod' _ _
    split
    · next active =>
      obtain ⟨position, block, found, range⟩ := holds.block_of admissible active
      have written := (holds.block found).written (index / kFrames, index % kFrames)
        (by rw [holds.computed_finished finished found]; exact ⟨mels, range⟩)
      rwa [place] at written
    · next silent =>
      have initial := holds.untouched _ mels _ frames fun block member computed => by
        obtain ⟨position, found⟩ := List.mem_iff_getElem?.mp member
        have last := (admissible.ordered _ (List.mem_of_getElem? (holds.range_of found))).2
        have cell := (holds.block found).inside computed
        omega
      rwa [place] at initial
  · rw [List.getElem?_eq_none (by rw [holds.outputSize]; omega), List.getElem?_eq_none
      (by rw [List.length_map, List.length_range]; omega)]

end Threads

section Maximum

omit [Field Value] in
theorem foldl_max_greatest (rest : List Value) (first : Value) :
    IsGreatest {value | value ∈ first :: rest} (rest.foldl max first) := by
  induction rest generalizing first with
  | nil =>
    exact ⟨List.mem_singleton_self first, fun value member => (List.mem_singleton.mp member).le⟩
  | cons second rest inductionHypothesis =>
    obtain ⟨member, most⟩ := inductionHypothesis (max first second)
    constructor
    · rcases List.mem_cons.mp member with isFirst | later
      · change rest.foldl max (max first second) ∈ _
        rw [isFirst]
        rcases max_choice first second with same | same
        · rw [same]
          exact List.mem_cons_self
        · rw [same]
          exact List.mem_cons_of_mem _ List.mem_cons_self
      · exact List.mem_cons_of_mem _ (List.mem_cons_of_mem _ later)
    · intro value present
      have larger : max first second ≤ rest.foldl max (max first second) :=
        most List.mem_cons_self
      rcases List.mem_cons.mp present with rfl | later
      · exact (le_max_left _ _).trans larger
      · rcases List.mem_cons.mp later with rfl | behind
        · exact (le_max_right _ _).trans larger
        · exact most (List.mem_cons_of_mem _ behind)

omit [Field Value] in
private theorem maxElement_greatest {values : List Value} {count : Nat} (positive : 0 < count)
    (inside : count ≤ values.length) : ∃ maximum, maxElement values count = some maximum ∧
      IsGreatest {value | value ∈ values.take count} maximum := by
  cases taken : values.take count with
  | nil =>
    have size := congrArg List.length taken
    rw [List.length_take, List.length_nil] at size
    omega
  | cons first rest =>
    refine ⟨rest.foldl max first, ?_, foldl_max_greatest rest first⟩
    rw [maxElement, if_pos inside, taken]

variable {extractor : Extractor Value} {job : Job Value} {size threads : Nat}
variable {ranges : List (Nat × Nat)} {state : Threads Value}

/-- What the threads have left in `thread_maxima`. -/
theorem Consistent.stored (holds : Consistent extractor job ranges threads state)
    (finished : Finished state) {index : Nat} {block : Block Value}
    (found : state.blocks[index]? = some block) :
    block.workspaceIndex < state.nextWorkspace ∧
      state.threadMaxima[block.workspaceIndex]? = some block.localMaximum := by
  have isStage := finished block (List.mem_of_getElem? found)
  have stage := (holds.block found).stage
  simp only [StageHolds, isStage] at stage
  exact ⟨holds.owners.taken found (by rw [isStage]; exact Stage.noConfusion), stage.2⟩

/-- The largest of the maxima of the threads is the largest level. -/
theorem Consistent.maximum (holds : Consistent extractor job ranges threads state)
    (admissible : Admissible size threads ranges) (positive : 0 < size)
    (finished : Finished state) : ∃ maximum,
      maxElement state.threadMaxima state.nextWorkspace = some maximum ∧
        IsGreatest (levels extractor job size) maximum := by
  obtain ⟨_, someBlock, someFound, -⟩ := holds.block_of admissible positive
  have room : state.nextWorkspace ≤ state.threadMaxima.length := by
    rw [holds.maxima]
    exact holds.owners.le.trans (holds.buffers_le admissible)
  have count := Nat.zero_lt_of_lt (holds.stored finished someFound).1
  obtain ⟨maximum, taken, member, most⟩ := maxElement_greatest count room
  have upper {index : Nat} {block : Block Value} (found : state.blocks[index]? = some block) :
      block.localMaximum ≤ maximum := by
    obtain ⟨below, kept⟩ := holds.stored finished found
    exact most (List.mem_of_getElem? ((List.getElem?_take_of_lt below).trans kept))
  refine ⟨maximum, taken, ?_, ?_⟩
  · obtain ⟨position, present⟩ := List.mem_iff_getElem?.mp member
    have inTake := (List.getElem?_eq_some_iff.mp present).1
    rw [List.length_take] at inTake
    have below : position < state.nextWorkspace := by omega
    rw [List.getElem?_take_of_lt below] at present
    obtain ⟨index, block, found, -, rfl⟩ := holds.owners.owned position below
    rw [(holds.stored finished found).2] at present
    obtain rfl := Option.some.inj present
    have own := (holds.block found).greatest.1
    rw [holds.computed_finished finished found] at own
    apply Set.insert_subset_insert (Set.image_mono ?_) own
    rintro cell ⟨below, -, last⟩
    have most := (admissible.ordered _ (List.mem_of_getElem? (holds.range_of found))).2
    exact ⟨below, Nat.lt_of_lt_of_le last most⟩
  · rintro level (rfl | ⟨cell, ⟨below, active⟩, rfl⟩)
    · exact ((holds.block someFound).greatest.2 (Set.mem_insert _ _)).trans (upper someFound)
    · obtain ⟨index, block, found, inside⟩ := holds.block_of admissible active
      have computed : cell ∈ block.computed job.nMels := by
        rw [holds.computed_finished finished found]
        exact ⟨below, inside⟩
      exact ((holds.block found).greatest.2 (Set.mem_insert_of_mem _ ⟨cell, computed, rfl⟩)).trans
        (upper found)

end Maximum

section Calls

variable {extractor : Extractor Value} {workspace : Workspace Value}

/-- The blocks may be computed one after the other. -/
theorem orderOf_inTurn (nMels : Nat) (ranges : List (Nat × Nat)) :
    OrderOf nMels ranges (inTurn (stepsOf nMels ranges) ranges.length) := by
  apply complete_inTurn
  intro index behind
  rw [stepsOf, List.getElem?_eq_none behind]
  rfl

/-- The threads of a call, made with a prepared workspace, in any order. -/
theorem Prepared.run {nMels : Nat} (prepared : Prepared extractor nMels workspace)
    (samples output : List Value) {size : Nat} {ranges : List (Nat × Nat)} {schedule : List Nat}
    (positive : 0 < size) (most : size ≤ kFrames)
    (admissible : Admissible size workspace.numThreads ranges)
    (order : OrderOf nMels ranges schedule) : ∃ ended maximum,
      execute (blockStep extractor (featureJob extractor samples nMels))
        (threadsOf nMels output workspace ranges) schedule = some ended ∧
      Finished ended ∧ maxElement ended.threadMaxima ended.nextWorkspace = some maximum ∧
      IsGreatest (levels extractor (featureJob extractor samples nMels) size) maximum ∧
      ended.output.map (normalized (floorOf maximum)) =
        features extractor (featureJob extractor samples nMels) size maximum := by
  have start := prepared.consistent (featureJob extractor samples nMels) admissible output
  have complete : Complete (Threads.work nMels (threadsOf nMels output workspace ranges))
      schedule := by
    rw [work_threadsOf]
    exact order
  obtain ⟨ended, executed, holds, idle⟩ := execute_complete
    (blockStep_progress admissible most (sized_featureJob samples)) start complete
  have finished := finished_of_work idle
  obtain ⟨maximum, largest, greatest⟩ := holds.maximum admissible positive finished
  refine ⟨ended, maximum, executed, finished, largest, greatest, ?_⟩
  rw [holds.output_eq admissible finished, List.map_map]
  rfl

/-- A call gives the features of its samples, and leaves a workspace that is as good
as before. -/
theorem makeFeatures_eq (frames : Nat → Nat) (samples : List Value) {nMels size : Nat}
    (valid : Valid extractor workspace) (positive : nMels ≠ 0)
    (active : frames (min samples.length kChunkSamples) = size) (someFrames : 0 < size)
    (most : size ≤ kFrames) (output : List Value) {parallelFor : ParallelFor}
    {schedule : List Nat}
    (order : OrderOf nMels (parallelFor.ranges size workspace.numThreads) schedule) :
    ∃ maximum after,
      IsGreatest (levels extractor (featureJob extractor samples nMels) size) maximum ∧
      makeFeatures frames extractor samples nMels output workspace parallelFor schedule =
        some (.ok (features extractor (featureJob extractor samples nMels) size maximum, after)) ∧
      Valid extractor after := by
  obtain ⟨prepared, ran, stays, ready, threads⟩ := valid.prepare positive 0
  have same : prepared.numThreads = workspace.numThreads := threads
  rw [← same] at order
  have admissible := parallelFor.admissible size prepared.numThreads someFrames stays.threads
  obtain ⟨ended, maximum, executed, finished, largest, greatest, output⟩ :=
    ready.run samples output someFrames most admissible order
  have waited : (ended.blocks.all fun block => block.stage = .finished) = true :=
    List.all_eq_true.mpr fun block member => decide_eq_true (finished block member)
  refine ⟨maximum, { prepared with
    audio := (featureJob extractor samples nMels).audio
    threadWorkspaces := ended.threadWorkspaces
    threadMaxima := ended.threadMaxima }, greatest, ?_, ⟨stays.threads, stays.hann, stays.filters⟩⟩
  unfold makeFeatures
  rw [ran]
  simp only [ready.jobOf_eq, ready.audio, active, executed, Option.bind_eq_bind, Option.bind_some,
    waited, if_pos, largest, normalizeFeatures_eq, output]
  rfl

theorem activeFrames_pos (copiedSamples : Nat) :
    0 < activeFrames copiedSamples ∧ activeFrames copiedSamples ≤ kFrames := by
  have hops : 0 < (copiedSamples + kFftHalfSize + kHopLength - 1) / kHopLength := by
    apply Nat.div_pos _ (by decide)
    unfold kFftHalfSize kHopLength
    omega
  exact ⟨Nat.lt_min.mpr ⟨by decide, hops⟩, Nat.min_le_left _ _⟩

/-- A call, whatever becomes of it, leaves the tables right. -/
theorem Valid.make (valid : Valid extractor workspace) {frames : Nat → Nat} {samples : List Value}
    {nMels : Nat} {output features : List Value} {parallelFor : ParallelFor} {schedule : List Nat}
    {after : Workspace Value}
    (made : makeFeatures frames extractor samples nMels output workspace parallelFor schedule =
      some (.ok (features, after))) : Valid extractor after := by
  by_cases zero : nMels = 0
  · rw [makeFeatures, prepareWhisperFeatureWorkspace, if_pos zero] at made
    cases made
  · obtain ⟨prepared, ran, stays, -⟩ := valid.prepare zero 0
    rw [makeFeatures, ran] at made
    obtain ⟨ended, -, made⟩ := Option.bind_eq_some_iff.mp made
    split at made
    · obtain ⟨maximum, -, made⟩ := Option.bind_eq_some_iff.mp made
      obtain ⟨normal, -, made⟩ := Option.bind_eq_some_iff.mp made
      cases made
      exact ⟨stays.threads, stays.hann, stays.filters⟩
    · cases made

/-- The tables are right after any calls. -/
theorem valid_of_reachable (run : Reachable (callStep extractor) {} workspace) :
    Valid extractor workspace := by
  apply run.invariant (valid_fresh extractor)
  intro before after call valid _ taken
  cases call with
  | prepare nMels numThreads =>
    by_cases zero : nMels = 0
    · rw [callStep, prepareWhisperFeatureWorkspace, if_pos zero] at taken
      cases taken
      exact valid
    · obtain ⟨prepared, ran, stays, -⟩ := valid.prepare zero numThreads
      rw [callStep, ran] at taken
      cases taken
      exact stays
  | make samples nMels output parallelFor schedule =>
    obtain ⟨result, made, rfl⟩ := Option.map_eq_some_iff.mp taken
    cases result with
    | ok used => exact valid.make made
    | error text => exact valid

/-- For any two histories and any two ways to divide and order the frames, a call
gives the same output, or throws the same; a thread never leaves the buffers. -/
theorem makeWhisperFeatures_independent {first second : Workspace Value}
    (firstHistory : Reachable (callStep extractor) {} first)
    (secondHistory : Reachable (callStep extractor) {} second) (samples : List Value)
    (nMels : Nat) (firstOutput secondOutput : List Value) (firstFor secondFor : ParallelFor)
    (firstSchedule secondSchedule : List Nat)
    (firstOrder : OrderOf nMels (firstFor.ranges
      (activeFrames (min samples.length kChunkSamples)) first.numThreads) firstSchedule)
    (secondOrder : OrderOf nMels (secondFor.ranges
      (activeFrames (min samples.length kChunkSamples)) second.numThreads) secondSchedule) :
    (∃ result : Except String (List Value), (nMels ≠ 0 → ∃ features, result = .ok features) ∧
      (makeWhisperFeatures extractor samples nMels firstOutput first firstFor firstSchedule).map
        (Except.map Prod.fst) = some result ∧
      (makeWhisperFeatures extractor samples nMels secondOutput second secondFor
        secondSchedule).map (Except.map Prod.fst) = some result) ∧
    ∀ prepared, prepareWhisperFeatureWorkspace extractor nMels first 0 = .ok prepared →
      ∀ state, Reachable (blockStep extractor (jobOf extractor samples nMels prepared))
        (threadsOf nMels firstOutput prepared (firstFor.ranges
          (activeFrames (min samples.length prepared.audio.length)) prepared.numThreads)) state →
      ∀ block ∈ state.blocks, block.stage ≠ .waiting →
        block.workspaceIndex < state.threadWorkspaces.length ∧
          block.workspaceIndex < state.threadMaxima.length := by
  have firstValid := valid_of_reachable firstHistory
  have secondValid := valid_of_reachable secondHistory
  by_cases zero : nMels = 0
  · have thrown (workspace : Workspace Value) :
        prepareWhisperFeatureWorkspace extractor nMels workspace 0 =
          .error "n_mels must be greater than 0" := if_pos zero
    refine ⟨⟨.error "n_mels must be greater than 0", fun positive => absurd zero positive, ?_, ?_⟩,
      fun prepared ran => ?_⟩
    · rw [makeWhisperFeatures, makeFeatures, thrown]
      rfl
    · rw [makeWhisperFeatures, makeFeatures, thrown]
      rfl
    · rw [thrown] at ran
      cases ran
  · obtain ⟨someFrames, most⟩ := activeFrames_pos (min samples.length kChunkSamples)
    constructor
    · obtain ⟨maximum, firstAfter, greatest, firstMade, -⟩ :=
        makeFeatures_eq _ _ firstValid zero rfl someFrames most firstOutput firstOrder
      obtain ⟨secondMaximum, secondAfter, secondGreatest, secondMade, -⟩ :=
        makeFeatures_eq _ _ secondValid zero rfl someFrames most secondOutput secondOrder
      obtain rfl := greatest.unique secondGreatest
      exact ⟨_, fun _ => ⟨_, rfl⟩, by rw [makeWhisperFeatures, firstMade]; rfl,
        by rw [makeWhisperFeatures, secondMade]; rfl⟩
    · intro prepared ran state run block member taken
      obtain ⟨same, prepares, stays, ready, -⟩ := firstValid.prepare zero 0
      rw [ran] at prepares
      cases prepares
      rw [ready.jobOf_eq, ready.audio] at run
      have admissible := firstFor.admissible _ prepared.numThreads someFrames stays.threads
      have start := ready.consistent (featureJob extractor samples nMels) admissible firstOutput
      have holds := Reaches.of_progress
        (blockStep_progress admissible most (sized_featureJob samples)) blockStep_idle start run
      obtain ⟨index, found⟩ := List.mem_iff_getElem?.mp member
      exact holds.workspaceIndex_lt admissible found taken

/-- A workspace that has served two threads and three filters. -/
theorem reachable_used : ∃ used : Workspace ℝ,
    Reachable (callStep (realExtractor true)) {} used ∧ used.numThreads = 2 ∧
      used.customFilterMels = 3 := by
  obtain ⟨used, ran, -, -, threads⟩ := (valid_fresh (realExtractor true)).prepare
    (show 3 ≠ 0 by decide) 2
  refine ⟨used, .next .start trivial (show callStep _ {} (.prepare 3 2) = some used by
    rw [callStep, ran]), threads, ?_⟩
  cases ran
  rfl

/-- A fresh workspace and a used one; there the second block comes first. -/
theorem makeWhisperFeatures_independent_used : ∃ used : Workspace ℝ,
    used.numThreads = 2 ∧ used.customFilterMels = 3 ∧
    ∃ result : Except String (List ℝ),
      (makeWhisperFeatures (realExtractor true) (List.replicate 3200 1) 1 [] {} .pool
        (inTurn (stepsOf 1 [(0, 22)]) 1)).map (Except.map Prod.fst) = some result ∧
      (makeWhisperFeatures (realExtractor true) (List.replicate 3200 1) 1 [7] used .pool
        (inTurn (stepsOf 1 [(0, 11), (11, 22)]) 2).reverse).map (Except.map Prod.fst) =
          some result := by
  obtain ⟨used, history, two, three⟩ := reachable_used
  have frames : activeFrames (min (List.replicate 3200 (1 : ℝ)).length kChunkSamples) = 22 := by
    rw [List.length_replicate]
    decide
  have whole : ParallelFor.pool.ranges 22 1 = [(0, 22)] := by decide
  have halves : ParallelFor.pool.ranges 22 2 = [(0, 11), (11, 22)] := by decide
  obtain ⟨⟨result, -, same⟩, -⟩ := makeWhisperFeatures_independent .start history
    (List.replicate 3200 1) 1 [] [7] .pool .pool (inTurn (stepsOf 1 [(0, 22)]) 1)
    (inTurn (stepsOf 1 [(0, 11), (11, 22)]) 2).reverse
    (by rw [frames, whole]; exact orderOf_inTurn 1 _)
    (by rw [frames, two, halves]; exact (orderOf_inTurn 1 _).reverse)
  exact ⟨used, two, three, result, same⟩

end Calls

end LocalWhisper.CTranslate2
