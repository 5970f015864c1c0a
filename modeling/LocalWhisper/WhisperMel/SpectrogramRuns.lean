import LocalWhisper.WhisperMel.Levels
import LocalWhisper.CTranslate2.FeatureRuns

/-! However many threads there are and whichever order they make their steps in,
`log_mel_spectrogram` gives the levels of the padded samples. -/

namespace LocalWhisper.WhisperMel

open CTranslate2 (Complex foldl_max_greatest)
open Machine

section Work

variable {Value : Type} (job : MelJob Value)

/-- The levels of its frame that a thread has written. -/
def MelThread.melsDone (thread : MelThread Value) : Nat :=
  match thread.stage with
  | .level mel => mel
  | .silence mel => mel
  | _ => 0

def MelThread.work (thread : MelThread Value) : Nat :=
  match thread.stage with
  | .frame => framesLeft job thread.frame * (job.filters.nMel + 2) + 1
  | .level mel =>
    framesLeft job (thread.frame + job.nThreads) * (job.filters.nMel + 2) +
      (job.filters.nMel - mel) + 2
  | .silence mel =>
    framesLeft job (thread.frame + job.nThreads) * (job.filters.nMel + 2) +
      (job.filters.nMel - mel) + 2
  | .finished => 0

def MelThreads.work (state : MelThreads Value) (ith : Nat) : Nat :=
  (state.threads[ith]?.map (MelThread.work job)).getD 0

variable {job}

theorem framesLeft_next (threads : 0 < job.nThreads) {frame : Nat} (more : frame < job.nLen) :
    framesLeft job frame = framesLeft job (frame + job.nThreads) + 1 := by
  unfold framesLeft
  rw [← Nat.add_div_right _ threads]
  by_cases last : job.nLen ≤ frame + job.nThreads
  · have none : job.nLen - (frame + job.nThreads) = 0 := by omega
    rw [none, Nat.div_eq_of_lt_le (m := job.nLen - frame + job.nThreads - 1) (k := 1),
      Nat.div_eq_of_lt_le (k := 1)] <;> omega
  · congr 1
    omega

theorem framesLeft_none (threads : 0 < job.nThreads) {frame : Nat} (none : job.nLen ≤ frame) :
    framesLeft job frame = 0 := by
  unfold framesLeft
  apply Nat.div_eq_of_lt
  omega

end Work

section Invariant

variable {Value : Type} [Field Value] [LinearOrder Value]

/-- What the arrays of a thread hold, and which frame it has reached. -/
def StageHolds (job : MelJob Value) (root : Complex Value) (thread : MelThread Value) : Prop :=
  match thread.stage with
  | .frame => True
  | .level mel => mel ≤ job.filters.nMel ∧ thread.frame < job.activeFrames ∧
      Powered job root thread.frame thread.memory
  | .silence mel => mel ≤ job.filters.nMel ∧ job.activeFrames ≤ thread.frame ∧
      thread.frame < job.nLen
  | .finished => job.nLen ≤ thread.frame

/-- A thread serves every so many frames, and has written the levels of those behind it. -/
structure ThreadHolds (job : MelJob Value) (root : Complex Value) (data : List Value)
    (ith : Nat) (thread : MelThread Value) : Prop where
  turn : thread.frame % job.nThreads = ith
  stage : StageHolds job root thread
  written : ∀ mel < job.filters.nMel, ∀ frame < job.nLen, frame % job.nThreads = ith →
    frame < thread.frame ∨ frame = thread.frame ∧ mel < thread.melsDone →
    data[mel * job.nLen + frame]? = some (melLevel job root mel frame)

structure Consistent (job : MelJob Value) (root : Complex Value) (state : MelThreads Value) :
    Prop where
  count : state.threads.length = job.nThreads
  size : state.data.length = job.filters.nMel * job.nLen
  thread : ∀ {ith thread}, state.threads[ith]? = some thread →
    ThreadHolds job root state.data ith thread

variable {job : MelJob Value} {root : Complex Value} {state : MelThreads Value}
variable {ith : Nat} {thread later : MelThread Value} {data : List Value}

/-- A step of one thread, as the others see it. -/
theorem Consistent.progress (holds : Consistent job root state)
    (found : state.threads[ith]? = some thread) (size : data.length = state.data.length)
    (others : ∀ mel < job.filters.nMel, ∀ frame < job.nLen, frame % job.nThreads ≠ ith →
      data[mel * job.nLen + frame]? = state.data[mel * job.nLen + frame]?)
    (own : ThreadHolds job root data ith later) (work : later.work job + 1 = thread.work job) :
    Progress (Consistent job root) (MelThreads.work job) state ith
      ⟨state.threads.set ith later, data⟩ := by
  have within := (List.getElem?_eq_some_iff.mp found).1
  constructor
  case holds =>
    refine ⟨List.length_set.trans holds.count, size.trans holds.size, ?_⟩
    intro position other placed
    by_cases same : position = ith
    · subst same
      rw [List.getElem?_set_self within] at placed
      cases placed
      exact own
    · rw [List.getElem?_set_ne fun equal => same equal.symm] at placed
      have known := holds.thread placed
      refine ⟨known.turn, known.stage, ?_⟩
      intro mel below frame inside turn behind
      rw [others mel below frame inside fun equal => same (turn.symm.trans equal)]
      exact known.written mel below frame inside turn behind
  case done =>
    rw [MelThreads.work, MelThreads.work, List.getElem?_set_self within, found]
    exact work
  case others =>
    intro other different
    rw [MelThreads.work, MelThreads.work, List.getElem?_set_ne different.symm]

/-- A step that writes nothing. -/
theorem Consistent.progress_silent (holds : Consistent job root state)
    (found : state.threads[ith]? = some thread) (ran : thread.next job = some (later, none))
    (own : ThreadHolds job root state.data ith later)
    (work : later.work job + 1 = thread.work job) :
    ∃ next, melStep job state ith = some next ∧
      Progress (Consistent job root) (MelThreads.work job) state ith next := by
  refine ⟨_, ?_, holds.progress found rfl (fun _ _ _ _ _ => rfl) own work⟩
  simp only [melStep, found, ran, bind, Option.bind_some, pure]

theorem Consistent.progress_written (holds : Consistent job root state)
    (found : state.threads[ith]? = some thread) {mel : Nat} (below : mel < job.filters.nMel)
    (inside : thread.frame < job.nLen) (done : thread.melsDone = mel)
    (ran : thread.next job = some (later,
      some (mel * job.nLen + thread.frame, melLevel job root mel thread.frame)))
    (frame : later.frame = thread.frame) (next : later.melsDone = mel + 1)
    (stage : StageHolds job root later) (work : later.work job + 1 = thread.work job) :
    ∃ next, melStep job state ith = some next ∧
      Progress (Consistent job root) (MelThreads.work job) state ith next := by
  have known := holds.thread found
  have cell : mel * job.nLen + thread.frame < state.data.length := by
    rw [holds.size]
    exact cell_inside below inside
  have elsewhere {otherMel otherFrame : Nat} (small : otherFrame < job.nLen)
      (different : otherMel ≠ mel ∨ otherFrame ≠ thread.frame) :
      (state.data.set (mel * job.nLen + thread.frame)
        (melLevel job root mel thread.frame))[otherMel * job.nLen + otherFrame]? =
          state.data[otherMel * job.nLen + otherFrame]? := by
    apply List.getElem?_set_ne
    intro same
    obtain ⟨sameMel, sameFrame⟩ := Prod.mk.inj (cell_injective inside small same)
    exact different.elim (fun other => other sameMel.symm) fun other => other sameFrame.symm
  refine ⟨⟨state.threads.set ith later, state.data.set (mel * job.nLen + thread.frame)
    (melLevel job root mel thread.frame)⟩, ?_,
    holds.progress found List.length_set ?_ ⟨?_, stage, ?_⟩ work⟩
  · simp only [melStep, found, ran, bind, Option.bind_some, pure, writeAt, if_pos cell]
  · intro otherMel _ otherFrame small turn
    apply elsewhere small
    right
    rintro rfl
    exact turn known.turn
  · rw [frame]
    exact known.turn
  · intro otherMel small otherFrame inRange turn behind
    rw [frame, next] at behind
    by_cases same : otherMel = mel ∧ otherFrame = thread.frame
    · rw [same.1, same.2, List.getElem?_set_self cell]
    · rw [elsewhere inRange (by omega)]
      apply known.written _ small _ inRange turn
      omega

end Invariant

section Steps

variable {Value : Type} [Field Value] [LinearOrder Value]
variable {job : MelJob Value} {root : Complex Value} {state : MelThreads Value}
variable {ith : Nat} {thread : MelThread Value}

omit [Field Value] [LinearOrder Value] in
theorem MelJob.active_inside {frame : Nat} (active : frame < job.activeFrames) :
    frame * whisperHopLength ≤ job.nSamples ∧ frame < job.nLen := by
  have both := lt_min_iff.mp active
  exact ⟨(Nat.le_div_iff_mul_le (by decide)).mp (Nat.lt_succ_iff.mp both.1), both.2⟩

omit [Field Value] [LinearOrder Value] in
theorem MelJob.silent_behind {frame : Nat} (silent : job.activeFrames ≤ frame)
    (inside : frame < job.nLen) : job.nSamples ≤ frame * whisperHopLength := by
  have behind : job.nSamples / whisperHopLength + 1 ≤ frame :=
    (min_le_iff.mp silent).resolve_right (Nat.not_le.mpr inside)
  exact ((Nat.div_lt_iff_lt_mul (by decide)).mp behind).le

/-- Before a frame a thread has written none of its levels. -/
theorem ThreadHolds.started {data : List Value} (holds : ThreadHolds job root data ith thread)
    (isStage : thread.stage = .frame) {later : MelThread Value}
    (frame : later.frame = thread.frame) (none : later.melsDone = 0)
    (stage : StageHolds job root later) : ThreadHolds job root data ith later := by
  have before : thread.melsDone = 0 := by rw [MelThread.melsDone, isStage]
  refine ⟨?_, stage, ?_⟩
  · rw [frame]
    exact holds.turn
  · intro mel below column inside turn behind
    apply holds.written mel below column inside turn
    rwa [frame, none, ← before] at behind

theorem Consistent.step_frame (sized : job.Sized root) (holds : Consistent job root state)
    (found : state.threads[ith]? = some thread) (isStage : thread.stage = .frame) :
    ∃ next, melStep job state ith = some next ∧
      Progress (Consistent job root) (MelThreads.work job) state ith next := by
  have known := holds.thread found
  by_cases active : thread.frame < job.activeFrames
  · obtain ⟨covered, inside⟩ := MelJob.active_inside active
    obtain ⟨memory, ran, powered⟩ := transformFrame_eq sized covered thread.memory
    have next : thread.next job = some ({ thread with memory, stage := .level 0 }, none) := by
      simp only [MelThread.next, isStage, if_pos active, ran, bind, Option.bind_some, pure]
    apply holds.progress_silent found next
    · exact known.started isStage rfl rfl ⟨Nat.zero_le _, active, powered⟩
    · simp only [MelThread.work, isStage, framesLeft_next sized.threads inside, Nat.sub_zero]
      ring
  · by_cases inside : thread.frame < job.nLen
    · have next : thread.next job = some ({ thread with stage := .silence 0 }, none) := by
        simp only [MelThread.next, isStage, if_neg active, if_pos inside]
      apply holds.progress_silent found next
      · exact known.started isStage rfl rfl ⟨Nat.zero_le _, Nat.not_lt.mp active, inside⟩
      · simp only [MelThread.work, isStage, framesLeft_next sized.threads inside, Nat.sub_zero]
        ring
    · have next : thread.next job = some ({ thread with stage := .finished }, none) := by
        simp only [MelThread.next, isStage, if_neg active, if_neg inside]
      apply holds.progress_silent found next
      · exact known.started isStage rfl rfl (Nat.not_lt.mp inside)
      · simp only [MelThread.work, isStage, framesLeft_none sized.threads (Nat.not_lt.mp inside),
          Nat.zero_mul]

theorem Consistent.step_next (holds : Consistent job root state)
    (found : state.threads[ith]? = some thread) (done : thread.melsDone = job.filters.nMel)
    (ran : thread.next job =
      some ({ thread with frame := thread.frame + job.nThreads, stage := .frame }, none))
    (work : thread.work job = framesLeft job (thread.frame + job.nThreads) *
      (job.filters.nMel + 2) + 2) :
    ∃ next, melStep job state ith = some next ∧
      Progress (Consistent job root) (MelThreads.work job) state ith next := by
  have known := holds.thread found
  apply holds.progress_silent found ran
  · refine ⟨?_, trivial, ?_⟩
    · rw [Nat.add_mod_right]
      exact known.turn
    · intro mel below frame inside turn behind
      apply known.written mel below frame inside turn
      rw [done]
      have earlier : frame < thread.frame + job.nThreads :=
        behind.resolve_right fun both => Nat.not_lt_zero _ both.2
      rcases Nat.lt_trichotomy frame thread.frame with less | same | more
      · exact Or.inl less
      · exact Or.inr ⟨same, below⟩
      · -- No frame of the thread lies between two that it serves.
        have apart := Nat.mod_eq_of_lt (show frame - thread.frame < job.nThreads by omega)
        have none := (Nat.modEq_iff_dvd' more.le).mp (known.turn.trans turn.symm)
        rw [Nat.mod_eq_zero_of_dvd none] at apart
        omega
  · rw [work]
    rfl

theorem Consistent.step_level (sized : job.Sized root) (holds : Consistent job root state)
    (found : state.threads[ith]? = some thread) {mel : Nat} (isStage : thread.stage = .level mel) :
    ∃ next, melStep job state ith = some next ∧
      Progress (Consistent job root) (MelThreads.work job) state ith next := by
  have stage := (holds.thread found).stage
  simp only [StageHolds, isStage] at stage
  obtain ⟨most, active, powered⟩ := stage
  have inside := (MelJob.active_inside active).2
  have done : thread.melsDone = mel := by rw [MelThread.melsDone, isStage]
  by_cases below : mel < job.filters.nMel
  · have next : thread.next job = some ({ thread with stage := .level (mel + 1) },
        some (mel * job.nLen + thread.frame, melLevel job root mel thread.frame)) := by
      simp only [MelThread.next, isStage, if_pos below, melSum_eq sized below powered, bind,
        Option.bind_some, pure, melLevel]
    apply holds.progress_written found below inside done next rfl rfl ⟨below, active, powered⟩
    · simp only [MelThread.work, isStage]
      omega
  · obtain rfl : mel = job.filters.nMel := Nat.le_antisymm most (Nat.not_lt.mp below)
    apply holds.step_next found done
    · simp only [MelThread.next, isStage, if_neg below]
    · simp only [MelThread.work, isStage, Nat.sub_self, Nat.add_zero]

theorem Consistent.step_silence [IsStrictOrderedRing Value] (sized : job.Sized root)
    (holds : Consistent job root state) (found : state.threads[ith]? = some thread) {mel : Nat}
    (isStage : thread.stage = .silence mel) :
    ∃ next, melStep job state ith = some next ∧
      Progress (Consistent job root) (MelThreads.work job) state ith next := by
  have stage := (holds.thread found).stage
  simp only [StageHolds, isStage] at stage
  obtain ⟨most, silent, inside⟩ := stage
  have done : thread.melsDone = mel := by rw [MelThread.melsDone, isStage]
  by_cases below : mel < job.filters.nMel
  · have next : thread.next job = some ({ thread with stage := .silence (mel + 1) },
        some (mel * job.nLen + thread.frame, melLevel job root mel thread.frame)) := by
      simp only [MelThread.next, isStage, if_pos below,
        melLevel_silent sized (MelJob.silent_behind silent inside)]
    apply holds.progress_written found below inside done next rfl rfl ⟨below, silent, inside⟩
    · simp only [MelThread.work, isStage]
      omega
  · obtain rfl : mel = job.filters.nMel := Nat.le_antisymm most (Nat.not_lt.mp below)
    apply holds.step_next found done
    · simp only [MelThread.next, isStage, if_neg below]
    · simp only [MelThread.work, isStage, Nat.sub_self, Nat.add_zero]

private theorem melStep_progress [IsStrictOrderedRing Value] (sized : job.Sized root)
    (state : MelThreads Value) (ith : Nat) (holds : Consistent job root state)
    (left : 0 < state.work job ith) :
    ∃ next, melStep job state ith = some next ∧
      Progress (Consistent job root) (MelThreads.work job) state ith next := by
  rw [MelThreads.work] at left
  cases found : state.threads[ith]? with
  | none =>
    rw [found] at left
    exact absurd left (Nat.lt_irrefl 0)
  | some thread =>
    cases isStage : thread.stage with
    | frame => exact holds.step_frame sized found isStage
    | level mel => exact holds.step_level sized found isStage
    | silence mel => exact holds.step_silence sized found isStage
    | finished =>
      rw [found, Option.map_some, Option.getD_some, MelThread.work, isStage] at left
      exact absurd left (Nat.lt_irrefl 0)

end Steps

section Padding

variable {Value : Type} [Field Value]

/-- The samples between their reflection and the zeros. -/
def paddedOf (samples : List Value) : List Value :=
  ((List.range 200).map fun place => samples.getD (200 - place) 0) ++ samples ++
    List.replicate (whisperSampleRate * 30 + 200) 0

private theorem paddedSamples_eq {samples : List Value} (enough : 200 < samples.length) :
    paddedSamples samples = some (paddedOf samples) := by
  have front : (List.range 200).mapM (fun place => samples[200 - place]?) =
      some ((List.range 200).map fun place => samples.getD (200 - place) 0) :=
    mapM_of_pure _ fun place _ => getElem?_eq_getD (by omega)
  simp only [paddedSamples, front, bind, Option.bind_some, pure, paddedOf]

theorem length_paddedOf (samples : List Value) :
    (paddedOf samples).length = 200 + samples.length + (whisperSampleRate * 30 + 200) := by
  rw [paddedOf, List.length_append, List.length_append, List.length_map, List.length_range,
    List.length_replicate]

theorem getD_paddedOf_behind (samples : List Value) {index : Nat}
    (behind : samples.length + 200 ≤ index) : (paddedOf samples).getD index 0 = 0 := by
  have front : (((List.range 200).map fun place => samples.getD (200 - place) 0) ++
      samples).length ≤ index := by
    rw [List.length_append, List.length_map, List.length_range]
    omega
  rw [paddedOf, List.getD_eq_getElem?_getD, List.getElem?_append_right front,
    List.getElem?_replicate]
  split <;> rfl

/-- What they find between the two. -/
def callJob (cache : GlobalCache Value) (log10 : Value → Value) (filters : Filters Value)
    (nThreads : Nat) (samples : List Value) : MelJob Value :=
  jobOf cache log10 filters nThreads samples (paddedOf samples)

theorem sized_callJob {cache : GlobalCache Value} {root : Complex Value}
    {filters : Filters Value} {nThreads : Nat} (turning : Turning cache root)
    (hann : cache.hannWindow.length = whisperNFft) (bins : filters.nFft = 1 + whisperNFft / 2)
    (rows : filters.data.length = filters.nMel * filters.nFft) (threads : nThreads ≠ 0)
    (log10 : Value → Value) (samples : List Value) :
    (callJob cache log10 filters nThreads samples).Sized root where
  turning := turning
  hann := hann
  bins := bins
  filters := rows
  threads := Nat.pos_of_ne_zero threads
  inside := by
    change samples.length + 200 ≤ (paddedOf samples).length
    rw [length_paddedOf]
    omega
  silent := fun _ behind => getD_paddedOf_behind samples behind

end Padding

section Call

variable {Value : Type} [Field Value] [LinearOrder Value]
variable {job : MelJob Value} {root : Complex Value}

def levelsOf (job : MelJob Value) (root : Complex Value) : List Value :=
  (List.range (job.filters.nMel * job.nLen)).map fun index =>
    melLevel job root (index / job.nLen) (index % job.nLen)

theorem levelsOf_cell {mel frame : Nat} (below : mel < job.filters.nMel)
    (inside : frame < job.nLen) :
    (levelsOf job root)[mel * job.nLen + frame]? = some (melLevel job root mel frame) := by
  rw [levelsOf, getElem?_tabulated _ (cell_inside below inside), cell_row inside,
    cell_column inside]

theorem mem_levelsOf {level : Value} : level ∈ levelsOf job root ↔
    ∃ mel < job.filters.nMel, ∃ frame < job.nLen, level = melLevel job root mel frame := by
  constructor
  · intro member
    obtain ⟨index, inRange, rfl⟩ := List.mem_map.mp member
    have inside := List.mem_range.mp inRange
    have frames : 0 < job.nLen := Nat.pos_of_lt_mul_left inside
    exact ⟨index / job.nLen, Nat.div_lt_of_lt_mul (by rwa [Nat.mul_comm]), index % job.nLen,
      Nat.mod_lt _ frames, rfl⟩
  · rintro ⟨mel, below, frame, inside, rfl⟩
    exact List.mem_of_getElem? (levelsOf_cell below inside)

theorem largestLevel_greatest (data : List Value) :
    IsGreatest {level | level ∈ -((10 ^ 20 : Nat) : Value) :: data} (largestLevel data) := by
  have larger : (fun mmax level : Value => if level > mmax then level else mmax) = max := by
    funext mmax level
    exact (max_def_lt mmax level).symm
  rw [largestLevel, larger]
  exact foldl_max_greatest data _

private theorem consistent_threadsOf (before : Mel Value) :
    Consistent job root (threadsOf job before) := by
  refine ⟨by rw [threadsOf, List.length_map, List.length_range], length_resize _ _ _, ?_⟩
  intro ith thread found
  have below : ith < job.nThreads := by
    have inside := (List.getElem?_eq_some_iff.mp found).1
    rwa [threadsOf, List.length_map, List.length_range] at inside
  rw [threadsOf, getElem?_tabulated _ below] at found
  cases found
  refine ⟨Nat.mod_eq_of_lt below, trivial, ?_⟩
  intro mel _ frame _ turn behind
  have earlier : frame < ith := behind.resolve_right fun both => Nat.not_lt_zero _ both.2
  exact absurd (turn ▸ Nat.mod_le frame job.nThreads) (Nat.not_le.mpr earlier)

omit [LinearOrder Value] in
theorem work_threadsOf (before : Mel Value) :
    MelThreads.work job (threadsOf job before) = fun ith => if ith < job.nThreads then
      framesLeft job ith * (job.filters.nMel + 2) + 1 else 0 := by
  funext ith
  rw [MelThreads.work, threadsOf]
  split
  · next below => rw [getElem?_tabulated _ below]; rfl
  · next behind =>
    rw [List.getElem?_eq_none (by rw [List.length_map, List.length_range]; omega)]
    rfl

omit [Field Value] [LinearOrder Value] in
theorem finished_of_work {state : MelThreads Value} (idle : ∀ ith, state.work job ith = 0)
    {thread : MelThread Value} (member : thread ∈ state.threads) : thread.stage = .finished := by
  obtain ⟨ith, found⟩ := List.mem_iff_getElem?.mp member
  have none := idle ith
  rw [MelThreads.work, found, Option.map_some, Option.getD_some, MelThread.work] at none
  cases isStage : thread.stage with
  | finished => rfl
  | frame | level | silence => simp [isStage] at none

theorem Consistent.data_eq {state : MelThreads Value} (holds : Consistent job root state)
    (threads : 0 < job.nThreads)
    (finished : ∀ thread ∈ state.threads, thread.stage = .finished) :
    state.data = levelsOf job root := by
  apply List.ext_getElem?
  intro index
  by_cases inside : index < job.filters.nMel * job.nLen
  · rw [levelsOf, getElem?_tabulated _ inside]
    have frames : 0 < job.nLen := by
      by_contra none
      rw [Nat.eq_zero_of_not_pos none, Nat.mul_zero] at inside
      exact Nat.not_lt_zero _ inside
    have mels : index / job.nLen < job.filters.nMel :=
      Nat.div_lt_of_lt_mul (by rwa [Nat.mul_comm])
    have column := Nat.mod_lt index frames
    have turn : index % job.nLen % job.nThreads < state.threads.length := by
      rw [holds.count]
      exact Nat.mod_lt _ threads
    obtain ⟨thread, found⟩ : ∃ thread, state.threads[index % job.nLen % job.nThreads]? =
      some thread := ⟨_, List.getElem?_eq_getElem turn⟩
    have known := holds.thread found
    have stage := known.stage
    simp only [StageHolds, finished thread (List.mem_of_getElem? found)] at stage
    have written := known.written _ mels _ column rfl (Or.inl (Nat.lt_of_lt_of_le column stage))
    rwa [Nat.div_add_mod'] at written
  · rw [List.getElem?_eq_none (by rw [holds.size]; omega), List.getElem?_eq_none
      (by rw [levelsOf, List.length_map, List.length_range]; omega)]

theorem threads_run [IsStrictOrderedRing Value] (sized : job.Sized root) (before : Mel Value)
    {schedule : List Nat} (order : OrderOf job schedule) :
    ∃ ended, execute (melStep job) (threadsOf job before) schedule = some ended ∧
      (∀ thread ∈ ended.threads, thread.stage = .finished) ∧ ended.data = levelsOf job root := by
  have complete : Complete (MelThreads.work job (threadsOf job before)) schedule := by
    rw [work_threadsOf]
    exact order
  obtain ⟨ended, ran, holds, idle⟩ := execute_complete (melStep_progress sized)
    (consistent_threadsOf before) complete
  have finished (thread : MelThread Value) (member : thread ∈ ended.threads) :
      thread.stage = .finished := finished_of_work idle member
  exact ⟨ended, ran, finished, holds.data_eq sized.threads finished⟩

end Call

section Spectrogram

variable {Value : Type} [Field Value] [LinearOrder Value]

/-- The spectrogram of the samples whose largest level is `mmax`, as one thread makes it. -/
def spectrogram (cache : GlobalCache Value) (root : Complex Value) (log10 : Value → Value)
    (filters : Filters Value) (samples : List Value) (mmax : Value) : Mel Value where
  nLen := (callJob cache log10 filters 1 samples).nLen
  nLenOrg := 1 + ((samples.length : Int) + 200 - whisperNFft).tdiv whisperHopLength
  nMel := filters.nMel
  data := (levelsOf (callJob cache log10 filters 1 samples) root).map
    (clamped (mmax - (8 : Nat)))

theorem logMelSpectrogram_of [IsStrictOrderedRing Value] {cache : GlobalCache Value}
    {root : Complex Value} {filters : Filters Value} {nThreads : Nat} {samples : List Value}
    {log10 : Value → Value} (threads : nThreads ≠ 0) (enough : 200 < samples.length)
    (sized : (callJob cache log10 filters nThreads samples).Sized root) (before : Mel Value)
    {schedule : List Nat}
    (order : OrderOf (callJob cache log10 filters nThreads samples) schedule) :
    logMelSpectrogram cache log10 filters nThreads samples before schedule =
      some (spectrogram cache root log10 filters samples
        (largestLevel (levelsOf (callJob cache log10 filters 1 samples) root))) := by
  obtain ⟨ended, ran, finished, data⟩ := threads_run sized before order
  have joined : (ended.threads.all fun thread => thread.stage = .finished) = true :=
    List.all_eq_true.mpr fun thread member => decide_eq_true (finished thread member)
  have allowed : ¬ (nThreads = 0 ∨ filters.nFft ≠ 1 + whisperNFft / 2) :=
    not_or.mpr ⟨threads, not_not.mpr sized.bins⟩
  have same : levelsOf (callJob cache log10 filters nThreads samples) root =
      levelsOf (callJob cache log10 filters 1 samples) root := rfl
  unfold logMelSpectrogram
  simp only [paddedSamples_eq enough, bind, Option.bind_some, if_neg allowed]
  rw [callJob] at ran
  simp only [ran, Option.bind_some, joined, if_pos, data, same]
  rfl

end Spectrogram

section Real

/-- The root that both engines take their powers of. -/
noncomputable def realRoot : Complex ℝ :=
  CTranslate2.fftRoots Real.cos Real.sin Real.pi 1

noncomputable def realCache : GlobalCache ℝ := globalCache Real.sin Real.cos Real.pi

theorem realRoot_pow (index : Nat) : realRoot ^ index =
    ⟨Real.cos ((2 : Nat) * Real.pi * index / whisperNFft),
      -Real.sin ((2 : Nat) * Real.pi * index / whisperNFft)⟩ := by
  have angle : -2 * Real.pi * index * (1 / (CTranslate2.kFftSize : ℝ)) =
      -((2 : Nat) * Real.pi * index / whisperNFft) := by
    rw [CTranslate2.kFftSize, whisperNFft]
    push_cast
    ring
  rw [realRoot, ← CTranslate2.fftRoots_eq_pow, CTranslate2.fftRoots, angle, Real.cos_neg,
    Real.sin_neg]

theorem turning_real : Turning realCache realRoot := by
  constructor
  case half =>
    have half : (2 : Nat) * Real.pi * (200 : Nat) / whisperNFft = Real.pi := by
      rw [whisperNFft]
      push_cast
      ring
    rw [realRoot_pow, half, Real.cos_pi, Real.sin_pi]
    rfl
  case cosines =>
    intro index below
    rw [realRoot_pow]
    exact getElem?_tabulated _ below
  case sines =>
    intro index below
    rw [realRoot_pow, neg_neg]
    exact getElem?_tabulated _ below

theorem length_realHann : realCache.hannWindow.length = whisperNFft := by
  change ((List.range whisperNFft).map _).length = _
  rw [List.length_map, List.length_range]

/-- For every number of threads and every order of their steps, whatever was in the
spectrogram before, `log_mel_spectrogram` gives the levels of the padded samples, clamped
eight below the largest. The code's `n_samples` is an `int`, to which 200 are added: there
have to be fewer than 2 ^ 31 - 200 samples. -/
theorem logMelSpectrogram_eq {filters : Filters ℝ} {nThreads : Nat} {samples : List ℝ}
    {schedule : List Nat} (bins : filters.nFft = 1 + whisperNFft / 2)
    (rows : filters.data.length = filters.nMel * filters.nFft) (threads : nThreads ≠ 0)
    (enough : 200 < samples.length)
    (order : OrderOf (callJob realCache (Real.logb (10 : Nat)) filters nThreads samples) schedule)
    (before : Mel ℝ) : ∃ mmax,
      IsGreatest {level | level ∈ -((10 ^ 20 : Nat) : ℝ) ::
        levelsOf (callJob realCache (Real.logb (10 : Nat)) filters 1 samples) realRoot} mmax ∧
      logMelSpectrogram realCache (Real.logb (10 : Nat)) filters nThreads samples before schedule =
        some (spectrogram realCache realRoot (Real.logb (10 : Nat)) filters samples mmax) := by
  exact ⟨_, largestLevel_greatest _, logMelSpectrogram_of threads enough
    (sized_callJob turning_real length_realHann bins rows threads _ samples) before order⟩

/-- Two threads, of which the second is done before the first begins. -/
theorem logMelSpectrogram_eq_reversed : ∃ mmax,
    logMelSpectrogram realCache (Real.logb (10 : Nat)) ⟨1, 201, List.replicate 201 1⟩ 2
      (List.replicate 400 1) ⟨0, 0, 0, []⟩ (inTurn (fun ith => if ith < 2 then
        framesLeft (callJob realCache (Real.logb (10 : Nat)) ⟨1, 201, List.replicate 201 1⟩ 2
          (List.replicate 400 1)) ith * (1 + 2) + 1 else 0) 2).reverse =
      some (spectrogram realCache realRoot (Real.logb (10 : Nat))
        ⟨1, 201, List.replicate 201 1⟩ (List.replicate 400 1) mmax) := by
  obtain ⟨mmax, -, made⟩ := @logMelSpectrogram_eq ⟨1, 201, List.replicate 201 1⟩ 2
    (List.replicate 400 1) _ rfl (List.length_replicate.trans (Nat.one_mul 201).symm)
    (by decide)
    (by rw [List.length_replicate]; decide)
    (complete_inTurn fun worker others => if_neg (Nat.not_lt.mpr others)).reverse ⟨0, 0, 0, []⟩
  exact ⟨mmax, made⟩

end Real

end LocalWhisper.WhisperMel
