import LocalWhisper.WhisperVad.Segments

/-! `collect_whisper_vad_speech`: the samples of the speech segments one after another,
which are what is transcribed. -/

namespace LocalWhisper.WhisperVad

open LocalWhisper.Machine

/-- The network with its recurrent state. Nothing comes out of a computation that fails;
`allocates` says whether the graph gets its buffer. -/
structure Network (Sample State : Type) where
  reset : State
  infer : State → List Sample → Option (Option Rat × State)
  allocates : Bool

/-- `whisper_vad_context`, whose `probs` stay from one call to the next. -/
structure VadContext where
  nWindow : Nat
  positive : 0 < nWindow
  probs : List (Option Rat)

variable {Sample State : Type}

/-- One more chunk for remaining samples. -/
def chunkCount (nWindow nSamples : Nat) : Nat :=
  if nSamples % nWindow ≠ 0 then nSamples / nWindow + 1 else nSamples / nWindow

/-- The window of a chunk, filled up with zeros. -/
def vadWindow [Zero Sample] (nWindow : Nat) (samples : List Sample) (index : Nat) : List Sample :=
  let chunk := (samples.drop (index * nWindow)).take nWindow
  chunk ++ List.replicate (nWindow - chunk.length) 0

/-- The loop over the windows; after a failure the old probabilities stay. -/
def detectWindows (network : Network Sample State) :
    State → List (List Sample) → List (Option Rat) → List (Option Rat)
  | state, window :: windows, old :: rest =>
    match network.infer state window with
    | none => old :: rest
    | some (prob, state) => prob :: detectWindows network state windows rest
  | _, _, probs => probs

/-- `whisper_vad_detect_speech`. -/
def VadContext.detectSpeech [Zero Sample] (context : VadContext) (network : Network Sample State)
    (samples : List Sample) : Option VadContext :=
  let nChunks := chunkCount context.nWindow samples.length
  let probs := context.probs.take nChunks ++
    List.replicate (nChunks - context.probs.length) (some 0)
  if network.allocates then
    some { context with
      probs := detectWindows network network.reset
        ((List.range nChunks).map (vadWindow context.nWindow samples)) probs }
  else none

/-- The parameters of the filter; `std::clamp` keeps the threshold between 0 and 1. -/
def filterParams (threshold : Rat) : VadParams where
  threshold := max 0 (min 1 threshold)
  minSpeechDurationMs := 0
  minSilenceDurationMs := 2000
  maxSpeechDurationS := floatMax
  speechPadMs := 400
  samplesOverlap := 0

/-- `std::llround`. -/
def llround (value : Rat) : Int :=
  if 0 ≤ value then ⌊value + 1 / 2⌋ else -⌊-value + 1 / 2⌋

/-- The place in the audio of a time, which is read and multiplied as a `float`. -/
def speechPlace (size : Nat) (cs : Int) : Nat :=
  min size (max 0 (llround (binary32 (binary32 cs * 160)))).toNat

/-- The loop over the segments. -/
def collectSegments (samples : List Sample) (segments : List Interval) : List Sample :=
  segments.foldl (fun output segment =>
    let start := speechPlace samples.length segment.start
    let finish := speechPlace samples.length segment.finish
    if start < finish then output ++ (samples.take finish).drop start else output) []

/-- `collect_whisper_vad_speech`: whether there is speech, the speech and the context
afterwards. -/
def collectWhisperVadSpeech [Zero Sample] (network : Network Sample State)
    (context : Option VadContext) (samples : List Sample) (threshold : Rat) :
    Except String (Bool × List Sample × VadContext) :=
  match context with
  | none => .error "Silero VAD context is null"
  | some context =>
    if samples.isEmpty then .ok (false, [], context)
    else
      match context.detectSpeech network samples with
      | none => .error "Silero VAD failed to detect speech segments"
      | some context =>
        let segments := whisperVadSegmentsFromProbs context.nWindow (filterParams threshold)
          context.probs
        let output := collectSegments samples segments
        .ok (!output.isEmpty, output, context)

theorem chunkCount_bounds {nWindow : Nat} (positive : 0 < nWindow) (nSamples : Nat) :
    nSamples ≤ nWindow * chunkCount nWindow nSamples ∧
      nWindow * chunkCount nWindow nSamples < nSamples + nWindow := by
  have whole := Nat.div_add_mod nSamples nWindow
  have rest := Nat.mod_lt nSamples positive
  unfold chunkCount
  split
  · rw [Nat.mul_add]
    omega
  · omega

private theorem length_detectWindows (network : Network Sample State) (state : State)
    (windows : List (List Sample)) (probs : List (Option Rat)) :
    (detectWindows network state windows probs).length = probs.length := by
  induction windows generalizing state probs with
  | nil => cases probs <;> rfl
  | cons window windows ih =>
    cases probs with
    | nil => rfl
    | cons old rest =>
      rw [detectWindows]
      split
      · rfl
      · rw [List.length_cons, ih, List.length_cons]

theorem VadContext.detectSpeech_eq [Zero Sample] {context detected : VadContext}
    {network : Network Sample State} {samples : List Sample}
    (done : context.detectSpeech network samples = some detected) :
    detected.nWindow = context.nWindow ∧
      detected.probs.length = chunkCount context.nWindow samples.length := by
  unfold VadContext.detectSpeech at done
  simp only at done
  split at done
  · obtain rfl := Option.some.inj done
    refine ⟨rfl, ?_⟩
    rw [length_detectWindows, List.length_append, List.length_take, List.length_replicate]
    omega
  · cases done

theorem windows_small {nWindow nSamples : Nat} {probs : List (Option Rat)} (window : 0 < nWindow)
    (counted : probs.length = chunkCount nWindow nSamples) (small : nSamples + nWindow ≤ 2 ^ 30) :
    (probs.length : Int) * nWindow ≤ 2 ^ 30 := by
  have count := chunkCount_bounds window nSamples
  rw [← counted] at count
  have cast : ((nWindow * probs.length : Nat) : Int) = probs.length * nWindow := by
    rw [Nat.mul_comm, Nat.cast_mul]
  omega

private theorem llround_intCast (value : Int) : llround value = value := by
  have half (number : Int) : ⌊(number : Rat) + 1 / 2⌋ = number := by
    rw [Int.floor_intCast_add]
    norm_num
  unfold llround
  split
  · exact half value
  · rw [← Int.cast_neg, half, Int.neg_neg]

private theorem llround_mono {first second : Rat} (nonneg : 0 ≤ first) (ordered : first ≤ second) :
    llround first ≤ llround second := by
  rw [llround, llround, if_pos nonneg, if_pos (nonneg.trans ordered)]
  exact Int.floor_le_floor (by linarith)

private theorem speechPlace_mono (size : Nat) {first second : Int} (nonneg : 0 ≤ first)
    (ordered : first ≤ second) : speechPlace size first ≤ speechPlace size second := by
  have casts : (0 : Rat) ≤ first := by exact_mod_cast nonneg
  have times : binary32 (first : Rat) * 160 ≤ binary32 (second : Rat) * 160 :=
    mul_le_mul_of_nonneg_right (binary32_mono casts (by exact_mod_cast ordered)) (by norm_num)
  have product : (0 : Rat) ≤ binary32 (first : Rat) * 160 :=
    mul_nonneg (roundBinary_nonneg casts) (by norm_num)
  have rounded : llround (binary32 (binary32 (first : Rat) * 160)) ≤
      llround (binary32 (binary32 (second : Rat) * 160)) :=
    llround_mono (roundBinary_nonneg product) (binary32_mono product times)
  unfold speechPlace
  omega

private theorem speechPlace_eq (size : Nat) {cs : Int} (nonneg : 0 ≤ cs) (small : 5 * cs < 2 ^ 24) :
    speechPlace size cs = min size (160 * cs).toNat := by
  have time : binary32 (cs : Rat) = cs := roundBinary_intCast (abs_lt.mpr ⟨by omega, by omega⟩)
  have samples : binary32 ((cs : Rat) * 160) = ((160 * cs : Int) : Rat) := by
    have exact : binary32 ((5 * cs : Int) * 2 ^ (5 : Int)) = (5 * cs : Int) * 2 ^ (5 : Int) :=
      roundBinary_exact (abs_lt.mpr ⟨by omega, small⟩)
    have same : ((5 * cs : Int) : Rat) * 2 ^ (5 : Int) = ((160 * cs : Int) : Rat) := by
      push_cast
      ring
    rw [same] at exact
    rw [← exact]
    push_cast
    ring_nf
  unfold speechPlace
  rw [time, samples, llround_intCast, max_eq_right (by omega)]

/-- A sample that becomes a time and a sample again is at most 80 samples away, which
are five milliseconds. -/
theorem speechPlace_samplesToCs (size : Nat) (samples : Int) (nonneg : 0 ≤ samples)
    (small : samples ≤ 2 ^ 28) :
    ∃ place : Nat, speechPlace size (samplesToCs samples) = min size place ∧
      samples - 80 ≤ place ∧ place ≤ samples + 80 ∧ (samples = 0 → place = 0) := by
  have near := samplesToCs_near nonneg (by omega)
  have positive := samplesToCs_nonneg nonneg
  refine ⟨(160 * samplesToCs samples).toNat, speechPlace_eq size positive (by omega), ?_, ?_, ?_⟩
  · omega
  · omega
  · rintro rfl
    rw [samplesToCs_zero]
    rfl

def toPlaces (size : Nat) (segments : List Interval) : List Interval :=
  segments.map fun segment => ⟨speechPlace size segment.start, speechPlace size segment.finish⟩

private theorem collectSegments_eq (samples : List Sample) (segments : List Interval) :
    collectSegments samples segments = pieces samples (toPlaces samples.length segments) := by
  have loop (output : List Sample) : segments.foldl (fun output segment =>
      let start := speechPlace samples.length segment.start
      let finish := speechPlace samples.length segment.finish
      if start < finish then output ++ (samples.take finish).drop start else output) output =
        output ++ pieces samples (toPlaces samples.length segments) := by
    induction segments generalizing output with
    | nil => exact (List.append_nil _).symm
    | cons segment rest ih =>
      have split : pieces samples (toPlaces samples.length (segment :: rest)) =
          (samples.take (speechPlace samples.length segment.finish)).drop
            (speechPlace samples.length segment.start) ++
            pieces samples (toPlaces samples.length rest) := rfl
      rw [List.foldl_cons, ih, split]
      simp only
      split
      · rw [List.append_assoc]
      · rw [List.drop_of_length_le, List.nil_append]
        rw [List.length_take]
        omega
  exact loop []

private theorem toPlaces_ordered (size : Nat) {upper : Int} {segments : List Interval}
    (ordered : Interval.Ordered 0 upper 0 segments) :
    Interval.Ordered 0 (speechPlace size upper) (speechPlace size 0) (toPlaces size segments) :=
  ordered.map (fun _ _ above ordered _ => Int.ofNat_le.mpr (speechPlace_mono size above ordered))
    (Int.le_refl 0)

theorem collectWhisperVadSpeech_cases [Zero Sample] {network : Network Sample State}
    {context : Option VadContext} {samples : List Sample} {threshold : Rat} {found : Bool}
    {output : List Sample} {after : VadContext} (audio : samples ≠ [])
    (done : collectWhisperVadSpeech network context samples threshold = .ok (found, output, after))
    (small : samples.length + after.nWindow ≤ 2 ^ 30) :
    after.probs.length = chunkCount after.nWindow samples.length ∧
      output = covered (toPlaces samples.length
        (whisperVadSegmentsFromProbs after.nWindow (filterParams threshold) after.probs)) 0 samples ∧
      found = !output.isEmpty := by
  unfold collectWhisperVadSpeech at done
  cases context with
  | none => cases done
  | some context =>
    simp only [if_neg (show ¬ samples.isEmpty = true by simpa using audio)] at done
    cases detecting : context.detectSpeech network samples with
    | none =>
      rw [detecting] at done
      cases done
    | some detected =>
      rw [detecting] at done
      cases done
      obtain ⟨window, count⟩ := VadContext.detectSpeech_eq detecting
      rw [← window] at count
      refine ⟨count, ?_, rfl⟩
      rw [collectSegments_eq]
      refine pieces_eq_covered (toPlaces_ordered _ (whisperVadSegmentsFromProbs_ordered
        (show (0 : Int) ≤ 400 by decide) (show (400 : Int) ≤ 134217 by decide) ?_)) samples
      exact windows_small (VadContext.positive _) count small

/-- Two seconds of silence, and 400 ms on both sides of a segment. -/
def filterLimits (nWindow : Nat) : Limits where
  nWindow := nWindow
  minSilenceSamples := 32000
  minSpeechSamples := 0
  speechPadSamples := 6400
  maxSpeechSamples := 1073741823

private theorem filterParams_limits (threshold : Rat) (nWindow : Nat) :
    (filterParams threshold).limits nWindow = filterLimits nWindow := by
  have unlimited (pad : Int) : maxSpeechSamples nWindow pad floatMax = 1073741823 := by
    rw [maxSpeechSamples, if_pos (by norm_num [floatMax])]
    rfl
  simp only [VadParams.limits, filterParams, unlimited]
  rfl

def filterSignals (threshold : Rat) (probs : List (Option Rat)) : List Signal :=
  (probs.map (filterParams threshold).frame).map Frame.signal

/-- The runs that the loop finds in the probabilities. -/
def filterRuns (nWindow : Nat) (threshold : Rat) (probs : List (Option Rat)) : List (Nat × Nat) :=
  Detector.detect (filterLimits nWindow).long (filterSignals threshold probs)

/-- The threshold is not below the one for silence, as is so from `0.01f` on. -/
def Audible (threshold : Rat) : Prop :=
  (filterParams threshold).negThreshold ≤ (filterParams threshold).threshold

/-- A network that counts the windows and hears speech in every twelfth. -/
def Network.pulses (peak : Rat) : Network Sample Nat :=
  ⟨0, fun index _ => some (some (if index % 12 = 0 then peak else 0), index + 1), true⟩

/-- A network that is certain of speech everywhere. -/
def Network.certain : Network Sample Unit := ⟨(), fun _ _ => some (some 1, ()), true⟩

section Filter

variable {threshold : Rat} {nWindow : Nat} {probs : List (Option Rat)}

/-- The threshold for silence is not above that for speech, unless that one is below
`0.01f`. -/
theorem VadParams.negThreshold_le {params : VadParams} (least : 1 / 64 ≤ params.threshold)
    (most : params.threshold ≤ 1) : params.negThreshold ≤ params.threshold := by
  have exact {bits : Int} : binary32 (2 ^ bits) = 2 ^ bits := by
    have one : binary32 ((1 : Int) * 2 ^ bits) = (1 : Int) * 2 ^ bits := roundBinary_exact (by simp)
    simpa using one
  have hundredth : binary32 (1 / 100) ≤ 1 / 64 := by
    have bound := binary32_mono (by norm_num) (show (1 / 100 : Rat) ≤ 2 ^ (-6 : Int) by norm_num)
    rw [exact] at bound
    norm_num at bound ⊢
    exact bound
  have margin : 1 / 8 ≤ binary32 (15 / 100) := by
    have bound := binary32_mono (by norm_num) (show (2 : Rat) ^ (-3 : Int) ≤ 15 / 100 by norm_num)
    rw [exact] at bound
    norm_num at bound ⊢
    exact bound
  unfold VadParams.negThreshold
  simp only
  split
  · exact hundredth.trans least
  · rcases le_or_gt (params.threshold - binary32 (15 / 100)) 0 with low | positive
    · exact (roundBinary_nonpos low).trans (by linarith)
    · have near := abs_le.mp (@roundBinary_near 24 _ positive)
      have error : (params.threshold - binary32 (15 / 100)) / 2 ^ 24 ≤ 1 / 8 := by
        rw [div_le_iff₀ (by norm_num)]
        linarith
      linarith [near.2]

theorem audible_of_le (least : 1 / 64 ≤ threshold) : Audible threshold :=
  VadParams.negThreshold_le (le_max_of_le_right (le_min (by norm_num) least))
    (max_le zero_le_one (min_le_left _ _))

theorem length_filterSignals (threshold : Rat) (probs : List (Option Rat)) :
    (filterSignals threshold probs).length = probs.length := by
  rw [filterSignals, List.length_map, List.length_map]

theorem filterRuns_segments (window : 0 < nWindow) :
    (filterLimits nWindow).segments (filterRuns nWindow threshold probs) =
      (filterRuns nWindow threshold probs).map (filterLimits nWindow).samples := by
  refine List.filter_eq_self.mpr fun segment member => ?_
  obtain ⟨run, runMember, rfl⟩ := List.mem_map.mp member
  have forward := (detect_forward ((filterLimits nWindow).shrinks (Int.natCast_nonneg _))
    runMember).1
  have longer : (nWindow : Int) * run.1 < nWindow * run.2 :=
    Int.mul_lt_mul_of_pos_left (Int.ofNat_lt.mpr forward) (Int.natCast_pos.mpr window)
  rw [decide_eq_true_iff]
  simp only [filterLimits, Limits.samples]
  omega

private theorem segmentSamples_filter (window : 0 < nWindow) (audible : Audible threshold)
    (small : probs.length * nWindow ≤ 1073741823) :
    segmentSamples (filterLimits nWindow) (probs.map (filterParams threshold).frame) =
      ((filterRuns nWindow threshold probs).map (filterLimits nWindow).samples).map
        (widen 6400 (probs.length * nWindow)) := by
  have positive : 0 < (filterLimits nWindow).nWindow := Int.natCast_pos.mpr window
  have distinct : ∀ frame ∈ probs.map (filterParams threshold).frame, frame.Distinct := by
    intro frame member
    obtain ⟨prob, _, rfl⟩ := List.mem_map.mp member
    exact VadParams.frame_distinct audible prob
  have short : ((probs.map (filterParams threshold).frame).length : Int) *
      (filterLimits nWindow).nWindow ≤ (filterLimits nWindow).maxSpeechSamples := by
    rw [List.length_map]
    show (probs.length : Int) * nWindow ≤ 1073741823
    exact_mod_cast small
  have found := speeches_eq_segments positive distinct short
  have ordered := segments_ordered positive (filterSignals threshold probs)
  rw [← filterRuns, filterRuns_segments window, length_filterSignals] at ordered
  rw [← filterSignals, ← filterRuns, filterRuns_segments window] at found
  obtain ⟨segments, segmentsAre⟩ : ∃ segments, segments =
      (filterRuns nWindow threshold probs).map (filterLimits nWindow).samples := ⟨_, rfl⟩
  rw [← segmentsAre] at ordered found ⊢
  have merged : mergeAdjacent segments = segments := by
    cases segments with
    | nil => rfl
    | cons first rest =>
      exact Interval.mergeClose_of_ordered
        (ordered.of_bounds (show maxMergeGapSamples ≤ 32000 by decide) (Int.le_refl _))
  have kept : dropShort (filterLimits nWindow) segments = segments := by
    refine List.filter_eq_self.mpr fun segment member => ?_
    have forward := (ordered.mem (show (0 : Int) ≤ 32000 by decide) member).2.1
    rw [decide_eq_true_iff]
    simp only [filterLimits]
    omega
  rw [segmentSamples, found, merged, kept, List.length_map]
  have room : (probs.length : Int) * nWindow + 6400 < 2 ^ 31 := by
    have smallInt : (probs.length : Int) * nWindow ≤ 1073741823 := by exact_mod_cast small
    omega
  refine applyPadding_of_apart (show (0 : Int) ≤ 6400 by decide) room ?_
  refine ordered.of_bounds (show (2 * 6400 : Int) ≤ 32000 by decide) (Int.le_of_eq ?_)
  exact Int.mul_comm _ _

def runPlaces (size nWindow count : Nat) (run : Nat × Nat) : Interval :=
  ⟨speechPlace size (samplesToCs (max 0 (nWindow * run.1 - 6400))),
    speechPlace size (samplesToCs (min (count * nWindow) (nWindow * run.2 + 6400)))⟩

private theorem toPlaces_filter (window : 0 < nWindow) (audible : Audible threshold)
    (small : probs.length * nWindow ≤ 1073741823) (size : Nat) :
    toPlaces size (whisperVadSegmentsFromProbs nWindow (filterParams threshold) probs) =
      (filterRuns nWindow threshold probs).map (runPlaces size nWindow probs.length) := by
  rw [whisperVadSegmentsFromProbs, filterParams_limits, segmentSamples_filter window audible small,
    toPlaces, List.map_map, List.map_map, List.map_map]
  rfl

section Reach

variable {size place : Nat} {run : Nat × Nat}

theorem contains_runPlaces (small : probs.length * nWindow ≤ 2 ^ 28) (forward : run.1 < run.2)
    (inside : run.2 ≤ probs.length) (audio : place < size)
    (after : (nWindow : Int) * run.1 - 6320 ≤ place)
    (before : (place : Int) < nWindow * run.2 + 6320)
    (early : place + 80 < nWindow * probs.length) :
    (runPlaces size nWindow probs.length run).contains place = true := by
  have smallInt : (probs.length : Int) * nWindow ≤ 2 ^ 28 := by exact_mod_cast small
  have earlyInt : (place : Int) + 80 < probs.length * nWindow := by
    rw [mul_comm]
    exact_mod_cast early
  have bound : (nWindow : Int) * run.1 ≤ probs.length * nWindow := by
    rw [mul_comm (probs.length : Int)]
    exact Int.mul_le_mul_of_nonneg_left (by omega) (Int.natCast_nonneg _)
  have whole : (0 : Int) ≤ probs.length * nWindow := by positivity
  have reach : (0 : Int) ≤ nWindow * run.2 := by positivity
  obtain ⟨first, firstIs, _, firstAbove, firstZero⟩ := speechPlace_samplesToCs size
    (max 0 ((nWindow : Int) * run.1 - 6400)) (by omega) (by omega)
  obtain ⟨last, lastIs, lastBelow, _⟩ := speechPlace_samplesToCs size
    (min ((probs.length : Int) * nWindow) (nWindow * run.2 + 6400)) (by omega) (by omega)
  rw [Interval.contains_iff, runPlaces, firstIs, lastIs]
  push_cast
  constructor <;> omega

private theorem close_of_contains_runPlaces (small : probs.length * nWindow ≤ 2 ^ 28)
    (forward : run.1 < run.2) (inside : run.2 ≤ probs.length) (audio : place < size)
    (kept : (runPlaces size nWindow probs.length run).contains place = true) :
    (nWindow : Int) * run.1 - 6480 ≤ place ∧ (place : Int) < nWindow * run.2 + 6480 := by
  have smallInt : (probs.length : Int) * nWindow ≤ 2 ^ 28 := by exact_mod_cast small
  have bound : (nWindow : Int) * run.1 ≤ probs.length * nWindow := by
    rw [mul_comm (probs.length : Int)]
    exact Int.mul_le_mul_of_nonneg_left (by omega) (Int.natCast_nonneg _)
  have whole : (0 : Int) ≤ probs.length * nWindow := by positivity
  have reach : (0 : Int) ≤ nWindow * run.2 := by positivity
  obtain ⟨first, firstIs, firstBelow, _⟩ := speechPlace_samplesToCs size
    (max 0 ((nWindow : Int) * run.1 - 6400)) (by omega) (by omega)
  obtain ⟨last, lastIs, _, lastAbove, _⟩ := speechPlace_samplesToCs size
    (min ((probs.length : Int) * nWindow) (nWindow * run.2 + 6400)) (by omega) (by omega)
  rw [Interval.contains_iff, runPlaces, firstIs, lastIs] at kept
  push_cast at kept
  omega

private theorem exists_frame_of_run (window : 0 < nWindow) (forward : run.1 < run.2) {margin : Int}
    (margins : 0 ≤ margin) (after : (nWindow : Int) * run.1 - margin ≤ place)
    (before : (place : Int) < nWindow * run.2 + margin) :
    ∃ index, run.1 ≤ index ∧ index < run.2 ∧ (nWindow : Int) * index - margin ≤ place ∧
      (place : Int) < nWindow * (index + 1) + margin := by
  rcases Nat.lt_or_ge (place / nWindow) run.1 with early | late
  · have less : place < nWindow * run.1 := by
      rw [mul_comm]
      exact (Nat.div_lt_iff_lt_mul window).mp early
    have lessInt : (place : Int) < nWindow * run.1 := by exact_mod_cast less
    refine ⟨run.1, Nat.le_refl _, forward, after, ?_⟩
    rw [mul_add]
    omega
  · rcases Nat.lt_or_ge (place / nWindow) run.2 with inside | beyond
    · have whole := Nat.div_add_mod place nWindow
      have rest := Nat.mod_lt place window
      have wholeInt : (nWindow : Int) * (place / nWindow : Nat) + (place % nWindow : Nat) = place := by
        exact_mod_cast whole
      refine ⟨place / nWindow, late, inside, by omega, ?_⟩
      rw [mul_add]
      omega
    · have more : nWindow * run.2 ≤ place := by
        rw [mul_comm]
        exact (Nat.le_div_iff_mul_le window).mp beyond
      have moreInt : (nWindow : Int) * run.2 ≤ place := by exact_mod_cast more
      obtain ⟨last, lastIs⟩ : ∃ last, run.2 = last + 1 := ⟨run.2 - 1, by omega⟩
      rw [lastIs] at before moreInt ⊢
      push_cast at before moreInt
      refine ⟨last, by omega, by omega, ?_, before⟩
      rw [mul_add] at moreInt
      omega

end Reach

end Filter

variable [Zero Sample] {network : Network Sample State} {context : Option VadContext}
variable {samples output : List Sample} {threshold : Rat} {found : Bool} {after : VadContext}

/-- The probabilities of 24 windows. -/
def pulseProbs (peak : Rat) : List (Option Rat) :=
  (List.range 24).map fun index => some (if index % 12 = 0 then peak else 0)

omit [Zero Sample] in
/-- Six seconds of audio in windows of a quarter of a second, after a call that has left a
probability. -/
theorem collectWhisperVadSpeech_pulses [Zero Sample] {samples : List Sample}
    (size : samples.length = 96000) (peak : Rat) :
    collectWhisperVadSpeech (Network.pulses peak) (some ⟨4000, by decide, [some 1]⟩) samples
        (1 / 2) =
      let output := collectSegments samples
        (whisperVadSegmentsFromProbs 4000 (filterParams (1 / 2)) (pulseProbs peak))
      .ok (!output.isEmpty, output, ⟨4000, by decide, pulseProbs peak⟩) := by
  have audio : samples.isEmpty = false := by
    rw [← Bool.not_eq_true, List.isEmpty_iff]
    rintro rfl
    cases size
  have detected : VadContext.detectSpeech ⟨4000, by decide, [some 1]⟩ (Network.pulses peak) samples =
      some ⟨4000, by decide, pulseProbs peak⟩ := by
    simp only [VadContext.detectSpeech, size]
    rfl
  simp only [collectWhisperVadSpeech, audio, detected]
  rfl

omit [Zero Sample] in
private theorem collectSegments_pulses {samples : List Sample} (size : samples.length = 96000) :
    collectSegments samples
        (whisperVadSegmentsFromProbs 4000 (filterParams (1 / 2)) (pulseProbs 1)) =
      samples.take 10400 ++ (samples.take 58400).drop 41600 := by
  have segments : whisperVadSegmentsFromProbs 4000 (filterParams (1 / 2)) (pulseProbs 1) =
      [⟨0, 65⟩, ⟨260, 365⟩] := by
    decide +kernel
  have places : speechPlace 96000 0 = 0 ∧ speechPlace 96000 65 = 10400 ∧
      speechPlace 96000 260 = 41600 ∧ speechPlace 96000 365 = 58400 := by
    decide +kernel
  obtain ⟨first, second, third, fourth⟩ := places
  rw [segments]
  simp [collectSegments, size, first, second, third, fourth]

/-- Whatever the network computes, the output is a part of the audio in its order, and
there is speech exactly if it is not empty. -/
theorem collectWhisperVadSpeech_sublist
    (done : collectWhisperVadSpeech network context samples threshold = .ok (found, output, after))
    (small : samples.length + after.nWindow ≤ 2 ^ 30) :
    output.Sublist samples ∧ (found = true ↔ output ≠ []) := by
  by_cases audio : samples = []
  · subst audio
    cases context with
    | none => cases done
    | some context =>
      cases done
      exact ⟨List.Sublist.refl _, by simp⟩
  · obtain ⟨_, rfl, rfl⟩ := collectWhisperVadSpeech_cases audio done small
    exact ⟨covered_sublist .., by simp⟩

/-- Six seconds of different samples. -/
def sixSeconds : List Int := (List.range 96000).map Int.ofNat

theorem length_sixSeconds : sixSeconds.length = 96000 := by
  rw [sixSeconds, List.length_map, List.length_range]

/-- The samples around its two pulses. -/
def twoPulses : List Int := sixSeconds.take 10400 ++ (sixSeconds.take 58400).drop 41600

theorem collectWhisperVadSpeech_sixSeconds :
    collectWhisperVadSpeech (Network.pulses 1) (some ⟨4000, by decide, [some 1]⟩) sixSeconds
        (1 / 2) = .ok (true, twoPulses, ⟨4000, by decide, pulseProbs 1⟩) := by
  have some : twoPulses.isEmpty = false := by
    rw [← Bool.not_eq_true, List.isEmpty_iff, ← List.length_eq_zero_iff]
    simp [twoPulses, length_sixSeconds]
  rw [collectWhisperVadSpeech_pulses length_sixSeconds, collectSegments_pulses length_sixSeconds,
    ← twoPulses]
  simp only [some]
  rfl

theorem collectWhisperVadSpeech_sublist_sixSeconds : ∃ found output after,
    collectWhisperVadSpeech (Network.pulses 1) (some ⟨4000, by decide, [some 1]⟩) sixSeconds
        (1 / 2) = .ok (found, output, after) ∧
      output.length = 27200 ∧ output.Sublist sixSeconds ∧ (found = true ↔ output ≠ []) := by
  refine ⟨true, twoPulses, _, collectWhisperVadSpeech_sixSeconds, ?_,
    collectWhisperVadSpeech_sublist collectWhisperVadSpeech_sixSeconds
      (by rw [length_sixSeconds]; decide)⟩
  simp [twoPulses, length_sixSeconds]

/-- The frame `index` is held by speech. -/
def SpeechFrame (after : VadContext) (threshold : Rat) (index : Nat) : Prop :=
  IsHeld (filterLimits after.nWindow).long (filterSignals threshold after.probs) index

theorem speechFrame_iff {index : Nat} (inside : index < after.probs.length) :
    SpeechFrame after threshold index ↔
      ∃ run ∈ filterRuns after.nWindow threshold after.probs, run.1 ≤ index ∧ index < run.2 :=
  (mem_detect ((filterLimits after.nWindow).shrinks (Int.natCast_nonneg _))
    (by rw [length_filterSignals]; exact inside)).symm

/-- Whether a place of the audio lies in one of the kept parts. -/
def keeps (after : VadContext) (threshold : Rat) (size place : Nat) : Bool :=
  ((filterRuns after.nWindow threshold after.probs).map
    (runPlaces size after.nWindow after.probs.length)).any fun interval => interval.contains place

theorem collectWhisperVadSpeech_keeps (audio : samples ≠ [])
    (done : collectWhisperVadSpeech network context samples threshold = .ok (found, output, after))
    (audible : Audible threshold) (small : samples.length + after.nWindow ≤ 2 ^ 28) :
    after.probs.length = chunkCount after.nWindow samples.length ∧
      after.probs.length * after.nWindow ≤ 2 ^ 28 ∧ found = !output.isEmpty ∧
      output = (samples.zipIdx.filter fun placed =>
        keeps after threshold samples.length placed.2).map Prod.fst := by
  obtain ⟨count, outputIs, isFound⟩ := collectWhisperVadSpeech_cases audio done (by omega)
  have window := after.positive
  have fits : after.probs.length * after.nWindow ≤ 2 ^ 28 := by
    have bounds := (chunkCount_bounds window samples.length).2
    rw [← count, mul_comm] at bounds
    omega
  rw [toPlaces_filter window audible (by omega)] at outputIs
  exact ⟨count, fits, isFound, outputIs⟩

section Keeps

variable {size place index : Nat}

theorem keeps_of_close (fits : after.probs.length * after.nWindow ≤ 2 ^ 28) (inside : place < size)
    (frame : index < after.probs.length) (held : SpeechFrame after threshold index)
    (above : (after.nWindow : Int) * index - 6320 ≤ place)
    (below : (place : Int) < after.nWindow * (index + 1) + 6320)
    (early : place + 80 < after.nWindow * after.probs.length) :
    keeps after threshold size place = true := by
  have shrinks := (filterLimits after.nWindow).shrinks (Int.natCast_nonneg _)
  obtain ⟨run, member, starts, ends⟩ := (speechFrame_iff frame).mp held
  obtain ⟨forward, bound⟩ := detect_forward shrinks member
  rw [length_filterSignals] at bound
  have first : (after.nWindow : Int) * run.1 ≤ after.nWindow * index :=
    Int.mul_le_mul_of_nonneg_left (by omega) (Int.natCast_nonneg _)
  have last : (after.nWindow : Int) * (index + 1) ≤ after.nWindow * run.2 :=
    Int.mul_le_mul_of_nonneg_left (by omega) (Int.natCast_nonneg _)
  rw [keeps, List.any_eq_true]
  exact ⟨_, List.mem_map_of_mem member,
    contains_runPlaces fits forward bound inside (by omega) (by omega) early⟩

theorem close_of_keeps (fits : after.probs.length * after.nWindow ≤ 2 ^ 28) (inside : place < size)
    (kept : keeps after threshold size place = true) :
    ∃ index < after.probs.length, SpeechFrame after threshold index ∧
      (after.nWindow : Int) * index - 6480 ≤ place ∧
      (place : Int) < after.nWindow * (index + 1) + 6480 := by
  have shrinks := (filterLimits after.nWindow).shrinks (Int.natCast_nonneg _)
  obtain ⟨interval, member, contains⟩ := List.any_eq_true.mp kept
  obtain ⟨run, runMember, rfl⟩ := List.mem_map.mp member
  obtain ⟨forward, bound⟩ := detect_forward shrinks runMember
  rw [length_filterSignals] at bound
  obtain ⟨above, below⟩ := close_of_contains_runPlaces fits forward bound inside contains
  obtain ⟨index, starts, ends, closeAbove, closeBelow⟩ :=
    exists_frame_of_run after.positive forward (by decide) above below
  exact ⟨index, by omega, (speechFrame_iff (by omega)).mpr ⟨run, runMember, starts, ends⟩,
    closeAbove, closeBelow⟩

end Keeps

/-- The output is what lies close to frames that speech holds: all within 395 ms of
them, except for the last 5 ms of the audio, and nothing beyond 405 ms. -/
theorem collectWhisperVadSpeech_reach
    (done : collectWhisperVadSpeech network context samples threshold = .ok (found, output, after))
    (audible : Audible threshold) (small : samples.length + after.nWindow ≤ 2 ^ 28) :
    ∃ kept : Nat → Bool,
      output = (samples.zipIdx.filter fun placed => kept placed.2).map Prod.fst ∧
      ∀ place < samples.length,
        (∀ index < after.probs.length, SpeechFrame after threshold index →
          (after.nWindow : Int) * index - 6320 ≤ place →
          (place : Int) < after.nWindow * (index + 1) + 6320 →
          place + 80 < after.nWindow * after.probs.length → kept place = true) ∧
        (kept place = true → ∃ index < after.probs.length, SpeechFrame after threshold index ∧
          (after.nWindow : Int) * index - 6480 ≤ place ∧
          (place : Int) < after.nWindow * (index + 1) + 6480) := by
  by_cases audio : samples = []
  · subst audio
    cases context with
    | none => cases done
    | some context =>
      cases done
      exact ⟨fun _ => false, rfl, nofun⟩
  · obtain ⟨_, fits, _, outputIs⟩ := collectWhisperVadSpeech_keeps audio done audible small
    refine ⟨keeps after threshold samples.length, outputIs, fun place inside => ⟨?_, ?_⟩⟩
    · intro index frame held above below early
      exact keeps_of_close fits inside frame held above below early
    · exact close_of_keeps fits inside

/-- The sample 5000 is kept because of the first window, and 20000 is close to no speech. -/
theorem collectWhisperVadSpeech_reach_sixSeconds : ∃ kept : Nat → Bool,
    twoPulses = (sixSeconds.zipIdx.filter fun placed => kept placed.2).map Prod.fst ∧
      kept 5000 = true ∧ kept 20000 = false := by
  have runs : filterRuns 4000 (1 / 2) (pulseProbs 1) = [(0, 1), (12, 13)] := by decide +kernel
  obtain ⟨kept, output, places⟩ := collectWhisperVadSpeech_reach
    collectWhisperVadSpeech_sixSeconds (audible_of_le (by norm_num))
    (by rw [length_sixSeconds]; decide)
  have speech {index : Nat} (inside : index < (pulseProbs 1).length) :
      SpeechFrame ⟨4000, by decide, pulseProbs 1⟩ (1 / 2) index ↔ index = 0 ∨ index = 12 := by
    rw [speechFrame_iff inside, runs]
    simp
    omega
  refine ⟨kept, output, ?_, ?_⟩
  · exact (places 5000 (by rw [length_sixSeconds]; decide)).1 0 (by decide)
      ((speech (by decide)).mpr (.inl rfl)) (by decide) (by decide) (by decide)
  · rw [← Bool.not_eq_true]
    intro isKept
    obtain ⟨index, inside, held, above, below⟩ :=
      (places 20000 (by rw [length_sixSeconds]; decide)).2 isKept
    rcases (speech inside).mp held with rfl | rfl <;> revert above below <;> decide

theorem frame_signal_loud (params : VadParams) (prob : Option Rat) :
    (params.frame prob).signal = .loud ↔ ∃ value, prob = some value ∧ params.threshold ≤ value := by
  have loud (frame : Frame) : frame.signal = .loud ↔ frame.speech = true := by
    obtain ⟨speech, silent⟩ := frame
    cases speech <;> cases silent <;> simp [Frame.signal]
  rw [loud, VadParams.frame, Option.any_eq_true]
  simp only [decide_eq_true_eq]

theorem filterSignals_loud {probs : List (Option Rat)} {index : Nat} :
    (filterSignals threshold probs)[index]? = some .loud ↔
      ∃ prob, probs[index]? = some (some prob) ∧ (filterParams threshold).threshold ≤ prob := by
  rw [filterSignals, List.map_map, List.getElem?_map, Option.map_eq_some_iff]
  constructor
  · intro mapped
    obtain ⟨prob, found, loud⟩ := mapped
    obtain ⟨value, rfl, reaches⟩ := (frame_signal_loud _ prob).mp loud
    exact ⟨value, found, reaches⟩
  · intro given
    obtain ⟨value, found, reaches⟩ := given
    exact ⟨some value, found, (frame_signal_loud _ _).mpr ⟨value, rfl, reaches⟩⟩

/-- There is speech exactly if some probability reaches the threshold. -/
theorem collectWhisperVadSpeech_found_iff (audio : samples ≠ [])
    (done : collectWhisperVadSpeech network context samples threshold = .ok (found, output, after))
    (audible : Audible threshold) (small : samples.length + after.nWindow ≤ 2 ^ 28)
    (wide : 80 < after.nWindow) :
    found = true ↔ ∃ prob, some prob ∈ after.probs ∧ (filterParams threshold).threshold ≤ prob := by
  obtain ⟨count, fits, rfl, outputIs⟩ := collectWhisperVadSpeech_keeps audio done audible small
  have nonempty : (!output.isEmpty) = true ↔ output ≠ [] := by simp
  rw [nonempty]
  constructor
  · intro nonempty
    obtain ⟨item, member⟩ := List.exists_mem_of_ne_nil _ nonempty
    rw [outputIs] at member
    obtain ⟨⟨_, place⟩, placed, -⟩ := List.mem_map.mp member
    obtain ⟨inside, isKept⟩ := List.mem_filter.mp placed
    have bound : place < samples.length := by
      have := List.snd_lt_of_mem_zipIdx inside
      omega
    obtain ⟨index, _, ⟨start, _, startLoud, _⟩, _⟩ := close_of_keeps fits bound isKept
    obtain ⟨prob, found, reaches⟩ := filterSignals_loud.mp startLoud
    exact ⟨prob, List.mem_of_getElem? found, reaches⟩
  · rintro ⟨prob, member, reaches⟩
    obtain ⟨index, found⟩ := List.mem_iff_getElem?.mp member
    obtain ⟨inside, -⟩ := List.getElem?_eq_some_iff.mp found
    have held : SpeechFrame after threshold index :=
      ⟨index, Nat.le_refl _, filterSignals_loud.mpr ⟨prob, found, reaches⟩, by omega⟩
    have windows : after.nWindow * index + after.nWindow ≤ after.nWindow * after.probs.length := by
      rw [← Nat.mul_succ]
      exact Nat.mul_le_mul_left _ inside
    have bounds := (chunkCount_bounds after.positive samples.length).2
    rw [← count] at bounds
    have bound : after.nWindow * index < samples.length := by omega
    have isKept : keeps after threshold samples.length (after.nWindow * index) = true := by
      refine keeps_of_close fits bound inside held ?_ ?_ (by omega)
      · push_cast
        omega
      · push_cast
        rw [mul_add]
        omega
    have here : (samples[after.nWindow * index], after.nWindow * index) ∈ samples.zipIdx :=
      List.mk_mem_zipIdx_iff_getElem?.mpr (List.getElem?_eq_getElem bound)
    have collected : samples[after.nWindow * index] ∈ output := by
      rw [outputIs]
      exact List.mem_map.mpr ⟨_, List.mem_filter.mpr ⟨here, isKept⟩, rfl⟩
    exact List.ne_nil_of_mem collected

/-- Pulses that reach the threshold are speech, those below it are none. -/
theorem collectWhisperVadSpeech_found_iff_pulses :
    (∃ output after, collectWhisperVadSpeech (Network.pulses (1 / 2))
        (some ⟨4000, by decide, [some 1]⟩) sixSeconds (1 / 2) = .ok (true, output, after)) ∧
      ∃ output after, collectWhisperVadSpeech (Network.pulses (2 / 5))
        (some ⟨4000, by decide, [some 1]⟩) sixSeconds (1 / 2) = .ok (false, output, after) := by
  have audio : sixSeconds ≠ [] := List.ne_nil_of_length_pos (by rw [length_sixSeconds]; decide)
  have speech (peak : Rat) := collectWhisperVadSpeech_found_iff audio
    (collectWhisperVadSpeech_pulses length_sixSeconds peak) (audible_of_le (by norm_num))
    (by rw [length_sixSeconds]; norm_num) (by norm_num)
  have loud := (speech (1 / 2)).mpr ⟨1 / 2, by decide +kernel, by norm_num [filterParams]⟩
  have faint := Bool.not_eq_true _ ▸ mt (speech (2 / 5)).mp (by
    rintro ⟨prob, member, reaches⟩
    have low : ∀ prob ∈ pulseProbs (2 / 5), prob.all fun prob => prob < 1 / 2 := by decide +kernel
    have below := low _ member
    norm_num [filterParams] at below reaches
    linarith)
  have first := collectWhisperVadSpeech_pulses length_sixSeconds (1 / 2)
  have second := collectWhisperVadSpeech_pulses length_sixSeconds (2 / 5)
  simp only [loud] at first
  simp only [faint] at second
  exact ⟨⟨_, _, first⟩, ⟨_, _, second⟩⟩

end LocalWhisper.WhisperVad
