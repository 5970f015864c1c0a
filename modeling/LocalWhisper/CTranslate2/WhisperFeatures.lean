import LocalWhisper.CTranslate2.FeatureKernels
import LocalWhisper.CTranslate2.ParallelFor
import LocalWhisper.Machine.Schedules

/-! `whisper-feature-extractor.cpp` around the kernels: the workspace that calls share,
the blocks of frames that threads compute side by side, and the features of one call,
in exact arithmetic. -/

namespace LocalWhisper.CTranslate2

open Machine

/-- `kFftHalfSize`. -/
def kFftHalfSize : Nat := 200

/-- `kHopLength`. -/
def kHopLength : Nat := 160

/-- `kChunkSamples`. -/
def kChunkSamples : Nat := 30 * 16000

/-- `kFrames`. -/
def kFrames : Nat := 3000

variable {Value : Type} [Field Value]

/-- `kHzPerLinearMel`. -/
def kHzPerLinearMel : Value := 666666666666666667 / 10 ^ 16

/-- `kMelLogStep`. -/
def kMelLogStep : Value := 687517774209491 / 10 ^ 16

/-- `kMinimumMelEnergy`. -/
def kMinimumMelEnergy : Value := 1 / 10 ^ 10

/-- `kInitialLogMel`. -/
def kInitialLogMel : Value := -10

/-- What does not change while the program runs: whether it has the vector
instructions, its root of unity, its tables and the logarithm. -/
structure Extractor (Value : Type) [Field Value] where
  neon : Bool
  root : Complex Value
  unity : root ^ kFftSize = 1
  hann : List Value
  hannSize : hann.length = kFftSize
  makeMelFilters : Nat → List Value
  filtersSize : ∀ nMels, (makeMelFilters nMels).length = nMels * kFftBins
  log10 : Value → Value

/-- `WhisperFeatureThreadWorkspace`. -/
structure ThreadWorkspace (Value : Type) [Field Value] where
  power : List Value
  fftInput : List (Complex Value)
  fftOutput : List (Complex Value)
  fftScratch : List (Complex Value)

namespace ThreadWorkspace

def fresh : ThreadWorkspace Value := ⟨[], [], [], []⟩

def prepared (thread : ThreadWorkspace Value) : ThreadWorkspace Value where
  power := resize thread.power kFftBins 0
  fftInput := resize thread.fftInput kFftSize 0
  fftOutput := resize thread.fftOutput kFftSize 0
  fftScratch := resize thread.fftScratch kFftSize 0

def memory (thread : ThreadWorkspace Value) : Memory FftArea (Complex Value)
  | .input, index => thread.fftInput.getD index 0
  | .output, index => thread.fftOutput.getD index 0
  | .scratch, index => thread.fftScratch.getD index 0

def withMemory (thread : ThreadWorkspace Value) (memory : Memory FftArea (Complex Value)) :
    ThreadWorkspace Value :=
  { thread with
    fftInput := (List.range kFftSize).map (memory .input)
    fftOutput := (List.range kFftSize).map (memory .output)
    fftScratch := (List.range kFftSize).map (memory .scratch) }

/-- `fft` on the three buffers of a thread. -/
def transform (extractor : Extractor Value) (thread : ThreadWorkspace Value) :
    Option (ThreadWorkspace Value) :=
  if thread.fftInput.length = kFftSize ∧ thread.fftOutput.length = kFftSize ∧
      thread.fftScratch.length = kFftSize then do
    let memory ← fft (fun index => extractor.root ^ index) ⟨.input, 0⟩ 1 ⟨.output, 0⟩
      ⟨.scratch, 0⟩ kFftSize thread.memory
    return thread.withMemory memory
  else none

end ThreadWorkspace

/-- `WhisperFeatureWorkspace`. -/
structure Workspace (Value : Type) [Field Value] where
  audio : List Value := []
  hann : List Value := []
  customFilters : List Value := []
  customFilterMels : Nat := 0
  numThreads : Nat := 1
  threadWorkspaces : List (ThreadWorkspace Value) := []
  threadMaxima : List Value := []

/-- `prepare_whisper_feature_workspace`. -/
def prepareWhisperFeatureWorkspace (extractor : Extractor Value) (nMels : Nat)
    (workspace : Workspace Value) (numThreads : Nat) : Except String (Workspace Value) :=
  if nMels = 0 then .error "n_mels must be greater than 0"
  else
    let threads := if numThreads > 0 then numThreads else workspace.numThreads
    let custom := nMels ≠ 80 ∧ nMels ≠ 128 ∧ workspace.customFilterMels ≠ nMels
    .ok
      { audio := resize workspace.audio kChunkSamples 0
        hann := if workspace.hann.length ≠ kFftSize then extractor.hann else workspace.hann
        customFilters := if custom then extractor.makeMelFilters nMels else workspace.customFilters
        customFilterMels := if custom then nMels else workspace.customFilterMels
        numThreads := threads
        threadWorkspaces := (resize workspace.threadWorkspaces threads .fresh).map .prepared
        threadMaxima := resize workspace.threadMaxima threads 0 }

/-- What the function of `parallel_for` captures and only reads. -/
structure Job (Value : Type) where
  audio : List Value
  hann : List Value
  filters : List Value
  nMels : Nat

/-- Where a thread stands in its block. -/
inductive Stage where
  | waiting
  | window
  | transform
  | power
  | mel (mel : Nat)
  | finished
  deriving DecidableEq, Repr

/-- One call of the function: its two arguments and its variables. -/
structure Block (Value : Type) where
  first : Nat
  stop : Nat
  frame : Nat
  stage : Stage
  workspaceIndex : Nat
  localMaximum : Value

/-- What the threads share while they compute. -/
structure Threads (Value : Type) [Field Value] where
  threadWorkspaces : List (ThreadWorkspace Value)
  threadMaxima : List Value
  output : List Value
  nextWorkspace : Nat
  blocks : List (Block Value)

namespace Threads

def proceed (state : Threads Value) (index : Nat) (block : Block Value) : Threads Value :=
  { state with blocks := state.blocks.set index block }

/-- A thread goes on with other contents of its buffers. -/
def buffered (state : Threads Value) (index : Nat) (block : Block Value)
    (thread : ThreadWorkspace Value) : Threads Value :=
  { state with
    threadWorkspaces := state.threadWorkspaces.set block.workspaceIndex thread
    blocks := state.blocks.set index block }

end Threads

variable [LinearOrder Value]

/-- The next kernel of one block, or the next mel value. There is no step for a
block that is finished, and none with an access outside an array. -/
def blockStep (extractor : Extractor Value) (job : Job Value) : Step (Threads Value) Nat :=
  fun state index => do
    let block ← state.blocks[index]?
    match block.stage with
    | .waiting =>
      if state.nextWorkspace < state.threadWorkspaces.length then
        some { state.proceed index { block with
            stage := .window
            workspaceIndex := state.nextWorkspace
            localMaximum := kInitialLogMel } with
          nextWorkspace := state.nextWorkspace + 1 }
      else none
    | .window =>
      if block.frame < block.stop then do
        let thread ← state.threadWorkspaces[block.workspaceIndex]?
        let fftInput ← makeWindowedFrame extractor.neon job.audio job.hann
          ((block.frame * kHopLength : Nat) - (kFftHalfSize : Int)) thread.fftInput
        return state.buffered index { block with stage := .transform }
          { thread with fftInput := fftInput }
      else do
        let threadMaxima ← writeAt state.threadMaxima block.workspaceIndex block.localMaximum
        return { state.proceed index { block with stage := .finished } with
          threadMaxima := threadMaxima }
    | .transform => do
      let thread ← state.threadWorkspaces[block.workspaceIndex]?
      let transformed ← thread.transform extractor
      return state.buffered index { block with stage := .power } transformed
    | .power => do
      let thread ← state.threadWorkspaces[block.workspaceIndex]?
      let power ← calculatePower extractor.neon thread.fftOutput thread.power
      return state.buffered index { block with stage := .mel 0 } { thread with power := power }
    | .mel mel =>
      if mel < job.nMels then do
        let thread ← state.threadWorkspaces[block.workspaceIndex]?
        let energy ← dotProduct extractor.neon (job.filters.drop (mel * kFftBins)) thread.power
          kFftBins
        let value := extractor.log10 (max energy kMinimumMelEnergy)
        let output ← writeAt state.output (mel * kFrames + block.frame) value
        return { state.proceed index { block with
            stage := .mel (mel + 1)
            localMaximum := max block.localMaximum value } with
          output := output }
      else
        some (state.proceed index { block with stage := .window, frame := block.frame + 1 })
    | .finished => none

/-- A call of the function before its thread has begun. -/
def Block.ofRange (range : Nat × Nat) : Block Value :=
  ⟨range.1, range.2, range.1, .waiting, 0, kInitialLogMel⟩

/-- `active_frames`. -/
def activeFrames (copiedSamples : Nat) : Nat :=
  min kFrames ((copiedSamples + kFftHalfSize + kHopLength - 1) / kHopLength)

/-- `*std::max_element` of the first `count` values. -/
def maxElement (values : List Value) (count : Nat) : Option Value :=
  if count ≤ values.length then
    match values.take count with
    | [] => none
    | first :: rest => some (rest.foldl max first)
  else none

/-- What the threads read in a call on a prepared workspace. -/
def jobOf (extractor : Extractor Value) (samples : List Value) (nMels : Nat)
    (workspace : Workspace Value) : Job Value where
  audio :=
    samples.take workspace.audio.length ++
      (List.replicate workspace.audio.length 0).drop (min samples.length workspace.audio.length)
  hann := workspace.hann
  filters :=
    if nMels = 80 then extractor.makeMelFilters 80
    else if nMels = 128 then extractor.makeMelFilters 128
    else workspace.customFilters
  nMels := nMels

/-- What the threads find in a call on a prepared workspace. -/
def threadsOf (nMels : Nat) (output : List Value) (workspace : Workspace Value)
    (ranges : List (Nat × Nat)) : Threads Value where
  threadWorkspaces := workspace.threadWorkspaces
  threadMaxima := List.replicate workspace.threadMaxima.length kInitialLogMel
  output := List.replicate (resize output (nMels * kFrames) 0).length kInitialLogMel
  nextWorkspace := 0
  blocks := ranges.map .ofRange

/-- The steps of a block: two, four for every frame and one for each of its mel
values. -/
def stepsOf (nMels : Nat) (ranges : List (Nat × Nat)) (index : Nat) : Nat :=
  (ranges[index]?.map fun range => (range.2 - range.1) * (nMels + 4) + 2).getD 0

def OrderOf (nMels : Nat) (ranges : List (Nat × Nat)) (schedule : List Nat) : Prop :=
  Complete (stepsOf nMels ranges) schedule

/-- `make_whisper_features`, with `frames` in place of the formula for `active_frames`.
`parallel_for` calls its function on `ranges`, the threads make their steps in the
order of `schedule`, and the call waits until all have finished. -/
def makeFeatures (frames : Nat → Nat) (extractor : Extractor Value) (samples : List Value)
    (nMels : Nat) (output : List Value) (workspace : Workspace Value)
    (parallelFor : ParallelFor) (schedule : List Nat) :
    Option (Except String (List Value × Workspace Value)) :=
  match prepareWhisperFeatureWorkspace extractor nMels workspace 0 with
  | .error text => some (.error text)
  | .ok workspace => do
    let job := jobOf extractor samples nMels workspace
    let active := frames (min samples.length workspace.audio.length)
    let ended ← execute (blockStep extractor job)
      (threadsOf nMels output workspace (parallelFor.ranges active workspace.numThreads)) schedule
    if ended.blocks.all fun block => block.stage = .finished then do
      let maximum ← maxElement ended.threadMaxima ended.nextWorkspace
      let features ← normalizeFeatures extractor.neon ended.output maximum
      return .ok (features, { workspace with
        audio := job.audio
        threadWorkspaces := ended.threadWorkspaces
        threadMaxima := ended.threadMaxima })
    else none

/-- `make_whisper_features`. -/
def makeWhisperFeatures (extractor : Extractor Value) (samples : List Value) (nMels : Nat)
    (output : List Value) (workspace : Workspace Value) (parallelFor : ParallelFor)
    (schedule : List Nat) : Option (Except String (List Value × Workspace Value)) :=
  makeFeatures activeFrames extractor samples nMels output workspace parallelFor schedule

/-- The calls that a workspace is passed to. -/
inductive Call (Value : Type) where
  | prepare (nMels numThreads : Nat)
  | make (samples : List Value) (nMels : Nat) (output : List Value) (parallelFor : ParallelFor)
      (schedule : List Nat)

/-- The workspace behind a call; a call that throws leaves it as it was. -/
def callStep (extractor : Extractor Value) : Step (Workspace Value) (Call Value)
  | workspace, .prepare nMels numThreads =>
    match prepareWhisperFeatureWorkspace extractor nMels workspace numThreads with
    | .ok prepared => some prepared
    | .error _ => some workspace
  | workspace, .make samples nMels output parallelFor schedule =>
    (makeWhisperFeatures extractor samples nMels output workspace parallelFor schedule).map
      fun
      | .ok (_, used) => used
      | .error _ => workspace

end LocalWhisper.CTranslate2
