import LocalWhisper.WhisperMel.Transform
import LocalWhisper.Machine.Schedules

/-! `log_mel_spectrogram` of `whisper.cpp`: the padded samples, the threads that compute
every so many frames into one array, and the clamping of their levels, in exact
arithmetic. -/

namespace LocalWhisper.WhisperMel

open CTranslate2 (Complex)
open Machine

/-- `WHISPER_SAMPLE_RATE`. -/
def whisperSampleRate : Nat := 16000

/-- `WHISPER_HOP_LENGTH`. -/
def whisperHopLength : Nat := 160

/-- `whisper_filters`. -/
structure Filters (Value : Type) where
  nMel : Nat
  nFft : Nat
  data : List Value

/-- `whisper_mel`. -/
structure Mel (Value : Type) where
  nLen : Nat
  nLenOrg : Int
  nMel : Nat
  data : List Value

structure MelJob (Value : Type) where
  cache : GlobalCache Value
  log10 : Value → Value
  samples : List Value
  nSamples : Nat
  nThreads : Nat
  filters : Filters Value
  nLen : Nat

/-- Where a thread stands: before a frame, or before a level of one, computed or
silent. -/
inductive MelStage where
  | frame
  | level (mel : Nat)
  | silence (mel : Nat)
  | finished
  deriving DecidableEq, Repr

/-- The variables of a thread: `fft_in` and `fft_out`, and `i`. -/
structure MelThread (Value : Type) where
  memory : Memory MelArea Value
  frame : Nat
  stage : MelStage

/-- What the threads share: `mel.data`. -/
structure MelThreads (Value : Type) where
  threads : List (MelThread Value)
  data : List Value

section Worker

variable {Value : Type} [Field Value] (job : MelJob Value)

def windowSample (offset j : Nat) (memory : Memory MelArea Value) :
    Option (Memory MelArea Value) := do
  let factor ← job.cache.hannWindow[j]?
  let sample ← job.samples[offset + j]?
  store memory ⟨.fftIn, j⟩ (factor * sample)

/-- The samples of a frame, and zeros from the last one to the end of the array. -/
def fillFrame (offset : Nat) (memory : Memory MelArea Value) : Option (Memory MelArea Value) := do
  let rest := job.nSamples - offset
  let memory ← forRange (min whisperNFft rest) (windowSample job offset) memory
  forRange (if rest < whisperNFft then MelArea.fftIn.room - rest else 0)
    (fun j memory => store memory ⟨.fftIn, rest + j⟩ 0) memory

/-- The square of a modulus, over the points that they are made of. -/
def squareModulus (j : Nat) (memory : Memory MelArea Value) : Option (Memory MelArea Value) := do
  let re ← load memory ⟨.fftOut, 2 * j⟩
  let im ← load memory ⟨.fftOut, 2 * j + 1⟩
  store memory ⟨.fftOut, j⟩ (re * re + im * im)

/-- What `fft_out` holds behind the transform of a frame. -/
def transformFrame (frame : Nat) (memory : Memory MelArea Value) :
    Option (Memory MelArea Value) := do
  let memory ← fillFrame job (frame * whisperHopLength) memory
  let memory ← fft job.cache ⟨.fftIn, 0⟩ whisperNFft ⟨.fftOut, 0⟩ memory
  forRange job.filters.nFft squareModulus memory

/-- `fft_out[k] * filters.data[j * n_fft + k]`. -/
def filtered (memory : Memory MelArea Value) (mel k : Nat) : Option Value := do
  let power ← load memory ⟨.fftOut, k⟩
  let factor ← job.filters.data[mel * job.filters.nFft + k]?
  return power * factor

/-- The sum of a filter: four products at once, then the remainder. -/
def melSum (memory : Memory MelArea Value) (mel : Nat) : Option Value :=
  vectorised true 4 job.filters.nFft
    (fun k sum => do
      let first ← filtered job memory mel k
      let second ← filtered job memory mel (k + 1)
      let third ← filtered job memory mel (k + 2)
      let fourth ← filtered job memory mel (k + 3)
      return sum + (first + second + third + fourth))
    (fun k sum => do
      let product ← filtered job memory mel k
      return sum + product)
    0

/-- `1e-10`. -/
def smallestEnergy : Value := 1 / ((10 ^ 10 : Nat) : Value)

variable [LinearOrder Value]

/-- The frames that are not all zero: `std::min(n_samples / frame_step + 1, mel.n_len)`. -/
def MelJob.activeFrames (job : MelJob Value) : Nat :=
  min (job.nSamples / whisperHopLength + 1) job.nLen

/-- What a thread does next, and what it writes to `mel.data`. -/
def MelThread.next (thread : MelThread Value) :
    Option (MelThread Value × Option (Nat × Value)) :=
  let cell (mel : Nat) : Nat := mel * job.nLen + thread.frame
  match thread.stage with
  | .frame =>
    if thread.frame < job.activeFrames then do
      let memory ← transformFrame job thread.frame thread.memory
      return ({ thread with memory, stage := .level 0 }, none)
    else if thread.frame < job.nLen then some ({ thread with stage := .silence 0 }, none)
    else some ({ thread with stage := .finished }, none)
  | .level mel =>
    if mel < job.filters.nMel then do
      let sum ← melSum job thread.memory mel
      return ({ thread with stage := .level (mel + 1) },
        some (cell mel, job.log10 (max sum smallestEnergy)))
    else some ({ thread with frame := thread.frame + job.nThreads, stage := .frame }, none)
  | .silence mel =>
    if mel < job.filters.nMel then
      some ({ thread with stage := .silence (mel + 1) },
        some (cell mel, job.log10 smallestEnergy))
    else some ({ thread with frame := thread.frame + job.nThreads, stage := .frame }, none)
  | .finished => none

/-- A step of one thread. -/
def melStep : Step (MelThreads Value) Nat := fun state index => do
  let thread ← state.threads[index]?
  let (next, written) ← thread.next job
  let data ← match written with
    | none => some state.data
    | some (cell, level) => writeAt state.data cell level
  return ⟨state.threads.set index next, data⟩

end Worker

section Call

variable {Value : Type} [Field Value] [LinearOrder Value]

/-- `samples_padded`: 200 samples reflected in front, then the samples and 30 seconds of
zeros with 200 more. The reflection reads 200 samples behind the first. -/
def paddedSamples (samples : List Value) : Option (List Value) := do
  let front ← (List.range 200).mapM fun place => samples[200 - place]?
  return front ++ samples ++ List.replicate (whisperSampleRate * 30 + 200) 0

/-- The loop that looks for the largest level. -/
def largestLevel (data : List Value) : Value :=
  data.foldl (fun mmax level => if level > mmax then level else mmax) (-((10 ^ 20 : Nat) : Value))

def clamped (mmax level : Value) : Value :=
  ((if level < mmax then mmax else level) + (4 : Nat)) / (4 : Nat)

def jobOf (cache : GlobalCache Value) (log10 : Value → Value) (filters : Filters Value)
    (nThreads : Nat) (samples padded : List Value) : MelJob Value where
  cache
  log10
  samples := padded
  nSamples := samples.length + 200
  nThreads
  filters
  nLen := (padded.length - whisperNFft) / whisperHopLength

/-- What they find. -/
def threadsOf (job : MelJob Value) (before : Mel Value) : MelThreads Value where
  threads := (List.range job.nThreads).map fun ith => ⟨fun _ _ => 0, ith, .frame⟩
  data := resize before.data (job.filters.nMel * job.nLen) 0

def framesLeft (job : MelJob Value) (frame : Nat) : Nat :=
  (job.nLen - frame + job.nThreads - 1) / job.nThreads

/-- Every thread makes all its steps: two for every frame and one for each of its levels,
and one to end. -/
def OrderOf (job : MelJob Value) (schedule : List Nat) : Prop :=
  Complete (fun ith => if ith < job.nThreads then
    framesLeft job ith * (job.filters.nMel + 2) + 1 else 0) schedule

/-- `log_mel_spectrogram` for frames of `WHISPER_N_FFT` samples. There are as many filters
as `n_mel` says, the assertion of the threads holds of them, and `std::vector` has no room
for fewer threads than none. -/
def logMelSpectrogram (cache : GlobalCache Value) (log10 : Value → Value)
    (filters : Filters Value) (nThreads : Nat) (samples : List Value)
    (before : Mel Value) (schedule : List Nat) : Option (Mel Value) := do
  let padded ← paddedSamples samples
  let job := jobOf cache log10 filters nThreads samples padded
  if nThreads = 0 ∨ filters.nFft ≠ 1 + whisperNFft / 2 then none
  else do
    let ended ← execute (melStep job) (threadsOf job before) schedule
    if ended.threads.all fun thread => thread.stage = .finished then
      some {
        nLen := job.nLen
        nLenOrg := 1 + ((samples.length : Int) + 200 - whisperNFft).tdiv whisperHopLength
        nMel := filters.nMel
        data := ended.data.map (clamped (largestLevel ended.data - (8 : Nat))) }
    else none

end Call

end LocalWhisper.WhisperMel
