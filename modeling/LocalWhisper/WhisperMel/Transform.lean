import LocalWhisper.CTranslate2.FeatureKernels

/-! The transform of `whisper.cpp`: a radix-2 FFT that keeps its halves behind the input
and the output, with a table of sines and cosines, in exact arithmetic. -/

namespace LocalWhisper.WhisperMel

open CTranslate2 (Complex)
open Machine

/-- `WHISPER_N_FFT` and `SIN_COS_N_COUNT`. -/
def whisperNFft : Nat := 400

/-- `whisper_global_cache`. -/
structure GlobalCache (Value : Type) where
  sinVals : List Value
  cosVals : List Value
  hannWindow : List Value

/-- `fill_sin_cos_table` and `fill_hann_window`. -/
def globalCache {Value : Type} [Field Value] (sin cos : Value → Value) (pi : Value) :
    GlobalCache Value :=
  let theta (i : Nat) : Value := (2 : Nat) * pi * i / whisperNFft
  { sinVals := (List.range whisperNFft).map fun i => sin (theta i)
    cosVals := (List.range whisperNFft).map fun i => cos (theta i)
    hannWindow := (List.range whisperNFft).map fun i =>
      1 / (2 : Nat) * (1 - cos (theta i)) }

/-- The two arrays of a thread. -/
inductive MelArea where
  | fftIn
  | fftOut
  deriving DecidableEq, Repr

/-- Their lengths for frames of `WHISPER_N_FFT` samples. -/
def MelArea.room : MelArea → Nat
  | fftIn => whisperNFft * 2
  | fftOut => whisperNFft * 2 * 2 * 2

section Memory

variable {Value : Type}

def load (memory : Memory MelArea Value) (pointer : Pointer MelArea) : Option Value :=
  memory.read pointer.area.room pointer

def store (memory : Memory MelArea Value) (pointer : Pointer MelArea) (value : Value) :
    Option (Memory MelArea Value) :=
  memory.write pointer.area.room pointer value

/-- `*target = *source`. -/
def copy (source target : Pointer MelArea) (memory : Memory MelArea Value) :
    Option (Memory MelArea Value) := do
  let value ← load memory source
  store memory target value

theorem load_inside (memory : Memory MelArea Value) {pointer : Pointer MelArea}
    (inside : pointer.offset < pointer.area.room) :
    load memory pointer = some (memory.get pointer) := memory.read_inside inside

theorem store_inside (memory : Memory MelArea Value) {pointer : Pointer MelArea} (value : Value)
    (inside : pointer.offset < pointer.area.room) :
    store memory pointer value = some (memory.set pointer value) := memory.write_inside value inside

end Memory

section Transform

variable {Value : Type} [Field Value] (cache : GlobalCache Value)

/-- A pass of the inner loop of `dft`. -/
def dftTerm (input : Pointer MelArea) (n k : Nat) (memory : Memory MelArea Value) (t : Nat)
    (sums : Value × Value) : Option (Value × Value) := do
  let index := (k * t * (whisperNFft / n)) % whisperNFft
  let sample ← load memory (input.advance t)
  let cosine ← cache.cosVals[index]?
  let sine ← cache.sinVals[index]?
  return (sums.1 + sample * cosine, sums.2 - sample * sine)

/-- A pass of the outer loop. -/
def dftPoint (input : Pointer MelArea) (n : Nat) (output : Pointer MelArea) (k : Nat)
    (memory : Memory MelArea Value) : Option (Memory MelArea Value) := do
  let sums ← forRange n (dftTerm cache input n k memory) (0, 0)
  let memory ← store memory (output.advance (k * 2)) sums.1
  store memory (output.advance (k * 2 + 1)) sums.2

/-- `dft`. -/
def dft (input : Pointer MelArea) (n : Nat) (output : Pointer MelArea)
    (memory : Memory MelArea Value) : Option (Memory MelArea Value) :=
  forRange n (dftPoint cache input n output) memory

/-- A pass of the last loop of `fft`. -/
def butterfly (n : Nat) (output evenFft oddFft : Pointer MelArea) (k : Nat)
    (memory : Memory MelArea Value) : Option (Memory MelArea Value) := do
  let halfN := n / 2
  let index := k * (whisperNFft / n)
  let re ← cache.cosVals[index]?
  let sine ← cache.sinVals[index]?
  let im := -sine
  let reOdd ← load memory (oddFft.advance (2 * k))
  let imOdd ← load memory (oddFft.advance (2 * k + 1))
  let reEven ← load memory (evenFft.advance (2 * k))
  let imEven ← load memory (evenFft.advance (2 * k + 1))
  let memory ← store memory (output.advance (2 * k)) (reEven + re * reOdd - im * imOdd)
  let memory ← store memory (output.advance (2 * k + 1)) (imEven + re * imOdd + im * reOdd)
  let memory ← store memory (output.advance (2 * (k + halfN))) (reEven - re * reOdd + im * imOdd)
  store memory (output.advance (2 * (k + halfN) + 1)) (imEven - re * imOdd - im * reOdd)

/-- `fft`; the recursion on no points at all has no end. -/
def fft (input : Pointer MelArea) (n : Nat) (output : Pointer MelArea)
    (memory : Memory MelArea Value) : Option (Memory MelArea Value) :=
  if n = 0 then none
  else if n = 1 then do
    let sample ← load memory input
    let memory ← store memory output sample
    store memory (output.advance 1) 0
  else if n - n / 2 * 2 = 1 then dft cache input n output memory
  else do
    let even := input.advance n
    let memory ← forRange (n / 2) (fun i => copy (input.advance (2 * i)) (even.advance i)) memory
    let evenFft := output.advance (2 * n)
    let memory ← fft even (n / 2) evenFft memory
    let odd := even
    let memory ← forRange (n / 2) (fun i => copy (input.advance (2 * i + 1)) (odd.advance i)) memory
    let oddFft := evenFft.advance n
    let memory ← fft odd (n / 2) oddFft memory
    forRange (n / 2) (butterfly cache n output evenFft oddFft) memory
termination_by n
decreasing_by all_goals omega

end Transform

section Spectrum

variable {Value : Type} [Field Value]

/-- The table holds the powers of a root that makes half a turn in half its entries. -/
structure Turning (cache : GlobalCache Value) (root : Complex Value) : Prop where
  half : root ^ 200 = -1
  cosines : ∀ index < whisperNFft, cache.cosVals[index]? = some (root ^ index).re
  sines : ∀ index < whisperNFft, cache.sinVals[index]? = some (-(root ^ index).im)

theorem Turning.unity {cache : GlobalCache Value} {root : Complex Value}
    (turning : Turning cache root) : root ^ whisperNFft = 1 := by
  have whole : whisperNFft = 200 * 2 := rfl
  rw [whole, pow_mul, turning.half, neg_one_sq]

/-- The transform of real samples. -/
def realDft (root : Complex Value) (samples : Nat → Value) (n k : Nat) : Complex Value :=
  Machine.dft root (fun t => ⟨samples t, 0⟩) n k

def interleaved (values : Nat → Complex Value) (index : Nat) : Value :=
  if index % 2 = 0 then (values (index / 2)).re else (values (index / 2)).im

theorem interleaved_re (values : Nat → Complex Value) (k : Nat) :
    interleaved values (2 * k) = (values k).re := by
  rw [interleaved, if_pos (Nat.mul_mod_right 2 k), Nat.mul_div_cancel_left k (by decide)]

theorem interleaved_im (values : Nat → Complex Value) (k : Nat) :
    interleaved values (2 * k + 1) = (values k).im := by
  rw [interleaved, if_neg (by omega)]
  congr 2
  omega

/-- The input has room for its halves, and so has the output. -/
structure FftCall (input : Pointer MelArea) (n : Nat) (output : Pointer MelArea) : Prop where
  inputArea : input.area = .fftIn
  outputArea : output.area = .fftOut
  inputRoom : input.offset + 2 * n ≤ MelArea.fftIn.room
  outputRoom : output.offset + 6 * n ≤ MelArea.fftOut.room

/-- A call leaves the transform and changes nothing before its rooms or behind them. -/
structure Transformed (root : Complex Value) (input : Pointer MelArea) (n : Nat)
    (output : Pointer MelArea) (before after : Memory MelArea Value) : Prop where
  points : ∀ index < 2 * n, after.get (output.advance index) =
    interleaved (realDft root (fun t => before.get (input.advance t)) n) index
  kept : ∀ other, ¬ (input.advance n).Within n other → ¬ output.Within (6 * n) other →
    after.get other = before.get other

theorem realDft_congr {root : Complex Value} {samples other : Nat → Value} {n : Nat} (k : Nat)
    (same : ∀ t < n, samples t = other t) : realDft root samples n k = realDft root other n k :=
  dft_congr k fun t below => by rw [same t below]

theorem realDft_succ (root : Complex Value) (samples : Nat → Value) (n k : Nat) :
    realDft root samples (n + 1) k =
      realDft root samples n k + ⟨samples n, 0⟩ * root ^ (k * n) :=
  Finset.sum_range_succ _ n

end Spectrum

section Odd

variable {Value : Type} [Field Value] {cache : GlobalCache Value} {root : Complex Value}
variable {input output : Pointer MelArea} {n : Nat}

/-- The entry of the table for an exponent. -/
theorem Turning.entry (turning : Turning cache root) (exponent step : Nat) :
    cache.cosVals[(exponent * step) % whisperNFft]? = some ((root ^ step) ^ exponent).re ∧
      cache.sinVals[(exponent * step) % whisperNFft]? = some (-((root ^ step) ^ exponent).im) := by
  have inside : (exponent * step) % whisperNFft < whisperNFft := Nat.mod_lt _ (by decide)
  have power : root ^ ((exponent * step) % whisperNFft) = (root ^ step) ^ exponent := by
    rw [pow_mod_of_root turning.unity, Nat.mul_comm, pow_mul]
  rw [← power]
  exact ⟨turning.cosines _ inside, turning.sines _ inside⟩

private theorem dftSums_eq (turning : Turning cache root) (call : FftCall input n output) (k : Nat)
    (memory : Memory MelArea Value) {samples : Nat → Value}
    (found : ∀ t < n, memory.get (input.advance t) = samples t) :
    forRange n (dftTerm cache input n k memory) (0, 0) =
      some ((realDft (root ^ (whisperNFft / n)) samples n k).re,
        (realDft (root ^ (whisperNFft / n)) samples n k).im) := by
  apply forRange_states fun passes => ((realDft (root ^ (whisperNFft / n)) samples passes k).re,
    (realDft (root ^ (whisperNFft / n)) samples passes k).im)
  intro t below
  have inside : (input.advance t).offset < (input.advance t).area.room := by
    have room := call.inputRoom
    rw [Pointer.advance_area, call.inputArea, Pointer.advance_offset]
    omega
  obtain ⟨cosine, sine⟩ := turning.entry (k * t) (whisperNFft / n)
  simp only [dftTerm, load_inside memory inside, cosine, sine, bind, Option.bind_some, pure,
    found t below, realDft_succ]
  simp [QuadraticAlgebra.re_mul, QuadraticAlgebra.im_mul]

def OfPoint (output : Pointer MelArea) (k : Nat) (other : Pointer MelArea) : Prop :=
  other = output.advance (2 * k) ∨ other = output.advance (2 * k + 1)

theorem within_of_ofPoint {other : Pointer MelArea} {k : Nat} (point : OfPoint output k other)
    (below : k < n) : output.Within (2 * n) other := by
  rcases point with rfl | rfl <;> exact output.within_advance (by omega)

/-- The value that belongs to a float of the output. -/
def placed (output : Pointer MelArea) (values : Nat → Complex Value) (other : Pointer MelArea) :
    Value :=
  interleaved values (other.offset - output.offset)

theorem placed_advance (values : Nat → Complex Value) (index : Nat) :
    placed output values (output.advance index) = interleaved values index := by
  rw [placed, Pointer.advance_offset, Nat.add_sub_cancel_left]

def setPoint (output : Pointer MelArea) (values : Nat → Complex Value) (k : Nat)
    (memory : Memory MelArea Value) : Memory MelArea Value :=
  (memory.set (output.advance (2 * k)) (values k).re).set (output.advance (2 * k + 1))
    (values k).im

theorem get_setPoint (values : Nat → Complex Value) (k : Nat) (memory : Memory MelArea Value)
    {other : Pointer MelArea} (point : OfPoint output k other) :
    (setPoint output values k memory).get other = placed output values other := by
  rcases point with rfl | rfl
  · rw [setPoint, placed_advance, interleaved_re, Memory.get_set, Memory.get_set, if_neg,
      if_pos rfl]
    simp
  · rw [setPoint, placed_advance, interleaved_im, Memory.get_set, if_pos rfl]

theorem get_setPoint_of_not (values : Nat → Complex Value) (k : Nat)
    (memory : Memory MelArea Value) {other : Pointer MelArea} (outside : ¬ OfPoint output k other) :
    (setPoint output values k memory).get other = memory.get other := by
  simp only [OfPoint, not_or] at outside
  rw [setPoint, Memory.get_set_of_ne _ _ outside.2, Memory.get_set_of_ne _ _ outside.1]

theorem points_of_fills {values : Nat → Complex Value} {after : Memory MelArea Value}
    (filled : ∀ k < n, ∀ other, OfPoint output k other →
      after.get other = placed output values other)
    {index : Nat} (below : index < 2 * n) :
    after.get (output.advance index) = interleaved values index := by
  have place : index = 2 * (index / 2) ∨ index = 2 * (index / 2) + 1 := by omega
  rw [filled (index / 2) (by omega) _ (place.imp (congrArg output.advance) (congrArg _)),
    placed_advance]

theorem FftCall.not_ofPoint (call : FftCall input n output) (start : Nat) (k index : Nat) :
    ¬ OfPoint (output.advance start) k (input.advance index) := by
  rintro (same | same) <;>
    exact absurd (call.inputArea.symm.trans ((congrArg Pointer.area same).trans call.outputArea))
      (by decide)

private theorem transforms_odd (turning : Turning cache root) (call : FftCall input n output)
    (memory : Memory MelArea Value) :
    ∃ after, dft cache input n output memory = some after ∧
      Transformed (root ^ (whisperNFft / n)) input n output memory after := by
  have room := call.outputRoom
  have pass : ∀ k < n, ∀ now : Memory MelArea Value,
      (∀ other, (∀ place < n, ¬ OfPoint output place other) → now.get other = memory.get other) →
      ∃ next, dftPoint cache input n output k now = some next ∧
        (∀ other, OfPoint output k other → next.get other = placed output
          (realDft (root ^ (whisperNFft / n)) (fun t => memory.get (input.advance t)) n) other) ∧
        ∀ other, ¬ OfPoint output k other → next.get other = now.get other := by
    intro k below now same
    have found (t : Nat) (_ : t < n) : now.get (input.advance t) = memory.get (input.advance t) :=
      same _ fun place _ => call.not_ofPoint 0 place t
    have first : (output.advance (2 * k)).offset < (output.advance (2 * k)).area.room := by
      rw [Pointer.advance_area, call.outputArea, Pointer.advance_offset]
      omega
    have second : (output.advance (2 * k + 1)).offset < (output.advance (2 * k + 1)).area.room := by
      rw [Pointer.advance_area, call.outputArea, Pointer.advance_offset]
      omega
    refine ⟨setPoint output _ k now, ?_, fun other point => get_setPoint _ k now point,
      fun other outside => get_setPoint_of_not _ k now outside⟩
    simp only [dftPoint, dftSums_eq turning call k now found, bind, Option.bind_some,
      Nat.mul_comm k 2, store_inside _ _ first, store_inside _ _ second, setPoint]
  obtain ⟨after, ran, filled, kept⟩ := forRange_fills _ pass
  exact ⟨after, ran, fun index below => points_of_fills filled below, fun other _ outside =>
    kept other fun k below point => outside ((within_of_ofPoint point below).mono (by omega))⟩

end Odd

section Even

variable {Value : Type} [Field Value] {cache : GlobalCache Value} {root : Complex Value}
variable {input output : Pointer MelArea} {n half : Nat}

omit [Field Value] in
/-- A loop that copies floats from elsewhere. -/
theorem copies {source : Nat → Pointer MelArea} {target : Pointer MelArea} {count : Nat}
    (memory : Memory MelArea Value) (apart : ∀ i < count, ¬ target.Within count (source i))
    (inside : ∀ i < count, (source i).offset < (source i).area.room)
    (room : target.offset + count ≤ target.area.room) :
    ∃ after, forRange count (fun i => copy (source i) (target.advance i)) memory = some after ∧
      (∀ i < count, after.get (target.advance i) = memory.get (source i)) ∧
      ∀ other, ¬ target.Within count other → after.get other = memory.get other := by
  obtain ⟨after, ran, copied, kept⟩ := @forRange_sets MelArea Value _ count target.advance
    (fun i => memory.get (source i)) (fun i => copy (source i) (target.advance i)) memory
    (fun _ _ _ _ same => (target.advance_inj).mp same) (by
      intro i below now same
      have found : now.get (source i) = memory.get (source i) := by
        apply same
        intro place small equal
        exact apart i below (equal ▸ target.within_advance small)
      have written : (target.advance i).offset < (target.advance i).area.room := by
        rw [Pointer.advance_area, Pointer.advance_offset]
        omega
      simp only [copy, load_inside now (inside i below), bind, Option.bind_some,
        store_inside _ _ written, found])
  refine ⟨after, ran, copied, fun other outside => kept other ?_⟩
  rintro i below rfl
  exact outside (target.within_advance below)

/-- The points that a pass of the last loop writes. -/
def OfPair (output : Pointer MelArea) (half k : Nat) (other : Pointer MelArea) : Prop :=
  OfPoint output k other ∨ OfPoint output (k + half) other

theorem within_of_ofPair {other : Pointer MelArea} {k : Nat} (pair : OfPair output half k other)
    (below : k < half) : output.Within (2 * (2 * half)) other := by
  rcases pair with point | point
  · exact within_of_ofPoint point (by omega)
  · exact within_of_ofPoint point (by omega)

private theorem butterfly_eq (turning : Turning cache root) (divides : 2 * half ∣ whisperNFft)
    (call : FftCall input (2 * half) output) {evens odds values : Nat → Complex Value} {k : Nat}
    (below : k < half) (now : Memory MelArea Value)
    (evenFound : ∀ index < 2 * half,
      now.get (output.advance (2 * (2 * half) + index)) = interleaved evens index)
    (oddFound : ∀ index < 2 * half,
      now.get (output.advance (2 * (2 * half) + 2 * half + index)) = interleaved odds index)
    (low : values k = evens k + odds k * (root ^ (whisperNFft / (2 * half))) ^ k)
    (high : values (k + half) = evens k - odds k * (root ^ (whisperNFft / (2 * half))) ^ k) :
    ∃ next, butterfly cache (2 * half) output (output.advance (2 * (2 * half)))
        ((output.advance (2 * (2 * half))).advance (2 * half)) k now = some next ∧
      (∀ other, OfPair output half k other → next.get other = placed output values other) ∧
      ∀ other, ¬ OfPair output half k other → next.get other = now.get other := by
  have room := call.outputRoom
  have inside {index : Nat} (small : index < 6 * (2 * half)) :
      (output.advance index).offset < (output.advance index).area.room := by
    rw [Pointer.advance_area, call.outputArea, Pointer.advance_offset]
    omega
  have entry := turning.entry k (whisperNFft / (2 * half))
  have small : k * (whisperNFft / (2 * half)) < whisperNFft := by
    calc k * (whisperNFft / (2 * half))
        < 2 * half * (whisperNFft / (2 * half)) :=
          Nat.mul_lt_mul_of_pos_right (by omega)
            (Nat.div_pos (Nat.le_of_dvd (by decide) divides) (by omega))
      _ = whisperNFft := Nat.mul_div_cancel' divides
  rw [Nat.mod_eq_of_lt small] at entry
  obtain ⟨cosine, sine⟩ := entry
  have reEven : load now (output.advance (2 * (2 * half) + 2 * k)) = some (evens k).re := by
    rw [load_inside now (inside (by omega)), evenFound _ (by omega), interleaved_re]
  have imEven : load now (output.advance (2 * (2 * half) + (2 * k + 1))) =
      some (evens k).im := by
    rw [load_inside now (inside (by omega)), evenFound _ (by omega), interleaved_im]
  have reOdd : load now (output.advance (2 * (2 * half) + 2 * half + 2 * k)) =
      some (odds k).re := by
    rw [load_inside now (inside (by omega)), oddFound _ (by omega), interleaved_re]
  have imOdd : load now (output.advance (2 * (2 * half) + 2 * half + (2 * k + 1))) =
      some (odds k).im := by
    rw [load_inside now (inside (by omega)), oddFound _ (by omega), interleaved_im]
  obtain ⟨factor, factorIs⟩ : ∃ factor, (root ^ (whisperNFft / (2 * half))) ^ k = factor :=
    ⟨_, rfl⟩
  rw [factorIs] at cosine sine low high
  have lowRe : (values k).re =
      (evens k).re + factor.re * (odds k).re - factor.im * (odds k).im := by
    rw [low, QuadraticAlgebra.re_add, QuadraticAlgebra.re_mul]
    ring
  have lowIm : (values k).im =
      (evens k).im + factor.re * (odds k).im + factor.im * (odds k).re := by
    rw [low, QuadraticAlgebra.im_add, QuadraticAlgebra.im_mul]
    ring
  have highRe : (values (k + half)).re =
      (evens k).re - factor.re * (odds k).re + factor.im * (odds k).im := by
    rw [high, QuadraticAlgebra.re_sub, QuadraticAlgebra.re_mul]
    ring
  have highIm : (values (k + half)).im =
      (evens k).im - factor.re * (odds k).im - factor.im * (odds k).re := by
    rw [high, QuadraticAlgebra.im_sub, QuadraticAlgebra.im_mul]
    ring
  have stored (memory : Memory MelArea Value) (index : Nat) (value : Value)
      (few : index < 6 * (2 * half)) :
      store memory (output.advance index) value = some (memory.set (output.advance index) value) :=
    store_inside memory value (inside few)
  refine ⟨setPoint output values (k + half) (setPoint output values k now), ?_, ?_, ?_⟩
  · simp only [butterfly, Pointer.advance_advance, Nat.mul_div_cancel_left half Nat.two_pos, cosine,
      sine, reOdd, imOdd, reEven, imEven, bind, Option.bind_some, neg_neg]
    rw [stored _ (2 * k) _ (by omega), Option.bind_some, stored _ (2 * k + 1) _ (by omega),
      Option.bind_some, stored _ (2 * (k + half)) _ (by omega), Option.bind_some,
      stored _ (2 * (k + half) + 1) _ (by omega), setPoint, setPoint, lowRe, lowIm, highRe, highIm]
  · intro other pair
    by_cases later : OfPoint output (k + half) other
    · exact get_setPoint _ _ _ later
    · rw [get_setPoint_of_not _ _ _ later]
      exact get_setPoint _ _ _ (pair.resolve_right later)
  · intro other outside
    simp only [OfPair, not_or] at outside
    rw [get_setPoint_of_not _ _ _ outside.2, get_setPoint_of_not _ _ _ outside.1]

private theorem half_stride (divides : 2 * half ∣ whisperNFft) (positive : 0 < half) :
    whisperNFft / half = 2 * (whisperNFft / (2 * half)) ∧
      whisperNFft / (2 * half) * half = 200 := by
  obtain ⟨stride, whole⟩ := divides
  have twice : whisperNFft = half * (2 * stride) := by rw [whole]; ring
  have once : whisperNFft / (2 * half) = stride := by
    rw [whole, Nat.mul_div_cancel_left _ (by omega)]
  have half200 : half * stride = 200 := by
    have four : (400 : Nat) = 2 * half * stride := whole
    rw [Nat.mul_assoc] at four
    omega
  rw [once, Nat.mul_comm stride]
  refine ⟨?_, half200⟩
  conv => lhs; rw [twice]
  exact Nat.mul_div_cancel_left _ positive

theorem FftCall.halved (call : FftCall input (2 * half) output) {start : Nat}
    (inside : start + 6 * half ≤ 6 * (2 * half)) :
    FftCall (input.advance (2 * half)) half (output.advance start) := by
  obtain ⟨inputArea, outputArea, inputRoom, outputRoom⟩ := call
  refine ⟨inputArea, outputArea, ?_, ?_⟩
  · rw [Pointer.advance_offset]
    omega
  · rw [Pointer.advance_offset]
    omega

theorem half_transformed (call : FftCall input (2 * half) output) {start : Nat}
    (inside : start + 6 * half ≤ 6 * (2 * half)) {place : Nat → Nat}
    (places : ∀ i < half, place i < 2 * half)
    (transforms : ∀ input output memory, FftCall input half output →
      ∃ after, fft cache input half output memory = some after ∧
        Transformed root input half output memory after) (memory : Memory MelArea Value) :
    ∃ copied after,
      forRange half (fun i => copy (input.advance (place i)) ((input.advance (2 * half)).advance i))
        memory = some copied ∧
      fft cache (input.advance (2 * half)) half (output.advance start) copied = some after ∧
      (∀ index < 2 * half, after.get (output.advance (start + index)) =
        interleaved (realDft root (fun t => memory.get (input.advance (place t))) half) index) ∧
      ∀ other, ¬ (input.advance (2 * half)).Within (2 * half) other →
        ¬ (output.advance start).Within (6 * half) other → after.get other = memory.get other := by
  have inputRoom := call.inputRoom
  have room {index : Nat} (small : index < 2 * (2 * half)) :
      (input.advance index).offset < (input.advance index).area.room := by
    rw [Pointer.advance_area, call.inputArea, Pointer.advance_offset]
    omega
  have apart (i : Nat) (below : i < half) :
      ¬ (input.advance (2 * half)).Within half (input.advance (place i)) := fun within =>
    absurd (input.advance_within.mp within).1 (Nat.not_le.mpr (places i below))
  obtain ⟨copied, ran, same, kept⟩ := copies memory apart
    (fun i below => room (Nat.lt_of_lt_of_le (places i below) (by omega)))
    (by rw [Pointer.advance_area, call.inputArea, Pointer.advance_offset]; omega)
  obtain ⟨after, transformed, points, rest⟩ := transforms _ _ copied (call.halved inside)
  refine ⟨copied, after, ran, transformed, ?_, ?_⟩
  · intro index below
    rw [← Pointer.advance_advance, points index below]
    congr 1
    funext k
    exact realDft_congr k same
  · intro other outsideInput outsideOutput
    rw [rest other (fun within => outsideInput (within.of_advance (by omega))) outsideOutput,
      kept other fun within => outsideInput (within.mono (by omega))]

private theorem butterflies (turning : Turning cache root) (divides : 2 * half ∣ whisperNFft)
    (call : FftCall input (2 * half) output) {evens odds : Nat → Complex Value}
    (values : Nat → Complex Value) (memory : Memory MelArea Value)
    (evenFound : ∀ index < 2 * half,
      memory.get (output.advance (2 * (2 * half) + index)) = interleaved evens index)
    (oddFound : ∀ index < 2 * half,
      memory.get (output.advance (2 * (2 * half) + 2 * half + index)) = interleaved odds index)
    (low : ∀ k < half, values k = evens k + odds k * (root ^ (whisperNFft / (2 * half))) ^ k)
    (high : ∀ k < half,
      values (k + half) = evens k - odds k * (root ^ (whisperNFft / (2 * half))) ^ k) :
    ∃ after, forRange half (butterfly cache (2 * half) output (output.advance (2 * (2 * half)))
        ((output.advance (2 * (2 * half))).advance (2 * half))) memory = some after ∧
      (∀ index < 2 * (2 * half), after.get (output.advance index) = interleaved values index) ∧
      ∀ other, ¬ output.Within (2 * (2 * half)) other → after.get other = memory.get other := by
  have pass : ∀ k < half, ∀ now : Memory MelArea Value,
      (∀ other, (∀ place < half, ¬ OfPair output half place other) →
        now.get other = memory.get other) →
      ∃ next, butterfly cache (2 * half) output (output.advance (2 * (2 * half)))
          ((output.advance (2 * (2 * half))).advance (2 * half)) k now = some next ∧
        (∀ other, OfPair output half k other → next.get other = placed output values other) ∧
        ∀ other, ¬ OfPair output half k other → next.get other = now.get other := by
    intro k below now same
    have behind (index : Nat) :
        now.get (output.advance (2 * (2 * half) + index)) =
          memory.get (output.advance (2 * (2 * half) + index)) := by
      apply same
      intro place few pair
      have last := (within_of_ofPair pair few).2.2
      rw [Pointer.advance_offset] at last
      omega
    apply butterfly_eq turning divides call below now _ _ (low k below) (high k below)
    · intro index small
      rw [behind, evenFound index small]
    · intro index small
      rw [Nat.add_assoc, behind, ← Nat.add_assoc, oddFound index small]
  obtain ⟨after, ran, filled, kept⟩ := forRange_fills _ pass
  refine ⟨after, ran, ?_, ?_⟩
  · intro index below
    apply points_of_fills _ below
    intro k small other point
    by_cases first : k < half
    · exact filled k first other (.inl point)
    · exact filled (k - half) (by omega) other (.inr (by rwa [Nat.sub_add_cancel (by omega)]))
  · intro other outside
    exact kept other fun k below pair => outside (within_of_ofPair pair below)

/-- The halves are transformed one after the other, each behind what the output has room
for so far. -/
theorem transforms_even (turning : Turning cache root) (divides : 2 * half ∣ whisperNFft)
    (positive : 0 < half)
    (halves : ∀ input output memory, FftCall input half output →
      ∃ after, fft cache input half output memory = some after ∧
        Transformed (root ^ (whisperNFft / half)) input half output memory after)
    (call : FftCall input (2 * half) output) (memory : Memory MelArea Value) :
    ∃ after, fft cache input (2 * half) output memory = some after ∧
      Transformed (root ^ (whisperNFft / (2 * half))) input (2 * half) output memory after := by
  obtain ⟨stride, turns⟩ := half_stride divides positive
  have squared : root ^ (whisperNFft / half) = (root ^ (whisperNFft / (2 * half))) ^ 2 := by
    rw [stride, Nat.mul_comm, pow_mul]
  have turn : (root ^ (whisperNFft / (2 * half))) ^ half = -1 := by
    rw [← pow_mul, turns, turning.half]
  rw [squared] at halves
  have apart (first second : Nat) :
      ¬ (output.advance first).area = (input.advance second).area := by
    rw [Pointer.advance_area, Pointer.advance_area, call.inputArea, call.outputArea]
    decide
  obtain ⟨evenCopied, middle, ranEvens, transformedEvens, evens, keptMiddle⟩ :=
    half_transformed call (show 2 * (2 * half) + 6 * half ≤ _ by omega)
      (show ∀ i < half, 2 * i < 2 * half by omega) halves memory
  obtain ⟨oddCopied, last, ranOdds, transformedOdds, odds, keptLast⟩ :=
    half_transformed call (show 2 * (2 * half) + 2 * half + 6 * half ≤ _ by omega)
      (show ∀ i < half, 2 * i + 1 < 2 * half by omega) halves middle
  have untouched (t : Nat) (below : t < half) :
      middle.get (input.advance (2 * t + 1)) = memory.get (input.advance (2 * t + 1)) := by
    apply keptMiddle
    · intro within
      have far := (input.advance_within.mp within).1
      omega
    · exact fun within => apart _ _ within.1.symm
  have evenFound : ∀ index < 2 * half, last.get (output.advance (2 * (2 * half) + index)) =
      interleaved (realDft ((root ^ (whisperNFft / (2 * half))) ^ 2)
        (fun t => memory.get (input.advance (2 * t))) half) index := by
    intro index below
    rw [keptLast _ (fun within => apart _ _ within.1), evens index below]
    intro within
    have far := (output.advance_within.mp within).1
    omega
  have oddFound : ∀ index < 2 * half,
      last.get (output.advance (2 * (2 * half) + 2 * half + index)) =
        interleaved (realDft ((root ^ (whisperNFft / (2 * half))) ^ 2)
          (fun t => memory.get (input.advance (2 * t + 1))) half) index := by
    intro index below
    rw [odds index below]
    congr 1
    funext k
    exact realDft_congr k untouched
  obtain ⟨after, ran, points, kept⟩ := butterflies turning divides call
    (realDft (root ^ (whisperNFft / (2 * half))) (fun t => memory.get (input.advance t)) (2 * half))
    last evenFound oddFound (fun k below => dft_first_half turn _ below)
    (fun k below => dft_second_half turn _ below)
  refine ⟨after, ?_, points, ?_⟩
  · rw [fft, if_neg (by omega), if_neg (by omega), if_neg (by omega)]
    simp only [Nat.mul_div_cancel_left half Nat.two_pos, ranEvens, transformedEvens, bind,
      Option.bind_some, ranOdds]
    rw [Pointer.advance_advance, transformedOdds, Option.bind_some, ← Pointer.advance_advance]
    exact ran
  · intro other outsideInput outsideOutput
    rw [kept other (fun within => outsideOutput (within.mono (by omega))),
      keptLast other outsideInput
        (fun within => outsideOutput (within.of_advance (by omega))),
      keptMiddle other outsideInput (fun within => outsideOutput (within.of_advance (by omega)))]

private theorem transforms_one (call : FftCall input 1 output) (memory : Memory MelArea Value) :
    ∃ after, fft cache input 1 output memory = some after ∧
      Transformed root input 1 output memory after := by
  have room := call.outputRoom
  have inputRoom := call.inputRoom
  have loaded : load memory input = some (memory.get input) := by
    apply load_inside
    rw [call.inputArea]
    omega
  have first : output.offset < output.area.room := by
    rw [call.outputArea]
    omega
  have second : (output.advance 1).offset < (output.advance 1).area.room := by
    rw [Pointer.advance_area, call.outputArea, Pointer.advance_offset]
    omega
  have sample : realDft root (fun t => memory.get (input.advance t)) 1 0 =
      ⟨memory.get input, 0⟩ := by
    rw [realDft_succ, Nat.mul_zero, pow_zero, mul_one]
    exact zero_add _
  refine ⟨(memory.set output (memory.get input)).set (output.advance 1) 0, ?_, ?_, ?_⟩
  · rw [fft, if_neg (by decide), if_pos rfl]
    simp only [loaded, store_inside _ _ first, store_inside _ _ second, bind, Option.bind_some]
  · intro index below
    have two : index = 2 * 0 ∨ index = 2 * 0 + 1 := by omega
    rcases two with rfl | rfl
    · have apart : output.advance (2 * 0) ≠ output.advance 1 := by simp
      rw [interleaved_re, sample, Memory.get_set_of_ne _ _ apart]
      exact Memory.get_set_self _ _ _
    · rw [interleaved_im, sample]
      exact Memory.get_set_self _ _ _
  · intro other _ outside
    have apart (index : Nat) (small : index < 6 * 1) : other ≠ output.advance index := by
      rintro rfl
      exact outside (output.within_advance small)
    rw [Memory.get_set_of_ne _ _ (apart 1 (by decide))]
    exact Memory.get_set_of_ne _ _ (apart 0 (by decide))

/-- For every number of points that divides 400, `fft` computes the discrete Fourier
transform, in the rooms behind its arguments and nowhere else. -/
theorem transforms (turning : Turning cache root) (positive : 0 < n) (divides : n ∣ whisperNFft)
    (call : FftCall input n output) (memory : Memory MelArea Value) :
    ∃ after, fft cache input n output memory = some after ∧
      Transformed (root ^ (whisperNFft / n)) input n output memory after := by
  induction n using Nat.strong_induction_on generalizing input output memory with
  | h n ih =>
    rcases Nat.even_or_odd' n with ⟨half, rfl | rfl⟩
    · exact transforms_even turning divides (by omega) (fun input output memory call =>
        ih half (by omega) (by omega) ((Nat.dvd_mul_left half 2).trans divides) call memory)
        call memory
    · rcases Nat.eq_zero_or_pos half with rfl | more
      · exact transforms_one call memory
      · rw [fft, if_neg (by omega), if_neg (by omega), if_pos (by omega)]
        exact transforms_odd turning call memory

end Even

end LocalWhisper.WhisperMel
