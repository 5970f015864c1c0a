import LocalWhisper.Machine.Dft
import LocalWhisper.Machine.Memory

/-! The transform of the feature extractor: a mixed-radix FFT of 400 points,
over any commutative ring in place of the complex floats. -/

namespace LocalWhisper.CTranslate2

open LocalWhisper.Machine

universe u

/-- `kFftSize`. -/
def kFftSize : Nat := 400

/-- `fft_factor`. -/
def fftFactor (n : Nat) : Nat :=
  if n = 400 ∨ n = 200 ∨ n = 100 ∨ n = 50 then 2 else if n = 25 then 5 else n

/-- `fft_part_size`. -/
def fftPartSize (n : Nat) : Nat :=
  if n = 400 then 200 else if n = 200 then 100 else if n = 100 then 50 else if n = 50 then 25
  else if n = 25 then 5 else 0

/-- `fft_root_stride`. -/
def fftRootStride (n : Nat) : Nat :=
  if n = 400 then 1 else if n = 200 then 2 else if n = 100 then 4 else if n = 50 then 8
  else if n = 25 then 16 else if n = 5 then 80 else 0

private theorem fftPartSize_lt {n : Nat} (several : ¬ n ≤ 1) : fftPartSize n < n := by
  unfold fftPartSize
  split_ifs <;> omega

/-- The arrays of one transform. -/
inductive FftArea where
  | input
  | output
  | scratch
  deriving DecidableEq, Repr

section Fft

variable {Ring : Type u} [CommRing Ring]

/-- `fft_root`, with the table `fft_roots()`. -/
def fftRoot (roots : Nat → Ring) (n exponent : Nat) : Ring :=
  roots (((exponent % n) * fftRootStride n) % kFftSize)

/-- `fft`; the two loops of a level that is not divided and of one that is end in
the same kind of sum. -/
def fft (roots : Nat → Ring) (input : Pointer FftArea) (inputStride : Nat)
    (output scratch : Pointer FftArea) (n : Nat) (memory : Memory FftArea Ring) :
    Option (Memory FftArea Ring) :=
  if n ≤ 1 then
    if n = 1 then do
      let value ← memory.read kFftSize input
      memory.write kFftSize output value
    else some memory
  else if fftFactor n = n then
    forRange n (fun k =>
      sumInto kFftSize (output.advance k) n (fun t => input.advance (t * inputStride))
        fun t => fftRoot roots n (k * t)) memory
  else do
    let memory ← forRange (fftFactor n) (fun part =>
      fft roots (input.advance (part * inputStride)) (inputStride * fftFactor n)
        (scratch.advance (part * fftPartSize n)) (output.advance (part * fftPartSize n))
        (fftPartSize n)) memory
    forRange n (fun k =>
      sumInto kFftSize (output.advance k) (fftFactor n)
        (fun part => scratch.advance (part * fftPartSize n + k % fftPartSize n))
        fun part => fftRoot roots n (part * k)) memory
termination_by n
decreasing_by exact fftPartSize_lt (by assumption)

theorem fftRoot_pow {root : Ring} {n : Nat}
    (whole : n * fftRootStride n = kFftSize) (unity : root ^ kFftSize = 1) (exponent : Nat) :
    fftRoot (fun index => root ^ index) n exponent = (root ^ fftRootStride n) ^ exponent := by
  have period : (root ^ fftRootStride n) ^ n = 1 := by
    rw [← pow_mul, Nat.mul_comm, whole, unity]
  rw [fftRoot, pow_mod_of_root unity, Nat.mul_comm, pow_mul, pow_mod_of_root period]

/-- The arguments of a call: three different arrays with room for `n` points. -/
structure FftCall (input : Pointer FftArea) (inputStride : Nat) (output scratch : Pointer FftArea)
    (n : Nat) : Prop where
  inputRoom : ∀ t < n, input.offset + t * inputStride < kFftSize
  outputRoom : output.offset + n ≤ kFftSize
  scratchRoom : scratch.offset + n ≤ kFftSize
  apart : output.area ≠ scratch.area
  outputApart : input.area ≠ output.area
  scratchApart : input.area ≠ scratch.area

/-- What a call leaves behind: the transform, and everything outside the `n`
points of `output` and `scratch` as it was. -/
structure Transformed (root : Ring) (input : Pointer FftArea) (inputStride : Nat)
    (output scratch : Pointer FftArea) (n : Nat) (before after : Memory FftArea Ring) : Prop where
  points : ∀ k < n, after.get (output.advance k) =
    dft root (fun t => before.get (input.advance (t * inputStride))) n k
  kept : ∀ other, ¬ output.Within n other → ¬ scratch.Within n other →
    after.get other = before.get other

/-- Every call on `n` points transforms them. -/
def Transforms (root : Ring) (n : Nat) : Prop :=
  ∀ input inputStride output scratch memory, FftCall input inputStride output scratch n →
    ∃ after, fft (fun index => root ^ index) input inputStride output scratch n memory =
        some after ∧
      Transformed (root ^ fftRootStride n) input inputStride output scratch n memory after

private theorem transforms_prime {root : Ring} {n : Nat} (several : 1 < n) (whole : fftFactor n = n)
    (stride : n * fftRootStride n = kFftSize) (unity : root ^ kFftSize = 1) :
    Transforms root n := by
  intro input inputStride output scratch memory call
  have inside : ∀ k < n, ∀ t < n, (input.advance (t * inputStride)).offset < kFftSize :=
    fun _ _ => call.inputRoom
  have apart : ∀ k < n, ∀ t < n, (input.advance (t * inputStride)).area ≠ output.area :=
    fun _ _ _ _ => call.outputApart
  obtain ⟨after, ran, sums, kept⟩ := forRange_sumInto
    (fun k t => fftRoot (fun index => root ^ index) n (k * t)) memory call.outputRoom inside apart
  refine ⟨after, ?_, ?_, fun other outside _ => kept other outside⟩
  · rw [fft, if_neg (by omega), if_pos whole]
    exact ran
  · intro k below
    rw [sums k below, dft]
    apply Finset.sum_congr rfl
    intro t _
    rw [fftRoot_pow stride unity]

/-- The call for one part of a level: it reads every `factor`-th point and swaps
`output` and `scratch`. -/
theorem FftCall.part {input : Pointer FftArea} {inputStride : Nat}
    {output scratch : Pointer FftArea} {factor size part : Nat}
    (call : FftCall input inputStride output scratch (factor * size)) (below : part < factor) :
    FftCall (input.advance (part * inputStride)) (inputStride * factor)
      (scratch.advance (part * size)) (output.advance (part * size)) size := by
  have block : part * size + size ≤ factor * size := by
    rw [← Nat.succ_mul]
    exact Nat.mul_le_mul_right size below
  constructor
  · intro t inside
    have point : part + t * factor < factor * size := by
      calc part + t * factor < factor + t * factor := Nat.add_lt_add_right below _
        _ = (t + 1) * factor := by rw [Nat.succ_mul, Nat.add_comm]
        _ ≤ factor * size := by
          rw [Nat.mul_comm factor]
          exact Nat.mul_le_mul_right factor inside
    have room := call.inputRoom _ point
    rw [Nat.add_mul] at room
    rw [Pointer.advance_offset, Nat.mul_comm inputStride, ← Nat.mul_assoc]
    omega
  · have room := call.scratchRoom
    rw [Pointer.advance_offset]
    omega
  · have room := call.outputRoom
    rw [Pointer.advance_offset]
    omega
  · exact call.apart.symm
  · exact call.scratchApart
  · exact call.outputApart

theorem within_part {start other : Pointer FftArea} {factor size part : Nat} (below : part < factor)
    (within : (start.advance (part * size)).Within size other) :
    start.Within (factor * size) other := by
  have block : part * size + size ≤ factor * size := by
    rw [← Nat.succ_mul]
    exact Nat.mul_le_mul_right size below
  obtain ⟨area, first, last⟩ := within
  rw [Pointer.advance_offset] at first last
  exact ⟨area, by omega, by omega⟩

private theorem not_within_part {start : Pointer FftArea} {size earlier part k : Nat}
    (before : earlier < part) (inside : k < size) :
    ¬ (start.advance (part * size)).Within size ((start.advance (earlier * size)).advance k) := by
  rintro ⟨-, first, -⟩
  have block : earlier * size + size ≤ part * size := by
    rw [← Nat.succ_mul]
    exact Nat.mul_le_mul_right size before
  simp only [Pointer.advance_offset] at first
  omega

/-- The first parts have been transformed, each into its place in `scratch`. -/
structure PartsDone (root : Ring) (input : Pointer FftArea) (inputStride : Nat)
    (output scratch : Pointer FftArea) (factor size : Nat) (before : Memory FftArea Ring)
    (passes : Nat) (now : Memory FftArea Ring) : Prop where
  points : ∀ part < passes, ∀ k < size, now.get (scratch.advance (part * size + k)) =
    dft root (fun j => before.get (input.advance ((part + factor * j) * inputStride))) size k
  kept : ∀ other, ¬ output.Within (factor * size) other → ¬ scratch.Within (factor * size) other →
    now.get other = before.get other

private theorem partsDone_succ {root : Ring} {input : Pointer FftArea} {inputStride : Nat}
    {output scratch : Pointer FftArea} {factor size part : Nat}
    {before now after : Memory FftArea Ring}
    (call : FftCall input inputStride output scratch (factor * size)) (below : part < factor)
    (parts : PartsDone root input inputStride output scratch factor size before part now)
    (transformed : Transformed root (input.advance (part * inputStride)) (inputStride * factor)
      (scratch.advance (part * size)) (output.advance (part * size)) size now after) :
    PartsDone root input inputStride output scratch factor size before (part + 1) after := by
  constructor
  · intro earlier upTo k inside
    rw [← Pointer.advance_advance]
    rcases Nat.lt_succ_iff_lt_or_eq.mp upTo with old | rfl
    · have untouched : ¬ (output.advance (part * size)).Within size
          ((scratch.advance (earlier * size)).advance k) := fun within => call.apart within.1.symm
      rw [transformed.kept _ (not_within_part old inside) untouched, Pointer.advance_advance]
      exact parts.points earlier old k inside
    · rw [transformed.points k inside]
      apply dft_congr
      intro j _
      have place : earlier * inputStride + j * (inputStride * factor) =
          (earlier + factor * j) * inputStride := by ring
      rw [Pointer.advance_advance, place]
      exact parts.kept _ (fun within => call.outputApart within.1)
        (fun within => call.scratchApart within.1)
  · intro other outsideOutput outsideScratch
    rw [transformed.kept other (fun within => outsideScratch (within_part below within))
      (fun within => outsideOutput (within_part below within))]
    exact parts.kept other outsideOutput outsideScratch

theorem transforms_divided {root : Ring} {n : Nat} (several : 1 < n) (divided : fftFactor n ≠ n)
    (whole : fftFactor n * fftPartSize n = n) (stride : n * fftRootStride n = kFftSize)
    (partStride : fftRootStride (fftPartSize n) = fftRootStride n * fftFactor n)
    (unity : root ^ kFftSize = 1) (parts : Transforms root (fftPartSize n)) :
    Transforms root n := by
  intro input inputStride output scratch memory call
  obtain ⟨factor, factorIs⟩ : ∃ factor, fftFactor n = factor := ⟨_, rfl⟩
  obtain ⟨size, sizeIs⟩ : ∃ size, fftPartSize n = size := ⟨_, rfl⟩
  rw [factorIs, sizeIs] at whole
  rw [factorIs] at divided partStride
  rw [sizeIs] at partStride parts
  have positive : 0 < size := by
    rcases Nat.eq_zero_or_pos size with rfl | positive
    · omega
    · exact positive
  have callParts : FftCall input inputStride output scratch (factor * size) := by
    rw [whole]
    exact call
  -- the loop over the parts
  obtain ⟨middle, ranParts, done⟩ := forRange_invariant
    (PartsDone (root ^ fftRootStride size) input inputStride output scratch factor size memory)
    ⟨fun part below => absurd below (Nat.not_lt_zero part), fun _ _ _ => rfl⟩
    (fun part below now before => by
      obtain ⟨next, ran, transformed⟩ := parts _ _ _ _ now (callParts.part below)
      exact ⟨next, ran, partsDone_succ callParts below before transformed⟩)
  -- the loop that puts them together
  have inside : ∀ k < n, ∀ part < factor,
      (scratch.advance (part * size + k % size)).offset < kFftSize := by
    intro k _ part below
    have within := within_part below (Pointer.within_advance (scratch.advance (part * size))
      (Nat.mod_lt k positive))
    have room := callParts.scratchRoom
    rw [Pointer.advance_advance] at within
    exact Nat.lt_of_lt_of_le within.2.2 room
  have apart : ∀ k < n, ∀ part < factor,
      (scratch.advance (part * size + k % size)).area ≠ output.area :=
    fun _ _ _ _ => call.apart.symm
  obtain ⟨after, ranSums, sums, kept⟩ := forRange_sumInto
    (fun k part => fftRoot (fun index => root ^ index) n (part * k)) middle call.outputRoom
    inside apart
  refine ⟨after, ?_, ?_, ?_⟩
  · rw [fft, if_neg (by omega), factorIs, sizeIs, if_neg divided]
    exact (congrArg (Option.bind · _) ranParts).trans ranSums
  · intro k below
    have period : (root ^ fftRootStride n) ^ (factor * size) = 1 := by
      rw [← pow_mul, whole, Nat.mul_comm, stride, unity]
    have level := dft_factor (root ^ fftRootStride n)
      (fun t => memory.get (input.advance (t * inputStride))) factor size k period
    rw [whole] at level
    rw [sums k below, level]
    apply Finset.sum_congr rfl
    intro part member
    rw [done.points part (Finset.mem_range.mp member) _ (Nat.mod_lt k positive),
      fftRoot_pow stride unity, partStride, pow_mul]
  · intro other outsideOutput outsideScratch
    rw [kept other outsideOutput]
    rw [← whole] at outsideOutput outsideScratch
    exact done.kept other outsideOutput outsideScratch

theorem transforms_all {root : Ring} (unity : root ^ kFftSize = 1) : Transforms root kFftSize := by
  have five : Transforms root 5 := transforms_prime (by decide) (by decide) (by decide) unity
  have twentyFive : Transforms root 25 :=
    transforms_divided (by decide) (by decide) (by decide) (by decide) (by decide) unity five
  have fifty : Transforms root 50 :=
    transforms_divided (by decide) (by decide) (by decide) (by decide) (by decide) unity twentyFive
  have hundred : Transforms root 100 :=
    transforms_divided (by decide) (by decide) (by decide) (by decide) (by decide) unity fifty
  have twoHundred : Transforms root 200 :=
    transforms_divided (by decide) (by decide) (by decide) (by decide) (by decide) unity hundred
  exact transforms_divided (by decide) (by decide) (by decide) (by decide) (by decide) unity
    twoHundred

/-- The transform of 400 points with the table of the powers of `root`: it ends
without an access outside the first 400 cells, and `input` stays as it was. -/
theorem fft_eq_dft {root : Ring} (unity : root ^ 400 = 1) (memory : Memory FftArea Ring) :
    ∃ after, fft (fun index => root ^ index) ⟨.input, 0⟩ 1 ⟨.output, 0⟩ ⟨.scratch, 0⟩ 400 memory =
        some after ∧
      (∀ k < 400, after .output k =
        ∑ t ∈ Finset.range 400, memory .input t * root ^ (k * t)) ∧
      after .input = memory .input ∧
      ∀ area index, 400 ≤ index → after area index = memory area index := by
  have call : FftCall ⟨.input, 0⟩ 1 ⟨.output, 0⟩ ⟨.scratch, 0⟩ kFftSize :=
    ⟨fun t below => by simpa using below, Nat.le_refl _, Nat.le_refl _, by decide, by decide,
      by decide⟩
  obtain ⟨after, ran, transformed⟩ := transforms_all unity _ _ _ _ memory call
  refine ⟨after, ran, ?_, ?_, ?_⟩
  · intro k below
    have point := transformed.points k below
    have stride : fftRootStride kFftSize = 1 := by decide
    rw [stride, pow_one] at point
    simpa [dft, Memory.get, Pointer.advance, kFftSize] using point
  · funext index
    exact transformed.kept ⟨.input, index⟩ (fun within => by cases within.1)
      (fun within => by cases within.1)
  · intro area index beyond
    apply transformed.kept ⟨area, index⟩
    · rintro ⟨-, -, below⟩
      exact absurd below (Nat.not_lt.mpr beyond)
    · rintro ⟨-, -, below⟩
      exact absurd below (Nat.not_lt.mpr beyond)

/-- With the root -1 the odd frequencies alternate the signs. -/
theorem fft_eq_dft_alternating :
    (-1 : Int) ^ 400 = 1 ∧
      ∃ after, fft (fun index => (-1 : Int) ^ index) ⟨.input, 0⟩ 1 ⟨.output, 0⟩ ⟨.scratch, 0⟩ 400
          (fun _ index => index) = some after ∧
        after .output 1 = ∑ t ∈ Finset.range 400, (t : Int) * (-1) ^ (1 * t) := by
  have unity : (-1 : Int) ^ 400 = 1 := by norm_num
  obtain ⟨after, ran, sums, -, -⟩ := fft_eq_dft unity fun _ index => (index : Int)
  exact ⟨unity, after, ran, sums 1 (by decide)⟩

end Fft

end LocalWhisper.CTranslate2
