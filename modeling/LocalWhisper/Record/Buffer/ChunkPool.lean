import LocalWhisper.Machine.Objects
import Mathlib.Data.List.Count
import Mathlib.Data.List.Range

/-! `DirectPcm16BufferPool` and `PooledPcmChunk`. A chunk is known by its
address; who may use it is decided by its flag `released` alone. -/

namespace LocalWhisper.Record.Buffer

open LocalWhisper.Machine

/-- A chunk without its bytes, which no decision depends on. -/
structure PooledPcmChunk where
  released : Bool
  sampleCount : Nat
  deriving DecidableEq, Repr

structure DirectPcm16BufferPool where
  sampleCapacity : Nat
  maxCachedBuffers : Nat
  /-- `freeBuffers`, first element first -/
  freeBuffers : List Nat
  /-- every chunk that the pool has made -/
  chunks : Objects PooledPcmChunk fun chunk => chunk.released = true
  /-- chunks that the pool no longer refers to; no field of the source -/
  dropped : List Nat

namespace DirectPcm16BufferPool

def new (sampleCapacity maxCachedBuffers : Nat) : DirectPcm16BufferPool :=
  ⟨sampleCapacity, maxCachedBuffers, [], .empty ⟨true, 0⟩ rfl, []⟩

def released (pool : DirectPcm16BufferPool) (chunk : Nat) : Bool := (pool.chunks.get chunk).released

def sampleCount (pool : DirectPcm16BufferPool) (chunk : Nat) : Nat :=
  (pool.chunks.get chunk).sampleCount

/-- A cached chunk, or a new one when none is cached. `acquireForUse` throws an
IllegalStateException on a chunk that is in use; there is no chunk then. -/
def acquire (pool : DirectPcm16BufferPool) : Option Nat × DirectPcm16BufferPool :=
  match pool.freeBuffers with
  | chunk :: rest =>
    let polled := { pool with freeBuffers := rest }
    if pool.released chunk then
      (some chunk, { polled with chunks := pool.chunks.set chunk ⟨false, 0⟩ })
    else (none, polled)
  | [] => (some pool.chunks.count, { pool with chunks := pool.chunks.create ⟨false, 0⟩ })

/-- `released.compareAndSet(false, true)`, the first half of `close`. -/
def markReleased (pool : DirectPcm16BufferPool) (chunk : Nat) : Option DirectPcm16BufferPool :=
  if pool.released chunk then none
  else some { pool with chunks := pool.chunks.set chunk ⟨true, pool.sampleCount chunk⟩ }

/-- The second half of `close`: the pool caches the chunk while there is room. -/
def release (pool : DirectPcm16BufferPool) (chunk : Nat) : DirectPcm16BufferPool :=
  let cleared := { pool with chunks := pool.chunks.set chunk ⟨pool.released chunk, 0⟩ }
  if pool.freeBuffers.length ≥ pool.maxCachedBuffers then
    { cleared with dropped := chunk :: pool.dropped }
  else { cleared with freeBuffers := chunk :: pool.freeBuffers }

def clear (pool : DirectPcm16BufferPool) : DirectPcm16BufferPool :=
  { pool with freeBuffers := [], dropped := pool.freeBuffers ++ pool.dropped }

/-- `setSampleCount`, on a chunk that is not released and within its capacity. -/
def setSampleCount (pool : DirectPcm16BufferPool) (chunk value : Nat) :
    Option DirectPcm16BufferPool :=
  if pool.released chunk || value > pool.sampleCapacity then none
  else some { pool with chunks := pool.chunks.set chunk ⟨false, value⟩ }

@[simp] theorem release_released (pool : DirectPcm16BufferPool) (chunk index : Nat) :
    (pool.release chunk).released index = pool.released index := by
  unfold release
  simp only
  split <;> exact Objects.set_get_view _ _ chunk index PooledPcmChunk.released rfl

@[simp] theorem release_count (pool : DirectPcm16BufferPool) (chunk : Nat) :
    (pool.release chunk).chunks.count = pool.chunks.count := by
  unfold release
  simp only
  split <;> rfl

/-- A chunk that finds room is cached, and nothing is dropped. -/
theorem release_cached {pool : DirectPcm16BufferPool} (chunk : Nat)
    (room : pool.freeBuffers.length < pool.maxCachedBuffers) :
    (pool.release chunk).freeBuffers = chunk :: pool.freeBuffers ∧
      (pool.release chunk).dropped = pool.dropped ∧
      (pool.release chunk).maxCachedBuffers = pool.maxCachedBuffers := by
  have cached : ¬ pool.freeBuffers.length ≥ pool.maxCachedBuffers := Nat.not_le.mpr room
  unfold release
  simp only
  rw [if_neg cached]
  exact ⟨rfl, rfl, rfl⟩

theorem markReleased_frame {pool next : DirectPcm16BufferPool} {chunk : Nat}
    (marked : pool.markReleased chunk = some next) :
    next.freeBuffers = pool.freeBuffers ∧ next.dropped = pool.dropped ∧
      next.maxCachedBuffers = pool.maxCachedBuffers := by
  unfold markReleased at marked
  split at marked <;> cases marked
  exact ⟨rfl, rfl, rfl⟩

theorem setSampleCount_frame {pool next : DirectPcm16BufferPool} {chunk value : Nat}
    (taken : pool.setSampleCount chunk value = some next) :
    next.freeBuffers = pool.freeBuffers ∧ next.dropped = pool.dropped ∧
      next.maxCachedBuffers = pool.maxCachedBuffers := by
  unfold setSampleCount at taken
  split at taken <;> cases taken
  exact ⟨rfl, rfl, rfl⟩

/-- A chunk is made only when none is cached. -/
theorem acquire_frame (pool : DirectPcm16BufferPool) :
    (pool.acquire.2.freeBuffers.length + 1 ≤ pool.freeBuffers.length ∨
      pool.freeBuffers = [] ∧ pool.acquire.2.freeBuffers = []) ∧
    pool.acquire.2.dropped = pool.dropped ∧
    pool.acquire.2.maxCachedBuffers = pool.maxCachedBuffers := by
  unfold acquire
  cases cached : pool.freeBuffers with
  | nil => exact ⟨.inr ⟨rfl, rfl⟩, rfl, rfl⟩
  | cons chunk rest =>
    simp only
    split <;> exact ⟨.inl (Nat.le_refl _), rfl, rfl⟩

theorem count_le_acquire (pool : DirectPcm16BufferPool) :
    pool.chunks.count ≤ pool.acquire.2.chunks.count := by
  unfold acquire
  split
  · simp only
    split <;> exact Nat.le_refl _
  · exact Nat.le_succ _

theorem markReleased_count {pool next : DirectPcm16BufferPool} {chunk : Nat}
    (marked : pool.markReleased chunk = some next) :
    next.chunks.count = pool.chunks.count := by
  unfold markReleased at marked
  split at marked <;> cases marked
  rfl

/-- What is released stays so while chunks are handed back. -/
theorem markReleased_released {pool next : DirectPcm16BufferPool} {chunk index : Nat}
    (marked : pool.markReleased chunk = some next) (gone : pool.released index = true) :
    next.released index = true := by
  unfold markReleased at marked
  split at marked <;> cases marked
  simp only [released, Objects.set_get]
  split
  · rfl
  · exact gone

/-- Every chunk the pool has made is in exactly one place: in use, on its way
back, cached or dropped; and the chunks in use are those not released. -/
structure InCustody (pool : DirectPcm16BufferPool) (inUse returning : List Nat) : Prop where
  once : (inUse ++ returning ++ pool.freeBuffers ++ pool.dropped).Perm
    (List.range pool.chunks.count)
  used : ∀ chunk < pool.chunks.count, pool.released chunk = false ↔ chunk ∈ inUse

namespace InCustody

variable {pool next : DirectPcm16BufferPool} {inUse returning : List Nat} {chunk : Nat}

theorem created (custody : InCustody pool inUse returning)
    (member : chunk ∈ inUse ++ returning ++ pool.freeBuffers ++ pool.dropped) :
    chunk < pool.chunks.count :=
  List.mem_range.mp (custody.once.mem_iff.mp member)

theorem nodup (custody : InCustody pool inUse returning) :
    (inUse ++ returning ++ pool.freeBuffers ++ pool.dropped).Nodup :=
  custody.once.nodup_iff.mpr List.nodup_range

theorem usable (custody : InCustody pool inUse returning) (member : chunk ∈ inUse) :
    pool.released chunk = false :=
  (custody.used chunk (custody.created (by simp [member]))).mpr member

/-- A chunk that is anywhere else than in use is released. -/
theorem closed (custody : InCustody pool inUse returning)
    (member : chunk ∈ returning ++ pool.freeBuffers ++ pool.dropped) :
    pool.released chunk = true := by
  have all : (inUse ++ (returning ++ pool.freeBuffers ++ pool.dropped)).Nodup := by
    simpa [List.append_assoc] using custody.nodup
  have apart := (List.nodup_append.mp all).2.2
  rw [← Bool.not_eq_false]
  intro free
  have inside : chunk < pool.chunks.count := custody.created (by
    simp only [List.mem_append] at member ⊢
    tauto)
  exact apart chunk ((custody.used chunk inside).mp free) chunk member rfl

/-- Chunks that change hands stay in custody. -/
theorem rearrange {other back : List Nat} (custody : InCustody pool inUse returning)
    (use : inUse.Perm other) (way : returning.Perm back) : InCustody pool other back := by
  refine ⟨?_, fun index inside => ?_⟩
  · exact (((use.append way).append_right _).append_right _).symm.trans custody.once
  · rw [custody.used index inside]
    exact use.mem_iff

/-- `acquire` always has a chunk to give, and it is in use from then on. -/
theorem acquire (custody : InCustody pool inUse returning) :
    ∃ chunk, pool.acquire.1 = some chunk ∧
      InCustody pool.acquire.2 (chunk :: inUse) returning := by
  unfold DirectPcm16BufferPool.acquire
  cases cached : pool.freeBuffers with
  | nil =>
    refine ⟨pool.chunks.count, rfl, ?_, fun index inside => ?_⟩
    · have once := custody.once
      rw [cached] at once
      simp only [Objects.create_count, List.range_succ]
      exact (List.Perm.cons _ once).trans (List.perm_append_singleton _ _).symm
    · simp only [released, Objects.create_get, List.mem_cons]
      split
      · rename_i new
        simp [new]
      · rename_i other
        rw [Objects.create_count] at inside
        simpa [other, released] using custody.used index (by omega)
  | cons chunk rest =>
    have free : pool.released chunk = true := custody.closed (by simp [cached])
    have inside : chunk < pool.chunks.count := custody.created (by simp [cached])
    simp only [free, if_true]
    refine ⟨chunk, rfl, ?_, fun index created => ?_⟩
    · refine List.Perm.trans ?_ custody.once
      rw [cached, List.perm_iff_count]
      intro item
      simp only [List.count_append, List.count_cons]
      omega
    · simp only [released, Objects.set_get, List.mem_cons]
      by_cases same : index = chunk
      · simp [same, inside]
      · simpa [same, released] using custody.used index created

/-- The one who closes a chunk in use hands it back. -/
theorem markReleased (custody : InCustody pool (chunk :: inUse) returning) :
    ∃ next, pool.markReleased chunk = some next ∧ InCustody next inUse (chunk :: returning) := by
  have free := custody.usable (List.mem_cons_self ..)
  have inside : chunk < pool.chunks.count := custody.created (by simp)
  have fresh : chunk ∉ inUse := by
    have all := custody.nodup
    simp only [List.cons_append, List.nodup_cons, List.mem_append, not_or] at all
    exact all.1.1.1.1
  unfold DirectPcm16BufferPool.markReleased
  simp only [free, Bool.false_eq_true, if_false]
  refine ⟨_, rfl, ?_, fun index created => ?_⟩
  · refine List.Perm.trans ?_ custody.once
    rw [List.perm_iff_count]
    intro item
    simp only [List.count_append, List.count_cons]
    omega
  · simp only [released, Objects.set_get]
    by_cases same : index = chunk
    · simp [same, inside, fresh]
    · simpa [same, released] using custody.used index created

theorem release (custody : InCustody pool inUse (chunk :: returning)) :
    InCustody (pool.release chunk) inUse returning := by
  refine ⟨?_, fun index created => ?_⟩
  · rw [release_count]
    refine List.Perm.trans ?_ custody.once
    rw [List.perm_iff_count]
    intro item
    unfold DirectPcm16BufferPool.release
    simp only
    split
    all_goals
      simp only [List.count_append, List.count_cons]
      omega
  · rw [release_released]
    rw [release_count] at created
    exact custody.used index created

theorem clear (custody : InCustody pool inUse returning) :
    InCustody pool.clear inUse returning := by
  refine ⟨?_, custody.used⟩
  refine List.Perm.trans ?_ custody.once
  simp [DirectPcm16BufferPool.clear]

theorem setSampleCount {value : Nat} (custody : InCustody pool inUse returning)
    (member : chunk ∈ inUse) (taken : pool.setSampleCount chunk value = some next) :
    InCustody next inUse returning := by
  unfold DirectPcm16BufferPool.setSampleCount at taken
  split at taken <;> cases taken
  refine ⟨custody.once, fun index created => ?_⟩
  rw [← custody.used index created]
  have same := Objects.set_get_view pool.chunks ⟨false, value⟩ chunk index
    PooledPcmChunk.released (custody.usable member).symm
  unfold released
  rw [same]

end InCustody

end DirectPcm16BufferPool

end LocalWhisper.Record.Buffer
