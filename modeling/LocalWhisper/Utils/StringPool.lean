import LocalWhisper.Machine.JavaString
import LocalWhisper.Machine.Objects
import Mathlib.Data.List.Nodup

/-! `StringBufferBuilderPool` with its storage and its `ObjectPool`, as one thread has
them. -/

namespace LocalWhisper.Utils

open Machine

/-- The wrapper with the text and the capacity of its `StringBuilder`. -/
structure StringBufferBuilderPool where
  stringBuilder : Units
  capacity : Nat
  ownerThread : Option Nat
  ownerPool : Option Nat
  isClosed : Bool
  deriving DecidableEq, Repr

namespace StringBufferBuilderPool

def maxCapacity : Nat := 4096

def new : StringBufferBuilderPool := ⟨[], 16, none, none, true⟩

/-- `StringBuilder.append`, which makes room as `ensureCapacity` does. -/
def extend (builder : StringBufferBuilderPool) (text : Units) : StringBufferBuilderPool :=
  let longer := builder.stringBuilder ++ text
  { builder with
    stringBuilder := longer
    capacity :=
      if longer.length ≤ builder.capacity then builder.capacity
      else max longer.length (2 * builder.capacity + 2) }

def prepareForPool (builder : StringBufferBuilderPool) : StringBufferBuilderPool :=
  ⟨[], if builder.capacity > maxCapacity then 0 else builder.capacity, none, none, true⟩

/-- Lent by some pool to a thread that has not closed it. -/
def LentTo (thread : Nat) (builder : StringBufferBuilderPool) : Prop :=
  builder.isClosed = false ∧ builder.ownerThread = some thread ∧ builder.ownerPool.isSome = true

theorem LentTo.setText {thread : Nat} {builder : StringBufferBuilderPool}
    (lent : builder.LentTo thread) (stringBuilder : Units) (capacity : Nat) :
    LentTo thread { builder with stringBuilder, capacity } := lent

end StringBufferBuilderPool

/-- The part of `ObjectPool` that changes; nothing is called back but `prepareForPool`. -/
structure ObjectPool where
  objectQueue : List Nat
  activeCount : Int
  deriving DecidableEq, Repr

namespace ObjectPool

def maxCapacity : Nat := 100

end ObjectPool

/-- The wrappers, the pools, and the pool that the `ThreadLocal` has for this thread. -/
structure StringBuilderPoolStorage where
  builders : Objects StringBufferBuilderPool (· = .new)
  pools : Objects ObjectPool (·.objectQueue = [])
  builderPool : Option Nat

namespace StringBuilderPoolStorage

def initial : StringBuilderPoolStorage := ⟨.empty .new rfl, .empty ⟨[], 0⟩ rfl, none⟩

variable (storage : StringBuilderPoolStorage)

def setBuilder (builder : Nat) (later : StringBufferBuilderPool) : StringBuilderPoolStorage :=
  { storage with builders := storage.builders.set builder later }

def setPool (pool : Nat) (later : ObjectPool) : StringBuilderPoolStorage :=
  { storage with pools := storage.pools.set pool later }

/-- `new StringBufferBuilderPool()`. -/
def createBuilder : StringBuilderPoolStorage × Nat :=
  ({ storage with builders := storage.builders.create .new }, storage.builders.count)

/-- A new pool has two wrappers from the beginning. -/
def getCurrentThreadPool : StringBuilderPoolStorage × Nat :=
  match storage.builderPool with
  | some pool => (storage, pool)
  | none =>
    let (storage, first) := storage.createBuilder
    let (storage, second) := storage.createBuilder
    ({ storage with
        pools := storage.pools.create ⟨[first, second], 0⟩
        builderPool := some storage.pools.count }, storage.pools.count)

def getOrCreate (pool : Nat) : StringBuilderPoolStorage × Nat :=
  let held := storage.pools.get pool
  match held.objectQueue with
  | builder :: rest => (storage.setPool pool ⟨rest, held.activeCount + 1⟩, builder)
  | [] =>
    let (storage, builder) := storage.createBuilder
    (storage.setPool pool ⟨[], held.activeCount + 1⟩, builder)

def prepareForUse (thread pool builder : Nat) : Except String StringBuilderPoolStorage :=
  let held := storage.builders.get builder
  if held.isClosed then
    .ok (storage.setBuilder builder
      { held with ownerPool := some pool, ownerThread := some thread, isClosed := false })
  else .error "StringBufferBuilderPool is already leased"

/-- `Acquire`, which is `GetBuilder`. -/
def acquire (thread : Nat) : StringBuilderPoolStorage × Except String Nat :=
  let (storage, pool) := storage.getCurrentThreadPool
  let (storage, builder) := storage.getOrCreate pool
  match storage.prepareForUse thread pool builder with
  | .ok storage => (storage, .ok builder)
  | .error message => (storage, .error message)

def releaseOrDelete (pool builder : Nat) : StringBuilderPoolStorage :=
  let storage := storage.setBuilder builder (storage.builders.get builder).prepareForPool
  let held := storage.pools.get pool
  storage.setPool pool
    ⟨if held.objectQueue.length < ObjectPool.maxCapacity then held.objectQueue ++ [builder]
      else held.objectQueue, held.activeCount - 1⟩

def wrongThread : String := "StringBufferBuilderPool must be used and closed by its owner thread"

/-- `ReleaseToOwnerPool`, which is `close` and `TryRelease`, called on a thread. -/
def releaseToOwnerPool (thread builder : Nat) : StringBuilderPoolStorage × Except String Bool :=
  let held := storage.builders.get builder
  if held.isClosed then (storage, .ok false)
  else if held.ownerThread ≠ some thread then (storage, .error wrongThread)
  else
    let retainedBuffer := decide (held.capacity ≤ StringBufferBuilderPool.maxCapacity)
    let storage := storage.setBuilder builder { held with isClosed := true }
    match held.ownerPool with
    | some pool => (storage.releaseOrDelete pool builder, .ok retainedBuffer)
    | none => (storage, .error "NullPointerException")

def ensureUsable (thread builder : Nat) : Except String Unit :=
  let held := storage.builders.get builder
  if held.isClosed then .error "StringBufferBuilderPool is already closed"
  else if held.ownerThread ≠ some thread then .error wrongThread
  else .ok ()

/-- `append` of the `StringBuilder` itself. -/
def appendText (builder : Nat) (text : Units) : StringBuilderPoolStorage :=
  storage.setBuilder builder ((storage.builders.get builder).extend text)

def clearCurrentThreadPool : StringBuilderPoolStorage :=
  match storage.builderPool with
  | none => storage
  | some pool => { storage.setPool pool ⟨[], 0⟩ with builderPool := none }

/-- What is closed is empty, and what is in a queue is closed and nowhere else. -/
structure Pooled (storage : StringBuilderPoolStorage) : Prop where
  idle : ∀ builder, (storage.builders.get builder).isClosed = true →
    (storage.builders.get builder).stringBuilder = []
  queued : ∀ pool, ∀ builder ∈ (storage.pools.get pool).objectQueue,
    builder < storage.builders.count ∧ (storage.builders.get builder).isClosed = true
  once : ∀ pool, (storage.pools.get pool).objectQueue.Nodup
  single : ∀ first second builder, builder ∈ (storage.pools.get first).objectQueue →
    builder ∈ (storage.pools.get second).objectQueue → first = second

theorem initial_pooled : Pooled initial where
  idle := fun _ _ => rfl
  queued := fun _ _ member => absurd member List.not_mem_nil
  once := fun _ => List.nodup_nil
  single := fun _ _ _ member => absurd member List.not_mem_nil

variable {storage}

theorem createBuilder_get : storage.createBuilder.1.builders.get = storage.builders.get := by
  funext index
  simp only [createBuilder, Objects.create_get]
  split
  · rename_i new
    exact (storage.builders.unused index (Nat.le_of_eq new.symm)).symm
  · rfl

private theorem createBuilder_count :
    storage.createBuilder.1.builders.count = storage.builders.count + 1 := rfl

theorem uncreated_not_queued (pooled : storage.Pooled) {pool builder : Nat}
    (uncreated : storage.builders.count ≤ builder) :
    builder ∉ (storage.pools.get pool).objectQueue := by
  intro member
  have created := (pooled.queued pool builder member).1
  omega

theorem uncreated_closed {builder : Nat} (uncreated : storage.builders.count ≤ builder) :
    (storage.builders.get builder).isClosed = true := by
  rw [storage.builders.unused builder uncreated]
  rfl

theorem clearCurrentThreadPool_builders (storage : StringBuilderPoolStorage) :
    storage.clearCurrentThreadPool.builders = storage.builders := by
  unfold clearCurrentThreadPool
  split <;> rfl

namespace Pooled

theorem createBuilder (pooled : storage.Pooled) : storage.createBuilder.1.Pooled where
  idle := by
    rw [createBuilder_get]
    exact pooled.idle
  queued := by
    intro pool builder member
    have earlier := pooled.queued pool builder member
    rw [createBuilder_get, createBuilder_count]
    exact ⟨by omega, earlier.2⟩
  once := pooled.once
  single := pooled.single

/-- A wrapper outside the queues may change as long as it is empty when closed. -/
theorem setBuilder (pooled : storage.Pooled) {builder : Nat} {later : StringBufferBuilderPool}
    (unqueued : ∀ pool, builder ∉ (storage.pools.get pool).objectQueue)
    (idle : later.isClosed = true → later.stringBuilder = []) :
    (storage.setBuilder builder later).Pooled where
  idle := by
    intro other
    exact @Objects.set_forall _ _ storage.builders later builder other
      (fun _ held => held.isClosed = true → held.stringBuilder = []) pooled.idle idle
  queued := by
    intro pool other member
    have different : other ≠ builder := by
      rintro rfl
      exact unqueued pool member
    have earlier := pooled.queued pool other member
    refine ⟨earlier.1, ?_⟩
    rw [show ((storage.setBuilder builder later).builders.get other) = storage.builders.get other
      from Objects.set_get_of_ne _ _ different]
    exact earlier.2
  once := pooled.once
  single := pooled.single

theorem setPool (pooled : storage.Pooled) {pool : Nat} {later : ObjectPool}
    (once : later.objectQueue.Nodup)
    (queued : ∀ builder ∈ later.objectQueue, builder < storage.builders.count ∧
      (storage.builders.get builder).isClosed = true)
    (alone : ∀ builder ∈ later.objectQueue, ∀ other, other ≠ pool →
      builder ∉ (storage.pools.get other).objectQueue) :
    (storage.setPool pool later).Pooled where
  idle := pooled.idle
  queued := by
    intro other
    exact @Objects.set_forall _ _ storage.pools later pool other
      (fun _ held => ∀ builder ∈ held.objectQueue, builder < storage.builders.count ∧
        (storage.builders.get builder).isClosed = true) pooled.queued queued
  once := by
    intro other
    exact @Objects.set_forall _ _ storage.pools later pool other
      (fun _ held => held.objectQueue.Nodup) pooled.once once
  single := by
    intro first second builder inFirst inSecond
    simp only [StringBuilderPoolStorage.setPool, Objects.set_get] at inFirst inSecond
    split at inFirst <;> split at inSecond
    · rename_i here there
      rw [here.1, there.1]
    · rename_i here there
      by_cases same : second = pool
      · rw [here.1, same]
      · exact absurd inSecond (alone builder inFirst second same)
    · rename_i here there
      by_cases same : first = pool
      · rw [there.1, same]
      · exact absurd inFirst (alone builder inSecond first same)
    · exact pooled.single first second builder inFirst inSecond

theorem forget (pooled : storage.Pooled) {builderPool : Option Nat} :
    Pooled { storage with builderPool } :=
  ⟨pooled.idle, pooled.queued, pooled.once, pooled.single⟩

theorem clearCurrentThreadPool (pooled : storage.Pooled) :
    storage.clearCurrentThreadPool.Pooled := by
  unfold StringBuilderPoolStorage.clearCurrentThreadPool
  split
  · exact pooled
  · apply forget
    apply pooled.setPool List.nodup_nil
    · exact fun _ member => absurd member List.not_mem_nil
    · exact fun _ member => absurd member List.not_mem_nil

theorem createPool (pooled : storage.Pooled) {first second : Nat} (different : first ≠ second)
    (created : first < storage.builders.count ∧ second < storage.builders.count)
    (closed : (storage.builders.get first).isClosed = true ∧
      (storage.builders.get second).isClosed = true)
    (unqueued : ∀ pool, first ∉ (storage.pools.get pool).objectQueue ∧
      second ∉ (storage.pools.get pool).objectQueue) :
    Pooled { storage with pools := storage.pools.create ⟨[first, second], 0⟩ } where
  idle := pooled.idle
  queued := by
    intro pool builder member
    simp only [Objects.create_get] at member
    split at member
    · rcases List.mem_pair.mp member with rfl | rfl
      · exact ⟨created.1, closed.1⟩
      · exact ⟨created.2, closed.2⟩
    · exact pooled.queued pool builder member
  once := by
    intro pool
    simp only [Objects.create_get]
    split
    · simp [different]
    · exact pooled.once pool
  single := by
    intro one other builder inOne inOther
    simp only [Objects.create_get] at inOne inOther
    split at inOne <;> split at inOther
    · rename_i here there
      rw [here, there]
    · rcases List.mem_pair.mp inOne with rfl | rfl
      · exact absurd inOther (unqueued other).1
      · exact absurd inOther (unqueued other).2
    · rcases List.mem_pair.mp inOther with rfl | rfl
      · exact absurd inOne (unqueued one).1
      · exact absurd inOne (unqueued one).2
    · exact pooled.single one other builder inOne inOther

theorem getCurrentThreadPool (pooled : storage.Pooled) :
    storage.getCurrentThreadPool.1.Pooled := by
  unfold StringBuilderPoolStorage.getCurrentThreadPool
  split
  · exact pooled
  · have twice := pooled.createBuilder.createBuilder
    refine (twice.createPool (Nat.ne_of_lt (Nat.lt_succ_self storage.builders.count))
      ⟨?_, ?_⟩ ?_ ?_).forget
    · exact Nat.lt_add_of_pos_right (by decide : 0 < 2)
    · exact Nat.lt_succ_self _
    · simp only [createBuilder_get]
      exact ⟨uncreated_closed (Nat.le_refl _), uncreated_closed (Nat.le_succ _)⟩
    · intro pool
      exact ⟨uncreated_not_queued pooled (Nat.le_refl _),
        uncreated_not_queued pooled (Nat.le_succ _)⟩

end Pooled

theorem getCurrentThreadPool_get :
    storage.getCurrentThreadPool.1.builders.get = storage.builders.get := by
  unfold getCurrentThreadPool
  split
  · rfl
  · exact createBuilder_get.trans createBuilder_get

/-- What `getOrCreate` takes out of a queue or creates. -/
structure Taken (before after : StringBuilderPoolStorage) (builder : Nat) : Prop where
  pooled : after.Pooled
  same : after.builders.get = before.builders.get
  created : builder < after.builders.count
  closed : (before.builders.get builder).isClosed = true
  unqueued : ∀ pool, builder ∉ (after.pools.get pool).objectQueue

private theorem getOrCreate_taken (pooled : storage.Pooled) (pool : Nat) :
    Taken storage (storage.getOrCreate pool).1 (storage.getOrCreate pool).2 := by
  unfold getOrCreate
  dsimp only
  split
  · rename_i builder rest queue
    have front : builder ∈ (storage.pools.get pool).objectQueue := by simp [queue]
    have created : pool < storage.pools.count :=
      storage.pools.lt_count_of_used (by simp [queue])
    have once := pooled.once pool
    rw [queue, List.nodup_cons] at once
    have earlier := pooled.queued pool builder front
    refine ⟨?_, rfl, earlier.1, earlier.2, ?_⟩
    · apply pooled.setPool once.2
      · intro other member
        exact pooled.queued pool other (by simp [queue, member])
      · intro other member another different inAnother
        exact different (pooled.single another pool other inAnother (by simp [queue, member]))
    · intro another inAnother
      simp only [setPool, Objects.set_get] at inAnother
      split at inAnother
      · exact once.1 inAnother
      · rename_i outside
        exact outside ⟨pooled.single another pool builder inAnother front, created⟩
  · refine ⟨?_, createBuilder_get, Nat.lt_succ_self _, uncreated_closed (Nat.le_refl _), ?_⟩
    · apply pooled.createBuilder.setPool List.nodup_nil
      · exact fun _ member => absurd member List.not_mem_nil
      · exact fun _ member => absurd member List.not_mem_nil
    · intro another inAnother
      simp only [setPool, Objects.set_get] at inAnother
      split at inAnother
      · exact absurd inAnother List.not_mem_nil
      · exact uncreated_not_queued pooled (Nat.le_refl _) inAnother

structure Acquired (thread : Nat) (before after : StringBuilderPoolStorage) (builder : Nat) :
    Prop where
  pooled : after.Pooled
  closed : (before.builders.get builder).isClosed = true
  lent : (after.builders.get builder).LentTo thread
  empty : (after.builders.get builder).stringBuilder = []
  others : ∀ other, other ≠ builder → after.builders.get other = before.builders.get other

theorem acquire_acquired (pooled : storage.Pooled) (thread : Nat) :
    ∃ after builder, storage.acquire thread = (after, .ok builder) ∧
      Acquired thread storage after builder := by
  have taken := getOrCreate_taken pooled.getCurrentThreadPool storage.getCurrentThreadPool.2
  have same := taken.same.trans getCurrentThreadPool_get
  obtain ⟨storage', builder, result⟩ :
      ∃ storage' builder, storage.getCurrentThreadPool.1.getOrCreate
        storage.getCurrentThreadPool.2 = (storage', builder) := ⟨_, _, rfl⟩
  rw [result] at taken same
  have closed := taken.closed
  rw [getCurrentThreadPool_get] at closed
  have here : (storage'.builders.get builder).isClosed = true := by
    rw [same]
    exact closed
  have acquired : storage.acquire thread = (storage'.setBuilder builder
      { storage'.builders.get builder with
        ownerPool := some storage.getCurrentThreadPool.2
        ownerThread := some thread
        isClosed := false }, .ok builder) := by
    simp [acquire, result, prepareForUse, here]
  refine ⟨_, builder, acquired, ?_, closed, ?_, ?_, ?_⟩
  · exact taken.pooled.setBuilder taken.unqueued (by simp)
  · simp [setBuilder, Objects.set_get_self _ _ taken.created, StringBufferBuilderPool.LentTo]
  · simp only [setBuilder, Objects.set_get_self _ _ taken.created]
    exact taken.pooled.idle builder here
  · intro other different
    rw [← same]
    exact Objects.set_get_of_ne _ _ different

theorem created_of_lent {thread builder : Nat}
    (lent : (storage.builders.get builder).LentTo thread) : builder < storage.builders.count := by
  apply Objects.lt_count_of_used
  intro unused
  have closed := lent.1
  rw [unused] at closed
  cases closed

theorem Pooled.lent_unqueued (pooled : storage.Pooled) {thread builder : Nat}
    (lent : (storage.builders.get builder).LentTo thread) (pool : Nat) :
    builder ∉ (storage.pools.get pool).objectQueue := by
  intro member
  have closed := (pooled.queued pool builder member).2
  rw [lent.1] at closed
  cases closed

/-- A lent wrapper keeps its lease whatever happens to its text. -/
theorem Pooled.setText (pooled : storage.Pooled) {thread builder : Nat}
    {later : StringBufferBuilderPool} (lent : (storage.builders.get builder).LentTo thread)
    (lentLater : later.LentTo thread) : (storage.setBuilder builder later).Pooled := by
  apply pooled.setBuilder (pooled.lent_unqueued lent)
  intro closed
  rw [lentLater.1] at closed
  cases closed

structure Released (before after : StringBuilderPoolStorage) (builder : Nat) : Prop where
  pooled : after.Pooled
  closed : (after.builders.get builder).isClosed = true
  others : ∀ other, other ≠ builder → after.builders.get other = before.builders.get other

private theorem releaseOrDelete_released (storage : StringBuilderPoolStorage) (pool : Nat)
    {builder : Nat} (created : builder < storage.builders.count)
    (unqueued : ∀ pool, builder ∉ (storage.pools.get pool).objectQueue)
    (idle : (storage.setBuilder builder
      (storage.builders.get builder).prepareForPool).Pooled) :
    Released storage (storage.releaseOrDelete pool builder) builder := by
  have prepared : ((storage.setBuilder builder
      (storage.builders.get builder).prepareForPool).builders.get builder) =
      (storage.builders.get builder).prepareForPool :=
    Objects.set_get_self _ _ created
  refine ⟨?_, ?_, fun other different => Objects.set_get_of_ne _ _ different⟩
  · unfold releaseOrDelete
    apply idle.setPool
    · dsimp only
      split
      · apply List.Nodup.append (idle.once pool) (List.nodup_singleton builder)
        simp only [List.disjoint_singleton]
        exact unqueued pool
      · exact idle.once pool
    · intro other member
      dsimp only at member
      split at member
      · rcases List.mem_append.mp member with earlier | new
        · exact idle.queued pool other earlier
        · rw [List.mem_singleton.mp new, prepared]
          exact ⟨created, rfl⟩
      · exact idle.queued pool other member
    · intro other member another different inAnother
      dsimp only at member
      split at member
      · rcases List.mem_append.mp member with earlier | new
        · exact different (idle.single another pool other inAnother earlier)
        · rw [List.mem_singleton.mp new] at inAnother
          exact unqueued another inAnother
      · exact different (idle.single another pool other inAnother member)
  · unfold releaseOrDelete
    simp only [setPool, prepared]
    rfl

theorem releaseToOwnerPool_released (pooled : storage.Pooled) {thread builder : Nat}
    (lent : (storage.builders.get builder).LentTo thread) :
    ∃ after retained, storage.releaseToOwnerPool thread builder = (after, .ok retained) ∧
      Released storage after builder := by
  obtain ⟨open', owner, pool, lender⟩ : (storage.builders.get builder).isClosed = false ∧
      (storage.builders.get builder).ownerThread = some thread ∧
      ∃ pool, (storage.builders.get builder).ownerPool = some pool :=
    ⟨lent.1, lent.2.1, Option.isSome_iff_exists.mp lent.2.2⟩
  have created := created_of_lent lent
  have closing := Objects.set_get_self storage.builders
    { storage.builders.get builder with isClosed := true } created
  have unqueued := pooled.lent_unqueued lent
  have released := releaseOrDelete_released
    (storage.setBuilder builder { storage.builders.get builder with isClosed := true }) pool
    created unqueued (by
      simp only [setBuilder, closing, Objects.set_set]
      exact pooled.setBuilder unqueued fun _ => rfl)
  have ended : storage.releaseToOwnerPool thread builder =
      ((storage.setBuilder builder { storage.builders.get builder with isClosed := true }
        ).releaseOrDelete pool builder,
      .ok (decide ((storage.builders.get builder).capacity ≤
        StringBufferBuilderPool.maxCapacity))) := by
    unfold releaseToOwnerPool
    dsimp only
    rw [if_neg (by simp [open']), if_neg (by simp [owner]), lender]
  refine ⟨_, _, ended, released.pooled, released.closed, ?_⟩
  intro other different
  exact (released.others other different).trans (Objects.set_get_of_ne _ _ different)

theorem releaseToOwnerPool_closed {builder : Nat} (thread : Nat)
    (closed : (storage.builders.get builder).isClosed = true) :
    storage.releaseToOwnerPool thread builder = (storage, .ok false) := by
  simp [releaseToOwnerPool, closed]

theorem releaseToOwnerPool_foreign {thread other builder : Nat} (foreign : other ≠ thread)
    (lent : (storage.builders.get builder).LentTo thread) :
    storage.releaseToOwnerPool other builder = (storage, .error wrongThread) := by
  simp [releaseToOwnerPool, lent.1, lent.2.1, Ne.symm foreign]

end StringBuilderPoolStorage

end LocalWhisper.Utils
