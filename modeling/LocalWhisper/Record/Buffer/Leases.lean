import LocalWhisper.Machine.Run
import LocalWhisper.Record.Buffer.ChunkPool

/-! The holders of the chunks of one `DirectPcm16BufferPool`. The handle that
`acquire` returns is the chunk itself, so a holder can close it again when it
already serves another one. -/

namespace LocalWhisper.Record.Buffer

open LocalWhisper.Machine

namespace DirectPcm16BufferPool

/-- `PooledPcmChunk.ensureOwned`. -/
def ensureOwned (pool : DirectPcm16BufferPool) (chunk : Nat) : Except String Unit :=
  if pool.released chunk then .error "PCM chunk is already released" else .ok ()

/-- `PooledPcmChunk.bytes`: the memory of a chunk is known by its address. -/
def bytes (pool : DirectPcm16BufferPool) (chunk : Nat) : Except String Nat := do
  pool.ensureOwned chunk
  return chunk

theorem bytes_eq_ok_iff {pool : DirectPcm16BufferPool} {chunk : Nat} :
    pool.bytes chunk = .ok chunk ↔ pool.released chunk = false := by
  unfold bytes ensureOwned
  cases pool.released chunk with
  | false => exact iff_of_true rfl rfl
  | true =>
    constructor
    · intro thrown
      cases thrown
    · intro used
      cases used

end DirectPcm16BufferPool

/-- What one holder got from `acquire`, and whether the holder has closed it. -/
structure Lease where
  chunk : Nat
  closed : Bool
  deriving DecidableEq, Repr

/-- A pool with all the leases it ever granted, and the chunks whose `close` has
set the flag but not yet entered `release`. -/
structure Leases where
  pool : DirectPcm16BufferPool
  granted : List Lease
  returning : List Nat

/-- A call, or the second half of a `close`. -/
inductive LeaseCall where
  | acquire
  | close (lease : Nat)
  | release (chunk : Nat)
  | clear
  deriving DecidableEq, Repr

namespace Leases

def initial (sampleCapacity maxCachedBuffers : Nat) : Leases :=
  ⟨.new sampleCapacity maxCachedBuffers, [], []⟩

/-- `acquire` grants a lease unless it throws; `close` of any lease, closed or
not, acts on the chunk. -/
def step : Step Leases LeaseCall := fun state call =>
  match call with
  | .acquire =>
    match state.pool.acquire with
    | (some chunk, pool) => some { state with pool, granted := state.granted ++ [⟨chunk, false⟩] }
    | (none, pool) => some { state with pool }
  | .close lease =>
    state.granted[lease]?.map fun granted =>
      let closed := state.granted.set lease { granted with closed := true }
      match state.pool.markReleased granted.chunk with
      | some pool => ⟨pool, closed, granted.chunk :: state.returning⟩
      | none => { state with granted := closed }
  | .release chunk =>
    if chunk ∈ state.returning then
      some { state with
        pool := state.pool.release chunk
        returning := state.returning.erase chunk }
    else none
  | .clear => some { state with pool := state.pool.clear }

/-- The chunks of the leases that are still open. -/
def openChunks (granted : List Lease) : List Nat :=
  (granted.filter fun lease => !lease.closed).map (·.chunk)

/-- Open leases do not share a chunk, the pool caches none of theirs, none twice
and no more than it may, and every open lease gives access to its bytes. -/
structure Exclusive (state : Leases) : Prop where
  apart : (openChunks state.granted).Nodup
  uncached : ∀ chunk ∈ openChunks state.granted, chunk ∉ state.pool.freeBuffers
  once : state.pool.freeBuffers.Nodup
  bounded : state.pool.freeBuffers.length ≤ state.pool.maxCachedBuffers
  usable : ∀ chunk ∈ openChunks state.granted, state.pool.bytes chunk = .ok chunk

/-- A holder that closes its lease once more does so while no open lease has the
chunk. -/
def Timely (state : Leases) : LeaseCall → Prop
  | .close lease => ∀ granted ∈ state.granted[lease]?, granted.closed = true →
      granted.chunk ∉ openChunks state.granted
  | _ => True

/-- The invariant of the runs without a late close. -/
structure Held (state : Leases) : Prop where
  custody : state.pool.InCustody (openChunks state.granted) state.returning
  created : ∀ lease ∈ state.granted, lease.chunk < state.pool.chunks.count
  bounded : state.pool.freeBuffers.length ≤ state.pool.maxCachedBuffers

theorem openChunks_cons (first : Lease) (rest : List Lease) : openChunks (first :: rest) =
    if first.closed then openChunks rest else first.chunk :: openChunks rest := by
  unfold openChunks
  cases closed : first.closed with
  | false => simp [closed]
  | true => simp [closed]

private theorem openChunks_append (granted : List Lease) (chunk : Nat) :
    openChunks (granted ++ [⟨chunk, false⟩]) = openChunks granted ++ [chunk] := by
  simp [openChunks]

private theorem openChunks_close {granted : List Lease} {lease : Nat} {held : Lease}
    (found : granted[lease]? = some held) (unclosed : held.closed = false) :
    (openChunks granted).Perm
      (held.chunk :: openChunks (granted.set lease { held with closed := true })) := by
  induction granted generalizing lease with
  | nil => cases found
  | cons first rest ih =>
    cases lease with
    | zero =>
      cases found
      rw [List.set_cons_zero, openChunks_cons, openChunks_cons, unclosed]
      exact List.Perm.refl _
    | succ lease =>
      have shorter := ih found
      rw [List.set_cons_succ, openChunks_cons, openChunks_cons]
      split
      · exact shorter
      · exact (shorter.cons _).trans (List.Perm.swap ..)

theorem set_closed {granted : List Lease} {lease : Nat} {held : Lease}
    (found : granted[lease]? = some held) (closed : held.closed = true) :
    granted.set lease { held with closed := true } = granted := by
  obtain ⟨inside, rfl⟩ := List.getElem?_eq_some_iff.mp found
  rw [← closed]
  exact List.set_getElem_self inside

/-- The invariant says more than the property. -/
theorem Held.exclusive {state : Leases} (held : Held state) : Exclusive state where
  apart := by
    have all := held.custody.nodup
    rw [List.append_assoc, List.append_assoc] at all
    exact (List.nodup_append.mp all).1
  uncached := by
    intro chunk isOpen cached
    have closed := held.custody.closed (List.mem_append_left _ (List.mem_append_right _ cached))
    rw [held.custody.usable isOpen] at closed
    cases closed
  once := by
    have all := held.custody.nodup
    exact (List.nodup_append.mp (List.nodup_append.mp all).1).2.1
  bounded := held.bounded
  usable := by
    intro chunk isOpen
    exact DirectPcm16BufferPool.bytes_eq_ok_iff.mpr (held.custody.usable isOpen)

theorem held_initial (sampleCapacity maxCachedBuffers : Nat) :
    Held (initial sampleCapacity maxCachedBuffers) where
  custody := ⟨List.Perm.refl _, nofun⟩
  created := nofun
  bounded := Nat.zero_le _

theorem close_late {state after : Leases} {lease : Nat} {granted : Lease} (held : Held state)
    (found : state.granted[lease]? = some granted) (closed : granted.closed = true)
    (late : granted.chunk ∈ openChunks state.granted)
    (taken : step state (.close lease) = some after) : ¬ Exclusive after := by
  intro exclusive
  have free := held.custody.usable late
  have inside : granted.chunk < state.pool.chunks.count :=
    held.custody.created (by simp [late])
  simp only [step, found, Option.map_some, DirectPcm16BufferPool.markReleased, free,
    Bool.false_eq_true, if_false, Option.some.injEq] at taken
  subst taken
  have unusable := DirectPcm16BufferPool.bytes_eq_ok_iff.mp
    (exclusive.usable granted.chunk (by rwa [set_closed found closed]))
  simp [DirectPcm16BufferPool.released, Objects.set_get, inside] at unusable

/-- The step lemma: a call that is not late keeps the invariant. -/
theorem step_held {state after : Leases} {call : LeaseCall} (held : Held state)
    (timely : Timely state call) (taken : step state call = some after) : Held after := by
  cases call with
  | acquire =>
    obtain ⟨chunk, given, custody⟩ := held.custody.acquire
    obtain ⟨shorter, -, limit⟩ := state.pool.acquire_frame
    have more := state.pool.count_le_acquire
    have bounded := held.bounded
    cases acquired : state.pool.acquire with
    | mk result pool =>
      rw [acquired] at given custody shorter limit more
      simp only at given custody shorter limit more
      subst given
      simp only [step, acquired, Option.some.injEq] at taken
      subst taken
      refine ⟨?_, ?_, ?_⟩
      · apply custody.rearrange _ (List.Perm.refl _)
        rw [openChunks_append]
        exact (List.perm_append_singleton _ _).symm
      · intro lease member
        rcases List.mem_append.mp member with old | new
        · exact Nat.lt_of_lt_of_le (held.created lease old) more
        · rw [List.mem_singleton.mp new]
          exact custody.created (by simp)
      · rcases shorter with fewer | ⟨-, empty⟩
        · simp only
          omega
        · simp [empty]
  | close lease =>
    obtain ⟨granted, found, rfl⟩ := Option.map_eq_some_iff.mp taken
    have member := List.mem_of_getElem? found
    cases closed : granted.closed with
    | true =>
      -- The chunk is not that of an open lease, so it is released already.
      have inside := held.created granted member
      have unused := timely granted found closed
      have released : state.pool.released granted.chunk = true := by
        rw [← Bool.not_eq_false]
        intro free
        exact unused ((held.custody.used granted.chunk inside).mp free)
      have same := set_closed found closed
      simp only [DirectPcm16BufferPool.markReleased, released, if_true]
      rw [same]
      exact held
    | false =>
      have rearranged := held.custody.rearrange (openChunks_close found closed) (List.Perm.refl _)
      obtain ⟨pool, marked, custody⟩ := rearranged.markReleased
      obtain ⟨free, -, limit⟩ := DirectPcm16BufferPool.markReleased_frame marked
      simp only [marked]
      refine ⟨custody, ?_, ?_⟩
      · intro other set
        rw [DirectPcm16BufferPool.markReleased_count marked]
        rcases List.mem_or_eq_of_mem_set set with old | new
        · exact held.created other old
        · rw [new]
          exact held.created granted member
      · rw [free, limit]
        exact held.bounded
  | release chunk =>
    simp only [step] at taken
    split at taken <;> cases taken
    rename_i back
    have custody := held.custody.rearrange (List.Perm.refl _) (List.perm_cons_erase back)
    refine ⟨custody.release, ?_, ?_⟩
    · intro lease member
      simp only [DirectPcm16BufferPool.release_count]
      exact held.created lease member
    · simp only [DirectPcm16BufferPool.release]
      split
      · exact held.bounded
      · rename_i room
        simp only [List.length_cons]
        omega
  | clear =>
    cases taken
    exact ⟨held.custody.clear, held.created, Nat.zero_le _⟩

private theorem step_exclusive_iff {state after : Leases} {call : LeaseCall} (held : Held state)
    (taken : step state call = some after) : Exclusive after ↔ Timely state call := by
  constructor
  · intro exclusive
    cases call with
    | close lease =>
      intro granted found closed late
      exact close_late held found closed late taken exclusive
    | acquire => trivial
    | release chunk => trivial
    | clear => trivial
  · intro timely
    exact (step_held held timely taken).exclusive

/-- In every order of calls the leases stay exclusive exactly as long as no holder
closes its lease again while its chunk serves an open one. -/
theorem exclusive_iff_timely (sampleCapacity maxCachedBuffers : Nat) (calls : List LeaseCall) :
    Always step Exclusive (initial sampleCapacity maxCachedBuffers) calls ↔
      Each step Timely (initial sampleCapacity maxCachedBuffers) calls :=
  always_iff_each (fun held _ timely taken => step_held held timely taken)
    (fun held _ taken => step_exclusive_iff held taken) (held_initial _ _)
    (held_initial _ _).exclusive calls

/-- A holder closes its lease again after another holder got the chunk, and a third
one gets it too. -/
theorem late_close_shares_chunk :
    ¬ ∀ sampleCapacity maxCachedBuffers calls state,
      execute step (initial sampleCapacity maxCachedBuffers) calls = some state →
        Exclusive state := by
  intro always
  have shared := always 8000 132
    [.acquire, .close 0, .release 0, .acquire, .close 0, .release 0, .acquire] _ rfl
  exact absurd shared.apart (by decide)

end Leases

end LocalWhisper.Record.Buffer
