import LocalWhisper.Machine.JavaString
import LocalWhisper.Machine.Run
import LocalWhisper.Utils.StringPool

/-! The leases of one thread. `Join`, `Build` and `append` of an object run code of
their caller in the middle, so what is under way is a stack of such calls, and that
code may do anything that the pool offers. -/

namespace LocalWhisper.Utils

open Machine

/-- Who has the wrapper: code of the caller, or a call of `Build` or `Join`. -/
inductive Holder where
  | caller
  | build
  | join
  deriving DecidableEq, Repr

/-- A wrapper from its acquisition, when its text was `found`, to its first close. -/
structure BuilderLease where
  builder : Nat
  holder : Holder
  found : Units
  isOpen : Bool
  deriving DecidableEq, Repr

/-- A call that is under way. `Join` has appended the strings of some items, and is at
an item or between two. -/
inductive Frame where
  | appending (lease : Nat)
  | building (lease : Nat)
  | joining (lease : Nat) (separator : Units) (strings : List Units) (atItem : Bool)
  deriving DecidableEq, Repr

namespace Frame

def lease : Frame → Nat
  | .appending lease | .building lease | .joining lease _ _ _ => lease

def holder : Frame → Holder
  | .appending _ => .caller
  | .building _ => .build
  | .joining _ _ _ _ => .join

end Frame

/-- A call of `Join` that returned. -/
structure Joined where
  separator : Units
  strings : List Units
  result : Units
  deriving DecidableEq, Repr

/-- The leases that the thread ever had, its open calls, and the exceptions that
acquiring and closing have thrown to it. -/
structure PoolUse where
  storage : StringBuilderPoolStorage
  leases : List BuilderLease
  stack : List Frame
  joined : List Joined
  thrown : List String

inductive PoolUseLabel where
  | getBuilder
  /-- `append` of an object, whose `toString` may run any code. -/
  | append (lease : Nat)
  | appended (text : Units)
  | close (lease : Nat)
  /-- Another thread calls `close`. -/
  | foreignClose (thread lease : Nat)
  | build
  /-- The action of `Build` changes the `StringBuilder` that it was given. -/
  | edit (lease : Nat) (text : Units) (capacity : Nat)
  | buildReturns
  | join (separator : Units)
  /-- `Join` takes the next item, and then has its string, which may be null. -/
  | item
  | itemString (value : Option Units)
  | joinReturns
  /-- An exception leaves the innermost call. -/
  | leaves
  | clearCurrentThreadPool
  deriving DecidableEq, Repr

namespace PoolUse

def initial : PoolUse := ⟨.initial, [], [], [], []⟩

/-- `GetBuilder`, and the call that goes on with it. -/
def acquire (thread : Nat) (holder : Holder) (call : Nat → List Frame) (world : PoolUse) :
    PoolUse :=
  match world.storage.acquire thread with
  | (storage, .ok builder) =>
    { world with
      storage
      leases := world.leases ++
        [⟨builder, holder, (storage.builders.get builder).stringBuilder, true⟩]
      stack := call world.leases.length ++ world.stack }
  | (storage, .error message) => { world with storage, thrown := world.thrown ++ [message] }

/-- The object of a lease, when `holder` has it. -/
def held (world : PoolUse) (holder : Holder) (lease : Nat) : Option BuilderLease :=
  world.leases[lease]?.filter (·.holder = holder)

/-- `close` on the thread. -/
def close (thread lease : Nat) (current : BuilderLease) (world : PoolUse) : PoolUse :=
  match world.storage.releaseToOwnerPool thread current.builder with
  | (storage, .ok _) =>
    { world with storage, leases := world.leases.set lease { current with isOpen := false } }
  | (storage, .error message) => { world with storage, thrown := world.thrown ++ [message] }

/-- Another thread calls `close`. -/
def foreignClose (other : Nat) (current : BuilderLease) (world : PoolUse) : PoolUse :=
  { world with storage := (world.storage.releaseToOwnerPool other current.builder).1 }

/-- `append` of an object goes on with its `toString` when the wrapper is usable. -/
def append (thread lease : Nat) (current : BuilderLease) (world : PoolUse) : PoolUse :=
  match world.storage.ensureUsable thread current.builder with
  | .ok () => { world with stack := .appending lease :: world.stack }
  | .error _ => world

/-- The innermost call appends text and goes on as `stack`. -/
def extend (current : BuilderLease) (text : Units) (stack : List Frame) (world : PoolUse) :
    PoolUse :=
  { world with storage := world.storage.appendText current.builder text, stack }

def edit (current : BuilderLease) (text : Units) (capacity : Nat) (world : PoolUse) : PoolUse :=
  { world with
    storage := world.storage.setBuilder current.builder
      { world.storage.builders.get current.builder with stringBuilder := text, capacity } }

/-- The end of the innermost call, whose `try` closes what it has acquired. -/
def leave (thread : Nat) (frame : Frame) (rest : List Frame) (world : PoolUse) :
    Option PoolUse :=
  match frame with
  | .appending _ => some { world with stack := rest }
  | .building lease | .joining lease _ _ _ =>
    world.leases[lease]?.map fun current =>
      { world.close thread lease current with stack := rest }

/-- `Join` returns the text of its object. -/
def joinReturns (thread : Nat) (frame : Frame) (rest : List Frame) (separator : Units)
    (strings : List Units) (current : BuilderLease) (world : PoolUse) : Option PoolUse :=
  (world.leave thread frame rest).map fun after =>
    { after with
      joined := after.joined ++
        [⟨separator, strings, (world.storage.builders.get current.builder).stringBuilder⟩] }

/-- `String.valueOf`, as `append` has it for an object. -/
def valueOf (value : Option Units) : Units := value.getD (JavaString.ofString "null")

def step (thread : Nat) : Step PoolUse PoolUseLabel := fun world label =>
  match label, world.stack with
  | .getBuilder, _ => some (world.acquire thread .caller fun _ => [])
  | .append lease, _ => (world.held .caller lease).map fun current =>
      world.append thread lease current
  | .appended text, .appending lease :: rest =>
    world.leases[lease]?.map fun current => world.extend current text rest
  | .close lease, _ => (world.held .caller lease).map fun current =>
      world.close thread lease current
  | .foreignClose other lease, _ => (world.held .caller lease).map fun current =>
      world.foreignClose other current
  | .build, _ => some (world.acquire thread .build fun lease => [.building lease])
  | .edit lease text capacity, _ => (world.held .build lease).map fun current =>
      world.edit current text capacity
  | .buildReturns, .building lease :: rest => world.leave thread (.building lease) rest
  | .join separator, _ =>
    some (world.acquire thread .join fun lease => [.joining lease separator [] false])
  | .item, .joining lease separator strings false :: rest =>
    world.leases[lease]?.map fun current =>
      if strings = [] then { world with stack := .joining lease separator strings true :: rest }
      else world.extend current separator (.joining lease separator strings true :: rest)
  | .itemString value, .joining lease separator strings true :: rest =>
    world.leases[lease]?.map fun current =>
      world.extend current (valueOf value)
        (.joining lease separator (strings ++ [valueOf value]) false :: rest)
  | .joinReturns, .joining lease separator strings false :: rest =>
    world.leases[lease]?.bind fun current =>
      world.joinReturns thread (.joining lease separator strings false) rest separator strings
        current
  | .leaves, frame :: rest => world.leave thread frame rest
  | .clearCurrentThreadPool, _ =>
    some { world with storage := world.storage.clearCurrentThreadPool }
  | _, _ => none

/-- The object of the lease has been acquired again since. -/
def leasedAgain (world : PoolUse) (lease : Nat) : Bool :=
  world.leases[lease]?.any fun current =>
    (world.leases.drop (lease + 1)).any (·.builder = current.builder)

/-- What well-nested use comes down to: no wrapper is used after it was acquired again,
none is closed inside of an `append` to it, and the action of `Build` does not keep its
`StringBuilder`. -/
def Proper (thread : Nat) (world : PoolUse) : PoolUseLabel → Prop
  | .append lease => world.leasedAgain lease = false
  | .close lease => world.leasedAgain lease = false ∧
      ∀ frame ∈ world.stack, frame.lease ≠ lease
  | .foreignClose other _ => other ≠ thread
  | .edit lease _ _ => world.leases[lease]?.any (·.isOpen) = true
  | _ => True

instance (thread : Nat) (world : PoolUse) : DecidablePred (Proper thread world) := fun label => by
  cases label <;> (dsimp only [Proper]; infer_instance)

structure Separate (thread : Nat) (world : PoolUse) : Prop where
  apart : ∀ (first second : Nat) (one other : BuilderLease),
    world.leases[first]? = some one → world.leases[second]? = some other →
    one.isOpen = true → other.isOpen = true → one.builder = other.builder → first = second
  empty : ∀ lease ∈ world.leases, lease.found = []
  joins : ∀ call ∈ world.joined, call.result = call.separator.intercalate call.strings
  queuedOnce : ∀ pool, (world.storage.pools.get pool).objectQueue.Nodup
  inOneQueue : ∀ first second builder,
    builder ∈ (world.storage.pools.get first).objectQueue →
    builder ∈ (world.storage.pools.get second).objectQueue → first = second
  unqueued : ∀ lease ∈ world.leases, lease.isOpen = true →
    ∀ pool, lease.builder ∉ (world.storage.pools.get pool).objectQueue
  closedAgain : ∀ (lease : Nat) (current : BuilderLease) (closer : Nat),
    world.leases[lease]? = some current → current.isOpen = false → world.leasedAgain lease = false →
    world.storage.releaseToOwnerPool closer current.builder = (world.storage, .ok false)
  foreign : ∀ lease ∈ world.leases, lease.isOpen = true → ∀ other, other ≠ thread →
    world.storage.releaseToOwnerPool other lease.builder =
      (world.storage, .error StringBuilderPoolStorage.wrongThread)
  unthrown : world.thrown = []

end PoolUse

/-- The text of a call of `Join` as far as it is. -/
def Frame.Wrote : Frame → Units → Prop
  | .joining _ separator strings atItem, text =>
    text = separator.intercalate strings ++ if atItem = true ∧ strings ≠ [] then separator else []
  | _, _ => True

/-- Only calls of `append` share a lease with a call around them. -/
def Frame.Nested (inner outer : Frame) : Prop :=
  inner.lease = outer.lease → inner.holder = .caller

/-- The lent wrappers are those of the open leases. -/
structure Leased (thread : Nat) (storage : StringBuilderPoolStorage)
    (leases : List BuilderLease) : Prop where
  lent : ∀ lease ∈ leases, lease.isOpen = true →
    (storage.builders.get lease.builder).LentTo thread
  recycled : ∀ (first second : Nat) (one other : BuilderLease), first < second →
    leases[first]? = some one → leases[second]? = some other → one.builder = other.builder →
    one.isOpen = false
  owned : ∀ builder, (storage.builders.get builder).isClosed = false →
    ∃ lease ∈ leases, lease.isOpen = true ∧ lease.builder = builder

/-- A call under way has its lease open and its text as it wrote it. -/
def Framed (storage : StringBuilderPoolStorage) (leases : List BuilderLease) (frame : Frame) :
    Prop :=
  ∃ current, leases[frame.lease]? = some current ∧ current.isOpen = true ∧
    current.holder = frame.holder ∧
    frame.Wrote (storage.builders.get current.builder).stringBuilder

structure Stacked (storage : StringBuilderPoolStorage) (leases : List BuilderLease)
    (stack : List Frame) : Prop where
  framed : ∀ frame ∈ stack, Framed storage leases frame
  nested : stack.Pairwise Frame.Nested

namespace Leased

variable {thread : Nat} {storage after : StringBuilderPoolStorage} {leases : List BuilderLease}

theorem apart (leased : Leased thread storage leases) {first second : Nat}
    {one other : BuilderLease} (atFirst : leases[first]? = some one)
    (atSecond : leases[second]? = some other) (oneOpen : one.isOpen = true)
    (otherOpen : other.isOpen = true) (same : one.builder = other.builder) : first = second := by
  rcases Nat.lt_trichotomy first second with before | here | behind
  · have closed := leased.recycled first second one other before atFirst atSecond same
    rw [closed] at oneOpen
    cases oneOpen
  · exact here
  · have closed := leased.recycled second first other one behind atSecond atFirst same.symm
    rw [closed] at otherOpen
    cases otherOpen

private theorem lent_of_open (leased : Leased thread storage leases) {builder : Nat}
    (open' : (storage.builders.get builder).isClosed = false) :
    (storage.builders.get builder).LentTo thread := by
  obtain ⟨lease, member, isOpen, rfl⟩ := leased.owned builder open'
  exact leased.lent lease member isOpen

theorem closed_of_last (leased : Leased thread storage leases) {lease : Nat}
    {current : BuilderLease} (here : leases[lease]? = some current)
    (ended : current.isOpen = false)
    (last : ∀ (later : Nat) (other : BuilderLease), lease < later → leases[later]? = some other →
      other.builder ≠ current.builder) :
    (storage.builders.get current.builder).isClosed = true := by
  by_contra notClosed
  obtain ⟨other, member, isOpen, same⟩ :=
    leased.owned current.builder (by simpa using notClosed)
  obtain ⟨index, there⟩ := List.getElem?_of_mem member
  rcases Nat.lt_trichotomy index lease with before | rfl | behind
  · have closed := leased.recycled index lease other current before there here same
    rw [closed] at isOpen
    cases isOpen
  · rw [here] at there
    cases there
    rw [ended] at isOpen
    cases isOpen
  · exact last index other behind there same

private theorem foreign_unchanged (leased : Leased thread storage leases) {other : Nat}
    (foreign : other ≠ thread) (builder : Nat) :
    (storage.releaseToOwnerPool other builder).1 = storage := by
  cases closed : (storage.builders.get builder).isClosed with
  | true => rw [StringBuilderPoolStorage.releaseToOwnerPool_closed other closed]
  | false =>
    rw [StringBuilderPoolStorage.releaseToOwnerPool_foreign foreign (leased.lent_of_open closed)]

theorem not_open_of_closed (leased : Leased thread storage leases) {lease : BuilderLease}
    (member : lease ∈ leases)
    (closed : (storage.builders.get lease.builder).isClosed = true) : lease.isOpen = false := by
  by_contra isOpen
  have lent := (leased.lent lease member (by simpa using isOpen)).1
  rw [closed] at lent
  cases lent

theorem acquire (leased : Leased thread storage leases) {builder : Nat} {holder : Holder}
    {found : Units} (acquired : StringBuilderPoolStorage.Acquired thread storage after builder) :
    Leased thread after (leases ++ [⟨builder, holder, found, true⟩]) where
  lent := by
    intro lease member isOpen
    rcases List.mem_append.mp member with earlier | new
    · rw [acquired.others lease.builder]
      · exact leased.lent lease earlier isOpen
      · intro same
        have ended := leased.not_open_of_closed earlier (same ▸ acquired.closed)
        rw [ended] at isOpen
        cases isOpen
    · rw [List.mem_singleton.mp new]
      exact acquired.lent
  recycled := by
    intro first second one other before atFirst atSecond same
    have inside : first < leases.length := by
      have within := (List.getElem?_eq_some_iff.mp atSecond).1
      simp only [List.length_append, List.length_singleton] at within
      omega
    rw [List.getElem?_append_left inside] at atFirst
    by_cases earlier : second < leases.length
    · rw [List.getElem?_append_left earlier] at atSecond
      exact leased.recycled first second one other before atFirst atSecond same
    · have new : other.builder = builder := by
        rw [List.getElem?_append_right (by omega)] at atSecond
        rw [List.mem_singleton.mp (List.mem_of_getElem? atSecond)]
      apply leased.not_open_of_closed (List.mem_of_getElem? atFirst)
      rw [same, new]
      exact acquired.closed
  owned := by
    intro other isOpen
    by_cases same : other = builder
    · exact ⟨_, List.mem_append_right _ (List.mem_singleton_self _), rfl, same.symm⟩
    · rw [acquired.others other same] at isOpen
      obtain ⟨lease, member, holds⟩ := leased.owned other isOpen
      exact ⟨lease, List.mem_append_left _ member, holds⟩

/-- Closing a lease changes no other one. -/
theorem getElem?_close {lease index : Nat} {current entry : BuilderLease}
    (here : leases[lease]? = some current)
    (there : (leases.set lease { current with isOpen := false })[index]? = some entry) :
    ∃ earlier, leases[index]? = some earlier ∧ earlier.builder = entry.builder ∧
      earlier.found = entry.found ∧
      (entry.isOpen = true → index ≠ lease ∧ entry = earlier) := by
  rw [List.getElem?_set] at there
  split at there
  · rename_i same
    subst same
    split at there
    · cases there
      exact ⟨current, here, rfl, rfl, fun isOpen => by cases isOpen⟩
    · cases there
  · rename_i different
    exact ⟨entry, there, rfl, rfl, fun _ => ⟨Ne.symm different, rfl⟩⟩

theorem release (leased : Leased thread storage leases) {lease : Nat} {current : BuilderLease}
    (here : leases[lease]? = some current) (isOpen : current.isOpen = true)
    (released : StringBuilderPoolStorage.Released storage after current.builder) :
    Leased thread after (leases.set lease { current with isOpen := false }) where
  lent := by
    intro entry member entryOpen
    obtain ⟨index, there⟩ := List.getElem?_of_mem member
    obtain ⟨_, earlier, _, _, unchanged⟩ := getElem?_close here there
    obtain ⟨different, rfl⟩ := unchanged entryOpen
    rw [released.others entry.builder]
    · exact leased.lent entry (List.mem_of_getElem? earlier) entryOpen
    · exact fun same => different (leased.apart earlier here entryOpen isOpen same)
  recycled := by
    intro first second one other before atFirst atSecond same
    obtain ⟨_, oneThere, _, _, oneKept⟩ := getElem?_close here atFirst
    obtain ⟨_, otherThere, otherSame, _, _⟩ := getElem?_close here atSecond
    by_contra oneOpen
    obtain ⟨_, rfl⟩ := oneKept (by simpa using oneOpen)
    exact oneOpen (leased.recycled first second _ _ before oneThere otherThere
      (same.trans otherSame.symm))
  owned := by
    intro builder notClosed
    have different : builder ≠ current.builder := by
      rintro rfl
      rw [released.closed] at notClosed
      cases notClosed
    rw [released.others builder different] at notClosed
    obtain ⟨entry, member, entryOpen, rfl⟩ := leased.owned builder notClosed
    obtain ⟨index, there⟩ := List.getElem?_of_mem member
    have elsewhere : lease ≠ index := by
      rintro rfl
      rw [here] at there
      cases there
      exact different rfl
    exact ⟨entry, List.mem_of_getElem? ((List.getElem?_set_ne elsewhere).trans there),
      entryOpen, rfl⟩

/-- Text changes nothing about the leases. -/
theorem setText (leased : Leased thread storage leases) {builder : Nat}
    {later : StringBufferBuilderPool} (created : builder < storage.builders.count)
    (lent : (storage.builders.get builder).LentTo thread) (lentLater : later.LentTo thread) :
    Leased thread (storage.setBuilder builder later) leases where
  lent := by
    intro lease member isOpen
    by_cases same : lease.builder = builder
    · rw [same, show (storage.setBuilder builder later).builders.get builder = later from
        Objects.set_get_self _ _ created]
      exact lentLater
    · rw [show (storage.setBuilder builder later).builders.get lease.builder = _ from
        Objects.set_get_of_ne _ _ same]
      exact leased.lent lease member isOpen
  recycled := leased.recycled
  owned := by
    intro other notClosed
    by_cases same : other = builder
    · rw [same]
      exact leased.owned builder lent.1
    · rw [show (storage.setBuilder builder later).builders.get other = _ from
        Objects.set_get_of_ne _ _ same] at notClosed
      exact leased.owned other notClosed

end Leased

section Stacks

variable {thread : Nat} {storage after : StringBuilderPoolStorage} {leases : List BuilderLease}
variable {frame : Frame} {stack : List Frame}

theorem Framed.acquire (framed : Framed storage leases frame)
    (leased : Leased thread storage leases)
    {builder : Nat} (acquired : StringBuilderPoolStorage.Acquired thread storage after builder)
    (new : BuilderLease) : Framed after (leases ++ [new]) frame := by
  obtain ⟨current, here, isOpen, holder, wrote⟩ := framed
  refine ⟨current, ?_, isOpen, holder, ?_⟩
  · rw [List.getElem?_append_left (List.getElem?_eq_some_iff.mp here).1]
    exact here
  · rw [acquired.others current.builder]
    · exact wrote
    · intro same
      have ended := leased.not_open_of_closed (List.mem_of_getElem? here)
        (same ▸ acquired.closed)
      rw [ended] at isOpen
      cases isOpen

theorem Framed.release (framed : Framed storage leases frame)
    (leased : Leased thread storage leases)
    {lease : Nat} {current : BuilderLease} (here : leases[lease]? = some current)
    (isOpen : current.isOpen = true)
    (released : StringBuilderPoolStorage.Released storage after current.builder)
    (elsewhere : frame.lease ≠ lease) :
    Framed after (leases.set lease { current with isOpen := false }) frame := by
  obtain ⟨own, there, ownOpen, holder, wrote⟩ := framed
  refine ⟨own, ?_, ownOpen, holder, ?_⟩
  · rw [List.getElem?_set_ne (Ne.symm elsewhere)]
    exact there
  · rw [released.others own.builder]
    · exact wrote
    · exact fun same => elsewhere (leased.apart there here ownOpen isOpen same)

theorem Frame.wrote_of_not_join {text : Units} (other : frame.holder ≠ .join) :
    frame.Wrote text := by
  cases frame with
  | appending | building => trivial
  | joining => exact absurd rfl other

theorem Framed.holder_eq (framed : Framed storage leases frame) {current : BuilderLease}
    (here : leases[frame.lease]? = some current) :
    current.isOpen = true ∧ current.holder = frame.holder ∧
      frame.Wrote (storage.builders.get current.builder).stringBuilder := by
  obtain ⟨own, there, framed⟩ := framed
  rw [here] at there
  cases there
  exact framed

theorem Framed.setText (framed : Framed storage leases frame)
    (leased : Leased thread storage leases)
    {lease : Nat} {current : BuilderLease} {later : StringBufferBuilderPool}
    (here : leases[lease]? = some current) (isOpen : current.isOpen = true)
    (elsewhere : frame.lease = lease → frame.holder ≠ .join) :
    Framed (storage.setBuilder current.builder later) leases frame := by
  obtain ⟨own, there, ownOpen, holder, wrote⟩ := framed
  refine ⟨own, there, ownOpen, holder, ?_⟩
  by_cases same : own.builder = current.builder
  · exact Frame.wrote_of_not_join (elsewhere (leased.apart there here ownOpen isOpen same))
  · rw [show (storage.setBuilder current.builder later).builders.get own.builder = _ from
      Objects.set_get_of_ne _ _ same]
    exact wrote

/-- A new lease may have a call that has written nothing. -/
theorem Stacked.acquire (stacked : Stacked storage leases stack)
    (leased : Leased thread storage leases) {builder : Nat} {holder : Holder} {found : Units}
    (acquired : StringBuilderPoolStorage.Acquired thread storage after builder)
    {calls : List Frame} (once : calls.Pairwise Frame.Nested)
    (blank : ∀ call ∈ calls, call.lease = leases.length ∧ call.holder = holder ∧ call.Wrote []) :
    Stacked after (leases ++ [⟨builder, holder, found, true⟩]) (calls ++ stack) where
  framed := by
    intro frame member
    rcases List.mem_append.mp member with new | earlier
    · obtain ⟨last, sameHolder, wrote⟩ := blank frame new
      refine ⟨⟨builder, holder, found, true⟩, ?_, rfl, sameHolder.symm, ?_⟩
      · rw [last]
        exact List.getElem?_concat_length
      · rw [acquired.empty]
        exact wrote
    · exact (stacked.framed frame earlier).acquire leased acquired _
  nested := by
    apply List.pairwise_append.mpr ⟨once, stacked.nested, ?_⟩
    intro inner new outer earlier same
    obtain ⟨current, here, _⟩ := stacked.framed outer earlier
    have inside := (List.getElem?_eq_some_iff.mp here).1
    rw [← same, (blank inner new).1] at inside
    exact absurd inside (Nat.lt_irrefl _)

theorem Stacked.tail (stacked : Stacked storage leases (frame :: stack)) :
    Stacked storage leases stack :=
  ⟨fun other member => stacked.framed other (List.mem_cons_of_mem _ member),
    (List.pairwise_cons.mp stacked.nested).2⟩

/-- The leases of the calls around one that has acquired its own. -/
theorem Stacked.elsewhere (stacked : Stacked storage leases (frame :: stack))
    (own : frame.holder ≠ .caller) : ∀ outer ∈ stack, outer.lease ≠ frame.lease := by
  intro outer member same
  exact own ((List.pairwise_cons.mp stacked.nested).1 outer member same.symm)

theorem Stacked.goOn (stacked : Stacked storage leases (frame :: stack)) (later : Frame)
    (sameLease : later.lease = frame.lease) (sameHolder : later.holder = frame.holder)
    (rest : ∀ outer ∈ stack, Framed after leases outer) (own : Framed after leases later) :
    Stacked after leases (later :: stack) where
  framed := by
    intro other member
    rcases List.mem_cons.mp member with rfl | outer
    · exact own
    · exact rest other outer
  nested := by
    obtain ⟨inner, outer⟩ := List.pairwise_cons.mp stacked.nested
    refine List.pairwise_cons.mpr ⟨?_, outer⟩
    intro other member same
    rw [sameHolder]
    exact inner other member (sameLease.symm.trans same)

end Stacks

private theorem intercalate_concat (separator last : Units) (strings : List Units) :
    separator.intercalate (strings ++ [last]) =
      separator.intercalate strings ++ (if strings ≠ [] then separator else []) ++ last := by
  induction strings with
  | nil => simp
  | cons first rest ih =>
    cases rest with
    | nil => simp [List.intercalate_cons_cons]
    | cons second others =>
      simp only [List.cons_append, List.intercalate_cons_cons] at ih ⊢
      rw [ih]
      simp

namespace PoolUse

/-- What holds of the leases whatever is under way. -/
structure Core (thread : Nat) (world : PoolUse) : Prop where
  pooled : world.storage.Pooled
  leased : Leased thread world.storage world.leases
  empty : ∀ lease ∈ world.leases, lease.found = []
  joins : ∀ call ∈ world.joined, call.result = call.separator.intercalate call.strings
  unthrown : world.thrown = []

/-- The invariant of well-nested use. -/
structure Valid (thread : Nat) (world : PoolUse) : Prop where
  core : world.Core thread
  stacked : Stacked world.storage world.leases world.stack

variable {thread : Nat} {world : PoolUse}

private theorem initial_valid : initial.Valid thread where
  core :=
    { pooled := StringBuilderPoolStorage.initial_pooled
      leased :=
        { lent := fun _ member => absurd member List.not_mem_nil
          recycled := fun _ _ _ _ _ atFirst => nomatch atFirst
          owned := fun _ notClosed => nomatch notClosed }
      empty := fun _ member => absurd member List.not_mem_nil
      joins := fun _ member => absurd member List.not_mem_nil
      unthrown := rfl }
  stacked := ⟨fun _ member => absurd member List.not_mem_nil, .nil⟩

theorem leasedAgain_eq_false {lease : Nat} {current : BuilderLease}
    (here : world.leases[lease]? = some current) (last : world.leasedAgain lease = false)
    (later : Nat) (other : BuilderLease) (after : lease < later)
    (there : world.leases[later]? = some other) : other.builder ≠ current.builder := by
  simp only [leasedAgain, here, Option.any_some, List.any_eq_false, decide_eq_true_eq] at last
  apply last other
  apply List.mem_of_getElem? (i := later - (lease + 1))
  rw [List.getElem?_drop, Nat.add_sub_cancel' after]
  exact there

theorem Core.separate (core : world.Core thread) : world.Separate thread where
  apart := fun _ _ _ _ => core.leased.apart
  empty := core.empty
  joins := core.joins
  queuedOnce := core.pooled.once
  inOneQueue := core.pooled.single
  unqueued := by
    intro lease member isOpen pool
    exact core.pooled.lent_unqueued (core.leased.lent lease member isOpen) pool
  closedAgain := by
    intro lease current closer here ended last
    apply StringBuilderPoolStorage.releaseToOwnerPool_closed
    exact core.leased.closed_of_last here ended (leasedAgain_eq_false here last)
  foreign := by
    intro lease member isOpen other foreign
    exact StringBuilderPoolStorage.releaseToOwnerPool_foreign foreign
      (core.leased.lent lease member isOpen)
  unthrown := core.unthrown

theorem Valid.acquire (valid : world.Valid thread) {holder : Holder} {call : Nat → List Frame}
    (once : (call world.leases.length).Pairwise Frame.Nested)
    (blank : ∀ frame ∈ call world.leases.length, frame.lease = world.leases.length ∧
      frame.holder = holder ∧ frame.Wrote []) :
    (world.acquire thread holder call).Valid thread := by
  obtain ⟨core, stacked⟩ := valid
  obtain ⟨after, builder, result, acquired⟩ :=
    StringBuilderPoolStorage.acquire_acquired core.pooled thread
  simp only [PoolUse.acquire, result, acquired.empty]
  refine ⟨⟨acquired.pooled, core.leased.acquire acquired, ?_, core.joins, core.unthrown⟩,
    stacked.acquire core.leased acquired once blank⟩
  intro lease member
  rcases List.mem_append.mp member with earlier | new
  · exact core.empty lease earlier
  · rw [List.mem_singleton.mp new]

private theorem close_stack {lease : Nat} {current : BuilderLease} :
    { world.close thread lease current with stack := world.stack } =
      world.close thread lease current := by
  unfold close
  split <;> rfl

/-- A `close` of a lease that is over changes nothing. -/
theorem Core.close_closed (core : world.Core thread) {lease : Nat} {current : BuilderLease}
    (here : world.leases[lease]? = some current) (ended : current.isOpen = false)
    (last : world.leasedAgain lease = false) : world.close thread lease current = world := by
  have unchanged := core.separate.closedAgain lease current thread here ended last
  have same : { current with isOpen := false } = current := by
    rw [← ended]
  have kept : world.leases.set lease current = world.leases := by
    obtain ⟨inside, rfl⟩ := List.getElem?_eq_some_iff.mp here
    exact List.set_getElem_self inside
  simp only [close, unchanged, same, kept]

theorem Core.close_open (core : world.Core thread) {lease : Nat} {current : BuilderLease}
    (here : world.leases[lease]? = some current) (isOpen : current.isOpen = true)
    {stack : List Frame} (stacked : Stacked world.storage world.leases stack)
    (elsewhere : ∀ frame ∈ stack, frame.lease ≠ lease) :
    Valid thread { world.close thread lease current with stack } := by
  obtain ⟨after, retained, result, released⟩ :=
    StringBuilderPoolStorage.releaseToOwnerPool_released core.pooled
      (core.leased.lent current (List.mem_of_getElem? here) isOpen)
  simp only [close, result]
  refine ⟨⟨released.pooled, core.leased.release here isOpen released, ?_, core.joins,
    core.unthrown⟩, ?_, stacked.nested⟩
  · intro entry member
    obtain ⟨index, there⟩ := List.getElem?_of_mem member
    obtain ⟨earlier, before, _, sameText, _⟩ := Leased.getElem?_close here there
    rw [← sameText]
    exact core.empty earlier (List.mem_of_getElem? before)
  · intro frame member
    exact (stacked.framed frame member).release core.leased here isOpen released
      (elsewhere frame member)

theorem Core.restack (core : world.Core thread) (stack : List Frame) :
    Core thread { world with stack } :=
  ⟨core.pooled, core.leased, core.empty, core.joins, core.unthrown⟩

/-- New text for an open lease. -/
theorem Core.setText (core : world.Core thread) {lease : Nat} {current : BuilderLease}
    {later : StringBufferBuilderPool} (here : world.leases[lease]? = some current)
    (isOpen : current.isOpen = true) (lentLater : later.LentTo thread) (stack : List Frame) :
    Core thread
      { world with storage := world.storage.setBuilder current.builder later, stack } := by
  have lent := core.leased.lent current (List.mem_of_getElem? here) isOpen
  exact ⟨core.pooled.setText lent lentLater,
    core.leased.setText (StringBuilderPoolStorage.created_of_lent lent) lent lentLater,
    core.empty, core.joins, core.unthrown⟩

/-- The text of a lease that no `Join` has. -/
theorem Valid.setText (valid : world.Valid thread) {lease : Nat} {current : BuilderLease}
    {later : StringBufferBuilderPool} (here : world.leases[lease]? = some current)
    (isOpen : current.isOpen = true) (other : current.holder ≠ .join)
    (lentLater : later.LentTo thread) {stack : List Frame}
    (part : stack.Sublist world.stack) :
    Valid thread
      { world with storage := world.storage.setBuilder current.builder later, stack } where
  core := valid.core.setText here isOpen lentLater stack
  stacked := by
    refine ⟨?_, valid.stacked.nested.sublist part⟩
    intro frame member
    have framed := valid.stacked.framed frame (part.subset member)
    apply framed.setText valid.core.leased here isOpen
    rintro rfl
    rw [← (framed.holder_eq here).2.1]
    exact other

theorem Valid.leave {after : PoolUse} {frame : Frame} {rest : List Frame}
    (valid : world.Valid thread) (stack : world.stack = frame :: rest)
    (left : world.leave thread frame rest = some after) : after.Valid thread := by
  obtain ⟨core, stacked⟩ := valid
  rw [stack] at stacked
  have innermost := stacked.framed frame List.mem_cons_self
  cases frame with
  | appending lease =>
    cases left
    exact ⟨core.restack rest, stacked.tail⟩
  | building lease | joining lease =>
    obtain ⟨current, here, rfl⟩ := Option.map_eq_some_iff.mp left
    exact core.close_open here (innermost.holder_eq here).1 stacked.tail
      (stacked.elsewhere (by simp [Frame.holder]))

theorem Valid.append (valid : world.Valid thread) {lease : Nat} {current : BuilderLease}
    (here : world.held .caller lease = some current) (last : world.leasedAgain lease = false) :
    (world.append thread lease current).Valid thread := by
  obtain ⟨there, holder⟩ := Option.filter_eq_some_iff.mp here
  unfold PoolUse.append
  split
  · rename_i usable
    refine ⟨valid.core.restack _, ?_, ?_⟩
    · intro frame member
      rcases List.mem_cons.mp member with rfl | earlier
      · refine ⟨current, there, ?_, (by simpa using holder : current.holder = .caller), trivial⟩
        by_contra ended
        have closed := valid.core.leased.closed_of_last there (by simpa using ended)
          (leasedAgain_eq_false there last)
        simp [StringBuilderPoolStorage.ensureUsable, closed] at usable
      · exact valid.stacked.framed frame earlier
    · exact List.pairwise_cons.mpr ⟨fun _ _ _ => rfl, valid.stacked.nested⟩
  · exact valid

/-- `Join` appends text to its own object. -/
theorem Valid.extend {frame : Frame} (later : Frame) {rest : List Frame}
    (valid : world.Valid thread) (stack : world.stack = frame :: rest)
    (own : frame.holder = .join) {current : BuilderLease}
    (here : world.leases[frame.lease]? = some current) {text : Units}
    (sameLease : later.lease = frame.lease) (sameHolder : later.holder = frame.holder)
    (wrote : later.Wrote
      ((world.storage.builders.get current.builder).stringBuilder ++ text)) :
    (world.extend current text (later :: rest)).Valid thread := by
  obtain ⟨core, stacked⟩ := valid
  rw [stack] at stacked
  have innermost := (stacked.framed frame List.mem_cons_self).holder_eq here
  have lent := core.leased.lent current (List.mem_of_getElem? here) innermost.1
  refine ⟨core.setText here innermost.1 (lent.setText _ _) _, ?_⟩
  apply stacked.goOn later sameLease sameHolder
  · intro outer member
    apply (stacked.framed outer (List.mem_cons_of_mem _ member)).setText core.leased here
      innermost.1
    intro same
    exact absurd same (stacked.elsewhere (by simp [own]) outer member)
  · refine ⟨current, sameLease ▸ here, innermost.1, innermost.2.1.trans sameHolder.symm, ?_⟩
    rw [show (world.extend current text (later :: rest)).storage.builders.get current.builder = _
      from Objects.set_get_self _ _ (StringBuilderPoolStorage.created_of_lent lent)]
    exact wrote

theorem Valid.item {lease : Nat} {separator : Units} {strings : List Units} {rest : List Frame}
    (valid : world.Valid thread)
    (stack : world.stack = .joining lease separator strings false :: rest)
    {current : BuilderLease} (here : world.leases[lease]? = some current) :
    Valid thread (if strings = [] then
        { world with stack := .joining lease separator strings true :: rest }
      else world.extend current separator (.joining lease separator strings true :: rest)) := by
  have innermost := valid.stacked.framed (.joining lease separator strings false) (by simp [stack])
  have wrote := (innermost.holder_eq here).2.2
  split
  · rename_i first
    refine ⟨valid.core.restack _, ?_⟩
    have stacked := valid.stacked
    rw [stack] at stacked
    apply stacked.goOn (.joining lease separator strings true) rfl rfl stacked.tail.framed
    refine ⟨current, here, (innermost.holder_eq here).1, (innermost.holder_eq here).2.1, ?_⟩
    simpa [Frame.Wrote, first] using wrote
  · rename_i later
    apply valid.extend (.joining lease separator strings true) stack rfl here rfl rfl
    simp only [Frame.Wrote] at wrote ⊢
    rw [wrote]
    simp [later]

theorem Valid.itemString {lease : Nat} {separator text : Units} {strings : List Units}
    {rest : List Frame} (valid : world.Valid thread)
    (stack : world.stack = .joining lease separator strings true :: rest)
    {current : BuilderLease} (here : world.leases[lease]? = some current) :
    (world.extend current text (.joining lease separator (strings ++ [text]) false :: rest)).Valid
      thread := by
  have innermost := valid.stacked.framed (.joining lease separator strings true) (by simp [stack])
  have wrote := (innermost.holder_eq here).2.2
  apply valid.extend (.joining lease separator (strings ++ [text]) false) stack rfl here rfl rfl
  simp only [Frame.Wrote] at wrote ⊢
  rw [wrote, intercalate_concat]
  simp

theorem Valid.joinReturns {lease : Nat} {separator : Units} {strings : List Units}
    {rest : List Frame} {after : PoolUse} (valid : world.Valid thread)
    (stack : world.stack = .joining lease separator strings false :: rest)
    {current : BuilderLease} (here : world.leases[lease]? = some current)
    (returned : world.joinReturns thread (.joining lease separator strings false) rest separator
      strings current = some after) : after.Valid thread := by
  have innermost := valid.stacked.framed (.joining lease separator strings false) (by simp [stack])
  have wrote := (innermost.holder_eq here).2.2
  obtain ⟨left, closed, rfl⟩ := Option.map_eq_some_iff.mp returned
  obtain ⟨core, stacked⟩ := valid.leave stack closed
  refine ⟨⟨core.pooled, core.leased, core.empty, ?_, core.unthrown⟩, stacked⟩
  intro call member
  rcases List.mem_append.mp member with earlier | new
  · exact core.joins call earlier
  · rw [List.mem_singleton.mp new]
    simpa [Frame.Wrote] using wrote

theorem Valid.clear (valid : world.Valid thread) :
    Valid thread { world with storage := world.storage.clearCurrentThreadPool } := by
  obtain ⟨core, stacked⟩ := valid
  have same := world.storage.clearCurrentThreadPool_builders
  refine ⟨⟨core.pooled.clearCurrentThreadPool, ⟨?_, core.leased.recycled, ?_⟩, core.empty,
    core.joins, core.unthrown⟩, ⟨?_, stacked.nested⟩⟩
  · dsimp only
    rw [same]
    exact core.leased.lent
  · dsimp only
    rw [same]
    exact core.leased.owned
  · unfold Framed
    dsimp only
    rw [same]
    exact stacked.framed

/-- One step of well-nested use. -/
theorem Valid.step {label : PoolUseLabel} {after : PoolUse} (valid : world.Valid thread)
    (proper : world.Proper thread label) (taken : PoolUse.step thread world label = some after) :
    after.Valid thread := by
  unfold PoolUse.step at taken
  split at taken
  · -- getBuilder
    cases taken
    exact valid.acquire .nil (fun _ member => absurd member List.not_mem_nil)
  · -- append
    obtain ⟨current, here, rfl⟩ := Option.map_eq_some_iff.mp taken
    exact valid.append here proper
  · -- appended
    rename_i stack
    obtain ⟨current, here, rfl⟩ := Option.map_eq_some_iff.mp taken
    have innermost := (valid.stacked.framed (.appending _) (by simp [stack])).holder_eq here
    have lent := valid.core.leased.lent current (List.mem_of_getElem? here) innermost.1
    apply valid.setText here innermost.1 (by simp [innermost.2.1, Frame.holder])
      (lent.setText _ _)
    simp [stack]
  · -- close
    obtain ⟨current, here, rfl⟩ := Option.map_eq_some_iff.mp taken
    obtain ⟨there, _⟩ := Option.filter_eq_some_iff.mp here
    cases isOpen : current.isOpen with
    | false =>
      rw [valid.core.close_closed there isOpen proper.1]
      exact valid
    | true =>
      have closed := valid.core.close_open there isOpen valid.stacked proper.2
      rwa [close_stack] at closed
  · -- foreignClose
    obtain ⟨current, here, rfl⟩ := Option.map_eq_some_iff.mp taken
    simp only [foreignClose, valid.core.leased.foreign_unchanged proper]
    exact valid
  · -- build
    cases taken
    apply valid.acquire (List.pairwise_singleton _ _)
    intro frame member
    rw [List.mem_singleton.mp member]
    exact ⟨rfl, rfl, trivial⟩
  · -- edit
    obtain ⟨current, here, rfl⟩ := Option.map_eq_some_iff.mp taken
    obtain ⟨there, holder⟩ := Option.filter_eq_some_iff.mp here
    have isOpen : current.isOpen = true := by simpa [Proper, there] using proper
    have lent := valid.core.leased.lent current (List.mem_of_getElem? there) isOpen
    exact valid.setText there isOpen (by simp_all) (lent.setText _ _) (List.Sublist.refl _)
  · -- buildReturns
    rename_i stack
    exact valid.leave stack taken
  · -- join
    cases taken
    apply valid.acquire (List.pairwise_singleton _ _)
    intro frame member
    rw [List.mem_singleton.mp member]
    exact ⟨rfl, rfl, by simp [Frame.Wrote]⟩
  · -- item
    rename_i stack
    obtain ⟨current, here, rfl⟩ := Option.map_eq_some_iff.mp taken
    exact valid.item stack here
  · -- itemString
    rename_i stack
    obtain ⟨current, here, rfl⟩ := Option.map_eq_some_iff.mp taken
    exact valid.itemString stack here
  · -- joinReturns
    rename_i stack
    obtain ⟨current, here, returned⟩ := Option.bind_eq_some_iff.mp taken
    exact valid.joinReturns stack here returned
  · -- leaves
    rename_i stack
    exact valid.leave stack taken
  · -- clearCurrentThreadPool
    cases taken
    exact valid.clear
  · cases taken

theorem leases_never_mix {thread : Nat} {world : PoolUse}
    (run : Reaches (PoolUse.step thread) (Proper thread) initial world) :
    world.Separate thread := by
  have valid : world.Valid thread :=
    run.invariant initial_valid fun valid proper taken => valid.step proper taken
  exact valid.core.separate

/-- A `Join` inside of an `append`, with an action of `Build` that clears the pool and
throws at its first item. -/
def nestedLabels : List PoolUseLabel :=
  [.getBuilder, .append 0, .join [0x2C], .item, .build, .edit 2 [0x78] 5000,
    .clearCurrentThreadPool, .foreignClose 2 0, .leaves, .itemString (some [0x61]), .item,
    .getBuilder, .close 3, .itemString none, .joinReturns, .appended [0x62], .close 0, .close 0]

def nestedWorld : PoolUse :=
  (executeChecked (PoolUse.step 1) (fun world label => decide (world.Proper 1 label)) initial
    nestedLabels).get (by decide +kernel)

theorem leases_never_mix_nested : nestedWorld.Separate 1 ∧
    nestedWorld.joined = [⟨[0x2C], [[0x61], valueOf none], [0x61, 0x2C] ++ valueOf none⟩] := by
  have run : Reaches (PoolUse.step 1) (fun world label => decide (world.Proper 1 label) = true)
      initial nestedWorld := Reaches.of_executeChecked (Option.some_get _).symm
  exact ⟨leases_never_mix (run.weaken fun _ _ proper => of_decide_eq_true proper),
    by decide +kernel⟩

end PoolUse

end LocalWhisper.Utils
