import LocalWhisper.Events.EventAwaiter

/-! Awaiters whose renters keep to their lease are used once and never shared. -/

namespace LocalWhisper.Events

open Machine

def receivers (stack : List Frame) : List Nat :=
  stack.filterMap fun
    | .receiving awaiter _ => some awaiter
    | .publishing _ _ _ => none

namespace AwaiterHub

/-- What holds whatever is under way: only an awaiter in a lease is subscribed, it is
in one lease and in no pool, and while it has started its latest start has no callback
before it receives. -/
structure Core (world : AwaiterHub) : Prop where
  sound : ∃ registrations, world.hub.Represents assignable registrations
  calm : ∀ awaiter, (world.awaiters awaiter).completed = false
  kind : ∀ type, ∀ awaiter ∈ world.hub.consumersOf type, (world.awaiters awaiter).kind = type
  subscribed : ∀ type, ∀ awaiter ∈ world.hub.consumersOf type,
    (∃ lease, world.Holds lease awaiter) ∧ (world.awaiters awaiter).hasStarted = true
  single : ∀ type, (world.hub.consumersOf type).Nodup
  pooled : ∀ kind, ∀ awaiter ∈ world.pools kind, (world.awaiters awaiter).kind = kind ∧
    awaiter < world.created ∧ ∀ lease, ¬ world.Holds lease awaiter
  distinct : ∀ kind, (world.pools kind).Nodup
  held : ∀ lease awaiter, world.Holds lease awaiter → awaiter < world.created
  alone : ∀ first second awaiter, world.Holds first awaiter → world.Holds second awaiter →
    first = second
  begun : ∀ awaiter, (world.awaiters awaiter).hasStarted = true →
    (∃ lease, world.Holds lease awaiter) ∧ ∃ start, world.startOf awaiter = some start
  fresh : ∀ awaiter, (world.awaiters awaiter).hasStarted = true →
    world.startOf awaiter ∈ world.callbacks.map Prod.fst →
      (world.awaiters awaiter).isReceiving = true
  below : ∀ awaiter start, world.startOf awaiter = some start → start < world.starts
  apart : ∀ one other start, world.startOf one = some start →
    world.startOf other = some start → one = other
  counted : ∀ start, some start ∈ world.callbacks.map Prod.fst → start < world.starts
  known : none ∉ world.callbacks.map Prod.fst
  once : (world.callbacks.map Prod.fst).Nodup

/-- The callbacks on the stack, each with the lease of its awaiter. -/
structure Framed (world : AwaiterHub) : Prop where
  receiving : ∀ awaiter, (world.awaiters awaiter).isReceiving = true ↔
    awaiter ∈ receivers world.stack
  frames : ∀ awaiter lease, .receiving awaiter lease ∈ world.stack →
    ∃ current, lease = some current ∧ world.Holds current awaiter
  nested : (receivers world.stack).Nodup

/-- The invariant of the proper runs. -/
structure Valid (world : AwaiterHub) : Prop where
  core : world.Core
  framed : world.Framed

theorem Core.oneShot {world : AwaiterHub} (core : world.Core) : world.OneShot where
  pooledOnce := core.distinct
  leasedOnce := core.alone
  unsubscribed := by
    intro kind awaiter pooled type subscribed
    obtain ⟨lease, holds⟩ := (core.subscribed type awaiter subscribed).1
    exact (core.pooled kind awaiter pooled).2.2 lease holds
  calledFor := core.known
  calledOnce := core.once

section Steps

variable {world : AwaiterHub} {lease awaiter : Nat}

@[simp] theorem change_awaiters (world : AwaiterHub) (awaiter other : Nat)
    (later : EventAwaiter) : (world.change awaiter later).awaiters other =
      if other = awaiter then later else world.awaiters other := by
  simp [change, Function.update_apply]

private theorem holds_endLease (world : AwaiterHub) (lease other awaiter : Nat) :
    (world.endLease (some lease)).Holds other awaiter ↔
      other ≠ lease ∧ world.Holds other awaiter := by
  simp only [Holds, endLease, List.getElem?_modify]
  by_cases same : lease = other
  · subst same
    cases world.leases[lease]? <;> simp
  · simp [same, Ne.symm same]

theorem holder_holds (rented : Lease.mk awaiter false ∈ world.leases) :
    ∃ lease, world.holder awaiter = some lease ∧ world.Holds lease awaiter := by
  cases found : world.holder awaiter with
  | none =>
    have absent := List.findIdx?_eq_none_iff.mp found _ rented
    simp at absent
  | some lease =>
    obtain ⟨inside, same, -⟩ := List.findIdx?_eq_some_iff_getElem.mp found
    refine ⟨lease, rfl, ?_⟩
    rw [Holds, List.getElem?_eq_getElem inside, of_decide_eq_true same]

theorem complete_change (world : AwaiterHub) (awaiter : Nat) (later : EventAwaiter)
    (kind : later.kind = (world.awaiters awaiter).kind)
    (requestCode : later.requestCode = (world.awaiters awaiter).requestCode)
    (calm : (world.awaiters awaiter).completed = false) (laterCalm : later.completed = false) :
    (world.change awaiter later).complete awaiter = world.complete awaiter := by
  have reset : later.reset = (world.awaiters awaiter).reset := by
    rw [EventAwaiter.reset, EventAwaiter.reset, kind, requestCode]
  simp only [complete, change_awaiters, if_true, laterCalm, calm, kind, reset]
  simp only [change, Function.update_idem]
  rfl

/-- What the completion of an awaiter and the end of its lease do. -/
structure GivenBack (world next : AwaiterHub) (lease awaiter : Nat) : Prop where
  sound : ∃ registrations, next.hub.Represents assignable registrations
  reset : next.awaiters awaiter = (world.awaiters awaiter).reset
  others : ∀ other, other ≠ awaiter → next.awaiters other = world.awaiters other
  leases : ∀ number other, next.Holds number other ↔ number ≠ lease ∧ world.Holds number other
  consumers : ∀ type, next.hub.consumersOf type =
    if type = (world.awaiters awaiter).kind then
      (world.hub.consumersOf (world.awaiters awaiter).kind).erase awaiter
    else world.hub.consumersOf type
  pools : ∀ kind, next.pools kind = world.pools kind ∨
    kind = (world.awaiters awaiter).kind ∧ next.pools kind = world.pools kind ++ [awaiter]
  created : next.created = world.created
  starts : next.starts = world.starts
  startOf : next.startOf = world.startOf
  callbacks : next.callbacks = world.callbacks
  stack : next.stack = world.stack

theorem Core.givenBack (core : world.Core) (lease awaiter : Nat) :
    GivenBack world ((world.complete awaiter).endLease (some lease)) lease awaiter := by
  obtain ⟨registrations, sound⟩ := core.sound
  have calm := core.calm awaiter
  constructor
  · refine ⟨registrations.erase ((world.awaiters awaiter).kind, awaiter), ?_⟩
    have later := SystemEventHub.represents_unsubscribe sound (world.awaiters awaiter).kind awaiter
    simpa [complete, calm, endLease] using later
  · simp [complete, calm, endLease]
  · intro other different
    simp [complete, calm, endLease, different]
  · intro number other
    rw [holds_endLease]
    simp [complete, calm, Holds, change]
  · intro type
    rw [← SystemEventHub.consumersOf_unsubscribe sound]
    simp [complete, calm, endLease]
  · intro kind
    simp only [complete, calm, Bool.false_eq_true, if_false, endLease, Function.update_apply]
    by_cases same : kind = (world.awaiters awaiter).kind
    · subst same
      simp only [if_true]
      split <;> simp
    · simp [same]
  all_goals simp [complete, calm, endLease, change]

namespace GivenBack

variable {next : AwaiterHub}

theorem kind (back : GivenBack world next lease awaiter) (other : Nat) :
    (next.awaiters other).kind = (world.awaiters other).kind := by
  by_cases same : other = awaiter
  · rw [same, back.reset]
    rfl
  · rw [back.others other same]

theorem unstarted (back : GivenBack world next lease awaiter) {other : Nat}
    (started : (next.awaiters other).hasStarted = true) : other ≠ awaiter := by
  rintro rfl
  rw [back.reset] at started
  cases started

/-- Every other lease goes on with another awaiter. -/
theorem elsewhere (back : GivenBack world next lease awaiter) (core : world.Core)
    (holds : world.Holds lease awaiter) {number other : Nat} (kept : next.Holds number other) :
    other ≠ awaiter ∧ world.Holds number other := by
  obtain ⟨different, before⟩ := (back.leases number other).mp kept
  refine ⟨?_, before⟩
  rintro rfl
  exact different (core.alone _ _ _ before holds)

theorem goesOn (back : GivenBack world next lease awaiter) (holds : world.Holds lease awaiter)
    {number other : Nat} (before : world.Holds number other) (different : other ≠ awaiter) :
    next.Holds number other := by
  refine (back.leases number other).mpr ⟨?_, before⟩
  rintro rfl
  have same : (⟨other, false⟩ : Lease) = ⟨awaiter, false⟩ :=
    Option.some.inj (before.symm.trans holds)
  exact different (Lease.mk.inj same).1

theorem forgotten (back : GivenBack world next lease awaiter) (core : world.Core)
    {type : AwaiterKind} {other : Nat} (member : other ∈ next.hub.consumersOf type) :
    other ≠ awaiter ∧ other ∈ world.hub.consumersOf type := by
  rw [back.consumers] at member
  split at member
  · next same =>
    rw [same]
    exact (core.single _).mem_erase_iff.mp member
  · next different =>
    refine ⟨?_, member⟩
    rintro rfl
    exact different (core.kind type _ member).symm

/-- The awaiter of a lease that ends is in its pool once and nowhere else. -/
theorem core (back : GivenBack world next lease awaiter) (core : world.Core)
    (holds : world.Holds lease awaiter) : next.Core := by
  have absent (kind : AwaiterKind) : awaiter ∉ world.pools kind := fun member =>
    (core.pooled kind awaiter member).2.2 lease holds
  constructor
  · exact back.sound
  · intro other
    by_cases same : other = awaiter
    · rw [same, back.reset]
      rfl
    · rw [back.others other same]
      exact core.calm other
  · intro type other member
    rw [back.kind]
    exact core.kind type other (back.forgotten core member).2
  · intro type other member
    obtain ⟨different, before⟩ := back.forgotten core member
    obtain ⟨⟨number, kept⟩, started⟩ := core.subscribed type other before
    rw [back.others other different]
    exact ⟨⟨number, back.goesOn holds kept different⟩, started⟩
  · intro type
    rw [back.consumers]
    split
    · exact (core.single _).erase awaiter
    · exact core.single type
  · intro kind other member
    rw [back.kind, back.created]
    have apart : ∀ number, next.Holds number other → world.Holds number other ∧ other ≠ awaiter :=
      fun number kept => (back.elsewhere core holds kept).symm
    rcases back.pools kind with same | ⟨own, longer⟩
    · rw [same] at member
      obtain ⟨kinds, inside, free⟩ := core.pooled kind other member
      exact ⟨kinds, inside, fun number kept => free number (apart number kept).1⟩
    · rw [longer] at member
      rcases List.mem_append.mp member with old | new
      · obtain ⟨kinds, inside, free⟩ := core.pooled kind other old
        exact ⟨kinds, inside, fun number kept => free number (apart number kept).1⟩
      · obtain rfl := List.mem_singleton.mp new
        exact ⟨own.symm, core.held lease _ holds, fun number kept => (apart number kept).2 rfl⟩
  · intro kind
    rcases back.pools kind with same | ⟨own, longer⟩
    · rw [same]
      exact core.distinct kind
    · rw [longer]
      exact List.nodup_append.mpr ⟨core.distinct kind, List.nodup_singleton _, by
        rintro _ old _ new rfl
        exact absent kind (List.mem_singleton.mp new ▸ old)⟩
  · intro number other kept
    rw [back.created]
    exact core.held number other (back.elsewhere core holds kept).2
  · intro first second other one two
    exact core.alone first second other (back.elsewhere core holds one).2
      (back.elsewhere core holds two).2
  · intro other started
    have different : other ≠ awaiter := back.unstarted started
    rw [back.others other different] at started
    obtain ⟨⟨number, before⟩, start⟩ := core.begun other started
    rw [back.startOf]
    exact ⟨⟨number, back.goesOn holds before different⟩, start⟩
  · intro other started
    have different : other ≠ awaiter := back.unstarted started
    rw [back.others other different] at started ⊢
    rw [back.startOf, back.callbacks]
    exact core.fresh other started
  · rw [back.startOf, back.starts]
    exact core.below
  · rw [back.startOf]
    exact core.apart
  · rw [back.callbacks, back.starts]
    exact core.counted
  · rw [back.callbacks]
    exact core.known
  · rw [back.callbacks]
    exact core.once

/-- So are the callbacks under way, when its own is over. -/
theorem framed (back : GivenBack world next lease awaiter) (holds : world.Holds lease awaiter)
    (past : awaiter ∉ receivers world.stack)
    (receiving : ∀ other, other ≠ awaiter →
      ((world.awaiters other).isReceiving = true ↔ other ∈ receivers world.stack))
    (frames : ∀ other number, .receiving other number ∈ world.stack →
      ∃ current, number = some current ∧ world.Holds current other)
    (nested : (receivers world.stack).Nodup) : next.Framed := by
  constructor
  · intro other
    rw [back.stack]
    by_cases same : other = awaiter
    · subst same
      rw [back.reset]
      exact iff_of_false nofun past
    · rw [back.others other same]
      exact receiving other same
  · intro other number member
    rw [back.stack] at member
    obtain ⟨current, same, kept⟩ := frames other number member
    refine ⟨current, same, back.goesOn holds kept ?_⟩
    rintro rfl
    exact past (List.mem_filterMap.mpr ⟨_, member, rfl⟩)
  · rw [back.stack]
    exact nested

end GivenBack

/-- Completion, with the callback of the awaiter over. -/
theorem Core.completes (core : world.Core) (holds : world.Holds lease awaiter)
    (past : awaiter ∉ receivers world.stack)
    (receiving : ∀ other, other ≠ awaiter →
      ((world.awaiters other).isReceiving = true ↔ other ∈ receivers world.stack))
    (frames : ∀ other number, .receiving other number ∈ world.stack →
      ∃ current, number = some current ∧ world.Holds current other)
    (nested : (receivers world.stack).Nodup) :
    Valid ((world.complete awaiter).endLease (some lease)) :=
  have back := core.givenBack lease awaiter
  ⟨back.core core holds, back.framed holds past receiving frames nested⟩

theorem Valid.completes (valid : Valid world) (holds : world.Holds lease awaiter)
    (idle : (world.awaiters awaiter).isReceiving = false) :
    Valid ((world.complete awaiter).endLease (some lease)) := by
  refine valid.core.completes holds ?_ (fun other _ => valid.framed.receiving other)
    valid.framed.frames valid.framed.nested
  intro under
  rw [← valid.framed.receiving, idle] at under
  cases under

theorem Valid.cancel (valid : Valid world) (holds : world.Holds lease awaiter)
    (idle : (world.awaiters awaiter).isReceiving = false) :
    Valid (world.cancel lease awaiter) := by
  have calm := valid.core.calm awaiter
  have same := complete_change world awaiter { world.awaiters awaiter with cancelled := true }
    rfl rfl calm calm
  rw [AwaiterHub.cancel, same]
  exact valid.completes holds idle

/-- An awaiter that nobody rents and no pool has. -/
structure Free (world : AwaiterHub) (awaiter : Nat) : Prop where
  created : awaiter < world.created
  unpooled : ∀ kind, awaiter ∉ world.pools kind
  unheld : ∀ lease, ¬ world.Holds lease awaiter

theorem holds_lend (world : AwaiterHub) (awaiter number other : Nat) :
    (world.lend awaiter).Holds number other ↔
      world.Holds number other ∨ number = world.leases.length ∧ other = awaiter := by
  simp only [Holds, lend]
  rcases Nat.lt_trichotomy number world.leases.length with earlier | same | later
  · rw [List.getElem?_append_left earlier]
    simp [Nat.ne_of_lt earlier]
  · subst same
    simp [eq_comm]
  · rw [List.getElem?_eq_none (by simp; omega), List.getElem?_eq_none (by omega)]
    simp [Nat.ne_of_gt later]

theorem Valid.lend (valid : Valid world) (free : world.Free awaiter) :
    Valid (world.lend awaiter) := by
  obtain ⟨core, framed⟩ := valid
  have elsewhere (number other : Nat) (kept : (world.lend awaiter).Holds number other)
      (different : other ≠ awaiter) : world.Holds number other := by
    rcases (holds_lend world awaiter number other).mp kept with old | ⟨-, new⟩
    · exact old
    · exact absurd new different
  have here (number : Nat) (kept : (world.lend awaiter).Holds number awaiter) :
      number = world.leases.length := by
    rcases (holds_lend world awaiter number awaiter).mp kept with old | ⟨new, -⟩
    · exact absurd old (free.unheld number)
    · exact new
  refine ⟨⟨core.sound, core.calm, core.kind, ?_, core.single, ?_, core.distinct, ?_, ?_, ?_,
    core.fresh, core.below, core.apart, core.counted, core.known, core.once⟩,
    ⟨framed.receiving, ?_, framed.nested⟩⟩
  · intro type other member
    obtain ⟨⟨number, kept⟩, started⟩ := core.subscribed type other member
    exact ⟨⟨number, (holds_lend ..).mpr (.inl kept)⟩, started⟩
  · intro kind other member
    obtain ⟨kinds, inside, unheld⟩ := core.pooled kind other member
    refine ⟨kinds, inside, fun number kept => ?_⟩
    have different : other ≠ awaiter := by
      rintro rfl
      exact free.unpooled kind member
    exact unheld number (elsewhere number other kept different)
  · intro number other kept
    rcases (holds_lend world awaiter number other).mp kept with old | ⟨-, rfl⟩
    · exact core.held number other old
    · exact free.created
  · intro first second other one two
    by_cases same : other = awaiter
    · subst same
      rw [here first one, here second two]
    · exact core.alone first second other (elsewhere first other one same)
        (elsewhere second other two same)
  · intro other started
    obtain ⟨⟨number, kept⟩, start⟩ := core.begun other started
    exact ⟨⟨number, (holds_lend ..).mpr (.inl kept)⟩, start⟩
  · intro other number member
    obtain ⟨current, same, kept⟩ := framed.frames other number member
    exact ⟨current, same, (holds_lend ..).mpr (.inl kept)⟩

/-- An awaiter leaves its pool. -/
theorem Valid.polled (valid : Valid world) {kind : AwaiterKind} {rest : List Nat}
    (pool : world.pools kind = awaiter :: rest) :
    Valid { world with pools := Function.update world.pools kind rest } ∧
      Free { world with pools := Function.update world.pools kind rest } awaiter := by
  obtain ⟨core, framed⟩ := valid
  have kept (other : AwaiterKind) :
      (Function.update world.pools kind rest other).Sublist (world.pools other) := by
    by_cases same : other = kind
    · rw [same, Function.update_self, pool]
      exact List.sublist_cons_self ..
    · rw [Function.update_of_ne same]
  have distinct := core.distinct kind
  rw [pool, List.nodup_cons] at distinct
  obtain ⟨own, inside, unheld⟩ := core.pooled kind awaiter (pool ▸ List.mem_cons_self ..)
  constructor
  · exact ⟨⟨core.sound, core.calm, core.kind, core.subscribed, core.single,
      fun other member inRest => core.pooled other member ((kept other).subset inRest),
      fun other => (core.distinct other).sublist (kept other), core.held, core.alone,
      core.begun, core.fresh, core.below, core.apart, core.counted, core.known, core.once⟩,
      ⟨framed.receiving, framed.frames, framed.nested⟩⟩
  · refine ⟨inside, fun other member => ?_, unheld⟩
    have inRest : awaiter ∈ Function.update world.pools kind rest other := member
    have there := (core.pooled other awaiter ((kept other).subset member)).1
    rw [← there, own, Function.update_self] at inRest
    exact distinct.1 inRest

/-- Nothing knows an awaiter before it is created. -/
theorem Valid.unheld_created (valid : Valid world) (number : Nat) :
    ¬ world.Holds number world.created :=
  fun kept => Nat.lt_irrefl _ (valid.core.held number world.created kept)

theorem Valid.silent_created (valid : Valid world) : world.created ∉ receivers world.stack := by
  intro under
  obtain ⟨frame, member, found⟩ := List.mem_filterMap.mp under
  cases frame with
  | publishing _ _ _ => cases found
  | receiving awaiter number =>
    cases found
    obtain ⟨current, -, kept⟩ := valid.framed.frames world.created number member
    exact valid.unheld_created current kept

/-- A new awaiter is created. -/
theorem Valid.created (valid : Valid world) (kind : AwaiterKind) :
    Valid { world.change world.created (.new kind) with created := world.created + 1 } ∧
      Free { world.change world.created (.new kind) with created := world.created + 1 }
        world.created := by
  have silent := valid.silent_created
  have unheld := valid.unheld_created
  obtain ⟨core, framed⟩ := valid
  have same (other : Nat) (old : other < world.created) :
      (world.change world.created (.new kind)).awaiters other = world.awaiters other := by
    rw [change_awaiters, if_neg (Nat.ne_of_lt old)]
  have before (other : Nat) (started : ((world.change world.created
      (.new kind)).awaiters other).hasStarted = true) :
      (world.awaiters other).hasStarted = true := by
    rw [change_awaiters] at started
    split at started
    · cases started
    · exact started
  have older (type : AwaiterKind) (other : Nat) (member : other ∈ world.hub.consumersOf type) :
      other < world.created := by
    obtain ⟨number, kept⟩ := (core.subscribed type other member).1
    exact core.held number other kept
  constructor
  · refine ⟨⟨core.sound, ?_, ?_, ?_, core.single, ?_, core.distinct, ?_, core.alone, ?_, ?_,
      core.below, core.apart, core.counted, core.known, core.once⟩,
      ⟨?_, framed.frames, framed.nested⟩⟩
    · intro other
      show ((world.change world.created (.new kind)).awaiters other).completed = false
      rw [change_awaiters]
      split
      · rfl
      · exact core.calm other
    · intro type other member
      show ((world.change world.created (.new kind)).awaiters other).kind = type
      rw [same other (older type other member)]
      exact core.kind type other member
    · intro type other member
      refine ⟨(core.subscribed type other member).1, ?_⟩
      show ((world.change world.created (.new kind)).awaiters other).hasStarted = true
      rw [same other (older type other member)]
      exact (core.subscribed type other member).2
    · intro type other member
      obtain ⟨kinds, inside, free⟩ := core.pooled type other member
      refine ⟨?_, Nat.lt_succ_of_lt inside, free⟩
      show ((world.change world.created (.new kind)).awaiters other).kind = type
      rw [same other inside]
      exact kinds
    · intro number other kept
      exact Nat.lt_succ_of_lt (core.held number other kept)
    · intro other started
      exact core.begun other (before other started)
    · intro other started called
      obtain ⟨⟨number, kept⟩, -⟩ := core.begun other (before other started)
      show ((world.change world.created (.new kind)).awaiters other).isReceiving = true
      rw [same other (core.held number other kept)]
      exact core.fresh other (before other started) called
    · intro other
      show ((world.change world.created (.new kind)).awaiters other).isReceiving = true ↔ _
      rw [change_awaiters]
      split
      · next new =>
        rw [new]
        exact iff_of_false nofun silent
      · exact framed.receiving other
  · refine ⟨Nat.lt_succ_self _, fun type member => ?_, unheld⟩
    exact Nat.lt_irrefl _ (core.pooled type world.created member).2.1

theorem Valid.rentAwaiter (valid : Valid world) (kind : AwaiterKind) :
    Valid (world.rentAwaiter kind) := by
  unfold AwaiterHub.rentAwaiter
  cases pool : world.pools kind with
  | cons awaiter rest =>
    obtain ⟨left, free⟩ := valid.polled pool
    exact left.lend free
  | nil =>
    obtain ⟨more, free⟩ := valid.created kind
    exact more.lend free

/-- A first start by the renter. -/
theorem Valid.start (valid : Valid world) (holds : world.Holds lease awaiter)
    (first : (world.awaiters awaiter).hasStarted = false) : Valid (world.start awaiter) := by
  obtain ⟨core, framed⟩ := valid
  obtain ⟨registrations, sound⟩ := core.sound
  have fields (other : Nat) : ((world.start awaiter).awaiters other).kind =
      (world.awaiters other).kind ∧ ((world.start awaiter).awaiters other).completed =
        (world.awaiters other).completed ∧ ((world.start awaiter).awaiters other).isReceiving =
          (world.awaiters other).isReceiving := by
    simp only [AwaiterHub.start, change_awaiters]
    split
    · next same => simp [same]
    · simp
  have consumers (type : AwaiterKind) : (world.start awaiter).hub.consumersOf type =
      if type = (world.awaiters awaiter).kind then
        world.hub.consumersOf (world.awaiters awaiter).kind ++ [awaiter]
      else world.hub.consumersOf type := SystemEventHub.consumersOf_subscribe sound ..
  have members (type : AwaiterKind) (other : Nat)
      (member : other ∈ (world.start awaiter).hub.consumersOf type) :
      other ∈ world.hub.consumersOf type ∨
        other = awaiter ∧ type = (world.awaiters awaiter).kind := by
    rw [consumers] at member
    split at member
    · next same =>
      rcases List.mem_append.mp member with old | new
      · exact .inl (same ▸ old)
      · exact .inr ⟨List.mem_singleton.mp new, same⟩
    · exact .inl member
  have unsubscribed (type : AwaiterKind) : awaiter ∉ world.hub.consumersOf type := by
    intro member
    have again := (core.subscribed type awaiter member).2
    rw [first] at again
    cases again
  have before (other : Nat) (different : other ≠ awaiter)
      (started : ((world.start awaiter).awaiters other).hasStarted = true) :
      (world.awaiters other).hasStarted = true := by
    simpa [AwaiterHub.start, different] using started
  have startOf (other : Nat) : (world.start awaiter).startOf other =
      if other = awaiter then some world.starts else world.startOf other := by
    simp [AwaiterHub.start, Function.update_apply]
  refine ⟨⟨?_, ?_, ?_, ?_, ?_, ?_, core.distinct, core.held, core.alone, ?_, ?_, ?_, ?_, ?_,
    core.known, core.once⟩, ⟨?_, framed.frames, framed.nested⟩⟩
  · exact ⟨_, SystemEventHub.represents_subscribe sound ..⟩
  · intro other
    rw [(fields other).2.1]
    exact core.calm other
  · intro type other member
    rw [(fields other).1]
    rcases members type other member with old | ⟨rfl, same⟩
    · exact core.kind type other old
    · exact same.symm
  · intro type other member
    rcases members type other member with old | ⟨rfl, -⟩
    · refine ⟨(core.subscribed type other old).1, ?_⟩
      have different : other ≠ awaiter := fun same => unsubscribed type (same ▸ old)
      simp only [AwaiterHub.start, change_awaiters, different, if_false]
      exact (core.subscribed type other old).2
    · refine ⟨⟨lease, holds⟩, ?_⟩
      simp [AwaiterHub.start]
  · intro type
    rw [consumers]
    split
    · refine List.nodup_append.mpr ⟨core.single _, List.nodup_singleton _, ?_⟩
      rintro _ old _ new rfl
      exact unsubscribed _ (List.mem_singleton.mp new ▸ old)
    · exact core.single type
  · intro kind other member
    rw [(fields other).1]
    exact core.pooled kind other member
  · intro other started
    rw [startOf]
    split
    · next same => exact ⟨⟨lease, same ▸ holds⟩, _, rfl⟩
    · next different => exact core.begun other (before other different started)
  · intro other started called
    rw [(fields other).2.2]
    rw [startOf] at called
    split at called
    · exact absurd (core.counted _ called) (Nat.lt_irrefl _)
    · next different => exact core.fresh other (before other different started) called
  · intro other start started
    rw [startOf] at started
    split at started
    · cases started
      exact Nat.lt_succ_self _
    · exact Nat.lt_succ_of_lt (core.below other start started)
  · intro left right start leftStart rightStart
    rw [startOf] at leftStart rightStart
    split at leftStart
    · next leftSame =>
      split at rightStart
      · next rightSame => rw [leftSame, rightSame]
      · cases leftStart
        exact absurd (core.below right _ rightStart) (Nat.lt_irrefl _)
    · split at rightStart
      · cases rightStart
        exact absurd (core.below left _ leftStart) (Nat.lt_irrefl _)
      · exact core.apart left right start leftStart rightStart
  · intro start called
    exact Nat.lt_succ_of_lt (core.counted start called)
  · intro other
    rw [(fields other).2.2]
    exact framed.receiving other

/-- Publications change the cache of the hub, and come and go on the stack. -/
theorem Valid.publishing (valid : Valid world) {hub : SystemEventHub AwaiterKind Nat}
    {stack : List Frame} (sound : ∃ registrations, hub.Represents assignable registrations)
    (consumers : hub.consumersOf = world.hub.consumersOf)
    (same : receivers stack = receivers world.stack)
    (fewer : ∀ other number, .receiving other number ∈ stack →
      .receiving other number ∈ world.stack) : Valid { world with hub, stack } := by
  obtain ⟨core, framed⟩ := valid
  refine ⟨⟨sound, core.calm, ?_, ?_, ?_, core.pooled, core.distinct, core.held, core.alone,
    core.begun, core.fresh, core.below, core.apart, core.counted, core.known, core.once⟩,
    ⟨?_, ?_, ?_⟩⟩
  · rw [consumers]
    exact core.kind
  · rw [consumers]
    exact core.subscribed
  · rw [consumers]
    exact core.single
  · intro other
    rw [same]
    exact framed.receiving other
  · intro other number member
    exact framed.frames other number (fewer other number member)
  · rw [same]
    exact framed.nested

theorem Valid.publish (valid : Valid world) (event : AwaitedEvent) (invokeSuperClass : Bool)
    (iteration : Iteration AwaiterKind) :
    Valid (world.publish event invokeSuperClass iteration) := by
  obtain ⟨registrations, sound⟩ := valid.core.sound
  have fewer (classes : List AwaiterKind) (other : Nat) (number : Option Nat)
      (member : .receiving other number ∈ Frame.publishing event classes [] :: world.stack) :
      .receiving other number ∈ world.stack := by
    simpa using member
  cases invokeSuperClass with
  | true =>
    refine valid.publishing ⟨registrations, ?_⟩ ?_ rfl (fewer _)
    · exact SystemEventHub.represents_typesOf sound iteration event.kind
    · exact SystemEventHub.typesOf_consumersOf iteration event.kind
  | false => exact valid.publishing ⟨registrations, sound⟩ rfl rfl (fewer _)

/-- The callback of the current start runs for the first time. -/
theorem Valid.callBack (valid : Valid world) (rented : Lease.mk awaiter false ∈ world.leases)
    (begun : (world.awaiters awaiter).hasStarted = true)
    (idle : (world.awaiters awaiter).isReceiving = false) (argument : CallbackArgument) :
    Valid (world.callBack awaiter argument) := by
  obtain ⟨core, framed⟩ := valid
  obtain ⟨lease, found, holds⟩ := holder_holds rented
  have fields (other : Nat) : ((world.callBack awaiter argument).awaiters other).kind =
      (world.awaiters other).kind ∧ ((world.callBack awaiter argument).awaiters other).completed =
        (world.awaiters other).completed ∧
          ((world.callBack awaiter argument).awaiters other).hasStarted =
            (world.awaiters other).hasStarted := by
    simp only [AwaiterHub.callBack, change_awaiters]
    split
    · next same => simp [same]
    · simp
  have receiving (other : Nat) : ((world.callBack awaiter argument).awaiters other).isReceiving =
      if other = awaiter then true else (world.awaiters other).isReceiving := by
    simp only [AwaiterHub.callBack, change_awaiters]
    split <;> rfl
  have called (start : Option Nat) :
      start ∈ (world.callBack awaiter argument).callbacks.map Prod.fst ↔
        start ∈ world.callbacks.map Prod.fst ∨ start = world.startOf awaiter := by
    simp only [AwaiterHub.callBack, List.map_append, List.mem_append, List.map_cons,
      List.map_nil, List.mem_singleton]
  obtain ⟨mine, given⟩ := (core.begun awaiter begun).2
  have silent : awaiter ∉ receivers world.stack := by
    rw [← framed.receiving, idle]
    nofun
  refine ⟨⟨core.sound, ?_, ?_, ?_, core.single, ?_, core.distinct, core.held, core.alone, ?_, ?_,
    core.below, core.apart, ?_, ?_, ?_⟩, ⟨?_, ?_, ?_⟩⟩
  · intro other
    rw [(fields other).2.1]
    exact core.calm other
  · intro type other member
    rw [(fields other).1]
    exact core.kind type other member
  · intro type other member
    rw [(fields other).2.2]
    exact core.subscribed type other member
  · intro kind other member
    rw [(fields other).1]
    exact core.pooled kind other member
  · intro other started
    rw [(fields other).2.2] at started
    exact core.begun other started
  · intro other started member
    rw [(fields other).2.2] at started
    rw [receiving]
    split
    · rfl
    · next different =>
      rcases (called _).mp member with old | new
      · exact core.fresh other started old
      · exact absurd (core.apart other awaiter mine (new.trans given) given) different
  · intro start member
    rcases (called _).mp member with old | new
    · exact core.counted start old
    · exact core.below awaiter start new.symm
  · intro member
    rcases (called _).mp member with old | new
    · exact core.known old
    · rw [given] at new
      cases new
  · simp only [AwaiterHub.callBack, List.map_append, List.nodup_append]
    refine ⟨core.once, List.nodup_singleton _, ?_⟩
    rintro start old _ new rfl
    rw [List.mem_singleton.mp new] at old
    have busy := core.fresh awaiter begun old
    rw [idle] at busy
    cases busy
  · intro other
    rw [receiving]
    simp only [AwaiterHub.callBack, receivers, List.filterMap_cons, List.mem_cons]
    split
    · next same => simp [same]
    · next different =>
      simp only [different, false_or]
      exact framed.receiving other
  · intro other number member
    rcases List.mem_cons.mp member with new | old
    · cases new
      exact ⟨lease, found, holds⟩
    · exact framed.frames other number old
  · exact List.nodup_cons.mpr ⟨silent, framed.nested⟩

/-- A delivery that matches finds a renter that has started its awaiter. -/
theorem Valid.receive (valid : Valid world) (event : AwaitedEvent)
    (rented : (world.awaiters awaiter).isReceiving = false →
      (world.awaiters awaiter).isMatch event = true →
        Lease.mk awaiter false ∈ world.leases ∧ (world.awaiters awaiter).hasStarted = true) :
    Valid (world.receive awaiter event) := by
  simp only [AwaiterHub.receive]
  cases idle : (world.awaiters awaiter).isReceiving with
  | true => exact valid
  | false =>
    cases matched : (world.awaiters awaiter).isMatch event with
    | false => exact valid
    | true =>
      obtain ⟨lent, begun⟩ := rented idle matched
      obtain ⟨lease, found, holds⟩ := holder_holds lent
      simp only [Bool.false_eq_true, if_false, Bool.not_true, found]
      cases (world.awaiters awaiter).onReceive event with
      | none => exact valid.completes holds idle
      | some argument => exact valid.callBack lent begun idle argument

theorem Valid.deliver (valid : Valid world) (proper : world.Proper .deliver) {next : AwaiterHub}
    (taken : world.deliver = some next) : Valid next := by
  unfold AwaiterHub.deliver at taken
  split at taken
  · next event classes consumer rest below stack =>
    cases taken
    have popped : Valid { world with stack := .publishing event classes rest :: below } := by
      refine valid.publishing valid.core.sound rfl (by simp [stack, receivers]) ?_
      intro other number member
      rw [stack]
      simpa using member
    refine popped.receive event fun idle matched => ?_
    exact proper (event, consumer) (by simp [upNext, stack]) idle matched
  · next event cls rest below stack =>
    cases taken
    refine valid.publishing valid.core.sound rfl (by simp [stack, receivers]) ?_
    intro other number member
    rw [stack]
    simpa using member
  · next event below stack =>
    cases taken
    refine valid.publishing valid.core.sound rfl (by simp [stack, receivers]) ?_
    intro other number member
    rw [stack]
    simpa using member
  · cases taken

private theorem receivers_unwound (completion : Completion) (below : List Frame) :
    receivers (unwound completion below) = receivers below ∧
      ∀ frame ∈ unwound completion below, frame ∈ below := by
  unfold unwound
  split
  · exact ⟨rfl, fun _ => List.mem_cons_of_mem _⟩
  · exact ⟨rfl, fun _ => id⟩

theorem Valid.callbackReturns (valid : Valid world) {completion : Completion} {next : AwaiterHub}
    (taken : world.callbackReturns completion = some next) : Valid next := by
  obtain ⟨core, framed⟩ := valid
  unfold AwaiterHub.callbackReturns at taken
  split at taken
  · next awaiter number below stack =>
    obtain ⟨lease, rfl, holds⟩ := framed.frames awaiter number (stack ▸ List.mem_cons_self ..)
    obtain ⟨same, fewer⟩ := receivers_unwound completion below
    have nested := framed.nested
    have receiving := framed.receiving
    rw [stack] at nested receiving
    obtain ⟨past, rest⟩ := List.nodup_cons.mp nested
    let popped : AwaiterHub := { world with stack := unwound completion below }
    have poppedCore : popped.Core := ⟨core.sound, core.calm, core.kind, core.subscribed,
      core.single, core.pooled, core.distinct, core.held, core.alone, core.begun, core.fresh,
      core.below, core.apart, core.counted, core.known, core.once⟩
    have flag := complete_change popped awaiter
      { popped.awaiters awaiter with isReceiving := false } rfl rfl (core.calm awaiter)
      (core.calm awaiter)
    rw [Option.some.injEq] at taken
    subst taken
    rw [flag]
    refine poppedCore.completes holds ?_ ?_ ?_ ?_
    · show awaiter ∉ receivers (unwound completion below)
      rw [same]
      exact past
    · intro other different
      show _ ↔ other ∈ receivers (unwound completion below)
      rw [same]
      refine (receiving other).trans ?_
      simp [receivers, different]
    · intro other held member
      exact framed.frames other held (stack ▸ List.mem_cons_of_mem _ (fewer _ member))
    · show (receivers (unwound completion below)).Nodup
      rw [same]
      exact rest
  · cases taken

/-- The targets of a wait and the callback are free to change. -/
theorem Valid.initializeFor (valid : Valid world) (requestCode : Int) (id : Option String)
    (callback : Bool) :
    Valid (world.change awaiter ((world.awaiters awaiter).initializeFor requestCode id callback)) := by
  obtain ⟨core, framed⟩ := valid
  have fields (other : Nat) :
      let later := world.change awaiter
        ((world.awaiters awaiter).initializeFor requestCode id callback)
      (later.awaiters other).kind = (world.awaiters other).kind ∧
        (later.awaiters other).completed = (world.awaiters other).completed ∧
        (later.awaiters other).hasStarted = (world.awaiters other).hasStarted ∧
        (later.awaiters other).isReceiving = (world.awaiters other).isReceiving := by
    simp only [change_awaiters]
    split
    · next same =>
      subst same
      unfold EventAwaiter.initializeFor
      split <;> simp_all
    · simp
  refine ⟨⟨core.sound, ?_, ?_, ?_, core.single, ?_, core.distinct, core.held, core.alone, ?_, ?_,
    core.below, core.apart, core.counted, core.known, core.once⟩,
    ⟨?_, framed.frames, framed.nested⟩⟩
  · intro other
    rw [(fields other).2.1]
    exact core.calm other
  · intro type other member
    rw [(fields other).1]
    exact core.kind type other member
  · intro type other member
    rw [(fields other).2.2.1]
    exact core.subscribed type other member
  · intro kind other member
    rw [(fields other).1]
    exact core.pooled kind other member
  · intro other started
    rw [(fields other).2.2.1] at started
    exact core.begun other started
  · intro other started
    rw [(fields other).2.2.1] at started
    rw [(fields other).2.2.2]
    exact core.fresh other started
  · intro other
    rw [(fields other).2.2.2]
    exact framed.receiving other

/-- Every proper step. -/
theorem Valid.step (valid : Valid world) {label : AwaiterLabel} (proper : world.Proper label)
    {next : AwaiterHub} (taken : step world label = some next) : Valid next := by
  cases label with
  | rentAwaiter kind =>
    cases taken
    exact valid.rentAwaiter kind
  | initializeFor lease requestCode id callback =>
    obtain ⟨entry, -, rfl⟩ := Option.map_eq_some_iff.mp taken
    exact valid.initializeFor requestCode id callback
  | start lease =>
    obtain ⟨entry, found, rfl⟩ := Option.map_eq_some_iff.mp taken
    obtain ⟨lasts, first⟩ := proper entry found
    have holds : world.Holds lease entry.awaiter := by rw [Holds, found, ← lasts]
    exact valid.start holds first
  | cancel lease =>
    obtain ⟨entry, found, rfl⟩ := Option.map_eq_some_iff.mp taken
    obtain ⟨lasts, idle⟩ := proper entry found
    have holds : world.Holds lease entry.awaiter := by rw [Holds, found, ← lasts]
    exact valid.cancel holds idle
  | publish event invokeSuperClass iteration =>
    cases taken
    exact valid.publish event invokeSuperClass iteration
  | deliver => exact valid.deliver proper taken
  | callbackReturns completion => exact valid.callbackReturns taken

end Steps

private theorem valid_initial : Valid initial := by
  have pools (kind : AwaiterKind) (awaiter : Nat) (member : awaiter ∈ initial.pools kind) :
      (initial.awaiters awaiter).kind = kind ∧ awaiter < initial.created := by
    cases kind <;> simp only [initial, List.mem_cons, List.not_mem_nil, or_false] at member <;>
      rcases member with rfl | rfl <;> decide
  refine ⟨⟨⟨[], SystemEventHub.represents_initial⟩, ?_, nofun, nofun, ?_, ?_, ?_, nofun, nofun,
    nofun, nofun, nofun, nofun, nofun, nofun, List.nodup_nil⟩, ⟨?_, nofun, List.nodup_nil⟩⟩
  · exact fun _ => rfl
  · exact fun _ => List.nodup_nil
  · intro kind awaiter member
    exact ⟨(pools kind awaiter member).1, (pools kind awaiter member).2, nofun⟩
  · intro kind
    cases kind <;> decide
  · exact fun _ => iff_of_false nofun nofun

/-- In every run whose renters keep to their leases, awaiters are used once and never
shared. -/
theorem one_shot_of_proper {world : AwaiterHub} (run : Reaches step Proper initial world) :
    world.OneShot := by
  have valid := run.invariant valid_initial fun valid proper taken => valid.step proper taken
  exact valid.core.oneShot

def awaited : List AwaiterLabel :=
  [.rentAwaiter .permission, .initializeFor 0 7 none true, .start 0,
    .publish (.requestPermissionResult 7 (some [0])) true .stored, .deliver, .deliver]

/-- The callback rents another awaiter, starts and cancels it, and returns. -/
def properLabels : List AwaiterLabel :=
  awaited ++ [.rentAwaiter .permission, .initializeFor 1 8 none true, .start 1, .cancel 1,
    .callbackReturns .normal, .deliver]

def properWorld : AwaiterHub :=
  (executeChecked step (fun world label => decide (world.Proper label)) initial
    properLabels).get (by decide +kernel)

theorem one_shot_of_proper_nested : properWorld.OneShot := by
  have run : Reaches step (fun world label => decide (world.Proper label) = true) initial
      properWorld := Reaches.of_executeChecked (Option.some_get _).symm
  exact one_shot_of_proper (run.weaken fun _ _ proper => of_decide_eq_true proper)

/-- The callback cancels its own wait. -/
def cancelledInside : AwaiterHub :=
  (execute step initial (awaited ++ [.cancel 0, .callbackReturns .normal])).get (by decide +kernel)

/-- The awaiter is completed twice and stands in its pool twice. -/
theorem cancel_inside_pools_twice : ¬ ∀ labels world, execute step initial labels = some world →
    world.OneShot := by
  intro always
  have oneShot := always _ cancelledInside (Option.some_get _).symm
  exact absurd (oneShot.pooledOnce .permission) (by decide +kernel)

end AwaiterHub

end LocalWhisper.Events
