import LocalWhisper.Events.Threads

/-! Whether the type cache can go stale: `subscribe` clears it before the new key
can be seen, and a publication may fill it in between. -/

namespace LocalWhisper.Events

universe u v w

variable {Class : Type u} {Consumer : Type v} {Thread : Type w}

/-- A call of `subscribe` is under way. -/
def Phase.subscribes : Phase Class Consumer → Bool
  | .subscribing _ _ | .inserting _ _ | .adding _ _ _ => true
  | _ => false

namespace World

variable [DecidableEq Class]

section Cache

variable (assignable : Class → Class → Bool)

/-- Every cache entry has all the keys that are assignable from its class. -/
def CacheComplete (hub : SystemEventHub Class Consumer) : Prop :=
  ∀ cls classes, hub.typeCache.lookup cls = some classes →
    ∀ type, type ∈ hub.events → assignable type cls = true → type ∈ classes

/-- A publication fills in a cache entry only for a class that no key being
inserted is assignable from. -/
def FillsInTime (world : World Class Consumer Thread) (label : Label Class Consumer Thread) :
    Prop :=
  ∀ thread iteration cls, label = .advance thread iteration →
    world.phase thread = .publishing cls true → world.hub.typeCache.lookup cls = none →
      ∀ other type action, world.phase other = .inserting type action →
        assignable type cls = false

/-- The cache is complete, also for the keys that are being inserted. -/
structure CacheSound (world : World Class Consumer Thread) : Prop where
  complete : CacheComplete assignable world.hub
  inserting : ∀ thread type action, world.phase thread = .inserting type action →
    ∀ cls classes, world.hub.typeCache.lookup cls = some classes → assignable type cls = false

end Cache

private theorem cacheSound_initial (assignable : Class → Class → Bool) :
    CacheSound assignable (initial : World Class Consumer Thread) where
  complete _ _ entry := by cases entry
  inserting _ _ _ place := by cases place

private theorem types_complete {assignable : Class → Class → Bool}
    {hub : SystemEventHub Class Consumer} (complete : CacheComplete assignable hub)
    (iteration : Iteration Class)
    {cls type : Class} (member : type ∈ hub.events) (reaches : assignable type cls = true) :
    type ∈ (hub.typesOf assignable iteration cls).2 := by
  unfold SystemEventHub.typesOf
  cases entry : hub.typeCache.lookup cls with
  | some classes => exact complete cls classes entry type member reaches
  | none =>
    apply List.mem_filter.mpr
    exact ⟨(iteration.perm _).mem_iff.mpr (AList.mem_keys.mp member), reaches⟩

variable [DecidableEq Thread]

variable {assignable : Class → Class → Bool} {world after : World Class Consumer Thread}
variable {hub : SystemEventHub Class Consumer} {thread : Thread} {phase : Phase Class Consumer}

theorem cacheSound_kept (sound : CacheSound assignable world)
    (types : hub.typeCache = world.hub.typeCache)
    (keys : ∀ type, type ∈ hub.events → type ∈ world.hub.events)
    (other : ∀ type action, phase ≠ .inserting type action) :
    CacheSound assignable (world.move thread hub phase) where
  complete cls classes entry type key := by
    rw [move_hub, types] at entry
    exact sound.complete cls classes entry type (keys type key)
  inserting mover type action place cls classes entry := by
    rw [move_hub, types] at entry
    have before := before_of_move place (other type action)
    exact sound.inserting mover type action before.2 cls classes entry

private theorem cacheSound_cleared (cleared : hub.typeCache = ∅) :
    CacheSound assignable (world.move thread hub phase) where
  complete cls classes entry := by
    rw [move_hub, cleared] at entry
    cases entry
  inserting mover type action place cls classes entry := by
    rw [move_hub, cleared] at entry
    cases entry

theorem cacheSound_insert (sound : CacheSound assignable world) {type : Class} {action : Consumer}
    (place : world.phase thread = .inserting type action) (list : Nat) :
    CacheSound assignable
      (world.move thread (world.hub.insertList type) (.adding type action list)) where
  complete cls classes entry key member reaches := by
    have keys : key = type ∨ key ∈ world.hub.events := (AList.mem_insert _).mp member
    rcases keys with rfl | before
    · have apart := sound.inserting thread key action place cls classes entry
      rw [apart] at reaches
      cases reaches
    · exact sound.complete cls classes entry key before reaches
  inserting mover key consumer there cls classes entry := by
    have before := before_of_move there (by simp)
    exact sound.inserting mover key consumer before.2 cls classes entry

private theorem cacheSound_types (sound : CacheSound assignable world) {cls : Class}
    (iteration : Iteration Class)
    (between : world.hub.typeCache.lookup cls = none → ∀ other type action,
      world.phase other = .inserting type action → assignable type cls = false)
    (other : ∀ type action, phase ≠ .inserting type action) :
    CacheSound assignable
      (world.move thread (world.hub.typesOf assignable iteration cls).1 phase) := by
  unfold SystemEventHub.typesOf
  cases entry : world.hub.typeCache.lookup cls with
  | some classes => exact cacheSound_kept sound rfl (fun _ key => key) other
  | none =>
    constructor
    · intro key classes found type member reaches
      by_cases same : key = cls
      · subst same
        rw [move_hub, AList.lookup_insert] at found
        cases found
        apply List.mem_filter.mpr
        exact ⟨(iteration.perm _).mem_iff.mpr (AList.mem_keys.mp member), reaches⟩
      · rw [move_hub, AList.lookup_insert_ne same] at found
        exact sound.complete key classes found type member reaches
    · intro mover type action place key classes found
      have before := before_of_move place (other type action)
      by_cases same : key = cls
      · subst same
        exact between entry mover type action before.2
      · rw [move_hub, AList.lookup_insert_ne same] at found
        exact sound.inserting mover type action before.2 key classes found

private theorem cacheSound_step [DecidableEq Consumer] {label : Label Class Consumer Thread}
    (sound : CacheSound assignable world)
    (inTime : FillsInTime assignable world label)
    (taken : step assignable world label = some after) : CacheSound assignable after := by
  rcases step_cases taken with ⟨thread, call, rfl, -, rfl⟩ |
    ⟨thread, iteration, hub, phase, rfl, operated, rfl⟩
  · apply cacheSound_kept sound rfl (fun _ key => key)
    intro type action
    cases call <;> simp [ThreadCall.enter]
  · obtain ⟨place, placeIs⟩ : ∃ place, world.phase thread = place := ⟨_, rfl⟩
    rw [placeIs] at operated
    cases operated with
    | insert => exact cacheSound_insert sound placeIs _
    | types =>
      exact cacheSound_types sound iteration (inTime thread iteration _ rfl placeIs) (by simp)
    | absent | forget | clearTypes => exact cacheSound_cleared rfl
    | removeKey =>
      exact cacheSound_kept sound rfl (fun _ key => (AList.mem_erase.mp key).2) (by simp)
    | clear => exact cacheSound_kept sound rfl (fun _ key => absurd key (AList.notMem_empty _)) (by simp)
    | present | add | unknown | known | remove | empty | filled | ownClass | visit | done =>
      exact cacheSound_kept sound rfl (fun _ key => key) (by simp)

/-- The cache never goes stale in runs where no publication fills it for a class
between the clearing and the new key of a supertype. -/
theorem typeCache_complete [DecidableEq Consumer]
    (run : Machine.Reaches (step assignable) (FillsInTime assignable) initial world) :
    CacheComplete assignable world.hub ∧
      ∀ thread iteration cls after, world.phase thread = .publishing cls true →
        step assignable world (.advance thread iteration) = some after →
          ∃ classes, after.phase thread = .visiting classes ∧
            ∀ type, type ∈ world.hub.events → assignable type cls = true → type ∈ classes := by
  have sound : CacheSound assignable world := run.invariant (cacheSound_initial assignable) cacheSound_step
  refine ⟨sound.complete, ?_⟩
  intro thread iteration cls after place taken
  rw [step, place] at taken
  cases taken
  exact ⟨_, move_phase_self, fun type member reaches =>
    types_complete sound.complete iteration member reaches⟩

/-- A check that is enough for `FillsInTime` with two threads. -/
def fillsInTimeCheck (assignable : Nat → Nat → Bool) (world : World Nat Nat Bool)
    (label : Label Nat Nat Bool) : Bool :=
  match label with
  | .start _ _ => true
  | .advance thread _ =>
    match world.phase thread, world.phase !thread with
    | .publishing cls true, .inserting type _ => !assignable type cls
    | _, _ => true

private theorem fillsInTime_of_check {assignable : Nat → Nat → Bool} {world : World Nat Nat Bool}
    {label : Label Nat Nat Bool} (checked : fillsInTimeCheck assignable world label = true) :
    FillsInTime assignable world label := by
  rintro thread iteration cls rfl place _ other type action inserting
  by_cases same : other = thread
  · rw [same] at inserting
    cases place.symm.trans inserting
  · rw [Bool.eq_not.mpr same] at inserting
    simpa [fillsInTimeCheck, place, inserting] using checked

/-- A class is below the ones with larger numbers. -/
def numbered (type cls : Nat) : Bool := decide (cls ≤ type)

/-- Class 0 is published, then type 2 is subscribed while another thread
publishes class 3, which is not below it, and class 0 is published again. -/
def invalidatingLabels : List (Label Nat Nat Bool) :=
  [.start true (.subscribe 1 5)] ++ List.replicate 3 (.advance true .stored) ++
  [.start false (.publish 0 true)] ++ List.replicate 3 (.advance false .stored) ++
  [.start true (.subscribe 2 6), .advance true .stored,
    .start false (.publish 3 true), .advance false .stored,
    .advance true .stored, .advance true .stored, .advance false .stored,
    .start false (.publish 0 true), .advance false .stored]

theorem typeCache_complete_invalidated :
    ∃ world, Machine.execute (step numbered) initial invalidatingLabels = some world ∧
      world.hub.typeCache.lookup 0 = some [2, 1] ∧ world.hub.typeCache.lookup 3 = some [] ∧
      CacheComplete numbered world.hub := by
  obtain ⟨world, ran, entries⟩ : ∃ world, Machine.executeChecked (step numbered)
      (fillsInTimeCheck numbered) initial invalidatingLabels = some world ∧
        world.hub.typeCache.lookup 0 = some [2, 1] ∧ world.hub.typeCache.lookup 3 = some [] :=
    ⟨_, rfl, by decide, by decide⟩
  have run := (Machine.Reaches.of_executeChecked ran).weaken
    fun world label checked => fillsInTime_of_check checked
  exact ⟨world, Machine.execute_of_executeChecked ran, entries.1, entries.2,
    (typeCache_complete run).1⟩

/-- A publication of class 0 runs while its supertype 1 is being subscribed. -/
def overtakenLabels : List (Label Nat Nat Bool) :=
  [.start true (.subscribe 1 5), .advance true .stored, .start false (.publish 0 true),
    .advance false .stored, .advance true .stored, .advance true .stored]

def overtaken : World Nat Nat Bool :=
  (Machine.execute (step fun _ _ => true) initial overtakenLabels).getD initial

/-- The subscription has returned, the entry of class 0 lacks its key. -/
theorem typeCache_stale :
    Machine.Reachable (step fun _ _ => true) initial overtaken ∧
      (∀ thread, (overtaken.phase thread).subscribes = false) ∧
        overtaken.hub.typeCache.lookup 0 = some [] ∧ 1 ∈ overtaken.hub.events ∧
          ¬ CacheComplete (fun _ _ => true) overtaken.hub := by
  have result : Machine.execute (step fun _ _ => true) initial overtakenLabels =
    some overtaken := rfl
  have stale : overtaken.hub.typeCache.lookup 0 = some [] := by decide
  have key : 1 ∈ overtaken.hub.events := by decide
  refine ⟨.of_execute result, by decide, stale, key, ?_⟩
  intro complete
  cases complete 0 [] stale 1 key rfl

end World

end LocalWhisper.Events
