import LocalWhisper.Events.SystemEventHub

/-! Calls of the hub one after another, compared with plain dispatch over the
list of registrations. -/

namespace LocalWhisper.Events

universe u v w

variable {Class : Type u} {Consumer : Type v} {Event : Type w}

/-- A call with its arguments; a publication also with the order in which it
sees the keys and with how the consumers end. -/
inductive HubCall (Class : Type u) (Consumer : Type v) (Event : Type w) where
  | subscribe (type : Option Class) (action : Option Consumer)
  | unsubscribe (type : Option Class) (action : Option Consumer)
  | clear
  | publish (event : Option Event) (invokeSuperClass : Bool) (iteration : Iteration Class)
      (completes : Nat → Completion)

variable [DecidableEq Class]

section Calls

variable (assignable : Class → Class → Bool) (classOf : Event → Class)

def SystemEventHub.perform [DecidableEq Consumer] (hub : SystemEventHub Class Consumer) :
    HubCall Class Consumer Event → SystemEventHub Class Consumer
  | .subscribe type action => (hub.subscribe type action).1
  | .unsubscribe type action => (hub.unsubscribe type action).1
  | .clear => hub.clear
  | .publish event invokeSuperClass iteration completes =>
    (hub.publish assignable classOf iteration completes event invokeSuperClass).1

end Calls

/-- Subscriptions that are in force, in their order. -/
abbrev Registrations (Class : Type u) (Consumer : Type v) := List (Class × Consumer)

namespace Registrations

/-- What a call means for the registrations. A call with a null argument and a
publication change nothing. -/
def after [DecidableEq Consumer] (registrations : Registrations Class Consumer) :
    HubCall Class Consumer Event → Registrations Class Consumer
  | .subscribe (some type) (some action) => registrations ++ [(type, action)]
  | .unsubscribe (some type) (some action) => registrations.erase (type, action)
  | .clear => []
  | _ => registrations

def consumers (registrations : Registrations Class Consumer) (type : Class) : List Consumer :=
  (registrations.filter fun entry => entry.1 = type).map Prod.snd

def Subscribed (registrations : Registrations Class Consumer) (type : Class) : Prop :=
  ∃ action, (type, action) ∈ registrations

/-- Plain dispatch: everyone who is registered for the class, or for one that is
assignable from it. -/
def recipients (assignable : Class → Class → Bool) (registrations : Registrations Class Consumer)
    (cls : Class) (invokeSuperClass : Bool) : List Consumer :=
  (registrations.filter fun entry =>
    if invokeSuperClass then assignable entry.1 cls else entry.1 = cls).map Prod.snd

theorem consumers_filter {registrations : Registrations Class Consumer} {type : Class}
    {keep : Class × Consumer → Bool} (kept : ∀ action, keep (type, action) = true) :
    consumers (registrations.filter keep) type = registrations.consumers type := by
  unfold consumers
  rw [List.filter_filter]
  congr 2
  funext entry
  obtain ⟨cls, action⟩ := entry
  by_cases same : cls = type
  · subst same
    simp [kept]
  · simp [same]

theorem consumers_append (registrations : Registrations Class Consumer) (type other : Class)
    (action : Consumer) :
    consumers (registrations ++ [(type, action)]) other =
      if other = type then registrations.consumers type ++ [action]
      else registrations.consumers other := by
  unfold consumers
  rw [List.filter_append, List.map_append]
  by_cases same : other = type
  · subst same
    simp
  · simp [same, Ne.symm same]

theorem consumers_erase [DecidableEq Consumer] (registrations : Registrations Class Consumer)
    (type other : Class)
    (action : Consumer) :
    consumers (registrations.erase (type, action)) other =
      if other = type then (registrations.consumers type).erase action
      else registrations.consumers other := by
  induction registrations with
  | nil => simp [consumers]
  | cons entry rest inductionHypothesis =>
    obtain ⟨cls, consumer⟩ := entry
    by_cases here : (cls, consumer) = (type, action)
    · cases here
      rw [List.erase_cons_head]
      by_cases same : other = type
      · subst same
        simp [consumers]
      · simp [consumers, same, Ne.symm same]
    · rw [List.erase_cons_tail (by simpa using here)]
      by_cases same : other = type
      · subst same
        rw [if_pos rfl] at inductionHypothesis ⊢
        by_cases mine : cls = other
        · subst mine
          have different : consumer ≠ action := by
            rintro rfl
            exact here rfl
          have tail := inductionHypothesis
          unfold consumers at tail ⊢
          simp only [List.filter_cons, decide_true, if_true, List.map_cons]
          rw [tail, List.erase_cons_tail (by simpa using different)]
        · unfold consumers at inductionHypothesis ⊢
          simpa [List.filter_cons, mine] using inductionHypothesis
      · rw [if_neg same] at inductionHypothesis ⊢
        unfold consumers at inductionHypothesis ⊢
        simp only [List.filter_cons]
        split
        · rw [List.map_cons, List.map_cons, inductionHypothesis]
        · exact inductionHypothesis

private theorem perm_consumers (classes : List Class) (registrations : Registrations Class Consumer)
    (once : classes.Nodup) (covered : ∀ entry ∈ registrations, entry.1 ∈ classes) :
    (classes.flatMap registrations.consumers).Perm (registrations.map Prod.snd) := by
  induction classes generalizing registrations with
  | nil =>
    have none : registrations = [] := by
      apply List.eq_nil_iff_forall_not_mem.mpr
      intro entry member
      cases covered entry member
    rw [none]
    exact .rfl
  | cons type rest inductionHypothesis =>
    obtain ⟨apart, onceRest⟩ := List.nodup_cons.mp once
    have others : rest.flatMap registrations.consumers =
        rest.flatMap (consumers (registrations.filter fun entry => !decide (entry.1 = type))) := by
      apply List.flatMap_congr
      intro other member
      refine (consumers_filter ?_).symm
      intro action
      simp only [Bool.not_eq_true', decide_eq_false_iff_not]
      rintro rfl
      exact apart member
    have coveredRest : ∀ entry ∈ registrations.filter fun entry => !decide (entry.1 = type),
        entry.1 ∈ rest := by
      intro entry member
      obtain ⟨inside, different⟩ := List.mem_filter.mp member
      have anywhere := covered entry inside
      simpa [of_decide_eq_false (Bool.not_eq_true' _ ▸ different)] using anywhere
    have split := (List.filter_append_perm (fun entry : Class × Consumer =>
      decide (entry.1 = type)) registrations).map Prod.snd
    rw [List.map_append] at split
    rw [List.flatMap_cons, others]
    exact ((inductionHypothesis _ onceRest coveredRest).append_left _).trans split

end Registrations

namespace SystemEventHub

variable {assignable : Class → Class → Bool} {classOf : Event → Class}

/-- The consumers that the hub holds for a class. -/
def consumersOf (hub : SystemEventHub Class Consumer) (type : Class) : List Consumer :=
  match hub.events.lookup type with
  | none => []
  | some list => hub.lists.get list

/-- Every entry of the cache lists the keys that are assignable from its class, once each. -/
def CacheKeys (assignable : Class → Class → Bool) (hub : SystemEventHub Class Consumer) : Prop :=
  ∀ cls classes, hub.typeCache.lookup cls = some classes →
    classes.Nodup ∧ ∀ type, type ∈ classes ↔ type ∈ hub.events ∧ assignable type cls = true

/-- Every entry of the cache lists the subscribed supertypes of its class, once each. -/
def CacheExact (assignable : Class → Class → Bool) (hub : SystemEventHub Class Consumer)
    (registrations : Registrations Class Consumer) : Prop :=
  ∀ cls classes, hub.typeCache.lookup cls = some classes →
    classes.Nodup ∧
      ∀ type, type ∈ classes ↔ registrations.Subscribed type ∧ assignable type cls = true

structure Represents (assignable : Class → Class → Bool) (hub : SystemEventHub Class Consumer)
    (registrations : Registrations Class Consumer) : Prop where
  held : ∀ type, hub.consumersOf type = registrations.consumers type
  filled : ∀ type list, hub.events.lookup type = some list → hub.lists.get list ≠ []
  apart : ∀ first second list, hub.events.lookup first = some list →
    hub.events.lookup second = some list → first = second
  cache : hub.CacheKeys assignable

section Keys

variable {hub : SystemEventHub Class Consumer} {registrations : Registrations Class Consumer}

theorem mem_events_iff (represents : hub.Represents assignable registrations) (type : Class) :
    type ∈ hub.events ↔ registrations.Subscribed type := by
  have held := represents.held type
  have consumers : ∀ action, action ∈ registrations.consumers type ↔
      (type, action) ∈ registrations := by
    intro action
    simp [Registrations.consumers]
  cases found : hub.events.lookup type with
  | none =>
    have absent := AList.lookup_eq_none.mp found
    constructor
    · intro present
      exact absurd present absent
    · rintro ⟨action, member⟩
      rw [← consumers, ← held, consumersOf, found] at member
      cases member
  | some list =>
    have present := AList.lookup_isSome.mp (show (hub.events.lookup type).isSome by rw [found]; rfl)
    refine ⟨fun _ => ?_, fun _ => present⟩
    obtain ⟨action, member⟩ := List.exists_mem_of_ne_nil _ (represents.filled type list found)
    refine ⟨action, (consumers action).mp ?_⟩
    rw [← held, consumersOf, found]
    exact member

private theorem cacheExact (represents : hub.Represents assignable registrations) :
    hub.CacheExact assignable registrations := by
  intro cls classes entry
  obtain ⟨once, listed⟩ := represents.cache cls classes entry
  refine ⟨once, fun type => ?_⟩
  rw [listed, mem_events_iff represents]

theorem created (represents : hub.Represents assignable registrations) {type : Class} {list : Nat}
    (found : hub.events.lookup type = some list) : list < hub.lists.count :=
  hub.lists.lt_count_of_used (represents.filled type list found)

theorem consumersOf_set (represents : hub.Represents assignable registrations) {type : Class}
    {list : Nat} (found : hub.events.lookup type = some list) (consumers : List Consumer)
    (other : Class) :
    consumersOf { hub with lists := hub.lists.set list consumers } other =
      if other = type then consumers else hub.consumersOf other := by
  unfold consumersOf
  by_cases same : other = type
  · subst same
    rw [if_pos rfl]
    simp only [found]
    exact hub.lists.set_get_self consumers (created represents found)
  · rw [if_neg same]
    cases otherFound : hub.events.lookup other with
    | none => rfl
    | some otherList =>
      simp only
      apply Machine.Objects.set_get_of_ne
      rintro rfl
      exact same (represents.apart other type otherList otherFound found)

end Keys

section Methods

variable {hub : SystemEventHub Class Consumer} {registrations : Registrations Class Consumer}

theorem represents_initial :
    (initial : SystemEventHub Class Consumer).Represents assignable [] where
  held _ := rfl
  filled _ _ found := by cases found
  apart _ _ _ found := by cases found
  cache _ _ entry := by cases entry

private theorem represents_clear (hub : SystemEventHub Class Consumer) :
    hub.clear.Represents assignable [] where
  held _ := rfl
  filled _ _ found := by cases found
  apart _ _ _ found := by cases found
  cache _ _ entry := by cases entry

theorem represents_set (represents : hub.Represents assignable registrations) {type : Class}
    {list : Nat} (found : hub.events.lookup type = some list) {consumers : List Consumer}
    (some_left : consumers ≠ []) {later : Registrations Class Consumer}
    (same : ∀ other, later.consumers other =
      if other = type then consumers else registrations.consumers other) :
    Represents assignable { hub with lists := hub.lists.set list consumers } later where
  held other := by rw [consumersOf_set represents found, same, represents.held]
  filled other otherList otherFound := by
    rw [Machine.Objects.set_get]
    split
    · exact some_left
    · exact represents.filled other otherList otherFound
  apart := represents.apart
  cache := represents.cache

/-- A new list appears under a class without registrations. -/
theorem represents_new (represents : hub.Represents assignable registrations) {type : Class}
    (absent : hub.events.lookup type = none) (action : Consumer)
    {next : SystemEventHub Class Consumer}
    (lookup : ∀ other, next.events.lookup other =
      if other = type then some hub.lists.count else hub.events.lookup other)
    (new : next.lists.get hub.lists.count = [action])
    (old : ∀ list, list < hub.lists.count → next.lists.get list = hub.lists.get list)
    (cleared : next.typeCache = ∅) :
    next.Represents assignable (registrations ++ [(type, action)]) := by
  constructor
  · intro other
    have held := represents.held other
    unfold consumersOf at held ⊢
    rw [Registrations.consumers_append, lookup]
    by_cases same : other = type
    · subst same
      rw [absent] at held
      rw [if_pos rfl, if_pos rfl, ← held]
      exact new
    · rw [if_neg same, if_neg same, ← held]
      cases found : hub.events.lookup other with
      | none => rfl
      | some list => exact old list (created represents found)
  · intro other list found
    rw [lookup] at found
    by_cases same : other = type
    · rw [if_pos same] at found
      cases found
      simp [new]
    · rw [if_neg same] at found
      rw [old list (created represents found)]
      exact represents.filled other list found
  · intro first second list firstFound secondFound
    rw [lookup] at firstFound secondFound
    by_cases firstSame : first = type
    · by_cases secondSame : second = type
      · rw [firstSame, secondSame]
      · rw [if_pos firstSame] at firstFound
        rw [if_neg secondSame] at secondFound
        cases firstFound
        exact absurd (created represents secondFound) (Nat.lt_irrefl _)
    · by_cases secondSame : second = type
      · rw [if_neg firstSame] at firstFound
        rw [if_pos secondSame] at secondFound
        cases secondFound
        exact absurd (created represents firstFound) (Nat.lt_irrefl _)
      · rw [if_neg firstSame] at firstFound
        rw [if_neg secondSame] at secondFound
        exact represents.apart first second list firstFound secondFound
  · intro cls classes entry
    rw [cleared] at entry
    cases entry

theorem represents_subscribe (represents : hub.Represents assignable registrations) (type : Class)
    (action : Consumer) :
    (hub.subscribe (some type) (some action)).1.Represents assignable
      (registrations ++ [(type, action)]) := by
  cases found : hub.events.lookup type with
  | some list =>
    have held := represents.held type
    rw [consumersOf, found] at held
    rw [subscribe_present found]
    apply represents_set represents found (by simp)
    intro other
    rw [Registrations.consumers_append, ← held]
  | none =>
    rw [subscribe_absent found]
    apply represents_new represents found
    · exact hub.insertList_lookup type
    · show ((hub.lists.create []).set _ ((hub.lists.create []).get _ ++ [action])).get _ = _
      rw [Machine.Objects.set_get_self _ _ (Nat.lt_succ_self _),
        Machine.Objects.create_get_new, List.nil_append]
    · intro list before
      show ((hub.lists.create []).set _ ((hub.lists.create []).get _ ++ [action])).get list = _
      rw [Machine.Objects.set_get_of_ne _ _ (Nat.ne_of_lt before),
        Machine.Objects.create_get_of_ne _ _ (Nat.ne_of_lt before)]
    · rfl

/-- The key of a class without registrations goes. -/
theorem represents_gone (represents : hub.Represents assignable registrations) {type : Class}
    {list : Nat} (found : hub.events.lookup type = some list)
    {next : SystemEventHub Class Consumer}
    (lookup : ∀ other, next.events.lookup other =
      if other = type then none else hub.events.lookup other)
    (old : ∀ otherList, otherList ≠ list → next.lists.get otherList = hub.lists.get otherList)
    (cleared : next.typeCache = ∅) {later : Registrations Class Consumer}
    (same : ∀ other, later.consumers other =
      if other = type then [] else registrations.consumers other) :
    next.Represents assignable later := by
  have kept : ∀ other otherList, next.events.lookup other = some otherList →
      hub.events.lookup other = some otherList ∧
        next.lists.get otherList = hub.lists.get otherList := by
    intro other otherList otherFound
    rw [lookup] at otherFound
    by_cases gone : other = type
    · rw [if_pos gone] at otherFound
      cases otherFound
    · rw [if_neg gone] at otherFound
      refine ⟨otherFound, old otherList ?_⟩
      rintro rfl
      exact gone (represents.apart other type otherList otherFound found)
  constructor
  · intro other
    have held := represents.held other
    unfold consumersOf at held ⊢
    rw [same]
    by_cases gone : other = type
    · rw [lookup, if_pos gone, if_pos gone]
    · rw [if_neg gone, ← held]
      cases otherFound : next.events.lookup other with
      | none =>
        rw [lookup, if_neg gone] at otherFound
        rw [otherFound]
      | some otherList =>
        obtain ⟨before, content⟩ := kept other otherList otherFound
        rw [before]
        exact content
  · intro other otherList otherFound
    obtain ⟨before, content⟩ := kept other otherList otherFound
    rw [content]
    exact represents.filled other otherList before
  · intro first second otherList firstFound secondFound
    exact represents.apart first second otherList (kept first otherList firstFound).1
      (kept second otherList secondFound).1
  · intro cls classes entry
    rw [cleared] at entry
    cases entry

theorem represents_unsubscribe [DecidableEq Consumer]
    (represents : hub.Represents assignable registrations) (type : Class) (action : Consumer) :
    (hub.unsubscribe (some type) (some action)).1.Represents assignable
      (registrations.erase (type, action)) := by
  have held := represents.held type
  unfold consumersOf at held
  cases found : hub.events.lookup type with
  | none =>
    have missing : (type, action) ∉ registrations := by
      intro member
      have present := (mem_events_iff represents type).mpr ⟨action, member⟩
      exact AList.lookup_eq_none.mp found present
    rw [unsubscribe_absent found, List.erase_of_not_mem missing]
    exact represents
  | some list =>
    rw [found] at held
    have after : (hub.removeFrom list action).lists.get list = (hub.lists.get list).erase action :=
      hub.lists.set_get_self _ (created represents found)
    have others : ∀ other, Registrations.consumers (registrations.erase (type, action)) other =
        if other = type then (hub.lists.get list).erase action
        else registrations.consumers other := by
      intro other
      rw [Registrations.consumers_erase, ← held]
    rw [unsubscribe_present found, after]
    by_cases last : (hub.lists.get list).erase action = []
    · rw [if_pos last]
      rw [last] at others
      apply represents_gone represents found _ _ rfl others
      · exact hub.removeKey_lookup type
      · intro otherList different
        exact hub.lists.set_get_of_ne _ different
    · rw [if_neg last]
      exact represents_set represents found last others

theorem consumersOf_subscribe (represents : hub.Represents assignable registrations)
    (type other : Class) (action : Consumer) :
    (hub.subscribe (some type) (some action)).1.consumersOf other =
      if other = type then hub.consumersOf type ++ [action] else hub.consumersOf other := by
  rw [(represents_subscribe represents type action).held, Registrations.consumers_append,
    represents.held, represents.held]

theorem consumersOf_unsubscribe [DecidableEq Consumer]
    (represents : hub.Represents assignable registrations) (type other : Class)
    (action : Consumer) :
    (hub.unsubscribe (some type) (some action)).1.consumersOf other =
      if other = type then (hub.consumersOf type).erase action else hub.consumersOf other := by
  rw [(represents_unsubscribe represents type action).held, Registrations.consumers_erase,
    represents.held, represents.held]

omit [DecidableEq Class] in
theorem scan_keys (hub : SystemEventHub Class Consumer) (iteration : Iteration Class)
    (cls : Class) :
    (hub.scan assignable iteration cls).Nodup ∧ ∀ type,
      type ∈ hub.scan assignable iteration cls ↔ type ∈ hub.events ∧ assignable type cls = true := by
  have shown := iteration.perm hub.events.keys
  constructor
  · exact (shown.nodup_iff.mpr hub.events.keys_nodup).filter _
  · intro type
    rw [scan, List.mem_filter, shown.mem_iff, ← AList.mem_keys]

private theorem typesOf_keys (cache : hub.CacheKeys assignable) (iteration : Iteration Class)
    (cls : Class) :
    (hub.typesOf assignable iteration cls).2.Nodup ∧ ∀ type,
      type ∈ (hub.typesOf assignable iteration cls).2 ↔
        type ∈ hub.events ∧ assignable type cls = true := by
  unfold typesOf
  cases entry : hub.typeCache.lookup cls with
  | some classes => exact cache cls classes entry
  | none => exact scan_keys hub iteration cls

theorem represents_typesOf (represents : hub.Represents assignable registrations)
    (iteration : Iteration Class) (cls : Class) :
    (hub.typesOf assignable iteration cls).1.Represents assignable registrations := by
  unfold typesOf
  cases entry : hub.typeCache.lookup cls with
  | some classes => exact represents
  | none =>
    refine ⟨represents.held, represents.filled, represents.apart, ?_⟩
    intro other classes found
    by_cases same : other = cls
    · subst same
      rw [AList.lookup_insert] at found
      cases found
      exact scan_keys hub iteration other
    · rw [AList.lookup_insert_ne same] at found
      exact represents.cache other classes found

theorem typesOf_consumersOf (iteration : Iteration Class) (cls : Class) :
    (hub.typesOf assignable iteration cls).1.consumersOf = hub.consumersOf := by
  obtain ⟨events, -, lists⟩ := hub.typesOf_frame assignable iteration cls
  funext type
  rw [consumersOf, consumersOf, events, lists]

private theorem represents_publish (represents : hub.Represents assignable registrations)
    (iteration : Iteration Class) (completes : Nat → Completion) (event : Option Event)
    (invokeSuperClass : Bool) :
    (hub.publish assignable classOf iteration completes event invokeSuperClass).1.Represents
      assignable registrations := by
  cases event with
  | none => exact represents
  | some event =>
    cases invokeSuperClass with
    | true => exact represents_typesOf represents iteration (classOf event)
    | false =>
      rw [publish_class]
      cases hub.events.lookup (classOf event) with
      | none => exact represents
      | some list => exact represents

private theorem represents_perform [DecidableEq Consumer]
    (represents : hub.Represents assignable registrations)
    (call : HubCall Class Consumer Event) :
    (hub.perform assignable classOf call).Represents assignable (registrations.after call) := by
  cases call with
  | subscribe type action =>
    cases type with
    | none => cases action <;> exact represents
    | some type =>
      cases action with
      | none => exact represents
      | some action => exact represents_subscribe represents type action
  | unsubscribe type action =>
    cases type with
    | none => exact represents
    | some type =>
      cases action with
      | none => exact represents
      | some action => exact represents_unsubscribe represents type action
  | clear => exact represents_clear hub
  | publish event invokeSuperClass iteration completes =>
    exact represents_publish represents iteration completes event invokeSuperClass

theorem represents_calls [DecidableEq Consumer] (calls : List (HubCall Class Consumer Event))
    (represents : hub.Represents assignable registrations) :
    (calls.foldl (perform assignable classOf) hub).Represents assignable
      (calls.foldl Registrations.after registrations) := by
  induction calls generalizing hub registrations with
  | nil => exact represents
  | cons call rest inductionHypothesis =>
    exact inductionHypothesis (represents_perform represents call)

end Methods

section Delivery

variable {hub : SystemEventHub Class Consumer} {registrations : Registrations Class Consumer}
variable {completes : Nat → Completion}

private theorem acceptAll_append (invoked first second : List Consumer) :
    acceptAll completes invoked (first ++ second) =
      match acceptAll completes invoked first with
      | (invoked, .returned) => acceptAll completes invoked second
      | (invoked, outcome) => (invoked, outcome) := by
  induction first generalizing invoked with
  | nil => rfl
  | cons consumer rest inductionHypothesis =>
    rw [List.cons_append, acceptAll, acceptAll]
    cases completes invoked.length with
    | normal => exact inductionHypothesis _
    | exception => exact inductionHypothesis _
    | error => rfl

private theorem dispatch_eq (invoked : List Consumer) (classes : List Class) :
    hub.dispatch completes invoked classes =
      acceptAll completes invoked (classes.flatMap hub.consumersOf) := by
  induction classes generalizing invoked with
  | nil => rfl
  | cons cls rest inductionHypothesis =>
    rw [List.flatMap_cons, acceptAll_append, dispatch, consumersOf]
    cases hub.events.lookup cls with
    | none => exact inductionHypothesis invoked
    | some list =>
      simp only
      cases acceptAll completes invoked (hub.lists.get list) with
      | mk between outcome =>
        cases outcome with
        | returned => exact inductionHypothesis between
        | nullPointerException => rfl
        | error => rfl

/-- The invocations go through the consumers in turn, to their end unless one
ends with an `Error`, which is then the last. -/
def Delivered (completes : Nat → Completion) (order : List Consumer)
    (result : List Consumer × Outcome) : Prop :=
  result = (order, .returned) ∨
    result.2 = .error ∧ result.1 <+: order ∧
      ∃ last, result.1.length = last + 1 ∧ completes last = .error

theorem acceptAll_delivered (invoked consumers : List Consumer) :
    Delivered completes (invoked ++ consumers) (acceptAll completes invoked consumers) := by
  induction consumers generalizing invoked with
  | nil =>
    left
    rw [List.append_nil]
    rfl
  | cons consumer rest inductionHypothesis =>
    have further := inductionHypothesis (invoked ++ [consumer])
    rw [List.append_assoc, List.singleton_append] at further
    rw [acceptAll]
    cases ends : completes invoked.length with
    | normal => exact further
    | exception => exact further
    | error =>
      right
      refine ⟨rfl, ⟨rest, by simp⟩, invoked.length, by simp, ends⟩

private theorem perm_recipients (represents : hub.Represents assignable registrations)
    {classes : List Class} {cls : Class} (once : classes.Nodup)
    (listed : ∀ type, type ∈ classes ↔ type ∈ hub.events ∧ assignable type cls = true) :
    (classes.flatMap hub.consumersOf).Perm (registrations.recipients assignable cls true) := by
  have same : classes.flatMap hub.consumersOf = classes.flatMap
      (Registrations.consumers (registrations.filter fun entry => assignable entry.1 cls)) := by
    apply List.flatMap_congr
    intro type member
    rw [represents.held]
    refine (Registrations.consumers_filter ?_).symm
    intro action
    exact ((listed type).mp member).2
  rw [same]
  apply Registrations.perm_consumers classes _ once
  intro entry member
  obtain ⟨registered, reaches⟩ := List.mem_filter.mp member
  exact (listed entry.1).mpr ⟨(mem_events_iff represents entry.1).mpr ⟨entry.2, registered⟩, reaches⟩

private theorem publish_delivered (represents : hub.Represents assignable registrations)
    (iteration : Iteration Class) (completes : Nat → Completion) (event : Event)
    (invokeSuperClass : Bool) :
    ∃ order, order.Perm (registrations.recipients assignable (classOf event) invokeSuperClass) ∧
      Delivered completes order
        (hub.publish assignable classOf iteration completes (some event) invokeSuperClass).2 := by
  cases invokeSuperClass with
  | true =>
    have keys := typesOf_keys represents.cache iteration (classOf event)
    have same : (hub.typesOf assignable iteration (classOf event)).1.consumersOf =
        hub.consumersOf := typesOf_consumersOf iteration (classOf event)
    refine ⟨_, perm_recipients represents keys.1 keys.2, ?_⟩
    show Delivered completes _ ((hub.typesOf assignable iteration (classOf event)).1.dispatch
      completes [] (hub.typesOf assignable iteration (classOf event)).2)
    rw [dispatch_eq, same]
    exact acceptAll_delivered [] _
  | false =>
    have held := represents.held (classOf event)
    have recipients : registrations.recipients assignable (classOf event) false =
        registrations.consumers (classOf event) := rfl
    refine ⟨_, .rfl, ?_⟩
    rw [recipients, ← held, publish_class, consumersOf]
    cases hub.events.lookup (classOf event) with
    | none => exact .inl rfl
    | some list => exact acceptAll_delivered [] _

/-- Whatever calls came before, the cache is exact, and a publication reaches
exactly the registered recipients, each as often as it is registered, up to the
first that ends with an `Error`. -/
theorem publish_recipients [DecidableEq Consumer] (assignable : Class → Class → Bool)
    (classOf : Event → Class) (calls : List (HubCall Class Consumer Event)) :
    let hub := calls.foldl (perform assignable classOf) initial
    let registrations : Registrations Class Consumer := calls.foldl Registrations.after []
    hub.CacheExact assignable registrations ∧
      ∀ iteration completes event invokeSuperClass, ∃ order,
        order.Perm (registrations.recipients assignable (classOf event) invokeSuperClass) ∧
          Delivered completes order
            (hub.publish assignable classOf iteration completes (some event)
              invokeSuperClass).2 := by
  intro hub registrations
  have represents : hub.Represents assignable registrations :=
    represents_calls calls represents_initial
  refine ⟨cacheExact represents, ?_⟩
  intro iteration completes event invokeSuperClass
  exact publish_delivered represents iteration completes event invokeSuperClass

/-- Two consumers of one class, the first ends with an `Error`: the second is
not invoked. -/
theorem publish_stops_at_error :
    let calls : List (HubCall Nat Nat Nat) := [.subscribe (some 0) (some 1), .subscribe (some 0) (some 2)]
    let hub := calls.foldl (perform (fun _ _ => true) id) initial
    let registrations : Registrations Nat Nat := calls.foldl Registrations.after []
    let result := (hub.publish (fun _ _ => true) id .stored (fun _ => .error) (some 0) true).2
    result = ([1], .error) ∧ ¬ result.1.Perm (registrations.recipients (fun _ _ => true) 0 true) := by
  decide

end Delivery

end SystemEventHub

end LocalWhisper.Events
