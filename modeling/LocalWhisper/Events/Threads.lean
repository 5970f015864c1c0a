import Mathlib.Logic.Function.Basic
import LocalWhisper.Machine.Run
import LocalWhisper.Events.SystemEventHub

/-! Calls of the hub by several threads. Each operation on one of the concurrent
collections is one step. -/

namespace LocalWhisper.Events

universe u v w

variable {Class : Type u} {Consumer : Type v} {Thread : Type w}

/-- Where a thread stands in a call: the operation that comes next. -/
inductive Phase (Class : Type u) (Consumer : Type v) where
  | idle
  /-- `events.computeIfAbsent`. -/
  | subscribing (type : Class) (action : Consumer)
  /-- The mapping function has run, the key is to be inserted. -/
  | inserting (type : Class) (action : Consumer)
  /-- `list.add`. -/
  | adding (type : Class) (action : Consumer) (list : Nat)
  /-- `events.get`. -/
  | unsubscribing (type : Class) (action : Consumer)
  /-- `list.remove`. -/
  | removing (type : Class) (action : Consumer) (list : Nat)
  /-- `list.isEmpty`. -/
  | testing (type : Class) (action : Consumer) (list : Nat)
  /-- `events.remove`. -/
  | removingKey (type : Class) (action : Consumer)
  /-- `typeCache.clear` of `unsubscribe`. -/
  | forgetting (type : Class) (action : Consumer)
  /-- `events.clear`. -/
  | clearing
  /-- `typeCache.clear` of `clear`. -/
  | clearingTypes
  /-- `typeCache.computeIfAbsent`, left out when super classes are not invoked. -/
  | publishing (cls : Class) (invokeSuperClass : Bool)
  /-- `events.get` of the next class and its consumers' `accept`. -/
  | visiting (classes : List Class)
  deriving DecidableEq

/-- A call with arguments that are not null; the others end before they reach a map. -/
inductive ThreadCall (Class : Type u) (Consumer : Type v) where
  | subscribe (type : Class) (action : Consumer)
  | unsubscribe (type : Class) (action : Consumer)
  | clear
  | publish (cls : Class) (invokeSuperClass : Bool)
  deriving DecidableEq

def ThreadCall.enter : ThreadCall Class Consumer → Phase Class Consumer
  | .subscribe type action => .subscribing type action
  | .unsubscribe type action => .unsubscribing type action
  | .clear => .clearing
  | .publish cls invokeSuperClass => .publishing cls invokeSuperClass

/-- The hub and every thread's place. A consumer that calls the hub in turn is
another thread. -/
structure World (Class : Type u) (Consumer : Type v) (Thread : Type w) where
  hub : SystemEventHub Class Consumer
  phase : Thread → Phase Class Consumer

inductive Label (Class : Type u) (Consumer : Type v) (Thread : Type w) where
  | start (thread : Thread) (call : ThreadCall Class Consumer)
  | advance (thread : Thread) (iteration : Iteration Class)

namespace World

def initial : World Class Consumer Thread := ⟨.initial, fun _ => .idle⟩

section Move

variable [DecidableEq Thread]

/-- The hub changes and one thread goes on to another place. -/
def move (world : World Class Consumer Thread) (thread : Thread)
    (hub : SystemEventHub Class Consumer) (phase : Phase Class Consumer) :
    World Class Consumer Thread :=
  ⟨hub, Function.update world.phase thread phase⟩

variable {world : World Class Consumer Thread} {thread other : Thread}
variable {hub : SystemEventHub Class Consumer} {phase target : Phase Class Consumer}

@[simp] theorem move_hub : (world.move thread hub phase).hub = hub := rfl

@[simp] theorem move_phase_self : (world.move thread hub phase).phase thread = phase := by
  simp [move]

theorem move_phase_other (apart : other ≠ thread) :
    (world.move thread hub phase).phase other = world.phase other := by
  simp [move, apart]

/-- A thread at another place than the moved one's was there before. -/
theorem before_of_move (place : (world.move thread hub phase).phase other = target)
    (different : phase ≠ target) : other ≠ thread ∧ world.phase other = target := by
  have apart : other ≠ thread := by
    rintro rfl
    rw [move_phase_self] at place
    exact different place
  rw [move_phase_other apart] at place
  exact ⟨apart, place⟩

end Move

variable [DecidableEq Class] [DecidableEq Consumer] [DecidableEq Thread]

/-- The next operation of a thread. A map operation on a key waits while the
mapping function for it runs, and `clear` while any runs. -/
def operation (assignable : Class → Class → Bool) (iteration : Iteration Class)
    (hub : SystemEventHub Class Consumer) :
    Phase Class Consumer → Option (SystemEventHub Class Consumer × Phase Class Consumer)
  | .idle => none
  | .subscribing type action =>
    if type ∈ hub.reserved then none
    else
      match hub.events.lookup type with
      | some list => some (hub, .adding type action list)
      | none => some (hub.reserve type, .inserting type action)
  | .inserting type action => some (hub.insertList type, .adding type action hub.lists.count)
  | .adding _ action list => some (hub.addTo list action, .idle)
  | .unsubscribing type action =>
    match hub.events.lookup type with
    | none => some (hub, .idle)
    | some list => some (hub, .removing type action list)
  | .removing type action list => some (hub.removeFrom list action, .testing type action list)
  | .testing type action list =>
    if hub.lists.get list = [] then some (hub, .removingKey type action) else some (hub, .idle)
  | .removingKey type action =>
    if type ∈ hub.reserved then none else some (hub.removeKey type, .forgetting type action)
  | .forgetting _ _ => some (hub.clearTypes, .idle)
  | .clearing => if hub.reserved = [] then some (hub.clearEvents, .clearingTypes) else none
  | .clearingTypes => some (hub.clearTypes, .idle)
  | .publishing cls true =>
    some ((hub.typesOf assignable iteration cls).1,
      .visiting (hub.typesOf assignable iteration cls).2)
  | .publishing cls false => some (hub, .visiting [cls])
  | .visiting (_ :: rest) => some (hub, .visiting rest)
  | .visiting [] => some (hub, .idle)

def step (assignable : Class → Class → Bool) :
    Machine.Step (World Class Consumer Thread) (Label Class Consumer Thread)
  | world, .start thread call =>
    if world.phase thread = .idle then some (world.move thread world.hub call.enter) else none
  | world, .advance thread iteration =>
    (operation assignable iteration world.hub (world.phase thread)).map fun (hub, phase) =>
      world.move thread hub phase

/-- What an operation can do, each branch with its guard. -/
inductive Operates (assignable : Class → Class → Bool) (iteration : Iteration Class)
    (hub : SystemEventHub Class Consumer) :
    Phase Class Consumer → SystemEventHub Class Consumer → Phase Class Consumer → Prop where
  | present {type action list} (found : hub.events.lookup type = some list) :
    Operates assignable iteration hub (.subscribing type action) hub (.adding type action list)
  | absent {type action} (free : type ∉ hub.reserved) (missing : hub.events.lookup type = none) :
    Operates assignable iteration hub (.subscribing type action) (hub.reserve type)
      (.inserting type action)
  | insert {type action} :
    Operates assignable iteration hub (.inserting type action) (hub.insertList type)
      (.adding type action hub.lists.count)
  | add {type action list} :
    Operates assignable iteration hub (.adding type action list) (hub.addTo list action) .idle
  | unknown {type action} (missing : hub.events.lookup type = none) :
    Operates assignable iteration hub (.unsubscribing type action) hub .idle
  | known {type action list} (found : hub.events.lookup type = some list) :
    Operates assignable iteration hub (.unsubscribing type action) hub
      (.removing type action list)
  | remove {type action list} :
    Operates assignable iteration hub (.removing type action list) (hub.removeFrom list action)
      (.testing type action list)
  | empty {type action list} (none_left : hub.lists.get list = []) :
    Operates assignable iteration hub (.testing type action list) hub (.removingKey type action)
  | filled {type action list} (some_left : hub.lists.get list ≠ []) :
    Operates assignable iteration hub (.testing type action list) hub .idle
  | removeKey {type action} (free : type ∉ hub.reserved) :
    Operates assignable iteration hub (.removingKey type action) (hub.removeKey type)
      (.forgetting type action)
  | forget {type action} :
    Operates assignable iteration hub (.forgetting type action) hub.clearTypes .idle
  | clear (free : hub.reserved = []) :
    Operates assignable iteration hub .clearing hub.clearEvents .clearingTypes
  | clearTypes : Operates assignable iteration hub .clearingTypes hub.clearTypes .idle
  | types {cls} :
    Operates assignable iteration hub (.publishing cls true)
      (hub.typesOf assignable iteration cls).1
      (.visiting (hub.typesOf assignable iteration cls).2)
  | ownClass {cls} :
    Operates assignable iteration hub (.publishing cls false) hub (.visiting [cls])
  | visit {cls rest} :
    Operates assignable iteration hub (.visiting (cls :: rest)) hub (.visiting rest)
  | done : Operates assignable iteration hub (.visiting []) hub .idle

variable {assignable : Class → Class → Bool} {iteration : Iteration Class}
variable {hub later : SystemEventHub Class Consumer} {phase next : Phase Class Consumer}

omit [DecidableEq Thread] in
private theorem operates_of_operation
    (taken : operation assignable iteration hub phase = some (later, next)) :
    Operates assignable iteration hub phase later next := by
  cases phase with
  | idle => cases taken
  | subscribing type action =>
    rw [operation] at taken
    split at taken
    · cases taken
    · next free =>
      cases found : hub.events.lookup type with
      | none =>
        rw [found] at taken
        cases taken
        exact .absent free found
      | some list =>
        rw [found] at taken
        cases taken
        exact .present found
  | inserting type action =>
    cases taken
    exact .insert
  | adding type action list =>
    cases taken
    exact .add
  | unsubscribing type action =>
    rw [operation] at taken
    cases found : hub.events.lookup type with
    | none =>
      rw [found] at taken
      cases taken
      exact .unknown found
    | some list =>
      rw [found] at taken
      cases taken
      exact .known found
  | removing type action list =>
    cases taken
    exact .remove
  | testing type action list =>
    rw [operation] at taken
    split at taken
    · next none_left =>
      cases taken
      exact .empty none_left
    · next some_left =>
      cases taken
      exact .filled some_left
  | removingKey type action =>
    rw [operation] at taken
    split at taken
    · cases taken
    · next free =>
      cases taken
      exact .removeKey free
  | forgetting type action =>
    cases taken
    exact .forget
  | clearing =>
    rw [operation] at taken
    split at taken
    · next free =>
      cases taken
      exact .clear free
    · cases taken
  | clearingTypes =>
    cases taken
    exact .clearTypes
  | publishing cls invokeSuperClass =>
    cases invokeSuperClass with
    | true =>
      cases taken
      exact .types
    | false =>
      cases taken
      exact .ownClass
  | visiting classes =>
    cases classes with
    | nil =>
      cases taken
      exact .done
    | cons cls rest =>
      cases taken
      exact .visit

/-- A step starts a call on an idle thread or does the next operation of a call. -/
theorem step_cases {before after : World Class Consumer Thread}
    {label : Label Class Consumer Thread} (taken : step assignable before label = some after) :
    (∃ thread call, label = .start thread call ∧ before.phase thread = .idle ∧
      after = before.move thread before.hub call.enter) ∨
    (∃ thread iteration hub phase, label = .advance thread iteration ∧
      Operates assignable iteration before.hub (before.phase thread) hub phase ∧
      after = before.move thread hub phase) := by
  cases label with
  | start thread call =>
    left
    rw [step] at taken
    split at taken
    · next free =>
      cases taken
      exact ⟨thread, call, rfl, free, rfl⟩
    · cases taken
  | advance thread iteration =>
    right
    rw [step] at taken
    obtain ⟨⟨hub, phase⟩, operated, rfl⟩ := Option.map_eq_some_iff.mp taken
    exact ⟨thread, iteration, hub, phase, rfl, operates_of_operation operated, rfl⟩

end World

end LocalWhisper.Events
