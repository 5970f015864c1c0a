import Mathlib.Data.List.AList
import LocalWhisper.Machine.Objects

/-! `SystemEventHub`: consumers registered under event classes. Each operation
on one of the concurrent collections is a definition of its own, so that the
methods can run alone or step by step among those of other threads. -/

namespace LocalWhisper.Events

universe u v w

variable {Class : Type u} {Consumer : Type v} {Event : Type w}

/-- How `accept` ends: a thrown `Exception` is caught by the hub, an `Error` is not. -/
inductive Completion where
  | normal
  | exception
  | error
  deriving DecidableEq, Repr

/-- How a call of the hub ends. -/
inductive Outcome where
  | returned
  | nullPointerException
  | error
  deriving DecidableEq, Repr

/-- The order in which `entrySet` shows the keys of a hash map. -/
structure Iteration (Class : Type u) where
  order : List Class → List Class
  perm : ∀ keys, (order keys).Perm keys

/-- Keys as they are stored. -/
def Iteration.stored : Iteration Class := ⟨id, fun _ => .rfl⟩

/-- The two maps. A `CopyOnWriteArrayList` of consumers is an object, the map
`events` has its address; `reserved` are the keys whose `computeIfAbsent` runs
its mapping function. The lists in `typeCache` never change. -/
structure SystemEventHub (Class : Type u) (Consumer : Type v) where
  events : AList (fun _ : Class => Nat)
  reserved : List Class
  lists : Machine.Objects (List Consumer) (· = [])
  typeCache : AList (fun _ : Class => List Class)

namespace SystemEventHub

def initial : SystemEventHub Class Consumer :=
  ⟨∅, [], .empty [] rfl, ∅⟩

/-- `typeCache.clear()`. -/
def clearTypes (hub : SystemEventHub Class Consumer) : SystemEventHub Class Consumer :=
  { hub with typeCache := ∅ }

/-- `events.clear()`. -/
def clearEvents (hub : SystemEventHub Class Consumer) : SystemEventHub Class Consumer :=
  { hub with events := ∅ }

/-- `list.add(action)`. -/
def addTo (hub : SystemEventHub Class Consumer) (list : Nat) (action : Consumer) :
    SystemEventHub Class Consumer :=
  { hub with lists := hub.lists.set list (hub.lists.get list ++ [action]) }

/-- `list.remove(action)`: its first occurrence. -/
def removeFrom [DecidableEq Consumer] (hub : SystemEventHub Class Consumer) (list : Nat)
    (action : Consumer) : SystemEventHub Class Consumer :=
  { hub with lists := hub.lists.set list ((hub.lists.get list).erase action) }

variable [DecidableEq Class]

/-- `events.computeIfAbsent` of an absent key up to the end of the mapping
function, which clears the cache. -/
def reserve (hub : SystemEventHub Class Consumer) (type : Class) : SystemEventHub Class Consumer :=
  { hub.clearTypes with reserved := type :: hub.reserved }

/-- The rest of it: the new list appears under the key. Its address is the count
of the lists before. -/
def insertList (hub : SystemEventHub Class Consumer) (type : Class) :
    SystemEventHub Class Consumer :=
  { hub with
    events := hub.events.insert type hub.lists.count
    reserved := hub.reserved.erase type
    lists := hub.lists.create [] }

/-- `events.remove(type)`. -/
def removeKey (hub : SystemEventHub Class Consumer) (type : Class) :
    SystemEventHub Class Consumer :=
  { hub with events := hub.events.erase type }

section Publish

variable (assignable : Class → Class → Bool)

/-- The mapping function of `typeCache.computeIfAbsent`: the keys of `events`
that are assignable from the class. -/
def scan (hub : SystemEventHub Class Consumer) (iteration : Iteration Class) (cls : Class) :
    List Class :=
  (iteration.order hub.events.keys).filter fun type => assignable type cls

/-- `typeCache.computeIfAbsent`. -/
def typesOf (hub : SystemEventHub Class Consumer) (iteration : Iteration Class) (cls : Class) :
    SystemEventHub Class Consumer × List Class :=
  match hub.typeCache.lookup cls with
  | some classes => (hub, classes)
  | none =>
    ({ hub with typeCache := hub.typeCache.insert cls (hub.scan assignable iteration cls) },
      hub.scan assignable iteration cls)

/-- The loop over the consumers of one class; `completes` says how each `accept`
of this publication ends. -/
def acceptAll (completes : Nat → Completion) (invoked : List Consumer) :
    List Consumer → List Consumer × Outcome
  | [] => (invoked, .returned)
  | consumer :: rest =>
    match completes invoked.length with
    | .error => (invoked ++ [consumer], .error)
    | .normal | .exception => acceptAll completes (invoked ++ [consumer]) rest

/-- The loop over the classes. -/
def dispatch (hub : SystemEventHub Class Consumer) (completes : Nat → Completion)
    (invoked : List Consumer) : List Class → List Consumer × Outcome
  | [] => (invoked, .returned)
  | cls :: rest =>
    match hub.events.lookup cls with
    | none => dispatch hub completes invoked rest
    | some list =>
      match acceptAll completes invoked (hub.lists.get list) with
      | (invoked, .returned) => dispatch hub completes invoked rest
      | (invoked, outcome) => (invoked, outcome)

/-- `publish`, with the consumers that were invoked. `none` is null. -/
def publish (classOf : Event → Class) (iteration : Iteration Class)
    (completes : Nat → Completion) (hub : SystemEventHub Class Consumer) (event : Option Event)
    (invokeSuperClass : Bool) : SystemEventHub Class Consumer × List Consumer × Outcome :=
  match event with
  | none => (hub, [], .nullPointerException)
  | some event =>
    if invokeSuperClass then
      let (hub, classes) := hub.typesOf assignable iteration (classOf event)
      (hub, hub.dispatch completes [] classes)
    else
      match hub.events.lookup (classOf event) with
      | none => (hub, [], .returned)
      | some list => (hub, acceptAll completes [] (hub.lists.get list))

end Publish

def subscribe (hub : SystemEventHub Class Consumer) (type : Option Class)
    (action : Option Consumer) : SystemEventHub Class Consumer × Outcome :=
  match action, type with
  | some action, some type =>
    match hub.events.lookup type with
    | some list => (hub.addTo list action, .returned)
    | none => (((hub.reserve type).insertList type).addTo hub.lists.count action, .returned)
  | _, _ => (hub, .nullPointerException)

def unsubscribe [DecidableEq Consumer] (hub : SystemEventHub Class Consumer) (type : Option Class)
    (action : Option Consumer) : SystemEventHub Class Consumer × Outcome :=
  match type, action with
  | some type, some action =>
    match hub.events.lookup type with
    | none => (hub, .returned)
    | some list =>
      let hub := hub.removeFrom list action
      if hub.lists.get list = [] then ((hub.removeKey type).clearTypes, .returned)
      else (hub, .returned)
  | _, _ => (hub, .nullPointerException)

def clear (hub : SystemEventHub Class Consumer) : SystemEventHub Class Consumer :=
  hub.clearEvents.clearTypes

section Types

variable (assignable : Class → Class → Bool) (hub : SystemEventHub Class Consumer)
variable (iteration : Iteration Class) (cls : Class)

/-- A publication changes nothing but the cache. -/
theorem typesOf_frame :
    (hub.typesOf assignable iteration cls).1.events = hub.events ∧
      (hub.typesOf assignable iteration cls).1.reserved = hub.reserved ∧
        (hub.typesOf assignable iteration cls).1.lists = hub.lists := by
  unfold typesOf
  cases hub.typeCache.lookup cls with
  | some classes => exact ⟨rfl, rfl, rfl⟩
  | none => exact ⟨rfl, rfl, rfl⟩

end Types

section Methods

variable {hub : SystemEventHub Class Consumer} {type : Class} {action : Consumer} {list : Nat}

theorem insertList_lookup (hub : SystemEventHub Class Consumer) (type other : Class) :
    (hub.insertList type).events.lookup other =
      if other = type then some hub.lists.count else hub.events.lookup other := by
  by_cases same : other = type
  · subst same
    rw [if_pos rfl]
    exact AList.lookup_insert _
  · rw [if_neg same]
    exact AList.lookup_insert_ne same

theorem removeKey_lookup (hub : SystemEventHub Class Consumer) (type other : Class) :
    (hub.removeKey type).events.lookup other =
      if other = type then none else hub.events.lookup other := by
  by_cases same : other = type
  · subst same
    rw [if_pos rfl]
    exact AList.lookup_erase _ _
  · rw [if_neg same]
    exact AList.lookup_erase_ne same

theorem publish_class (assignable : Class → Class → Bool) (classOf : Event → Class)
    (iteration : Iteration Class) (completes : Nat → Completion) (event : Event) :
    hub.publish assignable classOf iteration completes (some event) false =
      match hub.events.lookup (classOf event) with
      | none => (hub, [], .returned)
      | some list => (hub, acceptAll completes [] (hub.lists.get list)) := rfl

theorem subscribe_present (found : hub.events.lookup type = some list) :
    hub.subscribe (some type) (some action) = (hub.addTo list action, .returned) := by
  simp only [subscribe, found]

theorem subscribe_absent (absent : hub.events.lookup type = none) :
    hub.subscribe (some type) (some action) =
      (((hub.reserve type).insertList type).addTo hub.lists.count action, .returned) := by
  simp only [subscribe, absent]

theorem unsubscribe_absent [DecidableEq Consumer] (absent : hub.events.lookup type = none) :
    hub.unsubscribe (some type) (some action) = (hub, .returned) := by
  simp only [unsubscribe, absent]

theorem unsubscribe_present [DecidableEq Consumer] (found : hub.events.lookup type = some list) :
    hub.unsubscribe (some type) (some action) =
      (if (hub.removeFrom list action).lists.get list = [] then
        ((hub.removeFrom list action).removeKey type).clearTypes
      else hub.removeFrom list action, .returned) := by
  simp only [unsubscribe, found]
  split
  · rfl
  · rfl

end Methods

end SystemEventHub

end LocalWhisper.Events
