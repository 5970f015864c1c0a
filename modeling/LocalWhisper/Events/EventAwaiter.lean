import LocalWhisper.Events.Dispatch
import LocalWhisper.Machine.Run

/-! `EventAwaiter`, `AwaiterHub` and their `ObjectPool` on one thread. A callback
runs in the middle of a delivery and may call everything again, so what is under way
is a stack of publications and callbacks. -/

namespace LocalWhisper.Events

open Machine

/-- The registered awaiters, each with the event class it subscribes to. -/
inductive AwaiterKind where
  | permission
  | whisperTranscription
  | threadStop
  deriving DecidableEq, Repr

/-- The events as far as awaiters read them. `none` is null. -/
inductive AwaitedEvent where
  | requestPermissionResult (requestCode : Int) (grantResults : Option (List Int))
  | whisperTranscription (sessionId : Option String)
  | threadStopped (threadId : Option String)
  deriving DecidableEq, Repr

def AwaitedEvent.kind : AwaitedEvent → AwaiterKind
  | .requestPermissionResult _ _ => .permission
  | .whisperTranscription _ => .whisperTranscription
  | .threadStopped _ => .threadStop

/-- What a callback is given. -/
inductive CallbackArgument where
  | granted (value : Bool)
  | event (event : AwaitedEvent)
  deriving DecidableEq, Repr

/-- `id` is the session or the thread that is awaited; `callback` tells whether
there is one. -/
structure EventAwaiter where
  kind : AwaiterKind
  requestCode : Int
  id : Option String
  callback : Bool
  hasStarted : Bool
  completed : Bool
  cancelled : Bool
  isReceiving : Bool
  deriving DecidableEq, Repr

namespace EventAwaiter

def new (kind : AwaiterKind) : EventAwaiter := ⟨kind, 0, none, false, false, false, false, false⟩

/-- `initialize`. -/
def initializeFor (awaiter : EventAwaiter) (requestCode : Int) (id : Option String)
    (callback : Bool) : EventAwaiter :=
  match awaiter.kind with
  | .permission => { awaiter with requestCode, callback }
  | .whisperTranscription | .threadStop => { awaiter with id, callback }

/-- `match`. -/
def isMatch (awaiter : EventAwaiter) : AwaitedEvent → Bool
  | .requestPermissionResult requestCode _ => requestCode == awaiter.requestCode
  | .whisperTranscription id | .threadStopped id => awaiter.id == id

/-- `onReceive` up to the call of the callback. It does not come to one where the
callback or the grant results are null. -/
def onReceive (awaiter : EventAwaiter) (event : AwaitedEvent) : Option CallbackArgument :=
  match event with
  | .requestPermissionResult _ grantResults =>
    grantResults.bind fun results =>
      if awaiter.callback then some (.granted (results.any (· == 0))) else none
  | .whisperTranscription _ | .threadStopped _ =>
    if awaiter.callback then some (.event event) else none

/-- `reset` with `onReset`: the request code stays. -/
def reset (awaiter : EventAwaiter) : EventAwaiter :=
  { EventAwaiter.new awaiter.kind with requestCode := awaiter.requestCode }

end EventAwaiter

/-- An awaiter in the hands of a renter, until its wait is over for the renter. -/
structure Lease where
  awaiter : Nat
  ended : Bool
  deriving DecidableEq, Repr

inductive Frame where
  /-- `publish` with the classes and the consumers of one class that are left. -/
  | publishing (event : AwaitedEvent) (classes : List AwaiterKind) (consumers : List Nat)
  /-- `receive` inside the callback, with the lease whose wait it ends. -/
  | receiving (awaiter : Nat) (lease : Option Nat)
  deriving DecidableEq, Repr

/-- The hub and the pools. Starts are numbered; `startOf` is the latest one of an awaiter,
and `callbacks` are all that were invoked, each with the latest start of its awaiter. -/
structure AwaiterHub where
  hub : SystemEventHub AwaiterKind Nat
  awaiters : Nat → EventAwaiter
  created : Nat
  pools : AwaiterKind → List Nat
  leases : List Lease
  stack : List Frame
  starts : Nat
  startOf : Nat → Option Nat
  callbacks : List (Option Nat × CallbackArgument)

inductive AwaiterLabel where
  | rentAwaiter (kind : AwaiterKind)
  | initializeFor (lease : Nat) (requestCode : Int) (id : Option String) (callback : Bool)
  | start (lease : Nat)
  | cancel (lease : Nat)
  | publish (event : AwaitedEvent) (invokeSuperClass : Bool) (iteration : Iteration AwaiterKind)
  | deliver
  | callbackReturns (completion : Completion)

namespace AwaiterHub

/-- Two awaiters of each kind are created beforehand. -/
def initial : AwaiterHub where
  hub := .initial
  awaiters index := .new
    (if index < 2 then .permission else if index < 4 then .whisperTranscription else .threadStop)
  created := 6
  pools
    | .permission => [0, 1]
    | .whisperTranscription => [2, 3]
    | .threadStop => [4, 5]
  leases := []
  stack := []
  starts := 0
  startOf _ := none
  callbacks := []

def maxCapacity : Nat := 100

/-- The event classes are final: only a class itself is assignable from it. -/
def assignable (type cls : AwaiterKind) : Bool := type == cls

def change (world : AwaiterHub) (awaiter : Nat) (later : EventAwaiter) : AwaiterHub :=
  { world with awaiters := Function.update world.awaiters awaiter later }

def lend (world : AwaiterHub) (awaiter : Nat) : AwaiterHub :=
  { world with leases := world.leases ++ [⟨awaiter, false⟩] }

/-- `rentAwaiter`, which polls the pool or creates an awaiter. -/
def rentAwaiter (world : AwaiterHub) (kind : AwaiterKind) : AwaiterHub :=
  match world.pools kind with
  | awaiter :: rest => { world with pools := Function.update world.pools kind rest }.lend awaiter
  | [] => { world.change world.created (.new kind) with created := world.created + 1 }.lend
      world.created

/-- `start`; an awaiter that has started already is subscribed once more. -/
def start (world : AwaiterHub) (awaiter : Nat) : AwaiterHub :=
  let held := world.awaiters awaiter
  { world.change awaiter { held with hasStarted := true } with
    hub := (world.hub.subscribe (some held.kind) (some awaiter)).1
    starts := world.starts + 1
    startOf := Function.update world.startOf awaiter (some world.starts) }

/-- `complete`. It sets `completed`, and `release` resets it in the same call. -/
def complete (world : AwaiterHub) (awaiter : Nat) : AwaiterHub :=
  let held := world.awaiters awaiter
  let pool := world.pools held.kind
  if held.completed then world
  else
    { world.change awaiter held.reset with
      hub := (world.hub.unsubscribe (some held.kind) (some awaiter)).1
      pools := Function.update world.pools held.kind
        (if pool.length < maxCapacity then pool ++ [awaiter] else pool) }

def holder (world : AwaiterHub) (awaiter : Nat) : Option Nat :=
  world.leases.findIdx? (· = ⟨awaiter, false⟩)

def endLease (world : AwaiterHub) (lease : Option Nat) : AwaiterHub :=
  match lease with
  | none => world
  | some lease =>
    { world with leases := world.leases.modify lease fun entry => { entry with ended := true } }

def cancel (world : AwaiterHub) (lease awaiter : Nat) : AwaiterHub :=
  ((world.change awaiter { world.awaiters awaiter with cancelled := true }).complete
    awaiter).endLease (some lease)

/-- `receive` comes to the callback. -/
def callBack (world : AwaiterHub) (awaiter : Nat) (argument : CallbackArgument) : AwaiterHub :=
  { world.change awaiter { world.awaiters awaiter with isReceiving := true } with
    stack := .receiving awaiter (world.holder awaiter) :: world.stack
    callbacks := world.callbacks ++ [(world.startOf awaiter, argument)] }

/-- `receive` up to the callback, or to its end where there is none to call. -/
def receive (world : AwaiterHub) (awaiter : Nat) (event : AwaitedEvent) : AwaiterHub :=
  let held := world.awaiters awaiter
  if held.isReceiving then world
  else if !held.isMatch event then world
  else
    match held.onReceive event with
    | some argument => world.callBack awaiter argument
    | none => (world.complete awaiter).endLease (world.holder awaiter)

def publish (world : AwaiterHub) (event : AwaitedEvent) (invokeSuperClass : Bool)
    (iteration : Iteration AwaiterKind) : AwaiterHub :=
  if invokeSuperClass then
    let (hub, classes) := world.hub.typesOf assignable iteration event.kind
    { world with hub, stack := .publishing event classes [] :: world.stack }
  else { world with stack := .publishing event [event.kind] [] :: world.stack }

/-- The publication on top goes on: to its next consumer, to the consumers of its
next class, or to its end. -/
def deliver (world : AwaiterHub) : Option AwaiterHub :=
  match world.stack with
  | .publishing event classes (consumer :: rest) :: below =>
    some ({ world with stack := .publishing event classes rest :: below }.receive consumer event)
  | .publishing event (cls :: rest) [] :: below =>
    some { world with stack := .publishing event rest (world.hub.consumersOf cls) :: below }
  | .publishing _ [] [] :: below => some { world with stack := below }
  | _ => none

/-- An exception of a callback is caught; an error also leaves the publication. -/
def unwound : Completion → List Frame → List Frame
  | .error, .publishing _ _ _ :: rest => rest
  | _, below => below

/-- The callback on top returns, and `receive` completes the awaiter. -/
def callbackReturns (world : AwaiterHub) (completion : Completion) : Option AwaiterHub :=
  match world.stack with
  | .receiving awaiter lease :: below =>
    let held := { world.awaiters awaiter with isReceiving := false }
    let returned := { world with stack := unwound completion below }.change awaiter held
    some ((returned.complete awaiter).endLease lease)
  | _ => none

def step : Step AwaiterHub AwaiterLabel := fun world label =>
  match label with
  | .rentAwaiter kind => some (world.rentAwaiter kind)
  | .initializeFor lease requestCode id callback =>
    world.leases[lease]?.map fun entry =>
      world.change entry.awaiter
        ((world.awaiters entry.awaiter).initializeFor requestCode id callback)
  | .start lease => world.leases[lease]?.map fun entry => world.start entry.awaiter
  | .cancel lease => world.leases[lease]?.map fun entry => world.cancel lease entry.awaiter
  | .publish event invokeSuperClass iteration =>
    some (world.publish event invokeSuperClass iteration)
  | .deliver => world.deliver
  | .callbackReturns completion => world.callbackReturns completion

def Holds (world : AwaiterHub) (lease awaiter : Nat) : Prop :=
  world.leases[lease]? = some ⟨awaiter, false⟩

/-- Awaiters are used once and never shared. -/
structure OneShot (world : AwaiterHub) : Prop where
  pooledOnce : ∀ kind, (world.pools kind).Nodup
  leasedOnce : ∀ first second awaiter, world.Holds first awaiter → world.Holds second awaiter →
    first = second
  unsubscribed : ∀ kind awaiter, awaiter ∈ world.pools kind →
    ∀ type, awaiter ∉ world.hub.consumersOf type
  calledFor : none ∉ world.callbacks.map Prod.fst
  calledOnce : (world.callbacks.map Prod.fst).Nodup

def upNext (world : AwaiterHub) : Option (AwaitedEvent × Nat) :=
  match world.stack with
  | .publishing event _ (consumer :: _) :: _ => some (event, consumer)
  | _ => none

/-- A renter starts its awaiter once and cancels it neither from its own callback nor
after its wait is over, and no publication under way matches an awaiter that nobody
rents any more or that its new renter has not started yet. -/
def Proper (world : AwaiterHub) : AwaiterLabel → Prop
  | .start lease => ∀ entry ∈ world.leases[lease]?,
    entry.ended = false ∧ (world.awaiters entry.awaiter).hasStarted = false
  | .cancel lease => ∀ entry ∈ world.leases[lease]?,
    entry.ended = false ∧ (world.awaiters entry.awaiter).isReceiving = false
  | .deliver => ∀ next ∈ world.upNext, (world.awaiters next.2).isReceiving = false →
    (world.awaiters next.2).isMatch next.1 = true →
      Lease.mk next.2 false ∈ world.leases ∧ (world.awaiters next.2).hasStarted = true
  | _ => True

instance (world : AwaiterHub) (label : AwaiterLabel) : Decidable (world.Proper label) :=
  match label with
  | .start lease =>
    inferInstanceAs (Decidable (∀ entry ∈ world.leases[lease]?,
      entry.ended = false ∧ (world.awaiters entry.awaiter).hasStarted = false))
  | .cancel lease =>
    inferInstanceAs (Decidable (∀ entry ∈ world.leases[lease]?,
      entry.ended = false ∧ (world.awaiters entry.awaiter).isReceiving = false))
  | .deliver =>
    inferInstanceAs (Decidable (∀ next ∈ world.upNext, _ → _ → _))
  | .rentAwaiter _ | .initializeFor _ _ _ _ | .publish _ _ _ | .callbackReturns _ =>
    inferInstanceAs (Decidable True)

end AwaiterHub

end LocalWhisper.Events
