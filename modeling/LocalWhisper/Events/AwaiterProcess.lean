import LocalWhisper.Events.EventAwaiter

/-! The awaiter hub over the life of a process, in which activities are destroyed and
created again: `AwaiterHub.clear` drops the registrations that only the static
initialiser makes. -/

namespace LocalWhisper.Events

open Machine

/-- `getName` of the class of an awaiter. -/
def AwaiterKind.className : AwaiterKind → String
  | .permission => "events.Request.PermissionAwaiter"
  | .whisperTranscription => "events.Whisper.WhisperTranscriptionAwaiter"
  | .threadStop => "events.Threading.ThreadStopAwaiter"

inductive PoolCall where
  | rentAwaiter (kind : AwaiterKind)
  | release (awaiter : Nat)
  deriving DecidableEq, Repr

structure IllegalStateException where
  thrownBy : PoolCall
  message : String
  deriving DecidableEq, Repr

/-- `objectPoolDic` are its keys, and the pools themselves are those of the world. -/
structure AwaiterProcess where
  world : AwaiterHub
  objectPoolDic : List AwaiterKind
  thrown : List IllegalStateException

inductive ProcessLabel where
  | call (label : AwaiterLabel)
  | clear
  | onDestroy (serviceActive : Bool)

namespace AwaiterProcess

def registered : List AwaiterKind := [.permission, .whisperTranscription, .threadStop]

def initial : AwaiterProcess := ⟨.initial, registered, []⟩

variable (process : AwaiterProcess)

def throwIllegalStateException (call : PoolCall) (kind : AwaiterKind) : AwaiterProcess :=
  { process with thrown := process.thrown ++ [⟨call, kind.className ++ " is not registered."⟩] }

def rentAwaiter (kind : AwaiterKind) : AwaiterProcess :=
  if kind ∈ process.objectPoolDic then { process with world := process.world.rentAwaiter kind }
  else process.throwIllegalStateException (.rentAwaiter kind) kind

/-- `complete` up to `release`, which finds no pool: nothing is reset. -/
def unpooled (world : AwaiterHub) (awaiter : Nat) : AwaiterHub :=
  let held := world.awaiters awaiter
  { world.change awaiter { held with completed := true } with
    hub := (world.hub.unsubscribe (some held.kind) (some awaiter)).1 }

def complete (awaiter : Nat) : AwaiterProcess :=
  let held := process.world.awaiters awaiter
  if held.completed then process
  else if held.kind ∈ process.objectPoolDic then
    { process with world := process.world.complete awaiter }
  else
    { process with world := unpooled process.world awaiter }.throwIllegalStateException
      (.release awaiter) held.kind

/-- A wait is over for the renter, whether or not `complete` returned. -/
def endLease (lease : Option Nat) : AwaiterProcess :=
  { process with world := process.world.endLease lease }

def cancel (lease awaiter : Nat) : AwaiterProcess :=
  let held := { process.world.awaiters awaiter with cancelled := true }
  ({ process with world := process.world.change awaiter held }.complete awaiter).endLease
    (some lease)

/-- The exception of `complete` goes to the publication, which catches it. -/
def receive (awaiter : Nat) (event : AwaitedEvent) : AwaiterProcess :=
  let held := process.world.awaiters awaiter
  if held.isReceiving then process
  else if !held.isMatch event then process
  else
    match held.onReceive event with
    | some argument => { process with world := process.world.callBack awaiter argument }
    | none => (process.complete awaiter).endLease (process.world.holder awaiter)

def deliver : Option AwaiterProcess :=
  match process.world.stack with
  | .publishing event classes (consumer :: rest) :: below =>
    let world := { process.world with stack := .publishing event classes rest :: below }
    some ({ process with world }.receive consumer event)
  | _ => process.world.deliver.map fun world => { process with world }

def callbackReturns (completion : Completion) : Option AwaiterProcess :=
  match process.world.stack with
  | .receiving awaiter lease :: below =>
    let held := { process.world.awaiters awaiter with isReceiving := false }
    -- An exception out of the `finally` block takes the place of an error of the callback.
    let leaves :=
      if held.completed || decide (held.kind ∈ process.objectPoolDic) then completion
      else .exception
    let world := { process.world with stack := AwaiterHub.unwound leaves below }.change awaiter held
    some (({ process with world }.complete awaiter).endLease lease)
  | _ => none

def clear : AwaiterProcess :=
  { process with world := { process.world with pools := fun _ => [] }, objectPoolDic := [] }

/-- The part of `MainActivity.onDestroy` that awaiters see. -/
def onDestroy (serviceActive : Bool) : AwaiterProcess :=
  if serviceActive then process
  else
    let cleared := process.clear
    { cleared with world := { cleared.world with hub := cleared.world.hub.clear } }

def step : Step AwaiterProcess ProcessLabel := fun process label =>
  match label with
  | .call (.rentAwaiter kind) => some (process.rentAwaiter kind)
  | .call (.cancel lease) =>
    process.world.leases[lease]?.map fun entry => process.cancel lease entry.awaiter
  | .call .deliver => process.deliver
  | .call (.callbackReturns completion) => process.callbackReturns completion
  | .call label => (AwaiterHub.step process.world label).map fun world => { process with world }
  | .clear => some process.clear
  | .onDestroy serviceActive => some (process.onDestroy serviceActive)

/-- No call has thrown. -/
def Unthrown : Prop := process.thrown = []

/-- The kind whose pool `complete` looks up for this awaiter. -/
def released (awaiter : Nat) : Option AwaiterKind :=
  let held := process.world.awaiters awaiter
  if held.completed then none else some held.kind

/-- The kind whose pool a step looks up: it rents an awaiter, or it cancels or completes
one that is not yet completed. -/
def poolNeeded : ProcessLabel → Option AwaiterKind
  | .call (.rentAwaiter kind) => some kind
  | .call (.cancel lease) =>
    process.world.leases[lease]?.bind fun entry => process.released entry.awaiter
  | .call .deliver =>
    process.world.upNext.bind fun (event, consumer) =>
      let held := process.world.awaiters consumer
      if !held.isReceiving && held.isMatch event && (held.onReceive event).isNone then
        process.released consumer
      else none
  | .call (.callbackReturns _) =>
    match process.world.stack with
    | .receiving awaiter _ :: _ => process.released awaiter
    | _ => none
  | _ => none

/-- A step that rents or completes an awaiter comes before the registrations are gone. -/
def Uncleared (label : ProcessLabel) : Prop :=
  (process.poolNeeded label).isSome = true → process.objectPoolDic ≠ []

end AwaiterProcess

def ProcessLabel.clears : ProcessLabel → Bool
  | .clear | .onDestroy false => true
  | _ => false

namespace AwaiterProcess

variable {process next : AwaiterProcess} {label : ProcessLabel}

section Thrown

theorem thrown_complete (process : AwaiterProcess) (awaiter : Nat) :
    (process.complete awaiter).thrown = [] ↔ process.thrown = [] ∧
      ∀ kind ∈ process.released awaiter, kind ∈ process.objectPoolDic := by
  unfold complete released throwIllegalStateException
  dsimp only
  split
  · simp
  · split <;> simp [*]

theorem thrown_complete_change (process : AwaiterProcess) (world : AwaiterHub) (awaiter : Nat)
    {later : EventAwaiter} (kind : later.kind = (process.world.awaiters awaiter).kind)
    (completed : later.completed = (process.world.awaiters awaiter).completed) :
    ({ process with world := world.change awaiter later }.complete awaiter).thrown = [] ↔
      process.thrown = [] ∧
        ∀ kind ∈ process.released awaiter, kind ∈ process.objectPoolDic := by
  have same : { process with world := world.change awaiter later }.released awaiter =
      process.released awaiter := by
    simp only [released, AwaiterHub.change, Function.update_self, kind, completed]
  rw [thrown_complete, same]

private theorem thrown_rentAwaiter (process : AwaiterProcess) (kind : AwaiterKind) :
    (process.rentAwaiter kind).thrown = [] ↔ process.thrown = [] ∧
      kind ∈ process.objectPoolDic := by
  unfold rentAwaiter throwIllegalStateException
  split <;> simp [*]

private theorem thrown_cancel (process : AwaiterProcess) (lease awaiter : Nat) :
    (process.cancel lease awaiter).thrown = [] ↔ process.thrown = [] ∧
      ∀ kind ∈ process.released awaiter, kind ∈ process.objectPoolDic := by
  exact thrown_complete_change process process.world awaiter rfl rfl

private theorem thrown_receive (process : AwaiterProcess) (awaiter : Nat) (event : AwaitedEvent) :
    (process.receive awaiter event).thrown = [] ↔ process.thrown = [] ∧
      ((process.world.awaiters awaiter).isReceiving = false →
        (process.world.awaiters awaiter).isMatch event = true →
        (process.world.awaiters awaiter).onReceive event = none →
        ∀ kind ∈ process.released awaiter, kind ∈ process.objectPoolDic) := by
  unfold receive
  dsimp only
  split
  · rename_i receiving
    simp [receiving]
  · rename_i idle
    split
    · rename_i other
      simp only [Bool.not_eq_true'] at other
      simp [other]
    · rename_i matched
      simp only [Bool.not_eq_true', Bool.not_eq_false] at matched
      split
      · rename_i argument called
        simp [called]
      · rename_i silent
        refine (thrown_complete process awaiter).trans ?_
        simp [matched, silent, idle]

private theorem thrown_deliver (taken : process.deliver = some next) :
    next.thrown = [] ↔ process.thrown = [] ∧
      ∀ kind ∈ process.poolNeeded (.call .deliver), kind ∈ process.objectPoolDic := by
  unfold deliver at taken
  split at taken
  · rename_i event classes consumer rest below top
    cases taken
    rw [thrown_receive]
    have next : process.world.upNext = some (event, consumer) := by
      rw [AwaiterHub.upNext, top]
    have needed : process.poolNeeded (.call .deliver) =
        if !(process.world.awaiters consumer).isReceiving &&
            (process.world.awaiters consumer).isMatch event &&
            ((process.world.awaiters consumer).onReceive event).isNone then
          process.released consumer
        else none := by
      rw [poolNeeded, next]
      rfl
    rw [needed]
    apply and_congr Iff.rfl
    split
    · rename_i passes
      simp only [Bool.and_eq_true, Bool.not_eq_true', Option.isNone_iff_eq_none] at passes
      exact ⟨fun all => all passes.1.1 passes.1.2 passes.2, fun all _ _ _ => all⟩
    · rename_i stops
      simp only [Bool.and_eq_true, Bool.not_eq_true', Option.isNone_iff_eq_none] at stops
      exact ⟨fun _ => nofun, fun _ idle matched silent => absurd ⟨⟨idle, matched⟩, silent⟩ stops⟩
  · rename_i other
    obtain ⟨world, -, rfl⟩ := Option.map_eq_some_iff.mp taken
    have none : process.world.upNext = none := by
      unfold AwaiterHub.upNext
      split
      · rename_i event classes consumer rest below top
        exact absurd top (other event classes consumer rest below)
      · rfl
    rw [poolNeeded, none]
    simp

private theorem thrown_callbackReturns {completion : Completion}
    (taken : process.callbackReturns completion = some next) :
    next.thrown = [] ↔ process.thrown = [] ∧
      ∀ kind ∈ process.poolNeeded (.call (.callbackReturns completion)),
        kind ∈ process.objectPoolDic := by
  unfold callbackReturns at taken
  split at taken
  · rename_i awaiter lease below top
    cases taken
    have needed : process.poolNeeded (.call (.callbackReturns completion)) =
        process.released awaiter := by
      rw [poolNeeded, top]
    rw [needed]
    exact thrown_complete_change process
      { process.world with stack := AwaiterHub.unwound _ below } _ rfl rfl
  · cases taken

/-- A call throws exactly when it needs a pool whose kind is not registered. -/
theorem thrown_step (taken : step process label = some next) :
    next.thrown = [] ↔ process.thrown = [] ∧
      ∀ kind ∈ process.poolNeeded label, kind ∈ process.objectPoolDic := by
  cases label with
  | clear =>
    cases taken
    simp [clear, poolNeeded]
  | onDestroy serviceActive =>
    cases taken
    cases serviceActive <;> simp [onDestroy, clear, poolNeeded]
  | call label =>
    cases label with
    | rentAwaiter kind =>
      cases taken
      simpa [poolNeeded] using thrown_rentAwaiter process kind
    | cancel lease =>
      obtain ⟨entry, found, rfl⟩ := Option.map_eq_some_iff.mp taken
      rw [thrown_cancel, poolNeeded, found]
      rfl
    | deliver => exact thrown_deliver taken
    | callbackReturns completion => exact thrown_callbackReturns taken
    | initializeFor lease requestCode id callback =>
      obtain ⟨world, -, rfl⟩ := Option.map_eq_some_iff.mp taken
      simp [poolNeeded]
    | start lease =>
      obtain ⟨world, -, rfl⟩ := Option.map_eq_some_iff.mp taken
      simp [poolNeeded]
    | publish event invokeSuperClass iteration =>
      cases taken
      simp [poolNeeded]

end Thrown

section Registrations

@[simp] theorem objectPoolDic_complete (process : AwaiterProcess) (awaiter : Nat) :
    (process.complete awaiter).objectPoolDic = process.objectPoolDic := by
  unfold complete throwIllegalStateException
  dsimp only
  split_ifs <;> rfl

@[simp] theorem objectPoolDic_endLease (process : AwaiterProcess) (lease : Option Nat) :
    (process.endLease lease).objectPoolDic = process.objectPoolDic := rfl

theorem objectPoolDic_receive (process : AwaiterProcess) (awaiter : Nat) (event : AwaitedEvent) :
    (process.receive awaiter event).objectPoolDic = process.objectPoolDic := by
  unfold receive
  dsimp only
  split_ifs
  · rfl
  · rfl
  · split
    · rfl
    · rw [objectPoolDic_endLease, objectPoolDic_complete]

/-- Only a clear changes the registrations, and nothing brings them back. -/
theorem objectPoolDic_step (taken : step process label = some next) :
    next.objectPoolDic = if label.clears then [] else process.objectPoolDic := by
  cases label with
  | clear =>
    cases taken
    rfl
  | onDestroy serviceActive =>
    cases taken
    cases serviceActive <;> rfl
  | call label =>
    show next.objectPoolDic = process.objectPoolDic
    cases label with
    | rentAwaiter kind =>
      cases taken
      unfold rentAwaiter throwIllegalStateException
      split <;> rfl
    | cancel lease =>
      obtain ⟨entry, -, rfl⟩ := Option.map_eq_some_iff.mp taken
      rw [cancel, objectPoolDic_endLease, objectPoolDic_complete]
    | deliver =>
      have delivered : process.deliver = some next := taken
      unfold deliver at delivered
      split at delivered
      · cases delivered
        rw [objectPoolDic_receive]
      · obtain ⟨world, -, rfl⟩ := Option.map_eq_some_iff.mp delivered
        rfl
    | callbackReturns completion =>
      have returned : process.callbackReturns completion = some next := taken
      unfold callbackReturns at returned
      split at returned
      · cases returned
        rw [objectPoolDic_endLease, objectPoolDic_complete]
      · cases returned
    | initializeFor lease requestCode id callback =>
      obtain ⟨world, -, rfl⟩ := Option.map_eq_some_iff.mp taken
      rfl
    | start lease =>
      obtain ⟨world, -, rfl⟩ := Option.map_eq_some_iff.mp taken
      rfl
    | publish event invokeSuperClass iteration =>
      cases taken
      rfl

/-- The registrations are gone exactly when a clear has run. -/
theorem objectPoolDic_execute {labels : List ProcessLabel} {start : AwaiterProcess}
    (run : execute step start labels = some process) :
    process.objectPoolDic = if labels.any ProcessLabel.clears then [] else start.objectPoolDic := by
  induction labels generalizing start with
  | nil =>
    cases run
    rfl
  | cons label rest inductionHypothesis =>
    obtain ⟨middle, taken, remaining⟩ := Option.bind_eq_some_iff.mp run
    rw [inductionHypothesis remaining, objectPoolDic_step taken, List.any_cons]
    cases label.clears <;> simp

/-- Either all of the static registrations are there or none. -/
def Known (process : AwaiterProcess) : Prop :=
  process.objectPoolDic = registered ∨ process.objectPoolDic = []

theorem Known.step (known : process.Known) (taken : AwaiterProcess.step process label = some next) :
    next.Known := by
  rw [Known, objectPoolDic_step taken]
  split
  · exact .inr rfl
  · exact known

theorem mem_registered (kind : AwaiterKind) : kind ∈ registered := by
  cases kind <;> decide

theorem Known.uncleared_iff (known : process.Known) (label : ProcessLabel) :
    process.Uncleared label ↔
      ∀ kind ∈ process.poolNeeded label, kind ∈ process.objectPoolDic := by
  unfold Uncleared
  cases process.poolNeeded label with
  | none => simp
  | some kind =>
    rcases known with there | gone
    · rw [there]
      simp only [Option.mem_some_iff, forall_eq', mem_registered kind, iff_true]
      exact fun _ => by decide
    · simp [gone]

private theorem unthrown_step_iff (known : process.Known) (unthrown : process.Unthrown)
    (taken : AwaiterProcess.step process label = some next) :
    next.Unthrown ↔ process.Uncleared label := by
  rw [Unthrown, thrown_step taken, known.uncleared_iff]
  exact and_iff_right unthrown

private theorem unthrown_initial : initial.Unthrown := rfl

end Registrations

section Calls

variable (all : ∀ kind, kind ∈ process.objectPoolDic)

include all

theorem complete_of_registered (world : AwaiterHub) (awaiter : Nat) :
    { process with world }.complete awaiter =
      { process with world := world.complete awaiter } := by
  unfold complete AwaiterHub.complete
  dsimp only
  split
  · rfl
  · rw [if_pos (all _)]

private theorem receive_of_registered (world : AwaiterHub) (awaiter : Nat) (event : AwaitedEvent) :
    { process with world }.receive awaiter event =
      { process with world := world.receive awaiter event } := by
  unfold receive AwaiterHub.receive
  dsimp only
  split_ifs
  · rfl
  · rfl
  · cases (world.awaiters awaiter).onReceive event with
    | some argument => rfl
    | none =>
      dsimp only
      rw [complete_of_registered all world]
      rfl

private theorem step_call (label : AwaiterLabel) :
    step process (.call label) =
      (AwaiterHub.step process.world label).map fun world => { process with world } := by
  cases label with
  | rentAwaiter kind => exact congrArg some (if_pos (all kind))
  | cancel lease =>
    simp only [step, AwaiterHub.step, Option.map_map]
    congr 1
    funext entry
    dsimp only [Function.comp]
    unfold cancel AwaiterHub.cancel
    dsimp only
    rw [complete_of_registered all]
    rfl
  | deliver =>
    show process.deliver = process.world.deliver.map _
    unfold deliver
    split
    · rename_i event classes consumer rest below top
      dsimp only
      rw [receive_of_registered all, AwaiterHub.deliver, top]
      rfl
    · rfl
  | callbackReturns completion =>
    show process.callbackReturns completion = (process.world.callbackReturns completion).map _
    unfold callbackReturns AwaiterHub.callbackReturns
    cases process.world.stack with
    | nil => rfl
    | cons frame below =>
      cases frame with
      | publishing => rfl
      | receiving awaiter lease =>
        dsimp only
        rw [complete_of_registered all, decide_eq_true (all _), Bool.or_true, if_pos rfl]
        rfl
  | initializeFor lease requestCode id callback => rfl
  | start lease => rfl
  | publish event invokeSuperClass iteration => rfl

end Calls

/-- A run without clears is one of the world alone, so awaiters stay one-shot in it. -/
theorem execute_calls (labels : List AwaiterLabel) :
    execute step initial (labels.map .call) =
      (execute AwaiterHub.step .initial labels).map fun world => { initial with world } := by
  suffices general : ∀ world, execute step { initial with world } (labels.map .call) =
      (execute AwaiterHub.step world labels).map fun world => { initial with world } from
    general .initial
  induction labels with
  | nil => exact fun _ => rfl
  | cons label rest inductionHypothesis =>
    intro world
    have all (kind : AwaiterKind) :
        kind ∈ AwaiterProcess.objectPoolDic { initial with world } := mem_registered kind
    rw [List.map_cons, execute, execute, step_call all, Option.bind_map, Option.map_bind]
    congr 1
    funext next
    exact inductionHypothesis next

/-- In a run nothing throws exactly when every renting and every completion of an awaiter
comes before the registrations are gone, and they are gone once a clear has run. -/
theorem unthrown_iff_uncleared (labels : List ProcessLabel) :
    (Always step Unthrown initial labels ↔ Each step Uncleared initial labels) ∧
      ∀ process, execute step initial labels = some process →
        (process.objectPoolDic = [] ↔ ∃ label ∈ labels, label.clears = true) := by
  constructor
  · exact always_iff_each (fun known _ _ taken => Known.step known taken)
      (fun known unthrown taken => unthrown_step_iff known unthrown taken) (.inl rfl)
      unthrown_initial labels
  · intro process run
    rw [objectPoolDic_execute run, ← List.any_eq_true]
    cases labels.any ProcessLabel.clears <;> simp [initial, registered]

/-- A clear after the last use of an awaiter does no harm. -/
theorem unthrown_iff_uncleared_once :
    Always step Unthrown initial [.call (.rentAwaiter .permission), .call (.cancel 0), .clear] :=
  (unthrown_iff_uncleared _).1.mpr fun rented first => ⟨fun _ => by decide,
    fun cancelled second => ⟨fun _ => by
      rw [objectPoolDic_step first]
      decide, fun cleared _ => ⟨nofun, trivial⟩⟩⟩

/-- An activity awaits a permission and is destroyed; the next one cancels what is left
and asks again. -/
def recreated : List ProcessLabel :=
  [.call (.rentAwaiter .permission), .call (.initializeFor 0 7 none true), .call (.start 0),
    .onDestroy false, .call (.cancel 0), .call (.rentAwaiter .permission)]

/-- The process after the activity was created again. -/
def afterRecreation : AwaiterProcess := (execute step initial recreated).get (by decide +kernel)

private theorem thrown_afterRecreation : afterRecreation.thrown =
    [⟨.release 0, "events.Request.PermissionAwaiter is not registered."⟩,
      ⟨.rentAwaiter .permission, "events.Request.PermissionAwaiter is not registered."⟩] := by
  decide +kernel

/-- Both the awaiter that was rented before and a new one fail. -/
theorem cleared_hub_throws : ¬ ∀ labels process, execute step initial labels = some process →
    process.Unthrown := by
  intro always
  have unthrown := always recreated afterRecreation (Option.some_get _).symm
  rw [Unthrown, thrown_afterRecreation] at unthrown
  cases unthrown

end AwaiterProcess

end LocalWhisper.Events
