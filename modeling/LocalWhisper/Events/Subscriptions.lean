import LocalWhisper.Events.Threads

/-! Whether a subscription can be lost: `unsubscribe` tests its list and removes
the key in two steps, and `subscribe` fetches its list and adds to it in two. -/

namespace LocalWhisper.Events

universe u v w

variable {Class : Type u} {Consumer : Type v} {Thread : Type w}

namespace Phase

/-- The list a call works on, with the type it was found under. -/
def list : Phase Class Consumer → Option (Class × Nat)
  | .adding type _ list | .removing type _ list | .testing type _ list => some (type, list)
  | _ => none

/-- What a call of `unsubscribe` takes out. -/
def leaves : Phase Class Consumer → Option (Class × Consumer)
  | .unsubscribing type action | .removing type action _ | .testing type action _
  | .removingKey type action | .forgetting type action => some (type, action)
  | _ => none

end Phase

namespace World

variable [DecidableEq Class]

/-- A key is removed only while its list is empty and no subscriber has fetched
the list without having added to it. -/
def RemovesUnused (world : World Class Consumer Thread) (label : Label Class Consumer Thread) :
    Prop :=
  ∀ thread iteration type action, label = .advance thread iteration →
    world.phase thread = .removingKey type action →
      (∀ list, world.hub.events.lookup type = some list → world.hub.lists.get list = []) ∧
        ∀ other consumer list, world.phase other ≠ .adding type consumer list

/-- No call of `clear` starts. -/
def Uncleared (label : Label Class Consumer Thread) : Prop :=
  ∀ thread, label ≠ .start thread .clear

def Undisturbed (type : Class) (action : Consumer) (label : Label Class Consumer Thread) : Prop :=
  ∀ thread, label ≠ .start thread (.unsubscribe type action)

/-- The list stored under the type has the action. -/
def Subscribed (world : World Class Consumer Thread) (type : Class) (action : Consumer) : Prop :=
  ∃ list, world.hub.events.lookup type = some list ∧ action ∈ world.hub.lists.get list

/-- Every list belongs to the one type it was created for. -/
def Owned (world : World Class Consumer Thread) (owner : Nat → Class) : Prop :=
  (∀ type list, world.hub.events.lookup type = some list →
    list < world.hub.lists.count ∧ owner list = type) ∧
  ∀ thread type list, (world.phase thread).list = some (type, list) →
    list < world.hub.lists.count ∧ owner list = type

/-- The lists that subscribers add to are stored under their types. -/
structure ListsSound (world : World Class Consumer Thread) : Prop where
  owned : ∃ owner, Owned world owner
  inserting : ∀ thread type action, world.phase thread = .inserting type action →
    type ∈ world.hub.reserved ∧ world.hub.events.lookup type = none
  alone : ∀ first second type action consumer, world.phase first = .inserting type action →
    world.phase second = .inserting type consumer → first = second
  adding : ∀ thread type action list, world.phase thread = .adding type action list →
    world.hub.events.lookup type = some list
  uncleared : ∀ thread, world.phase thread ≠ .clearing

private theorem listsSound_initial (owner : Nat → Class) :
    ListsSound (initial : World Class Consumer Thread) where
  owned := by
    refine ⟨owner, ?_, ?_⟩
    · intro type list found
      cases found
    · intro thread type list held
      cases held
  inserting _ _ _ place := by cases place
  alone _ _ _ _ _ place := by cases place
  adding _ _ _ _ place := by cases place
  uncleared _ place := by cases place

variable [DecidableEq Thread]
variable {assignable : Class → Class → Bool} {world after : World Class Consumer Thread}
variable {hub : SystemEventHub Class Consumer} {thread : Thread} {phase : Phase Class Consumer}

theorem listsSound_kept (sound : ListsSound world) (events : hub.events = world.hub.events)
    (reserved : hub.reserved = world.hub.reserved)
    (count : hub.lists.count = world.hub.lists.count)
    (hand : ∀ type list, phase.list = some (type, list) →
      world.hub.events.lookup type = some list ∨ (world.phase thread).list = some (type, list))
    (inserts : ∀ type action, phase ≠ .inserting type action)
    (adds : ∀ type action list, phase = .adding type action list →
      world.hub.events.lookup type = some list)
    (clears : phase ≠ .clearing) : ListsSound (world.move thread hub phase) := by
  obtain ⟨owner, keys, held⟩ := sound.owned
  constructor
  · refine ⟨owner, ?_, ?_⟩
    · intro type list found
      rw [move_hub, events] at found
      rw [move_hub, count]
      exact keys type list found
    · intro other type list has
      rw [move_hub, count]
      by_cases same : other = thread
      · subst same
        rw [move_phase_self] at has
        rcases hand type list has with found | before
        · exact keys type list found
        · exact held other type list before
      · rw [move_phase_other same] at has
        exact held other type list has
  · intro other type action place
    have before := before_of_move place (inserts type action)
    rw [move_hub, reserved, events]
    exact sound.inserting other type action before.2
  · intro first second type action consumer firstPlace secondPlace
    exact sound.alone first second type action consumer
      (before_of_move firstPlace (inserts type action)).2
      (before_of_move secondPlace (inserts type consumer)).2
  · intro other type action list place
    rw [move_hub, events]
    by_cases same : other = thread
    · subst same
      rw [move_phase_self] at place
      exact adds type action list place
    · rw [move_phase_other same] at place
      exact sound.adding other type action list place
  · intro other place
    exact sound.uncleared other (before_of_move place clears).2

private theorem listsSound_reserve (sound : ListsSound world) {type : Class} (action : Consumer)
    (free : type ∉ world.hub.reserved) (missing : world.hub.events.lookup type = none) :
    ListsSound (world.move thread (world.hub.reserve type) (.inserting type action)) := by
  obtain ⟨owner, keys, held⟩ := sound.owned
  constructor
  · refine ⟨owner, keys, ?_⟩
    intro other key list has
    by_cases same : other = thread
    · subst same
      rw [move_phase_self] at has
      cases has
    · rw [move_phase_other same] at has
      exact held other key list has
  · intro other key consumer place
    by_cases same : other = thread
    · subst same
      rw [move_phase_self] at place
      cases place
      exact ⟨List.mem_cons_self, missing⟩
    · rw [move_phase_other same] at place
      have before := sound.inserting other key consumer place
      exact ⟨List.mem_cons_of_mem _ before.1, before.2⟩
  · -- A second thread at this key would have it reserved already.
    have only : ∀ other consumer, world.phase other ≠ .inserting type consumer :=
      fun other consumer place => free (sound.inserting other type consumer place).1
    intro first second key firstAction secondAction firstPlace secondPlace
    by_cases firstSame : first = thread
    · by_cases secondSame : second = thread
      · rw [firstSame, secondSame]
      · subst firstSame
        rw [move_phase_self] at firstPlace
        cases firstPlace
        rw [move_phase_other secondSame] at secondPlace
        exact absurd secondPlace (only second secondAction)
    · rw [move_phase_other firstSame] at firstPlace
      by_cases secondSame : second = thread
      · subst secondSame
        rw [move_phase_self] at secondPlace
        cases secondPlace
        exact absurd firstPlace (only first firstAction)
      · rw [move_phase_other secondSame] at secondPlace
        exact sound.alone first second key firstAction secondAction firstPlace secondPlace
  · intro other key consumer list place
    exact sound.adding other key consumer list (before_of_move place (by simp)).2
  · intro other place
    exact sound.uncleared other (before_of_move place (by simp)).2

private theorem listsSound_insert (sound : ListsSound world) {type : Class} {action : Consumer}
    (place : world.phase thread = .inserting type action) :
    ListsSound (world.move thread (world.hub.insertList type)
      (.adding type action world.hub.lists.count)) := by
  obtain ⟨owner, keys, held⟩ := sound.owned
  have lookup := world.hub.insertList_lookup type
  have older : ∀ list, list < world.hub.lists.count →
      list < (world.hub.insertList type).lists.count ∧
        Function.update owner world.hub.lists.count type list = owner list := by
    intro list before
    exact ⟨Nat.lt_succ_of_lt before, Function.update_of_ne (Nat.ne_of_lt before) _ _⟩
  have newest : world.hub.lists.count < (world.hub.insertList type).lists.count ∧
      Function.update owner world.hub.lists.count type world.hub.lists.count = type :=
    ⟨Nat.lt_succ_self _, Function.update_self _ _ _⟩
  constructor
  · refine ⟨Function.update owner world.hub.lists.count type, ?_, ?_⟩
    · intro key list found
      rw [move_hub, lookup] at found
      by_cases same : key = type
      · rw [if_pos same] at found
        cases found
        rw [same]
        exact newest
      · rw [if_neg same] at found
        obtain ⟨before, mine⟩ := keys key list found
        rw [move_hub, (older list before).2]
        exact ⟨(older list before).1, mine⟩
    · intro other key list has
      by_cases same : other = thread
      · subst same
        rw [move_phase_self] at has
        cases has
        exact newest
      · rw [move_phase_other same] at has
        obtain ⟨before, mine⟩ := held other key list has
        rw [move_hub, (older list before).2]
        exact ⟨(older list before).1, mine⟩
  · intro other key consumer there
    obtain ⟨apart, before⟩ := before_of_move there (by simp)
    have different : key ≠ type := by
      rintro rfl
      exact apart (sound.alone other thread key consumer action before place)
    obtain ⟨reserved, missing⟩ := sound.inserting other key consumer before
    refine ⟨(List.mem_erase_of_ne different).mpr reserved, ?_⟩
    rw [move_hub, lookup, if_neg different]
    exact missing
  · intro first second key firstAction secondAction firstPlace secondPlace
    exact sound.alone first second key firstAction secondAction
      (before_of_move firstPlace (by simp)).2 (before_of_move secondPlace (by simp)).2
  · intro other key consumer list there
    rw [move_hub, lookup]
    by_cases same : other = thread
    · subst same
      rw [move_phase_self] at there
      cases there
      rw [if_pos rfl]
    · rw [move_phase_other same] at there
      have found := sound.adding other key consumer list there
      have missing := (sound.inserting thread type action place).2
      have different : key ≠ type := by
        rintro rfl
        rw [found] at missing
        cases missing
      rw [if_neg different]
      exact found
  · intro other there
    exact sound.uncleared other (before_of_move there (by simp)).2

private theorem listsSound_removeKey (sound : ListsSound world) {type : Class} (action : Consumer)
    (unused : ∀ other consumer list, world.phase other ≠ .adding type consumer list) :
    ListsSound (world.move thread (world.hub.removeKey type) (.forgetting type action)) := by
  obtain ⟨owner, keys, held⟩ := sound.owned
  have lookup := world.hub.removeKey_lookup type
  constructor
  · refine ⟨owner, ?_, ?_⟩
    · intro key list found
      rw [move_hub, lookup] at found
      by_cases same : key = type
      · rw [if_pos same] at found
        cases found
      · rw [if_neg same] at found
        exact keys key list found
    · intro other key list has
      by_cases same : other = thread
      · subst same
        rw [move_phase_self] at has
        cases has
      · rw [move_phase_other same] at has
        exact held other key list has
  · intro other key consumer place
    obtain ⟨reserved, missing⟩ :=
      sound.inserting other key consumer (before_of_move place (by simp)).2
    refine ⟨reserved, ?_⟩
    rw [move_hub, lookup, missing, ite_self]
  · intro first second key firstAction secondAction firstPlace secondPlace
    exact sound.alone first second key firstAction secondAction
      (before_of_move firstPlace (by simp)).2 (before_of_move secondPlace (by simp)).2
  · intro other key consumer list place
    have before := (before_of_move place (by simp)).2
    have different : key ≠ type := by
      rintro rfl
      exact unused other consumer list before
    rw [move_hub, lookup, if_neg different]
    exact sound.adding other key consumer list before
  · intro other place
    exact sound.uncleared other (before_of_move place (by simp)).2

theorem listsSound_step [DecidableEq Consumer] {label : Label Class Consumer Thread}
    (sound : ListsSound world) (unused : RemovesUnused world label) (uncleared : Uncleared label)
    (taken : step assignable world label = some after) : ListsSound after := by
  rcases step_cases taken with ⟨thread, call, rfl, -, rfl⟩ |
    ⟨thread, iteration, hub, phase, rfl, operated, rfl⟩
  · cases call with
    | clear => exact absurd rfl (uncleared thread)
    | subscribe | unsubscribe | publish =>
      exact listsSound_kept sound rfl rfl rfl (by simp [ThreadCall.enter, Phase.list])
        (by simp [ThreadCall.enter]) (by simp [ThreadCall.enter]) (by simp [ThreadCall.enter])
  · obtain ⟨place, placeIs⟩ : ∃ place, world.phase thread = place := ⟨_, rfl⟩
    rw [placeIs] at operated
    cases operated with
    | absent free missing => exact listsSound_reserve sound _ free missing
    | insert => exact listsSound_insert sound placeIs
    | removeKey =>
      exact listsSound_removeKey sound _ (unused thread iteration _ _ rfl placeIs).2
    | clear => exact absurd placeIs (sound.uncleared thread)
    | present found =>
      exact listsSound_kept sound rfl rfl rfl (by simp [Phase.list, found]) (by simp)
        (by simp [found]) (by simp)
    | known found =>
      exact listsSound_kept sound rfl rfl rfl (by simp [Phase.list, found]) (by simp) (by simp)
        (by simp)
    | remove =>
      exact listsSound_kept sound rfl rfl rfl (by simp [Phase.list, placeIs]) (by simp) (by simp)
        (by simp)
    | types =>
      have frame := world.hub.typesOf_frame assignable iteration
      exact listsSound_kept sound (frame _).1 (frame _).2.1 (congrArg _ (frame _).2.2)
        (by simp [Phase.list]) (by simp) (by simp) (by simp)
    | add | unknown | empty | filled | forget | clearTypes | ownClass | visit | done =>
      exact listsSound_kept sound rfl rfl rfl (by simp [Phase.list]) (by simp) (by simp) (by simp)

/-- The list of the type has the action and nobody takes it out. -/
structure Kept (type : Class) (action : Consumer) (world : World Class Consumer Thread) :
    Prop where
  sound : ListsSound world
  stored : Subscribed world type action
  staying : ∀ thread, (world.phase thread).leaves ≠ some (type, action)

theorem subscribed_of_same {type : Class} {action : Consumer}
    (stored : Subscribed world type action) (events : hub.events = world.hub.events)
    (lists : hub.lists = world.hub.lists) : Subscribed (world.move thread hub phase) type action := by
  obtain ⟨list, found, member⟩ := stored
  refine ⟨list, ?_, ?_⟩
  · rw [move_hub, events]
    exact found
  · rw [move_hub, lists]
    exact member

private theorem subscribed_add {type : Class} {action consumer : Consumer} {changed : Nat}
    (stored : Subscribed world type action) :
    Subscribed (world.move thread (world.hub.addTo changed consumer) phase) type action := by
  obtain ⟨list, found, member⟩ := stored
  refine ⟨list, found, ?_⟩
  show action ∈ (world.hub.lists.set changed _).get list
  rw [Machine.Objects.set_get]
  split
  · next here =>
    rw [← here.1]
    exact List.mem_append_left _ member
  · exact member

theorem subscribed_remove [DecidableEq Consumer] {type other : Class} {action consumer : Consumer}
    {changed : Nat} (kept : Kept type action world)
    (place : world.phase thread = .removing other consumer changed) :
    Subscribed (world.move thread (world.hub.removeFrom changed consumer) phase) type action := by
  obtain ⟨list, found, member⟩ := kept.stored
  obtain ⟨owner, keys, held⟩ := kept.sound.owned
  refine ⟨list, found, ?_⟩
  show action ∈ (world.hub.lists.set changed _).get list
  rw [Machine.Objects.set_get]
  split
  · next here =>
    obtain ⟨rfl, -⟩ := here
    have mine := (keys type list found).2
    have theirs := (held thread other list (by rw [place]; rfl)).2
    have different : action ≠ consumer := by
      rintro rfl
      apply kept.staying thread
      rw [place, ← mine, ← theirs]
      rfl
    exact (List.mem_erase_of_ne different).mpr member
  · exact member

private theorem subscribed_insert {type other : Class} {action consumer : Consumer}
    (kept : Kept type action world) (place : world.phase thread = .inserting other consumer) :
    Subscribed (world.move thread (world.hub.insertList other) phase) type action := by
  obtain ⟨list, found, member⟩ := kept.stored
  obtain ⟨owner, keys, -⟩ := kept.sound.owned
  have missing := (kept.sound.inserting thread other consumer place).2
  have different : type ≠ other := by
    rintro rfl
    rw [found] at missing
    cases missing
  refine ⟨list, (AList.lookup_insert_ne different).trans found, ?_⟩
  show action ∈ (world.hub.lists.create []).get list
  rw [Machine.Objects.create_get_of_ne _ _ (Nat.ne_of_lt (keys type list found).1)]
  exact member

private theorem subscribed_removeKey {type other : Class} {action : Consumer}
    (stored : Subscribed world type action)
    (unused : ∀ list, world.hub.events.lookup other = some list →
      world.hub.lists.get list = []) :
    Subscribed (world.move thread (world.hub.removeKey other) phase) type action := by
  obtain ⟨list, found, member⟩ := stored
  have different : type ≠ other := by
    rintro rfl
    rw [unused list found] at member
    cases member
  exact ⟨list, (AList.lookup_erase_ne different).trans found, member⟩

private theorem leaves_of_operates [DecidableEq Consumer] {iteration : Iteration Class}
    {before next : Phase Class Consumer} {start : SystemEventHub Class Consumer}
    (operated : Operates assignable iteration start before hub next) :
    next.leaves = none ∨ next.leaves = before.leaves := by
  cases operated with
  | known | remove | empty | removeKey => exact .inr rfl
  | present | absent | insert | add | unknown | filled | forget | clear | clearTypes | types
  | ownClass | visit | done => exact .inl rfl

private theorem kept_step [DecidableEq Consumer] {type : Class} {action : Consumer}
    {label : Label Class Consumer Thread} (kept : Kept type action world)
    (allowed : (RemovesUnused world label ∧ Uncleared label) ∧ Undisturbed type action label)
    (taken : step assignable world label = some after) : Kept type action after := by
  obtain ⟨⟨unused, uncleared⟩, undisturbed⟩ := allowed
  refine ⟨listsSound_step kept.sound unused uncleared taken, ?_, ?_⟩
  · rcases step_cases taken with ⟨thread, call, rfl, -, rfl⟩ |
      ⟨thread, iteration, hub, phase, rfl, operated, rfl⟩
    · exact subscribed_of_same kept.stored rfl rfl
    · obtain ⟨place, placeIs⟩ : ∃ place, world.phase thread = place := ⟨_, rfl⟩
      rw [placeIs] at operated
      cases operated with
      | insert => exact subscribed_insert kept placeIs
      | add => exact subscribed_add kept.stored
      | remove => exact subscribed_remove kept placeIs
      | removeKey =>
        exact subscribed_removeKey kept.stored (unused thread iteration _ _ rfl placeIs).1
      | clear => exact absurd placeIs (kept.sound.uncleared thread)
      | types =>
        have frame := world.hub.typesOf_frame assignable iteration
        exact subscribed_of_same kept.stored (frame _).1 (frame _).2.2
      | present | absent | unknown | known | empty | filled | forget | clearTypes | ownClass
      | visit | done => exact subscribed_of_same kept.stored rfl rfl
  · intro other
    rcases step_cases taken with ⟨thread, call, rfl, -, rfl⟩ |
      ⟨thread, iteration, hub, phase, rfl, operated, rfl⟩
    · by_cases same : other = thread
      · subst same
        rw [move_phase_self]
        cases call with
        | unsubscribe key consumer =>
          intro leaving
          cases leaving
          exact undisturbed other rfl
        | subscribe | clear | publish => simp [ThreadCall.enter, Phase.leaves]
      · rw [move_phase_other same]
        exact kept.staying other
    · by_cases same : other = thread
      · subst same
        rw [move_phase_self]
        rcases leaves_of_operates operated with gone | before
        · simp [gone]
        · rw [before]
          exact kept.staying other
      · rw [move_phase_other same]
        exact kept.staying other

private theorem subscribed_return {type : Class} {action : Consumer} {list : Nat}
    (sound : ListsSound world) (place : world.phase thread = .adding type action list) :
    Subscribed (world.move thread (world.hub.addTo list action) .idle) type action := by
  obtain ⟨owner, -, held⟩ := sound.owned
  have created := (held thread type list (by rw [place]; rfl)).1
  refine ⟨list, sound.adding thread type action list place, ?_⟩
  show action ∈ (world.hub.lists.set list _).get list
  rw [Machine.Objects.set_get_self _ _ created]
  simp

/-- In runs whose removals of keys find them unused, a subscription stays from
its return until a call to take it out starts. -/
theorem subscription_kept [DecidableEq Consumer] {before returned now : World Class Consumer Thread}
    {thread : Thread} {iteration : Iteration Class} {type : Class} {action : Consumer} {list : Nat}
    (earlier : Machine.Reaches (step assignable)
      (fun world label => RemovesUnused world label ∧ Uncleared label) initial before)
    (place : before.phase thread = .adding type action list)
    (staying : ∀ other, (before.phase other).leaves ≠ some (type, action))
    (adds : step assignable before (.advance thread iteration) = some returned)
    (later : Machine.Reaches (step assignable)
      (fun world label => (RemovesUnused world label ∧ Uncleared label) ∧
        Undisturbed type action label) returned now) :
    Subscribed now type action := by
  have sound : ListsSound before :=
    earlier.invariant (listsSound_initial fun _ => type) fun sound allowed taken =>
      listsSound_step sound allowed.1 allowed.2 taken
  have unused : RemovesUnused before (.advance thread iteration) := by
    rintro other _ key consumer ⟨rfl, rfl⟩ removes
    cases place.symm.trans removes
  have uncleared : Uncleared (.advance thread iteration : Label Class Consumer Thread) := by
    intro other same
    cases same
  have soundReturned := listsSound_step sound unused uncleared adds
  rw [step, place] at adds
  cases adds
  have kept : Kept type action (before.move thread (before.hub.addTo list action) .idle) := by
    refine ⟨soundReturned, subscribed_return sound place, ?_⟩
    intro other
    by_cases same : other = thread
    · subst same
      rw [move_phase_self]
      simp [Phase.leaves]
    · rw [move_phase_other same]
      exact staying other
  exact (later.invariant kept kept_step).stored

/-- Neither a call of `clear` nor the removal of a key. -/
def leavesKeys (world : World Class Consumer Thread) (label : Label Class Consumer Thread) : Bool :=
  match label with
  | .start _ .clear => false
  | .start _ _ => true
  | .advance thread _ =>
    match world.phase thread with
    | .removingKey _ _ => false
    | _ => true

omit [DecidableEq Thread] in
private theorem allowed_of_leavesKeys {label : Label Class Consumer Thread}
    (leaves : leavesKeys world label = true) : RemovesUnused world label ∧ Uncleared label := by
  constructor
  · rintro thread iteration type action rfl place
    rw [leavesKeys, place] at leaves
    cases leaves
  · rintro thread rfl
    cases leaves

/-- A check that is enough for `RemovesUnused` and `Uncleared` with two threads. -/
def removesUnusedCheck (world : World Nat Nat Bool) (label : Label Nat Nat Bool) : Bool :=
  match label with
  | .start _ .clear => false
  | .start _ _ => true
  | .advance thread _ =>
    match world.phase thread with
    | .removingKey type _ =>
      (world.hub.events.lookup type).all (fun list => (world.hub.lists.get list).isEmpty) &&
        ((world.phase !thread).list.map Prod.fst != some type)
    | _ => true

theorem removesUnused_of_check {world : World Nat Nat Bool} {label : Label Nat Nat Bool}
    (checked : removesUnusedCheck world label = true) :
    RemovesUnused world label ∧ Uncleared label := by
  constructor
  · rintro thread iteration type action rfl place
    simp only [removesUnusedCheck, place, Bool.and_eq_true, bne_iff_ne] at checked
    refine ⟨fun list found => ?_, fun other consumer list adding => ?_⟩
    · simpa [found] using checked.1
    · by_cases same : other = thread
      · rw [same] at adding
        cases place.symm.trans adding
      · rw [Bool.eq_not.mpr same] at adding
        exact checked.2 (by rw [adding]; rfl)
  · rintro thread rfl
    cases checked

/-- The label is no call that takes out this action. -/
def keepsAction (type action : Nat) : Label Nat Nat Bool → Bool
  | .start _ (.unsubscribe other consumer) => !(other == type && consumer == action)
  | _ => true

private theorem undisturbed_of_check {type action : Nat} {label : Label Nat Nat Bool}
    (checked : keepsAction type action label = true) : Undisturbed type action label := by
  rintro thread rfl
  simp [keepsAction] at checked

/-- A thread subscribes, takes its action out again and with it the key, and
subscribes anew, up to the last operation. -/
def firstLabels : List (Label Nat Nat Bool) :=
  [.start true (.subscribe 0 1)] ++ List.replicate 3 (.advance true .stored) ++
  [.start true (.unsubscribe 0 1)] ++ List.replicate 5 (.advance true .stored) ++
  [.start true (.subscribe 0 5)] ++ List.replicate 2 (.advance true .stored)

/-- Another thread subscribes to the type and takes its own action out. -/
def otherLabels : List (Label Nat Nat Bool) :=
  [.start false (.subscribe 0 2)] ++ List.replicate 2 (.advance false .stored) ++
  [.start false (.unsubscribe 0 2)] ++ List.replicate 3 (.advance false .stored)

def first : World Nat Nat Bool :=
  (Machine.execute (step fun _ _ => true) initial firstLabels).getD initial

def firstReturned : World Nat Nat Bool := first.move true (first.hub.addTo 1 5) .idle

theorem subscription_kept_first :
    ∃ now, Machine.execute (step fun _ _ => true) firstReturned otherLabels = some now ∧
      Subscribed now 0 5 := by
  have result : Machine.executeChecked (step fun _ _ => true) removesUnusedCheck initial
      firstLabels = some first := rfl
  have earlier := (Machine.Reaches.of_executeChecked result).weaken
    fun world label checked => removesUnused_of_check checked
  have adds : step (fun _ _ => true) first (.advance true .stored) = some firstReturned := rfl
  obtain ⟨now, ran⟩ : ∃ now, Machine.executeChecked (step fun _ _ => true)
      (fun world label => removesUnusedCheck world label && keepsAction 0 5 label) firstReturned
      otherLabels = some now := ⟨_, rfl⟩
  have later := (Machine.Reaches.of_executeChecked ran).weaken fun world label checked =>
    And.imp removesUnused_of_check undisturbed_of_check (Bool.and_eq_true_iff.mp checked)
  exact ⟨now, Machine.execute_of_executeChecked ran,
    subscription_kept earlier rfl (by decide) adds later⟩

/-- One thread takes out the only action and has found the list empty, another
thread has fetched that list. -/
def racingLabels : List (Label Nat Nat Bool) :=
  [.start true (.subscribe 0 1), .advance true .stored, .advance true .stored,
    .advance true .stored, .start true (.unsubscribe 0 1), .advance true .stored,
    .advance true .stored, .advance true .stored, .start false (.subscribe 0 2),
    .advance false .stored]

def racing : World Nat Nat Bool :=
  (Machine.execute (step fun _ _ => true) initial racingLabels).getD initial

def racingReturned : World Nat Nat Bool := racing.move false (racing.hub.addTo 0 2) .idle

def racingLost : World Nat Nat Bool :=
  racingReturned.move true (racingReturned.hub.removeKey 0) (.forgetting 0 1)

/-- The second subscription returns, then the first thread removes the key. -/
theorem subscription_lost :
    Machine.Reaches (step fun _ _ => true) (fun _ label => Uncleared label) initial racing ∧
      racing.phase false = .adding 0 2 0 ∧
        (∀ other, (racing.phase other).leaves ≠ some (0, 2)) ∧
          step (fun _ _ => true) racing (.advance false .stored) = some racingReturned ∧
            Machine.Reaches (step fun _ _ => true)
              (fun _ label => Uncleared label ∧ Undisturbed 0 2 label) racingReturned racingLost ∧
              ¬ Subscribed racingLost 0 2 := by
  have result : Machine.executeChecked (step fun _ _ => true) leavesKeys initial racingLabels =
    some racing := rfl
  have removal : step (fun _ _ => true) racingReturned (.advance true .stored) =
    some racingLost := rfl
  have allowed : Uncleared (.advance true .stored : Label Nat Nat Bool) ∧
      Undisturbed 0 2 (.advance true .stored : Label Nat Nat Bool) := by
    constructor
    · intro thread same
      cases same
    · intro thread same
      cases same
  refine ⟨?_, rfl, by decide, rfl, .next .start allowed removal, ?_⟩
  · exact (Machine.Reaches.of_executeChecked result).weaken
      fun world label leaves => (allowed_of_leavesKeys leaves).2
  · rintro ⟨list, found, -⟩
    have gone : racingLost.hub.events.lookup 0 = none := by decide
    rw [gone] at found
    cases found

end World

end LocalWhisper.Events
