/-! Machines whose steps may be refused, with the rules that carry a property
from one step to every run. Nothing here depends on a particular machine. -/

namespace LocalWhisper.Machine

universe u v w

variable {State : Type u} {Label : Type v} {Output : Type w}

/-- The next state under a label, or nothing when the label is not enabled. -/
abbrev Step (State : Type u) (Label : Type v) := State → Label → Option State

/-- Run a list of labels, stopping at the first one that is refused. -/
def execute (step : Step State Label) : State → List Label → Option State
  | state, [] => some state
  | state, label :: rest => (step state label).bind fun next => execute step next rest

/-- States reached from `start` by steps that all meet `allowed`. -/
inductive Reaches (step : Step State Label) (allowed : State → Label → Prop) (start : State) :
    State → Prop where
  | start : Reaches step allowed start start
  | next {before after : State} {label : Label} (earlier : Reaches step allowed start before)
      (meets : allowed before label) (taken : step before label = some after) :
      Reaches step allowed start after

/-- Every state reached, whatever steps are taken. -/
abbrev Reachable (step : Step State Label) (start : State) : State → Prop :=
  Reaches step (fun _ _ => True) start

section Invariants

variable {step : Step State Label} {allowed stricter : State → Label → Prop}
variable {start before after : State}

/-- The induction of every safety proof: what holds at the start and is kept
by each allowed step holds in every state reached. -/
theorem Reaches.invariant {Holds : State → Prop} (run : Reaches step allowed start after)
    (base : Holds start)
    (kept : ∀ {before after label}, Holds before → allowed before label →
      step before label = some after → Holds after) : Holds after := by
  induction run with
  | start => exact base
  | next earlier meets taken ih => exact kept ih meets taken

theorem Reaches.weaken (run : Reaches step stricter start after)
    (implied : ∀ state label, stricter state label → allowed state label) :
    Reaches step allowed start after := by
  induction run with
  | start => exact .start
  | next earlier meets taken ih => exact ih.next (implied _ _ meets) taken

theorem Reaches.trans {middle : State} (first : Reaches step allowed start middle)
    (second : Reaches step allowed middle after) : Reaches step allowed start after := by
  induction second with
  | start => exact first
  | next earlier meets taken ih => exact ih.next meets taken

/-- Evaluating a list of labels yields a run. -/
theorem Reachable.of_execute {labels : List Label}
    (result : execute step start labels = some after) : Reachable step start after := by
  induction labels generalizing start with
  | nil =>
    cases result
    exact .start
  | cons label rest ih =>
    obtain ⟨middle, taken, remaining⟩ := Option.bind_eq_some_iff.mp result
    exact Reaches.trans (.next .start trivial taken) (ih remaining)

end Invariants

/-- Evaluate a list of labels while checking each step before it is taken. -/
def executeChecked (step : Step State Label) (check : State → Label → Bool) :
    State → List Label → Option State
  | state, [] => some state
  | state, label :: rest =>
    if check state label then
      (step state label).bind fun next => executeChecked step check next rest
    else none

theorem Reaches.of_executeChecked {step : Step State Label} {check : State → Label → Bool}
    {start after : State} {labels : List Label}
    (result : executeChecked step check start labels = some after) :
    Reaches step (fun state label => check state label = true) start after := by
  induction labels generalizing start with
  | nil =>
    cases result
    exact .start
  | cons label rest ih =>
    simp only [executeChecked] at result
    split at result
    · rename_i meets
      obtain ⟨middle, taken, remaining⟩ := Option.bind_eq_some_iff.mp result
      exact Reaches.trans (.next .start meets taken) (ih remaining)
    · cases result

/-- The property holds in every state of the run on these labels. -/
def Always (step : Step State Label) (Holds : State → Prop) : State → List Label → Prop
  | state, [] => Holds state
  | state, label :: rest =>
    Holds state ∧ ∀ next, step state label = some next → Always step Holds next rest

/-- Every step of the run on these labels meets the condition. -/
def Each (step : Step State Label) (meets : State → Label → Prop) : State → List Label → Prop
  | _, [] => True
  | state, label :: rest =>
    ∀ next, step state label = some next → meets state label ∧ Each step meets next rest

/-- A step that is taken is the only one that counts. -/
theorem each_cons {step : Step State Label} {meets : State → Label → Prop} {state next : State}
    {label : Label} {rest : List Label} (taken : step state label = some next) :
    Each step meets state (label :: rest) ↔ meets state label ∧ Each step meets next rest := by
  constructor
  · intro each
    exact each next taken
  · intro met other same
    rw [taken] at same
    cases same
    exact met

theorem Each.of_executeChecked {step : Step State Label} {check : State → Label → Bool}
    {start after : State} {labels : List Label}
    (result : executeChecked step check start labels = some after) :
    Each step (fun state label => check state label = true) start labels := by
  induction labels generalizing start with
  | nil => trivial
  | cons label rest ih =>
    simp only [executeChecked] at result
    split at result
    · rename_i met
      obtain ⟨next, taken, remaining⟩ := Option.bind_eq_some_iff.mp result
      exact (each_cons taken).mpr ⟨met, ih remaining⟩
    · cases result

theorem execute_of_executeChecked {step : Step State Label} {check : State → Label → Bool}
    {start after : State} {labels : List Label}
    (result : executeChecked step check start labels = some after) :
    execute step start labels = some after := by
  induction labels generalizing start with
  | nil => exact result
  | cons label rest ih =>
    simp only [executeChecked] at result
    split at result
    · obtain ⟨next, taken, remaining⟩ := Option.bind_eq_some_iff.mp result
      simp only [execute, taken, Option.bind_some]
      exact ih remaining
    · cases result

theorem Each.weaken {step : Step State Label} {stricter meets : State → Label → Prop}
    (implied : ∀ state label, stricter state label → meets state label) {start : State}
    {labels : List Label} (each : Each step stricter start labels) :
    Each step meets start labels := by
  induction labels generalizing start with
  | nil => trivial
  | cons label rest ih =>
    intro next taken
    obtain ⟨met, later⟩ := each next taken
    exact ⟨implied _ _ met, ih later⟩

theorem Always.head {step : Step State Label} {Holds : State → Prop} {state : State}
    {labels : List Label} (always : Always step Holds state labels) : Holds state := by
  cases labels with
  | nil => exact always
  | cons _ _ => exact always.1

/-- When each single step keeps a property exactly if it meets a condition,
a whole run keeps the property exactly if all its steps meet the condition. -/
theorem always_iff_each {step : Step State Label} {meets : State → Label → Prop}
    {Holds Known : State → Prop}
    (known : ∀ {before after label}, Known before → Holds before → meets before label →
      step before label = some after → Known after)
    (exact_step : ∀ {before after label}, Known before → Holds before →
      step before label = some after → (Holds after ↔ meets before label))
    {start : State} (knownStart : Known start) (base : Holds start) (labels : List Label) :
    Always step Holds start labels ↔ Each step meets start labels := by
  induction labels generalizing start with
  | nil => exact ⟨fun _ => trivial, fun _ => base⟩
  | cons label rest ih =>
    constructor
    · rintro ⟨_, later⟩ next taken
      have reached := later next taken
      have meetsStep := (exact_step knownStart base taken).mp reached.head
      exact ⟨meetsStep, (ih (known knownStart base meetsStep taken) reached.head).mp reached⟩
    · intro each
      refine ⟨base, fun next taken => ?_⟩
      obtain ⟨meetsStep, later⟩ := each next taken
      have holdsNext := (exact_step knownStart base taken).mpr meetsStep
      exact (ih (known knownStart base meetsStep taken) holdsNext).mpr later

/-- A machine that also reports what it did becomes a plain one by keeping
the reports as part of its state. -/
def recorded (step : State → Label → Option (State × List Output)) :
    Step (State × List Output) Label :=
  fun (state, history) label => (step state label).map fun (next, reports) =>
    (next, history ++ reports)

theorem recorded_eq_some {step : State → Label → Option (State × List Output)}
    {before after : State × List Output} {label : Label} :
    recorded step before label = some after ↔
      ∃ reports, step before.1 label = some (after.1, reports) ∧ after.2 = before.2 ++ reports := by
  obtain ⟨state, history⟩ := before
  obtain ⟨next, later⟩ := after
  simp only [recorded, Option.map_eq_some_iff, Prod.mk.injEq, Prod.exists]
  constructor
  · rintro ⟨_, reports, taken, rfl, rfl⟩
    exact ⟨reports, taken, rfl⟩
  · rintro ⟨reports, taken, rfl⟩
    exact ⟨next, reports, taken, rfl, rfl⟩

end LocalWhisper.Machine
