import LocalWhisper.Machine.Run
import Mathlib.Tactic.SplitIfs

/-! Runs in which every worker has a known number of steps to make: any order of
their steps runs to the end. -/

namespace LocalWhisper.Machine

universe u v

variable {State : Type u} {Label : Type v}

/-- The order names every worker as often as the worker has steps left. -/
def Complete [DecidableEq Label] (work : Label → Nat) (schedule : List Label) : Prop :=
  ∀ label, schedule.count label = work label

theorem Complete.reverse [DecidableEq Label] {work : Label → Nat} {schedule : List Label}
    (complete : Complete work schedule) : Complete work schedule.reverse := by
  intro label
  rw [List.count_reverse]
  exact complete label

def inTurn (work : Nat → Nat) (workers : Nat) : List Nat :=
  (List.range workers).flatMap fun worker => List.replicate (work worker) worker

private theorem count_inTurn (work : Nat → Nat) (workers worker : Nat) :
    (inTurn work workers).count worker = if worker < workers then work worker else 0 := by
  induction workers with
  | zero => rfl
  | succ workers inductionHypothesis =>
    have last : inTurn work (workers + 1) =
        inTurn work workers ++ List.replicate (work workers) workers := by
      rw [inTurn, List.range_succ, List.flatMap_append, List.flatMap_singleton]
      rfl
    rw [last, List.count_append, inductionHypothesis, List.count_replicate]
    by_cases same : worker = workers
    · subst same
      simp
    · have different : ¬ (workers == worker) = true := by simpa using fun equal => same equal.symm
      rw [if_neg different, Nat.add_zero]
      split_ifs <;> omega

theorem complete_inTurn {work : Nat → Nat} {workers : Nat}
    (others : ∀ worker, workers ≤ worker → work worker = 0) :
    Complete work (inTurn work workers) := by
  intro worker
  rw [count_inTurn]
  split
  · rfl
  · next other => exact (others worker (Nat.le_of_not_lt other)).symm

/-- A step of a worker that leaves the invariant in place and the work of the others
as it was. -/
structure Progress (Invariant : State → Prop) (work : State → Label → Nat) (before : State)
    (label : Label) (after : State) : Prop where
  holds : Invariant after
  done : work after label + 1 = work before label
  others : ∀ other ≠ label, work after other = work before other

/-- Where every worker that has work can make a step, a complete order runs to a
state in which nobody has work. -/
theorem execute_complete [DecidableEq Label] {step : Step State Label} {Invariant : State → Prop}
    {work : State → Label → Nat}
    (pass : ∀ state label, Invariant state → 0 < work state label →
      ∃ next, step state label = some next ∧ Progress Invariant work state label next)
    {schedule : List Label} {start : State} (base : Invariant start)
    (complete : Complete (work start) schedule) :
    ∃ after, execute step start schedule = some after ∧ Invariant after ∧
      ∀ label, work after label = 0 := by
  induction schedule generalizing start with
  | nil => exact ⟨start, rfl, base, fun label => (complete label).symm⟩
  | cons label rest inductionHypothesis =>
    have named := complete label
    rw [List.count_cons_self] at named
    obtain ⟨next, taken, progress⟩ := pass start label base (by omega)
    have remaining : Complete (work next) rest := by
      intro other
      by_cases same : other = label
      · subst same
        have done := progress.done
        omega
      · rw [progress.others other same, ← complete other,
          List.count_cons_of_ne fun equal => same equal.symm]
    obtain ⟨after, ran, ends⟩ := inductionHypothesis progress.holds remaining
    exact ⟨after, (congrArg (Option.bind · _) taken).trans ran, ends⟩

/-- The same steps keep the invariant in whichever state a run stops. -/
theorem Reaches.of_progress {step : Step State Label} {Invariant : State → Prop}
    {work : State → Label → Nat}
    (pass : ∀ state label, Invariant state → 0 < work state label →
      ∃ next, step state label = some next ∧ Progress Invariant work state label next)
    (idle : ∀ state label, work state label = 0 → step state label = none) {start after : State}
    (base : Invariant start) (run : Reachable step start after) : Invariant after := by
  apply run.invariant base
  intro before next label holds _ taken
  rcases Nat.eq_zero_or_pos (work before label) with none | some
  · rw [idle before label none] at taken
    cases taken
  · obtain ⟨same, ran, progress⟩ := pass before label holds some
    rw [taken] at ran
    cases ran
    exact progress.holds

end LocalWhisper.Machine
