
/-! Loops that run while a condition holds, and the rule for those that end. -/

namespace LocalWhisper.Machine

variable {State : Type} {condition : State → Bool} {body : State → State}

/-- `while (condition) body;` if it ends within so many rounds. -/
def whileLoop (condition : State → Bool) (body : State → State) : Nat → State → Option State
  | 0, state => if condition state then none else some state
  | rounds + 1, state =>
    if condition state then whileLoop condition body rounds (body state) else some state

theorem whileLoop_of_false {state : State} (left : condition state = false) (rounds : Nat) :
    whileLoop condition body rounds state = some state := by
  cases rounds <;> simp [whileLoop, left]

private theorem whileLoop_of_true {state : State} (inside : condition state = true) (rounds : Nat) :
    whileLoop condition body (rounds + 1) state = whileLoop condition body rounds (body state) := by
  rw [whileLoop, if_pos inside]

/-- A loop whose body keeps an invariant and makes a measure smaller ends after at most
as many rounds as the measure says, and the invariant holds then. -/
theorem whileLoop_ends (Invariant : State → Prop) (measure : State → Nat)
    (kept : ∀ state, Invariant state → condition state = true →
      Invariant (body state) ∧ measure (body state) < measure state)
    {state : State} (holds : Invariant state) {rounds : Nat} (enough : measure state ≤ rounds) :
    ∃ last, whileLoop condition body rounds state = some last ∧ Invariant last ∧
      condition last = false := by
  induction rounds generalizing state with
  | zero =>
    cases inside : condition state with
    | false => exact ⟨state, whileLoop_of_false inside 0, holds, inside⟩
    | true =>
      have smaller := (kept state holds inside).2
      omega
  | succ rounds inductionHypothesis =>
    cases inside : condition state with
    | false => exact ⟨state, whileLoop_of_false inside _, holds, inside⟩
    | true =>
      obtain ⟨next, smaller⟩ := kept state holds inside
      rw [whileLoop_of_true inside]
      exact inductionHypothesis next (by omega)

end LocalWhisper.Machine
