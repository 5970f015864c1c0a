import LocalWhisper.Machine.Run

/-! Computations that may throw and that keep a state from one to the next, and
how to show that what one finds there does not matter. -/

namespace LocalWhisper.Machine

universe u v w

variable {State : Type u} {Failure Result First Second : Type u} {Abstract : Type v}
variable {Call : Type w}

/-- A computation with a state, which an exception leaves as it is then. There is no
result where the computation does what is not allowed. -/
abbrev Action (State Failure Result : Type u) := ExceptT Failure (StateT State Option) Result

namespace Action

/-- A computation that neither reads nor writes the state. -/
def ofExcept (outcome : Except Failure Result) : Action State Failure Result :=
  fun state => some (outcome, state)

end Action

theorem of_bind_ok {first : Except Failure First} {next : First → Except Failure Second}
    {result : Second} (done : (first >>= next) = .ok result) :
    ∃ value, first = .ok value ∧ next value = .ok result := by
  cases first with
  | error failure => cases done
  | ok value => exact ⟨value, rfl, done⟩

/-- Whatever good state it finds, the computation has this outcome and leaves a good
state. -/
def Answers (Good : State → Prop) (action : Action State Failure Result)
    (outcome : Except Failure Result) : Prop :=
  ∀ state, Good state → ∃ next, action state = some (outcome, next) ∧ Good next

section Answers

variable {Good : State → Prop}

theorem answers_ofExcept (outcome : Except Failure Result) :
    Answers Good (Action.ofExcept outcome) outcome :=
  fun state good => ⟨state, rfl, good⟩

theorem answers_pure (value : Result) :
    Answers Good (pure value : Action State Failure Result) (.ok value) :=
  answers_ofExcept (.ok value)

/-- One computation after another; the second is asked only for the value of the
first. -/
theorem Answers.bind {action : Action State Failure First} {outcome : Except Failure First}
    {next : First → Action State Failure Second} {later : First → Except Failure Second}
    (first : Answers Good action outcome)
    (second : ∀ value, outcome = .ok value → Answers Good (next value) (later value)) :
    Answers Good (action >>= next) (outcome >>= later) := by
  intro state good
  obtain ⟨middle, ran, stays⟩ := first state good
  have continued : (action >>= next) state =
      (action state).bind fun pair => ExceptT.bindCont next pair.1 pair.2 := rfl
  rw [continued, ran, Option.bind_some]
  cases outcome with
  | error failure => exact ⟨middle, rfl, stays⟩
  | ok value =>
    obtain ⟨last, ended, kept⟩ := second value rfl middle stays
    exact ⟨last, ended, kept⟩

end Answers

/-- A call as the step of a machine that reports its outcome. -/
def calling (action : Call → Action State Failure Result) (state : State) (call : Call) :
    Option (State × List (Except Failure Result)) :=
  (action call state).map fun (outcome, next) => (next, [outcome])

/-- The outcomes of calls on an abstract state, and the state behind them. -/
def outcomes (plan : Call → Abstract → Except Failure Result × Abstract) :
    Abstract → List Call → Abstract × List (Except Failure Result)
  | abstract, [] => (abstract, [])
  | abstract, call :: rest =>
    let answered := plan call abstract
    let later := outcomes plan answered.2 rest
    (later.1, answered.1 :: later.2)

/-- One more call is answered behind the others. -/
theorem outcomes_concat (plan : Call → Abstract → Except Failure Result × Abstract)
    (abstract : Abstract) (calls : List Call) (call : Call) :
    outcomes plan abstract (calls ++ [call]) =
      ((plan call (outcomes plan abstract calls).1).2,
        (outcomes plan abstract calls).2 ++ [(plan call (outcomes plan abstract calls).1).1]) := by
  induction calls generalizing abstract with
  | nil => rfl
  | cons first rest ih =>
    rw [List.cons_append, outcomes, outcomes]
    simp only [ih, List.cons_append]

/-- On related states a call has the outcome of the plan and leaves related states. -/
def Refines (related : State → Abstract → Prop) (action : Action State Failure Result)
    (plan : Abstract → Except Failure Result × Abstract) : Prop :=
  ∀ {state abstract}, related state abstract →
    ∃ next, action state = some ((plan abstract).1, next) ∧ related next (plan abstract).2

/-- Calls that each refine their plan do so one after the other. -/
theorem execute_calling {related : State → Abstract → Prop}
    {action : Call → Action State Failure Result}
    {plan : Call → Abstract → Except Failure Result × Abstract} {state : State}
    (abstract : Abstract) (start : related state abstract) (calls : List Call)
    (refines : ∀ call ∈ calls, Refines related (action call) (plan call))
    (before : List (Except Failure Result)) :
    ∃ next, execute (recorded (calling action)) (state, before) calls =
        some (next, before ++ (outcomes plan abstract calls).2) ∧
      related next (outcomes plan abstract calls).1 := by
  induction calls generalizing state abstract before with
  | nil => exact ⟨state, by rw [outcomes, List.append_nil]; rfl, start⟩
  | cons call rest ih =>
    obtain ⟨middle, ran, stays⟩ := refines call List.mem_cons_self start
    obtain ⟨last, ended, kept⟩ := ih _ stays
      (fun later member => refines later (List.mem_cons_of_mem _ member))
      (before ++ [(plan call abstract).1])
    refine ⟨last, ?_, kept⟩
    have taken : recorded (calling action) (state, before) call =
        some (middle, before ++ [(plan call abstract).1]) := by
      simp only [recorded, calling, ran, Option.map_some]
    rw [execute, taken, Option.bind_some, ended, List.append_assoc]
    rfl

/-- Calls that answer for themselves do so one after the other. -/
theorem execute_answers {Good : State → Prop} {action : Call → Action State Failure Result}
    {answer : Call → Except Failure Result} {state : State} (start : Good state)
    (calls : List Call) (answers : ∀ call ∈ calls, Answers Good (action call) (answer call)) :
    ∃ next, execute (recorded (calling action)) (state, []) calls =
        some (next, calls.map answer) ∧ Good next := by
  have plain : outcomes (fun call (_ : Unit) => (answer call, ())) () calls =
      ((), calls.map answer) := by
    clear answers
    induction calls with
    | nil => rfl
    | cons call rest ih =>
      rw [outcomes]
      simp only [ih, List.map_cons]
  have refines : ∀ call ∈ calls, Refines (fun state (_ : Unit) => Good state) (action call)
      (fun _ => (answer call, ())) := fun call member _ _ good => answers call member _ good
  have run := execute_calling () start calls refines []
  rw [plain] at run
  exact run

end LocalWhisper.Machine
