/-! Objects that are created one after another, addressed by the order of
their creation, and changed in place. -/

namespace LocalWhisper.Machine

universe u

/-- The objects created so far. An address that was not yet given out holds
some object that counts as unused. -/
structure Objects (Object : Type u) (Unused : Object → Prop) where
  count : Nat
  get : Nat → Object
  unused : ∀ index, count ≤ index → Unused (get index)

namespace Objects

variable {Object : Type u} {Unused : Object → Prop}

def empty (blank : Object) (unused : Unused blank) : Objects Object Unused :=
  ⟨0, fun _ => blank, fun _ _ => unused⟩

/-- The next object takes the first unused address, which is `objects.count`. -/
def create (objects : Objects Object Unused) (object : Object) : Objects Object Unused :=
  ⟨objects.count + 1, fun index => if index = objects.count then object else objects.get index,
    fun index beyond => by
      rw [if_neg (by omega)]
      exact objects.unused index (by omega)⟩

/-- Only an object that was created can change. -/
def set (objects : Objects Object Unused) (address : Nat) (object : Object) :
    Objects Object Unused :=
  ⟨objects.count,
    fun index => if index = address ∧ address < objects.count then object else objects.get index,
    fun index beyond => by
      rw [if_neg (by omega)]
      exact objects.unused index beyond⟩

variable (objects : Objects Object Unused) (object : Object) (address index : Nat)

theorem lt_count_of_used {address : Nat} (used : ¬ Unused (objects.get address)) :
    address < objects.count := by
  apply Nat.lt_of_not_le
  intro beyond
  exact used (objects.unused address beyond)

@[simp] theorem create_count : (objects.create object).count = objects.count + 1 := rfl

theorem create_get : (objects.create object).get index =
    if index = objects.count then object else objects.get index := rfl

theorem set_get : (objects.set address object).get index =
    if index = address ∧ address < objects.count then object else objects.get index := rfl

@[simp] theorem create_get_new : (objects.create object).get objects.count = object := by
  simp [create]

theorem set_get_self {address : Nat} (created : address < objects.count) :
    (objects.set address object).get address = object := by
  simp [set, created]

theorem create_get_of_ne {index : Nat} (other : index ≠ objects.count) :
    (objects.create object).get index = objects.get index := by
  simp [create, other]

theorem set_get_of_ne {address index : Nat} (other : index ≠ address) :
    (objects.set address object).get index = objects.get index := by
  simp [set, other]

theorem set_set (later : Object) :
    (objects.set address object).set address later = objects.set address later := by
  simp only [set, mk.injEq, true_and]
  funext index
  split <;> simp [*]

/-- An object that is like the one it replaces, seen through `view`. -/
theorem set_get_view {View : Type u} (view : Object → View)
    (same : view object = view (objects.get address)) :
    view ((objects.set address object).get index) = view (objects.get index) := by
  rw [set_get]
  split
  · rename_i here
    rw [here.1]
    exact same
  · rfl

/-- A property of all objects survives a change to one that has it. -/
theorem set_forall {Holds : Nat → Object → Prop} (all : ∀ index, Holds index (objects.get index))
    (one : Holds address object) : Holds index ((objects.set address object).get index) := by
  rw [set_get]
  split
  · rename_i here
    rw [here.1]
    exact one
  · exact all index

theorem create_forall {Holds : Nat → Object → Prop}
    (all : ∀ index, Holds index (objects.get index)) (one : Holds objects.count object) :
    Holds index ((objects.create object).get index) := by
  rw [create_get]
  split
  · rename_i here
    rw [here]
    exact one
  · exact all index

end Objects

end LocalWhisper.Machine
