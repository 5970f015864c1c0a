import Mathlib.Algebra.Group.Nat.Defs
import Mathlib.Data.List.GetD

/-! Lists as tables: cells that are computed from their places, and rows of one width
that lie one after the other. -/

namespace LocalWhisper.Machine

universe u

theorem getElem?_eq_getD {Cell : Type u} [Zero Cell] {array : List Cell} {index : Nat}
    (inside : index < array.length) : array[index]? = some (array.getD index 0) := by
  rw [List.getD_eq_getElem?_getD, List.getElem?_eq_getElem inside]
  rfl

section Tabulated

variable {Cell : Type u} (result : Nat → Cell) {count index : Nat}

theorem getElem?_tabulated (inside : index < count) :
    ((List.range count).map result)[index]? = some (result index) := by
  rw [List.getElem?_map, List.getElem?_range inside]
  rfl

theorem getD_tabulated (blank : Cell) (inside : index < count) :
    ((List.range count).map result).getD index blank = result index := by
  rw [List.getD_eq_getElem?_getD, getElem?_tabulated result inside]
  rfl

end Tabulated

/-- Computations that have results, one after the other. -/
theorem mapM_of_pure {First Second : Type u} {Outcome : Type u → Type u} [Monad Outcome]
    [LawfulMonad Outcome] {list : List First} {step : First → Outcome Second}
    (result : First → Second) (all : ∀ value ∈ list, step value = pure (result value)) :
    list.mapM step = pure (list.map result) := by
  induction list with
  | nil => rfl
  | cons value rest inductionHypothesis =>
    rw [List.mapM_cons, all value List.mem_cons_self, inductionHypothesis fun other member =>
      all other (List.mem_cons_of_mem value member), pure_bind, pure_bind, List.map_cons]

section Rows

variable {width row column otherRow otherColumn : Nat}

/-- The cells of the rows lie in the table. -/
theorem cell_inside {count : Nat} (below : row < count) (inside : column < width) :
    row * width + column < count * width := by
  have rows := Nat.mul_le_mul_right width below
  rw [Nat.succ_mul] at rows
  omega

theorem cell_row (inside : column < width) : (row * width + column) / width = row := by
  rw [Nat.mul_comm, Nat.mul_add_div (Nat.zero_lt_of_lt inside), Nat.div_eq_of_lt inside,
    Nat.add_zero]

theorem cell_column (inside : column < width) : (row * width + column) % width = column := by
  rw [Nat.mul_add_mod_self_right, Nat.mod_eq_of_lt inside]

/-- Two cells of the table lie apart. -/
theorem cell_injective (inside : column < width) (otherInside : otherColumn < width)
    (same : row * width + column = otherRow * width + otherColumn) :
    (row, column) = (otherRow, otherColumn) := by
  have rows := congrArg (· / width) same
  have columns := congrArg (· % width) same
  simp only [cell_row inside, cell_row otherInside] at rows
  simp only [cell_column inside, cell_column otherInside] at columns
  rw [rows, columns]

end Rows

end LocalWhisper.Machine
