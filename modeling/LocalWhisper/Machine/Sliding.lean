import Mathlib.Data.List.Basic
import Mathlib.Tactic.Linarith
import Mathlib.Tactic.Ring

/-! Overlapping windows of a growing list: which windows a stream has, and
that they do not change when the stream grows behind them. -/

namespace LocalWhisper.Machine

universe u

variable {Item : Type u}

/-- The first `count` windows of `width` items, one every `stride` items. -/
def slidingWindows (width stride count : Nat) (items : List Item) : List (List Item) :=
  (List.range count).map fun index => (items.drop (index * stride)).take width

theorem slidingWindows_succ (width stride count : Nat) (items : List Item) :
    slidingWindows width stride (count + 1) items =
      slidingWindows width stride count items ++ [(items.drop (count * stride)).take width] := by
  simp [slidingWindows, List.range_succ]

/-- The first `count` windows lie inside a list of the given length. -/
def Fit (width stride count length : Nat) : Prop :=
  ∀ index < count, index * stride + width ≤ length

theorem Fit.succ {width stride count length : Nat} (fit : Fit width stride count length)
    (last : count * stride + width ≤ length) : Fit width stride (count + 1) length := by
  intro index below
  rcases Nat.lt_succ_iff_lt_or_eq.mp below with earlier | same
  · exact fit index earlier
  · subst same
    exact last

theorem Fit.grow {width stride count length more : Nat} (fit : Fit width stride count length)
    (longer : length ≤ more) : Fit width stride count more :=
  fun index below => Nat.le_trans (fit index below) longer

/-- Items that arrive behind the windows leave the windows as they were. -/
theorem slidingWindows_append {width stride count : Nat} {items : List Item}
    (fit : Fit width stride count items.length) (more : List Item) :
    slidingWindows width stride count (items ++ more) = slidingWindows width stride count items := by
  apply List.map_congr_left
  intro index member
  have inside := fit index (List.mem_range.mp member)
  rw [List.drop_append_of_le_length (by omega)]
  rw [List.take_append_of_le_length (by rw [List.length_drop]; omega)]

/-- No window is longer than the width. -/
theorem length_le_of_mem_slidingWindows {width stride count : Nat} {items window : List Item}
    (member : window ∈ slidingWindows width stride count items) : window.length ≤ width := by
  obtain ⟨index, _, rfl⟩ := List.mem_map.mp member
  exact List.length_take_le _ _

/-- When the rest behind the last window start is shorter than a window, the
windows are exactly the ones that fit. -/
theorem lt_count_iff_fits {width stride count length : Nat} (fit : Fit width stride count length)
    (short : length < count * stride + width) (index : Nat) :
    index < count ↔ index * stride + width ≤ length := by
  constructor
  · exact fit index
  · intro inside
    by_contra beyond
    have further := Nat.mul_le_mul_right stride (Nat.not_lt.mp beyond)
    omega

/-- Windows at least as wide as the stride leave no gap before the last start. -/
theorem covered_or_rest {width stride count position : Nat} (positive : 0 < stride)
    (wide : stride ≤ width) :
    (∃ index < count, index * stride ≤ position ∧ position < index * stride + width) ∨
      count * stride ≤ position := by
  by_cases beyond : count * stride ≤ position
  · exact .inr beyond
  · left
    have start := Nat.div_mul_le_self position stride
    have next : position < position / stride * stride + stride := Nat.lt_div_mul_add positive
    refine ⟨position / stride, ?_, start, by omega⟩
    exact Nat.div_lt_of_lt_mul (by rw [Nat.mul_comm]; omega)

end LocalWhisper.Machine
