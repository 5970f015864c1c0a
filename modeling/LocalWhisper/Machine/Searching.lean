import Mathlib.Data.List.Basic

/-! Searching a text backwards, with the indices of `lastIndexOf` and `substring`. A text
is a list over any alphabet. -/

namespace LocalWhisper.Machine

variable {Letter : Type} [DecidableEq Letter]

/-- `lastIndexOf(letter)`. -/
def lastIndexOf (text : List Letter) (letter : Letter) : Int :=
  if letter ∈ text then text.length - 1 - text.reverse.idxOf letter else -1

/-- `lastIndexOf(letter, fromIndex)`: the search begins at `fromIndex`. -/
def lastIndexOfFrom (text : List Letter) (letter : Letter) (fromIndex : Int) : Int :=
  lastIndexOf (text.take (fromIndex + 1).toNat) letter

omit [DecidableEq Letter] in
/-- `substring(beginIndex, endIndex)` of indices inside the text. -/
def substring (text : List Letter) (beginIndex endIndex : Int) : List Letter :=
  (text.take endIndex.toNat).drop beginIndex.toNat

theorem lastIndexOf_of_notMem {text : List Letter} {letter : Letter} (absent : letter ∉ text) :
    lastIndexOf text letter = -1 := if_neg absent

/-- The last occurrence is the one that none follows. -/
theorem lastIndexOf_append {back : List Letter} {letter : Letter} (absent : letter ∉ back)
    (front : List Letter) : lastIndexOf (front ++ letter :: back) letter = front.length := by
  have after : (front ++ letter :: back).reverse.idxOf letter = back.length := by
    rw [List.reverse_append, List.reverse_cons, List.append_assoc,
      List.idxOf_append_of_notMem (by rwa [List.mem_reverse]), List.singleton_append,
      List.idxOf_cons_self, List.length_reverse]
    rfl
  rw [lastIndexOf, if_pos (by simp), after, List.length_append, List.length_cons]
  omega

/-- A search that begins before a place sees what stands before it. -/
theorem lastIndexOfFrom_append (front back : List Letter) (letter : Letter) :
    lastIndexOfFrom (front ++ back) letter (front.length - 1) = lastIndexOf front letter := by
  rw [lastIndexOfFrom, show ((front.length : Int) - 1 + 1).toNat = front.length by omega,
    List.take_left]

omit [DecidableEq Letter] in
/-- What stands between two indices. -/
theorem substring_middle {text front middle back : List Letter} {beginIndex endIndex : Int}
    (split : text = front ++ (middle ++ back)) (begins : beginIndex = front.length)
    (ends : endIndex = front.length + middle.length) :
    substring text beginIndex endIndex = middle := by
  have length : ((front.length : Int) + middle.length).toNat = (front ++ middle).length := by
    rw [List.length_append]
    omega
  rw [substring, begins, ends, split, Int.toNat_natCast, length, ← List.append_assoc,
    List.take_left, List.drop_left]

omit [DecidableEq Letter] in
/-- A text that contains a letter is cut at its last occurrence. -/
theorem exists_cut_at_last {text : List Letter} {letter : Letter} (member : letter ∈ text) :
    ∃ front back, text = front ++ letter :: back ∧ letter ∉ back := by
  obtain ⟨back, front, split, absent⟩ :=
    List.eq_append_cons_of_mem (List.mem_reverse.mpr member)
  refine ⟨front.reverse, back.reverse, ?_, by rwa [List.mem_reverse]⟩
  rw [← List.reverse_reverse text, split]
  simp

end LocalWhisper.Machine
