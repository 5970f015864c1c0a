import Mathlib.Data.List.Basic

/-! Lists whose items carry consecutive numbers given out by one owner, and how
the usual queue operations renumber them. -/

namespace LocalWhisper.Machine

universe u v

variable {Item : Type u} {Owner : Type v} {place : Item → Owner × Nat} {owner : Owner}
variable {first : Nat} {items more : List Item}

/-- The items have the numbers from `first` on, in their order. -/
def Numbered (place : Item → Owner × Nat) (owner : Owner) (first : Nat) (items : List Item) :
    Prop :=
  ∀ index item, items[index]? = some item → place item = (owner, first + index)

namespace Numbered

theorem nil : Numbered place owner first [] := by
  intro index item found
  cases found

theorem append (front : Numbered place owner first items)
    (back : Numbered place owner (first + items.length) more) :
    Numbered place owner first (items ++ more) := by
  intro index item found
  rcases Nat.lt_or_ge index items.length with inside | beyond
  · rw [List.getElem?_append_left inside] at found
    exact front index item found
  · rw [List.getElem?_append_right beyond] at found
    rw [back _ item found, Nat.add_assoc, Nat.add_sub_cancel' beyond]

theorem drop (numbered : Numbered place owner first items) (count : Nat) :
    Numbered place owner (first + count) (items.drop count) := by
  intro index item found
  rw [List.getElem?_drop] at found
  rw [numbered _ item found, Nat.add_assoc]

theorem take (numbered : Numbered place owner first items) (count : Nat) :
    Numbered place owner first (items.take count) := by
  intro index item found
  rw [List.getElem?_take] at found
  split at found
  · exact numbered index item found
  · cases found

theorem left (numbered : Numbered place owner first (items ++ more)) :
    Numbered place owner first items := by
  simpa using numbered.take items.length

theorem head {item : Item} (numbered : Numbered place owner first (item :: items)) :
    place item = (owner, first) :=
  numbered 0 item rfl

/-- The number of the first item determines all others. -/
theorem shift {other : Owner} {start : Nat} {item : Item}
    (numbered : Numbered place owner first (item :: items))
    (here : place item = (other, start)) : Numbered place other start (item :: items) := by
  obtain ⟨rfl, rfl⟩ := Prod.mk.inj (numbered.head.symm.trans here)
  exact numbered

end Numbered

end LocalWhisper.Machine
