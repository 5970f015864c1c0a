import Mathlib.Data.List.Chain
import Mathlib.Logic.Relation

/-! Byte-pair merging as a relation: each step joins the leftmost occurrence of the
adjacent pair of lowest rank, until no adjacent pair has a rank. -/

namespace LocalWhisper.Machine.PairMerging

variable {Symbol : Type}

/-- Every ranked pair of neighbours has rank `level` or more. -/
def AtLeast (rank : List Symbol → List Symbol → Option Nat) (level : Nat)
    (pieces : List (List Symbol)) : Prop :=
  pieces.IsChain fun left right => ∀ found, rank left right = some found → level ≤ found

def Avoids (left right : List Symbol) (pieces : List (List Symbol)) : Prop :=
  pieces.IsChain fun first second => ¬ (first = left ∧ second = right)

/-- The leftmost occurrence of the pair of lowest rank becomes one piece. -/
inductive Step (rank : List Symbol → List Symbol → Option Nat) :
    List (List Symbol) → List (List Symbol) → Prop
  | merge {front back : List (List Symbol)} {left right : List Symbol} {level : Nat}
      (ranked : rank left right = some level)
      (lowest : AtLeast rank level (front ++ left :: right :: back))
      (leftmost : Avoids left right (front ++ [left])) :
      Step rank (front ++ left :: right :: back) (front ++ (left ++ right) :: back)

def Finished (rank : List Symbol → List Symbol → Option Nat) (pieces : List (List Symbol)) : Prop :=
  pieces.IsChain fun left right => rank left right = none

/-- What the steps from `start` end in. -/
def Result (rank : List Symbol → List Symbol → Option Nat) (start result : List (List Symbol)) :
    Prop :=
  Relation.ReflTransGen (Step rank) start result ∧ Finished rank result

/-- Different pairs have different ranks, and a merged piece takes part in pairs
of higher rank only. -/
structure Fresh (rank : List Symbol → List Symbol → Option Nat) : Prop where
  different : ∀ {left right first second level}, rank left right = some level →
    rank first second = some level → left = first ∧ right = second
  higher : ∀ {left right first second level later}, rank left right = some level →
    rank first second = some later → first = left ++ right ∨ second = left ++ right → level < later
  nonempty : ∀ {left right level}, rank left right = some level → left ≠ [] ∧ right ≠ []

section Leftmost

private theorem front_unique {left right : List Symbol} {front other back rest : List (List Symbol)}
    (same : front ++ left :: right :: back = other ++ left :: right :: rest)
    (leftmost : Avoids left right (front ++ [left]))
    (otherLeftmost : Avoids left right (other ++ [left])) : front = other ∧ back = rest := by
  induction front generalizing other with
  | nil =>
    cases other with
    | nil =>
      injection same with _ same
      injection same with _ same
      exact ⟨rfl, same⟩
    | cons first more =>
      injection same with firstIs same
      subst first
      cases more with
      | nil =>
        injection same with secondIs _
        exact absurd ⟨rfl, secondIs.symm⟩ (List.isChain_pair.mp otherLeftmost)
      | cons second more =>
        injection same with secondIs _
        exact absurd ⟨rfl, secondIs.symm⟩ (List.isChain_cons_cons.mp otherLeftmost).1
  | cons first more inductionHypothesis =>
    cases other with
    | nil =>
      injection same with firstIs same
      subst first
      cases more with
      | nil =>
        injection same with secondIs _
        exact absurd ⟨rfl, secondIs⟩ (List.isChain_pair.mp leftmost)
      | cons second more =>
        injection same with secondIs _
        exact absurd ⟨rfl, secondIs⟩ (List.isChain_cons_cons.mp leftmost).1
    | cons other others =>
      injection same with firstIs same
      obtain ⟨moreIs, backIs⟩ := inductionHypothesis same leftmost.tail otherLeftmost.tail
      exact ⟨by rw [firstIs, moreIs], backIs⟩

end Leftmost

section Ranked

variable {rank : List Symbol → List Symbol → Option Nat}

theorem not_step_of_finished {pieces next : List (List Symbol)} (finished : Finished rank pieces) :
    ¬ Step rank pieces next := by
  rintro ⟨ranked, -, -⟩
  have none := (List.isChain_append_cons_cons.mp finished).2.1
  rw [ranked] at none
  cases none

variable (fresh : Fresh rank)

include fresh

private theorem step_rightUnique : Relator.RightUnique (Step rank) := by
  rintro pieces first second ⟨ranked, lowest, leftmost⟩ step
  generalize whole : _ ++ _ :: _ :: _ = again at step
  obtain ⟨otherRanked, otherLowest, otherLeftmost⟩ := step
  rw [whole] at lowest
  have below := (List.isChain_append_cons_cons.mp lowest).2.1 _ otherRanked
  rw [← whole] at otherLowest
  have above := (List.isChain_append_cons_cons.mp otherLowest).2.1 _ ranked
  obtain rfl := Nat.le_antisymm below above
  obtain ⟨rfl, rfl⟩ := fresh.different ranked otherRanked
  obtain ⟨rfl, rfl⟩ := front_unique whole leftmost otherLeftmost
  rfl

/-- The steps end in one result only. -/
theorem result_unique {start first second : List (List Symbol)} (one : Result rank start first)
    (other : Result rank start second) : first = second := by
  rcases Relation.ReflTransGen.total_of_right_unique (step_rightUnique fresh) one.1 other.1 with
    later | later
  · cases later.cases_head with
    | inl same => exact same
    | inr more =>
      obtain ⟨next, step, -⟩ := more
      exact absurd step (not_step_of_finished one.2)
  · cases later.cases_head with
    | inl same => exact same.symm
    | inr more =>
      obtain ⟨next, step, -⟩ := more
      exact absurd step (not_step_of_finished other.2)

variable {left right : List Symbol} {level : Nat} (ranked : rank left right = some level)

include ranked

/-- A merge brings no pair of a rank below its own. -/
theorem atLeast_merge {front back : List (List Symbol)}
    (lowest : AtLeast rank level (front ++ left :: right :: back)) :
    AtLeast rank level (front ++ (left ++ right) :: back) := by
  obtain ⟨before, -, after⟩ := List.isChain_append_cons_cons.mp lowest
  refine List.isChain_split.mpr ⟨?_, ?_⟩
  · rw [List.isChain_append] at before ⊢
    refine ⟨before.1, List.isChain_singleton _, ?_⟩
    intro last _ piece single found high
    obtain rfl : left ++ right = piece := by simpa using single
    exact (fresh.higher ranked high (.inr rfl)).le
  · refine after.tail.cons ?_
    intro piece _ found high
    exact (fresh.higher ranked high (.inl rfl)).le

private theorem merged_ne : left ++ right ≠ left ∧ left ++ right ≠ right := by
  obtain ⟨leftHas, rightHas⟩ := fresh.nonempty ranked
  exact ⟨fun same => rightHas (List.append_right_eq_self.mp same),
    fun same => leftHas (List.append_left_eq_self.mp same)⟩

/-- The merged piece makes no new occurrence of its pair with what stands before it. -/
theorem avoids_merged {front : List (List Symbol)}
    (leftmost : Avoids left right (front ++ [left])) :
    Avoids left right (front ++ [left ++ right]) := by
  unfold Avoids at *
  rw [List.isChain_append] at leftmost ⊢
  refine ⟨leftmost.1, List.isChain_singleton _, ?_⟩
  intro last _ piece single pair
  obtain rfl : left ++ right = piece := by simpa using single
  exact (merged_ne fresh ranked).2 pair.2

end Ranked

end LocalWhisper.Machine.PairMerging
