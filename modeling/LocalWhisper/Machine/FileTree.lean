import Mathlib.Data.List.AList
import Mathlib.Data.List.Induction
import Mathlib.Data.List.Infix

/-! A file system as a tree of files and directories below a root that is always there,
with the operations of `java.io.File` on it, and what is left of it when parts are
deleted as far as the system lets them go. -/

namespace LocalWhisper.Machine

inductive FileKind where
  | file
  | directory
  deriving DecidableEq, Repr

/-- The entries by path. What holds an entry is a directory. -/
structure FileTree (Name : Type) [DecidableEq Name] where
  entries : AList fun _ : List Name => FileKind
  rooted : ∀ path name, path ≠ [] → path ++ [name] ∈ entries →
    entries.lookup path = some .directory

namespace FileTree

variable {Name : Type} [DecidableEq Name] (tree : FileTree Name)

def empty : FileTree Name := ⟨∅, fun _ _ _ member => absurd member (AList.notMem_empty _)⟩

def kind (path : List Name) : Option FileKind := tree.entries.lookup path

/-- `listFiles`, which lists nothing of what is no directory. -/
def listFiles (path : List Name) : List Name :=
  if tree.kind path = some .directory then
    tree.entries.keys.filterMap fun entry =>
      if entry.dropLast = path then entry.getLast? else none
  else []

theorem kind_ne_none {path : List Name} : tree.kind path ≠ none ↔ path ∈ tree.entries := by
  rw [kind, Ne, AList.lookup_eq_none, not_not]

theorem kind_parent {path : List Name} {name : Name} (inner : path ≠ [])
    (there : tree.kind (path ++ [name]) ≠ none) : tree.kind path = some .directory :=
  tree.rooted path name inner (tree.kind_ne_none.mp there)

theorem mem_listFiles {path : List Name} {name : Name} (inner : path ≠ []) :
    name ∈ tree.listFiles path ↔ tree.kind (path ++ [name]) ≠ none := by
  constructor
  · intro listed
    unfold listFiles at listed
    split at listed
    · obtain ⟨entry, member, found⟩ := List.mem_filterMap.mp listed
      split at found
      · rename_i parent
        have whole : entry = path ++ [name] := by
          rw [← parent]
          exact (List.dropLast_append_getLast? name found).symm
        rw [← whole, kind_ne_none]
        exact AList.mem_keys.mpr member
      · cases found
    · cases listed
  · intro there
    rw [listFiles, if_pos (tree.kind_parent inner there), List.mem_filterMap]
    refine ⟨path ++ [name], AList.mem_keys.mp (tree.kind_ne_none.mp there), ?_⟩
    simp

theorem kind_above {path : List Name} {name : Name} {rest : List Name}
    (there : tree.kind (path ++ name :: rest) ≠ none) : tree.kind (path ++ [name]) ≠ none := by
  induction rest using List.reverseRecOn with
  | nil => exact there
  | append_singleton rest last inductionHypothesis =>
    apply inductionHypothesis
    rw [← List.cons_append, ← List.append_assoc] at there
    rw [tree.kind_parent (by simp) there]
    nofun

/-- Below what is not there, there is nothing. -/
theorem kind_below {path inner : List Name} (filled : path ≠ []) (absent : tree.kind path = none)
    (under : path <+: inner) : tree.kind inner = none := by
  obtain ⟨rest, rfl⟩ := under
  cases rest with
  | nil => rwa [List.append_nil]
  | cons name rest =>
    by_contra there
    rw [tree.kind_parent filled (tree.kind_above there)] at absent
    cases absent

section Delete

variable (refuses : List Name → Bool)

/-- `delete`: the system refuses some, and a directory has to be empty. -/
def delete (path : List Name) : FileTree Name × Bool :=
  if free : path ≠ [] ∧ refuses path = false ∧ tree.listFiles path = [] ∧
      tree.kind path ≠ none then
    (⟨tree.entries.erase path, by
      intro outer name inner member
      obtain ⟨-, there⟩ := AList.mem_erase.mp member
      have other : outer ≠ path := by
        rintro rfl
        have listed := (tree.mem_listFiles inner).mpr (tree.kind_ne_none.mpr there)
        rw [free.2.2.1] at listed
        cases listed
      rw [AList.lookup_erase_ne other]
      exact tree.rooted outer name inner there⟩, true)
  else (tree, false)

variable {tree refuses} in
private theorem delete_free {path : List Name} (inner : path ≠ []) (free : refuses path = false)
    (empty : tree.listFiles path = []) (there : tree.kind path ≠ none) :
    (tree.delete refuses path).2 = true ∧ (tree.delete refuses path).1.kind path = none ∧
      ∀ other, other ≠ path → (tree.delete refuses path).1.kind other = tree.kind other := by
  rw [delete, dif_pos ⟨inner, free, empty, there⟩]
  exact ⟨rfl, AList.lookup_erase _ _, fun other different => AList.lookup_erase_ne different⟩

variable {tree refuses} in
theorem delete_refused {path : List Name}
    (kept : refuses path = true ∨ tree.listFiles path ≠ [] ∨ tree.kind path = none) :
    tree.delete refuses path = (tree, false) := by
  rw [delete, dif_neg]
  rintro ⟨-, free, empty, there⟩
  rcases kept with refused | full | absent
  · rw [refused] at free
    cases free
  · exact full empty
  · exact there absent

/-- Something at the path or below it that the system does not delete. -/
def Held (path : List Name) : Prop :=
  ∃ inner, path <+: inner ∧ tree.kind inner ≠ none ∧ refuses inner = true

variable {tree refuses}

theorem Held.above {path outer : List Name} (held : tree.Held refuses path)
    (above : outer <+: path) : tree.Held refuses outer := by
  obtain ⟨inner, below, there, refused⟩ := held
  exact ⟨inner, above.trans below, there, refused⟩

theorem Held.there {path : List Name} (filled : path ≠ []) (held : tree.Held refuses path) :
    tree.kind path ≠ none := by
  obtain ⟨inner, under, there, -⟩ := held
  exact fun absent => there (tree.kind_below filled absent under)

/-- A part of the tree is deleted as far as it can be: what is at or below one of the
roots is gone unless it holds something that is not deleted. -/
structure Cleared (tree : FileTree Name) (refuses : List Name → Bool)
    (roots : List (List Name)) (next : FileTree Name) : Prop where
  removed : ∀ path root, root ∈ roots → root <+: path → ¬ tree.Held refuses path →
    next.kind path = none
  kept : ∀ path, (∀ root ∈ roots, ¬ root <+: path) ∨ tree.Held refuses path →
    next.kind path = tree.kind path

namespace Cleared

variable {middle next : FileTree Name} {roots more : List (List Name)}

theorem nil (tree : FileTree Name) : Cleared tree refuses [] tree :=
  ⟨fun _ _ none => absurd none List.not_mem_nil, fun _ _ => rfl⟩

/-- Nothing new appears. -/
theorem there (cleared : Cleared tree refuses roots next) {path : List Name}
    (present : next.kind path ≠ none) : next.kind path = tree.kind path := by
  by_cases kept : (∀ root ∈ roots, ¬ root <+: path) ∨ tree.Held refuses path
  · exact cleared.kept path kept
  · simp only [not_or, not_forall, not_not] at kept
    obtain ⟨⟨root, member, below⟩, free⟩ := kept
    exact absurd (cleared.removed path root member below free) present

/-- What holds an entry is not deleted with the rest. -/
theorem held_iff (cleared : Cleared tree refuses roots next) (path : List Name) :
    next.Held refuses path ↔ tree.Held refuses path := by
  constructor
  · rintro ⟨inner, below, present, refused⟩
    exact ⟨inner, below, cleared.there present ▸ present, refused⟩
  · rintro ⟨inner, below, present, refused⟩
    refine ⟨inner, below, ?_, refused⟩
    rwa [cleared.kept inner (.inr ⟨inner, List.prefix_rfl, present, refused⟩)]

theorem append (first : Cleared tree refuses roots middle)
    (second : Cleared middle refuses more next) : Cleared tree refuses (roots ++ more) next := by
  constructor
  · intro path root member below free
    have gone (absent : middle.kind path = none) : next.kind path = none := by
      by_contra present
      exact present ((second.there present).trans absent)
    rcases List.mem_append.mp member with early | late
    · exact gone (first.removed path root early below free)
    · exact second.removed path root late below (mt (first.held_iff path).mp free)
  · rintro path (outside | held)
    · rw [second.kept path (.inl fun root late => outside root (List.mem_append_right _ late)),
        first.kept path (.inl fun root early => outside root (List.mem_append_left _ early))]
    · rw [second.kept path (.inr ((first.held_iff path).mpr held)), first.kept path (.inr held)]

theorem root_iff (cleared : Cleared tree refuses roots next) {root : List Name}
    (member : root ∈ roots) (inner : root ≠ []) :
    next.kind root = none ↔ ¬ tree.Held refuses root := by
  constructor
  · intro absent held
    rw [cleared.kept root (.inr held)] at absent
    exact held.there inner absent
  · exact cleared.removed root root member List.prefix_rfl

/-- Clearing again does nothing. -/
theorem again (first : Cleared tree refuses roots middle)
    (second : Cleared middle refuses roots next) (path : List Name) :
    next.kind path = middle.kind path := by
  by_cases kept : (∀ root ∈ roots, ¬ root <+: path) ∨ middle.Held refuses path
  · exact second.kept path kept
  · simp only [not_or, not_forall, not_not] at kept
    obtain ⟨⟨root, member, under⟩, free⟩ := kept
    rw [second.removed path root member under free,
      first.removed path root member under (mt (first.held_iff path).mpr free)]

variable {target : List Name}

/-- With everything in a directory cleared, what is left of it is in the way of its own
deletion exactly when it holds something. -/
theorem listFiles_eq_nil_iff (inner : target ≠ [])
    (inside : Cleared tree refuses ((tree.listFiles target).map (target ++ [·])) middle) :
    middle.listFiles target = [] ↔
      ∀ name, tree.kind (target ++ [name]) ≠ none → ¬ tree.Held refuses (target ++ [name]) := by
  rw [List.eq_nil_iff_forall_not_mem]
  apply forall_congr'
  intro name
  rw [mem_listFiles _ inner, not_not]
  constructor
  · intro absent there held
    rw [inside.kept _ (.inr held)] at absent
    exact there absent
  · intro free
    by_contra present
    have there := inside.there present ▸ present
    exact present (inside.removed _ (target ++ [name])
      (List.mem_map.mpr ⟨name, (tree.mem_listFiles inner).mpr there, rfl⟩) List.prefix_rfl
      (free there))

theorem below (inside : Cleared tree refuses ((tree.listFiles target).map (target ++ [·])) middle)
    (inner : target ≠ []) {path : List Name} (under : target <+: path) (other : path ≠ target)
    (free : ¬ tree.Held refuses path) : middle.kind path = none := by
  obtain ⟨rest, rfl⟩ := under
  cases rest with
  | nil => exact absurd (List.append_nil target) other
  | cons name rest =>
    by_contra present
    have there := inside.there present ▸ present
    refine present (inside.removed _ (target ++ [name]) ?_ ⟨rest, by simp⟩ free)
    exact List.mem_map.mpr ⟨name, (tree.mem_listFiles inner).mpr (tree.kind_above there), rfl⟩

theorem outside (inside : Cleared tree refuses ((tree.listFiles target).map (target ++ [·])) middle)
    {path : List Name} (apart : path = target ∨ ¬ target <+: path) :
    middle.kind path = tree.kind path := by
  refine inside.kept path (.inl fun root member under => ?_)
  obtain ⟨name, -, rfl⟩ := List.mem_map.mp member
  rcases apart with rfl | apart
  · have shorter := under.length_le
    rw [List.length_append] at shorter
    exact absurd shorter (by simp)
  · exact apart ((List.prefix_append target [name]).trans under)

/-- The last step of a recursive deletion. -/
theorem delete (inner : target ≠ [])
    (inside : Cleared tree refuses ((tree.listFiles target).map (target ++ [·])) middle) :
    Cleared tree refuses [target] (middle.delete refuses target).1 ∧
      (middle.kind target ≠ none →
        ((middle.delete refuses target).2 = true ↔ ¬ tree.Held refuses target)) := by
  have same : middle.kind target = tree.kind target := inside.outside (.inl rfl)
  -- Where the target itself stays or was not there, the rest is what the children left.
  have unchanged (settled : tree.Held refuses target ∨ middle.kind target = none) :
      Cleared tree refuses [target] middle := by
    constructor
    · intro path root member under free
      obtain rfl := List.mem_singleton.mp member
      by_cases here : path = root
      · subst here
        exact settled.resolve_left free
      · exact inside.below inner under here free
    · rintro path (apart | held)
      · exact inside.outside (.inr (apart target (List.mem_singleton_self _)))
      · exact inside.kept path (.inr held)
  by_cases held : tree.Held refuses target
  · have stays : middle.delete refuses target = (middle, false) := by
      obtain ⟨found, ⟨rest, rfl⟩, there, refused⟩ := held
      cases rest with
      | nil =>
        rw [List.append_nil] at refused
        exact delete_refused (.inl refused)
      | cons name rest =>
        refine delete_refused (.inr (.inl fun empty => ?_))
        refine (inside.listFiles_eq_nil_iff inner).mp empty name (tree.kind_above there) ?_
        exact ⟨_, ⟨rest, by simp⟩, there, refused⟩
    rw [stays]
    exact ⟨unchanged (.inl held), fun _ => iff_of_false Bool.false_ne_true (not_not_intro held)⟩
  · have empty : middle.listFiles target = [] :=
      (inside.listFiles_eq_nil_iff inner).mpr fun name _ child =>
        held (child.above (List.prefix_append target [name]))
    by_cases there : middle.kind target = none
    · rw [delete_refused (.inr (.inr there))]
      exact ⟨unchanged (.inr there), fun present => absurd there present⟩
    · have free : refuses target = false := by
        by_contra refused
        exact held ⟨target, List.prefix_rfl, same ▸ there, (Bool.not_eq_false _).mp refused⟩
      obtain ⟨deleted, gone, others⟩ := delete_free inner free empty there
      refine ⟨⟨?_, ?_⟩, fun _ => iff_of_true deleted held⟩
      · intro path root member under loose
        obtain rfl := List.mem_singleton.mp member
        by_cases here : path = root
        · rw [here, gone]
        · rw [others path here, inside.below inner under here loose]
      · intro path settled
        have apart : ¬ target <+: path := by
          rcases settled with apart | kept
          · exact apart target (List.mem_singleton_self _)
          · exact fun under => held (kept.above under)
        have different : path ≠ target := by
          rintro rfl
          exact apart List.prefix_rfl
        rw [others path different, inside.outside (.inr apart)]

end Cleared

end Delete

/-- A new entry has its place in the root or in a directory. -/
def HasPlace (path : List Name) : Prop :=
  path ≠ [] ∧ tree.kind path = none ∧
    (path.dropLast = [] ∨ tree.kind path.dropLast = some .directory)

instance (path : List Name) : Decidable (tree.HasPlace path) :=
  inferInstanceAs (Decidable (_ ∧ _ ∧ (_ ∨ _)))

def insert (path : List Name) (made : FileKind) (place : tree.HasPlace path) : FileTree Name :=
  ⟨tree.entries.insert path made, by
    intro outer name inner member
    have other : outer ≠ path ∧ tree.entries.lookup outer = some .directory := by
      rcases (AList.mem_insert _).mp member with same | there
      · subst same
        have parent := place.2.2
        rw [List.dropLast_concat] at parent
        refine ⟨fun same => ?_, parent.resolve_left inner⟩
        have longer := congrArg List.length same
        rw [List.length_append, List.length_singleton] at longer
        omega
      · have directory := tree.rooted outer name inner there
        refine ⟨?_, directory⟩
        rintro rfl
        rw [show tree.entries.lookup outer = none from place.2.1] at directory
        cases directory
    rw [AList.lookup_insert_ne other.1]
    exact other.2⟩

/-- `mkdir`. -/
def makeDirectory (path : List Name) : Option (FileTree Name) :=
  if place : tree.HasPlace path then some (tree.insert path .directory place) else none

/-- `mkdirs`, where the system makes some: whether the last directory is new. -/
def makeDirectories (makes : List Name → Bool) (path : List Name) : FileTree Name × Bool :=
  path.inits.tail.foldl
    (fun made front =>
      match if makes front then made.1.makeDirectory front else none with
      | some next => (next, true)
      | none => (made.1, false))
    (tree, false)

/-- The opening of an output stream, which makes an empty file where there is none. -/
def openOutput (path : List Name) : Option (FileTree Name) :=
  if tree.kind path = some .file then some tree
  else if place : tree.HasPlace path then some (tree.insert path .file place)
  else none

theorem kind_insert {path : List Name} {made : FileKind} (place : tree.HasPlace path)
    (other : List Name) : (tree.insert path made place).kind other =
      if other = path then some made else tree.kind other := by
  split
  · next same =>
    rw [same]
    exact AList.lookup_insert _
  · next different => exact AList.lookup_insert_ne different

variable {tree}

/-- A directory that is new is one. -/
theorem makeDirectories_kind {makes : List Name → Bool} {path : List Name}
    (made : (tree.makeDirectories makes path).2 = true) :
    (tree.makeDirectories makes path).1.kind path = some .directory := by
  induction path using List.reverseRecOn with
  | nil => cases made
  | append_singleton front name _ =>
    have last : (front ++ [name]).inits.tail = front.inits.tail ++ [front ++ [name]] := by
      rw [List.inits_append, List.tail_append_of_ne_nil (by cases front <;> simp)]
      rfl
    unfold makeDirectories at made ⊢
    rw [last, List.foldl_append, List.foldl_cons, List.foldl_nil] at made ⊢
    split at made
    · rename_i next found
      split at found
      · unfold makeDirectory at found
        split at found
        · cases found
          rw [kind_insert, if_pos rfl]
        · cases found
      · cases found
    · cases made

theorem openOutput_kind {path : List Name} {next : FileTree Name}
    (opened : tree.openOutput path = some next) :
    next.kind path = some .file ∧ ∀ other, other ≠ path → next.kind other = tree.kind other := by
  unfold openOutput at opened
  split at opened
  · next there =>
    cases opened
    exact ⟨there, fun _ _ => rfl⟩
  · split at opened
    · cases opened
      simp +contextual [kind_insert]
    · cases opened

/-- A file stands in a directory. -/
theorem openOutput_parent {path : List Name} {name : Name} (inner : path ≠ [])
    {next : FileTree Name} (opened : tree.openOutput (path ++ [name]) = some next) :
    next.kind path = some .directory :=
  next.kind_parent inner (by rw [(openOutput_kind opened).1]; nofun)

end FileTree

end LocalWhisper.Machine
