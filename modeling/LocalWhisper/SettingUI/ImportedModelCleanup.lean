import LocalWhisper.Machine.FileTree
import LocalWhisper.SettingUI.ModelImport

/-! The files of the imported models: how an import makes its directory and copies into
it, and how a copy that is not used is deleted again. Paths begin below `filesDir`. -/

namespace LocalWhisper.SettingUI

open Machine Machine.JavaString

abbrev Path := List Units

/-- An exception with the messages of those it suppressed. -/
structure IOException where
  message : Units
  suppressed : List Units
  deriving DecidableEq, Repr

def directoryName : Units := ofString "imported_models"

namespace ImportedModelCleanup

variable (filesDir : Units) (refuses : Path → Bool)

/-- `getCanonicalPath`. -/
def canonicalPath (path : Path) : Units :=
  path.foldl (fun text name => text ++ 0x2F :: name) filesDir

/-- `deleteRecursively`, for so many levels of directories. -/
def deleteRecursively : Nat → FileTree Units → Path → FileTree Units × Bool
  | 0, tree, _ => (tree, false)
  | levels + 1, tree, target =>
    let (tree, success) := (tree.listFiles target).foldl
      (fun (tree, success) child =>
        let (tree, deleted) := deleteRecursively levels tree (target ++ [child])
        (tree, success && deleted))
      (tree, true)
    if tree.kind target = none then (tree, success)
    else
      let (tree, deleted) := tree.delete refuses target
      (tree, deleted && success)

def depth (tree : FileTree Units) : Nat := (tree.entries.keys.map List.length).max?.getD 0 + 1

def delete (tree : FileTree Units) (imported : Path) : FileTree Units × Except IOException Bool :=
  if !List.isPrefixOf [directoryName] imported || imported == [directoryName] then
    (tree, .error ⟨ofString "インポート管理領域外は削除できません: " ++
      canonicalPath filesDir imported, []⟩)
  else
    let target := if tree.kind imported = some .directory then imported else imported.dropLast
    let (tree, success) := deleteRecursively refuses (depth tree) tree target
    (tree, .ok success)

/-- What is thrown is the cause. -/
def rethrowAfterDelete (tree : FileTree Units) (directory : Path) (cause : IOException) :
    FileTree Units × IOException :=
  match delete filesDir refuses tree directory with
  | (tree, .ok true) => (tree, cause)
  | (tree, .ok false) =>
    (tree, { cause with suppressed :=
      cause.suppressed ++ [ofString "コピー途中のモデルを削除できませんでした"] })
  | (tree, .error cleanupError) =>
    (tree, { cause with suppressed := cause.suppressed ++ [cleanupError.message] })

end ImportedModelCleanup

/-- How the copying of a stream goes, if its target can be written. -/
inductive CopyEnd where
  | noInput (message : Units)
  | noOutput (message : Units)
  | breaksOff (message : Units)
  | completes
  deriving DecidableEq, Repr

namespace ExternalModelImporter

open ImportedModelCleanup

variable (filesDir : Units) (refuses makes : Path → Bool)

/-- `copy`: the tree and the exception there is. -/
def copy (tree : FileTree Units) (target : Path) :
    CopyEnd → FileTree Units × Option IOException
  | .noInput message | .noOutput message => (tree, some ⟨message, []⟩)
  | .breaksOff message =>
    match tree.openOutput target with
    | some tree => (tree, some ⟨message, []⟩)
    | none => (tree, some ⟨canonicalPath filesDir target, []⟩)
  | .completes =>
    match tree.openOutput target with
    | some tree => (tree, none)
    | none => (tree, some ⟨canonicalPath filesDir target, []⟩)

def safeName (value : Units) : Units :=
  value.map fun unit => if unit = 0x2F ∨ unit = 0x5C then 0x5F else unit

/-- The directory for an import of this source at this time. -/
def modelPath (sourceKey : Units) (nanoTime : Int64) : Path :=
  [directoryName, toUnsignedHex (hashCode sourceKey) ++ 0x2D :: toHexString nanoTime]

def modelDirectory (tree : FileTree Units) (sourceKey : Units) (nanoTime : Int64) :
    FileTree Units × Except IOException Path :=
  let directory := modelPath sourceKey nanoTime
  if tree.kind directory ≠ none then (tree, .ok directory)
  else
    match tree.makeDirectories makes directory with
    | (tree, true) => (tree, .ok directory)
    | (tree, false) =>
      (tree, .error ⟨ofString "モデル保存先を作成できません: " ++ canonicalPath filesDir directory, []⟩)

def importWhisperBin (tree : FileTree Units) (source name : Units) (nanoTime : Int64)
    (ends : CopyEnd) : FileTree Units × Except IOException Path :=
  if !ModelImport.endsWithBin name then
    (tree, .error ⟨ofString ".binファイルを選択してください: " ++ name, []⟩)
  else
    match modelDirectory filesDir makes tree source nanoTime with
    | (tree, .error error) => (tree, .error error)
    | (tree, .ok directory) =>
      let target := directory ++ [safeName name]
      match copy filesDir tree target ends with
      | (tree, none) => (tree, .ok target)
      | (tree, some error) =>
        let (tree, error) := rethrowAfterDelete filesDir refuses tree directory error
        (tree, .error error)

/-- `toLowerCase(Locale.ROOT)` as far as the names that are looked for need it: their
letters are the small letters of the ASCII capitals and of the Kelvin sign. -/
def lower (name : Units) : Units :=
  name.map fun unit =>
    if 0x41 ≤ unit ∧ unit ≤ 0x5A then unit + 0x20 else if unit = 0x212A then 0x6B else unit

def isConfig (name : Units) : Bool := (ofString "config.json").isSuffixOf name

def missingCTranslate2Files (names : List Units) : List Units :=
  let found (file : String) : Bool := names.any fun name => lower name == ofString file
  (if found "model.bin" then [] else [ofString "model.bin"]) ++
    (if found "vocabulary.json" then [] else [ofString "vocabulary.json"]) ++
    (if found "tokenizer.json" then [] else [ofString "tokenizer.json"]) ++
    if names.any fun name => isConfig (lower name) then [] else [ofString "*config.json"]

/-- The files of a model, which are the ones that are copied. -/
def isModelFile (name : Units) : Bool :=
  let name := lower name
  name == ofString "model.bin" || name == ofString "vocabulary.json" ||
    name == ofString "tokenizer.json" || isConfig name

/-- The loop over the entries, which ends with the first exception. -/
def copyAll (directory : Path) (tree : FileTree Units) :
    List (Units × CopyEnd) → FileTree Units × Option IOException
  | [] => (tree, none)
  | (name, ends) :: rest =>
    if isModelFile name then
      match copy filesDir tree (directory ++ [safeName name]) ends with
      | (tree, none) => copyAll directory tree rest
      | (tree, some error) => (tree, some error)
    else copyAll directory tree rest

/-- The entries that were read from the tree, each with the end of its copying. -/
def importCTranslate2Directory (tree : FileTree Units) (treeUri : Units)
    (entries : List (Units × CopyEnd)) (nanoTime : Int64) :
    FileTree Units × Except IOException Path :=
  let missing := missingCTranslate2Files (entries.map Prod.fst)
  if missing ≠ [] then
    (tree, .error ⟨ofString "CTranslate2必須ファイルがありません: " ++
      (ofString ", ").intercalate missing, []⟩)
  else
    match modelDirectory filesDir makes tree treeUri nanoTime with
    | (tree, .error error) => (tree, .error error)
    | (tree, .ok directory) =>
      match copyAll filesDir directory tree entries with
      | (tree, none) => (tree, .ok directory)
      | (tree, some error) =>
        let (tree, error) := rethrowAfterDelete filesDir refuses tree directory error
        (tree, .error error)

end ExternalModelImporter

namespace ImportedModelCleanup

variable {filesDir : Units} {refuses : Path → Bool}

theorem length_lt_depth {tree : FileTree Units} {path : Path} (there : tree.kind path ≠ none) :
    path.length < depth tree := by
  have member := AList.mem_keys.mp (tree.kind_ne_none.mp there)
  exact Nat.lt_succ_of_le (List.le_max?_getD_of_mem (List.mem_map_of_mem member))

/-- The loop over the children of a directory, given what the deletion of one child does. -/
theorem cleared_children {tree : FileTree Units} {target : Path} {levels : Nat}
    (child : ∀ middle name, tree.kind (target ++ [name]) ≠ none →
      (∀ path, middle.kind path ≠ none → middle.kind path = tree.kind path) →
      middle.Cleared refuses [target ++ [name]]
          (deleteRecursively refuses levels middle (target ++ [name])).1 ∧
        ((deleteRecursively refuses levels middle (target ++ [name])).2 = true ↔
          ¬ middle.Held refuses (target ++ [name])))
    (names : List Units) (listed : ∀ name ∈ names, tree.kind (target ++ [name]) ≠ none)
    (done : List Units) (start : FileTree Units × Bool)
    (cleared : tree.Cleared refuses (done.map (target ++ [·])) start.1)
    (success : start.2 = true ↔ ∀ name ∈ done, ¬ tree.Held refuses (target ++ [name])) :
    let result := names.foldl
      (fun (tree, success) child =>
        let (tree, deleted) := deleteRecursively refuses levels tree (target ++ [child])
        (tree, success && deleted)) start
    tree.Cleared refuses ((done ++ names).map (target ++ [·])) result.1 ∧
      (result.2 = true ↔ ∀ name ∈ done ++ names, ¬ tree.Held refuses (target ++ [name])) := by
  induction names generalizing done start with
  | nil => simpa using ⟨cleared, success⟩
  | cons name rest inductionHypothesis =>
    obtain ⟨next, deleted⟩ := child start.1 name (listed name (List.mem_cons_self ..))
      fun path => cleared.there
    have step := inductionHypothesis
      (fun other member => listed other (List.mem_cons_of_mem _ member)) (done ++ [name])
      ((deleteRecursively refuses levels start.1 (target ++ [name])).1,
        start.2 && (deleteRecursively refuses levels start.1 (target ++ [name])).2)
      (by simpa using cleared.append next)
      (by
        rw [Bool.and_eq_true, success, deleted, cleared.held_iff]
        simp [or_imp, forall_and])
    simpa using step

private theorem deleteRecursively_cleared {levels : Nat} {tree : FileTree Units} {target : Path}
    (inner : target ≠ []) (several : 0 < levels)
    (deep : ∀ path, target <+: path → tree.kind path ≠ none →
      path.length < target.length + levels) :
    tree.Cleared refuses [target] (deleteRecursively refuses levels tree target).1 ∧
      ((deleteRecursively refuses levels tree target).2 = true ↔ ¬ tree.Held refuses target) := by
  induction levels generalizing tree target with
  | zero => omega
  | succ levels inductionHypothesis =>
    have child (middle : FileTree Units) (name : Units)
        (there : tree.kind (target ++ [name]) ≠ none)
        (old : ∀ path, middle.kind path ≠ none → middle.kind path = tree.kind path) :
        middle.Cleared refuses [target ++ [name]]
            (deleteRecursively refuses levels middle (target ++ [name])).1 ∧
          ((deleteRecursively refuses levels middle (target ++ [name])).2 = true ↔
            ¬ middle.Held refuses (target ++ [name])) := by
      apply inductionHypothesis (by simp)
      · have short := deep _ (List.prefix_append target [name]) there
        rw [List.length_append, List.length_singleton] at short
        omega
      · intro path under present
        have short := deep path ((List.prefix_append target [name]).trans under)
          (old path present ▸ present)
        rw [List.length_append, List.length_singleton]
        omega
    obtain ⟨inside, success⟩ := cleared_children child (tree.listFiles target)
      (fun name listed => (tree.mem_listFiles inner).mp listed) [] (tree, true) (.nil tree)
      (by simp)
    rw [List.nil_append] at inside success
    obtain ⟨cleared, deleted⟩ := inside.delete inner
    rw [deleteRecursively]
    dsimp only
    split
    · rename_i absent
      rw [FileTree.delete_refused (.inr (.inr absent))] at cleared
      refine ⟨cleared, success.trans ?_⟩
      have gone : tree.kind target = none := (inside.outside (.inl rfl)).symm.trans absent
      have nothing : tree.listFiles target = [] := by
        rw [FileTree.listFiles, gone, if_neg (by simp)]
      rw [nothing]
      exact iff_of_true (by simp) fun held => held.there inner gone
    · rename_i there
      refine ⟨cleared, ?_⟩
      rw [Bool.and_eq_true, deleted there, success]
      exact and_iff_left_of_imp fun free name _ held =>
        free (held.above (List.prefix_append target [name]))

section Targets

variable (filesDir refuses) {tree : FileTree Units} {id name : Units}

/-- A call deletes the directory of its argument, or the one above what is no directory. -/
theorem delete_target (tree : FileTree Units) {imported target : Path}
    (inside : [directoryName] <+: imported) (other : imported ≠ [directoryName])
    (chosen : (if tree.kind imported = some .directory then imported else imported.dropLast) =
      target) (inner : target ≠ []) :
    tree.Cleared refuses [target] (delete filesDir refuses tree imported).1 ∧
      ((delete filesDir refuses tree imported).2 = .ok true ↔ ¬ tree.Held refuses target) := by
  have allowed : ¬ (!List.isPrefixOf [directoryName] imported || imported == [directoryName]) =
      true := by
    rw [List.isPrefixOf_iff_prefix.mpr inside, beq_eq_false_iff_ne.mpr other]
    decide
  rw [delete, if_neg allowed, chosen, Except.ok.injEq]
  exact deleteRecursively_cleared inner (Nat.succ_pos _) fun _ _ there =>
    (length_lt_depth there).trans_le (Nat.le_add_left _ _)

theorem delete_file (notDirectory : tree.kind [directoryName, id, name] ≠ some .directory) :
    tree.Cleared refuses [[directoryName, id]]
        (delete filesDir refuses tree [directoryName, id, name]).1 ∧
      ((delete filesDir refuses tree [directoryName, id, name]).2 = .ok true ↔
        ¬ tree.Held refuses [directoryName, id]) :=
  delete_target filesDir refuses tree ⟨[id, name], rfl⟩ (by simp) (if_neg notDirectory) (by simp)

theorem delete_directory (there : tree.kind [directoryName, id] = some .directory) :
    tree.Cleared refuses [[directoryName, id]]
        (delete filesDir refuses tree [directoryName, id]).1 ∧
      ((delete filesDir refuses tree [directoryName, id]).2 = .ok true ↔
        ¬ tree.Held refuses [directoryName, id]) :=
  delete_target filesDir refuses tree ⟨[id], rfl⟩ (by simp) (if_pos there) (by simp)

theorem delete_gone (gone : tree.kind [directoryName, id] = none) :
    tree.Cleared refuses [[directoryName]]
        (delete filesDir refuses tree [directoryName, id]).1 ∧
      ((delete filesDir refuses tree [directoryName, id]).2 = .ok true ↔
        ¬ tree.Held refuses [directoryName]) :=
  delete_target filesDir refuses tree ⟨[id], rfl⟩ (by simp) (if_neg (by rw [gone]; nofun))
    (by simp)

theorem rethrowAfterDelete_tree (tree : FileTree Units) (directory : Path) (cause : IOException) :
    (rethrowAfterDelete filesDir refuses tree directory cause).1 =
      (delete filesDir refuses tree directory).1 := by
  unfold rethrowAfterDelete
  split <;> rename_i result <;> rw [result]

end Targets

/-- What a cleanup of one import is to do, in this state of the files. -/
structure CleansUp (filesDir : Units) (refuses : Path → Bool) (tree : FileTree Units)
    (own imported : Path) : Prop where
  frame : ∀ path, ¬ own <+: path →
    (delete filesDir refuses tree imported).1.kind path = tree.kind path
  answer : (delete filesDir refuses tree imported).1.kind own = none →
    (delete filesDir refuses tree imported).2 = .ok true
  again : ∀ path,
    (delete filesDir refuses (delete filesDir refuses tree imported).1 imported).1.kind path =
      (delete filesDir refuses tree imported).1.kind path
  rethrown : ∀ cause, (rethrowAfterDelete filesDir refuses tree imported cause).1 =
    (delete filesDir refuses tree imported).1

/-- When it does so: what was imported is a file; or nothing was ever imported; or the
directory is there and either it stays, or nothing else could be deleted anyway. -/
def Spared (refuses : Path → Bool) (tree : FileTree Units) (own imported : Path) : Prop :=
  imported ≠ own ∨ tree.kind [directoryName] = none ∨
    tree.kind own = some .directory ∧
      (tree.Held refuses own ∨ ∀ path, [directoryName] <+: path → ¬ own <+: path →
        tree.kind path ≠ none → tree.Held refuses path)

section Cleanup

variable {tree : FileTree Units} {id name : Units}

theorem frame_of_cleared {tree next : FileTree Units} {root path : Path}
    (cleared : tree.Cleared refuses [root] next) (apart : ¬ root <+: path) :
    next.kind path = tree.kind path :=
  cleared.kept path (.inl fun _ member => List.mem_singleton.mp member ▸ apart)

theorem cleansUp_file (notDirectory : tree.kind [directoryName, id, name] ≠ some .directory) :
    CleansUp filesDir refuses tree [directoryName, id] [directoryName, id, name] := by
  obtain ⟨cleared, answer⟩ := delete_file filesDir refuses notDirectory
  have still : (delete filesDir refuses tree [directoryName, id, name]).1.kind
      [directoryName, id, name] ≠ some .directory := by
    intro directory
    exact notDirectory ((cleared.there (directory ▸ nofun)).symm.trans directory)
  constructor
  · exact fun path => frame_of_cleared cleared
  · intro gone
    exact answer.mpr ((cleared.root_iff (List.mem_singleton_self _) (by simp)).mp gone)
  · exact cleared.again (delete_file filesDir refuses still).1
  · exact rethrowAfterDelete_tree filesDir refuses tree _

/-- Where a directory is gone, what would be cleaned up is the directory of all imports. -/
theorem CleansUp.absent_of_gone (gone : tree.kind [directoryName, id] = none)
    (cleans : CleansUp filesDir refuses tree [directoryName, id] [directoryName, id]) :
    tree.kind [directoryName] = none := by
  have above : ¬ [directoryName, id] <+: [directoryName] := fun under => by
    have shorter := under.length_le
    simp at shorter
  obtain ⟨cleared, answer⟩ := delete_gone filesDir refuses gone
  have removed := answer.mp (cleans.answer (by
    by_contra there
    exact there ((cleared.there there).trans gone)))
  rw [← cleans.frame _ above]
  exact (cleared.root_iff (List.mem_singleton_self _) (by simp)).mpr removed

/-- Where a directory is there, a second cleanup goes for all imports unless it stays. -/
theorem CleansUp.held_of_directory (present : tree.kind [directoryName, id] = some .directory)
    (cleans : CleansUp filesDir refuses tree [directoryName, id] [directoryName, id])
    (free : ¬ tree.Held refuses [directoryName, id]) {path : Path}
    (under : [directoryName] <+: path) (apart : ¬ [directoryName, id] <+: path)
    (there : tree.kind path ≠ none) : tree.Held refuses path := by
  obtain ⟨cleared, -⟩ := delete_directory filesDir refuses present
  have gone := (cleared.root_iff (List.mem_singleton_self _) (by simp)).mpr free
  obtain ⟨second, -⟩ := delete_gone filesDir refuses gone
  by_contra loose
  have vanished := second.removed path _ (List.mem_singleton_self _) under
    (mt (cleared.held_iff path).mp loose)
  rw [cleans.again path, frame_of_cleared cleared apart] at vanished
  exact there vanished

private theorem cleansUp_absent (absent : tree.kind [directoryName] = none) :
    CleansUp filesDir refuses tree [directoryName, id] [directoryName, id] := by
  have filled : [directoryName] ≠ [] := by simp
  have gone := tree.kind_below filled absent ⟨[id], rfl⟩
  obtain ⟨cleared, answer⟩ := delete_gone filesDir refuses gone
  have still : (delete filesDir refuses tree [directoryName, id]).1.kind
      [directoryName, id] = none := by
    by_contra there
    exact there ((cleared.there there).trans gone)
  constructor
  · intro path apart
    by_cases under : [directoryName] <+: path
    · have empty := tree.kind_below filled absent under
      by_contra differs
      exact differs (cleared.there fun removed => differs (removed.trans empty.symm))
    · exact frame_of_cleared cleared under
  · exact fun _ => answer.mpr fun held => held.there filled absent
  · exact cleared.again (delete_gone filesDir refuses still).1
  · exact rethrowAfterDelete_tree filesDir refuses tree _

private theorem cleansUp_directory (present : tree.kind [directoryName, id] = some .directory)
    (rest : tree.Held refuses [directoryName, id] ∨ ∀ path, [directoryName] <+: path →
      ¬ [directoryName, id] <+: path → tree.kind path ≠ none → tree.Held refuses path) :
    CleansUp filesDir refuses tree [directoryName, id] [directoryName, id] := by
  obtain ⟨cleared, answer⟩ := delete_directory filesDir refuses present
  have own_iff := cleared.root_iff (List.mem_singleton_self _) (by simp)
  refine ⟨fun path => frame_of_cleared cleared, fun gone => answer.mpr (own_iff.mp gone), ?_,
    rethrowAfterDelete_tree filesDir refuses tree _⟩
  intro path
  by_cases held : tree.Held refuses [directoryName, id]
  · have still := (cleared.kept [directoryName, id] (.inr held)).trans present
    exact cleared.again (delete_directory filesDir refuses still).1 path
  · -- The second call goes for all imports, and finds nothing that it may delete.
    obtain ⟨second, -⟩ := delete_gone filesDir refuses (own_iff.mpr held)
    by_cases there : (delete filesDir refuses tree [directoryName, id]).1.kind path = none
    · by_contra differs
      exact differs (second.there fun removed => differs (removed.trans there.symm))
    · by_cases under : [directoryName] <+: path
      · refine second.kept path (.inr ((cleared.held_iff path).mpr ?_))
        have old := cleared.there there ▸ there
        by_contra loose
        refine loose (rest.resolve_left held path under (fun inside => ?_) old)
        exact there (cleared.removed path _ (List.mem_singleton_self _) inside loose)
      · exact frame_of_cleared second under

private theorem cleansUp_directory_iff (own : tree.kind [directoryName, id] ≠ some .file) :
    CleansUp filesDir refuses tree [directoryName, id] [directoryName, id] ↔
      Spared refuses tree [directoryName, id] [directoryName, id] := by
  constructor
  · intro cleans
    rw [Spared, or_iff_right (not_not_intro rfl), or_iff_not_imp_left]
    intro imports
    cases present : tree.kind [directoryName, id] with
    | none => exact absurd (cleans.absent_of_gone present) imports
    | some kind =>
      cases kind with
      | file => exact absurd present own
      | directory =>
        exact ⟨rfl, or_iff_not_imp_left.mpr fun free _ => cleans.held_of_directory present free⟩
  · rintro (other | absent | ⟨present, rest⟩)
    · exact absurd rfl other
    · exact cleansUp_absent absent
    · exact cleansUp_directory present rest

end Cleanup

end ImportedModelCleanup

namespace ExternalModelImporter

open ImportedModelCleanup

variable {filesDir : Units} {refuses makes : Path → Bool} {tree after : FileTree Units}

theorem openOutput_of_copy {target : Path} {ends : CopyEnd}
    (copied : copy filesDir tree target ends = (after, none)) :
    tree.openOutput target = some after := by
  cases ends with
  | noInput message => cases copied
  | noOutput message => cases copied
  | breaksOff message =>
    dsimp only [copy] at copied
    split at copied <;> cases copied
  | completes =>
    dsimp only [copy] at copied
    split at copied
    · rename_i opened
      cases copied
      exact opened
    · cases copied

private theorem copyAll_directory {directory : Path} (inner : directory ≠ [])
    {entries : List (Units × CopyEnd)}
    (copied : copyAll filesDir directory tree entries = (after, none))
    (filled : tree.kind directory = some .directory ∨
      ∃ entry ∈ entries, isModelFile entry.1 = true) :
    after.kind directory = some .directory := by
  induction entries generalizing tree with
  | nil =>
    cases copied
    exact filled.resolve_right (by simp)
  | cons entry rest inductionHypothesis =>
    obtain ⟨name, ends⟩ := entry
    unfold copyAll at copied
    split at copied
    · split at copied
      · rename_i next first
        exact inductionHypothesis copied
          (.inl (FileTree.openOutput_parent inner (openOutput_of_copy first)))
      · cases copied
    · rename_i other
      refine inductionHypothesis copied (filled.imp_right ?_)
      rintro ⟨entry, member, wanted⟩
      rcases List.mem_cons.mp member with rfl | later
      · exact absurd wanted other
      · exact ⟨entry, later, wanted⟩

theorem modelDirectory_returned {sourceKey : Units} {nanoTime : Int64} {directory : Path}
    (returned : modelDirectory filesDir makes tree sourceKey nanoTime = (after, .ok directory)) :
    directory = modelPath sourceKey nanoTime ∧
      (tree.kind directory = none → after.kind directory = some .directory) := by
  unfold modelDirectory at returned
  dsimp only at returned
  split at returned
  · rename_i there
    cases returned
    exact ⟨rfl, fun absent => absurd absent there⟩
  · split at returned
    · rename_i made
      cases returned
      refine ⟨rfl, fun _ => ?_⟩
      have kind := FileTree.makeDirectories_kind (congrArg Prod.snd made)
      rwa [made] at kind
    · cases returned

private theorem importWhisperBin_returned {source name : Units} {nanoTime : Int64} {ends : CopyEnd}
    {value : Path}
    (returned : importWhisperBin filesDir refuses makes tree source name nanoTime ends =
      (after, .ok value)) :
    value = modelPath source nanoTime ++ [safeName name] ∧ after.kind value = some .file := by
  unfold importWhisperBin at returned
  split at returned
  · cases returned
  · split at returned
    · cases returned
    · rename_i middle directory first
      obtain ⟨rfl, -⟩ := modelDirectory_returned first
      dsimp only at returned
      split at returned
      · rename_i next copied
        cases returned
        exact ⟨rfl, (FileTree.openOutput_kind (openOutput_of_copy copied)).1⟩
      · cases returned

theorem exists_modelFile {names : List Units} (complete : missingCTranslate2Files names = []) :
    ∃ name ∈ names, isModelFile name = true := by
  unfold missingCTranslate2Files at complete
  simp only [List.append_eq_nil_iff] at complete
  have found := complete.1.1.1
  split at found
  · rename_i some_name
    obtain ⟨name, member, same⟩ := List.any_eq_true.mp some_name
    refine ⟨name, member, ?_⟩
    simp only [isModelFile, same, Bool.true_or]
  · cases found

theorem importCTranslate2Directory_returned {treeUri : Units} {entries : List (Units × CopyEnd)}
    {nanoTime : Int64} {value : Path}
    (returned : importCTranslate2Directory filesDir refuses makes tree treeUri entries nanoTime =
      (after, .ok value)) :
    value = modelPath treeUri nanoTime ∧ after.kind value = some .directory := by
  unfold importCTranslate2Directory at returned
  dsimp only at returned
  split at returned
  · cases returned
  · rename_i complete
    obtain ⟨name, member, wanted⟩ := exists_modelFile (not_not.mp complete)
    obtain ⟨entry, inside, rfl⟩ := List.mem_map.mp member
    split at returned
    · cases returned
    · rename_i middle directory first
      obtain ⟨rfl, -⟩ := modelDirectory_returned first
      split at returned
      · rename_i next copied
        cases returned
        exact ⟨rfl, copyAll_directory (by simp [modelPath]) copied (.inr ⟨entry, inside, wanted⟩)⟩
      · cases returned

end ExternalModelImporter

namespace ImportedModelCleanup

open ExternalModelImporter

/-- An import has its own directory and the value to clean it up by, which is the copied
file or this directory, and leaves the files in this state. -/
inductive Made (filesDir : Units) : Path → Path → FileTree Units → Prop where
  | whisperBin {refuses makes : Path → Bool} {tree after : FileTree Units} {source name : Units}
      {nanoTime : Int64} {ends : CopyEnd} {value : Path}
      (returned : importWhisperBin filesDir refuses makes tree source name nanoTime ends =
        (after, .ok value)) : Made filesDir (modelPath source nanoTime) value after
  | cTranslate2Directory {refuses makes : Path → Bool} {tree after : FileTree Units}
      {treeUri : Units} {entries : List (Units × CopyEnd)} {nanoTime : Int64} {value : Path}
      (returned : importCTranslate2Directory filesDir refuses makes tree treeUri entries nanoTime =
        (after, .ok value)) : Made filesDir (modelPath treeUri nanoTime) value after
  /-- The directory of an import that goes on to copy. -/
  | created {makes : Path → Bool} {tree after : FileTree Units} {sourceKey : Units}
      {nanoTime : Int64} {directory : Path} (new : tree.kind (modelPath sourceKey nanoTime) = none)
      (returned : modelDirectory filesDir makes tree sourceKey nanoTime = (after, .ok directory)) :
      Made filesDir (modelPath sourceKey nanoTime) directory after

/-- What is in the directory of an import later is what is left of it. -/
def LaterOf (own : Path) (made later : FileTree Units) : Prop :=
  ∀ path, own <+: path → later.kind path = none ∨ later.kind path = made.kind path

variable {filesDir : Units} {refuses : Path → Bool}

theorem Made.shape {own imported : Path} {made : FileTree Units}
    (origin : Made filesDir own imported made) : ∃ id, own = [directoryName, id] ∧
      ((∃ name, imported = [directoryName, id, name] ∧ made.kind imported = some .file) ∨
        imported = own ∧ made.kind imported = some .directory) := by
  cases origin with
  | whisperBin returned =>
    obtain ⟨rfl, file⟩ := importWhisperBin_returned returned
    exact ⟨_, rfl, .inl ⟨_, rfl, file⟩⟩
  | cTranslate2Directory returned =>
    obtain ⟨rfl, directory⟩ := importCTranslate2Directory_returned returned
    exact ⟨_, rfl, .inr ⟨rfl, directory⟩⟩
  | created new returned =>
    obtain ⟨rfl, directory⟩ := modelDirectory_returned returned
    exact ⟨_, rfl, .inr ⟨rfl, directory new⟩⟩

/-- In every later state of the files the cleanup of an import does what it is to do
exactly when the import is spared. -/
theorem cleansUp_iff_spared {own imported : Path} {made later : FileTree Units}
    (origin : Made filesDir own imported made) (since : LaterOf own made later) :
    CleansUp filesDir refuses later own imported ↔ Spared refuses later own imported := by
  obtain ⟨id, rfl, ⟨name, rfl, file⟩ | ⟨rfl, directory⟩⟩ := origin.shape
  · refine iff_of_true (cleansUp_file ?_) (.inl (by simp))
    rcases since [directoryName, id, name] ⟨[name], rfl⟩ with gone | same
    · rw [gone]
      nofun
    · rw [same, file]
      nofun
  · apply cleansUp_directory_iff
    rcases since _ List.prefix_rfl with gone | same
    · rw [gone]
      nofun
    · rw [same, directory]
      nofun

/-- A Whisper.cpp file was imported. -/
def withFile : FileTree Units × Except IOException Path :=
  importWhisperBin [] (fun _ => false) (fun _ => true) .empty (ofString "content://a")
    (ofString "ggml.bin") 1 .completes

/-- Then a directory is. -/
def withDirectory : FileTree Units × Except IOException Path :=
  importCTranslate2Directory [] (fun _ => false) (fun _ => true) withFile.1
    (ofString "content://b")
    [(ofString "model.bin", .completes), (ofString "vocabulary.json", .completes),
      (ofString "tokenizer.json", .completes), (ofString "config.json", .completes)] 2

def copiedFile : Path := modelPath (ofString "content://a") 1 ++ [ofString "ggml.bin"]

def copiedDirectory : Path := modelPath (ofString "content://b") 2

theorem made_withFile : Made [] (modelPath (ofString "content://a") 1) copiedFile withFile.1 := by
  have returned : withFile.2 = .ok copiedFile := by decide +kernel
  have whole : withFile = (withFile.1, .ok copiedFile) := by rw [← returned]
  exact .whisperBin whole

private theorem made_withDirectory : Made [] copiedDirectory copiedDirectory withDirectory.1 := by
  have returned : withDirectory.2 = .ok copiedDirectory := by decide +kernel
  have whole : withDirectory = (withDirectory.1, .ok copiedDirectory) := by rw [← returned]
  exact .cTranslate2Directory whole

private theorem laterOf_withDirectory :
    LaterOf (modelPath (ofString "content://a") 1) withFile.1 withDirectory.1 := by
  have same : ∀ path ∈ withDirectory.1.entries.keys, modelPath (ofString "content://a") 1 <+: path →
      withDirectory.1.kind path = withFile.1.kind path := by decide +kernel
  intro path inside
  refine or_iff_not_imp_left.mpr fun there => same path ?_ inside
  exact AList.mem_keys.mp (withDirectory.1.kind_ne_none.mp there)

/-- The file's copy is cleaned up, with the directory's beside it. -/
theorem cleansUp_iff_spared_file :
    CleansUp [] (fun _ => false) withDirectory.1 (modelPath (ofString "content://a") 1)
      copiedFile :=
  (cleansUp_iff_spared made_withFile laterOf_withDirectory).mpr (.inl (by decide +kernel))

/-- The directory was cleaned up once. -/
def cleanedOnce : FileTree Units := (delete [] (fun _ => false) withDirectory.1 copiedDirectory).1

/-- The second cleanup of a directory deletes all other imports. -/
theorem second_cleanup_deletes_all : ¬ ∀ own imported made later, Made [] own imported made →
    LaterOf own made later → ∀ refuses, CleansUp [] refuses later own imported := by
  intro always
  have since : LaterOf copiedDirectory withDirectory.1 cleanedOnce := by
    obtain ⟨cleared, -⟩ := delete_directory [] (fun _ => false)
      (show withDirectory.1.kind copiedDirectory = some .directory by decide +kernel)
    intro path _
    exact or_iff_not_imp_left.mpr cleared.there
  have cleans := always _ _ _ _ made_withDirectory since fun _ => false
  have kept := cleans.frame copiedFile (by decide +kernel)
  exact absurd kept (by decide +kernel)

end ImportedModelCleanup

end LocalWhisper.SettingUI
