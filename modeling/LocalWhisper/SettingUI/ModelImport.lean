import LocalWhisper.Machine.Run
import LocalWhisper.SettingUI.Models

/-! The imports of `WhisperSettingsActivity`, which share three fields. Each
statement of an import thread that uses a shared field or a file is a step, and so
is each call on the UI thread. -/

namespace LocalWhisper.SettingUI

open Machine Machine.JavaString

/-- A copy in `imported_models`, the file's or the directory's of an import. The
directory it stands in is named after the time, so no two copies share one. -/
structure ImportedCopy where
  owner : Nat
  directory : Bool
  deriving DecidableEq, Repr

/-- Where an import stands: the statement its thread has next, or what it waits for. -/
inductive ImportPhase where
  | choosingFile
  | copyingFile
  | choosingDirectory
  | copyingDirectory
  /-- `replacePendingImportedModel`: read the field. -/
  | replacing (copy : ImportedCopy)
  /-- Write it. -/
  | tracking (copy : ImportedCopy) (previous : Option ImportedCopy)
  | deletingPrevious (copy previous : ImportedCopy)
  | probing (copy : ImportedCopy)
  /-- `saveImportedModel`: read the name, then the compute type, then call. -/
  | namingSave (copy : ImportedCopy)
  | typingSave (copy : ImportedCopy) (name : Units)
  | saving (copy : ImportedCopy) (name computeType : Units)
  /-- Calls that were posted to the UI thread. -/
  | succeeded
  | askingDirectory
  | failed
  | ended
  deriving DecidableEq, Repr

/-- An import with the texts that were entered and the name of the chosen file. -/
structure ModelImport where
  name : Units
  computeType : Units
  selectedName : Units
  phase : ImportPhase
  deriving DecidableEq, Repr

namespace ModelImport

def requestedName (run : ModelImport) : Units := trim run.name

def requestedComputeType (run : ModelImport) : Units :=
  if trim run.computeType = [] then ofString "int8" else trim run.computeType

def endsWithBin (selectedName : Units) : Bool :=
  (selectedName.drop (selectedName.length - 4)).map
    (fun unit => if 0x41 ≤ unit ∧ unit ≤ 0x5A then unit + 0x20 else unit) == ofString ".bin"

end ModelImport

/-- The arguments of a call of `saveVerified`, with the import that makes it. -/
structure ModelDefinition where
  request : Nat
  name : Units
  copy : ImportedCopy
  computeType : Units
  deriving DecidableEq, Repr

structure Deletion where
  request : Nat
  copy : ImportedCopy
  deriving DecidableEq, Repr

structure SettingsScreen where
  pendingExternalModelName : Units
  pendingComputeType : Units
  pendingImportedModel : Option ImportedCopy
  imports : List ModelImport
  /-- The copies whose directory exists. -/
  copies : List ImportedCopy
  calls : List ModelDefinition
  saved : List ModelDefinition
  deletions : List Deletion
  deriving DecidableEq, Repr

/-- How a statement outside the program ends. -/
structure Outcome where
  completes : Bool
  whisperLoaded : Bool
  cTranslate2Loaded : Bool
  deriving DecidableEq, Repr

inductive ScreenLabel where
  | launchExternalModelPicker (name computeType : Units)
  /-- Nothing is selected where the user cancels. -/
  | onExternalModelFileSelected (request : Nat) (selectedName : Option Units)
  | onCTranslate2DirectorySelected (request : Nat) (selected : Bool) (outcome : Outcome)
  | thread (request : Nat) (outcome : Outcome)
  | runOnUiThread (request : Nat) (outcome : Outcome)
  deriving DecidableEq, Repr

namespace SettingsScreen

def initial : SettingsScreen := ⟨[], ofString "int8", none, [], [], [], [], []⟩

def move (screen : SettingsScreen) (request : Nat) (run : ModelImport) (phase : ImportPhase) :
    SettingsScreen :=
  { screen with imports := screen.imports.set request { run with phase } }

/-- `clearPendingExternalModel`. -/
def clearPendingExternalModel (screen : SettingsScreen) : SettingsScreen :=
  { screen with
    pendingExternalModelName := []
    pendingComputeType := ofString "int8"
    pendingImportedModel := none }

/-- `ImportedModelCleanup.delete`. A path that is no directory stands for the one
above it: of a copied file that is its own, of a directory that is gone already it is
the one with all copies. -/
def delete (screen : SettingsScreen) (request : Nat) (copy : ImportedCopy) (outcome : Outcome) :
    SettingsScreen :=
  let targets := if copy.directory = true ∧ copy ∉ screen.copies then screen.copies else [copy]
  { screen with
    copies := if outcome.completes then screen.copies.filter (· ∉ targets) else screen.copies
    deletions := screen.deletions ++ targets.map fun target => ⟨request, target⟩ }

/-- `discardPendingExternalModel`. -/
def discardPendingExternalModel (screen : SettingsScreen) (request : Nat) (outcome : Outcome) :
    SettingsScreen :=
  match screen.pendingImportedModel with
  | none => screen.clearPendingExternalModel
  | some copy => (screen.delete request copy outcome).clearPendingExternalModel

def copied (screen : SettingsScreen) (request : Nat) (run : ModelImport) (directory : Bool) :
    SettingsScreen :=
  let copy : ImportedCopy := ⟨request, directory⟩
  { screen with copies := screen.copies ++ [copy] }.move request run (.replacing copy)

/-- What follows the probe, which reads `pendingComputeType`. -/
def probed (run : ModelImport) (copy : ImportedCopy) (outcome : Outcome) : ImportPhase :=
  if !outcome.completes then .failed
  else if copy.directory then
    if outcome.cTranslate2Loaded then .namingSave copy else .failed
  else if outcome.whisperLoaded then .namingSave copy
  else if equalsIgnoreCase (ofString "model.bin") run.selectedName then .askingDirectory
  else .failed

/-- The next statement of an import's thread. -/
def threadStep (screen : SettingsScreen) (request : Nat) (run : ModelImport) (outcome : Outcome) :
    Option SettingsScreen :=
  match run.phase with
  | .copyingFile =>
    if ModelImport.endsWithBin run.selectedName && outcome.completes then
      some (screen.copied request run false)
    else some (screen.move request run .failed)
  | .copyingDirectory =>
    if outcome.completes then some (screen.copied request run true)
    else some (screen.move request run .failed)
  | .replacing copy => some (screen.move request run (.tracking copy screen.pendingImportedModel))
  | .tracking copy previous =>
    some ({ screen with pendingImportedModel := some copy }.move request run
      (match previous with
      | none => .probing copy
      | some old => if old = copy then .probing copy else .deletingPrevious copy old))
  | .deletingPrevious copy previous =>
    some ((screen.delete request previous outcome).move request run
      (if outcome.completes then .probing copy else .failed))
  | .probing copy => some (screen.move request run (probed run copy outcome))
  | .namingSave copy =>
    some (screen.move request run (.typingSave copy screen.pendingExternalModelName))
  | .typingSave copy name =>
    some (screen.move request run (.saving copy name screen.pendingComputeType))
  | .saving copy name computeType =>
    let definition : ModelDefinition := ⟨request, name, copy, computeType⟩
    let called := { screen with calls := screen.calls ++ [definition] }
    if outcome.completes then
      some ({ called with saved := called.saved ++ [definition] }.move request run .succeeded)
    else some (called.move request run .failed)
  | _ => none

def callback (screen : SettingsScreen) (request : Nat) (run : ModelImport) (outcome : Outcome) :
    Option SettingsScreen :=
  match run.phase with
  | .succeeded => some (screen.clearPendingExternalModel.move request run .ended)
  | .askingDirectory => some (screen.move request run .choosingDirectory)
  | .failed => some ((screen.discardPendingExternalModel request outcome).move request run .ended)
  | _ => none

def launchExternalModelPicker (screen : SettingsScreen) (name computeType : Units) :
    SettingsScreen :=
  let run : ModelImport := ⟨name, computeType, [], .choosingFile⟩
  if trim name = [] then screen
  else
    { screen with
      pendingExternalModelName := run.requestedName
      pendingComputeType := run.requestedComputeType
      imports := screen.imports ++ [run] }

def onExternalModelFileSelected (screen : SettingsScreen) (request : Nat) (run : ModelImport)
    (selectedName : Option Units) : Option SettingsScreen :=
  match run.phase, selectedName with
  | .choosingFile, none => some (screen.clearPendingExternalModel.move request run .ended)
  | .choosingFile, some selectedName =>
    some (screen.move request { run with selectedName } .copyingFile)
  | _, _ => none

def onCTranslate2DirectorySelected (screen : SettingsScreen) (request : Nat) (run : ModelImport)
    (selected : Bool) (outcome : Outcome) : Option SettingsScreen :=
  match run.phase, selected with
  | .choosingDirectory, false =>
    some ((screen.discardPendingExternalModel request outcome).move request run .ended)
  | .choosingDirectory, true => some (screen.move request run .copyingDirectory)
  | _, _ => none

def step : Step SettingsScreen ScreenLabel := fun screen label =>
  match label with
  | .launchExternalModelPicker name computeType =>
    some (screen.launchExternalModelPicker name computeType)
  | .onExternalModelFileSelected request selectedName =>
    screen.imports[request]?.bind fun run =>
      screen.onExternalModelFileSelected request run selectedName
  | .onCTranslate2DirectorySelected request selected outcome =>
    screen.imports[request]?.bind fun run =>
      screen.onCTranslate2DirectorySelected request run selected outcome
  | .thread request outcome =>
    screen.imports[request]?.bind fun run => screen.threadStep request run outcome
  | .runOnUiThread request outcome =>
    screen.imports[request]?.bind fun run => screen.callback request run outcome

/-- Every definition carries what its own request entered, and no other import
deletes the copy of a saved one. -/
structure Unmixed (screen : SettingsScreen) : Prop where
  texts : ∀ call ∈ screen.calls, ∃ run, screen.imports[call.request]? = some run ∧
    call.name = run.requestedName ∧ call.computeType = run.requestedComputeType
  kept : ∀ model ∈ screen.saved, ∀ deletion ∈ screen.deletions,
    deletion.copy = model.copy → deletion.request = model.request

/-- An import starts when all earlier ones have ended. -/
def LaunchedAlone (screen : SettingsScreen) : ScreenLabel → Prop
  | .launchExternalModelPicker name _ =>
    trim name ≠ [] → ∀ run ∈ screen.imports, run.phase = .ended
  | _ => True

instance (screen : SettingsScreen) (label : ScreenLabel) :
    Decidable (screen.LaunchedAlone label) :=
  match label with
  | .launchExternalModelPicker _ _ => inferInstanceAs (Decidable (_ → _))
  | .onExternalModelFileSelected _ _ | .onCTranslate2DirectorySelected _ _ _ | .thread _ _
  | .runOnUiThread _ _ => inferInstanceAs (Decidable True)

/-- What an import knows of its copies and of the texts it has read. -/
def PhaseOwns (screen : SettingsScreen) (request : Nat) (run : ModelImport) : Prop :=
  match run.phase with
  | .replacing copy => copy.owner = request ∧ copy ∈ screen.copies
  | .tracking copy previous =>
    copy.owner = request ∧ copy ∈ screen.copies ∧ previous = screen.pendingImportedModel
  | .deletingPrevious copy previous =>
    copy.owner = request ∧ screen.pendingImportedModel = some copy ∧
      previous.owner = request ∧ previous ∈ screen.copies ∧ previous ≠ copy
  | .probing copy | .namingSave copy => copy.owner = request
  | .typingSave copy name => copy.owner = request ∧ name = run.requestedName
  | .saving copy name computeType =>
    copy.owner = request ∧ name = run.requestedName ∧ computeType = run.requestedComputeType
  | _ => True

/-- The shared fields are those of the import under way. -/
structure Owns (screen : SettingsScreen) (request : Nat) (run : ModelImport) : Prop where
  name : screen.pendingExternalModelName = run.requestedName
  computeType : screen.pendingComputeType = run.requestedComputeType
  pending : ∀ copy ∈ screen.pendingImportedModel, copy.owner = request ∧ copy ∈ screen.copies
  phase : screen.PhaseOwns request run

def Active (screen : SettingsScreen) (request : Nat) (run : ModelImport) : Prop :=
  screen.imports[request]? = some run ∧ run.phase ≠ .ended

/-- The invariant of the runs in which imports follow each other. -/
structure Serial (screen : SettingsScreen) : Prop where
  calls : ∀ call ∈ screen.calls, ∃ run, screen.imports[call.request]? = some run ∧
    call.name = run.requestedName ∧ call.computeType = run.requestedComputeType
  saved : ∀ model ∈ screen.saved, model.copy.owner = model.request
  deletions : ∀ deletion ∈ screen.deletions, deletion.copy.owner = deletion.request
  owns : ∀ request run, screen.Active request run → screen.Owns request run
  alone : ∀ first second one other, screen.Active first one → screen.Active second other →
    first = second
  idle : (∀ run ∈ screen.imports, run.phase = .ended) → screen.pendingImportedModel = none

theorem Serial.unmixed {screen : SettingsScreen} (serial : Serial screen) : Unmixed screen where
  texts := serial.calls
  kept := by
    intro model saved deletion deleted same
    rw [← serial.saved model saved, ← serial.deletions deletion deleted, same]

/-- What one step of the import under way may do: it goes on, makes a call with
its own texts, saves or deletes its own copies, and clears the fields when it ends. -/
structure Acts (screen next : SettingsScreen) (request : Nat) (run later : ModelImport) :
    Prop where
  imports : next.imports = screen.imports.set request later
  name : later.name = run.name
  computeType : later.computeType = run.computeType
  calls : ∀ call ∈ next.calls, call ∈ screen.calls ∨ call.request = request ∧
    call.name = run.requestedName ∧ call.computeType = run.requestedComputeType
  saved : ∀ model ∈ next.saved, model ∈ screen.saved ∨ model.copy.owner = model.request
  deletions : ∀ deletion ∈ next.deletions, deletion ∈ screen.deletions ∨
    deletion.copy.owner = deletion.request
  owns : later.phase ≠ .ended → next.Owns request later
  cleared : later.phase = .ended → next.pendingImportedModel = none

section Steps

variable {screen next : SettingsScreen} {request : Nat} {run later : ModelImport}

theorem Serial.acts (serial : Serial screen) (active : screen.Active request run)
    (acts : Acts screen next request run later) : Serial next := by
  have inside : request < screen.imports.length := (List.getElem?_eq_some_iff.mp active.1).1
  have here : next.imports[request]? = some later := by
    rw [acts.imports, List.getElem?_set_self inside]
  have elsewhere (other : Nat) (different : request ≠ other) :
      next.imports[other]? = screen.imports[other]? := by
    rw [acts.imports, List.getElem?_set_ne different]
  have only (other : Nat) (held : ModelImport) (busy : next.Active other held) :
      other = request := by
    by_contra different
    have before := elsewhere other (Ne.symm different)
    exact different (serial.alone _ _ _ _ ⟨before ▸ busy.1, busy.2⟩ active)
  constructor
  · intro call member
    have texts : later.requestedName = run.requestedName ∧
        later.requestedComputeType = run.requestedComputeType := by
      simp only [ModelImport.requestedName, ModelImport.requestedComputeType, acts.name,
        acts.computeType, and_self]
    rcases acts.calls call member with old | ⟨own, name, computeType⟩
    · obtain ⟨held, found, name, computeType⟩ := serial.calls call old
      by_cases same : request = call.request
      · rw [← same, active.1, Option.some.injEq] at found
        subst found
        exact ⟨later, same ▸ here, name.trans texts.1.symm, computeType.trans texts.2.symm⟩
      · exact ⟨held, (elsewhere _ same).trans found, name, computeType⟩
    · exact ⟨later, own ▸ here, name.trans texts.1.symm, computeType.trans texts.2.symm⟩
  · intro model member
    exact (acts.saved model member).elim (serial.saved model) id
  · intro deletion member
    exact (acts.deletions deletion member).elim (serial.deletions deletion) id
  · intro other held busy
    obtain rfl := only other held busy
    obtain ⟨found, busy⟩ := busy
    rw [here, Option.some.injEq] at found
    subst found
    exact acts.owns busy
  · intro first second one other oneBusy otherBusy
    rw [only first one oneBusy, only second other otherBusy]
  · intro past
    exact acts.cleared (past later (List.mem_of_getElem? here))

/-- A step without calls and deletions. -/
theorem acts_quiet {phase : ImportPhase} (imports : next.imports = screen.imports)
    (calls : next.calls = screen.calls) (saved : next.saved = screen.saved)
    (deletions : next.deletions = screen.deletions)
    (owns : phase ≠ .ended → next.Owns request { run with phase })
    (cleared : phase = .ended → next.pendingImportedModel = none) :
    Acts screen (next.move request run phase) request run { run with phase } where
  imports := congrArg (·.set request { run with phase }) imports
  name := rfl
  computeType := rfl
  calls _ member := .inl (calls ▸ member)
  saved _ member := .inl (saved ▸ member)
  deletions _ member := .inl (deletions ▸ member)
  owns busy := ⟨(owns busy).name, (owns busy).computeType, (owns busy).pending, (owns busy).phase⟩
  cleared := cleared

/-- A step that changes no shared field. -/
theorem Owns.moves {phase : ImportPhase} (owns : screen.Owns request run)
    (goesOn : phase ≠ .ended) (knows : screen.PhaseOwns request { run with phase }) :
    Acts screen (screen.move request run phase) request run { run with phase } :=
  acts_quiet rfl rfl rfl rfl (fun _ => ⟨owns.name, owns.computeType, owns.pending, knows⟩)
    fun past => absurd past goesOn

theorem Owns.copied (owns : screen.Owns request run) (directory : Bool) :
    ∃ later, Acts screen (screen.copied request run directory) request run later := by
  refine ⟨_, acts_quiet rfl rfl rfl rfl (fun _ => ?_) nofun⟩
  refine ⟨owns.name, owns.computeType, ?_, rfl, ?_⟩
  · intro copy pending
    exact ⟨(owns.pending copy pending).1, List.mem_append_left _ (owns.pending copy pending).2⟩
  · exact List.mem_append_right _ (List.mem_singleton_self _)

theorem delete_of_mem {copy : ImportedCopy} (exists_ : copy ∈ screen.copies) (outcome : Outcome) :
    screen.delete request copy outcome =
      { screen with
        copies := if outcome.completes then screen.copies.filter (· ∉ [copy]) else screen.copies
        deletions := screen.deletions ++ [⟨request, copy⟩] } := by
  have there : ¬ (copy.directory = true ∧ copy ∉ screen.copies) := fun gone => gone.2 exists_
  simp only [delete, there, if_false, List.map_cons, List.map_nil]

theorem Owns.deletesPrevious (owns : screen.Owns request run) {copy previous : ImportedCopy}
    (here : run.phase = .deletingPrevious copy previous) (outcome : Outcome) :
    ∃ later, Acts screen ((screen.delete request previous outcome).move request run
      (if outcome.completes then .probing copy else .failed)) request run later := by
  have knows := owns.phase
  simp only [PhaseOwns, here] at knows
  obtain ⟨own, tracked, previousOwn, previousThere, different⟩ := knows
  rw [delete_of_mem previousThere]
  refine ⟨_, rfl, rfl, rfl, fun _ => .inl, fun _ => .inl, ?_, fun _ => ?_, ?_⟩
  · intro deletion member
    rcases List.mem_append.mp member with old | new
    · exact .inl old
    · rw [List.mem_singleton.mp new]
      exact .inr previousOwn
  · refine ⟨owns.name, owns.computeType, ?_, ?_⟩
    · intro other pending
      obtain ⟨otherOwn, otherThere⟩ := owns.pending other pending
      have same : copy = other := Option.some.inj (tracked.symm.trans pending)
      refine ⟨otherOwn, ?_⟩
      show other ∈ if outcome.completes then _ else screen.copies
      split
      · exact List.mem_filter.mpr ⟨otherThere, by simpa [← same] using Ne.symm different⟩
      · exact otherThere
    · cases outcome.completes with
      | true => exact own
      | false => trivial
  · cases outcome.completes <;> nofun

theorem Owns.discards (owns : screen.Owns request run) (outcome : Outcome) :
    ∃ later, Acts screen ((screen.discardPendingExternalModel request outcome).move request run
      .ended) request run later := by
  unfold discardPendingExternalModel
  cases pending : screen.pendingImportedModel with
  | none => exact ⟨_, acts_quiet rfl rfl rfl rfl (fun busy => absurd rfl busy) fun _ => rfl⟩
  | some copy =>
    obtain ⟨own, there⟩ := owns.pending copy pending
    simp only [delete_of_mem there]
    refine ⟨_, rfl, rfl, rfl, fun _ => .inl, fun _ => .inl, ?_, fun busy => absurd rfl busy,
      fun _ => rfl⟩
    intro deletion member
    rcases List.mem_append.mp member with old | new
    · exact .inl old
    · rw [List.mem_singleton.mp new]
      exact .inr own

/-- The call of `saveVerified` passes what the import has read. -/
theorem Owns.saves (owns : screen.Owns request run) {copy : ImportedCopy}
    {name computeType : Units} (here : run.phase = .saving copy name computeType)
    {outcome : Outcome} (taken : screen.threadStep request run outcome = some next) :
    ∃ later, Acts screen next request run later := by
  have knows := owns.phase
  simp only [PhaseOwns, here] at knows
  obtain ⟨own, names, types⟩ := knows
  have called : ∀ call ∈ screen.calls ++ [⟨request, name, copy, computeType⟩],
      call ∈ screen.calls ∨ call.request = request ∧ call.name = run.requestedName ∧
        call.computeType = run.requestedComputeType := by
    intro call member
    rcases List.mem_append.mp member with old | new
    · exact .inl old
    · rw [List.mem_singleton.mp new]
      exact .inr ⟨rfl, names, types⟩
  simp only [threadStep, here] at taken
  split at taken
  · cases taken
    refine ⟨_, rfl, rfl, rfl, called, ?_, fun _ => .inl, fun _ => ?_, nofun⟩
    · intro model member
      rcases List.mem_append.mp member with old | new
      · exact .inl old
      · rw [List.mem_singleton.mp new]
        exact .inr own
    · exact ⟨owns.name, owns.computeType, owns.pending, trivial⟩
  · cases taken
    refine ⟨_, rfl, rfl, rfl, called, fun _ => .inl, fun _ => .inl, fun _ => ?_, nofun⟩
    exact ⟨owns.name, owns.computeType, owns.pending, trivial⟩

private theorem probed_cases (run : ModelImport) (copy : ImportedCopy) (outcome : Outcome) :
    probed run copy outcome = .failed ∨ probed run copy outcome = .namingSave copy ∨
      probed run copy outcome = .askingDirectory := by
  unfold probed
  split_ifs <;> simp

theorem Owns.threadStep (owns : screen.Owns request run) {outcome : Outcome}
    (taken : screen.threadStep request run outcome = some next) :
    ∃ later, Acts screen next request run later := by
  have knows := owns.phase
  cases here : run.phase with
  | copyingFile =>
    simp only [SettingsScreen.threadStep, here] at taken
    split at taken
    · cases taken
      exact owns.copied false
    · cases taken
      exact ⟨_, owns.moves nofun trivial⟩
  | copyingDirectory =>
    simp only [SettingsScreen.threadStep, here] at taken
    split at taken
    · cases taken
      exact owns.copied true
    · cases taken
      exact ⟨_, owns.moves nofun trivial⟩
  | replacing copy =>
    simp only [SettingsScreen.threadStep, here, Option.some.injEq] at taken
    simp only [PhaseOwns, here] at knows
    subst taken
    exact ⟨_, owns.moves nofun ⟨knows.1, knows.2, rfl⟩⟩
  | tracking copy previous =>
    simp only [SettingsScreen.threadStep, here, Option.some.injEq] at taken
    simp only [PhaseOwns, here] at knows
    obtain ⟨own, there, was⟩ := knows
    subst taken
    refine ⟨_, acts_quiet rfl rfl rfl rfl (fun _ => ⟨owns.name, owns.computeType, ?_, ?_⟩) ?_⟩
    · rintro _ ⟨⟩
      exact ⟨own, there⟩
    · cases previous with
      | none => exact own
      | some old =>
        obtain ⟨oldOwn, oldThere⟩ := owns.pending old was.symm
        by_cases same : old = copy
        · simp only [same, if_true, PhaseOwns]
          exact own
        · simp only [same, if_false, PhaseOwns]
          exact ⟨own, trivial, oldOwn, oldThere, same⟩
    · cases previous with
      | none => nofun
      | some old =>
        by_cases same : old = copy
        · simp [same]
        · simp [same]
  | deletingPrevious copy previous =>
    simp only [SettingsScreen.threadStep, here, Option.some.injEq] at taken
    subst taken
    exact owns.deletesPrevious here outcome
  | probing copy =>
    simp only [SettingsScreen.threadStep, here, Option.some.injEq] at taken
    simp only [PhaseOwns, here] at knows
    subst taken
    rcases probed_cases run copy outcome with failed | saves | asks
    · rw [failed]
      exact ⟨_, owns.moves nofun trivial⟩
    · rw [saves]
      exact ⟨_, owns.moves nofun knows⟩
    · rw [asks]
      exact ⟨_, owns.moves nofun trivial⟩
  | namingSave copy =>
    simp only [SettingsScreen.threadStep, here, Option.some.injEq] at taken
    simp only [PhaseOwns, here] at knows
    subst taken
    exact ⟨_, owns.moves nofun ⟨knows, owns.name⟩⟩
  | typingSave copy name =>
    simp only [SettingsScreen.threadStep, here, Option.some.injEq] at taken
    simp only [PhaseOwns, here] at knows
    subst taken
    exact ⟨_, owns.moves nofun ⟨knows.1, knows.2, owns.computeType⟩⟩
  | saving copy name computeType => exact owns.saves here taken
  | choosingFile | choosingDirectory | succeeded | askingDirectory | failed | ended =>
    simp [SettingsScreen.threadStep, here] at taken

/-- Every call on the UI thread that belongs to an import. -/
theorem Owns.callback (owns : screen.Owns request run) {outcome : Outcome}
    (taken : screen.callback request run outcome = some next) :
    ∃ later, Acts screen next request run later := by
  unfold SettingsScreen.callback at taken
  split at taken
  · cases taken
    exact ⟨_, acts_quiet rfl rfl rfl rfl (fun busy => absurd rfl busy) fun _ => rfl⟩
  · cases taken
    exact ⟨_, owns.moves nofun trivial⟩
  · cases taken
    exact owns.discards outcome
  · cases taken

theorem Owns.onExternalModelFileSelected (owns : screen.Owns request run)
    {selectedName : Option Units}
    (taken : screen.onExternalModelFileSelected request run selectedName = some next) :
    ∃ later, Acts screen next request run later := by
  unfold SettingsScreen.onExternalModelFileSelected at taken
  split at taken
  · cases taken
    exact ⟨_, acts_quiet rfl rfl rfl rfl (fun busy => absurd rfl busy) fun _ => rfl⟩
  · cases taken
    refine ⟨_, rfl, rfl, rfl, fun _ => .inl, fun _ => .inl, fun _ => .inl, fun _ => ?_, nofun⟩
    exact ⟨owns.name, owns.computeType, owns.pending, trivial⟩
  · cases taken

theorem Owns.onCTranslate2DirectorySelected (owns : screen.Owns request run) {selected : Bool}
    {outcome : Outcome}
    (taken : screen.onCTranslate2DirectorySelected request run selected outcome = some next) :
    ∃ later, Acts screen next request run later := by
  unfold SettingsScreen.onCTranslate2DirectorySelected at taken
  split at taken
  · cases taken
    exact owns.discards outcome
  · cases taken
    exact ⟨_, owns.moves nofun trivial⟩
  · cases taken

theorem Serial.launchExternalModelPicker (serial : Serial screen) (name computeType : Units)
    (alone : screen.LaunchedAlone (.launchExternalModelPicker name computeType)) :
    Serial (screen.launchExternalModelPicker name computeType) := by
  unfold SettingsScreen.launchExternalModelPicker
  split
  · exact serial
  · next filled =>
    have past := alone filled
    have only (request : Nat) (run : ModelImport)
        (found : (screen.imports ++ [(⟨name, computeType, [], .choosingFile⟩ : ModelImport)])[request]?
          = some run) (busy : run.phase ≠ .ended) :
        request = screen.imports.length ∧ run = ⟨name, computeType, [], .choosingFile⟩ := by
      rcases Nat.lt_or_ge request screen.imports.length with earlier | later
      · rw [List.getElem?_append_left earlier] at found
        exact absurd (past run (List.mem_of_getElem? found)) busy
      · rw [List.getElem?_append_right later, List.getElem?_singleton] at found
        split at found
        · exact ⟨by omega, (Option.some.inj found).symm⟩
        · cases found
    constructor
    · intro call member
      obtain ⟨run, found, texts⟩ := serial.calls call member
      refine ⟨run, ?_, texts⟩
      exact (List.getElem?_append_left (List.getElem?_eq_some_iff.mp found).1).trans found
    · exact serial.saved
    · exact serial.deletions
    · intro request run busy
      obtain ⟨-, rfl⟩ := only request run busy.1 busy.2
      refine ⟨rfl, rfl, ?_, trivial⟩
      intro copy pending
      rw [serial.idle past] at pending
      cases pending
    · intro first second one other oneBusy otherBusy
      rw [(only first one oneBusy.1 oneBusy.2).1, (only second other otherBusy.1 otherBusy.2).1]
    · intro ended
      exact absurd (ended _ (List.mem_append_right _ (List.mem_singleton_self _))) nofun

theorem Serial.of_bind (serial : Serial screen) {act : ModelImport → Option SettingsScreen}
    (taken : screen.imports[request]?.bind act = some next)
    (past : ∀ run, run.phase = .ended → act run = none)
    (acts : ∀ run, screen.Owns request run → act run = some next →
      ∃ later, Acts screen next request run later) : Serial next := by
  obtain ⟨run, found, taken⟩ := Option.bind_eq_some_iff.mp taken
  have active : screen.Active request run := by
    refine ⟨found, fun ended => ?_⟩
    rw [past run ended] at taken
    cases taken
  obtain ⟨later, changes⟩ := acts run (serial.owns request run active) taken
  exact serial.acts active changes

/-- Every step of a run in which imports follow each other. -/
theorem Serial.step (serial : Serial screen) {label : ScreenLabel}
    (alone : screen.LaunchedAlone label) (taken : step screen label = some next) :
    Serial next := by
  cases label with
  | launchExternalModelPicker name computeType =>
    cases taken
    exact serial.launchExternalModelPicker name computeType alone
  | onExternalModelFileSelected request selectedName =>
    refine serial.of_bind taken (fun run ended => ?_) fun _ owns => owns.onExternalModelFileSelected
    simp [SettingsScreen.onExternalModelFileSelected, ended]
  | onCTranslate2DirectorySelected request selected outcome =>
    refine serial.of_bind taken (fun run ended => ?_)
      fun _ owns => owns.onCTranslate2DirectorySelected
    simp [SettingsScreen.onCTranslate2DirectorySelected, ended]
  | thread request outcome =>
    refine serial.of_bind taken (fun run ended => ?_) fun _ owns => owns.threadStep
    simp [SettingsScreen.threadStep, ended]
  | runOnUiThread request outcome =>
    refine serial.of_bind taken (fun run ended => ?_) fun _ owns => owns.callback
    simp [SettingsScreen.callback, ended]

end Steps

/-- In every run in which an import starts only after the earlier ones have ended,
definitions are not mixed and saved models stay. -/
theorem unmixed_of_alone {screen : SettingsScreen} (run : Reaches step LaunchedAlone initial screen) :
    Unmixed screen := by
  have base : Serial initial := by
    constructor
    · exact nofun
    · exact nofun
    · exact nofun
    · exact fun _ _ active => nomatch active.1
    · exact fun _ _ _ _ active => nomatch active.1
    · exact fun _ => rfl
  have serial := run.invariant base fun serial alone taken => serial.step alone taken
  exact serial.unmixed

/-- Everything outside the program goes well. -/
def fine : Outcome := ⟨true, true, true⟩

/-- The thread of an import takes some statements. -/
def statements (request count : Nat) : List ScreenLabel :=
  List.replicate count (.thread request fine)

/-- Two imports, one after the other. -/
def following : List ScreenLabel :=
  [.launchExternalModelPicker (ofString "a") (ofString "int8"),
    .onExternalModelFileSelected 0 (some (ofString "a.bin"))] ++ statements 0 7 ++
  [.runOnUiThread 0 fine, .launchExternalModelPicker (ofString "b") (ofString "int16"),
    .onExternalModelFileSelected 1 (some (ofString "b.bin"))] ++ statements 1 7

def followed : SettingsScreen :=
  (executeChecked step (fun screen label => decide (LaunchedAlone screen label)) initial
    following).get (by decide +kernel)

theorem unmixed_of_alone_following : Unmixed followed := by
  have run : Reaches step (fun screen label => decide (LaunchedAlone screen label) = true) initial
      followed := Reaches.of_executeChecked (Option.some_get _).symm
  exact unmixed_of_alone (run.weaken fun _ _ alone => of_decide_eq_true alone)

/-- The second request comes while the first import is being verified: the first
definition gets its name, and its thread deletes the first copy after that was saved. -/
def overlapping : List ScreenLabel :=
  [.launchExternalModelPicker (ofString "a") (ofString "int8"),
    .onExternalModelFileSelected 0 (some (ofString "a.bin"))] ++ statements 0 4 ++
  [.launchExternalModelPicker (ofString "b") (ofString "int16"),
    .onExternalModelFileSelected 1 (some (ofString "b.bin"))] ++ statements 0 3 ++ statements 1 4

def overlapped : SettingsScreen := (execute step initial overlapping).get (by decide +kernel)

theorem overlapping_imports_mix : ¬ ∀ labels screen, execute step initial labels = some screen →
    Unmixed screen := by
  intro always
  have unmixed := always overlapping overlapped (Option.some_get _).symm
  have gone : ∃ model ∈ overlapped.saved, ∃ deletion ∈ overlapped.deletions,
      deletion.copy = model.copy ∧ deletion.request ≠ model.request := by decide +kernel
  obtain ⟨model, saved, deletion, deleted, same, other⟩ := gone
  exact other (unmixed.kept model saved deletion deleted same)

end SettingsScreen

end LocalWhisper.SettingUI
