import LocalWhisper.Machine.JavaString
import LocalWhisper.Machine.Searching

/-! How the result screen finds the files of one session: the key at the end of a file
name, and the search for the files that have the same. -/

namespace LocalWhisper.ResultUI

open Machine Machine.JavaString

def dash : UInt16 := 0x2D

def dot : UInt16 := 0x2E

def slash : UInt16 := 0x2F

/-- `newSessionTimeData` of `BackgroundWhisperService` at these two times. -/
def newSessionTimeData (currentTimeMillis nanoTime : Int64) : Units :=
  [dash].intercalate [toHexString currentTimeMillis, toHexString nanoTime]

/-- `Join` of the two with a dash. -/
def sessionId (purpose timeData : Units) : Units := [dash].intercalate [purpose, timeData]

/-- The kinds of `TranscriptionResultRepository.Type`, each with a directory of its own. -/
inductive ResultType where
  | json
  | text
  | audio
  deriving DecidableEq, Repr

def ResultType.extension : ResultType → Units
  | .json => ofString ".json"
  | .text => ofString ".txt"
  | .audio => ofString ".wav"

structure ResultFile where
  directory : ResultType
  name : Units
  deriving DecidableEq, Repr

namespace TranscriptionResultRepository

/-- `new File(path).getName()`: the last part of a path, whose separators may be doubled. -/
def getName (path : Units) : Units := ((path.splitOn slash).filter (· ≠ [])).getLastD []

def baseName (file : Units) : Units :=
  let name := getName file
  let last := lastIndexOf name dot
  if last > 0 then substring name 0 last else name

def isHexUnit (unit : UInt16) : Bool :=
  (0x30 ≤ unit && unit ≤ 0x39) || (0x61 ≤ unit && unit ≤ 0x66) || (0x41 ≤ unit && unit ≤ 0x46)

/-- `matches("[0-9a-fA-F]+")`. -/
def isHex (text : Units) : Bool := !text.isEmpty && text.all isHexUnit

def extractTimeData (fileName : Units) : Option Units :=
  let name := baseName fileName
  let lastSeparator := lastIndexOf name dash
  if lastSeparator ≤ 0 ∨ lastSeparator = name.length - 1 then none
  else
    let previousSeparator := lastIndexOfFrom name dash (lastSeparator - 1)
    if previousSeparator < 0 ∨ previousSeparator = lastSeparator - 1 then none
    else
      let first := substring name (previousSeparator + 1) lastSeparator
      let second := substring name (lastSeparator + 1) name.length
      if !isHex first || !isHex second then none else some (first ++ dash :: second)

/-- `name.toLowerCase(Locale.ROOT).endsWith(extension)`. The small letters of the
extensions have no other capitals than those of ASCII. -/
def hasExtension (name extension : Units) : Bool :=
  extension.isSuffixOf
    (name.map fun unit => if 0x41 ≤ unit ∧ unit ≤ 0x5A then unit + 0x20 else unit)

/-- The first in the order of `compareTo` of the names in a directory that end in the
extension and have the key of the source. -/
def findFirstTimeMatch (names : ResultType → List Units) (source : ResultFile)
    (directory : ResultType) : Option ResultFile :=
  match extractTimeData source.name with
  | none => none
  | some timeData =>
    let found := (names directory).filter fun name =>
      hasExtension name directory.extension && extractTimeData name == some timeData
    (found.mergeSort (fun first second => decide (first ≤ second))).head?.map (⟨directory, ·⟩)

/-- The file of the same name, or else of the same key. -/
def sameNameOrTime (names : ResultType → List Units) (file : ResultFile)
    (directory : ResultType) : Option ResultFile :=
  let candidate := baseName file.name ++ directory.extension
  if (names directory).contains candidate then some ⟨directory, candidate⟩
  else findFirstTimeMatch names file directory

def matchingJson (names : ResultType → List Units) (file : ResultFile) : Option ResultFile :=
  if hasExtension file.name ResultType.json.extension then some file
  else sameNameOrTime names file .json

def matchingAudio (names : ResultType → List Units) (file : ResultFile) : Option ResultFile :=
  sameNameOrTime names file .audio

def matchingText (names : ResultType → List Units) (file : ResultFile) : Option ResultFile :=
  findFirstTimeMatch names file .text

/-- `P-H1-H2`, with the key `H1-H2`. -/
def EndsInKey (name key : Units) : Prop :=
  ∃ purpose first second, name = purpose ++ dash :: (first ++ dash :: second) ∧
    isHex first = true ∧ isHex second = true ∧ key = first ++ dash :: second

theorem getName_of_plain {path : Units} (plain : slash ∉ path) : getName path = path := by
  rw [getName, List.splitOn_eq_singleton plain]
  by_cases empty : path = []
  · simp [empty]
  · simp [empty]

theorem baseName_cut {base extension : Units} (filled : base ≠ []) (last : dot ∉ extension)
    (plain : slash ∉ base ++ dot :: extension) : baseName (base ++ dot :: extension) = base := by
  have positive := List.length_pos_iff.mpr filled
  rw [baseName, getName_of_plain plain, lastIndexOf_append last, if_pos (by omega), substring,
    Int.toNat_natCast, List.take_left]
  rfl

theorem dash_not_hex : isHexUnit dash = false := by decide

theorem notMem_of_isHex {unit : UInt16} {text : Units} (other : isHexUnit unit = false)
    (hex : isHex text = true) : unit ∉ text := by
  intro member
  rw [isHex, Bool.and_eq_true, List.all_eq_true] at hex
  rw [hex.2 unit member] at other
  cases other

theorem filled_of_isHex {text : Units} (hex : isHex text = true) : text ≠ [] := by
  rintro rfl
  cases hex

theorem extractTimeData_of_cut {fileName purpose first second : Units}
    (base : baseName fileName = purpose ++ dash :: (first ++ dash :: second))
    (firstPart : dash ∉ first) (secondPart : dash ∉ second) :
    extractTimeData fileName =
      if isHex first && isHex second then some (first ++ dash :: second) else none := by
  have regroup : purpose ++ dash :: (first ++ dash :: second) =
      (purpose ++ dash :: first) ++ dash :: second := by simp
  have last : lastIndexOf (purpose ++ dash :: (first ++ dash :: second)) dash =
      (purpose ++ dash :: first).length := by
    rw [regroup, lastIndexOf_append secondPart]
  have previous : lastIndexOfFrom (purpose ++ dash :: (first ++ dash :: second)) dash
      ((purpose ++ dash :: first).length - 1) = purpose.length := by
    rw [regroup, lastIndexOfFrom_append, lastIndexOf_append firstPart]
  have firstText : substring (purpose ++ dash :: (first ++ dash :: second)) (purpose.length + 1)
      (purpose ++ dash :: first).length = first := by
    have split : purpose ++ dash :: (first ++ dash :: second) =
        (purpose ++ [dash]) ++ (first ++ dash :: second) := by simp
    exact substring_middle split (by simp) (by simp; omega)
  have secondText : substring (purpose ++ dash :: (first ++ dash :: second))
      ((purpose ++ dash :: first).length + 1)
      (purpose ++ dash :: (first ++ dash :: second)).length = second := by
    have split : purpose ++ dash :: (first ++ dash :: second) =
        (purpose ++ dash :: (first ++ [dash])) ++ (second ++ []) := by simp
    exact substring_middle split (by simp; omega) (by simp; omega)
  unfold extractTimeData
  rw [base]
  dsimp only
  rw [last, previous, firstText, secondText]
  by_cases hex : isHex first = true ∧ isHex second = true
  · have firstFilled := List.length_pos_iff.mpr (filled_of_isHex hex.1)
    have secondFilled := List.length_pos_iff.mpr (filled_of_isHex hex.2)
    rw [if_neg (by simp only [List.length_append, List.length_cons]; omega),
      if_neg (by simp only [List.length_append, List.length_cons]; omega), hex.1, hex.2]
    rfl
  · -- An empty part is told by an index, and is not hexadecimal either.
    have notBoth : (isHex first && isHex second) = false := by
      rwa [Bool.eq_false_iff, ne_eq, Bool.and_eq_true]
    rw [if_neg (show ¬(isHex first && isHex second) = true by rw [notBoth]; decide),
      ← Bool.not_and, notBoth]
    split
    · rfl
    · split
      · rfl
      · rfl

private theorem extractTimeData_of_no_dash {fileName : Units} (none : dash ∉ baseName fileName) :
    extractTimeData fileName = .none := by
  unfold extractTimeData
  dsimp only
  rw [lastIndexOf_of_notMem none, if_pos (.inl (by decide))]

private theorem extractTimeData_of_one_dash {fileName first second : Units}
    (base : baseName fileName = first ++ dash :: second) (firstPart : dash ∉ first)
    (secondPart : dash ∉ second) : extractTimeData fileName = none := by
  unfold extractTimeData
  rw [base]
  dsimp only
  rw [lastIndexOf_append secondPart, lastIndexOfFrom_append, lastIndexOf_of_notMem firstPart]
  split
  · rfl
  · exact if_pos (Or.inl (by decide))

theorem extractTimeData_eq_some_iff {fileName key : Units} :
    extractTimeData fileName = some key ↔ EndsInKey (baseName fileName) key := by
  constructor
  · intro found
    by_cases several : dash ∈ baseName fileName
    · obtain ⟨front, second, split, secondPart⟩ := exists_cut_at_last several
      by_cases more : dash ∈ front
      · obtain ⟨purpose, first, cut, firstPart⟩ := exists_cut_at_last more
        have base : baseName fileName = purpose ++ dash :: (first ++ dash :: second) := by
          rw [split, cut, List.append_assoc, List.cons_append]
        rw [extractTimeData_of_cut base firstPart secondPart] at found
        split at found
        · rename_i hex
          rw [Bool.and_eq_true] at hex
          exact ⟨purpose, first, second, base, hex.1, hex.2, (Option.some.inj found).symm⟩
        · cases found
      · rw [extractTimeData_of_one_dash split more secondPart] at found
        cases found
    · rw [extractTimeData_of_no_dash several] at found
      cases found
  · rintro ⟨purpose, first, second, base, firstHex, secondHex, rfl⟩
    rw [extractTimeData_of_cut base (notMem_of_isHex dash_not_hex firstHex)
      (notMem_of_isHex dash_not_hex secondHex), firstHex, secondHex]
    rfl

/-- An extension: a dot and letters, or any other units that do not end it. -/
def IsExtension (extension : Units) : Prop :=
  ∃ letters, extension = dot :: letters ∧ dot ∉ letters ∧ slash ∉ letters

theorem isHex_hexUnits (value : Nat) : isHex (hexUnits value) = true := by
  obtain ⟨digits, filled, below, -, units⟩ := hexUnits_spec value
  have table : ∀ digit < 16, isHexUnit (hexDigit digit) = true := by decide
  rw [units, isHex, Bool.and_eq_true, List.all_eq_true]
  refine ⟨?_, ?_⟩
  · cases digits with
    | nil => exact absurd rfl filled
    | cons digit rest => rfl
  · intro unit member
    obtain ⟨digit, inside, rfl⟩ := List.mem_map.mp member
    exact table digit (below digit inside)

theorem newSessionTimeData_eq (currentTimeMillis nanoTime : Int64) :
    newSessionTimeData currentTimeMillis nanoTime =
      toHexString currentTimeMillis ++ dash :: toHexString nanoTime := by
  simp [newSessionTimeData, List.intercalate]

theorem sessionId_eq (purpose timeData : Units) :
    sessionId purpose timeData = purpose ++ dash :: timeData := by
  simp [sessionId, List.intercalate]

section Session

variable {purpose extension : Units}

private theorem slash_notMem_file (plain : slash ∉ purpose) (ends : IsExtension extension)
    (millis nanos : Int64) :
    slash ∉ sessionId purpose (newSessionTimeData millis nanos) ++ extension := by
  obtain ⟨letters, rfl, -, letterPlain⟩ := ends
  have free (value : Int64) : slash ∉ toHexString value :=
    notMem_of_isHex (by decide) (isHex_hexUnits _)
  have others : slash ≠ dash ∧ slash ≠ dot := by decide
  simp only [sessionId_eq, newSessionTimeData_eq, List.mem_append, List.mem_cons, not_or]
  exact ⟨⟨plain, others.1, free _, others.1, free _⟩, others.2, letterPlain⟩

theorem baseName_sessionId (plain : slash ∉ purpose) (ends : IsExtension extension)
    (millis nanos : Int64) :
    baseName (sessionId purpose (newSessionTimeData millis nanos) ++ extension) =
      sessionId purpose (newSessionTimeData millis nanos) := by
  have plainName := slash_notMem_file plain ends millis nanos
  obtain ⟨letters, rfl, last, -⟩ := ends
  exact baseName_cut (by rw [sessionId_eq]; simp) last plainName

/-- The key of a session's file is its time data, whatever its purpose. -/
theorem extractTimeData_sessionId (plain : slash ∉ purpose) (ends : IsExtension extension)
    (millis nanos : Int64) :
    extractTimeData (sessionId purpose (newSessionTimeData millis nanos) ++ extension) =
      some (newSessionTimeData millis nanos) := by
  rw [extractTimeData_eq_some_iff, baseName_sessionId plain ends]
  exact ⟨purpose, toHexString millis, toHexString nanos,
    by rw [sessionId_eq, newSessionTimeData_eq], isHex_hexUnits _, isHex_hexUnits _,
    newSessionTimeData_eq ..⟩

end Session

section Search

variable {names : ResultType → List Units} {source found : ResultFile} {directory : ResultType}

theorem findFirstTimeMatch_found (result : findFirstTimeMatch names source directory = some found) :
    found.directory = directory ∧ found.name ∈ names directory ∧
      ∃ key, extractTimeData source.name = some key ∧ extractTimeData found.name = some key := by
  unfold findFirstTimeMatch at result
  split at result
  · cases result
  · rename_i key own
    obtain ⟨name, first, rfl⟩ := Option.map_eq_some_iff.mp result
    have member := List.mem_mergeSort.mp (List.mem_of_head? first)
    obtain ⟨inside, same⟩ := List.mem_filter.mp member
    rw [Bool.and_eq_true, beq_iff_eq] at same
    exact ⟨rfl, inside, key, own, same.2⟩

theorem isExtension_extension (directory : ResultType) : IsExtension directory.extension := by
  cases directory with
  | json => exact ⟨ofString "json", by decide, by decide, by decide⟩
  | text => exact ⟨ofString "txt", by decide, by decide, by decide⟩
  | audio => exact ⟨ofString "wav", by decide, by decide, by decide⟩

/-- Whatever is found for a file of a session is of that session. -/
theorem sameNameOrTime_session {purpose extension : Units} {millis nanos : Int64}
    (plain : slash ∉ purpose) (ends : IsExtension extension)
    (own : source.name = sessionId purpose (newSessionTimeData millis nanos) ++ extension)
    (result : sameNameOrTime names source directory = some found) :
    extractTimeData found.name = some (newSessionTimeData millis nanos) := by
  unfold sameNameOrTime at result
  dsimp only at result
  rw [own, baseName_sessionId plain ends] at result
  split at result
  · cases result
    exact extractTimeData_sessionId plain (isExtension_extension directory) millis nanos
  · obtain ⟨-, -, key, same, other⟩ := findFirstTimeMatch_found result
    rw [own, extractTimeData_sessionId plain ends] at same
    rw [other, same]

end Search

end TranscriptionResultRepository

end LocalWhisper.ResultUI
