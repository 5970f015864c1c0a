import LocalWhisper.Machine.JavaString

/-! `PreviousContextWordExtractor`: the words that go into the next prompt. -/

namespace LocalWhisper.Transcription.Prompt

open Machine.JavaString

/-- What the platform provides: `Normalizer`, `BreakIterator`, the classes of
characters and `toLowerCase(Locale.ROOT)`. -/
structure TextServices (Locale : Type) where
  normalize : List UInt16 → List UInt16
  japanese : Locale
  root : Locale
  forLanguageTag : List UInt16 → Locale
  isJapaneseScript : Nat → Bool
  isWhitespace : Nat → Bool
  isLetterOrDigit : Nat → Bool
  wordBoundaries : Locale → List UInt16 → List Nat
  toLowerCase : List UInt16 → List UInt16

/-- `selectedOutput`, `seenOutput` and `usedCodePoints`. -/
structure Scan where
  selectedOutput : List (List UInt16) := []
  seenOutput : List (List UInt16) := []
  usedCodePoints : Int := 0

section Select

variable (toLowerCase : List UInt16 → List UInt16) (maxWords maxCodePoints : Int)

/-- One word. It is remembered also where it is too long. -/
def Scan.visit (scan : Scan) (word : List UInt16) : Scan :=
  let comparisonKey := toLowerCase word
  if comparisonKey ∈ scan.seenOutput then scan
  else
    let seen := { scan with seenOutput := comparisonKey :: scan.seenOutput }
    let wordLength := codePointCount word
    let requiredLength : Int := wordLength + if scan.selectedOutput.isEmpty then 0 else 1
    if requiredLength > maxCodePoints - scan.usedCodePoints then seen
    else
      { seen with
        selectedOutput := scan.selectedOutput ++ [word]
        usedCodePoints := scan.usedCodePoints + requiredLength }

/-- The loop, over the words from the last one to the first. -/
def Scan.loop : List (List UInt16) → Scan → Scan
  | [], scan => scan
  | word :: earlier, scan =>
    if scan.selectedOutput.length < maxWords then
      Scan.loop earlier (scan.visit toLowerCase maxCodePoints word)
    else scan

/-- `selectedOutput` after `Collections.reverse`. -/
def selectedWords (words : List (List UInt16)) : List (List UInt16) :=
  (Scan.loop toLowerCase maxWords maxCodePoints words.reverse {}).selectedOutput.reverse

def selectRecentUniqueWords (words : List (List UInt16)) : List UInt16 :=
  joinSpaced (selectedWords toLowerCase maxWords maxCodePoints words)

end Select

section Extract

variable {Locale : Type} (services : TextServices Locale)

def containsLetterOrDigit (value : List UInt16) : Bool :=
  (codePoints value).any services.isLetterOrDigit

def containsJapaneseScript (text : List UInt16) : Bool :=
  (codePoints text).any services.isJapaneseScript

def selectLocale (text : List UInt16) (languageCode : Option (List UInt16)) : Locale :=
  if containsJapaneseScript services text then services.japanese
  else
    match languageCode with
    | none => services.root
    | some code =>
      if (codePoints code).all services.isWhitespace || code == ofString "auto" then services.root
      else services.forLanguageTag code

/-- The loop over the boundaries of the words. -/
def candidates (normalized : List UInt16) : List Nat → List (List UInt16)
  | start :: stop :: later =>
    let candidate := trim ((normalized.take stop).drop start)
    if containsLetterOrDigit services candidate then
      candidate :: candidates normalized (stop :: later)
    else candidates normalized (stop :: later)
  | _ => []

def extractRecentWords (text languageCode : Option (List UInt16))
    (maxWords maxCodePoints : Int) : List UInt16 :=
  match text with
  | none => []
  | some text =>
    if (trim text).isEmpty || maxWords ≤ 0 || maxCodePoints ≤ 0 then []
    else
      let normalized := services.normalize text
      let boundaries := services.wordBoundaries (selectLocale services normalized languageCode)
        normalized
      selectRecentUniqueWords services.toLowerCase maxWords maxCodePoints
        (candidates services normalized boundaries)

end Extract

section Choice

variable (toLowerCase : List UInt16 → List UInt16) (maxWords maxCodePoints : Int)

/-- The word, and a space before other words, fit what the chosen words leave. -/
def Fits (word : List UInt16) (chosen : List (List UInt16)) : Prop :=
  codePointCount word + (if chosen.isEmpty then 0 else 1) ≤
    maxCodePoints - codePointCount (joinSpaced chosen)

instance (word : List UInt16) (chosen : List (List UInt16)) :
    Decidable (Fits maxCodePoints word chosen) :=
  inferInstanceAs (Decidable ((codePointCount word + (if chosen.isEmpty then 0 else 1) : Int) ≤
    maxCodePoints - codePointCount (joinSpaced chosen)))

/-- The reasons to leave a word where the later words gave `chosen`. -/
def Leaves (word : List UInt16) (chosen : List (List UInt16)) : Prop :=
  (∃ other ∈ chosen, toLowerCase other = toLowerCase word) ∨
    ¬ Fits maxCodePoints word chosen ∨ maxWords ≤ chosen.length

instance (word : List UInt16) (chosen : List (List UInt16)) :
    Decidable (Leaves toLowerCase maxWords maxCodePoints word chosen) :=
  inferInstanceAs (Decidable (_ ∨ _ ∨ _))

/-- Every occurrence is chosen or left for one of the reasons. -/
inductive Selection : List (List UInt16) → List (List UInt16) → Prop
  | nil : Selection [] []
  | take {word : List UInt16} {later chosen : List (List UInt16)}
      (rest : Selection later chosen) : Selection (word :: later) (word :: chosen)
  | leave {word : List UInt16} {later chosen : List (List UInt16)}
      (rest : Selection later chosen)
      (reason : Leaves toLowerCase maxWords maxCodePoints word chosen) :
      Selection (word :: later) chosen

/-- The most recent words, as many as there can be. -/
structure MostRecent (words chosen : List (List UInt16)) : Prop where
  inOrder : chosen.Sublist words
  different : chosen.Pairwise fun first second => toLowerCase first ≠ toLowerCase second
  fewEnough : (chosen.length : Int) ≤ maxWords
  shortEnough : (codePointCount (joinSpaced chosen) : Int) ≤ maxCodePoints
  complete : Selection toLowerCase maxWords maxCodePoints words chosen

/-- The scan from the end that remembers the chosen words only. -/
def recentWords : List (List UInt16) → List (List UInt16)
  | [] => []
  | word :: later =>
    if Leaves toLowerCase maxWords maxCodePoints word (recentWords later) then recentWords later
    else word :: recentWords later

variable {toLowerCase maxWords maxCodePoints}

theorem fits_iff (word : List UInt16) (chosen : List (List UInt16)) :
    Fits maxCodePoints word chosen ↔
      (codePointCount (joinSpaced (word :: chosen)) : Int) ≤ maxCodePoints := by
  rw [codePointCount_joinSpaced, Fits]
  push_cast
  generalize (if chosen.isEmpty then (0 : Int) else 1) = space
  omega

theorem not_leaves_iff {word : List UInt16} {chosen : List (List UInt16)} :
    ¬ Leaves toLowerCase maxWords maxCodePoints word chosen ↔
      (∀ other ∈ chosen, toLowerCase word ≠ toLowerCase other) ∧
        (chosen.length : Int) + 1 ≤ maxWords ∧ Fits maxCodePoints word chosen := by
  unfold Leaves
  constructor
  · intro none
    push Not at none
    obtain ⟨different, fits, few⟩ := none
    exact ⟨fun other member same => different other member same.symm, few, fits⟩
  · rintro ⟨different, few, fits⟩ (⟨other, member, same⟩ | long | full)
    · exact different other member same.symm
    · exact long fits
    · omega

theorem Selection.sublist {words chosen : List (List UInt16)}
    (selection : Selection toLowerCase maxWords maxCodePoints words chosen) :
    chosen.Sublist words := by
  induction selection with
  | nil => exact .slnil
  | take _ inductionHypothesis => exact inductionHypothesis.cons_cons _
  | leave _ _ inductionHypothesis => exact inductionHypothesis.cons _

/-- A choice within the limits leaves no word without a reason where it is a word
and a choice within the limits. -/
theorem mostRecent_cons_iff {word : List UInt16} {later chosen : List (List UInt16)} :
    MostRecent toLowerCase maxWords maxCodePoints (word :: later) chosen ↔
      ∃ rest, MostRecent toLowerCase maxWords maxCodePoints later rest ∧
        chosen = if Leaves toLowerCase maxWords maxCodePoints word rest then rest
          else word :: rest := by
  constructor
  · rintro ⟨-, different, few, short, complete⟩
    cases complete with
    | @take _ _ rest complete =>
      have fits := (fits_iff word rest).mpr short
      have kept : ¬ Leaves toLowerCase maxWords maxCodePoints word rest :=
        not_leaves_iff.mpr ⟨(List.pairwise_cons.mp different).1, by simpa using few, fits⟩
      refine ⟨rest, ⟨complete.sublist, (List.pairwise_cons.mp different).2, ?_, ?_, complete⟩,
        (if_neg kept).symm⟩
      · rw [List.length_cons] at few
        omega
      · rw [codePointCount_joinSpaced] at short
        omega
    | leave complete reason =>
      exact ⟨chosen, ⟨complete.sublist, different, few, short, complete⟩, (if_pos reason).symm⟩
  · rintro ⟨rest, ⟨inOrder, different, few, short, complete⟩, rfl⟩
    split
    · next reason =>
      exact ⟨inOrder.cons word, different, few, short, .leave complete reason⟩
    · next kept =>
      obtain ⟨apart, fewer, fits⟩ := not_leaves_iff.mp kept
      exact ⟨inOrder.cons_cons word, List.pairwise_cons.mpr ⟨apart, different⟩,
        by simpa using fewer,
        (fits_iff word rest).mp fits, .take complete⟩

theorem mostRecent_iff (positive : 0 ≤ maxWords ∧ 0 ≤ maxCodePoints)
    {words chosen : List (List UInt16)} :
    MostRecent toLowerCase maxWords maxCodePoints words chosen ↔
      chosen = recentWords toLowerCase maxWords maxCodePoints words := by
  induction words generalizing chosen with
  | nil =>
    constructor
    · intro recent
      exact List.sublist_nil.mp recent.inOrder
    · rintro rfl
      exact ⟨.slnil, .nil, positive.1, positive.2, .nil⟩
  | cons word later inductionHypothesis =>
    rw [mostRecent_cons_iff]
    simp only [inductionHypothesis, exists_eq_left]
    rfl

end Choice

section Remembered

variable (toLowerCase : List UInt16 → List UInt16) (maxWords maxCodePoints : Int)

def reached (words : List (List UInt16)) : Scan :=
  Scan.loop toLowerCase maxWords maxCodePoints words.reverse {}

/-- What the scan knows about the words it has passed. -/
structure Passed (words : List (List UInt16)) (scan : Scan) : Prop where
  used : scan.usedCodePoints = codePointCount (joinSpaced scan.selectedOutput.reverse)
  seen : scan.selectedOutput.length < maxWords →
    ∀ key, key ∈ scan.seenOutput ↔ ∃ word ∈ words, toLowerCase word = key

variable {toLowerCase maxWords maxCodePoints}

private theorem loop_append (first second : List (List UInt16)) (scan : Scan) :
    Scan.loop toLowerCase maxWords maxCodePoints (first ++ second) scan =
      Scan.loop toLowerCase maxWords maxCodePoints second
        (Scan.loop toLowerCase maxWords maxCodePoints first scan) := by
  induction first generalizing scan with
  | nil => rfl
  | cons word rest inductionHypothesis =>
    rw [List.cons_append, Scan.loop, Scan.loop]
    split
    · exact inductionHypothesis _
    · next full =>
      cases second with
      | nil => rfl
      | cons next later => rw [Scan.loop, if_neg full]

theorem reached_cons (word : List UInt16) (later : List (List UInt16)) :
    reached toLowerCase maxWords maxCodePoints (word :: later) =
      if (reached toLowerCase maxWords maxCodePoints later).selectedOutput.length < maxWords then
        (reached toLowerCase maxWords maxCodePoints later).visit toLowerCase maxCodePoints word
      else reached toLowerCase maxWords maxCodePoints later := by
  rw [reached, List.reverse_cons, loop_append, ← reached, Scan.loop]
  rfl

section Visit

variable {scan : Scan}
  (used : scan.usedCodePoints = codePointCount (joinSpaced scan.selectedOutput.reverse))

include used

theorem tooLong_iff (word : List UInt16) :
    (codePointCount word : Int) + (if scan.selectedOutput.isEmpty then 0 else 1) >
        maxCodePoints - scan.usedCodePoints ↔
      ¬ Fits maxCodePoints word scan.selectedOutput.reverse := by
  rw [Fits, used, List.isEmpty_reverse]
  omega

theorem visit_eq (word : List UInt16) :
    scan.visit toLowerCase maxCodePoints word =
      if toLowerCase word ∈ scan.seenOutput then scan
      else if Fits maxCodePoints word scan.selectedOutput.reverse then
        { selectedOutput := scan.selectedOutput ++ [word]
          seenOutput := toLowerCase word :: scan.seenOutput
          usedCodePoints := codePointCount (joinSpaced (word :: scan.selectedOutput.reverse)) }
      else { scan with seenOutput := toLowerCase word :: scan.seenOutput } := by
  have cost : scan.usedCodePoints +
      ((codePointCount word : Int) + if scan.selectedOutput.isEmpty then 0 else 1) =
        codePointCount (joinSpaced (word :: scan.selectedOutput.reverse)) := by
    rw [used, codePointCount_joinSpaced, List.isEmpty_reverse, Int.add_comm]
    push_cast
    rfl
  unfold Scan.visit
  by_cases known : toLowerCase word ∈ scan.seenOutput
  · simp only [if_pos known]
  by_cases fits : Fits maxCodePoints word scan.selectedOutput.reverse
  · have enough := not_not.mpr fits
    rw [← tooLong_iff used] at enough
    simp only [if_neg known, if_neg enough, if_pos fits, cost]
  · simp only [if_neg known, if_pos ((tooLong_iff used word).mpr fits), if_neg fits]

private theorem visit_seen (word key : List UInt16) :
    key ∈ (scan.visit toLowerCase maxCodePoints word).seenOutput ↔
      toLowerCase word = key ∨ key ∈ scan.seenOutput := by
  rw [visit_eq used]
  by_cases known : toLowerCase word ∈ scan.seenOutput
  · rw [if_pos known]
    constructor
    · exact .inr
    · rintro (rfl | before)
      · exact known
      · exact before
  · rw [if_neg known]
    split <;> exact List.mem_cons.trans (or_congr_left eq_comm)

private theorem visit_used (word : List UInt16) :
    (scan.visit toLowerCase maxCodePoints word).usedCodePoints =
      codePointCount
        (joinSpaced (scan.visit toLowerCase maxCodePoints word).selectedOutput.reverse) := by
  rw [visit_eq used]
  split
  · exact used
  split
  · rw [List.reverse_append, List.reverse_singleton, List.singleton_append]
  · exact used

private theorem visit_selected (word : List UInt16) :
    (scan.visit toLowerCase maxCodePoints word).selectedOutput.reverse =
      if toLowerCase word ∉ scan.seenOutput ∧ Fits maxCodePoints word scan.selectedOutput.reverse
        then word :: scan.selectedOutput.reverse else scan.selectedOutput.reverse := by
  rw [visit_eq used]
  by_cases known : toLowerCase word ∈ scan.seenOutput
  · rw [if_pos known, if_neg fun new => new.1 known]
  by_cases fits : Fits maxCodePoints word scan.selectedOutput.reverse
  · rw [if_neg known, if_pos fits, if_pos ⟨known, fits⟩, List.reverse_append,
      List.reverse_singleton, List.singleton_append]
  · rw [if_neg known, if_neg fits, if_neg fun both => fits both.2]

end Visit

/-- The invariant of the loop. -/
theorem passed_reached (toLowerCase : List UInt16 → List UInt16) (maxWords maxCodePoints : Int)
    (words : List (List UInt16)) :
    Passed toLowerCase maxWords words (reached toLowerCase maxWords maxCodePoints words) := by
  induction words with
  | nil => exact ⟨rfl, fun _ key => by simp [reached, Scan.loop]⟩
  | cons word later inductionHypothesis =>
    obtain ⟨used, seen⟩ := inductionHypothesis
    rw [reached_cons]
    split
    · next fewer =>
      refine ⟨visit_used used word, fun _ key => ?_⟩
      rw [visit_seen used, seen fewer]
      simp only [List.mem_cons, exists_eq_or_imp]
    · next full => exact ⟨used, fun fewer => absurd fewer full⟩

theorem selectedWords_cons (word : List UInt16) (later : List (List UInt16)) :
    selectedWords toLowerCase maxWords maxCodePoints (word :: later) =
      if (selectedWords toLowerCase maxWords maxCodePoints later).length < maxWords ∧
          (∀ other ∈ later, toLowerCase other ≠ toLowerCase word) ∧
          Fits maxCodePoints word (selectedWords toLowerCase maxWords maxCodePoints later)
        then word :: selectedWords toLowerCase maxWords maxCodePoints later
        else selectedWords toLowerCase maxWords maxCodePoints later := by
  obtain ⟨used, seen⟩ := passed_reached toLowerCase maxWords maxCodePoints later
  have chosen (words : List (List UInt16)) :
      selectedWords toLowerCase maxWords maxCodePoints words =
        (reached toLowerCase maxWords maxCodePoints words).selectedOutput.reverse := rfl
  rw [chosen, chosen, reached_cons, List.length_reverse]
  by_cases fewer :
      ((reached toLowerCase maxWords maxCodePoints later).selectedOutput.length : Int) < maxWords
  · have new : toLowerCase word ∉ (reached toLowerCase maxWords maxCodePoints later).seenOutput ↔
        ∀ other ∈ later, toLowerCase other ≠ toLowerCase word := by
      rw [seen fewer]
      push Not
      rfl
    rw [if_pos fewer, visit_selected used]
    simp only [new, fewer, true_and]
  · rw [if_neg fewer, if_neg fun few => fewer few.1]

variable (toLowerCase maxWords maxCodePoints)

/-- No word that the scan of the chosen words takes has a later word of its key. -/
def TakesLastOnly (words : List (List UInt16)) : Prop :=
  ∀ word later, word :: later <:+ words →
    recentWords toLowerCase maxWords maxCodePoints (word :: later) =
      word :: recentWords toLowerCase maxWords maxCodePoints later →
    ∀ other ∈ later, toLowerCase other ≠ toLowerCase word

/-- The scan of the chosen words took a word whose key the code has only seen. -/
def Diverged (words : List (List UInt16)) : Prop :=
  ∃ missed ∈ recentWords toLowerCase maxWords maxCodePoints words,
    (∃ other ∈ words, toLowerCase other = toLowerCase missed) ∧
      ∀ chosen ∈ selectedWords toLowerCase maxWords maxCodePoints words,
        toLowerCase chosen ≠ toLowerCase missed

variable {toLowerCase maxWords maxCodePoints}

theorem recentWords_cons (word : List UInt16) (later : List (List UInt16)) :
    recentWords toLowerCase maxWords maxCodePoints (word :: later) =
      if Leaves toLowerCase maxWords maxCodePoints word
          (recentWords toLowerCase maxWords maxCodePoints later)
        then recentWords toLowerCase maxWords maxCodePoints later
        else word :: recentWords toLowerCase maxWords maxCodePoints later := rfl

private theorem recentWords_subset (words : List (List UInt16)) :
    recentWords toLowerCase maxWords maxCodePoints words ⊆ words := by
  induction words with
  | nil => exact List.Subset.refl _
  | cons word later inductionHypothesis =>
    rw [recentWords_cons]
    split
    · exact List.subset_cons_of_subset word inductionHypothesis
    · exact List.cons_subset_cons word inductionHypothesis

theorem takesLastOnly_cons_iff (word : List UInt16) (later : List (List UInt16)) :
    TakesLastOnly toLowerCase maxWords maxCodePoints (word :: later) ↔
      (Leaves toLowerCase maxWords maxCodePoints word
          (recentWords toLowerCase maxWords maxCodePoints later) ∨
        ∀ other ∈ later, toLowerCase other ≠ toLowerCase word) ∧
      TakesLastOnly toLowerCase maxWords maxCodePoints later := by
  constructor
  · intro lastOnly
    refine ⟨?_, fun other rest inside => lastOnly other rest (inside.trans (List.suffix_cons _ _))⟩
    by_cases leaves : Leaves toLowerCase maxWords maxCodePoints word
        (recentWords toLowerCase maxWords maxCodePoints later)
    · exact .inl leaves
    · exact .inr (lastOnly word later (List.suffix_refl _) (if_neg leaves))
  · rintro ⟨here, lastOnly⟩ other rest inside takes
    cases List.suffix_cons_iff.mp inside with
    | inl same =>
      obtain ⟨rfl, rfl⟩ := List.cons.inj same
      refine here.resolve_left fun leaves => ?_
      rw [recentWords_cons, if_pos leaves] at takes
      exact List.cons_ne_self _ _ takes.symm
    | inr within => exact lastOnly other rest within takes

/-- The two scans agree up to the first word that only the scan of the chosen
words takes, and never again. -/
theorem agree_or_diverged (words : List (List UInt16)) :
    (selectedWords toLowerCase maxWords maxCodePoints words =
        recentWords toLowerCase maxWords maxCodePoints words ∧
      TakesLastOnly toLowerCase maxWords maxCodePoints words) ∨
    (Diverged toLowerCase maxWords maxCodePoints words ∧
      ¬ TakesLastOnly toLowerCase maxWords maxCodePoints words) := by
  induction words with
  | nil => exact .inl ⟨rfl, fun word later inside => nomatch List.suffix_nil.mp inside⟩
  | cons word later inductionHypothesis =>
    rw [takesLastOnly_cons_iff]
    rcases inductionHypothesis with ⟨same, lastOnly⟩ | ⟨⟨missed, taken, known, never⟩, not⟩
    · by_cases leaves : Leaves toLowerCase maxWords maxCodePoints word
          (recentWords toLowerCase maxWords maxCodePoints later)
      · refine .inl ⟨?_, .inl leaves, lastOnly⟩
        rw [selectedWords_cons, same, recentWords_cons, if_pos leaves, if_neg]
        rintro ⟨few, apart, fits⟩
        refine not_leaves_iff.mpr ⟨?_, few, fits⟩ leaves
        exact fun other member => (apart other (recentWords_subset later member)).symm
      · obtain ⟨apart, few, fits⟩ := not_leaves_iff.mp leaves
        by_cases last : ∀ other ∈ later, toLowerCase other ≠ toLowerCase word
        · refine .inl ⟨?_, .inr last, lastOnly⟩
          rw [selectedWords_cons, same, recentWords_cons, if_neg leaves, if_pos ⟨few, last, fits⟩]
        · refine .inr ⟨⟨word, ?_, ?_, ?_⟩, fun both => both.1.elim leaves last⟩
          · rw [recentWords_cons, if_neg leaves]
            exact List.mem_cons_self
          · push Not at last
            obtain ⟨other, member, key⟩ := last
            exact ⟨other, List.mem_cons_of_mem _ member, key⟩
          · rw [selectedWords_cons, if_neg fun both => last both.2.1, same]
            exact fun chosen member => (apart chosen member).symm
    · obtain ⟨other, member, key⟩ := known
      refine .inr ⟨⟨missed, ?_, ⟨other, List.mem_cons_of_mem _ member, key⟩, ?_⟩,
        fun both => not both.2⟩
      · rw [recentWords_cons]
        split
        · exact taken
        · exact List.mem_cons_of_mem _ taken
      · rw [selectedWords_cons]
        split
        · next both =>
          intro chosen
          rw [List.mem_cons]
          rintro (rfl | before)
          · exact fun same => both.2.1 other member (key.trans same.symm)
          · exact never chosen before
        · exact never

/-- The words are the most recent ones if and only if no word is chosen, by the
scan that remembers the chosen words only, although a later word has its key. -/
theorem selectRecentUniqueWords_iff {maxWords maxCodePoints : Int} (someWords : 0 < maxWords)
    (someCodePoints : 0 < maxCodePoints) (toLowerCase : List UInt16 → List UInt16)
    (words : List (List UInt16)) :
    selectRecentUniqueWords toLowerCase maxWords maxCodePoints words =
        joinSpaced (selectedWords toLowerCase maxWords maxCodePoints words) ∧
      (MostRecent toLowerCase maxWords maxCodePoints words
          (selectedWords toLowerCase maxWords maxCodePoints words) ↔
        TakesLastOnly toLowerCase maxWords maxCodePoints words) := by
  refine ⟨rfl, ?_⟩
  rw [mostRecent_iff ⟨someWords.le, someCodePoints.le⟩]
  rcases agree_or_diverged words with ⟨same, lastOnly⟩ | ⟨⟨missed, taken, -, never⟩, not⟩
  · exact iff_of_true same lastOnly
  · refine iff_of_false (fun same => ?_) not
    rw [← same] at taken
    exact never missed taken rfl

/-- `toLowerCase(Locale.ROOT)` on Latin letters: the capital I with a dot becomes
an i and a combining dot. -/
def toLowerCaseLatin (text : List UInt16) : List UInt16 :=
  text.flatMap fun unit =>
    if unit = 0x130 then [0x69, 0x307]
    else if 0x41 ≤ unit.toNat ∧ unit.toNat ≤ 0x5A then [unit + 0x20]
    else [unit]

/-- "Whisper", a particle and "whisper". -/
def repeatedWords : List (List UInt16) :=
  [ofString "Whisper", ofString "\u3092", ofString "whisper"]

/-- The last of the two spellings is chosen, and with it the most recent words. -/
theorem selectRecentUniqueWords_iff_repeated :
    selectRecentUniqueWords toLowerCaseLatin 24 100 repeatedWords =
        ofString "\u3092 whisper" ∧
      MostRecent toLowerCaseLatin 24 100 repeatedWords
        (selectedWords toLowerCaseLatin 24 100 repeatedWords) := by
  obtain ⟨joined, recent⟩ := selectRecentUniqueWords_iff (show (0 : Int) < 24 by decide)
    (show (0 : Int) < 100 by decide) toLowerCaseLatin repeatedWords
  have chosen : joinSpaced (selectedWords toLowerCaseLatin 24 100 repeatedWords) =
      ofString "\u3092 whisper" := by decide +kernel
  refine ⟨joined.trans chosen, recent.mpr ?_⟩
  unfold repeatedWords
  simp only [takesLastOnly_cons_iff]
  exact ⟨.inl (by decide +kernel), .inr (by decide +kernel), .inr nofun,
    fun _ _ inside => nomatch List.suffix_nil.mp inside⟩

/-- One code point fits, but its key is that of a later word of two, which does
not. -/
theorem dotted_capital_missed :
    selectRecentUniqueWords toLowerCaseLatin 24 1 [[0x130], [0x69, 0x307]] = [] ∧
      ¬ MostRecent toLowerCaseLatin 24 1 [[0x130], [0x69, 0x307]]
        (selectedWords toLowerCaseLatin 24 1 [[0x130], [0x69, 0x307]]) := by
  refine ⟨by decide, ?_⟩
  rw [mostRecent_iff ⟨by decide, by decide⟩]
  decide

theorem selectedWords_within (positive : 0 ≤ maxWords ∧ 0 ≤ maxCodePoints)
    (words : List (List UInt16)) :
    (selectedWords toLowerCase maxWords maxCodePoints words).Sublist words ∧
      (selectedWords toLowerCase maxWords maxCodePoints words).Pairwise
        (fun first second => toLowerCase first ≠ toLowerCase second) ∧
      ((selectedWords toLowerCase maxWords maxCodePoints words).length : Int) ≤ maxWords ∧
      (codePointCount (selectRecentUniqueWords toLowerCase maxWords maxCodePoints words) : Int) ≤
        maxCodePoints := by
  unfold selectRecentUniqueWords
  induction words with
  | nil => exact ⟨.slnil, .nil, positive.1, positive.2⟩
  | cons word later inductionHypothesis =>
    obtain ⟨inOrder, different, few, short⟩ := inductionHypothesis
    rw [selectedWords_cons]
    split
    · next taken =>
      obtain ⟨fewer, apart, fits⟩ := taken
      refine ⟨inOrder.cons_cons word, List.pairwise_cons.mpr ⟨?_, different⟩, ?_,
        (fits_iff word _).mp fits⟩
      · exact fun other member => (apart other (inOrder.subset member)).symm
      · rw [List.length_cons]
        omega
    · exact ⟨inOrder.cons word, different, few, short⟩

/-- The prompt keeps to the number of characters. -/
theorem codePointCount_extractRecentWords {Locale : Type} (services : TextServices Locale)
    (text languageCode : Option (List UInt16)) (positive : 0 ≤ maxCodePoints) :
    (codePointCount (extractRecentWords services text languageCode maxWords maxCodePoints) : Int) ≤
      maxCodePoints := by
  unfold extractRecentWords
  cases text with
  | none => exact positive
  | some text =>
    dsimp only
    split
    · exact positive
    · next given =>
      simp only [Bool.or_eq_true, decide_eq_true_eq, not_or] at given
      exact (selectedWords_within ⟨by omega, positive⟩ _).2.2.2

private theorem leaves_cons {word first : List UInt16} {chosen : List (List UInt16)}
    (leaves : Leaves toLowerCase maxWords maxCodePoints word chosen) :
    Leaves toLowerCase maxWords maxCodePoints word (first :: chosen) := by
  rcases leaves with ⟨other, member, same⟩ | long | full
  · exact .inl ⟨other, List.mem_cons_of_mem first member, same⟩
  · refine .inr (.inl fun fits => long ?_)
    rw [fits_iff] at fits ⊢
    rw [codePointCount_joinSpaced, codePointCount_joinSpaced, List.isEmpty_cons,
      if_neg Bool.false_ne_true] at fits
    rw [codePointCount_joinSpaced]
    split <;> omega
  · refine .inr (.inr ?_)
    rw [List.length_cons]
    omega

private theorem leaves_of_later {word other : List UInt16} {later : List (List UInt16)}
    (member : other ∈ later) (key : toLowerCase other = toLowerCase word)
    (length : codePointCount other = codePointCount word) :
    Leaves toLowerCase maxWords maxCodePoints word
      (recentWords toLowerCase maxWords maxCodePoints later) := by
  induction later with
  | nil => cases member
  | cons first rest inductionHypothesis =>
    rw [recentWords_cons]
    cases List.mem_cons.mp member with
    | inl here =>
      subst here
      split
      · next leaves =>
        simpa only [Leaves, Fits, key, length] using leaves
      · exact .inl ⟨other, List.mem_cons_self, key⟩
    | inr within =>
      have before := inductionHypothesis within
      split
      · exact before
      · exact leaves_cons before

/-- Only words whose length changes in lower case can be missed. -/
theorem takesLastOnly_of_sameLength {words : List (List UInt16)}
    (sameLength : ∀ word ∈ words, ∀ other ∈ words, toLowerCase other = toLowerCase word →
      codePointCount other = codePointCount word) :
    TakesLastOnly toLowerCase maxWords maxCodePoints words := by
  intro word later inside takes other member key
  have length := sameLength word (inside.subset List.mem_cons_self) other
    (inside.subset (List.mem_cons_of_mem _ member)) key
  rw [recentWords_cons, if_pos (leaves_of_later member key length)] at takes
  exact List.cons_ne_self _ _ takes.symm

end Remembered

end LocalWhisper.Transcription.Prompt
