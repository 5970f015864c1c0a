import Mathlib.Data.List.Basic
import Mathlib.Data.List.Pairwise

/-! A detector that begins to hold at a loud signal and lets go only after a long
silence, but then from the beginning of that silence on. -/

namespace LocalWhisper.Machine

inductive Signal where
  | loud
  | quiet
  | between
  deriving DecidableEq, Repr

/-- What is held: since which loud signal, and since when it is quiet. -/
structure Held where
  start : Nat
  since : Option Nat
  deriving DecidableEq, Repr

/-- The runs that are over and the one that is not. -/
structure Detector where
  runs : List (Nat × Nat)
  held : Option Held
  deriving DecidableEq, Repr

namespace Detector

/-- The signal with number `index`; `long since index` says whether a silence from
`since` to `index` ends a run. -/
def step (long : Nat → Nat → Bool) (detector : Detector) (index : Nat) (signal : Signal) :
    Detector :=
  match detector.held with
  | none => if signal = .loud then ⟨detector.runs, some ⟨index, none⟩⟩ else detector
  | some held =>
    match signal with
    | .loud => ⟨detector.runs, some ⟨held.start, none⟩⟩
    | .between => detector
    | .quiet =>
      let since := held.since.getD index
      if long since index then ⟨detector.runs ++ [(held.start, since)], none⟩
      else ⟨detector.runs, some ⟨held.start, some since⟩⟩

def steps (long : Nat → Nat → Bool) : Nat → List Signal → Detector → Detector
  | _, [], detector => detector
  | index, signal :: rest, detector =>
    steps long (index + 1) rest (detector.step long index signal)

/-- A run that is still held lasts to the end. -/
def finish (detector : Detector) (length : Nat) : List (Nat × Nat) :=
  match detector.held with
  | none => detector.runs
  | some held => detector.runs ++ [(held.start, length)]

def detect (long : Nat → Nat → Bool) (signals : List Signal) : List (Nat × Nat) :=
  (steps long 0 signals ⟨[], none⟩).finish signals.length

end Detector

section Meaning

variable (long : Nat → Nat → Bool) (signals : List Signal)

def LongQuiet (since : Nat) : Prop :=
  signals[since]? = some .quiet ∧ ∃ index, since ≤ index ∧ signals[index]? = some .quiet ∧
    long since index = true ∧
    ∀ middle, since < middle → middle ≤ index → signals[middle]? ≠ some .loud

/-- There was a loud signal and since then no silence has begun that ends a run. -/
def IsHeld (index : Nat) : Prop :=
  ∃ start ≤ index, signals[start]? = some .loud ∧
    ∀ since, start < since → since ≤ index → ¬ LongQuiet long signals since

end Meaning

variable {long : Nat → Nat → Bool} {signals : List Signal}

/-- A long silence after the first run begins before the second one. -/
def Precedes (long : Nat → Nat → Bool) (earlier later : Nat × Nat) : Prop :=
  ∃ index < later.1, earlier.2 ≤ index ∧ long earlier.2 index = true

/-- The runs before `next`, and a long silence after each of them. -/
structure Apart (long : Nat → Nat → Bool) (next : Nat) (runs : List (Nat × Nat)) : Prop where
  forward : ∀ run ∈ runs, run.1 < run.2
  ended : ∀ run ∈ runs, ∃ index < next, run.2 ≤ index ∧ long run.2 index = true
  between : runs.Pairwise (Precedes long)

theorem Apart.later {next after : Nat} {runs : List (Nat × Nat)} (apart : Apart long next runs)
    (bound : next ≤ after) : Apart long after runs where
  forward := apart.forward
  ended run member := by
    obtain ⟨index, before, holds⟩ := apart.ended run member
    exact ⟨index, Nat.lt_of_lt_of_le before bound, holds⟩
  between := apart.between

theorem Apart.append {start finish next : Nat} {runs : List (Nat × Nat)}
    (apart : Apart long start runs) (forward : start < finish) (bound : finish ≤ next)
    (isLong : long finish next = true) : Apart long (next + 1) (runs ++ [(start, finish)]) where
  forward run member := by
    rcases List.mem_append.mp member with earlier | last
    · exact apart.forward run earlier
    · obtain rfl := List.mem_singleton.mp last
      exact forward
  ended run member := by
    rcases List.mem_append.mp member with earlier | last
    · obtain ⟨index, before, holds⟩ := apart.ended run earlier
      exact ⟨index, by omega, holds⟩
    · obtain rfl := List.mem_singleton.mp last
      exact ⟨next, Nat.lt_succ_self next, bound, isLong⟩
  between := by
    refine List.pairwise_append.mpr ⟨apart.between, List.pairwise_singleton _ _, ?_⟩
    intro earlier member last lastIs
    obtain rfl := List.mem_singleton.mp lastIs
    exact apart.ended earlier member

/-- What is known of the signals before number `next` while a run is held: the silence
since the last loud one, which begins at `quietFrom` if at all, is not long yet. -/
structure Holds (long : Nat → Nat → Bool) (signals : List Signal) (next start quietFrom : Nat) :
    Prop where
  loud : signals[start]? = some .loud
  inside : quietFrom ≤ next
  last : ∃ last, start ≤ last ∧ last < quietFrom ∧
    (∀ index, last < index → index < quietFrom → signals[index]? ≠ some .quiet) ∧
    ∀ index, start < index → index ≤ last → ¬ LongQuiet long signals index
  silent : ∀ index, quietFrom ≤ index → index < next → signals[index]? ≠ some .loud
  short : ∀ index, quietFrom ≤ index → index < next → signals[index]? = some .quiet →
    long quietFrom index = false

/-- What the detector knows before the signal with number `next`. -/
structure Tracks (long : Nat → Nat → Bool) (signals : List Signal) (next : Nat)
    (detector : Detector) : Prop where
  covers : ∀ index, index < ((detector.held.map Held.start).getD next) →
    (IsHeld long signals index ↔ ∃ run ∈ detector.runs, run.1 ≤ index ∧ index < run.2)
  apart : Apart long ((detector.held.map Held.start).getD next) detector.runs
  idle : detector.held = none → ∀ index < next, signals[index]? = some .loud →
    ∃ since, index < since ∧ since < next ∧ LongQuiet long signals since
  held : ∀ held, detector.held = some held →
    held.start < next ∧ Holds long signals next held.start (held.since.getD next) ∧
      ∀ since, held.since = some since → since < next ∧ signals[since]? = some .quiet

def Shrinks (long : Nat → Nat → Bool) : Prop :=
  ∀ first second index, first ≤ second → long second index = true → long first index = true

private theorem tracks_start : Tracks long signals 0 ⟨[], none⟩ where
  covers index inside := absurd inside (Nat.not_lt_zero index)
  apart := ⟨nofun, nofun, .nil⟩
  idle _ index inside := absurd inside (Nat.not_lt_zero index)
  held := nofun

theorem Holds.loudNext {next start quietFrom : Nat} (shrinks : Shrinks long)
    (holds : Holds long signals next start quietFrom) (here : signals[next]? = some .loud)
    (after : start < next) : Holds long signals (next + 1) start (next + 1) where
  loud := holds.loud
  inside := Nat.le_refl _
  last := by
    obtain ⟨last, _, _, noQuiet, noLong⟩ := holds.last
    refine ⟨next, Nat.le_of_lt after, Nat.lt_succ_self next, by intro index; omega, ?_⟩
    intro index above below longQuiet
    rcases Nat.lt_or_ge last index with beyond | within
    · obtain ⟨quiet, finish, bound, quietThere, isLong, silent⟩ := longQuiet
      rcases Nat.lt_or_ge index quietFrom with early | late
      · exact noQuiet index beyond early quiet
      · -- The silence would be over before the loud signal, but it is not long there.
        have before : finish < next := by
          rcases Nat.lt_or_ge finish next with before | reaches
          · exact before
          · rcases Nat.lt_or_eq_of_le below with less | same
            · exact absurd here (silent next less reaches)
            · rw [same, here] at quiet
              cases quiet
        have short := holds.short finish (Nat.le_trans late bound) before quietThere
        rw [shrinks _ _ _ late isLong] at short
        cases short
    · exact noLong index above within longQuiet
  silent index above below := by omega
  short index above below := by omega

theorem Holds.undecided {next start : Nat} (holds : Holds long signals next start next)
    (here : signals[next]? = some .between) :
    Holds long signals (next + 1) start (next + 1) where
  loud := holds.loud
  inside := Nat.le_refl _
  last := by
    obtain ⟨last, above, below, noQuiet, noLong⟩ := holds.last
    refine ⟨last, above, Nat.lt_succ_of_lt below, ?_, noLong⟩
    intro index after before
    rcases Nat.lt_succ_iff_lt_or_eq.mp before with early | rfl
    · exact noQuiet index after early
    · simp [here]
  silent index above below := by omega
  short index above below := by omega

theorem Holds.quietStill {next start quietFrom : Nat}
    (holds : Holds long signals next start quietFrom) (notLoud : signals[next]? ≠ some .loud)
    (short : signals[next]? = some .quiet → long quietFrom next = false) :
    Holds long signals (next + 1) start quietFrom where
  loud := holds.loud
  inside := Nat.le_succ_of_le holds.inside
  last := holds.last
  silent index above below := by
    rcases Nat.lt_succ_iff_lt_or_eq.mp below with early | rfl
    · exact holds.silent index above early
    · exact notLoud
  short index above below := by
    rcases Nat.lt_succ_iff_lt_or_eq.mp below with early | rfl
    · exact holds.short index above early
    · exact short

theorem Holds.start_lt {next start quietFrom : Nat}
    (holds : Holds long signals next start quietFrom) : start < quietFrom := by
  obtain ⟨last, above, below, _⟩ := holds.last
  omega

theorem Holds.isHeld_iff {next start quietFrom : Nat}
    (holds : Holds long signals next start quietFrom)
    (longQuiet : LongQuiet long signals quietFrom) {index : Nat} (after : start ≤ index)
    (silent : ∀ middle, quietFrom ≤ middle → middle ≤ index → signals[middle]? ≠ some .loud) :
    IsHeld long signals index ↔ index < quietFrom := by
  constructor
  · rintro ⟨begin, early, loud, stays⟩
    rcases Nat.lt_or_ge index quietFrom with inside | beyond
    · exact inside
    · rcases Nat.lt_or_ge begin quietFrom with within | late
      · exact absurd longQuiet (stays quietFrom within beyond)
      · exact absurd loud (silent begin late early)
  · intro inside
    refine ⟨start, after, holds.loud, fun since above below longSince => ?_⟩
    obtain ⟨last, _, _, noQuiet, noLong⟩ := holds.last
    rcases Nat.lt_or_ge last since with beyond | within
    · exact noQuiet since beyond (Nat.lt_of_le_of_lt below inside) longSince.1
    · exact noLong since above within longSince

theorem Holds.isHeld {next start quietFrom : Nat} (shrinks : Shrinks long)
    (holds : Holds long signals next start quietFrom) (whole : signals.length ≤ next)
    {index : Nat} (after : start ≤ index) : IsHeld long signals index := by
  refine ⟨start, after, holds.loud, fun since above _ longSince => ?_⟩
  obtain ⟨last, _, _, noQuiet, noLong⟩ := holds.last
  rcases Nat.lt_or_ge last since with beyond | within
  · obtain ⟨quiet, finish, bound, quietThere, isLong, _⟩ := longSince
    rcases Nat.lt_or_ge since quietFrom with early | late
    · exact noQuiet since beyond early quiet
    · have before : finish < signals.length := by
        by_contra outside
        rw [List.getElem?_eq_none (by omega)] at quietThere
        cases quietThere
      have short := holds.short finish (Nat.le_trans late bound) (by omega) quietThere
      rw [shrinks _ _ _ late isLong] at short
      cases short
  · exact noLong since above within longSince

namespace Tracks

variable {next start quietFrom : Nat} {runs : List (Nat × Nat)}

theorem begin (tracks : Tracks long signals next ⟨runs, none⟩)
    (here : signals[next]? = some .loud) :
    Tracks long signals (next + 1) ⟨runs, some ⟨next, none⟩⟩ where
  covers := tracks.covers
  apart := tracks.apart
  idle := nofun
  held held isHeld := by
    obtain rfl := Option.some.inj isHeld
    refine ⟨Nat.lt_succ_self next, ⟨here, Nat.le_refl _, ?_, ?_, ?_⟩, nofun⟩
    · simp only [Option.getD_none]
      exact ⟨next, Nat.le_refl _, Nat.lt_succ_self next, by omega, by omega⟩
    · intro index above below
      simp only [Option.getD_none] at above
      omega
    · intro index above below
      simp only [Option.getD_none] at above
      omega

private theorem stayIdle (tracks : Tracks long signals next ⟨runs, none⟩)
    (notLoud : signals[next]? ≠ some .loud) : Tracks long signals (next + 1) ⟨runs, none⟩ where
  covers index inside := by
    rcases Nat.lt_succ_iff_lt_or_eq.mp inside with early | rfl
    · exact tracks.covers index early
    · refine iff_of_false ?_ ?_
      · rintro ⟨begin, bound, loud, stays⟩
        rcases Nat.lt_or_eq_of_le bound with before | rfl
        · obtain ⟨since, after, below, longQuiet⟩ := tracks.idle rfl begin before loud
          exact stays since after (Nat.le_of_lt below) longQuiet
        · exact notLoud loud
      · rintro ⟨run, member, _, below⟩
        obtain ⟨finish, before, bound, _⟩ := tracks.apart.ended run member
        simp only [Option.map_none, Option.getD_none] at before
        omega
  apart := tracks.apart.later (Nat.le_succ next)
  idle _ index below loud := by
    rcases Nat.lt_succ_iff_lt_or_eq.mp below with early | rfl
    · obtain ⟨since, after, before, longQuiet⟩ := tracks.idle rfl index early loud
      exact ⟨since, after, Nat.lt_succ_of_lt before, longQuiet⟩
    · exact absurd loud notLoud
  held := nofun

/-- The run goes on, with what is known now of its silence. -/
theorem stay {since later : Option Nat} (tracks : Tracks long signals next ⟨runs, some ⟨start, since⟩⟩)
    (holds : Holds long signals (next + 1) start (later.getD (next + 1)))
    (seen : ∀ since, later = some since → since < next + 1 ∧ signals[since]? = some .quiet) :
    Tracks long signals (next + 1) ⟨runs, some ⟨start, later⟩⟩ where
  covers := tracks.covers
  apart := tracks.apart
  idle := nofun
  held held isHeld := by
    obtain rfl := Option.some.inj isHeld
    exact ⟨Nat.lt_succ_of_lt (tracks.held _ rfl).1, holds, seen⟩

/-- The run is over at the beginning of a silence that has become long. -/
theorem close {since : Option Nat} (tracks : Tracks long signals next ⟨runs, some ⟨start, since⟩⟩)
    (holds : Holds long signals next start quietFrom)
    (quiet : signals[quietFrom]? = some .quiet) (here : signals[next]? = some .quiet)
    (isLong : long quietFrom next = true) :
    Tracks long signals (next + 1) ⟨runs ++ [(start, quietFrom)], none⟩ := by
  have longQuiet : LongQuiet long signals quietFrom := by
    refine ⟨quiet, next, holds.inside, here, isLong, fun middle above below => ?_⟩
    rcases Nat.lt_or_eq_of_le below with before | rfl
    · exact holds.silent middle (Nat.le_of_lt above) before
    · simp [here]
  have silent : ∀ middle, quietFrom ≤ middle → middle ≤ next → signals[middle]? ≠ some .loud := by
    intro middle above below
    rcases Nat.lt_or_eq_of_le below with before | rfl
    · exact holds.silent middle above before
    · simp [here]
  have forward := holds.start_lt
  have inside := holds.inside
  exact {
    covers := fun index below => by
      simp only [Option.map_none, Option.getD_none] at below
      rcases Nat.lt_or_ge index start with early | late
      · rw [tracks.covers index early]
        simp only [List.mem_append, List.mem_singleton, or_and_right, exists_or, exists_eq_left]
        exact ⟨.inl, fun either => either.resolve_right (by omega)⟩
      · rw [holds.isHeld_iff longQuiet late fun middle above within => silent middle above (by omega)]
        constructor
        · exact fun before => ⟨_, List.mem_append_right _ (List.mem_singleton.mpr rfl), late, before⟩
        · rintro ⟨run, member, above, before⟩
          rcases List.mem_append.mp member with earlier | last
          · obtain ⟨finish, finishBefore, bound, _⟩ := tracks.apart.ended run earlier
            simp only [Option.map_some, Option.getD_some] at finishBefore
            omega
          · obtain rfl := List.mem_singleton.mp last
            exact before
    apart := tracks.apart.append forward inside isLong
    idle := fun _ index below loud => by
      refine ⟨quietFrom, ?_, by omega, longQuiet⟩
      by_contra! above
      exact silent index (by omega) (by omega) loud
    held := nofun }

theorem step (shrinks : Shrinks long) {detector : Detector} {signal : Signal}
    (tracks : Tracks long signals next detector) (here : signals[next]? = some signal) :
    Tracks long signals (next + 1) (detector.step long next signal) := by
  obtain ⟨runs, held⟩ := detector
  cases held with
  | none =>
    simp only [Detector.step]
    split
    · rename_i loud
      exact tracks.begin (loud ▸ here)
    · rename_i notLoud
      exact tracks.stayIdle (by simpa [here] using notLoud)
  | some held =>
    obtain ⟨start, since⟩ := held
    obtain ⟨after, holds, seen⟩ := tracks.held _ rfl
    simp only at after holds seen
    cases signal with
    | loud => exact tracks.stay (holds.loudNext shrinks here after) nofun
    | between =>
      have still : Holds long signals (next + 1) start (since.getD (next + 1)) := by
        cases since with
        | none => exact holds.undecided here
        | some since => exact holds.quietStill (by simp [here]) (by simp [here])
      exact tracks.stay still fun since isSince =>
        ⟨Nat.lt_succ_of_lt (seen since isSince).1, (seen since isSince).2⟩
    | quiet =>
      have quiet : signals[since.getD next]? = some .quiet := by
        cases since with
        | none => exact here
        | some since => exact (seen since rfl).2
      simp only [Detector.step]
      cases isLong : long (since.getD next) next with
      | true => exact tracks.close holds quiet here isLong
      | false =>
        refine tracks.stay (holds.quietStill (by simp [here]) fun _ => isLong) ?_
        intro begun isBegun
        rw [← Option.some.inj isBegun]
        exact ⟨Nat.lt_succ_of_le holds.inside, quiet⟩

theorem steps (shrinks : Shrinks long) {rest : List Signal} {detector : Detector}
    (tracks : Tracks long signals next detector) (suffix : signals.drop next = rest) :
    Tracks long signals (next + rest.length) (Detector.steps long next rest detector) := by
  induction rest generalizing next detector with
  | nil => exact tracks
  | cons signal rest ih =>
    have here : signals[next]? = some signal := by
      rw [← List.head?_drop, suffix, List.head?_cons]
    have later : signals.drop (next + 1) = rest := by
      rw [← List.tail_drop, suffix, List.tail_cons]
    have last := ih (tracks.step shrinks here) later
    rw [List.length_cons, show next + (rest.length + 1) = next + 1 + rest.length by omega]
    exact last

private theorem mem_finish (shrinks : Shrinks long) {detector : Detector}
    (tracks : Tracks long signals signals.length detector) {index : Nat}
    (inside : index < signals.length) :
    (∃ run ∈ detector.finish signals.length, run.1 ≤ index ∧ index < run.2) ↔
      IsHeld long signals index := by
  obtain ⟨runs, held⟩ := detector
  cases held with
  | none => exact (tracks.covers index inside).symm
  | some held =>
    obtain ⟨after, holds, -⟩ := tracks.held _ rfl
    simp only [Detector.finish, List.mem_append, List.mem_singleton, or_and_right, exists_or,
      exists_eq_left]
    rcases Nat.lt_or_ge index held.start with early | late
    · rw [tracks.covers index early]
      exact ⟨fun either => either.resolve_right (by omega), .inl⟩
    · exact iff_of_true (.inr ⟨late, inside⟩) (holds.isHeld shrinks (Nat.le_refl _) late)

theorem finish_forward {detector : Detector} (tracks : Tracks long signals signals.length detector)
    {run : Nat × Nat} (member : run ∈ detector.finish signals.length) :
    run.1 < run.2 ∧ run.2 ≤ signals.length := by
  obtain ⟨runs, held⟩ := detector
  cases held with
  | none =>
    obtain ⟨index, before, bound, _⟩ := tracks.apart.ended run member
    simp only [Option.map_none, Option.getD_none] at before
    exact ⟨tracks.apart.forward run member, by omega⟩
  | some held =>
    have inside := (tracks.held _ rfl).1
    rcases List.mem_append.mp member with earlier | last
    · obtain ⟨index, before, bound, _⟩ := tracks.apart.ended run earlier
      simp only [Option.map_some, Option.getD_some] at before
      exact ⟨tracks.apart.forward run earlier, by omega⟩
    · obtain rfl := List.mem_singleton.mp last
      exact ⟨inside, Nat.le_refl _⟩

theorem finish_apart {detector : Detector} (tracks : Tracks long signals signals.length detector) :
    (detector.finish signals.length).Pairwise (Precedes long) := by
  obtain ⟨runs, held⟩ := detector
  cases held with
  | none => exact tracks.apart.between
  | some held =>
    refine List.pairwise_append.mpr
      ⟨tracks.apart.between, List.pairwise_singleton _ _, fun earlier member last lastIs => ?_⟩
    obtain rfl := List.mem_singleton.mp lastIs
    exact tracks.apart.ended earlier member

end Tracks

theorem tracks_detect (shrinks : Shrinks long) :
    Tracks long signals signals.length (Detector.steps long 0 signals ⟨[], none⟩) := by
  have start : Tracks long signals 0 ⟨[], none⟩ := tracks_start
  have tracks := start.steps shrinks List.drop_zero
  rwa [Nat.zero_add] at tracks

/-- The runs contain the numbers at which a signal is held, and no others. -/
theorem mem_detect (shrinks : Shrinks long) {index : Nat} (inside : index < signals.length) :
    (∃ run ∈ Detector.detect long signals, run.1 ≤ index ∧ index < run.2) ↔
      IsHeld long signals index :=
  (tracks_detect shrinks).mem_finish shrinks inside

/-- No run is empty. -/
theorem detect_forward (shrinks : Shrinks long) {run : Nat × Nat}
    (member : run ∈ Detector.detect long signals) : run.1 < run.2 ∧ run.2 ≤ signals.length :=
  (tracks_detect shrinks).finish_forward member

/-- A long silence lies between two runs. -/
theorem detect_apart (shrinks : Shrinks long) :
    (Detector.detect long signals).Pairwise (Precedes long) :=
  (tracks_detect shrinks).finish_apart

/-- What is held without a break lies in one run. -/
theorem exists_detect_of_held (shrinks : Shrinks long) {first last : Nat} (some : first < last)
    (inside : last ≤ signals.length)
    (held : ∀ index, first ≤ index → index < last → IsHeld long signals index) :
    ∃ run ∈ Detector.detect long signals, run.1 ≤ first ∧ last ≤ run.2 := by
  obtain ⟨run, member, starts, ends⟩ := (mem_detect shrinks (by omega)).mpr
    (held first (Nat.le_refl _) some)
  refine ⟨run, member, starts, ?_⟩
  by_contra short
  -- The first number after the run would lie in another one, too close to it.
  obtain ⟨other, otherMember, otherStarts, otherEnds⟩ := (mem_detect shrinks (by omega)).mpr
    (held run.2 (by omega) (by omega))
  have different : run ≠ other := by
    rintro rfl
    omega
  have symmetric : Std.Symm fun one two : Nat × Nat => Precedes long one two ∨ Precedes long two one :=
    ⟨fun _ _ => Or.symm⟩
  have apart : (Detector.detect long signals).Pairwise fun one two =>
      Precedes long one two ∨ Precedes long two one := (detect_apart shrinks).imp Or.inl
  rcases apart.forall member otherMember different with
    ⟨index, before, bound, _⟩ | ⟨index, before, bound, _⟩ <;> omega

end LocalWhisper.Machine
