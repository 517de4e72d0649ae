import Mathlib.Algebra.Order.Ring.Int
import Mathlib.Order.Lattice

/-!
# Zones

A zone is a piecewise constant offset. Its clock skips or repeats wall times at a
change, and each change is over on the clock before the next one begins. A fold
flag says which of two offsets a skipped or repeated wall time is read with.
-/

namespace ParishKit.Lib

/-- The offset in force from an instant on. -/
structure OffsetChange where
  instant : Int
  offset : Int
deriving DecidableEq, Repr

/-- What a change skips or repeats ends on the clock before the next change. -/
def WallsOrdered : Int → List OffsetChange → Prop
  | _, [] => True
  | before, change :: rest =>
      (∀ next ∈ rest.head?, change.instant + max before change.offset ≤
        next.instant + min change.offset next.offset) ∧
      WallsOrdered change.offset rest

structure Zone where
  initial : Int
  changes : List OffsetChange
  ordered : WallsOrdered initial changes

/-- The offset at an instant: that of the last change up to it. -/
def offsetAt : Int → List OffsetChange → Int → Int
  | before, [], _ => before
  | before, change :: rest, instant =>
      if instant < change.instant then before
      else offsetAt change.offset rest instant

/-- What a clock shows at an instant. -/
def clockAt (before : Int) (changes : List OffsetChange) (instant : Int) : Int :=
  instant + offsetAt before changes instant

/-- The offset a wall time is read with. A wall time that a change skips or
repeats has the offset before it, and with the fold the one after it. -/
def wallOffset (fold : Bool) : Int → List OffsetChange → Int → Int
  | before, [], _ => before
  | before, change :: rest, wall =>
      if wall < change.instant +
          (if fold then min before change.offset else max before change.offset)
      then before
      else wallOffset fold change.offset rest wall

namespace Zone

/-- What the clock shows at an instant. -/
def clock (zone : Zone) (instant : Int) : Int :=
  clockAt zone.initial zone.changes instant

/-- The instant a wall time stands for. -/
def instant (zone : Zone) (fold : Bool) (wall : Int) : Int :=
  wall - wallOffset fold zone.initial zone.changes wall

/-- The first instant at which the clock shows a wall time or a later one. -/
def FirstShown (zone : Zone) (wall instant : Int) : Prop :=
  wall ≤ zone.clock instant ∧ ∀ earlier < instant, zone.clock earlier < wall

theorem FirstShown.unique
    {zone : Zone} {wall first second : Int}
    (isFirst : zone.FirstShown wall first)
    (isSecond : zone.FirstShown wall second) : first = second := by
  rcases lt_trichotomy first second with less | same | more
  · exact absurd isFirst.1 (Int.not_le.mpr (isSecond.2 first less))
  · exact same
  · exact absurd isSecond.1 (Int.not_le.mpr (isFirst.2 second more))

theorem FirstShown.mono
    {zone : Zone} {wall later first second : Int} (le : wall ≤ later)
    (isFirst : zone.FirstShown wall first)
    (isSecond : zone.FirstShown later second) : first ≤ second := by
  by_contra less
  have early := isFirst.2 second (Int.not_le.mp less)
  have shown := isSecond.1
  omega

/-- Once the clock has shown a wall time, its first instant has passed. -/
theorem FirstShown.le_of_shown
    {zone : Zone} {wall first instant : Int}
    (isFirst : zone.FirstShown wall first) (shown : wall ≤ zone.clock instant) :
    first ≤ instant := by
  by_contra later
  have early := isFirst.2 instant (Int.not_le.mp later)
  omega

end Zone

/-! ## Reading a wall time -/

theorem WallsOrdered.head
    {before : Int} {change next : OffsetChange} {rest : List OffsetChange}
    (ordered : WallsOrdered before (change :: next :: rest)) :
    change.instant + max before change.offset ≤
      next.instant + min change.offset next.offset :=
  ordered.1 next rfl

/-- From a change on, the clock shows nothing before the change's own time. -/
theorem le_clock_of_change
    {before : Int} {change : OffsetChange} {rest : List OffsetChange}
    (ordered : WallsOrdered before (change :: rest)) {instant : Int}
    (since : change.instant ≤ instant) :
    change.instant + change.offset ≤ clockAt change.offset rest instant := by
  induction rest generalizing before change with
  | nil =>
      rw [clockAt, offsetAt]
      omega
  | cons next rest inductionHypothesis =>
      rw [clockAt, offsetAt]
      split
      · omega
      · rename_i reached
        have later := inductionHypothesis ordered.2 (Int.not_lt.mp reached)
        have apart := ordered.head
        unfold clockAt at later
        omega

/-- Before a change is over on the clock, the offset after it is in force. -/
theorem offsetAt_before_next
    {before : Int} {change : OffsetChange} {rest : List OffsetChange}
    (ordered : WallsOrdered before (change :: rest)) {instant : Int}
    (early : instant < change.instant) :
    offsetAt change.offset rest instant = change.offset := by
  cases rest with
  | nil => rfl
  | cons next rest =>
      have apart := ordered.head
      rw [offsetAt, if_pos (by omega)]

theorem wallOffset_before_next
    {before : Int} {change : OffsetChange} {rest : List OffsetChange}
    (ordered : WallsOrdered before (change :: rest)) (fold : Bool) {wall : Int}
    (early : wall < change.instant + max before change.offset) :
    wallOffset fold change.offset rest wall = change.offset := by
  cases rest with
  | nil => rfl
  | cons next rest =>
      have apart := ordered.head
      rw [wallOffset, if_pos]
      split <;> omega

/-- How a wall time is read: it is first shown at its instant without the fold,
or no clock shows it and the two instants lie on the two sides of a change. -/
def ReadAs (clock : Int → Int) (wall first second : Int) : Prop :=
  (clock first = wall ∧ first ≤ second ∧
      ∀ earlier < first, clock earlier < wall) ∨
    (second < first ∧ ∃ change, second < change ∧ change ≤ first ∧
      (∀ instant < change, clock instant < wall) ∧
      ∀ instant, change ≤ instant → wall < clock instant)

/-- A wall time after a change is read as the changes after it have it. -/
theorem readAs_after_change
    {before : Int} {change : OffsetChange} {rest : List OffsetChange}
    (ordered : WallsOrdered before (change :: rest)) {wall first second : Int}
    (after : change.instant + max before change.offset ≤ wall)
    (isRead : ReadAs (clockAt change.offset rest) wall first second) :
    ReadAs (clockAt before (change :: rest)) wall first second := by
  have past : ∀ instant, change.instant ≤ instant →
      clockAt before (change :: rest) instant =
        clockAt change.offset rest instant := by
    intro instant since
    rw [clockAt, offsetAt, if_neg (Int.not_lt.mpr since), clockAt]
  have early : ∀ instant, instant < change.instant →
      clockAt before (change :: rest) instant < wall ∧
        clockAt change.offset rest instant < wall := by
    intro instant less
    rw [clockAt, offsetAt, if_pos less, clockAt,
      offsetAt_before_next ordered less]
    omega
  rcases isRead with ⟨shown, le, isFirst⟩ | ⟨less, at', lower, upper, sooner, later⟩
  · left
    have since : change.instant ≤ first := by
      by_contra before
      have tooEarly := (early first (Int.not_le.mp before)).2
      omega
    refine ⟨(past first since).trans shown, le, ?_⟩
    intro earlier isEarlier
    by_cases sinceChange : change.instant ≤ earlier
    · rw [past earlier sinceChange]
      exact isFirst earlier isEarlier
    · exact (early earlier (Int.not_le.mp sinceChange)).1
  · right
    have since : change.instant ≤ at' := by
      by_contra before
      have shown := later at' (Int.le_refl _)
      have tooEarly := (early at' (Int.not_le.mp before)).2
      omega
    refine ⟨less, at', lower, upper, ?_, ?_⟩
    · intro instant isEarlier
      by_cases sinceChange : change.instant ≤ instant
      · rw [past instant sinceChange]
        exact sooner instant isEarlier
      · exact (early instant (Int.not_le.mp sinceChange)).1
    · intro instant isLater
      rw [past instant (by omega)]
      exact later instant isLater

/-- A wall time that a change skips or repeats has an instant on each side. -/
theorem readAs_at_change
    {before : Int} {change : OffsetChange} {rest : List OffsetChange}
    (ordered : WallsOrdered before (change :: rest)) {wall : Int}
    (begun : change.instant + min before change.offset ≤ wall)
    (early : wall < change.instant + max before change.offset) :
    ReadAs (clockAt before (change :: rest)) wall (wall - before)
      (wall - change.offset) := by
  by_cases repeats : change.offset ≤ before
  · left
    have isBefore : wall - before < change.instant := by omega
    refine ⟨?_, by omega, fun earlier less => ?_⟩
    · rw [clockAt, offsetAt, if_pos isBefore]
      omega
    · rw [clockAt, offsetAt, if_pos (by omega)]
      omega
  · right
    refine ⟨by omega, change.instant, by omega, by omega, ?_, ?_⟩
    · intro instant less
      rw [clockAt, offsetAt, if_pos less]
      omega
    · intro instant since
      have shown := le_clock_of_change ordered since
      rw [clockAt, offsetAt, if_neg (Int.not_lt.mpr since)]
      rw [clockAt] at shown
      omega

theorem readAs_wallOffset
    {before : Int} {changes : List OffsetChange}
    (ordered : WallsOrdered before changes) (wall : Int) :
    ReadAs (clockAt before changes) wall
      (wall - wallOffset false before changes wall)
      (wall - wallOffset true before changes wall) := by
  induction changes generalizing before with
  | nil =>
      simp only [ReadAs, clockAt, offsetAt, wallOffset]
      exact Or.inl ⟨by omega, Int.le_refl _, fun earlier less => by omega⟩
  | cons change rest inductionHypothesis =>
      simp only [wallOffset, if_true, Bool.false_eq_true, if_false]
      by_cases before' : wall < change.instant + min before change.offset
      · -- The change has not begun: the clock is still regular.
        rw [if_pos before', if_pos (by omega)]
        left
        refine ⟨?_, Int.le_refl _, fun earlier less => ?_⟩
        · rw [clockAt, offsetAt, if_pos (by omega)]
          omega
        · rw [clockAt, offsetAt, if_pos (by omega)]
          omega
      · rw [if_neg before']
        by_cases early : wall < change.instant + max before change.offset
        · rw [if_pos early, wallOffset_before_next ordered true early]
          exact readAs_at_change ordered (Int.not_lt.mp before') early
        · rw [if_neg early]
          exact readAs_after_change ordered (Int.not_lt.mp early)
            (inductionHypothesis ordered.2)

/-- Where the offset is not that of the instant before, it changes. -/
theorem exists_change
    {before : Int} {changes : List OffsetChange} {instant : Int}
    (jumps : offsetAt before changes (instant - 1) ≠
      offsetAt before changes instant) :
    ∃ change ∈ changes, change.instant = instant := by
  induction changes generalizing before with
  | nil => exact absurd rfl jumps
  | cons change rest inductionHypothesis =>
      by_cases here : change.instant = instant
      · exact ⟨change, List.mem_cons_self, here⟩
      · simp only [offsetAt] at jumps
        by_cases early : instant < change.instant
        · rw [if_pos early, if_pos (by omega)] at jumps
          exact absurd rfl jumps
        · rw [if_neg early, if_neg (by omega)] at jumps
          obtain ⟨found, member, isThere⟩ := inductionHypothesis jumps
          exact ⟨found, List.mem_cons_of_mem _ member, isThere⟩

/-- Every wall time of a zone is read. -/
theorem Zone.readAs (zone : Zone) (wall : Int) :
    ReadAs zone.clock wall (zone.instant false wall) (zone.instant true wall) :=
  readAs_wallOffset zone.ordered wall

/-! ## Changes that are far apart -/

/-- No change is larger than `size`, and the next one is later than `apart` after
it. -/
def Spaced (size apart : Int) : Int → List OffsetChange → Prop
  | _, [] => True
  | before, change :: rest =>
      change.offset - before ≤ size ∧ before - change.offset ≤ size ∧
        (∀ next ∈ rest.head?, change.instant + apart < next.instant) ∧
        Spaced size apart change.offset rest

section

variable {size apart before : Int} {changes : List OffsetChange}

theorem Spaced.wallsOrdered
    (far : size + size ≤ apart) (spaced : Spaced size apart before changes) :
    WallsOrdered before changes := by
  induction changes generalizing before with
  | nil => trivial
  | cons change rest inductionHypothesis =>
      obtain ⟨upper, lower, isApart, restSpaced⟩ := spaced
      refine ⟨fun next isNext => ?_, inductionHypothesis restSpaced⟩
      cases rest with
      | nil => cases isNext
      | cons head tail =>
          cases isNext
          have later := isApart _ rfl
          obtain ⟨nextUpper, nextLower, _⟩ := restSpaced
          omega

/-- The two offsets a wall time is read with are not further apart than a change
is large. -/
theorem Spaced.wallOffset_near
    (far : size + size ≤ apart) (nonneg : 0 ≤ size)
    (spaced : Spaced size apart before changes) (wall : Int) :
    wallOffset true before changes wall - wallOffset false before changes wall ≤
        size ∧
      wallOffset false before changes wall - wallOffset true before changes wall ≤
        size := by
  induction changes generalizing before with
  | nil => exact ⟨by simpa [wallOffset] using nonneg, by simpa [wallOffset] using nonneg⟩
  | cons change rest inductionHypothesis =>
      have ordered := spaced.wallsOrdered far
      obtain ⟨upper, lower, _, restSpaced⟩ := spaced
      simp only [wallOffset, if_true, Bool.false_eq_true, if_false]
      by_cases early : wall < change.instant + max before change.offset
      · rw [if_pos early, wallOffset_before_next ordered true early]
        split <;> omega
      · rw [if_neg early, if_neg (by omega)]
        exact inductionHypothesis restSpaced

/-- Between two instants that are not further apart than changes are, the offset
changes at most once. -/
theorem Spaced.changes_once
    (spaced : Spaced size apart before changes) (first last : Int)
    (near : last ≤ first + apart) :
    ∃ turn, ∀ instant, first ≤ instant → instant ≤ last →
      (instant < turn →
        offsetAt before changes instant = offsetAt before changes first) ∧
      (turn ≤ instant →
        offsetAt before changes instant = offsetAt before changes last) := by
  induction changes generalizing before with
  | nil => exact ⟨first, fun instant _ _ => ⟨fun _ => rfl, fun _ => rfl⟩⟩
  | cons change rest inductionHypothesis =>
      obtain ⟨_, _, isApart, restSpaced⟩ := spaced
      simp only [offsetAt]
      by_cases unchanged : last < change.instant
      · refine ⟨first, fun instant lower upper => ⟨fun _ => ?_, fun _ => ?_⟩⟩
        · rw [if_pos (by omega), if_pos (by omega)]
        · rw [if_pos (by omega), if_pos unchanged]
      by_cases changed : change.instant ≤ first
      · obtain ⟨turn, isTurn⟩ := inductionHypothesis restSpaced
        refine ⟨turn, fun instant lower upper => ?_⟩
        rw [if_neg (by omega), if_neg (by omega), if_neg unchanged]
        exact isTurn instant lower upper
      · -- The change is between the two, so the next one is not.
        have settled : ∀ instant, instant ≤ last →
            offsetAt change.offset rest instant = change.offset := by
          intro instant upper
          cases rest with
          | nil => rfl
          | cons next others =>
              have later := isApart next rfl
              rw [offsetAt, if_pos (by omega)]
        refine ⟨change.instant, fun instant lower upper =>
          ⟨fun early => ?_, fun late => ?_⟩⟩
        · rw [if_pos early, if_pos (by omega)]
        · rw [if_neg (by omega), if_neg unchanged, settled instant upper,
            settled last (Int.le_refl _)]

end

end ParishKit.Lib
