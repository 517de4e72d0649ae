import Mathlib.Data.List.Induction
import ParishKit.Source.Compaction

/-!
# The retention policy

The yearly cutoff follows the clock except over a leap day, and then it stays in
the last day of February. What `latest` returns and which snapshots are anchors.
-/

namespace ParishKit.Source

open ParishKit.Lib

/-! ## The yearly cutoff -/

/-- Only February 29 is moved to another day of the month. -/
theorem yearBefore_cases {date : CivilDate} (valid : date.Valid) :
    (yearBefore date).Valid ∧
      (yearBefore date = { date with year := date.year - 1 } ∨
        leapYear date.year = true ∧ date = ⟨date.year, 2, 29⟩ ∧
          yearBefore date = ⟨date.year - 1, 2, 28⟩) := by
  obtain ⟨monthPos, monthLe, dayPos, dayLe⟩ := valid
  unfold yearBefore
  by_cases replaced : ({ date with year := date.year - 1 } : CivilDate).Valid
  · rw [if_pos replaced]
    exact ⟨replaced, Or.inl rfl⟩
  · rw [if_neg replaced]
    have long : daysInMonth (date.year - 1) date.month < date.day := by
      refine Int.not_le.mp fun dayLe => replaced ⟨monthPos, monthLe, dayPos, ?_⟩
      exact dayLe
    have february : date.month = 2 := by
      by_contra other
      have same := daysInMonth_of_ne_two date.year (date.year - 1) monthPos
        monthLe other
      omega
    rw [february, daysInMonth_two] at dayLe long
    have leap : leapYear date.year = true := by
      by_contra common
      rw [if_neg common] at dayLe
      split at long <;> omega
    rw [leapYear_alone leap] at long
    rw [if_pos leap] at dayLe
    have isLast : date.day = 29 := by
      simp only [Bool.false_eq_true, if_false] at long
      omega
    refine ⟨⟨?_, ?_, ?_, ?_⟩, Or.inr ⟨leap, ?_, ?_⟩⟩
    · exact monthPos
    · exact monthLe
    · exact (by decide : (1 : Int) ≤ 28)
    · exact (daysInMonth_bounds (date.year - 1) monthPos monthLe).1
    · cases date
      simp_all
    · rw [february]

/-- A year before keeps the order of the dates; only the two last days of a leap
February meet. -/
theorem yearBefore_before {first second : CivilDate} (firstValid : first.Valid)
    (secondValid : second.Valid) (before : first.Before second) :
    (yearBefore first).Before (yearBefore second) ∨
      yearBefore first = yearBefore second ∧
        yearBefore second = ⟨second.year - 1, 2, 28⟩ ∧
        leapYear second.year = true := by
  obtain ⟨_, firstKept | ⟨firstLeap, isFirst, firstMoved⟩⟩ :=
    yearBefore_cases firstValid
  · obtain ⟨_, secondKept | ⟨secondLeap, isSecond, secondMoved⟩⟩ :=
      yearBefore_cases secondValid
    · left
      rw [firstKept, secondKept]
      unfold CivilDate.Before at before ⊢
      dsimp only
      omega
    · rw [firstKept, secondMoved]
      rw [isSecond] at before
      unfold CivilDate.Before at before ⊢
      dsimp only at before ⊢
      by_cases atEnd : first.year = second.year ∧ first.month = 2 ∧
          first.day = 28
      · obtain ⟨year, month, day⟩ := atEnd
        right
        rw [year, month, day]
        exact ⟨rfl, rfl, secondLeap⟩
      · left
        omega
  · obtain ⟨_, secondKept | ⟨secondLeap, isSecond, secondMoved⟩⟩ :=
      yearBefore_cases secondValid
    · left
      rw [firstMoved, secondKept]
      rw [isFirst] at before
      unfold CivilDate.Before at before ⊢
      dsimp only at before ⊢
      omega
    · left
      rw [firstMoved, secondMoved]
      rw [isFirst, isSecond] at before
      unfold CivilDate.Before at before ⊢
      dsimp only at before ⊢
      omega

/-! ## Cutoffs -/

theorem dayOf_mono {first second : Int} (le : first ≤ second) :
    dayOf first ≤ dayOf second := by
  unfold dayOf dayLength
  omega

/-- The cutoffs of an instant, when it has a year before. -/
theorem retentionCutoffs_eq {now : Int} {cutoffs : Cutoffs}
    (found : retentionCutoffs now = some cutoffs) :
    cutoffs.recent = now - recentRetention ∧
      cutoffs.yearly = ((yearBefore (dateOf now)).ordinal - 1) * dayLength +
        now % dayLength := by
  unfold retentionCutoffs at found
  dsimp only at found
  by_cases early : (dateOf now).year ≤ 1
  · rw [if_pos early] at found
    cases found
  · rw [if_neg early] at found
    cases found
    exact ⟨rfl, rfl⟩

/-- The yearly cutoff moves back only inside the last day of a February of
twenty-eight days. -/
theorem yearly_backwards {first second : Int} {firstCutoffs cutoffs : Cutoffs}
    (le : first ≤ second)
    (firstFound : retentionCutoffs first = some firstCutoffs)
    (found : retentionCutoffs second = some cutoffs) :
    firstCutoffs.yearly ≤ cutoffs.yearly ∨
      ∃ year, leapYear year = false ∧ ∃ february : CivilDate,
        february = ⟨year, 2, 28⟩ ∧ february.Valid ∧
        (february.ordinal - 1) * dayLength ≤ cutoffs.yearly ∧
        firstCutoffs.yearly < february.ordinal * dayLength := by
  have firstYearly := (retentionCutoffs_eq firstFound).2
  have yearly := (retentionCutoffs_eq found).2
  have firstRest := Int.emod_nonneg first (show dayLength ≠ 0 by decide)
  have firstRestLt := Int.emod_lt_of_pos first (show 0 < dayLength by decide)
  have rest := Int.emod_nonneg second (show dayLength ≠ 0 by decide)
  have restLt := Int.emod_lt_of_pos second (show 0 < dayLength by decide)
  have firstValid := civil_valid (dayOf first)
  have secondValid := civil_valid (dayOf second)
  have yearBeforeValid := (yearBefore_cases secondValid).1
  rcases lt_or_eq_of_le (dayOf_mono le) with earlier | same
  · rcases yearBefore_before firstValid secondValid (civil_before earlier) with
      before | ⟨equal, isLast, leap⟩
    · left
      have less := CivilDate.ordinal_lt_of_before
        (yearBefore_cases firstValid).1 yearBeforeValid before
      have isFirst : dateOf first = civil (dayOf first) := rfl
      have isSecond : dateOf second = civil (dayOf second) := rfl
      rw [← isFirst, ← isSecond] at less
      unfold dayLength at *
      omega
    · right
      refine ⟨_, leapYear_alone leap, _, isLast, yearBeforeValid, ?_, ?_⟩
      · rw [yearly]
        unfold dateOf
        omega
      · rw [firstYearly]
        unfold dateOf
        rw [equal]
        unfold dayLength at *
        omega
  · left
    have sameDate : dateOf first = dateOf second := congrArg civil same
    rw [firstYearly, yearly, sameDate]
    unfold dayOf dayLength at *
    omega

/-! ## Anchors -/

variable {Digest : Type}

theorem after_iff (first second : Promotion Digest) :
    first.after second = true ↔
      second.promotedAt < first.promotedAt ∨
        first.promotedAt = second.promotedAt ∧
          second.generation < first.generation := by
  simp [Promotion.after]

/-- One of the promotions, and none is after it. -/
theorem latest_spec (promotions : List (Promotion Digest)) :
    match latest promotions with
    | none => promotions = []
    | some kept => kept ∈ promotions ∧
        ∀ other ∈ promotions, other.after kept = false := by
  induction promotions using List.reverseRecOn with
  | nil => rfl
  | append_singleton before next inductionHypothesis =>
      have isLatest : latest (before ++ [next]) =
          match latest before with
          | none => some next
          | some kept => if next.after kept then some next else some kept := by
        unfold latest
        rw [List.foldl_append]
        rfl
      rw [isLatest]
      cases prior : latest before with
      | none =>
          rw [prior] at inductionHypothesis
          subst inductionHypothesis
          simp [Promotion.after]
      | some kept =>
          rw [prior] at inductionHypothesis
          obtain ⟨member, top⟩ := inductionHypothesis
          dsimp only
          by_cases isAfter : next.after kept = true
          · rw [if_pos isAfter]
            refine ⟨by simp, fun other otherMember => ?_⟩
            rw [Bool.eq_false_iff]
            intro otherAfter
            rcases List.mem_append.mp otherMember with old | new
            · have below := top other old
              rw [Bool.eq_false_iff] at below
              refine below ?_
              rw [after_iff] at *
              omega
            · rw [List.mem_singleton.mp new, after_iff] at otherAfter
              omega
          · rw [if_neg isAfter]
            refine ⟨List.mem_append_left _ member, fun other otherMember => ?_⟩
            rcases List.mem_append.mp otherMember with old | new
            · exact top other old
            · rw [List.mem_singleton.mp new]
              exact Bool.eq_false_iff.mpr isAfter

theorem latest_exists {promotions : List (Promotion Digest)}
    {promotion : Promotion Digest} (member : promotion ∈ promotions) :
    ∃ kept, latest promotions = some kept ∧ kept ∈ promotions ∧
      promotion.after kept = false := by
  have spec := latest_spec promotions
  cases isLatest : latest promotions with
  | none =>
      rw [isLatest] at spec
      subst spec
      cases member
  | some kept =>
      rw [isLatest] at spec
      exact ⟨kept, rfl, spec.1, spec.2 promotion member⟩

/-- The strict latest of its bucket is an anchor. -/
theorem mem_retentionAnchors {stamps : List (Promotion Digest)}
    {cutoffs : Cutoffs} {stamp : Promotion Digest} (member : stamp ∈ stamps)
    (old : stamp.promotedAt < cutoffs.recent)
    (last : ∀ other ∈ stamps, other.promotedAt < cutoffs.recent →
      bucketOf cutoffs.yearly other.promotedAt =
        bucketOf cutoffs.yearly stamp.promotedAt →
      other = stamp ∨ stamp.after other = true) :
    stamp.id ∈ retentionAnchors stamps cutoffs := by
  unfold retentionAnchors
  refine List.mem_filterMap.mpr ⟨stamp, member, ?_⟩
  rw [if_neg (by omega)]
  have inBucket : stamp ∈ stamps.filter fun other =>
      decide (other.promotedAt < cutoffs.recent) &&
        bucketOf cutoffs.yearly other.promotedAt ==
          bucketOf cutoffs.yearly stamp.promotedAt := by
    simpa using ⟨member, old⟩
  obtain ⟨kept, isLatest, keptMember, top⟩ := latest_exists inBucket
  rw [isLatest]
  obtain ⟨inStamps, keptOld, keptBucket⟩ : kept ∈ stamps ∧
      kept.promotedAt < cutoffs.recent ∧
      bucketOf cutoffs.yearly kept.promotedAt =
        bucketOf cutoffs.yearly stamp.promotedAt := by
    simpa using keptMember
  rcases last kept inStamps keptOld keptBucket with same | before
  · rw [same]
    rfl
  · rw [top] at before
    cases before

end ParishKit.Source
