import Mathlib.Data.List.Nodup
import ParishKit.Lib.Transition
import ParishKit.Source.RetentionPolicy

/-!
# Compaction keeps the final content

A snapshot that every batch so far would have anchored still has its content in
an uncompacted snapshot that is no older. The last snapshot of a day or of a
month is such a snapshot.
-/

namespace ParishKit.Source

open ParishKit.Lib

variable {Digest : Type}

/-! ## Days, months and their last snapshot -/

def inDay (day instant : Int) : Prop :=
  dayOf instant = day

def inMonth (year : Int) (month : Nat) (instant : Int) : Prop :=
  (dateOf instant).year = year ∧ (dateOf instant).month = month

namespace SourceState

/-- The last promotion of a period. -/
def LastIn (state : SourceState Digest) (period : Int → Prop)
    (stamp : Promotion Digest) : Prop :=
  stamp ∈ state.promotions ∧ period stamp.promotedAt ∧
    ∀ other ∈ state.promotions, period other.promotedAt →
      other = stamp ∨ stamp.after other = true

/-- Not old yet, or the last of its bucket. -/
def Anchored (state : SourceState Digest) (cutoffs : Cutoffs)
    (stamp : Promotion Digest) : Prop :=
  stamp.promotedAt < cutoffs.recent →
    ∀ other ∈ state.promotions, other.promotedAt < cutoffs.recent →
      bucketOf cutoffs.yearly other.promotedAt =
        bucketOf cutoffs.yearly stamp.promotedAt →
      other = stamp ∨ stamp.after other = true

/-- Some uncompacted snapshot has the digest of the promotion. -/
def HasContent (state : SourceState Digest) (stamp : Promotion Digest) : Prop :=
  ∃ row ∈ state.snapshots, row.compactedAt = none ∧
    row.promotion.contentDigest = stamp.contentDigest

/-- The content of the last snapshot of each day between the cutoffs, and of
each month before the yearly one. -/
structure KeepsFinalContent (state : SourceState Digest) (cutoffs : Cutoffs) :
    Prop where
  days : ∀ day stamp, (∀ instant, inDay day instant →
    cutoffs.yearly ≤ instant ∧ instant < cutoffs.recent) →
    state.LastIn (inDay day) stamp → state.HasContent stamp
  months : ∀ year month stamp, (∀ instant, inMonth year month instant →
    instant < cutoffs.yearly) →
    state.LastIn (inMonth year month) stamp → state.HasContent stamp

variable {state : SourceState Digest} {stamp : Promotion Digest}

theorem dayOf_eq {first second : Int} (same : dateOf first = dateOf second) :
    dayOf first = dayOf second := by
  have ordinals := congrArg CivilDate.ordinal same
  unfold dateOf at ordinals
  rwa [ordinal_civil, ordinal_civil] at ordinals

/-- Two instants in one bucket share their day, or lie before the yearly cutoff
in one month. -/
theorem bucketOf_eq {yearly first second : Int}
    (same : bucketOf yearly first = bucketOf yearly second) :
    dayOf first = dayOf second ∨
      second < yearly ∧ (dateOf first).year = (dateOf second).year ∧
        (dateOf first).month = (dateOf second).month := by
  unfold bucketOf at same
  by_cases firstDay : yearly ≤ first
  · by_cases secondDay : yearly ≤ second
    · rw [if_pos firstDay, if_pos secondDay] at same
      injection same with date
      exact Or.inl (dayOf_eq date)
    · rw [if_pos firstDay, if_neg secondDay] at same
      cases same
  · by_cases secondDay : yearly ≤ second
    · rw [if_neg firstDay, if_pos secondDay] at same
      cases same
    · rw [if_neg firstDay, if_neg secondDay] at same
      injection same with year month
      exact Or.inr ⟨by omega, year, month⟩

/-- The last snapshot of a month is the last of its day and of its month. -/
theorem LastIn.anchored_month {year : Int} {month : Nat}
    (last : state.LastIn (inMonth year month) stamp) (cutoffs : Cutoffs) :
    state.Anchored cutoffs stamp := by
  intro _ other member _ bucket
  obtain ⟨_, ⟨isYear, isMonth⟩, top⟩ := last
  refine top other member ?_
  rcases bucketOf_eq bucket with day | ⟨_, sameYear, sameMonth⟩
  · have date : dateOf other.promotedAt = dateOf stamp.promotedAt :=
      congrArg civil day
    unfold inMonth
    rw [date]
    exact ⟨isYear, isMonth⟩
  · exact ⟨sameYear.trans isYear, sameMonth.trans isMonth⟩

/-- The last snapshot of a day that is wholly after a yearly cutoff was anchored
before that cutoff too. -/
theorem LastIn.anchored_day {day first now : Int}
    {firstCutoffs cutoffs : Cutoffs}
    (last : state.LastIn (inDay day) stamp) (le : first ≤ now)
    (firstFound : retentionCutoffs first = some firstCutoffs)
    (found : retentionCutoffs now = some cutoffs)
    (whole : ∀ instant, inDay day instant → cutoffs.yearly ≤ instant) :
    state.Anchored firstCutoffs stamp := by
  intro _ other member _ bucket
  obtain ⟨_, isDay, top⟩ := last
  unfold inDay at isDay
  rcases bucketOf_eq bucket with sameDay | ⟨old, sameYear, sameMonth⟩
  · exact top other member (sameDay.trans isDay)
  · have start := whole ((day - 1) * dayLength) (by
      unfold inDay dayOf dayLength
      omega)
    have afterStart : (day - 1) * dayLength ≤ stamp.promotedAt := by
      unfold dayOf dayLength at *
      omega
    rcases yearly_backwards le firstFound found with forwards |
      ⟨year, common, february, isFebruary, valid, lower, upper⟩
    · omega
    · have isLast : february.ordinal = day := by
        unfold dayOf dayLength at *
        omega
      have date : dateOf stamp.promotedAt = february := by
        unfold dateOf
        rw [isDay, ← isLast]
        exact civil_ordinal valid
      have otherValid := civil_valid (dayOf other.promotedAt)
      have isOther : civil (dayOf other.promotedAt) =
          dateOf other.promotedAt := rfl
      rw [isOther] at otherValid
      have dayLe := otherValid.day_le
      rw [sameYear, sameMonth, date, isFebruary, daysInMonth_two, common] at dayLe
      by_cases sameDay : dateOf other.promotedAt = dateOf stamp.promotedAt
      · exact top other member ((dayOf_eq sameDay).trans isDay)
      · right
        have earlier : (dateOf other.promotedAt).Before february := by
          refine Or.inr ⟨?_, Or.inr ⟨?_, ?_⟩⟩
          · rw [sameYear, date]
          · rw [sameMonth, date]
          · rw [isFebruary]
            have notLast : (dateOf other.promotedAt).day ≠ 28 := by
              intro isEnd
              refine sameDay ?_
              rw [date, isFebruary] at sameYear sameMonth ⊢
              generalize dateOf other.promotedAt = otherDate at *
              cases otherDate
              simp_all
            simp only [Bool.false_eq_true, if_false] at dayLe
            show (dateOf other.promotedAt).day < 28
            omega
        have less := CivilDate.ordinal_lt_of_before otherValid valid earlier
        rw [after_iff]
        left
        unfold dateOf at less
        rw [ordinal_civil, isLast] at less
        unfold dayOf dayLength at *
        omega

/-! ## Promotions and the current snapshot -/

/-- Promotions are in order, have a digest, and the current one is the last and
has its content. -/
structure Ordered (state : SourceState Digest) : Prop where
  inOrder : state.promotions.Pairwise fun first second =>
    first.promotedAt ≤ second.promotedAt ∧
      first.generation < second.generation ∧ first.id ≠ second.id
  digests : ∀ other ∈ state.promotions, other.contentDigest.isSome = true
  currentLast : ∀ id, state.current = some id →
    ∃ row ∈ state.snapshots, row.promotion.id = id ∧ row.compactedAt = none ∧
      ∀ other ∈ state.promotions,
        other.promotedAt ≤ row.promotion.promotedAt

theorem Ordered.id_unique (ordered : state.Ordered)
    {first second : Snapshot Digest} (firstMember : first ∈ state.snapshots)
    (secondMember : second ∈ state.snapshots)
    (same : first.promotion.id = second.promotion.id) : first = second := by
  have distinct : (state.snapshots.map fun row => row.promotion.id).Nodup := by
    refine List.pairwise_map.mpr ?_
    refine (List.pairwise_map.mp ordered.inOrder).imp ?_
    exact fun order => order.2.2
  exact List.inj_on_of_nodup_map distinct firstMember secondMember same

theorem Ordered.currentDigest_eq [DecidableEq Digest] (ordered : state.Ordered)
    {row : Snapshot Digest} (member : row ∈ state.snapshots)
    (isCurrent : state.current = some row.promotion.id) :
    state.currentDigest = row.promotion.contentDigest := by
  unfold currentDigest
  cases found : state.snapshots.find? fun row =>
      some row.promotion.id == state.current with
  | none =>
      have never := List.find?_eq_none.mp found row member
      rw [isCurrent] at never
      simp at never
  | some other =>
      have otherMember := List.mem_of_find?_eq_some found
      have same := List.find?_some found
      rw [isCurrent] at same
      have sameRow := ordered.id_unique otherMember member (by simpa using same)
      rw [sameRow]
      rfl

/-! ## The retained content -/

/-- An uncompacted snapshot with the content of a promotion, not older. -/
def Reconstructs (state : SourceState Digest) (stamp : Promotion Digest) : Prop :=
  ∃ row ∈ state.snapshots, row.compactedAt = none ∧
    row.promotion.contentDigest = stamp.contentDigest ∧
    stamp.promotedAt ≤ row.promotion.promotedAt

/-- What every batch so far has anchored still has its content. -/
structure Retained (state : SourceState Digest) : Prop where
  ordered : state.Ordered
  reconstructs : ∀ stamp ∈ state.promotions,
    (∀ last first cutoffs, state.lastBatch = some last → first ≤ last →
      retentionCutoffs first = some cutoffs → state.Anchored cutoffs stamp) →
    state.Reconstructs stamp

theorem Retained.promote (retained : state.Retained) {id : SnapshotId}
    {instant : Int} {generation : Nat} {digest : Digest}
    {target : SourceState Digest}
    (applied : state.promote id instant generation digest = some target) :
    target.Retained := by
  unfold SourceState.promote at applied
  split at applied
  · rename_i later
    cases applied
    simp only [List.all_eq_true, Bool.and_eq_true, decide_eq_true_eq, bne_iff_ne]
      at later
    have promotions : ({ state with
          snapshots := state.snapshots ++
            [⟨⟨id, instant, generation, some digest⟩, none⟩]
          current := some id } : SourceState Digest).promotions =
        state.promotions ++ [⟨id, instant, generation, some digest⟩] := by
      unfold SourceState.promotions
      rw [List.map_append]
      rfl
    refine ⟨⟨?_, ?_, ?_⟩, ?_⟩
    · rw [promotions]
      refine List.pairwise_append.mpr ⟨retained.ordered.inOrder,
        List.pairwise_singleton _ _, fun first firstMember second isNew => ?_⟩
      rw [List.mem_singleton.mp isNew]
      obtain ⟨⟨instants, generations⟩, ids⟩ := later first firstMember
      exact ⟨instants, generations, ids⟩
    · rw [promotions]
      intro other member
      rcases List.mem_append.mp member with old | new
      · exact retained.ordered.digests other old
      · rw [List.mem_singleton.mp new]
        rfl
    · intro current isCurrent
      cases isCurrent
      refine ⟨⟨⟨id, instant, generation, some digest⟩, none⟩, ?_, rfl, rfl, ?_⟩
      · exact List.mem_append_right _ (List.mem_singleton_self _)
      · rw [promotions]
        intro other member
        rcases List.mem_append.mp member with old | new
        · exact (later other old).1.1
        · rw [List.mem_singleton.mp new]
    · intro stamp member anchored
      rw [promotions] at member
      rcases List.mem_append.mp member with old | new
      · obtain ⟨row, rowMember, uncompacted, sameDigest, notOlder⟩ :=
          retained.reconstructs stamp old (by
            intro last first cutoffs isLast le found isOld other otherMember
            refine anchored last first cutoffs isLast le found isOld other ?_
            rw [promotions]
            exact List.mem_append_left _ otherMember)
        exact ⟨row, List.mem_append_left _ rowMember, uncompacted, sameDigest,
          notOlder⟩
      · rw [List.mem_singleton.mp new]
        refine ⟨⟨⟨id, instant, generation, some digest⟩, none⟩, ?_, rfl, rfl,
          Int.le_refl _⟩
        exact List.mem_append_right _ (List.mem_singleton_self _)
  · cases applied

/-- Pins do not touch the snapshots. -/
theorem Retained.pins (retained : state.Retained) (pins : List SourcePin) :
    ({ state with pins := pins } : SourceState Digest).Retained :=
  ⟨⟨retained.ordered.inOrder, retained.ordered.digests,
    retained.ordered.currentLast⟩, retained.reconstructs⟩

/-- At the instant of its last batch or later, nothing final is lost. -/
theorem Retained.keepsFinalContent (retained : state.Retained) {now : Int}
    {cutoffs : Cutoffs} (found : retentionCutoffs now = some cutoffs)
    (notBefore : ∀ last, state.lastBatch = some last → last ≤ now) :
    state.KeepsFinalContent cutoffs := by
  constructor
  · intro day stamp whole last
    obtain ⟨row, member, uncompacted, digest, _⟩ :=
      retained.reconstructs stamp last.1 (by
        intro batch first firstCutoffs isBatch le firstFound
        have before := notBefore batch isBatch
        exact last.anchored_day (by omega) firstFound found
          fun instant inside => (whole instant inside).1)
    exact ⟨row, member, uncompacted, digest⟩
  · intro year month stamp _ last
    obtain ⟨row, member, uncompacted, digest, _⟩ :=
      retained.reconstructs stamp last.1
        fun _ _ firstCutoffs _ _ _ => last.anchored_month firstCutoffs
    exact ⟨row, member, uncompacted, digest⟩

/-! ## One batch -/

variable [DecidableEq Digest]

theorem candidate_spec {cutoffs : Cutoffs} {now : Int}
    {liveReferences : List SnapshotId} {row : Snapshot Digest}
    (isCandidate : state.candidate cutoffs now liveReferences row = true) :
    (row.promotion.promotedAt < cutoffs.recent ∨
      row.promotion.contentDigest = state.currentDigest) ∧
      row.compactedAt = none ∧ state.current ≠ some row.promotion.id ∧
      row.promotion.id ∉ state.retainedAnchors cutoffs ∧
      row.promotion.id ∉ liveReferences ∧
      state.livePinned now row.promotion.id = false := by
  simp only [candidate, Bool.and_eq_true, Bool.or_eq_true, decide_eq_true_eq,
    beq_iff_eq, bne_iff_ne, Bool.not_eq_true', Option.isNone_iff_eq_none,
    List.contains_eq_mem, decide_eq_false_iff_not] at isCandidate
  obtain ⟨⟨⟨⟨⟨eligible, kept⟩, other⟩, anchors⟩, references⟩, pins⟩ := isCandidate
  exact ⟨eligible.imp id And.right, kept, Ne.symm other, anchors, references, pins⟩

/-- An anchor is retained, or the latest snapshot with its content. -/
theorem mem_retainedAnchors {cutoffs : Cutoffs}
    (member : stamp ∈ state.promotions)
    (old : stamp.promotedAt < cutoffs.recent)
    (anchored : state.Anchored cutoffs stamp)
    (digest : stamp.contentDigest.isSome = true)
    (content : ∃ row ∈ state.snapshots, row.compactedAt = none ∧
      row.promotion.contentDigest = stamp.contentDigest ∧
      stamp.promotedAt ≤ row.promotion.promotedAt) :
    ∃ row ∈ state.snapshots, row.compactedAt = none ∧
      row.promotion.contentDigest = stamp.contentDigest ∧
      stamp.promotedAt ≤ row.promotion.promotedAt ∧
      row.promotion.id ∈ state.retainedAnchors cutoffs := by
  obtain ⟨own, ownMember, isOwn⟩ := List.mem_map.mp member
  have inRows : own ∈ state.snapshots.filter fun row =>
      decide (row.promotion.promotedAt < cutoffs.recent) := by
    refine List.mem_filter.mpr ⟨ownMember, ?_⟩
    rw [isOwn]
    exact decide_eq_true old
  have isAnchor : stamp.id ∈ retentionAnchors
      ((state.snapshots.filter fun row =>
        decide (row.promotion.promotedAt < cutoffs.recent)).map (·.promotion))
      cutoffs := by
    refine mem_retentionAnchors ?_ old ?_
    · exact List.mem_map.mpr ⟨own, inRows, isOwn⟩
    · intro other otherMember otherOld bucket
      obtain ⟨row, rowMember, isRow⟩ := List.mem_map.mp otherMember
      refine anchored old other ?_ otherOld bucket
      exact List.mem_map.mpr ⟨row, (List.mem_filter.mp rowMember).1, isRow⟩
  cases isCompacted : own.compactedAt with
  | none =>
      refine ⟨own, ownMember, isCompacted, ?_, ?_, ?_⟩
      · rw [isOwn]
      · rw [isOwn]
      · unfold retainedAnchors
        refine List.mem_append_left _ (List.mem_map.mpr ⟨own, ?_, rfl⟩)
        refine List.mem_filter.mpr ⟨inRows, ?_⟩
        rw [isOwn, isCompacted]
        simpa using isAnchor
  | some instant =>
      obtain ⟨value, isValue⟩ := Option.isSome_iff_exists.mp digest
      obtain ⟨row, rowMember, uncompacted, sameDigest, later⟩ := content
      have inContent : row.promotion ∈ (state.snapshots.filter fun row =>
          row.compactedAt.isNone &&
            row.promotion.contentDigest == some value).map (·.promotion) := by
        refine List.mem_map.mpr ⟨row, List.mem_filter.mpr ⟨rowMember, ?_⟩, rfl⟩
        rw [uncompacted, sameDigest, isValue]
        simp
      obtain ⟨kept, isLatest, keptMember, top⟩ := latest_exists inContent
      obtain ⟨keptRow, inKept, isKept⟩ := List.mem_map.mp keptMember
      obtain ⟨keptInState, keptSpec⟩ := List.mem_filter.mp inKept
      simp only [Bool.and_eq_true, Option.isNone_iff_eq_none, beq_iff_eq]
        at keptSpec
      refine ⟨keptRow, keptInState, keptSpec.1, ?_, ?_, ?_⟩
      · rw [keptSpec.2, isValue]
      · rw [Bool.eq_false_iff, ne_eq, after_iff] at top
        rw [isKept]
        omega
      · unfold retainedAnchors
        refine List.mem_append_right _ ?_
        refine List.mem_filterMap.mpr ⟨value, ?_, ?_⟩
        · refine List.mem_filterMap.mpr ⟨own, List.mem_filter.mpr ⟨inRows, ?_⟩, ?_⟩
          · rw [isOwn, isCompacted]
            simpa using isAnchor
          · rw [isOwn, isValue]
        · rw [isLatest, isKept]
          rfl

/-- A batch keeps every row and may only mark it. -/
theorem compact_cases {now : Int} {liveReferences chosen : List SnapshotId}
    {target : SourceState Digest}
    (applied : state.compact now liveReferences chosen = some target) :
    ∃ cutoffs, retentionCutoffs now = some cutoffs ∧
      (∀ last, state.lastBatch = some last → last ≤ now) ∧
      target.snapshots = state.snapshots.map (fun row =>
        if state.marks cutoffs now liveReferences chosen row then
          { row with compactedAt := some now }
        else
          row) ∧
      target.current = state.current ∧ target.lastBatch = some now := by
  unfold compact at applied
  cases found : retentionCutoffs now with
  | none =>
      rw [found] at applied
      cases applied
  | some cutoffs =>
      rw [found] at applied
      dsimp only at applied
      by_cases early : (state.lastBatch.any fun last => decide (now < last)) = true
      · rw [if_pos early] at applied
        cases applied
      · rw [if_neg early] at applied
        cases applied
        refine ⟨cutoffs, rfl, fun last isLast => ?_, rfl, rfl, rfl⟩
        rw [isLast] at early
        simpa using early

theorem promotions_compact {cutoffs : Cutoffs} {now : Int}
    {liveReferences chosen : List SnapshotId} {target : SourceState Digest}
    (rows : target.snapshots = state.snapshots.map fun row =>
      if state.marks cutoffs now liveReferences chosen row then
        { row with compactedAt := some now }
      else
        row) :
    target.promotions = state.promotions := by
  unfold promotions
  rw [rows, List.map_map]
  refine List.map_congr_left fun row _ => ?_
  rw [Function.comp_apply]
  split <;> rfl

/-- A row that is not marked is still there. -/
theorem mem_compact {cutoffs : Cutoffs} {now : Int}
    {liveReferences chosen : List SnapshotId} {target : SourceState Digest}
    (rows : target.snapshots = state.snapshots.map fun row =>
      if state.marks cutoffs now liveReferences chosen row then
        { row with compactedAt := some now }
      else
        row)
    {row : Snapshot Digest} (member : row ∈ state.snapshots)
    (unmarked : state.marks cutoffs now liveReferences chosen row ≠ true) :
    row ∈ target.snapshots := by
  rw [rows]
  refine List.mem_map.mpr ⟨row, member, ?_⟩
  rw [if_neg unmarked]

theorem marks_candidate {cutoffs : Cutoffs} {now : Int}
    {liveReferences chosen : List SnapshotId} {row : Snapshot Digest}
    (marked : state.marks cutoffs now liveReferences chosen row = true) :
    state.candidate cutoffs now liveReferences row = true := by
  unfold marks at marked
  rw [Bool.and_eq_true] at marked
  exact marked.1

theorem Ordered.compact (ordered : state.Ordered) {now : Int}
    {liveReferences chosen : List SnapshotId} {target : SourceState Digest}
    (applied : state.compact now liveReferences chosen = some target) :
    target.Ordered := by
  obtain ⟨cutoffs, _, _, rows, current, _⟩ := compact_cases applied
  have promotions := promotions_compact rows
  refine ⟨?_, ?_, fun id isCurrent => ?_⟩
  · rw [promotions]
    exact ordered.inOrder
  · rw [promotions]
    exact ordered.digests
  · rw [current] at isCurrent
    obtain ⟨row, member, isId, kept, last⟩ := ordered.currentLast id isCurrent
    refine ⟨row, mem_compact rows member fun marked => ?_, isId, kept, ?_⟩
    · obtain ⟨_, _, other, _⟩ := candidate_spec (marks_candidate marked)
      rw [isId] at other
      exact other isCurrent
    · rw [promotions]
      exact last

/-- What a batch finds anchored keeps its content over the batch. -/
theorem Reconstructs.compact (ordered : state.Ordered) {now : Int}
    {cutoffs : Cutoffs} {liveReferences chosen : List SnapshotId}
    {target : SourceState Digest}
    (found : retentionCutoffs now = some cutoffs)
    (applied : state.compact now liveReferences chosen = some target)
    (member : stamp ∈ state.promotions)
    (anchored : state.Anchored cutoffs stamp) (kept : state.Reconstructs stamp) :
    target.Reconstructs stamp := by
  obtain ⟨itsCutoffs, itsFound, _, rows, _, _⟩ := compact_cases applied
  rw [found] at itsFound
  cases itsFound
  rcases Int.lt_or_le stamp.promotedAt cutoffs.recent with old | recent
  · obtain ⟨row, rowMember, uncompacted, digest, later, retained⟩ :=
      mem_retainedAnchors member old anchored (ordered.digests stamp member) kept
    refine ⟨row, mem_compact rows rowMember fun marked => ?_, uncompacted, digest,
      later⟩
    obtain ⟨_, _, _, notRetained, _⟩ := candidate_spec (marks_candidate marked)
    exact notRetained retained
  · obtain ⟨row, rowMember, uncompacted, digest, later⟩ := kept
    by_cases marked : state.marks cutoffs now liveReferences chosen row = true
    · obtain ⟨eligible, _⟩ := candidate_spec (marks_candidate marked)
      have sameContent : row.promotion.contentDigest = state.currentDigest := by
        rcases eligible with tooOld | same
        · omega
        · exact same
      have isSome := ordered.digests row.promotion
        (List.mem_map.mpr ⟨row, rowMember, rfl⟩)
      cases isCurrent : state.current with
      | none =>
          have noDigest : state.currentDigest = none := by
            unfold currentDigest
            rw [isCurrent]
            have missing : (state.snapshots.find? fun row =>
                some row.promotion.id == none) = none :=
              List.find?_eq_none.mpr (by simp)
            rw [missing]
            rfl
          rw [sameContent, noDigest] at isSome
          cases isSome
      | some id =>
          obtain ⟨current, currentMember, isId, currentKept, last⟩ :=
            ordered.currentLast id isCurrent
          rw [← isId] at isCurrent
          have currentDigest := ordered.currentDigest_eq currentMember isCurrent
          refine ⟨current, mem_compact rows currentMember fun currentMarked => ?_,
            currentKept, ?_, last stamp member⟩
          · obtain ⟨_, _, other, _⟩ :=
              candidate_spec (marks_candidate currentMarked)
            exact other isCurrent
          · rw [← currentDigest, ← sameContent, digest]
    · exact ⟨row, mem_compact rows rowMember marked, uncompacted, digest, later⟩

/-! ## Runs -/

theorem Retained.compact (retained : state.Retained) {now : Int}
    {liveReferences chosen : List SnapshotId} {target : SourceState Digest}
    (applied : state.compact now liveReferences chosen = some target) :
    target.Retained := by
  refine ⟨retained.ordered.compact applied, fun stamp member anchored => ?_⟩
  obtain ⟨cutoffs, found, earlier, rows, _, lastBatch⟩ := compact_cases applied
  have promotions := promotions_compact rows
  rw [promotions] at member
  have everyBatch : ∀ first itsCutoffs, first ≤ now →
      retentionCutoffs first = some itsCutoffs →
      state.Anchored itsCutoffs stamp := by
    intro first itsCutoffs le itsFound old other otherMember
    refine anchored now first itsCutoffs lastBatch le itsFound old other ?_
    rw [promotions]
    exact otherMember
  refine Reconstructs.compact retained.ordered found applied member
    (everyBatch now cutoffs (Int.le_refl now) found) ?_
  refine retained.reconstructs stamp member fun last first itsCutoffs isLast le => ?_
  have before := earlier last isLast
  exact everyBatch first itsCutoffs (by omega)

theorem Retained.apply (retained : state.Retained) {op : SourceOp Digest}
    {target : SourceState Digest} (applied : op.apply state = some target) :
    target.Retained := by
  cases op with
  | promote id instant generation digest => exact retained.promote applied
  | pin added =>
      cases applied
      exact retained.pins _
  | release id =>
      cases applied
      exact retained.pins _
  | compact now liveReferences chosen => exact retained.compact applied

theorem retained_of_run {ops : List (SourceOp Digest)}
    (ran : run SourceOp.apply SourceState.empty ops = some state) :
    state.Retained := by
  refine run_preserves ran ⟨⟨List.Pairwise.nil, ?_, ?_⟩, ?_⟩
    fun source op target retained applied => retained.apply applied
  · intro other member
    cases member
  · intro id isCurrent
    cases isCurrent
  · intro stamp member
    cases member

/-- What a batch marks is not current, pinned or referenced, and if recent a copy
of the current content. -/
theorem Ordered.marked (ordered : state.Ordered) {now : Int} {cutoffs : Cutoffs}
    {liveReferences chosen : List SnapshotId} {target : SourceState Digest}
    (found : retentionCutoffs now = some cutoffs)
    (applied : state.compact now liveReferences chosen = some target)
    {row marked : Snapshot Digest} (member : row ∈ state.snapshots)
    (uncompacted : row.compactedAt = none) (after : marked ∈ target.snapshots)
    (isRow : marked.promotion = row.promotion)
    (compacted : marked.compactedAt ≠ none) :
    state.current ≠ some row.promotion.id ∧
      (cutoffs.recent ≤ row.promotion.promotedAt →
        row.promotion.contentDigest = state.currentDigest) ∧
      state.livePinned now row.promotion.id = false ∧
      row.promotion.id ∉ liveReferences := by
  obtain ⟨itsCutoffs, itsFound, _, rows, _, _⟩ := compact_cases applied
  rw [found] at itsFound
  cases itsFound
  rw [rows] at after
  obtain ⟨source, sourceMember, isSource⟩ := List.mem_map.mp after
  by_cases isMarked : state.marks cutoffs now liveReferences chosen source = true
  · rw [if_pos isMarked] at isSource
    rw [← isSource] at isRow
    have same := ordered.id_unique sourceMember member
      (congrArg Promotion.id isRow)
    rw [same] at isMarked
    obtain ⟨eligible, _, current, _, references, pins⟩ :=
      candidate_spec (marks_candidate isMarked)
    refine ⟨current, fun recent => ?_, pins, references⟩
    rcases eligible with old | content
    · omega
    · exact content
  · rw [if_neg isMarked] at isSource
    rw [← isSource] at isRow compacted
    have same := ordered.id_unique sourceMember member
      (congrArg Promotion.id isRow)
    rw [same] at compacted
    exact absurd uncompacted compacted

end SourceState

/-- At every batch of a run, before and after it, the final content of each day
and month is on an uncompacted snapshot, and the batch marks only what no reader
needs. -/
theorem compaction_keeps_final_content [DecidableEq Digest]
    {before : List (SourceOp Digest)} {state target : SourceState Digest}
    {now : Int} {liveReferences chosen : List SnapshotId}
    (ran : run SourceOp.apply SourceState.empty before = some state)
    (batch : (SourceOp.compact now liveReferences chosen).apply state =
      some target) :
    ∃ cutoffs, retentionCutoffs now = some cutoffs ∧
      state.KeepsFinalContent cutoffs ∧ target.KeepsFinalContent cutoffs ∧
      ∀ row ∈ state.snapshots, row.compactedAt = none →
        ∀ marked ∈ target.snapshots, marked.promotion = row.promotion →
          marked.compactedAt ≠ none →
          state.current ≠ some row.promotion.id ∧
            (cutoffs.recent ≤ row.promotion.promotedAt →
              row.promotion.contentDigest = state.currentDigest) ∧
            state.livePinned now row.promotion.id = false ∧
            row.promotion.id ∉ liveReferences := by
  have retained := SourceState.retained_of_run ran
  obtain ⟨cutoffs, found, earlier, _, _, lastBatch⟩ :=
    SourceState.compact_cases batch
  refine ⟨cutoffs, found, retained.keepsFinalContent found earlier, ?_, ?_⟩
  · refine (retained.compact batch).keepsFinalContent found fun last isLast => ?_
    rw [lastBatch] at isLast
    cases isLast
    exact Int.le_refl now
  · intro row member uncompacted marked after isRow compacted
    exact retained.ordered.marked found batch member uncompacted after isRow
      compacted

/-- The first snapshot is the last of its day and is compacted as a copy of the
second, which then has to stay for it. -/
theorem copy_keeps_the_day : ∃ state target cutoffs,
    run SourceOp.apply (SourceState.empty : SourceState Nat)
      [.promote 1 (17698199 * 3600000000) 1 7,
        .promote 2 (17698201 * 3600000000) 2 7,
        .compact (17698202 * 3600000000) [] [1],
        .promote 3 (17698203 * 3600000000) 3 8] = some state ∧
      (SourceOp.compact (17698236 * 3600000000) [] [1, 2, 3]).apply state =
        some target ∧
      target.snapshots.map (fun row => row.compactedAt.isSome) =
        [true, false, false] ∧
      target.KeepsFinalContent cutoffs := by
  obtain ⟨cutoffs, _, _, kept, _⟩ := compaction_keeps_final_content
    (show run SourceOp.apply (SourceState.empty : SourceState Nat)
      [.promote 1 (17698199 * 3600000000) 1 7,
        .promote 2 (17698201 * 3600000000) 2 7,
        .compact (17698202 * 3600000000) [] [1],
        .promote 3 (17698203 * 3600000000) 3 8] = some _ from rfl)
    (show (SourceOp.compact (17698236 * 3600000000) [] [1, 2, 3]).apply _ =
      some _ from rfl)
  exact ⟨_, _, cutoffs, rfl, rfl, by decide, kept⟩

end ParishKit.Source
