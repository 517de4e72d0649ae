import ParishKit.Lib.Except
import ParishKit.Responses.RefreshRecording

/-!
# Refresh checks settle

A stored check answers the comparison that owed it, so the same data owes it no
second time. Only a full refresh repeats one: an unchanged check of a marked item
below the threshold, and a conflict a quick refresh may not store.
-/

namespace ParishKit.Responses

open ParishKit.Pipeline ParishKit.Workflows ParishKit.Lib

/-! ## One comparison -/

/-- What is stored of an item marked Entered by hand. -/
theorem storedOutcome_of_entered
    {α : Type} (same : α → α → Option Bool) {stage : Stage}
    (isEntered : stage.entered = true)
    (refreshed answered carried : α) (marked : Option α) (count : Nat)
    (threshold : Option Nat) :
    (refreshOutcome same stage refreshed answered carried marked true count
        threshold).map storedOutcome =
      (same refreshed carried).bind fun held =>
        if held = true then some (some .confirmed)
        else (same refreshed (marked.getD answered)).map fun atMark =>
          some (if atMark = true then .unchanged else .enteredIncorrectly) := by
  have kept : stage.reevaluated = true := by
    cases stage <;> first | rfl | cases isEntered
  have processed : stage.processed = true := by
    rw [Stage.processed, isEntered]
    rfl
  have notIgnored : stage ≠ .ignored := by
    rintro rfl
    cases isEntered
  rw [refreshOutcome, kept]
  cases same refreshed carried with
  | none => rfl
  | some held =>
      cases held with
      | true => simp [heldOutcome, notIgnored, processed, storedOutcome]
      | false =>
          cases same refreshed (marked.getD answered) with
          | none => simp [isEntered]
          | some atMark =>
              cases atMark with
              | false => simp [isEntered, storedOutcome]
              | true =>
                  simp only [isEntered]
                  simp
                  split <;> rfl

/-- What is stored does not depend on the count, nor on which entered stage an
entered item is at. -/
theorem storedOutcome_refreshOutcome
    {α : Type} (same : α → α → Option Bool) {stage other : Stage}
    (alike : stage = other ∨ stage.entered = true ∧ other.entered = true)
    (refreshed answered carried : α) (marked : Option α)
    (count count' : Nat) (threshold : Option Nat) :
    (refreshOutcome same stage refreshed answered carried marked true count
        threshold).map storedOutcome =
      (refreshOutcome same other refreshed answered carried marked true count'
        threshold).map storedOutcome := by
  rcases alike with rfl | ⟨first, second⟩
  · by_cases isEntered : stage.entered = true
    · rw [storedOutcome_of_entered same isEntered,
        storedOutcome_of_entered same isEntered]
    · have elsewhere : stage.entered = false := Bool.eq_false_iff.mpr isEntered
      rw [refreshOutcome, refreshOutcome, elsewhere]
      rfl
  · rw [storedOutcome_of_entered same first, storedOutcome_of_entered same second]

/-! ## One owed check -/

/-- The state an item is left in by a check that was stored or not. -/
structure Follows (state after : CheckState Value) (stored : CheckedOutcome)
    (due : Bool) : Prop where
  checked : due = true → after.outcome = stored
  quiet : due = false → after = state

/-- After a check was stored, or not owed, a quick refresh owes none, and a full
one only an unchanged check below the threshold. -/
theorem owed_after
    {stored : CheckedOutcome} {state after : CheckState Value}
    {full marked moved movedAfter : Bool}
    (follows : Follows state after stored
      (owed stored state full marked moved))
    (settled : owed stored state full marked moved = true →
      movedAfter = false)
    (still : owed stored state full marked moved = false →
      movedAfter = moved) :
    owed stored after false marked movedAfter = false ∧
      (owed stored after true marked movedAfter = true →
        stored = .unchanged ∧ marked = true ∧ after.outcome = .unchanged ∧
          ∃ threshold, after.notSeenAfter = some threshold ∧
            after.unseen < threshold) := by
  have outcome : after.outcome = stored := by
    cases due : owed stored state full marked moved with
    | true => exact follows.checked due
    | false =>
        rw [follows.quiet due]
        by_contra different
        rw [owed, if_pos (Ne.symm different)] at due
        cases due
  have moves : stored = .enteredIncorrectly → movedAfter = false := by
    intro incorrect
    cases due : owed stored state full marked moved with
    | true => exact settled due
    | false =>
        rw [still due]
        have same := follows.quiet due
        rw [owed, ← outcome, same, if_neg (not_not.mpr rfl), ← same, outcome,
          if_pos incorrect] at due
        exact due
  rw [owed, owed, outcome, if_neg (not_not.mpr rfl),
    if_neg (not_not.mpr rfl)]
  by_cases incorrect : stored = .enteredIncorrectly
  · rw [if_pos incorrect, if_pos incorrect, moves incorrect]
    simp
  · rw [if_neg incorrect, if_neg incorrect]
    refine ⟨by simp, ?_⟩
    intro due
    simp only [Bool.and_true, Bool.and_eq_true, decide_eq_true_eq] at due
    obtain ⟨⟨unchanged, isMarked⟩, below⟩ := due
    refine ⟨unchanged, isMarked, unchanged, ?_⟩
    cases threshold : after.notSeenAfter with
    | none =>
        rw [threshold] at below
        cases below
    | some bound =>
        rw [threshold] at below
        exact ⟨bound, rfl, of_decide_eq_true below⟩

/-- A comparison that gave a result compared the two values. -/
theorem compared_of_refreshOutcome
    {α : Type} {same : α → α → Option Bool} {stage : Stage}
    {refreshed answered carried : α} {marked : Option α} {count : Nat}
    {threshold : Option Nat} {result : RefreshOutcome}
    (found : refreshOutcome same stage refreshed answered carried marked true
      count threshold = some result) :
    ∃ held, same refreshed carried = some held := by
  unfold refreshOutcome at found
  split at found
  · cases found
  · rw [if_neg (by decide)] at found
    obtain ⟨held, compares, _⟩ := Option.bind_eq_some_iff.mp found
    exact ⟨held, compares⟩

theorem sameBy_self
    {key : Value → Option Key} {left right : Value} {alike : Bool}
    (compares : sameBy key (some left) (some right) = some alike) :
    sameBy key (some left) (some left) = some true := by
  obtain ⟨first, keyed, _⟩ := Option.bind_eq_some_iff.mp compares
  rw [sameBy, keyed]
  simp

/-- The stage of a final change does not decide what its comparison stores. -/
theorem censusStage_alike (execution : Execution)
    (first second : CheckedOutcome) :
    censusStage execution first = censusStage execution second ∨
      (censusStage execution first).entered = true ∧
        (censusStage execution second).entered = true := by
  unfold censusStage
  by_cases entered : execution = .resolvedExternal
  · right
    rw [if_pos entered, if_pos entered]
    constructor
    · split <;> rfl
    · split <;> rfl
  · left
    rw [if_neg entered, if_neg entered]

theorem owedCensus_after
    {stored : CheckedOutcome} {state after : CheckState Value}
    {full entered due : Bool} {moved movedAfter : Option Bool}
    (decided : owedCensus stored state full entered moved = some due)
    (follows : Follows state after stored due)
    (settled : due = true → movedAfter = some false)
    (still : due = false → movedAfter = moved) :
    owedCensus stored after false entered movedAfter = some false ∧
      (owedCensus stored after true entered movedAfter = some true →
        (stored = .unchanged ∧ entered = true ∧ after.outcome = .unchanged ∧
          ∃ threshold, after.notSeenAfter = some threshold ∧
            after.unseen < threshold) ∨
        (stored = .conflict ∧ full = false)) := by
  unfold owedCensus at decided
  split at decided
  · rename_i quiet
    cases decided
    refine ⟨?_, fun _ => Or.inr quiet⟩
    rw [owedCensus, if_pos ⟨quiet.1, rfl⟩]
  · split at decided
    · rename_i _ back
      cases decided
      have same := follows.quiet rfl
      have never : ∀ full, owedCensus stored after full entered movedAfter =
          some false := by
        intro full
        unfold owedCensus
        rw [same, if_pos back, ite_self]
      refine ⟨never false, fun due => ?_⟩
      rw [never true] at due
      cases due
    · obtain ⟨elsewhere, compares, owes⟩ := Option.map_eq_some_iff.mp decided
      subst owes
      obtain ⟨moves, movesAfter, now⟩ : ∃ movesAfter,
          movedAfter = some movesAfter ∧
          (owed stored state full entered elsewhere = true →
            movesAfter = false) ∧
          (owed stored state full entered elsewhere = false →
            movesAfter = elsewhere) := by
        cases due : owed stored state full entered elsewhere with
        | true =>
            exact ⟨false, settled due, fun _ => rfl, (nomatch ·)⟩
        | false =>
            exact ⟨elsewhere, (still due).trans compares,
              (nomatch ·), fun _ => rfl⟩
      obtain ⟨quick, repeated⟩ := owed_after follows now.1 now.2
      subst movesAfter
      constructor
      · unfold owedCensus
        split
        · rfl
        · split
          · rfl
          · exact congrArg some quick
      · intro due
        unfold owedCensus at due
        split at due
        · cases due
        · split at due
          · cases due
          · exact Or.inl (repeated (Option.some.inj due))

/-- What a change's check leaves it in: its latest outcome, and the value that
was compared. -/
structure CensusFollows (state after : CheckState Value)
    (result : Option CheckedOutcome) (current : Value) : Prop where
  checked : ∀ stored, result = some stored →
    after.outcome = stored ∧ after.observed = some current
  quiet : result = none → after = state

section Census

variable [Unicode]

theorem sameCensus_self
    {field : Field} {left right : Value} {alike : Bool}
    (compares : sameCensus field (some left) (some right) = some alike) :
    sameCensus field (some left) (some left) = some true := by
  unfold sameCensus at compares ⊢
  split
  · simp
  · rename_i ordinary
    rw [if_neg ordinary] at compares
    split
    · rename_i home
      rw [if_pos home] at compares
      exact sameBy_self compares
    · rename_i elsewhere
      rw [if_neg elsewhere] at compares
      exact sameBy_self compares

/-- Only a change Updated in ParishSoft is found in conflict. -/
theorem published_of_conflict
    {row : ProposedChange} {again : Option Value} {state : CheckState Value}
    {threshold : Option Nat} {full : Bool} {current : Value}
    (judged : judgeCensus row again state threshold full current =
      some (some .conflict)) :
    row.execution ≠ .resolvedExternal := by
  intro entered
  obtain ⟨outcome, found, stores⟩ := Option.bind_eq_some_iff.mp judged
  have isEntered : (censusStage row.execution state.outcome).entered = true := by
    rw [censusStage, if_pos entered]
    split <;> rfl
  have conflict : storedOutcome outcome = some .conflict := by
    cases kind : storedOutcome outcome with
    | none =>
        rw [kind] at stores
        cases stores
    | some stored =>
        rw [kind] at stores
        obtain ⟨due, _, chosen⟩ := Option.map_eq_some_iff.mp stores
        cases due with
        | false => cases chosen
        | true => exact chosen
  have stored := storedOutcome_of_entered (sameCensus row.item.field) isEntered
    (some current) (compared row again current).answered
    (some (compared row again current).carried)
    (some (some (compared row again current).marked))
    (state.unseen + full.toNat) threshold
  rw [found, Option.map_some, conflict] at stored
  obtain ⟨held, _, compares⟩ := Option.bind_eq_some_iff.mp stored.symm
  split at compares
  · cases compares
  · obtain ⟨atMark, _, impossible⟩ := Option.map_eq_some_iff.mp compares
    cases atMark <;> cases impossible

/-- Judging the same data again stores nothing on a quick refresh, and on a full
one only an unchanged check below the threshold, or the conflict a quick refresh
passed over. -/
theorem judgeCensus_after
    {row : ProposedChange} {again : Option Value}
    {state after : CheckState Value} {threshold : Option Nat} {full : Bool}
    {current : Value} {result : Option CheckedOutcome}
    (judged : judgeCensus row again state threshold full current = some result)
    (follows : CensusFollows state after result current) :
    judgeCensus row again after threshold false current = some none ∧
      ∀ stored, judgeCensus row again after threshold true current =
          some (some stored) →
        (stored = .unchanged ∧ row.execution = .resolvedExternal ∧
          after.outcome = .unchanged ∧
          ∃ threshold, after.notSeenAfter = some threshold ∧
            after.unseen < threshold) ∨
        (stored = .conflict ∧ full = false) := by
  obtain ⟨outcome, found, stores⟩ := Option.bind_eq_some_iff.mp judged
  obtain ⟨held, compares⟩ := compared_of_refreshOutcome found
  have repeats : ∀ count, ∃ later, storedOutcome later = storedOutcome outcome ∧
      refreshOutcome (sameCensus row.item.field)
        (censusStage row.execution after.outcome) (some current)
        (compared row again current).answered
        (some (compared row again current).carried)
        (some (some (compared row again current).marked)) true count threshold =
        some later := by
    intro count
    have same := storedOutcome_refreshOutcome (sameCensus row.item.field)
      (censusStage_alike row.execution after.outcome state.outcome)
      (some current) (compared row again current).answered
      (some (compared row again current).carried)
      (some (some (compared row again current).marked)) count
      (state.unseen + full.toNat) threshold
    rw [found] at same
    obtain ⟨later, again, alike⟩ := Option.map_eq_some_iff.mp same
    exact ⟨later, alike, again⟩
  cases kind : storedOutcome outcome with
  | none =>
      have nothing : ∀ later, judgeCensus row again after threshold later current =
          some none := by
        intro later
        obtain ⟨second, alike, again⟩ := repeats (after.unseen + later.toNat)
        rw [judgeCensus, again, Option.bind_some, alike, kind]
      refine ⟨nothing false, fun stored owes => ?_⟩
      rw [nothing true] at owes
      cases owes
  | some stored =>
      rw [kind] at stores
      obtain ⟨due, decided, rfl⟩ := Option.map_eq_some_iff.mp stores
      have moved : due = true → movedSince row.item.field after.observed current =
          some false := by
        rintro rfl
        rw [(follows.checked stored rfl).2, movedSince, sameCensus_self compares]
        rfl
      have still : due = false → movedSince row.item.field after.observed
          current = movedSince row.item.field state.observed current := by
        rintro rfl
        rw [follows.quiet rfl]
      have leaves : Follows state after stored due := by
        constructor
        · rintro rfl
          exact (follows.checked stored rfl).1
        · rintro rfl
          exact follows.quiet rfl
      obtain ⟨quick, repeated⟩ := owedCensus_after decided leaves moved still
      constructor
      · obtain ⟨second, alike, again⟩ := repeats (after.unseen + Bool.toNat false)
        rw [judgeCensus, again, Option.bind_some, alike, kind]
        simp only [quick]
        rfl
      · intro found owes
        obtain ⟨second, alike, again⟩ := repeats (after.unseen + Bool.toNat true)
        rw [judgeCensus, again, Option.bind_some, alike, kind] at owes
        obtain ⟨due, decides, chosen⟩ := Option.map_eq_some_iff.mp owes
        cases due with
        | false => cases chosen
        | true =>
            cases chosen
            rcases repeated decides with ⟨unchanged, entered, rest⟩ | conflict
            · exact Or.inl ⟨unchanged, eq_of_beq entered, rest⟩
            · exact Or.inr conflict

end Census

/-! ## The item states after recording -/

namespace RefreshBook

/-- Checks of other items, or at other versions, leave an item's state. -/
theorem itemState_of_append
    {book recorded : RefreshBook} {added : List StoredCheck}
    (checks : recorded.checks = book.checks ++ added)
    (start : recorded.start = book.start) {item : CheckedItem} {version : Nat}
    (mark : Option Int)
    (others : added.filter (fun check =>
      decide (check.item = item ∧ check.itemVersion = version)) = []) :
    recorded.itemState item version mark = book.itemState item version mark := by
  unfold itemState
  rw [checks, start, List.filter_append, others, List.append_nil]

/-- The one new check of an item at its version is its latest. -/
theorem itemState_of_append_one
    {book recorded : RefreshBook} {added : List StoredCheck}
    (checks : recorded.checks = book.checks ++ added)
    (start : recorded.start = book.start) {item : CheckedItem} {version : Nat}
    (mark : Option Int) {check : StoredCheck}
    (only : added.filter (fun other =>
      decide (other.item = item ∧ other.itemVersion = version)) = [check]) :
    (recorded.itemState item version mark).outcome = check.outcome ∧
      (recorded.itemState item version mark).observed = check.observed := by
  have itself : check.item = item := by
    have member : check ∈ added.filter (fun other =>
        decide (other.item = item ∧ other.itemVersion = version)) := by
      rw [only]
      exact List.mem_singleton_self check
    exact (of_decide_eq_true (List.mem_filter.mp member).2).1
  subst itself
  unfold itemState
  rw [checks, start, List.filter_append, only, List.map_append, List.map_cons,
    List.map_nil]
  have read := checkState_concat
    ((book.checks.filter fun other =>
      decide (other.item = check.item ∧ other.itemVersion = version)).map
      fun other => CheckRow.mk other.item other.createdAt other.outcome
        other.full other.observed)
    book.start (fun _ => mark)
    (CheckRow.mk check.item check.createdAt check.outcome check.full
      check.observed)
  exact ⟨congrArg (fun state => state.outcome) read,
    congrArg (fun state => state.observed) read⟩

theorem itemState_threshold
    (book : RefreshBook) (item : CheckedItem) (version : Nat)
    (mark : Option Int) :
    (book.itemState item version mark).notSeenAfter = book.threshold :=
  checkState_threshold _ _ _ _

/-! ## The changes after recording -/

/-- What the conflict checks of one refresh do to a change. -/
def moved (checks : List StoredCheck) (row : ProposedChange) :
    ProposedChange :=
  checks.foldl (fun row check =>
    if check.outcome = .conflict ∧ conflicted check row = true then
      conflict check row
    else row) row

theorem foldlM_moveToConflict
    {checks : List StoredCheck} {changes after : List ProposedChange}
    (succeeds : checks.foldlM moveToConflict changes = some after) :
    after = changes.map (moved checks) := by
  induction checks generalizing changes with
  | nil =>
      cases succeeds
      exact (List.map_id' _).symm
  | cons check checks inductionHypothesis =>
      rw [List.foldlM_cons] at succeeds
      obtain ⟨next, first, rest⟩ := Option.bind_eq_some_iff.mp succeeds
      have one : next = changes.map fun row =>
          if check.outcome = .conflict ∧ conflicted check row = true then
            conflict check row
          else row := by
        unfold moveToConflict at first
        split at first
        · rename_i isConflict
          split at first
          · cases first
            simp only [isConflict, true_and]
          · cases first
        · rename_i otherwise
          cases first
          simp only [otherwise, false_and, if_false, List.map_id']
      rw [inductionHypothesis rest, one, List.map_map]
      rfl

/-- A change either stays as it was or is at Conflict, about the same field of
the same response. -/
theorem moved_cases (checks : List StoredCheck) (row : ProposedChange) :
    (moved checks row = row ∨ (moved checks row).execution = .conflict) ∧
      (moved checks row).submission = row.submission ∧
      (moved checks row).item = row.item ∧
      (moved checks row).submittedValue = row.submittedValue := by
  induction checks generalizing row with
  | nil => exact ⟨Or.inl rfl, rfl, rfl, rfl⟩
  | cons check checks inductionHypothesis =>
      have unfolds : moved (check :: checks) row =
          moved checks (if check.outcome = .conflict ∧
            conflicted check row = true then conflict check row else row) := rfl
      rw [unfolds]
      by_cases hit : check.outcome = .conflict ∧ conflicted check row = true
      · rw [if_pos hit]
        obtain ⟨stays, submission, item, submitted⟩ :=
          inductionHypothesis (conflict check row)
        refine ⟨Or.inr ?_, submission, item, submitted⟩
        rcases stays with same | isConflict
        · rw [same]
          rfl
        · exact isConflict
      · rw [if_neg hit]
        exact inductionHypothesis row

/-- What recording leaves of the rows a refresh reads. -/
structure Recorded (book recorded : RefreshBook) (added : List StoredCheck) :
    Prop where
  checks : recorded.checks = book.checks ++ added
  changes : recorded.changes = book.changes.map (moved added)
  submission : recorded.submission = book.submission
  marks : recorded.marks = book.marks
  requests : recorded.requests = book.requests
  ticks : recorded.ticks = book.ticks
  start : recorded.start = book.start
  commitment : recorded.commitment = book.commitment

namespace Recorded

variable {book recorded : RefreshBook} {added : List StoredCheck}

theorem of_record
    [Unicode] {campaign : Nat} {refresh : Refresh}
    (done : book.record campaign refresh = some recorded) :
    ∃ added, book.owedChecks campaign refresh = some added ∧
      Recorded book recorded added := by
  obtain ⟨added, changes, owes, moves, checks, rows, submission, marks, requests,
    ticks, start, commitment⟩ := record_eq_some done
  exact ⟨added, owes, ⟨checks, rows.trans (foldlM_moveToConflict moves),
    submission, marks, requests, ticks, start, commitment⟩⟩

theorem latest_iff
    (done : Recorded book recorded added) (campaign : Nat)
    (row : ProposedChange) :
    recorded.latest campaign row = book.latest campaign row := by
  unfold latest inCampaign
  rw [done.changes, done.submission, List.all_map]
  refine List.all_congr rfl fun other => ?_
  obtain ⟨_, submission, item, _⟩ := moved_cases added other
  rw [Function.comp_apply, submission, item]

theorem mailingAnswer_eq
    (done : Recorded book recorded added) (row : ProposedChange) :
    recorded.mailingAnswer row = book.mailingAnswer row := by
  unfold mailingAnswer
  have kept : (fun other : ProposedChange =>
        other.submission == row.submission &&
          other.item.entityKind == .family &&
          other.item.field == .family .mailingAddress) ∘ moved added =
      fun other => other.submission == row.submission &&
        other.item.entityKind == .family &&
        other.item.field == .family .mailingAddress := by
    funext other
    obtain ⟨_, submission, item, _⟩ := moved_cases added other
    rw [Function.comp_apply, submission, item]
  rw [done.changes, List.filter_map, kept, List.getLast?_map, Option.map_map]
  congr 1
  funext other
  exact (moved_cases added other).2.2.2

/-- A change a refresh still checks is one it did not move. -/
theorem censusRows_subset
    (done : Recorded book recorded added) {campaign : Nat}
    {row : ProposedChange} (member : row ∈ recorded.censusRows campaign) :
    row ∈ book.censusRows campaign := by
  obtain ⟨isRow, conditions⟩ := List.mem_filter.mp member
  rw [done.changes] at isRow
  obtain ⟨before, isBefore, rfl⟩ := List.mem_map.mp isRow
  have same : moved added before = before := by
    rcases (moved_cases added before).1 with same | isConflict
    · exact same
    · simp [isConflict, isFinal] at conditions
  rw [same] at conditions ⊢
  refine List.mem_filter.mpr ⟨isBefore, ?_⟩
  rw [done.latest_iff, inCampaign, done.submission] at conditions
  exact conditions

theorem evidence_eq
    [Unicode] (done : Recorded book recorded added) (refresh later : Refresh)
    (same : later.corpus = refresh.corpus) (row : ProposedChange) :
    recorded.evidence later row = book.evidence refresh row := by
  unfold evidence addedDUID
  rw [same, done.submission, done.marks, done.mailingAnswer_eq]

end Recorded

/-! ## What one row owes again -/

/-- A census check names its change, at its version, and what was compared. -/
theorem censusCheck_eq_some
    [Unicode] {book : RefreshBook} {refresh : Refresh} {row : ProposedChange}
    {result : Option StoredCheck}
    (found : book.censusCheck refresh row = some result) :
    ((book.itemState (.proposal row.pk) row.version none).outcome =
        .confirmed ∧ result = none) ∨
      (book.evidence refresh row = some none ∧ result = none) ∨
      ∃ current stored, book.evidence refresh row = some (some current) ∧
        judgeCensus row (book.remarked row)
          (book.itemState (.proposal row.pk) row.version none) book.threshold
          refresh.full current = some stored ∧
        result = stored.map fun outcome =>
          ⟨refresh.snapshot, refresh.full, .proposal row.pk, row.version,
            outcome, some current, refresh.now⟩ := by
  unfold censusCheck at found
  dsimp only at found
  split at found
  · rename_i confirmed
    cases found
    exact Or.inl ⟨confirmed, rfl⟩
  · obtain ⟨source, reads, judges⟩ := Option.bind_eq_some_iff.mp found
    cases source with
    | none =>
        cases judges
        exact Or.inr (Or.inl ⟨reads, rfl⟩)
    | some current =>
        obtain ⟨stored, judged, rfl⟩ := Option.map_eq_some_iff.mp judges
        exact Or.inr (Or.inr ⟨current, stored, reads, judged, rfl⟩)

theorem censusCheck_labels
    [Unicode] {book : RefreshBook} {refresh : Refresh} {row : ProposedChange}
    {check : StoredCheck}
    (found : book.censusCheck refresh row = some (some check)) :
    check.item = .proposal row.pk ∧ check.itemVersion = row.version := by
  rcases censusCheck_eq_some found with ⟨_, impossible⟩ | ⟨_, impossible⟩ |
    ⟨current, stored, _, _, made⟩
  · cases impossible
  · cases impossible
  · obtain ⟨outcome, _, rfl⟩ := Option.map_eq_some_iff.mp made.symm
    exact ⟨rfl, rfl⟩

theorem ministryCheck_eq_some
    {book : RefreshBook} {refresh : Refresh} {row : FiledRequest}
    {result : Option StoredCheck}
    (found : book.ministryCheck refresh row = some result) :
    ((book.itemState (.request row.pk) row.version
        (book.tickedAt row.pk)).outcome = .confirmed ∧ result = none) ∨
      (book.rosterEvidence refresh row = none ∧ result = none) ∨
      ∃ current outcome, book.rosterEvidence refresh row = some current ∧
        refreshOutcome (fun left right => some (left == right))
          (book.ministryStage row) current (!(row.action == .join))
          (row.action == .join) none true
          ((book.itemState (.request row.pk) row.version
            (book.tickedAt row.pk)).unseen + refresh.full.toNat)
          book.threshold = some outcome ∧
        result = (storedOutcome outcome).bind fun stored =>
          if owed stored (book.itemState (.request row.pk) row.version
              (book.tickedAt row.pk)) refresh.full (book.ticked row) false then
            some ⟨refresh.snapshot, refresh.full, .request row.pk,
              row.version, stored, none, refresh.now⟩
          else none := by
  unfold ministryCheck at found
  dsimp only at found
  split at found
  · rename_i confirmed
    cases found
    exact Or.inl ⟨confirmed, rfl⟩
  · split at found
    · rename_i missing
      cases found
      exact Or.inr (Or.inl ⟨missing, rfl⟩)
    · rename_i current reads
      obtain ⟨outcome, compares, rfl⟩ := Option.map_eq_some_iff.mp found
      exact Or.inr (Or.inr ⟨current, outcome, reads, compares, rfl⟩)

theorem ministryCheck_labels
    {book : RefreshBook} {refresh : Refresh} {row : FiledRequest}
    {check : StoredCheck}
    (found : book.ministryCheck refresh row = some (some check)) :
    check.item = .request row.pk ∧ check.itemVersion = row.version := by
  rcases ministryCheck_eq_some found with ⟨_, impossible⟩ | ⟨_, impossible⟩ |
    ⟨current, outcome, _, _, made⟩
  · cases impossible
  · cases impossible
  · obtain ⟨stored, _, chosen⟩ := Option.bind_eq_some_iff.mp made.symm
    split at chosen
    · cases chosen
      exact ⟨rfl, rfl⟩
    · cases chosen

/-- The checks of one promotion come from its rows, one each at most. -/
theorem owedChecks_eq_some
    [Unicode] {book : RefreshBook} {campaign : Nat} {refresh : Refresh}
    {checks : List StoredCheck}
    (owes : book.owedChecks campaign refresh = some checks) :
    ∃ census ministry,
      List.Forall₂ (fun row result => book.censusCheck refresh row =
        some result) (book.censusRows campaign) census ∧
      List.Forall₂ (fun row result => book.ministryCheck refresh row =
        some result) (book.decidedRequests campaign) ministry ∧
      checks = census.reduceOption ++ ministry.reduceOption := by
  obtain ⟨census, censusRan, rest⟩ := Option.bind_eq_some_iff.mp owes
  obtain ⟨ministry, ministryRan, assembled⟩ := Option.bind_eq_some_iff.mp rest
  cases assembled
  exact ⟨census, ministry, option_mapM_eq_some censusRan,
    option_mapM_eq_some ministryRan, rfl⟩

theorem censusRows_keyed (book : RefreshBook) (campaign : Nat) :
    ((book.censusRows campaign).map
      fun row => CheckedItem.proposal row.pk).Nodup := by
  have keyed : ((book.censusRows campaign).map (·.pk)).Nodup :=
    book.changesKeyed.sublist (List.filter_sublist.map _)
  have mapped := keyed.map (f := CheckedItem.proposal)
    fun _ _ same => CheckedItem.proposal.inj same
  rwa [List.map_map] at mapped

theorem decidedRequests_keyed (book : RefreshBook) (campaign : Nat) :
    ((book.decidedRequests campaign).map
      fun row => CheckedItem.request row.pk).Nodup := by
  have keyed : ((book.decidedRequests campaign).map (·.pk)).Nodup :=
    book.requestsKeyed.sublist (List.filter_sublist.map _)
  have mapped := keyed.map (f := CheckedItem.request)
    fun _ _ same => CheckedItem.request.inj same
  rwa [List.map_map] at mapped

/-- Filtering by an item and its version is filtering by the item, when the
item's checks are all at that version. -/
theorem filter_version
    {checks : List StoredCheck} {item : CheckedItem} {version : Nat}
    {result : Option StoredCheck}
    (found : checks.filter (fun check => check.item = item) = result.toList)
    (versioned : ∀ check, result = some check → check.itemVersion = version) :
    checks.filter (fun check =>
      decide (check.item = item ∧ check.itemVersion = version)) =
      result.toList := by
  have splits : (fun check : StoredCheck =>
      decide (check.item = item ∧ check.itemVersion = version)) =
      fun check => decide (check.itemVersion = version) &&
        decide (check.item = item) := by
    funext check
    rw [Bool.decide_and, Bool.and_comm]
  rw [splits, ← List.filter_filter, found]
  cases result with
  | none => rfl
  | some check =>
      exact List.filter_cons_of_pos (decide_eq_true (versioned check rfl))

/-- A mark made again is read from checks before the change's version, which no
new check is. -/
theorem remarked_eq
    {book recorded : RefreshBook} {added : List StoredCheck}
    (done : Recorded book recorded added) {row : ProposedChange}
    (versioned : ∀ check ∈ added, check.item = .proposal row.pk →
      check.itemVersion = row.version) :
    recorded.remarked row = book.remarked row := by
  unfold remarked
  have none : added.filter (fun check =>
      decide (check.item = .proposal row.pk ∧
        check.itemVersion + 1 = row.version)) = [] := by
    refine List.filter_eq_nil_iff.mpr fun check member before => ?_
    obtain ⟨item, version⟩ := of_decide_eq_true before
    have same := versioned check member item
    omega
  rw [done.checks, List.filter_append, none, List.append_nil]

section Again

variable [Unicode] {book recorded : RefreshBook} {added : List StoredCheck}
  {campaign : Nat} {refresh : Refresh}

/-- The new checks of a census change are its own one, if any. -/
theorem added_of_censusRow
    (owes : book.owedChecks campaign refresh = some added)
    {row : ProposedChange} (member : row ∈ book.censusRows campaign) :
    ∃ result, book.censusCheck refresh row = some result ∧
      added.filter (fun check => check.item = .proposal row.pk) =
        result.toList := by
  obtain ⟨census, ministry, censusRan, ministryRan, rfl⟩ :=
    owedChecks_eq_some owes
  obtain ⟨result, _, ran⟩ := exists_output_of_forall₂ censusRan member
  refine ⟨result, ran, ?_⟩
  have own := filter_reduceOption_of_mem censusRan
    (book.censusRows_keyed campaign)
    (fun _ _ found => (censusCheck_labels found).1) member ran
  have others := filter_reduceOption_of_not_mem (.proposal row.pk) ministryRan
    (fun _ _ found => (ministryCheck_labels found).1)
    (fun shared => by
      obtain ⟨_, _, same⟩ := List.mem_map.mp shared
      cases same)
  rw [List.filter_append, own, others, List.append_nil]

theorem added_of_request
    (owes : book.owedChecks campaign refresh = some added)
    {row : FiledRequest} (member : row ∈ book.decidedRequests campaign) :
    ∃ result, book.ministryCheck refresh row = some result ∧
      added.filter (fun check => check.item = .request row.pk) =
        result.toList := by
  obtain ⟨census, ministry, censusRan, ministryRan, rfl⟩ :=
    owedChecks_eq_some owes
  obtain ⟨result, _, ran⟩ := exists_output_of_forall₂ ministryRan member
  refine ⟨result, ran, ?_⟩
  have own := filter_reduceOption_of_mem ministryRan
    (book.decidedRequests_keyed campaign)
    (fun _ _ found => (ministryCheck_labels found).1) member ran
  have others := filter_reduceOption_of_not_mem (.request row.pk) censusRan
    (fun _ _ found => (censusCheck_labels found).1)
    (fun shared => by
      obtain ⟨_, _, same⟩ := List.mem_map.mp shared
      cases same)
  rw [List.filter_append, own, others, List.nil_append]

/-- A census change owes nothing more to a quick refresh of the same data. To a
full one it owes an unchanged check below the threshold, or the conflict the
recorded quick refresh passed over. -/
theorem census_again
    (later : Refresh) (done : Recorded book recorded added)
    (owes : book.owedChecks campaign refresh = some added)
    (same : later.corpus = refresh.corpus) {row : ProposedChange}
    (member : row ∈ recorded.censusRows campaign) :
    (later.full = false → recorded.censusCheck later row = some none) ∧
      (later.full = true → ∀ check,
        recorded.censusCheck later row = some (some check) →
        (check.outcome = .unchanged ∧ row.execution = .resolvedExternal ∧
          (recorded.itemState (.proposal row.pk) row.version none).outcome =
            .unchanged ∧
          ∃ threshold, recorded.threshold = some threshold ∧
            (recorded.itemState (.proposal row.pk) row.version none).unseen <
              threshold) ∨
        (check.outcome = .conflict ∧ refresh.full = false ∧
          row.execution ≠ .resolvedExternal)) := by
  obtain ⟨result, ran, only⟩ :=
    added_of_censusRow owes (done.censusRows_subset member)
  have versions : ∀ check, result = some check →
      check.itemVersion = row.version := by
    rintro check rfl
    exact (censusCheck_labels ran).2
  have versioned : ∀ check ∈ added, check.item = .proposal row.pk →
      check.itemVersion = row.version := by
    intro check isAdded item
    have isOwn : check ∈ result.toList := by
      rw [← only]
      exact List.mem_filter.mpr ⟨isAdded, decide_eq_true item⟩
    exact versions check (Option.mem_toList.mp isOwn)
  have own := filter_version only versions
  have evidence := done.evidence_eq refresh later same row
  have remarked := remarked_eq done versioned
  have threshold : recorded.threshold = book.threshold := by
    rw [RefreshBook.threshold, done.start]
    rfl
  have bound := recorded.itemState_threshold (.proposal row.pk) row.version none
  rcases censusCheck_eq_some ran with ⟨confirmed, rfl⟩ | ⟨missing, rfl⟩ |
    ⟨current, stored, found, judged, made⟩
  · have still := itemState_of_append done.checks done.start none own
    have nothing : recorded.censusCheck later row = some none := by
      rw [censusCheck]
      exact if_pos (still ▸ confirmed)
    refine ⟨fun _ => nothing, fun _ check owed => ?_⟩
    rw [nothing] at owed
    cases owed
  · have nothing : recorded.censusCheck later row = some none := by
      rw [censusCheck]
      split
      · rfl
      · rw [evidence, missing]
        rfl
    refine ⟨fun _ => nothing, fun _ check owed => ?_⟩
    rw [nothing] at owed
    cases owed
  · have follows : CensusFollows
        (book.itemState (.proposal row.pk) row.version none)
        (recorded.itemState (.proposal row.pk) row.version none) stored
        current := by
      constructor
      · rintro outcome rfl
        rw [made] at own
        exact itemState_of_append_one done.checks done.start none own
      · rintro rfl
        rw [made] at own
        exact itemState_of_append done.checks done.start none own
    obtain ⟨quick, repeated⟩ := judgeCensus_after judged follows
    have judges : ∀ outcome, recorded.censusCheck later row = some outcome →
        outcome = none ∨ ∃ next, judgeCensus row (book.remarked row)
          (recorded.itemState (.proposal row.pk) row.version none)
          book.threshold later.full current = some next ∧
          outcome.map (·.outcome) = next := by
      intro outcome owed
      rcases censusCheck_eq_some owed with ⟨_, rfl⟩ | ⟨_, rfl⟩ |
        ⟨value, next, reads, judges, rfl⟩
      · exact Or.inl rfl
      · exact Or.inl rfl
      · rw [evidence, found] at reads
        cases reads
        rw [remarked, threshold] at judges
        refine Or.inr ⟨next, judges, ?_⟩
        rw [Option.map_map]
        exact Option.map_id'
    constructor
    · intro isQuick
      rw [censusCheck]
      split
      · rfl
      · rw [evidence, found, Option.bind_some, remarked, threshold, isQuick]
        exact congrArg (Option.map _) quick
    · intro isFull check owed
      rcases judges (some check) owed with impossible | ⟨next, judges, rfl⟩
      · cases impossible
      · rw [isFull] at judges
        rcases repeated check.outcome judges with
          ⟨unchanged, entered, settled, limit, reads, below⟩ |
            ⟨conflict, wasQuick⟩
        · exact Or.inl ⟨unchanged, entered, settled, limit,
            bound.symm.trans reads, below⟩
        · refine Or.inr ⟨conflict, wasQuick, ?_⟩
          rw [Option.map_some, conflict] at judges
          exact published_of_conflict judges

/-- A decided request owes nothing more to a quick refresh of the same data, and
to a full one an unchanged check below the threshold. -/
theorem ministry_again
    (later : Refresh) (done : Recorded book recorded added)
    (owes : book.owedChecks campaign refresh = some added)
    (same : later.corpus = refresh.corpus)
    (sameDate : later.refreshed = refresh.refreshed) {row : FiledRequest}
    (member : row ∈ recorded.decidedRequests campaign) :
    ∃ result, recorded.ministryCheck later row = some result ∧
      (later.full = false → result = none) ∧
      ∀ check, result = some check →
        check.outcome = .unchanged ∧ recorded.ticked row = true ∧
        (recorded.itemState (.request row.pk) row.version
          (recorded.tickedAt row.pk)).outcome = .unchanged ∧
        ∃ threshold, recorded.threshold = some threshold ∧
          (recorded.itemState (.request row.pk) row.version
            (recorded.tickedAt row.pk)).unseen < threshold := by
  have isRow : row ∈ book.decidedRequests campaign := by
    unfold decidedRequests inCampaign at member ⊢
    rw [done.requests, done.submission] at member
    exact member
  obtain ⟨result, ran, only⟩ := added_of_request owes isRow
  have own := filter_version only (fun check isOwn => by
    subst isOwn
    exact (ministryCheck_labels ran).2)
  have mark : recorded.tickedAt row.pk = book.tickedAt row.pk := by
    unfold tickedAt tick
    rw [done.ticks]
  have ticked : recorded.ticked row = book.ticked row := by
    unfold RefreshBook.ticked tick
    rw [done.ticks]
  have stage : recorded.ministryStage row = book.ministryStage row := by
    rw [ministryStage, ticked]
    rfl
  have evidence : recorded.rosterEvidence later row =
      book.rosterEvidence refresh row := by
    unfold rosterEvidence
    rw [same, sameDate, done.submission, done.commitment]
  have threshold : recorded.threshold = book.threshold := by
    rw [RefreshBook.threshold, done.start]
    rfl
  have bound := recorded.itemState_threshold (.request row.pk) row.version
    (recorded.tickedAt row.pk)
  rcases ministryCheck_eq_some ran with ⟨confirmed, rfl⟩ | ⟨missing, rfl⟩ |
    ⟨current, outcome, found, compares, made⟩
  · have still := itemState_of_append done.checks done.start
      (book.tickedAt row.pk) own
    refine ⟨none, ?_, fun _ => rfl, fun _ owed => nomatch owed⟩
    rw [ministryCheck, mark]
    exact if_pos (still ▸ confirmed)
  · refine ⟨none, ?_, fun _ => rfl, fun _ owed => nomatch owed⟩
    rw [ministryCheck, evidence, missing]
    dsimp only
    split <;> rfl
  · rw [ministryCheck, evidence, found, mark]
    dsimp only
    split
    · exact ⟨none, rfl, fun _ => rfl, fun _ owed => nomatch owed⟩
    · rw [mark] at bound
      have stored := storedOutcome_refreshOutcome
        (fun left right : Bool => some (left == right)) (Or.inl stage) current
        (!(row.action == .join)) (row.action == .join) none
        ((recorded.itemState (.request row.pk) row.version
          (book.tickedAt row.pk)).unseen + later.full.toNat)
        ((book.itemState (.request row.pk) row.version
          (book.tickedAt row.pk)).unseen + refresh.full.toNat)
        book.threshold
      rw [compares] at stored
      obtain ⟨next, again, alike⟩ := Option.map_eq_some_iff.mp stored
      rw [threshold, again, Option.map_some, alike, ticked]
      refine ⟨_, rfl, ?_⟩
      cases kind : storedOutcome outcome with
      | none => exact ⟨fun _ => rfl, fun _ owed => nomatch owed⟩
      | some checked =>
          rw [kind, Option.bind_some] at made
          have follows : Follows
              (book.itemState (.request row.pk) row.version
                (book.tickedAt row.pk))
              (recorded.itemState (.request row.pk) row.version
                (book.tickedAt row.pk)) checked
              (owed checked (book.itemState (.request row.pk) row.version
                (book.tickedAt row.pk)) refresh.full (book.ticked row)
                false) := by
            constructor
            · intro due
              rw [made, if_pos due] at own
              exact (itemState_of_append_one done.checks done.start
                (book.tickedAt row.pk) own).1
            · intro due
              rw [made, if_neg (Bool.eq_false_iff.mp due)] at own
              exact itemState_of_append done.checks done.start
                (book.tickedAt row.pk) own
          obtain ⟨quick, repeated⟩ :=
            owed_after follows (fun _ => rfl) (fun _ => rfl)
          constructor
          · intro isQuick
            rw [Option.bind_some, isQuick, quick]
            rfl
          · intro check owes
            rw [Option.bind_some] at owes
            split at owes
            · rename_i due
              cases owes
              cases isFull : later.full with
              | false =>
                  rw [isFull, quick] at due
                  cases due
              | true =>
                  rw [isFull] at due
                  obtain ⟨unchanged, isMarked, settled, limit, reads, below⟩ :=
                    repeated due
                  exact ⟨unchanged, isMarked, settled, limit,
                    threshold ▸ bound.symm.trans reads, below⟩
            · cases owes

end Again

/-- A repeated unchanged check of a marked item below the threshold. -/
def Repeats (book : RefreshBook) (campaign : Nat) (check : StoredCheck) :
    Prop :=
  check.outcome = .unchanged ∧ ∃ threshold, book.threshold = some threshold ∧
    ((∃ row ∈ book.censusRows campaign, check.item = .proposal row.pk ∧
        row.execution = .resolvedExternal ∧
        (book.itemState (.proposal row.pk) row.version none).outcome =
          .unchanged ∧
        (book.itemState (.proposal row.pk) row.version none).unseen <
          threshold) ∨
      ∃ row ∈ book.decidedRequests campaign, check.item = .request row.pk ∧
        book.ticked row = true ∧
        (book.itemState (.request row.pk) row.version
          (book.tickedAt row.pk)).outcome = .unchanged ∧
        (book.itemState (.request row.pk) row.version
          (book.tickedAt row.pk)).unseen < threshold)

/-- The conflict check of a change Updated in ParishSoft. -/
def Undone (book : RefreshBook) (campaign : Nat) (check : StoredCheck) : Prop :=
  check.outcome = .conflict ∧ ∃ row ∈ book.censusRows campaign,
    check.item = .proposal row.pk ∧ row.execution = .published

/-- A first name Updated in ParishSoft, from A to B. -/
def updatedBook : RefreshBook where
  submission := fun _ => ⟨1, 7, 1, 1, true⟩
  changes := [{
    pk := 1
    submission := 1
    item := ⟨.member, "5", .member .firstName⟩
    baseline := some (.text ['A'])
    submittedValue := .text ['B']
    current := some (.text ['B'])
    currentSource := 1
    adminValue := none
    handling := .api
    decision := .approved
    execution := .published
    supersededBy := none
    version := 3 }]
  marks := []
  requests := []
  ticks := []
  checks := []
  start := some ⟨0, 2, by decide, by decide⟩
  commitment := none
  changesKeyed := by decide
  requestsKeyed := by decide

/-- A quick refresh of data in which the first name is A again. -/
def undoneRefresh : Refresh where
  snapshot := 2
  corpus := {
    member := fun key =>
      if key = "5" then
        some ⟨5, "7", true, false, fun _ => some (.text ['A'])⟩
      else
        none
    contact := fun _ => none
    family := fun _ => none
    address := fun _ => none
    ministry := fun _ => none
    roster := [] }
  refreshed := none
  full := false
  now := 10

end RefreshBook

end ParishKit.Responses
