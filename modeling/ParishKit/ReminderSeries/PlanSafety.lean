import ParishKit.ReminderSeries.Edited

/-!
# Series edits are safe

A plan that is made leaves a document whose series are valid. It removes unsent
reminders of the series alone, no earlier than the cut, and the resulting series has
exactly one reminder on each date of a new rule.
-/

namespace ParishKit.ReminderSeries

open ParishKit.Lib ParishKit.Campaigns ParishKit.Configuration

variable {Time : Type} {clock : Clock Time} {document after : Document}
  {series : Entry Text Series} {rows : List Row}

/-! ## The rows of a series -/

/-- The rows of a valid series: its members, each with the date of its schedule, which
the rule gives. -/
structure SeriesRows (document : Document) (series : Entry Text Series) (dates : List Text)
    (rows : List Row) : Prop where
  perm : (rows.map Row.member).Perm series.values.schedules
  distinct : (rows.map Row.member).Nodup
  saved : ∀ row ∈ rows, ∃ schedule, valuesOf document.schedules row.member = some schedule ∧
    schedule.date = some row.date
  dated : ∀ row ∈ rows, row.date ∈ dates

theorem valuesOf_campaignSchedules (distinct : (document.schedules.map Entry.key).Nodup)
    {campaignId member : Text} {schedule : Schedule}
    (isSchedule : valuesOf (campaignSchedules document campaignId) member = some schedule) :
    valuesOf document.schedules member = some schedule := by
  have kept : ((campaignSchedules document campaignId).map Entry.key).Nodup :=
    distinct.sublist (List.filter_sublist.map _)
  have isEntry := (valuesOf_eq_some kept).mp isSchedule
  exact (valuesOf_eq_some distinct).mpr (List.mem_filter.mp isEntry).1

theorem seriesRows_of_ordered (distinct : document.Distinct)
    (holds : series.values.Holds document) {dates : List Text}
    (isDates : ruleDates series.values.rule = some dates)
    (isOrdered : orderedRows clock (campaignSchedules document series.values.campaignId)
      series.values.schedules = .ok rows) :
    SeriesRows document series dates rows := by
  obtain ⟨perm, each⟩ := orderedRows_eq_ok isOrdered
  obtain ⟨own, isOwn, members⟩ := holds.members
  rw [isDates] at isOwn
  cases isOwn
  have saved : ∀ row ∈ rows, ∃ schedule,
      valuesOf document.schedules row.member = some schedule ∧
        schedule.date = some row.date := by
    intro row isIn
    obtain ⟨_, schedule, isSchedule, isDate, _⟩ := rowOf_eq_some (each row isIn)
    exact ⟨schedule, valuesOf_campaignSchedules distinct.schedules isSchedule, isDate⟩
  refine ⟨perm, perm.nodup_iff.mpr (holds.increasing.imp ne_of_lt), saved, ?_⟩
  intro row isIn
  obtain ⟨schedule, isSchedule, isDate⟩ := saved row isIn
  have isReminder := members row.member (perm.mem_iff.mp (List.mem_map_of_mem isIn))
  unfold isMember at isReminder
  rw [isSchedule] at isReminder
  simp only [isDate, Option.any_some, Bool.and_eq_true, List.contains_iff_mem] at isReminder
  exact isReminder.2

theorem SeriesRows.mem {dates : List Text} (isRows : SeriesRows document series dates rows)
    {row : Row} (isIn : row ∈ rows) : row.member ∈ series.values.schedules :=
  isRows.perm.mem_iff.mp (List.mem_map_of_mem isIn)

/-! ## The members in order -/

theorem mem_inOrder {member : Text} {members : List Text} :
    member ∈ inOrder members ↔ member ∈ members :=
  List.mem_insertionSort _

theorem inOrder_increasing {members : List Text} (distinct : members.Nodup) :
    (inOrder members).Pairwise (· < ·) := by
  have ordered : (inOrder members).Pairwise (· ≤ ·) :=
    List.pairwise_insertionSort (· ≤ ·) members
  have stillDistinct : (inOrder members).Nodup :=
    (List.perm_insertionSort _ members).nodup_iff.mpr distinct
  exact (ordered.and stillDistinct).imp fun both => lt_of_le_of_ne both.1 both.2

/-! ## Series of the edited document -/

/-- A series made of reminders that the edit keeps or adds is valid, when its rule is
stored and gives their dates. -/
theorem holds_made {campaignId : Text} {rule : Members} {dates : List Text}
    {members : List Text} (campaign : campaignId ∈ after.campaigns)
    (isStored : canonicalRule rule = some (some rule)) (isDates : ruleDates rule = some dates)
    (some : members ≠ []) (distinct : members.Nodup)
    (uuids : ∀ member ∈ members, isUuid member = true)
    (reminders : ∀ member ∈ members, isMember after campaignId dates member = true) :
    (⟨campaignId, rule, inOrder members⟩ : Series).Holds after := by
  refine ⟨campaign, isStored_of_canonicalRule isStored, ?_, ?_, inOrder_increasing distinct,
    dates, isDates, ?_⟩
  · intro noMembers
    apply some
    rw [List.eq_nil_iff_forall_not_mem] at noMembers ⊢
    exact fun member isIn => noMembers member (mem_inOrder.mpr isIn)
  · exact fun member isIn => uuids member (mem_inOrder.mp isIn)
  · exact fun member isIn => reminders member (mem_inOrder.mp isIn)

/-- A reminder that the edit keeps is one of its campaign, on its own date. -/
theorem isMember_kept (holds : series.values.Holds document) {dates newDates : List Text}
    (isRows : SeriesRows document series dates rows) {row : Row} (isIn : row ∈ rows)
    (same : valuesOf after.schedules row.member = valuesOf document.schedules row.member)
    (isDate : row.date ∈ newDates) :
    isMember after series.values.campaignId newDates row.member = true := by
  obtain ⟨own, _, members⟩ := holds.members
  obtain ⟨schedule, isSchedule, isOwnDate⟩ := isRows.saved row isIn
  have isReminder := members row.member (isRows.mem isIn)
  rw [isMember_congr same]
  unfold isMember at isReminder ⊢
  rw [isSchedule] at isReminder ⊢
  simp only [isOwnDate, Option.any_some, Bool.and_eq_true, List.contains_iff_mem]
    at isReminder ⊢
  exact ⟨isReminder.1, isDate⟩

theorem isMember_added {campaignId member : Text} {wanted : Wanted} {dates : List Text}
    (isAdded : valuesOf after.schedules member = some (wanted.schedule campaignId))
    (isDate : wanted.date ∈ dates) : isMember after campaignId dates member = true := by
  unfold isMember Wanted.schedule at *
  rw [isAdded]
  simp [isDate]

/-- The date that a document gives a reminder. -/
def dateIn (document : Document) (member : Text) : Option Text :=
  (valuesOf document.schedules member).bind Schedule.date

theorem mem_afterCut {row anchor : Row} :
    row ∈ afterCut rows anchor ↔ row ∈ rows ∧ ¬ row.date < anchor.date := by
  unfold afterCut
  rw [List.mem_filter, decide_eq_true_eq]

theorem mem_beforeCut {row anchor : Row} :
    row ∈ beforeCut rows anchor ↔ row ∈ rows ∧ row.date < anchor.date := by
  unfold beforeCut
  rw [List.mem_filter, decide_eq_true_eq]

theorem mem_replacedMembers {late : List Row} {keep : List Text} {member : Text} :
    member ∈ replacedMembers late keep ↔ (∃ row ∈ late, row.member = member) ∧ member ∉ keep := by
  unfold replacedMembers
  rw [List.mem_filter, List.mem_map, decide_eq_true_eq]

/-- The series that holds the result: valid, on each date of the result once, and made of
the reminders kept and added. -/
theorem result_holds {anchor : Row} {dates newDates : List Text} {keep added : List Text}
    {add : List Wanted} {newRule : Members} {days : List Text} {outcome : Outcome}
    {fresh : Text} (holds : series.values.Holds document)
    (isRows : SeriesRows document series dates rows)
    (placed : Placed (afterCut rows anchor) days (keep, add)) (someDays : days ≠ [])
    (isStored : canonicalRule newRule = some (some newRule))
    (isDates : ruleDates newRule = some newDates) (gives : ∀ day ∈ days, day ∈ newDates)
    (isFresh : Fresh document outcome added fresh) (isAdd : outcome.add = add)
    (campaigns : after.campaigns = document.campaigns)
    (kept : ∀ member, member ∉ replacedMembers (afterCut rows anchor) keep →
      member ∉ added → valuesOf after.schedules member = valuesOf document.schedules member)
    (additions : ∀ pair ∈ added.zip outcome.add, valuesOf after.schedules pair.1 =
      some (pair.2.schedule series.values.campaignId)) :
    (⟨series.values.campaignId, newRule, inOrder (added ++ inOrder keep)⟩ : Series).Holds after ∧
      ((inOrder (added ++ inOrder keep)).map (dateIn after)).Perm (days.map some) ∧
      ∀ member ∈ keep, member ∈ series.values.schedules := by
  obtain ⟨⟨keptRows, isKept, within, perm⟩, keepDistinct⟩ := placed
  dsimp only at isKept perm keepDistinct
  have isOwn : ∀ row ∈ keptRows, row ∈ rows := fun row isIn => (mem_afterCut.mp (within row isIn)).1
  have ownMember : ∀ member ∈ keep, member ∈ series.values.schedules := by
    intro member isIn
    rw [isKept] at isIn
    obtain ⟨row, isRow, rfl⟩ := List.mem_map.mp isIn
    exact isRows.mem (isOwn row isRow)
  have sameKept : ∀ member ∈ keep,
      valuesOf after.schedules member = valuesOf document.schedules member := by
    intro member isIn
    refine kept member (fun isRemoved => (mem_replacedMembers.mp isRemoved).2 isIn) ?_
    exact fun isAdded => isFresh.new member isAdded (holds.present (ownMember member isIn))
  have keptDates : keep.map (dateIn after) = (keptRows.map Row.date).map some := by
    rw [isKept, List.map_map, List.map_map]
    refine List.map_congr_left fun row isIn => ?_
    obtain ⟨schedule, isSchedule, isDate⟩ := isRows.saved row (isOwn row isIn)
    have isMember : row.member ∈ keep := by
      rw [isKept]
      exact List.mem_map_of_mem isIn
    rw [Function.comp_apply, Function.comp_apply, dateIn, sameKept _ isMember, isSchedule]
    exact isDate
  have addedDates : added.map (dateIn after) = (add.map Wanted.date).map some := by
    have pairs : (added.zip outcome.add).map (fun pair => dateIn after pair.1) =
        (added.zip outcome.add).map fun pair => some pair.2.date := by
      refine List.map_congr_left fun pair isPair => ?_
      rw [dateIn, additions pair isPair]
      rfl
    have firsts : (added.zip outcome.add).map (fun pair => dateIn after pair.1) =
        added.map (dateIn after) := by
      rw [← isFresh.zip_keys, List.map_map, isFresh.zip_keys]
      rfl
    have seconds : (added.zip outcome.add).map (fun pair => some pair.2.date) =
        (outcome.add.map Wanted.date).map some := by
      have back : (added.zip outcome.add).map Prod.snd = outcome.add :=
        List.map_snd_zip isFresh.length.ge
      rw [← back, List.map_map, List.map_map, back]
      rfl
    rw [← firsts, pairs, seconds, isAdd]
  have allDates : ((added ++ inOrder keep).map (dateIn after)).Perm (days.map some) := by
    have keepPerm : ((inOrder keep).map (dateIn after)).Perm (keep.map (dateIn after)) :=
      (List.perm_insertionSort _ keep).map _
    rw [List.map_append, addedDates]
    refine (keepPerm.append_left _).trans ?_
    rw [keptDates]
    refine List.perm_append_comm.trans ?_
    rw [← List.map_append]
    exact perm.map some
  refine ⟨?_, ((List.perm_insertionSort _ _).map _).trans allDates, ownMember⟩
  refine holds_made (campaigns ▸ holds.campaign) isStored isDates ?_ ?_ ?_ ?_
  · intro noMembers
    rw [noMembers] at allDates
    exact someDays (List.map_eq_nil_iff.mp allDates.nil_eq.symm)
  · rw [List.nodup_append]
    refine ⟨isFresh.distinct, (inOrder_increasing keepDistinct).imp ne_of_lt, ?_⟩
    rintro member isAdded other isOther rfl
    exact isFresh.new member isAdded (holds.present (ownMember member (mem_inOrder.mp isOther)))
  · intro member isIn
    rcases List.mem_append.mp isIn with isAdded | isOther
    · exact isFresh.uuids member isAdded
    · exact holds.uuids member (ownMember member (mem_inOrder.mp isOther))
  · intro member isIn
    have isDay : ∀ day, dateIn after member = some day → day ∈ newDates := by
      intro day isDate
      have inDays := allDates.mem_iff.mp (List.mem_map_of_mem (f := dateIn after) isIn)
      rw [isDate] at inDays
      obtain ⟨other, isOther, same⟩ := List.mem_map.mp inDays
      cases same
      exact gives day isOther
    rcases List.mem_append.mp isIn with isAdded | isOther
    · rw [← isFresh.zip_keys] at isAdded
      obtain ⟨pair, isPair, rfl⟩ := List.mem_map.mp isAdded
      refine isMember_added (additions pair isPair) (isDay _ ?_)
      rw [dateIn, additions pair isPair]
      rfl
    · have isKeep := mem_inOrder.mp isOther
      have sameValues := sameKept member isKeep
      rw [isKept] at isKeep
      obtain ⟨row, isRow, rfl⟩ := List.mem_map.mp isKeep
      obtain ⟨schedule, isSchedule, isDate⟩ := isRows.saved row (isOwn row isRow)
      refine isMember_kept holds isRows (isOwn row isRow) sameValues (isDay _ ?_)
      rw [dateIn, sameValues, isSchedule]
      exact isDate

/-- The earlier reminders of a series, under its rule up to the day before the cut. -/
theorem shortened_holds {anchor : Row} {dates : List Text} {keep added : List Text}
    {last : Text} {rule : Members} (holds : series.values.Holds document)
    (isRows : SeriesRows document series dates rows)
    (isDates : ruleDates series.values.rule = some dates) (isAnchor : anchor ∈ rows)
    (isBefore : beforeCut rows anchor ≠ []) (isLast : dayBefore anchor.date = some last)
    (isRule : canonicalRule (withMember series.values.rule "end" (.string last)) =
      some (some rule))
    (notThere : ∀ member ∈ added, member ∉ document.schedules.map Entry.key)
    (campaigns : after.campaigns = document.campaigns)
    (kept : ∀ member, member ∉ replacedMembers (afterCut rows anchor) keep →
      member ∉ added → valuesOf after.schedules member = valuesOf document.schedules member) :
    (⟨series.values.campaignId, rule, inOrder ((beforeCut rows anchor).map Row.member)⟩ :
      Series).Holds after := by
  obtain ⟨first, isFirst⟩ := List.exists_mem_of_ne_nil _ isBefore
  obtain ⟨firstIn, firstEarly⟩ := mem_beforeCut.mp isFirst
  obtain ⟨day, stored, keptDates, isDay, isStored, isKeptDates, gives⟩ :=
    canonicalRule_until isDates (isRows.dated anchor isAnchor) (isRows.dated first firstIn)
      firstEarly
  rw [isLast] at isDay
  cases isDay
  rw [isRule] at isStored
  cases isStored
  have sameValues : ∀ row ∈ beforeCut rows anchor,
      valuesOf after.schedules row.member = valuesOf document.schedules row.member := by
    intro row isIn
    obtain ⟨isRow, early⟩ := mem_beforeCut.mp isIn
    refine kept row.member (fun isRemoved => ?_) fun isAdded =>
      notThere row.member isAdded (holds.present (isRows.mem isRow))
    obtain ⟨⟨other, isOther, same⟩, _⟩ := mem_replacedMembers.mp isRemoved
    obtain ⟨otherIn, late⟩ := mem_afterCut.mp isOther
    have sameRow := List.inj_on_of_nodup_map isRows.distinct otherIn isRow same
    exact late (sameRow ▸ early)
  refine holds_made (campaigns ▸ holds.campaign) (canonicalRule_stored isRule) isKeptDates
    ?_ ?_ ?_ ?_
  · exact fun noRows => isBefore (List.map_eq_nil_iff.mp noRows)
  · exact isRows.distinct.sublist (List.filter_sublist.map _)
  · intro member isIn
    obtain ⟨row, isRow, rfl⟩ := List.mem_map.mp isIn
    exact holds.uuids _ (isRows.mem (mem_beforeCut.mp isRow).1)
  · intro member isIn
    obtain ⟨row, isRow, rfl⟩ := List.mem_map.mp isIn
    obtain ⟨rowIn, early⟩ := mem_beforeCut.mp isRow
    exact isMember_kept holds isRows rowIn (sameValues row isRow)
      ((gives row.date).mpr ⟨isRows.dated row rowIn, early⟩)

/-! ## The edited document -/

/-- A document after a plan is carried out: what the edited series became and the new
one, and that no reminder is lost or shared. -/
structure Carried (document after : Document) (series : Entry Text Series) (rows : List Row)
    (readOnly : List Text) (scope : Scope) (start : Option Text) (rule : Option Members)
    (outcome : Outcome) (added : List Text) (fresh : Text) (old new : Option Series) : Prop
    where
  edit : EditedTo document after series fresh outcome.remove added old new
  removes : outcome.remove ⊆ series.values.schedules
  unsent : ∀ member ∈ outcome.remove, member ∉ readOnly
  oldHolds : ∀ left ∈ old, left.Holds after
  newHolds : ∀ left ∈ new, left.Holds after
  own : ∀ left, left ∈ old ∨ left ∈ new → ∀ member ∈ left.schedules,
    member ∈ series.values.schedules ∨ member ∈ added
  apart : ∀ left ∈ old, ∀ right ∈ new, ∀ member ∈ left.schedules, member ∉ right.schedules
  stays : scope ≠ .delete → ∀ member ∈ series.values.schedules, member ∉ outcome.remove →
    ∃ left, (left ∈ old ∨ left ∈ new) ∧ member ∈ left.schedules
  earlier : ∀ anchor, scope ≠ .delete → cut rows readOnly scope start = .ok anchor →
    ∀ row ∈ beforeCut rows anchor, ∃ left ∈ old, row.member ∈ left.schedules
  result : ∀ held ∈ outcome.series, ∀ given ∈ rule, ∃ result dates,
    (result ∈ old ∨ result ∈ new) ∧ result.rule = given ∧ ruleDates given = some dates ∧
      (result.schedules.map (dateIn after)).Perm (dates.map some)

section Carrying

variable {readOnly : List Text} {scope : Scope} {start : Option Text} {rule : Option Members}
  {values : NewValues} {outcome : Outcome} {added : List Text} {fresh : Text}
  {dates : List Text}

/-- Deleting a series leaves no series behind. -/
theorem carried_deleted (distinct : document.Distinct)
    (valid : validateSeriesRecords document = true) (isSeries : series ∈ document.series)
    (isRows : SeriesRows document series dates rows) (deletes : scope = .delete)
    (isOutcome : outcome = ⟨(rows.map Row.member).filter fun member => member ∉ readOnly, [],
      none, [.remove series.key]⟩) (isFresh : Fresh document outcome added fresh) :
    ∃ after old new,
      editSeries document series.values.campaignId outcome added fresh = some after ∧
        Carried document after series rows readOnly scope start rule outcome added fresh
          old new := by
  subst isOutcome
  have removes : ((rows.map Row.member).filter fun member => member ∉ readOnly) ⊆
      series.values.schedules := by
    intro member isRemoved
    exact isRows.perm.mem_iff.mp (List.mem_filter.mp isRemoved).1
  have isKey : series.key ∈ document.series.map Entry.key := List.mem_map_of_mem isSeries
  have apart : fresh ≠ series.key := fun same => isFresh.newSeries (same ▸ isKey)
  have fits : ∀ edit ∈ [(.remove series.key : SeriesEdit)], edit.Fits document.series := by
    intro edit member
    rw [List.mem_singleton.mp member]
    exact Edit.fits_of_mem rfl isKey
  obtain ⟨after, applies, edit, _⟩ := @editSeries_eq document series _ added fresh none none
    distinct valid isSeries isFresh (isRows.distinct.filter _) removes
    (by simp [seriesPatch, Edit.key]) (by simp [seriesPatch]) fits
    (by simp [seriesPatch, edited, Lib.findRecord, Edit.key, Edit.effect])
    (by simp [seriesPatch, edited, Lib.findRecord, Edit.key, apart.symm])
    (by simp [seriesPatch, Edit.key])
  refine ⟨after, none, none, applies, edit, removes, ?_, by simp, by simp, ?_, by simp, ?_, ?_,
    by simp⟩
  · intro member isRemoved
    exact of_decide_eq_true (List.mem_filter.mp isRemoved).2
  · rintro left (isNone | isNone) <;> cases isNone
  · exact fun stays => absurd deletes stays
  · exact fun _ stays => absurd deletes stays

/-- Nothing to change. -/
theorem carried_nothing (distinct : document.Distinct)
    (valid : validateSeriesRecords document = true) (isSeries : series ∈ document.series)
    (holds : series.values.Holds document) (isRows : SeriesRows document series dates rows)
    (isOutcome : outcome = .nothing) (isFresh : Fresh document outcome added fresh) :
    ∃ after old new,
      editSeries document series.values.campaignId outcome added fresh = some after ∧
        Carried document after series rows readOnly scope start rule outcome added fresh
          old new := by
  subst isOutcome
  have noAdded : added = [] := List.length_eq_zero_iff.mp isFresh.length
  subst noAdded
  obtain ⟨after, applies, edit, _⟩ := @editSeries_eq document series .nothing [] fresh
    (some series.values) none distinct valid isSeries isFresh List.nodup_nil
    (List.nil_subset _) (by simp [seriesPatch, Outcome.nothing]) List.nodup_nil
    (by simp [seriesPatch, Outcome.nothing]) rfl rfl fun _ => rfl
  have same : ∀ member ∈ series.values.schedules,
      valuesOf after.schedules member = valuesOf document.schedules member :=
    fun member _ => edit.kept member List.not_mem_nil List.not_mem_nil
  have holdsAfter := (holds.unchanged edit.campaigns same).1
  refine ⟨after, some series.values, none, applies, edit, List.nil_subset _, ?_, ?_, by simp,
    ?_, ?_, ?_, ?_, by simp [Outcome.nothing]⟩
  · intro member isRemoved
    cases isRemoved
  · intro left isLeft
    cases isLeft
    exact holdsAfter
  · rintro left (isLeft | isLeft) member isIn
    · cases isLeft
      exact Or.inl isIn
    · cases isLeft
  · intro left _ right isRight
    cases isRight
  · exact fun _ member isIn _ => ⟨series.values, Or.inl rfl, isIn⟩
  · intro anchor _ _ row isRow
    exact ⟨series.values, rfl, isRows.mem (mem_beforeCut.mp isRow).1⟩

/-- What the steps of a plan give: the reminders placed on the dates of the result, and
its rule. -/
theorem Replaces.placed {anchor : Row} {wanted : List (Text × Option Row)}
    {newRule : Members} (isRows : SeriesRows document series dates rows)
    (isDates : ruleDates series.values.rule = some dates)
    (ruleStored : ∀ given ∈ rule, canonicalRule given = some (some given))
    (replaces : Replaces clock series rows readOnly scope start rule values anchor wanted
      newRule outcome) :
    Placed (afterCut rows anchor) (wanted.map Prod.fst)
        (wanted.foldl (placeTarget clock values anchor) ([], [])) ∧
      wanted.map Prod.fst ≠ [] ∧ canonicalRule newRule = some (some newRule) ∧
      ∃ newDates, ruleDates newRule = some newDates ∧
        (∀ day ∈ wanted.map Prod.fst, day ∈ newDates) ∧
        ∀ given ∈ rule, newRule = given ∧ wanted.map Prod.fst = newDates := by
  have isCut := isRows.dated anchor (cut_mem replaces.isCut)
  have late : ∀ row ∈ afterCut rows anchor, row.date ∈ dates ∧ ¬ row.date < anchor.date := by
    intro row isIn
    obtain ⟨isRow, isLate⟩ := mem_afterCut.mp isIn
    exact ⟨isRows.dated row isRow, isLate⟩
  obtain ⟨isStored, newDates, isNewDates, gives, given⟩ :=
    targets_rule isDates isCut late ruleStored replaces.targets
  exact ⟨placed_foldl values anchor (targets_dated replaces.targets),
    fun noDays => replaces.someWanted (List.map_eq_nil_iff.mp noDays), isStored, newDates,
    isNewDates, gives, given⟩

theorem removes_of_after {anchor : Row} {keep : List Text}
    (isRows : SeriesRows document series dates rows) :
    (replacedMembers (afterCut rows anchor) keep).Nodup ∧
      replacedMembers (afterCut rows anchor) keep ⊆ series.values.schedules := by
  constructor
  · exact (isRows.distinct.sublist (List.filter_sublist.map _)).filter _
  · intro member isRemoved
    obtain ⟨⟨row, isRow, rfl⟩, _⟩ := mem_replacedMembers.mp isRemoved
    exact isRows.mem (mem_afterCut.mp isRow).1

/-- Without earlier reminders the series itself takes the result. -/
theorem carried_replaced {anchor : Row} {wanted : List (Text × Option Row)}
    {newRule : Members} (distinct : document.Distinct)
    (valid : validateSeriesRecords document = true) (isSeries : series ∈ document.series)
    (holds : series.values.Holds document) (isRows : SeriesRows document series dates rows)
    (isDates : ruleDates series.values.rule = some dates)
    (ruleStored : ∀ given ∈ rule, canonicalRule given = some (some given))
    (replaces : Replaces clock series rows readOnly scope start rule values anchor wanted
      newRule outcome)
    (noBefore : beforeCut rows anchor = []) {keep : List Text} {add : List Wanted}
    (isPlaced : wanted.foldl (placeTarget clock values anchor) ([], []) = (keep, add))
    (isOutcome : outcome = ⟨replacedMembers (afterCut rows anchor) keep, add,
      some ⟨some series.key, newRule, inOrder keep⟩, []⟩)
    (isFresh : Fresh document outcome added fresh) :
    ∃ after old new,
      editSeries document series.values.campaignId outcome added fresh = some after ∧
        Carried document after series rows readOnly scope start rule outcome added fresh
          old new := by
  obtain ⟨placed, someDays, isStored, newDates, isNewDates, gives, isGiven⟩ :=
    replaces.placed isRows isDates ruleStored
  rw [isPlaced] at placed
  have unsent := replaces.unsent
  have isAnchor := replaces.isCut
  clear replaces
  subst isOutcome
  have isKey : series.key ∈ document.series.map Entry.key := List.mem_map_of_mem isSeries
  have different : fresh ≠ series.key := fun same => isFresh.newSeries (same ▸ isKey)
  obtain ⟨removeDistinct, removes⟩ := @removes_of_after document series rows dates
    anchor keep isRows
  let change : SeriesEdit := .update series.key ⟨some series.values.campaignId, some newRule,
    some (inOrder (added ++ inOrder keep))⟩
  let result : Series := ⟨series.values.campaignId, newRule, inOrder (added ++ inOrder keep)⟩
  have onlyKey : ∀ edit ∈ [change], edit.key = series.key ∧ edit.Fits document.series := by
    intro edit member
    rw [List.mem_singleton.mp member]
    exact ⟨rfl, Edit.fits_of_mem rfl isKey⟩
  obtain ⟨after, applies, edit, additions⟩ := @editSeries_eq document series _ added fresh
    (some result) none distinct valid isSeries isFresh removeDistinct removes
    (fun edit member => Or.inl (onlyKey edit member).1) (List.nodup_singleton _)
    (fun edit member => (onlyKey edit member).2) (@edited_cons_self _ _ _ _ Series.updated change [] _)
    (@edited_cons_of_ne _ _ _ _ Series.updated change [] fresh different none)
    (fun absent => absurd List.mem_cons_self absent)
  obtain ⟨resultHolds, resultDates, keepOwn⟩ := result_holds holds isRows placed someDays isStored
    isNewDates gives isFresh rfl edit.campaigns edit.kept additions
  refine ⟨after, some result, none, applies, edit, removes, ?_, ?_, by simp, ?_, ?_, ?_, ?_,
    ?_⟩
  · intro member isRemoved
    obtain ⟨⟨row, isRow, rfl⟩, _⟩ := mem_replacedMembers.mp isRemoved
    exact unsent row isRow
  · intro left isLeft
    cases isLeft
    exact resultHolds
  · rintro left (isLeft | isLeft) member isIn
    · cases isLeft
      rcases List.mem_append.mp (mem_inOrder.mp isIn) with isAdded | isKept
      · exact Or.inr isAdded
      · exact Or.inl (keepOwn member (mem_inOrder.mp isKept))
    · cases isLeft
  · intro left _ right isRight
    cases isRight
  · intro _ member isIn notRemoved
    refine ⟨result, Or.inl rfl, mem_inOrder.mpr (List.mem_append_right _ (mem_inOrder.mpr ?_))⟩
    obtain ⟨row, isRow, rfl⟩ := List.mem_map.mp (isRows.perm.mem_iff.mpr isIn)
    by_contra notKept
    refine notRemoved (mem_replacedMembers.mpr ⟨⟨row, mem_afterCut.mpr ⟨isRow, ?_⟩, rfl⟩, notKept⟩)
    intro isEarly
    have isBefore := mem_beforeCut.mpr ⟨isRow, isEarly⟩
    rw [noBefore] at isBefore
    cases isBefore
  · intro other _ isOther row isRow
    rw [isAnchor] at isOther
    cases isOther
    rw [noBefore] at isRow
    cases isRow
  · intro held _ given isRule
    obtain ⟨sameRule, sameDays⟩ := isGiven given isRule
    subst sameRule
    rw [sameDays] at resultDates
    exact ⟨result, newDates, Or.inl rfl, rfl, isNewDates, resultDates⟩

/-- With earlier reminders a new series takes the result, and the old one keeps them. -/
theorem carried_split {anchor : Row} {wanted : List (Text × Option Row)}
    {newRule : Members} {shortened : SeriesEdit} (distinct : document.Distinct)
    (valid : validateSeriesRecords document = true) (isSeries : series ∈ document.series)
    (holds : series.values.Holds document) (isRows : SeriesRows document series dates rows)
    (isDates : ruleDates series.values.rule = some dates)
    (ruleStored : ∀ given ∈ rule, canonicalRule given = some (some given))
    (replaces : Replaces clock series rows readOnly scope start rule values anchor wanted
      newRule outcome)
    (isBefore : beforeCut rows anchor ≠ [])
    (isShortened : endBefore series anchor.date ((beforeCut rows anchor).map Row.member) =
      .ok shortened) {keep : List Text} {add : List Wanted}
    (isPlaced : wanted.foldl (placeTarget clock values anchor) ([], []) = (keep, add))
    (isOutcome : outcome = ⟨replacedMembers (afterCut rows anchor) keep, add,
      some ⟨none, newRule, inOrder keep⟩, [shortened]⟩)
    (isFresh : Fresh document outcome added fresh) :
    ∃ after old new,
      editSeries document series.values.campaignId outcome added fresh = some after ∧
        Carried document after series rows readOnly scope start rule outcome added fresh
          old new := by
  obtain ⟨placed, someDays, isStored, newDates, isNewDates, gives, isGiven⟩ :=
    replaces.placed isRows isDates ruleStored
  rw [isPlaced] at placed
  have unsent := replaces.unsent
  have isAnchor := replaces.isCut
  clear replaces
  obtain ⟨last, oldRule, isLast, isOldRule, rfl⟩ := endBefore_eq_ok isShortened
  subst isOutcome
  have isKey : series.key ∈ document.series.map Entry.key := List.mem_map_of_mem isSeries
  have different : fresh ≠ series.key := fun same => isFresh.newSeries (same ▸ isKey)
  obtain ⟨removeDistinct, removes⟩ := @removes_of_after document series rows dates
    anchor keep isRows
  let earlier := inOrder ((beforeCut rows anchor).map Row.member)
  let left : Series := ⟨series.values.campaignId, oldRule, earlier⟩
  let result : Series := ⟨series.values.campaignId, newRule, inOrder (added ++ inOrder keep)⟩
  let addition : SeriesEdit := .add fresh result
  let change : SeriesEdit := .update series.key ⟨none, some oldRule, some earlier⟩
  have named : ∀ edit ∈ [addition, change],
      (edit.key = series.key ∨ edit.key = fresh) ∧ edit.Fits document.series := by
    intro edit member
    rcases List.mem_cons.mp member with rfl | member
    · exact ⟨Or.inr rfl, Edit.fits_of_not_mem rfl isFresh.newSeries⟩
    · rw [List.mem_singleton.mp member]
      exact ⟨Or.inl rfl, Edit.fits_of_mem rfl isKey⟩
  have namedDistinct : ([addition, change].map Edit.key).Nodup :=
    List.nodup_cons.mpr ⟨fun member => different (List.mem_singleton.mp member),
      List.nodup_singleton _⟩
  obtain ⟨after, applies, edit, additions⟩ := @editSeries_eq document series _ added fresh
    (some left) (some result) distinct valid isSeries isFresh removeDistinct removes
    (fun edit member => (named edit member).1) namedDistinct
    (fun edit member => (named edit member).2)
    (@edited_of_mem _ _ _ _ Series.updated [addition, change] namedDistinct change
      (List.mem_cons_of_mem _ List.mem_cons_self) _)
    (@edited_of_mem _ _ _ _ Series.updated [addition, change] namedDistinct addition
      List.mem_cons_self none)
    (fun absent => absurd (List.mem_cons_of_mem _ List.mem_cons_self) absent)
  obtain ⟨resultHolds, resultDates, keepOwn⟩ := result_holds holds isRows placed someDays isStored
    isNewDates gives isFresh rfl edit.campaigns edit.kept additions
  have leftHolds := shortened_holds holds isRows isDates (cut_mem isAnchor) isBefore isLast
    isOldRule isFresh.new edit.campaigns edit.kept
  obtain ⟨⟨keptRows, isKept, within, _⟩, _⟩ := placed
  dsimp only at isKept
  refine ⟨after, some left, some result, applies, edit, removes, ?_, ?_, ?_, ?_, ?_, ?_, ?_, ?_⟩
  · intro member isRemoved
    obtain ⟨⟨row, isRow, rfl⟩, _⟩ := mem_replacedMembers.mp isRemoved
    exact unsent row isRow
  · intro one isOne
    cases isOne
    exact leftHolds
  · intro one isOne
    cases isOne
    exact resultHolds
  · rintro one (isOne | isOne) member isIn
    · cases isOne
      obtain ⟨row, isRow, rfl⟩ := List.mem_map.mp (mem_inOrder.mp isIn)
      exact Or.inl (isRows.mem (mem_beforeCut.mp isRow).1)
    · cases isOne
      rcases List.mem_append.mp (mem_inOrder.mp isIn) with isAdded | isKept
      · exact Or.inr isAdded
      · exact Or.inl (keepOwn member (mem_inOrder.mp isKept))
  · intro one isOne two isTwo member isIn isInTwo
    cases isOne
    cases isTwo
    obtain ⟨row, isRow, rfl⟩ := List.mem_map.mp (mem_inOrder.mp isIn)
    obtain ⟨rowIn, early⟩ := mem_beforeCut.mp isRow
    rcases List.mem_append.mp (mem_inOrder.mp isInTwo) with isAdded | inKeep
    · exact isFresh.new _ isAdded (holds.present (isRows.mem rowIn))
    · have isMember := mem_inOrder.mp inKeep
      rw [isKept] at isMember
      obtain ⟨other, isOther, same⟩ := List.mem_map.mp isMember
      obtain ⟨otherIn, late⟩ := mem_afterCut.mp (within other isOther)
      have sameRow := List.inj_on_of_nodup_map isRows.distinct otherIn rowIn same
      exact late (sameRow ▸ early)
  · intro _ member isIn notRemoved
    obtain ⟨row, isRow, rfl⟩ := List.mem_map.mp (isRows.perm.mem_iff.mpr isIn)
    by_cases early : row.date < anchor.date
    · exact ⟨left, Or.inl rfl, mem_inOrder.mpr
        (List.mem_map_of_mem (mem_beforeCut.mpr ⟨isRow, early⟩))⟩
    · refine ⟨result, Or.inr rfl, mem_inOrder.mpr
        (List.mem_append_right _ (mem_inOrder.mpr ?_))⟩
      by_contra notKept
      exact notRemoved (mem_replacedMembers.mpr
        ⟨⟨row, mem_afterCut.mpr ⟨isRow, early⟩, rfl⟩, notKept⟩)
  · intro other _ isOther row isRow
    rw [isAnchor] at isOther
    cases isOther
    exact ⟨left, rfl, mem_inOrder.mpr (List.mem_map_of_mem isRow)⟩
  · intro held _ given isRule
    obtain ⟨sameRule, sameDays⟩ := isGiven given isRule
    subst sameRule
    rw [sameDays] at resultDates
    exact ⟨result, newDates, Or.inr rfl, rfl, isNewDates, resultDates⟩

/-- A plan that is carried out leaves the series valid. -/
theorem Carried.valid {old new : Option Series}
    (carried : Carried document after series rows readOnly scope start rule outcome added fresh
      old new)
    (distinct : document.Distinct) (valid : validateSeriesRecords document = true)
    (isSeries : series ∈ document.series) (isFresh : Fresh document outcome added fresh) :
    validateSeriesRecords after = true :=
  carried.edit.valid distinct valid isSeries carried.removes isFresh.new carried.oldHolds
    carried.newHolds carried.own carried.apart

/-- A plan that is made can be carried out. -/
theorem plan_carried (distinct : document.Distinct)
    (valid : validateSeriesRecords document = true) (isSeries : series ∈ document.series)
    (ruleStored : ∀ given ∈ rule, canonicalRule given = some (some given))
    (planned : plan clock series (campaignSchedules document series.values.campaignId)
      readOnly scope start rule values = .ok outcome)
    (isFresh : Fresh document outcome added fresh) :
    ∃ rows after old new, orderedRows clock
        (campaignSchedules document series.values.campaignId) series.values.schedules =
          .ok rows ∧
      editSeries document series.values.campaignId outcome added fresh = some after ∧
      Carried document after series rows readOnly scope start rule outcome added fresh
        old new := by
  obtain ⟨each, _⟩ := (validateSeriesRecords_iff distinct.series).mp valid
  have holds := each series.key series.values ((valuesOf_eq_some distinct.series).mpr isSeries)
  obtain ⟨dates, isDates, _⟩ := holds.members
  obtain ⟨rows, isOrdered, ⟨deletes, isOutcome⟩ | ⟨anchor, wanted, newRule, replaces⟩⟩ :=
    plan_eq_ok planned
  · have isRows := seriesRows_of_ordered distinct holds isDates isOrdered
    obtain ⟨after, old, new, carried⟩ :=
      carried_deleted distinct valid isSeries isRows deletes isOutcome isFresh
    exact ⟨rows, after, old, new, isOrdered, carried⟩
  · have isRows := seriesRows_of_ordered distinct holds isDates isOrdered
    rcases replaces.outcome with isOutcome | ⟨noBefore, isOutcome⟩ |
      ⟨isBefore, shortened, isShortened, isOutcome⟩
    · obtain ⟨after, old, new, carried⟩ :=
        carried_nothing distinct valid isSeries holds isRows isOutcome isFresh
      exact ⟨rows, after, old, new, isOrdered, carried⟩
    · obtain ⟨after, old, new, carried⟩ := carried_replaced distinct valid isSeries holds isRows
        isDates ruleStored replaces noBefore rfl isOutcome isFresh
      exact ⟨rows, after, old, new, isOrdered, carried⟩
    · obtain ⟨after, old, new, carried⟩ := carried_split distinct valid isSeries holds isRows
        isDates ruleStored replaces isBefore isShortened rfl isOutcome isFresh
      exact ⟨rows, after, old, new, isOrdered, carried⟩

end Carrying

end ParishKit.ReminderSeries
