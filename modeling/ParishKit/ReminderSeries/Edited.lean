import ParishKit.ReminderSeries.PlanSteps

/-!
# The document after a series edit

The patch of an edit removes and adds reminders and changes at most two series, the
edited one and a new one. Every other series and every other reminder stays.
-/

namespace ParishKit.ReminderSeries

open ParishKit.Lib ParishKit.Campaigns ParishKit.Configuration

/-! ## Equal rules -/

theorem equalItems_int (numbers : List Int) :
    equalItems (numbers.map .int) (numbers.map .int) = true := by
  induction numbers with
  | nil => rfl
  | cons number rest inductionHypothesis =>
      rw [List.map_cons, equalItems, inductionHypothesis]
      simp [equal, pythonNumber, number?]

theorem equalRules_ruleOf (start stop : Text) (meaning : Repeat) :
    equalRules (ruleOf start stop meaning) (ruleOf start stop meaning) = true := by
  cases meaning with
  | weekly weekdays =>
      have items := equalItems_int weekdays
      simp [equalRules, ruleOf, Repeat.choice, equal, equalMembers, member?, items]
  | _ =>
      simp [equalRules, ruleOf, Repeat.choice, equal, equalMembers, member?, pythonNumber,
        number?]

/-- A stored form passes the check. -/
theorem isStored_of_canonicalRule {rule : Members}
    (isCanonical : canonicalRule rule = some (some rule)) : isStored rule = true := by
  obtain ⟨first, last, _, isRule⟩ := accepted_of_canonicalRule isCanonical
  have sameRule := equalRules_ruleOf (isoDate first) (isoDate last) (meaningOf rule).sorted
  rw [← isRule] at sameRule
  unfold isStored
  rw [isCanonical]
  exact sameRule

/-! ## The reminders -/

/-- New identities for the added reminders and for a new series. -/
structure Fresh (document : Document) (outcome : Outcome) (added : List Text)
    (fresh : Text) : Prop where
  length : added.length = outcome.add.length
  distinct : added.Nodup
  uuids : ∀ member ∈ added, isUuid member = true
  new : ∀ member ∈ added, member ∉ document.schedules.map Entry.key
  newSeries : fresh ∉ document.series.map Entry.key

section Reminders

variable {document : Document} {campaignId : Text} {outcome : Outcome} {added : List Text}
  {fresh : Text}

theorem Fresh.zip_keys (isFresh : Fresh document outcome added fresh) :
    (added.zip outcome.add).map Prod.fst = added :=
  List.map_fst_zip isFresh.length.le

theorem seriesPatch_keys (campaignId : Text) (isFresh : Fresh document outcome added fresh) :
    (seriesPatch campaignId outcome added fresh).schedules.map Edit.key =
      outcome.remove ++ added := by
  unfold seriesPatch
  rw [List.map_append, List.map_map, List.map_map]
  have removes : outcome.remove.map
      (Edit.key ∘ (Edit.remove : Text → ScheduleEdit)) = outcome.remove := List.map_id _
  have adds : (added.zip outcome.add).map (Edit.key ∘ fun pair =>
      (Edit.add pair.1 (pair.2.schedule campaignId) : ScheduleEdit)) = added := by
    exact isFresh.zip_keys
  rw [removes, adds]

/-- The operations on reminders apply: removed ones go, added ones are there, and the
others stay. -/
theorem schedules_edited (campaignId : Text) (removeDistinct : outcome.remove.Nodup)
    (present : ∀ member ∈ outcome.remove, member ∈ document.schedules.map Entry.key)
    (isFresh : Fresh document outcome added fresh) :
    ∃ schedules, applyEdits Schedule.updated [] document.schedules
        (seriesPatch campaignId outcome added fresh).schedules = some schedules ∧
      (∀ member ∈ outcome.remove, valuesOf schedules member = none) ∧
      (∀ pair ∈ added.zip outcome.add,
        valuesOf schedules pair.1 = some (pair.2.schedule campaignId)) ∧
      ∀ member, member ∉ outcome.remove → member ∉ added →
        valuesOf schedules member = valuesOf document.schedules member := by
  have keys := seriesPatch_keys campaignId isFresh
  have distinct : ((seriesPatch campaignId outcome added fresh).schedules.map
      Edit.key).Nodup := by
    rw [keys, List.nodup_append]
    refine ⟨removeDistinct, isFresh.distinct, ?_⟩
    rintro member isRemoved other isAdded rfl
    exact isFresh.new member isAdded (present member isRemoved)
  have isRemoval : ∀ member ∈ outcome.remove, (Edit.remove member : ScheduleEdit) ∈
      (seriesPatch campaignId outcome added fresh).schedules :=
    fun member isRemoved => List.mem_append_left _ (List.mem_map_of_mem isRemoved)
  have isAddition : ∀ pair ∈ added.zip outcome.add,
      (Edit.add pair.1 (pair.2.schedule campaignId) : ScheduleEdit) ∈
        (seriesPatch campaignId outcome added fresh).schedules :=
    fun pair isPair => List.mem_append_right _ (List.mem_map.mpr ⟨pair, isPair, rfl⟩)
  have fits : ∀ edit ∈ (seriesPatch campaignId outcome added fresh).schedules,
      edit.Fits document.schedules := by
    intro edit member
    rcases List.mem_append.mp member with isRemoved | isAdded
    · obtain ⟨key, isKey, rfl⟩ := List.mem_map.mp isRemoved
      exact Edit.fits_of_mem rfl (present key isKey)
    · obtain ⟨pair, isPair, rfl⟩ := List.mem_map.mp isAdded
      have isKey : pair.1 ∈ added := by
        rw [← isFresh.zip_keys]
        exact List.mem_map_of_mem isPair
      exact Edit.fits_of_not_mem rfl (isFresh.new pair.1 isKey)
  have applies : ∃ schedules, applyEdits Schedule.updated [] document.schedules
      (seriesPatch campaignId outcome added fresh).schedules = some schedules :=
    applyEdits_of_fits distinct (fun _ _ => List.not_mem_nil) fits
  obtain ⟨schedules, applied⟩ := applies
  obtain ⟨_, _, _, leaves⟩ := applyEdits_some applied
  refine ⟨schedules, applied, ?_, ?_, ?_⟩
  · intro member isRemoved
    rw [leaves]
    exact edited_of_mem distinct (isRemoval member isRemoved) _
  · intro pair isPair
    rw [leaves]
    exact edited_of_mem distinct (isAddition pair isPair) _
  · intro member notRemoved notAdded
    rw [leaves, edited_of_not_mem]
    rw [keys, List.mem_append, not_or]
    exact ⟨notRemoved, notAdded⟩

end Reminders

/-! ## The other series -/

theorem isMember_congr {document after : Document} {campaignId : Text} {dates : List Text}
    {member : Text}
    (same : valuesOf after.schedules member = valuesOf document.schedules member) :
    isMember after campaignId dates member = isMember document campaignId dates member := by
  unfold isMember
  rw [same]

/-- The reminders of a valid series are schedules of its document. -/
theorem Series.Holds.present {document : Document} {series : Series}
    (holds : series.Holds document) {member : Text} (isIn : member ∈ series.schedules) :
    member ∈ document.schedules.map Entry.key := by
  obtain ⟨dates, _, members⟩ := holds.members
  have isReminder := members member isIn
  by_contra absent
  unfold isMember at isReminder
  rw [valuesOf_eq_none.mpr absent] at isReminder
  cases isReminder

/-- A series whose reminders stay is valid as before, and needs nothing. -/
theorem Series.Holds.unchanged {document after : Document} {series : Series}
    (holds : series.Holds document) (campaigns : after.campaigns = document.campaigns)
    (same : ∀ member ∈ series.schedules,
      valuesOf after.schedules member = valuesOf document.schedules member) :
    series.Holds after ∧ ReminderSeries.remaining after.schedules series = Option.some series := by
  obtain ⟨dates, isDates, members⟩ := holds.members
  have membersAfter : ∀ member ∈ series.schedules,
      isMember after series.campaignId dates member = true := by
    intro member isIn
    rw [isMember_congr (same member isIn)]
    exact members member isIn
  refine ⟨⟨campaigns ▸ holds.campaign, holds.stored, holds.some, holds.uuids,
    holds.increasing, dates, isDates, membersAfter⟩, ?_⟩
  have stay : series.schedules.filter (onDate after.schedules dates) = series.schedules := by
    rw [List.filter_eq_self]
    intro member isIn
    have isReminder := membersAfter member isIn
    unfold isMember at isReminder
    unfold onDate
    cases isSchedule : valuesOf after.schedules member with
    | none =>
        rw [isSchedule] at isReminder
        cases isReminder
    | some schedule =>
        rw [isSchedule] at isReminder
        rw [Option.any_some]
        exact (Bool.and_eq_true _ _ ▸ isReminder).2
  unfold ReminderSeries.remaining
  rw [isDates, Option.getD_some]
  dsimp only
  rw [stay, if_neg holds.some]

/-! ## The edited document -/

/-- A document after an edit of a series: the reminders removed and added, what the
series became, and the new series if there is one. -/
structure EditedTo (document after : Document) (series : Entry Text Series) (fresh : Text)
    (removed added : List Text) (old new : Option Series) : Prop where
  campaigns : after.campaigns = document.campaigns
  distinct : after.Distinct
  gone : ∀ member ∈ removed, valuesOf after.schedules member = none
  kept : ∀ member, member ∉ removed → member ∉ added →
    valuesOf after.schedules member = valuesOf document.schedules member
  series : ∀ key, valuesOf after.series key =
    if key = series.key then old else if key = fresh then new
    else valuesOf document.series key

/-- An edit of a series, from what its operations leave of the series and of a new
one: it applies, with nothing to do for any other series. -/
theorem editSeries_eq {document : Document} {series : Entry Text Series} {outcome : Outcome}
    {added : List Text} {fresh : Text} {old new : Option Series}
    (distinct : document.Distinct) (valid : validateSeriesRecords document = true)
    (isSeries : series ∈ document.series) (isFresh : Fresh document outcome added fresh)
    (removeDistinct : outcome.remove.Nodup)
    (removes : outcome.remove ⊆ series.values.schedules)
    (namedKeys : ∀ edit ∈ (seriesPatch series.values.campaignId outcome added fresh).series,
      edit.key = series.key ∨ edit.key = fresh)
    (namedDistinct :
      ((seriesPatch series.values.campaignId outcome added fresh).series.map Edit.key).Nodup)
    (namedFit : ∀ edit ∈ (seriesPatch series.values.campaignId outcome added fresh).series,
      edit.Fits document.series)
    (isOld : edited Series.updated
      (seriesPatch series.values.campaignId outcome added fresh).series series.key
        (some series.values) = old)
    (isNew : edited Series.updated
      (seriesPatch series.values.campaignId outcome added fresh).series fresh none = new)
    (quiet : series.key ∉ (seriesPatch series.values.campaignId outcome added fresh).series.map
      Edit.key → outcome.remove = []) :
    ∃ after, editSeries document series.values.campaignId outcome added fresh = some after ∧
      EditedTo document after series fresh outcome.remove added old new ∧
      ∀ pair ∈ added.zip outcome.add, valuesOf after.schedules pair.1 =
        some (pair.2.schedule series.values.campaignId) := by
  obtain ⟨each, others⟩ := (validateSeriesRecords_iff distinct.series).mp valid
  have isValues := (valuesOf_eq_some distinct.series).mpr isSeries
  obtain ⟨schedules, applied, gone, additions, kept⟩ :=
    schedules_edited series.values.campaignId removeDistinct
      (fun member isRemoved => (each _ _ isValues).present (removes isRemoved)) isFresh
  obtain ⟨operations, seriesAfter, isUpkeep, applies, distinctAfter, leaves⟩ :=
    applyPatch_upkeep distinct valid applied namedDistinct namedFit
  have stays : ∀ key other, valuesOf document.series key = some other →
      (∀ member ∈ other.schedules, member ∉ outcome.remove) →
      remaining schedules other = some other := by
    intro key other isOther notRemoved
    have same : ∀ member ∈ other.schedules,
        valuesOf ({ document with schedules := schedules } : Document).schedules member =
          valuesOf document.schedules member :=
      fun member isIn => kept member (notRemoved member isIn)
        fun isAdded => isFresh.new member isAdded ((each key other isOther).present isIn)
    exact (@Series.Holds.unchanged document { document with schedules := schedules } other
      (each key other isOther) rfl same).2
  refine ⟨{ document with schedules := schedules, series := seriesAfter }, ?_,
    ⟨rfl, distinctAfter, gone, kept, ?_⟩, additions⟩
  · unfold editSeries
    dsimp only
    rw [isUpkeep, Option.bind_eq_bind, Option.bind_some]
    exact applies
  · intro key
    rw [leaves key]
    by_cases isOwn : key = series.key
    · subst isOwn
      rw [if_pos rfl, isValues]
      split_ifs with isNamed
      · exact isOld
      · rw [edited_of_not_mem isNamed] at isOld
        rw [← isOld, Option.bind_some]
        refine stays series.key series.values isValues fun member _ isRemoved => ?_
        rw [quiet isNamed] at isRemoved
        cases isRemoved
    · rw [if_neg isOwn]
      by_cases isFreshKey : key = fresh
      · subst isFreshKey
        rw [if_pos rfl, valuesOf_eq_none.mpr isFresh.newSeries]
        split_ifs with isNamed
        · exact isNew
        · rw [edited_of_not_mem isNamed] at isNew
          rw [← isNew]
          rfl
      · have notNamed : key ∉
            (seriesPatch series.values.campaignId outcome added fresh).series.map
              Edit.key := by
          intro isNamed
          obtain ⟨edit, isEdit, rfl⟩ := List.mem_map.mp isNamed
          rcases namedKeys edit isEdit with same | same
          · exact isOwn same
          · exact isFreshKey same
        rw [if_neg isFreshKey, if_neg notNamed]
        cases isOther : valuesOf document.series key with
        | none => rfl
        | some other =>
            rw [Option.bind_some]
            refine stays key other isOther fun member isIn isRemoved => ?_
            exact others key series.key other series.values isOwn isOther isValues member isIn
              (removes isRemoved)

/-- The edited document is valid, when what the series became and the new series are
and share no reminder, and both hold only its own reminders and added ones. -/
theorem EditedTo.valid {document after : Document} {series : Entry Text Series}
    {fresh : Text} {removed added : List Text} {old new : Option Series}
    (edit : EditedTo document after series fresh removed added old new)
    (distinct : document.Distinct) (valid : validateSeriesRecords document = true)
    (isSeries : series ∈ document.series)
    (removes : removed ⊆ series.values.schedules)
    (notThere : ∀ member ∈ added, member ∉ document.schedules.map Entry.key)
    (oldHolds : ∀ left ∈ old, left.Holds after) (newHolds : ∀ left ∈ new, left.Holds after)
    (own : ∀ left, left ∈ old ∨ left ∈ new → ∀ member ∈ left.schedules,
      member ∈ series.values.schedules ∨ member ∈ added)
    (apart : ∀ left ∈ old, ∀ right ∈ new, ∀ member ∈ left.schedules,
      member ∉ right.schedules) :
    validateSeriesRecords after = true := by
  obtain ⟨each, others⟩ := (validateSeriesRecords_iff distinct.series).mp valid
  have isValues := (valuesOf_eq_some distinct.series).mpr isSeries
  have foreign : ∀ key other, key ≠ series.key → valuesOf document.series key = some other →
      ∀ member ∈ other.schedules, member ∉ series.values.schedules ∧ member ∉ added := by
    intro key other different isOther member isIn
    exact ⟨others key series.key other series.values different isOther isValues member isIn,
      fun isAdded => notThere member isAdded ((each key other isOther).present isIn)⟩
  have holdsAfter : ∀ key other, key ≠ series.key →
      valuesOf document.series key = some other → other.Holds after := by
    intro key other different isOther
    refine ((each key other isOther).unchanged edit.campaigns fun member isIn => ?_).1
    obtain ⟨notOwn, notAdded⟩ := foreign key other different isOther member isIn
    exact edit.kept member (fun isRemoved => notOwn (removes isRemoved)) notAdded
  rw [validateSeriesRecords_iff edit.distinct.series]
  constructor
  · intro key left isLeft
    rw [edit.series] at isLeft
    split_ifs at isLeft with isOld isNew
    · exact oldHolds left isLeft
    · exact newHolds left isLeft
    · exact holdsAfter key left isOld isLeft
  · intro key other left right different isLeft isRight member isIn isInOther
    rw [edit.series] at isLeft isRight
    have strange : ∀ one two, one ∈ old ∨ one ∈ new → ∀ place, place ≠ series.key →
        valuesOf document.series place = some two → member ∈ one.schedules →
        member ∉ two.schedules := by
      intro one two isOne place isPlace isTwo inOne inTwo
      obtain ⟨notOwn, notAdded⟩ := foreign place two isPlace isTwo member inTwo
      rcases own one isOne member inOne with isOwn | isAdded
      · exact notOwn isOwn
      · exact notAdded isAdded
    split_ifs at isLeft isRight with isOld otherOld otherNew isNew otherOld otherNew otherOld
      otherNew
    · exact different (isOld.trans otherOld.symm)
    · exact apart left isLeft right isRight member isIn isInOther
    · exact strange left right (Or.inl isLeft) other otherOld isRight isIn isInOther
    · exact apart right isRight left isLeft member isInOther isIn
    · exact different (isNew.trans otherNew.symm)
    · exact strange left right (Or.inr isLeft) other otherOld isRight isIn isInOther
    · exact strange right left (Or.inl isRight) key isOld isLeft isInOther isIn
    · exact strange right left (Or.inr isRight) key isOld isLeft isInOther isIn
    · exact others key other left right different isLeft isRight member isIn isInOther

end ParishKit.ReminderSeries
