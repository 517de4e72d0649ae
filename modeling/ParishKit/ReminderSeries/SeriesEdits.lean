import ParishKit.Lib.Transition
import ParishKit.ReminderSeries.PlanSafety

/-!
# Editing reminder series

Series edits and ordinary edits of reminders keep every series of a document valid,
in any order. A series edit touches no sent reminder and no other series, loses no
reminder of its own, and gives each date of a new rule one reminder.
-/

namespace ParishKit.ReminderSeries

open ParishKit.Lib ParishKit.Campaigns ParishKit.Configuration

/-! ## The Mondays of a campaign, from the second on -/

/-- A reading of the times of the stored form. -/
def storedTimes : Clock Text where
  read := some
  same := fun left right => left == right
  text := id

def laterRule : Members :=
  mondays "2054-10-12" "2054-10-26"

/-- Another Monday, the two later reminders as they are, and the first one, which has
been sent, in the old series. -/
def laterMondays : Outcome where
  remove := []
  add := [⟨"2054-10-26".toList, "09:00:00".toList, "letter".toList⟩]
  series := some ⟨none, laterRule, [reminderId "2", reminderId "3"]⟩
  changes := [.update (reminderId "a")
    ⟨none, some (mondays "2054-10-05" "2054-10-11"), some [reminderId "1"]⟩]

theorem laterMondays_planned :
    plan storedTimes fallSeries (campaignSchedules fall fallSeries.values.campaignId)
      [reminderId "1"] .following (some (reminderId "2")) (some laterRule)
      ⟨[], none, none⟩ = .ok laterMondays := by
  rfl

theorem laterRule_stored :
    ∀ given ∈ some laterRule, canonicalRule given = some (some given) := by
  rintro _ ⟨⟩
  rfl

theorem laterMondays_fresh :
    Fresh fall laterMondays [reminderId "4"] (reminderId "b") :=
  ⟨rfl, by decide, by decide, by decide, by decide⟩

section Edits

variable {Time : Type} {clock : Clock Time} {document : Document}
  {series : Entry Text Series} {readOnly : List Text} {scope : Scope} {start : Option Text}
  {rule : Option Members} {values : NewValues} {outcome : Outcome} {added : List Text}
  {fresh : Text}

/-- A plan that is made can be carried out, and then the series of the document pass
their checks. -/
theorem plan_keeps_series (distinct : document.Distinct)
    (valid : validateSeriesRecords document = true) (isSeries : series ∈ document.series)
    (ruleStored : ∀ given ∈ rule, canonicalRule given = some (some given))
    (planned : plan clock series (campaignSchedules document series.values.campaignId)
      readOnly scope start rule values = .ok outcome)
    (isFresh : Fresh document outcome added fresh) :
    ∃ edited, editSeries document series.values.campaignId outcome added fresh = some edited ∧
      edited.campaigns = document.campaigns ∧ edited.Distinct ∧
      validateSeriesRecords edited = true := by
  obtain ⟨rows, after, old, new, _, applies, carried⟩ :=
    plan_carried distinct valid isSeries ruleStored planned isFresh
  exact ⟨after, applies, carried.edit.campaigns, carried.edit.distinct,
    carried.valid distinct valid isSeries isFresh⟩

theorem fall_edit_keeps_series :
    ∃ edited, editSeries fall fallSeries.values.campaignId laterMondays [reminderId "4"]
        (reminderId "b") = some edited ∧
      edited.campaigns = fall.campaigns ∧ edited.Distinct ∧
      validateSeriesRecords edited = true :=
  plan_keeps_series fall_distinct fall_valid List.mem_cons_self laterRule_stored
    laterMondays_planned laterMondays_fresh

/-- A reminder either stays as it is or was an unsent one of the series and is gone; the
other series stay as they are; and unless the series is deleted, each of its reminders
that stays is in it or in the new one. -/
theorem plan_touches_unsent (distinct : document.Distinct)
    (valid : validateSeriesRecords document = true) (isSeries : series ∈ document.series)
    (ruleStored : ∀ given ∈ rule, canonicalRule given = some (some given))
    (planned : plan clock series (campaignSchedules document series.values.campaignId)
      readOnly scope start rule values = .ok outcome)
    (isFresh : Fresh document outcome added fresh) :
    ∃ edited, editSeries document series.values.campaignId outcome added fresh = some edited ∧
      (∀ member schedule, valuesOf document.schedules member = some schedule →
        valuesOf edited.schedules member = some schedule ∨
          valuesOf edited.schedules member = none ∧ member ∈ series.values.schedules ∧
            member ∉ readOnly) ∧
      (∀ key, key ≠ series.key → key ≠ fresh →
        valuesOf edited.series key = valuesOf document.series key) ∧
      (scope ≠ .delete → ∀ member ∈ series.values.schedules,
        valuesOf edited.schedules member ≠ none → ∃ key left,
          (key = series.key ∨ key = fresh) ∧ valuesOf edited.series key = some left ∧
            member ∈ left.schedules) := by
  obtain ⟨rows, after, old, new, _, applies, carried⟩ :=
    plan_carried distinct valid isSeries ruleStored planned isFresh
  have edit := carried.edit
  have different : fresh ≠ series.key := fun same =>
    isFresh.newSeries (same ▸ List.mem_map_of_mem isSeries)
  refine ⟨after, applies, ?_, ?_, ?_⟩
  · intro member schedule isSchedule
    by_cases isRemoved : member ∈ outcome.remove
    · exact Or.inr ⟨edit.gone member isRemoved, carried.removes isRemoved,
        carried.unsent member isRemoved⟩
    · have notAdded : member ∉ added := by
        intro isAdded
        have absent := isFresh.new member isAdded
        rw [← valuesOf_eq_none, isSchedule] at absent
        cases absent
      exact Or.inl ((edit.kept member isRemoved notAdded).trans isSchedule)
  · intro key notOwn notFresh
    rw [edit.series, if_neg notOwn, if_neg notFresh]
  · intro notDelete member isIn isThere
    have notRemoved : member ∉ outcome.remove := fun isRemoved =>
      isThere (edit.gone member isRemoved)
    obtain ⟨left, isLeft | isLeft, inLeft⟩ := carried.stays notDelete member isIn notRemoved
    · refine ⟨series.key, left, Or.inl rfl, ?_, inLeft⟩
      rw [edit.series, if_pos rfl]
      exact isLeft
    · refine ⟨fresh, left, Or.inr rfl, ?_, inLeft⟩
      rw [edit.series, if_neg different, if_pos rfl]
      exact isLeft

theorem fall_edit_touches_unsent :
    ∃ edited, editSeries fall fallSeries.values.campaignId laterMondays [reminderId "4"]
        (reminderId "b") = some edited ∧
      (∀ member schedule, valuesOf fall.schedules member = some schedule →
        valuesOf edited.schedules member = some schedule ∨
          valuesOf edited.schedules member = none ∧ member ∈ fallSeries.values.schedules ∧
            member ∉ [reminderId "1"]) ∧
      (∀ key, key ≠ fallSeries.key → key ≠ reminderId "b" →
        valuesOf edited.series key = valuesOf fall.series key) ∧
      (Scope.following ≠ .delete → ∀ member ∈ fallSeries.values.schedules,
        valuesOf edited.schedules member ≠ none → ∃ key left,
          (key = fallSeries.key ∨ key = reminderId "b") ∧
            valuesOf edited.series key = some left ∧ member ∈ left.schedules) :=
  plan_touches_unsent fall_distinct fall_valid List.mem_cons_self laterRule_stored
    laterMondays_planned laterMondays_fresh

/-- An edit with a new rule leaves a series of that rule with one reminder on each date
the rule gives and none on another, and one of this and following leaves the earlier
reminders as they are in their series. -/
theorem plan_follows_rule (distinct : document.Distinct)
    (valid : validateSeriesRecords document = true) (isSeries : series ∈ document.series)
    (ruleStored : ∀ given ∈ rule, canonicalRule given = some (some given))
    (planned : plan clock series (campaignSchedules document series.values.campaignId)
      readOnly scope start rule values = .ok outcome)
    (isFresh : Fresh document outcome added fresh) :
    ∃ edited, editSeries document series.values.campaignId outcome added fresh = some edited ∧
      (∀ held ∈ outcome.series, ∀ given ∈ rule, ∃ key result dates,
        valuesOf edited.series key = some result ∧ result.rule = given ∧
          ruleDates given = some dates ∧
          (result.schedules.map (dateIn edited)).Perm (dates.map some)) ∧
      ∀ first ∈ start, scope = .following → ∀ member ∈ series.values.schedules,
        ∀ day ∈ dateIn document member, ∀ cutDate ∈ dateIn document first, day < cutDate →
          valuesOf edited.schedules member = valuesOf document.schedules member ∧
          ∃ left, valuesOf edited.series series.key = some left ∧ member ∈ left.schedules := by
  obtain ⟨each, _⟩ := (validateSeriesRecords_iff distinct.series).mp valid
  have holds := each series.key series.values ((valuesOf_eq_some distinct.series).mpr isSeries)
  have different : fresh ≠ series.key := fun same =>
    isFresh.newSeries (same ▸ List.mem_map_of_mem isSeries)
  obtain ⟨rows, after, old, new, isOrdered, applies, carried⟩ :=
    plan_carried distinct valid isSeries ruleStored planned isFresh
  have edit := carried.edit
  refine ⟨after, applies, ?_, ?_⟩
  · intro held isHeld given isRule
    obtain ⟨result, dates, isResult | isResult, sameRule, isDates, perm⟩ :=
      carried.result held isHeld given isRule
    · refine ⟨series.key, result, dates, ?_, sameRule, isDates, perm⟩
      rw [edit.series, if_pos rfl]
      exact isResult
    · refine ⟨fresh, result, dates, ?_, sameRule, isDates, perm⟩
      rw [edit.series, if_neg different, if_pos rfl]
      exact isResult
  · intro first isStart follows member isIn day isDay cutDate isCutDate before
    subst follows
    obtain ⟨dates, isDates, _⟩ := holds.members
    have isRows := seriesRows_of_ordered distinct holds isDates isOrdered
    obtain ⟨others, isAgain, ⟨deletes, _⟩ | ⟨anchor, _, _, replaces⟩⟩ := plan_eq_ok planned
    · cases deletes
    · rw [isOrdered] at isAgain
      cases isAgain
      have dateOf : ∀ row ∈ rows, dateIn document row.member = some row.date := by
        intro row isRow
        obtain ⟨schedule, isSchedule, isDate⟩ := isRows.saved row isRow
        rw [dateIn, isSchedule]
        exact isDate
      obtain ⟨row, isRow, rfl⟩ := List.mem_map.mp (isRows.perm.mem_iff.mpr isIn)
      have sameStart := cut_following replaces.isCut
      rw [isStart] at sameStart
      cases sameStart
      rw [dateOf anchor (cut_mem replaces.isCut)] at isCutDate
      rw [dateOf row isRow] at isDay
      cases isCutDate
      cases isDay
      obtain ⟨left, isLeft, inLeft⟩ := carried.earlier anchor (by simp) replaces.isCut row
        (mem_beforeCut.mpr ⟨isRow, before⟩)
      have present := (carried.oldHolds left isLeft).present inLeft
      have notRemoved : row.member ∉ outcome.remove := by
        intro isRemoved
        exact absurd present (valuesOf_eq_none.mp (edit.gone row.member isRemoved))
      refine ⟨edit.kept row.member notRemoved fun isAdded =>
        isFresh.new row.member isAdded (holds.present isIn), left, ?_, inLeft⟩
      rw [edit.series, if_pos rfl]
      exact isLeft

theorem fall_edit_follows_rule :
    ∃ edited, editSeries fall fallSeries.values.campaignId laterMondays [reminderId "4"]
        (reminderId "b") = some edited ∧
      (∀ held ∈ laterMondays.series, ∀ given ∈ some laterRule, ∃ key result dates,
        valuesOf edited.series key = some result ∧ result.rule = given ∧
          ruleDates given = some dates ∧
          (result.schedules.map (dateIn edited)).Perm (dates.map some)) ∧
      ∀ first ∈ some (reminderId "2"), Scope.following = .following →
        ∀ member ∈ fallSeries.values.schedules, ∀ day ∈ dateIn fall member,
          ∀ cutDate ∈ dateIn fall first, day < cutDate →
            valuesOf edited.schedules member = valuesOf fall.schedules member ∧
            ∃ left, valuesOf edited.series fallSeries.key = some left ∧
              member ∈ left.schedules :=
  plan_follows_rule fall_distinct fall_valid List.mem_cons_self laterRule_stored
    laterMondays_planned laterMondays_fresh

end Edits

end ParishKit.ReminderSeries
