import ParishKit.Lib.Transition
import ParishKit.ReminderSeries.SeriesEdits

/-!
# New series and runs of edits

A repeat adds a reminder on each date of its rule and remembers them as a series.
Repeats, series edits and ordinary edits of reminders keep every series of a document
valid, in any order.
-/

namespace ParishKit.ReminderSeries

open ParishKit.Lib ParishKit.Campaigns ParishKit.Configuration

/-! ## Repeats -/

/-- `RuleRefused`, by its reason, or another exception. -/
inductive RuleRefusal where
  | error (code : RuleError)
  | missing (months : List Text)
  | count (count : Nat)
  | raised
deriving DecidableEq

/-- `REPEAT_LIMIT`. -/
def repeatLimit : Nat :=
  30

/-- `checked_rule`: a rule's stored form and its dates. -/
def checkedRule (value : Members) : Except RuleRefusal (Members × List Text) :=
  match canonicalRule value with
  | none => .error .raised
  | some none =>
      match expand value with
      | some (.error code) => .error (.error code)
      | _ => .error .raised
  | some (some rule) =>
      match expand rule with
      | some (.expanded expansion) =>
          if expansion.missing ≠ [] then
            .error (.missing expansion.missing)
          else if 1 ≤ expansion.dates.length ∧ expansion.dates.length ≤ repeatLimit then
            .ok (rule, expansion.dates)
          else
            .error (.count expansion.dates.length)
      | _ => .error .raised

/-- A repeat that is remembered: a reminder on each date, held by a new series. -/
def repeatOutcome (rule : Members) (dates : List Text) (time templateVersion : Text) :
    Outcome :=
  ⟨[], dates.map fun day => ⟨day, time, templateVersion⟩, some ⟨none, rule, []⟩, []⟩

theorem checkedRule_eq_ok {value rule : Members} {dates : List Text}
    (isChecked : checkedRule value = .ok (rule, dates)) :
    canonicalRule rule = some (some rule) ∧ ruleDates rule = some dates ∧ dates ≠ [] := by
  unfold checkedRule at isChecked
  split at isChecked
  · cases isChecked
  · split at isChecked <;> cases isChecked
  · next stored isStored =>
      split at isChecked
      · next expansion isExpanded =>
          split_ifs at isChecked with some limited
          cases isChecked
          refine ⟨canonicalRule_stored isStored, ?_, ?_⟩
          · unfold ruleDates
            rw [isExpanded]
            rfl
          · intro noDates
            rw [noDates] at limited
            exact absurd limited.1 (by decide)
      · cases isChecked

variable {document : Document} {campaignId fresh time templateVersion : Text}
  {value rule : Members} {dates added : List Text}

/-- The series of a repeat is valid in the document that has its reminders. -/
theorem repeat_holds {after : Document} (campaign : campaignId ∈ after.campaigns)
    (isChecked : checkedRule value = .ok (rule, dates))
    (isFresh : Fresh document (repeatOutcome rule dates time templateVersion) added fresh)
    (additions : ∀ pair ∈ added.zip (repeatOutcome rule dates time templateVersion).add,
      valuesOf after.schedules pair.1 = some (pair.2.schedule campaignId)) :
    (⟨campaignId, rule, inOrder (added ++ inOrder [])⟩ : Series).Holds after := by
  obtain ⟨isStored, isDates, someDates⟩ := checkedRule_eq_ok isChecked
  have noneKept : inOrder [] = [] := rfl
  rw [noneKept, List.append_nil]
  refine holds_made campaign isStored isDates ?_ isFresh.distinct isFresh.uuids ?_
  · intro noAdded
    have length := isFresh.length
    rw [noAdded] at length
    exact someDates (List.map_eq_nil_iff.mp (List.length_eq_zero_iff.mp length.symm))
  · intro member isAdded
    rw [← isFresh.zip_keys] at isAdded
    obtain ⟨pair, isPair, rfl⟩ := List.mem_map.mp isAdded
    refine isMember_added (additions pair isPair) ?_
    have isWanted := (List.of_mem_zip isPair).2
    obtain ⟨day, isDay, same⟩ := List.mem_map.mp isWanted
    rw [← same]
    exact isDay

/-- A repeat that is checked can be added, and then the series pass their checks. -/
theorem repeat_keeps_series (distinct : document.Distinct)
    (valid : validateSeriesRecords document = true)
    (campaign : campaignId ∈ document.campaigns)
    (isChecked : checkedRule value = .ok (rule, dates))
    (isFresh : Fresh document (repeatOutcome rule dates time templateVersion) added fresh) :
    ∃ edited, editSeries document campaignId
        (repeatOutcome rule dates time templateVersion) added fresh = some edited ∧
      edited.campaigns = document.campaigns ∧ edited.Distinct ∧
      validateSeriesRecords edited = true := by
  obtain ⟨each, others⟩ := (validateSeriesRecords_iff distinct.series).mp valid
  obtain ⟨schedules, applied, _, additions, kept⟩ :=
    schedules_edited campaignId List.nodup_nil (fun _ isIn => absurd isIn List.not_mem_nil)
      isFresh
  have fits : ∀ edit ∈ (seriesPatch campaignId
      (repeatOutcome rule dates time templateVersion) added fresh).series,
      edit.key = fresh ∧ edit.Fits document.series := by
    intro edit member
    rw [List.mem_singleton.mp member]
    exact ⟨rfl, Edit.fits_of_not_mem rfl isFresh.newSeries⟩
  obtain ⟨operations, series, isUpkeep, applies, distinctAfter, leaves⟩ :=
    applyPatch_upkeep distinct valid applied (List.nodup_singleton _)
      fun edit member => (fits edit member).2
  have unchanged : ∀ key other, valuesOf document.series key = some other →
      other.Holds { document with schedules := schedules, series := series } ∧
        remaining schedules other = some other := by
    intro key other isOther
    have holds := each key other isOther
    refine @Series.Holds.unchanged document
      { document with schedules := schedules, series := series } other holds rfl ?_
    intro member isIn
    exact kept member List.not_mem_nil fun isAdded =>
      isFresh.new member isAdded (holds.present isIn)
  have isNew : valuesOf series fresh =
      some ⟨campaignId, rule, inOrder (added ++ inOrder [])⟩ := by
    rw [leaves, if_pos (by exact List.mem_singleton_self fresh)]
    exact edited_cons_self _
  have isOther : ∀ key, key ≠ fresh → valuesOf series key = valuesOf document.series key := by
    intro key notNew
    rw [leaves, if_neg (by exact fun member => notNew (List.mem_singleton.mp member))]
    cases isThere : valuesOf document.series key with
    | none => rfl
    | some other => exact (unchanged key other isThere).2
  have foreign : ∀ key other, valuesOf document.series key = some other →
      ∀ member ∈ other.schedules, member ∉ inOrder (added ++ inOrder []) := by
    intro key other isThere member isIn isAdded
    rcases List.mem_append.mp (mem_inOrder.mp isAdded) with isAdded | isNone
    · exact isFresh.new member isAdded ((each key other isThere).present isIn)
    · cases isNone
  refine ⟨{ document with schedules := schedules, series := series }, ?_, rfl, distinctAfter, ?_⟩
  · unfold editSeries
    dsimp only
    rw [isUpkeep, Option.bind_eq_bind, Option.bind_some]
    exact applies
  · rw [validateSeriesRecords_iff distinctAfter.series]
    constructor
    · intro key left isLeft
      by_cases isFreshKey : key = fresh
      · rw [isFreshKey, isNew] at isLeft
        cases isLeft
        exact repeat_holds campaign isChecked isFresh additions
      · rw [isOther key isFreshKey] at isLeft
        exact (unchanged key left isLeft).1
    · intro key other left right different isLeft isRight member isIn isInOther
      by_cases isFreshKey : key = fresh
      · have notFresh : other ≠ fresh := fun same => different (isFreshKey.trans same.symm)
        rw [isFreshKey, isNew] at isLeft
        rw [isOther other notFresh] at isRight
        cases isLeft
        exact foreign other right isRight member isInOther isIn
      · rw [isOther key isFreshKey] at isLeft
        by_cases isFreshOther : other = fresh
        · rw [isFreshOther, isNew] at isRight
          cases isRight
          exact foreign key left isLeft member isIn isInOther
        · rw [isOther other isFreshOther] at isRight
          exact others key other left right different isLeft isRight member isIn isInOther

/-! ## Runs of edits -/

/-- An edit of a series, with the identities it mints. -/
structure SeriesRequest where
  key : Text
  readOnly : List Text
  scope : Scope
  start : Option Text
  rule : Option Members
  values : NewValues
  added : List Text
  fresh : Text

/-- A repeat, with the identities it mints. -/
structure RepeatRequest where
  campaignId : Text
  value : Members
  time : Text
  templateVersion : Text
  added : List Text
  fresh : Text

/-- An administrator's change of reminders. -/
inductive AuthoringChange where
  | schedules (edits : List ScheduleEdit)
  | series (request : SeriesRequest)
  | newRepeat (request : RepeatRequest)

/-- A patch of schedules with its upkeep, whose schedules pass their check. -/
def applySchedules (edits : List ScheduleEdit) (document : Document) : Option Document := do
  let operations ← upkeep document ⟨edits, []⟩
  let edited ← applyPatch document ⟨edits, operations⟩
  if validateScheduleChange document edited then some edited else none

variable {Time : Type} (clock : Clock Time)

/-- The plan of an edit of a series. -/
def SeriesRequest.outcome (request : SeriesRequest) (document : Document) (series : Series) :
    Except Failure Outcome :=
  plan clock ⟨request.key, series⟩ (campaignSchedules document series.campaignId)
    request.readOnly request.scope request.start request.rule request.values

def applySeries (request : SeriesRequest) (document : Document) : Option Document := do
  let series ← valuesOf document.series request.key
  let outcome ← (request.outcome clock document series).toOption
  editSeries document series.campaignId outcome request.added request.fresh

def RepeatRequest.outcome (request : RepeatRequest) (checked : Members × List Text) : Outcome :=
  repeatOutcome checked.1 checked.2 request.time request.templateVersion

def applyRepeat (request : RepeatRequest) (document : Document) : Option Document := do
  let checked ← (checkedRule request.value).toOption
  editSeries document request.campaignId (request.outcome checked) request.added request.fresh

def applyChange (change : AuthoringChange) (document : Document) : Option Document :=
  match change with
  | .schedules edits => applySchedules edits document
  | .series request => applySeries clock request document
  | .newRepeat request => applyRepeat request document

/-- The rule of the edit has been checked, and its identities are new. -/
structure SeriesRequest.Allowed (document : Document) (request : SeriesRequest) : Prop where
  rule : ∀ given ∈ request.rule, ∃ value, canonicalRule value = some (some given)
  fresh : ∀ series outcome, valuesOf document.series request.key = some series →
    request.outcome clock document series = .ok outcome →
    Fresh document outcome request.added request.fresh

/-- The campaign is there, and the identities are new. -/
structure RepeatRequest.Allowed (document : Document) (request : RepeatRequest) : Prop where
  campaign : request.campaignId ∈ document.campaigns
  fresh : ∀ checked, checkedRule request.value = .ok checked →
    Fresh document (request.outcome checked) request.added request.fresh

def AllowedChange (document : Document) : AuthoringChange → Prop
  | .schedules _ => True
  | .series request => request.Allowed clock document
  | .newRepeat request => request.Allowed document

/-- What every document of a run is. -/
structure Document.Sound (document : Document) : Prop where
  distinct : document.Distinct
  valid : validateSeriesRecords document = true

variable {clock}

theorem applyPatch_eq_some {patch : Patch} {edited : Document}
    (applied : applyPatch document patch = some edited) :
    ∃ schedules series,
      applyEdits Schedule.updated [] document.schedules patch.schedules = some schedules ∧
      applyEdits Series.updated [] document.series patch.series = some series ∧
      edited = { document with schedules := schedules, series := series } := by
  unfold applyPatch at applied
  obtain ⟨schedules, isSchedules, rest⟩ := Option.bind_eq_some_iff.mp applied
  obtain ⟨series, isSeries, made⟩ := Option.bind_eq_some_iff.mp rest
  cases made
  exact ⟨schedules, series, isSchedules, isSeries, rfl⟩

theorem Document.Sound.schedules {edits : List ScheduleEdit} {edited : Document}
    (sound : document.Sound) (applied : applySchedules edits document = some edited) :
    edited.Sound := by
  unfold applySchedules at applied
  obtain ⟨operations, isUpkeep, rest⟩ := Option.bind_eq_some_iff.mp applied
  obtain ⟨candidate, isCandidate, checked⟩ := Option.bind_eq_some_iff.mp rest
  split_ifs at checked with unmoved
  cases checked
  obtain ⟨schedules, series, isSchedules, _, rfl⟩ := applyPatch_eq_some isCandidate
  obtain ⟨again, kept, isAgain, applies, distinct, left⟩ :=
    applyPatch_schedules sound.distinct sound.valid isSchedules
  rw [isUpkeep] at isAgain
  cases isAgain
  rw [isCandidate] at applies
  cases applies
  exact ⟨distinct, valid_of_remaining sound.distinct sound.valid rfl distinct unmoved left⟩

/-- An edit of a series that can be planned is carried out. -/
theorem applySeries_eq {request : SeriesRequest} {series : Series} {outcome : Outcome}
    (sound : document.Sound) (allowed : request.Allowed clock document)
    (isSeries : valuesOf document.series request.key = some series)
    (planned : request.outcome clock document series = .ok outcome) :
    ∃ edited, applySeries clock request document = some edited ∧ edited.Sound := by
  have ruleStored : ∀ given ∈ request.rule, canonicalRule given = some (some given) := by
    intro given isGiven
    obtain ⟨value, isStored⟩ := allowed.rule given isGiven
    exact canonicalRule_stored isStored
  have isRow := (valuesOf_eq_some sound.distinct.series).mp isSeries
  have isFresh := allowed.fresh series outcome isSeries planned
  obtain ⟨rows, edited, old, new, _, applies, carried⟩ :=
    plan_carried sound.distinct sound.valid isRow ruleStored planned isFresh
  refine ⟨edited, ?_, carried.edit.distinct,
    carried.valid sound.distinct sound.valid isRow isFresh⟩
  unfold applySeries
  rw [isSeries, Option.bind_eq_bind, Option.bind_some, planned]
  exact applies

/-- A repeat that is checked is carried out. -/
theorem applyRepeat_eq {request : RepeatRequest} {checked : Members × List Text}
    (sound : document.Sound) (allowed : request.Allowed document)
    (isChecked : checkedRule request.value = .ok checked) :
    ∃ edited, applyRepeat request document = some edited ∧ edited.Sound := by
  obtain ⟨edited, applies, _, distinct, valid⟩ := repeat_keeps_series sound.distinct sound.valid
    allowed.campaign isChecked (allowed.fresh checked isChecked)
  refine ⟨edited, ?_, distinct, valid⟩
  unfold applyRepeat
  rw [isChecked]
  exact applies

theorem Document.Sound.change {change : AuthoringChange} {edited : Document}
    (sound : document.Sound) (allowed : AllowedChange clock document change)
    (applied : applyChange clock change document = some edited) : edited.Sound := by
  cases change with
  | schedules edits => exact sound.schedules applied
  | series request =>
      have made : applySeries clock request document = some edited := applied
      unfold applySeries at made
      obtain ⟨series, isSeries, rest⟩ := Option.bind_eq_some_iff.mp made
      cases planned : request.outcome clock document series with
      | error failure =>
          rw [planned] at rest
          cases rest
      | ok outcome =>
          obtain ⟨kept, applies, keptSound⟩ := applySeries_eq sound allowed isSeries planned
          rw [show applySeries clock request document = some edited from applied] at applies
          cases applies
          exact keptSound
  | newRepeat request =>
      cases isChecked : checkedRule request.value with
      | error refusal =>
          have made : applyRepeat request document = some edited := applied
          unfold applyRepeat at made
          rw [isChecked] at made
          cases made
      | ok checked =>
          obtain ⟨kept, applies, keptSound⟩ := applyRepeat_eq sound allowed isChecked
          rw [show applyRepeat request document = some edited from applied] at applies
          cases applies
          exact keptSound

/-- In every document that changes of reminders, series edits and repeats lead to, in any
order, the series pass their checks; and there a series edit that can be planned and a
repeat that is checked lead to another. -/
theorem changes_keep_series_valid {start final : Document} (sound : start.Sound)
    (reached : Reaches (applyChange clock) (AllowedChange clock) start final) :
    final.Sound ∧
      (∀ (request : SeriesRequest) series outcome, request.Allowed clock final →
        valuesOf final.series request.key = some series →
        request.outcome clock final series = .ok outcome →
        ∃ edited, applyChange clock (.series request) final = some edited ∧ edited.Sound) ∧
      ∀ (request : RepeatRequest) checked, request.Allowed final →
        checkedRule request.value = .ok checked →
        ∃ edited, applyChange clock (.newRepeat request) final = some edited ∧ edited.Sound := by
  have finalSound : final.Sound := reached.invariant sound
    fun _ _ _ sourceSound allowed applied => sourceSound.change allowed applied
  refine ⟨finalSound, ?_, ?_⟩
  · intro request series outcome allowed isSeries planned
    exact applySeries_eq finalSound allowed isSeries planned
  · intro request checked allowed isChecked
    exact applyRepeat_eq finalSound allowed isChecked

/-- The edit of the Mondays, as a change. -/
def laterRequest : SeriesRequest where
  key := reminderId "a"
  readOnly := [reminderId "1"]
  scope := .following
  start := some (reminderId "2")
  rule := some laterRule
  values := ⟨[], none, none⟩
  added := [reminderId "4"]
  fresh := reminderId "b"

theorem laterRequest_allowed : laterRequest.Allowed storedTimes fall := by
  refine ⟨fun given isGiven => ⟨given, laterRule_stored given isGiven⟩, ?_⟩
  intro series outcome isSeries planned
  cases isSeries
  have same : (Except.ok outcome : Except Failure Outcome) = .ok laterMondays :=
    planned.symm.trans laterMondays_planned
  cases same
  exact laterMondays_fresh

/-- The campaign after the edit. -/
def fallSplit : Document where
  campaigns := ["fall".toList]
  schedules := [⟨reminderId "1", reminderOn "2054-10-05"⟩,
    ⟨reminderId "2", reminderOn "2054-10-12"⟩, ⟨reminderId "3", reminderOn "2054-10-19"⟩,
    ⟨reminderId "4", reminderOn "2054-10-26"⟩]
  series := [⟨reminderId "a", ⟨"fall".toList, mondays "2054-10-05" "2054-10-11",
      [reminderId "1"]⟩⟩,
    ⟨reminderId "b", ⟨"fall".toList, laterRule,
      [reminderId "2", reminderId "3", reminderId "4"]⟩⟩]

theorem fall_reaches_split :
    Reaches (applyChange storedTimes) (AllowedChange storedTimes) fall fallSplit := by
  refine (Reaches.refl fall).tail (show AllowedChange storedTimes fall (.series laterRequest)
    from laterRequest_allowed) ?_
  rfl

theorem fall_changes_keep_series_valid :
    fallSplit.Sound ∧
      (∀ (request : SeriesRequest) series outcome, request.Allowed storedTimes fallSplit →
        valuesOf fallSplit.series request.key = some series →
        request.outcome storedTimes fallSplit series = .ok outcome →
        ∃ edited, applyChange storedTimes (.series request) fallSplit = some edited ∧
          edited.Sound) ∧
      ∀ (request : RepeatRequest) checked, request.Allowed fallSplit →
        checkedRule request.value = .ok checked →
        ∃ edited, applyChange storedTimes (.newRepeat request) fallSplit = some edited ∧
          edited.Sound :=
  changes_keep_series_valid ⟨fall_distinct, fall_valid⟩ fall_reaches_split

end ParishKit.ReminderSeries
