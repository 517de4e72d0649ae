import Mathlib.Data.List.Pairwise
import ParishKit.Lib.Except
import ParishKit.ReminderSeries.Records

/-!
# Ordinary edits of reminders

A patch of schedules with its upkeep leaves every series valid. A reminder leaves
its series exactly when it is gone or dated on a day that the rule does not give.
-/

namespace ParishKit.ReminderSeries

open ParishKit.Lib ParishKit.Campaigns ParishKit.Configuration

/-! ## Valid series -/

/-- What the checks ask of one series. -/
structure Series.Holds (document : Document) (series : Series) : Prop where
  campaign : series.campaignId ∈ document.campaigns
  stored : isStored series.rule = true
  some : series.schedules ≠ []
  uuids : ∀ member ∈ series.schedules, isUuid member = true
  increasing : series.schedules.Pairwise (· < ·)
  members : ∃ dates, ruleDates series.rule = Option.some dates ∧
    ∀ member ∈ series.schedules, isMember document series.campaignId dates member = true

/-- Each record of a section has its own identity, as in every stored document. -/
structure Document.Distinct (document : Document) : Prop where
  schedules : (document.schedules.map Entry.key).Nodup
  series : (document.series.map Entry.key).Nodup

theorem validSeries_iff {document : Document} {claimed : List Text} {series : Series} :
    validSeries document claimed series = true ↔
      series.Holds document ∧ ∀ member ∈ series.schedules, member ∉ claimed := by
  unfold validSeries
  have inOrder : (series.schedules == sortedDistinct series.schedules) = true ↔
      series.schedules.Pairwise (· < ·) := by
    rw [beq_iff_eq, eq_comm]
    exact sortedDistinct_eq_self
  have unclaimed : (!series.schedules.any claimed.contains) = true ↔
      ∀ member ∈ series.schedules, member ∉ claimed := by
    simp
  have given : (!series.schedules.isEmpty) = true ↔ series.schedules ≠ [] := by
    simp
  simp only [Bool.and_eq_true, inOrder, unclaimed, given, Option.any_eq_true,
    List.contains_iff_mem, List.all_eq_true]
  constructor
  · rintro ⟨⟨⟨⟨⟨⟨campaign, stored⟩, some⟩, uuids⟩, increasing⟩, free⟩, members⟩
    exact ⟨⟨campaign, stored, some, uuids, increasing, members⟩, free⟩
  · rintro ⟨⟨campaign, stored, some, uuids, increasing, members⟩, free⟩
    exact ⟨⟨⟨⟨⟨⟨campaign, stored⟩, some⟩, uuids⟩, increasing⟩, free⟩, members⟩

theorem validFrom_iff {document : Document} {claimed : List Text}
    {rows : List (Entry Text Series)} :
    validFrom document claimed rows = true ↔
      (∀ row ∈ rows, row.values.Holds document ∧
        ∀ member ∈ row.values.schedules, member ∉ claimed) ∧
      rows.Pairwise fun row later =>
        ∀ member ∈ later.values.schedules, member ∉ row.values.schedules := by
  induction rows generalizing claimed with
  | nil => simp [validFrom]
  | cons row rest inductionHypothesis =>
      rw [validFrom, Bool.and_eq_true, validSeries_iff, inductionHypothesis,
        List.forall_mem_cons, List.pairwise_cons]
      simp only [List.mem_append, not_or]
      constructor
      · rintro ⟨one, others, apart⟩
        exact ⟨⟨one, fun later member => ⟨(others later member).1, fun reminder isMember =>
          ((others later member).2 reminder isMember).1⟩⟩, fun later member reminder isMember =>
            ((others later member).2 reminder isMember).2, apart⟩
      · rintro ⟨⟨one, others⟩, first, apart⟩
        exact ⟨one, fun later member => ⟨(others later member).1, fun reminder isMember =>
          ⟨(others later member).2 reminder isMember, first later member reminder isMember⟩⟩,
            apart⟩

/-- The checks, series by series: each holds and no two share a reminder. -/
theorem validateSeriesRecords_iff {document : Document}
    (distinct : (document.series.map Entry.key).Nodup) :
    validateSeriesRecords document = true ↔
      (∀ key series, valuesOf document.series key = some series → series.Holds document) ∧
      ∀ key other series otherSeries, key ≠ other →
        valuesOf document.series key = some series →
        valuesOf document.series other = some otherSeries →
        ∀ member ∈ series.schedules, member ∉ otherSeries.schedules := by
  unfold validateSeriesRecords
  rw [validFrom_iff]
  simp only [List.not_mem_nil, not_false_eq_true, implies_true, and_true,
    valuesOf_eq_some distinct]
  have unshared : Std.Symm fun row later : Entry Text Series =>
      ∀ member ∈ later.values.schedules, member ∉ row.values.schedules :=
    ⟨fun row later apart member isMember isLater => apart member isLater isMember⟩
  constructor
  · rintro ⟨each, apart⟩
    refine ⟨fun key series member => each _ member, ?_⟩
    intro key other series otherSeries different member otherMember reminder isMember
    have rows := apart.forall otherMember member
      (fun same => different (congrArg Entry.key same).symm)
    exact rows reminder isMember
  · rintro ⟨each, apart⟩
    refine ⟨fun row member => each row.key row.values member, ?_⟩
    have pairs := distinct
    rw [List.Nodup, List.pairwise_map] at pairs
    refine pairs.imp_of_mem fun {row later} member laterMember different => ?_
    exact apart later.key row.key _ _ different.symm laterMember member

/-! ## The members that stay -/

/-- A schedule that is there, dated on one of the dates. -/
def onDate (schedules : List (Entry Text Schedule)) (dates : List Text) (member : Text) : Bool :=
  (valuesOf schedules member).any fun schedule => schedule.date.any dates.contains

/-- A series with the members that are still on a date of its rule. -/
def remaining (schedules : List (Entry Text Schedule)) (series : Series) : Option Series :=
  let kept := series.schedules.filter
    (onDate schedules ((ruleDates series.rule).getD []))
  if kept = [] then none else some { series with schedules := kept }

theorem mem_removedBy {edits : List ScheduleEdit} {member : Text} :
    member ∈ removedBy edits ↔ .remove member ∈ edits := by
  unfold removedBy
  rw [List.mem_filterMap]
  constructor
  · rintro ⟨edit, isEdit, removes⟩
    cases edit with
    | remove key =>
        cases removes
        exact isEdit
    | add key values => cases removes
    | update key change => cases removes
  · exact fun isEdit => ⟨_, isEdit, rfl⟩

theorem dateGiven_key (edit : ScheduleEdit) (dated : Text × Text)
    (isDated : dateGiven edit = some dated) : dated.1 = edit.key := by
  cases edit with
  | add key values =>
      obtain ⟨day, _, rfl⟩ := Option.map_eq_some_iff.mp isDated
      rfl
  | update key change =>
      obtain ⟨day, _, rfl⟩ := Option.map_eq_some_iff.mp isDated
      rfl
  | remove key => cases isDated

/-- Operations on different schedules give each a date once. -/
theorem datedBy_eq {edits : List ScheduleEdit} (distinct : (edits.map Edit.key).Nodup) :
    datedBy edits = edits.filterMap dateGiven :=
  recordsByKey_of_nodup (filterMap_keys_nodup dateGiven_key distinct)

/-- A member stays when its schedule is left on a date of the rule. -/
theorem staysIn_eq {document : Document} {edits : List ScheduleEdit}
    {schedules : List (Entry Text Schedule)}
    (applied : applyEdits Schedule.updated [] document.schedules edits = some schedules)
    (given : List Text) {member : Text} {schedule : Schedule}
    (isSchedule : valuesOf document.schedules member = some schedule) :
    staysIn document edits given member = some (onDate schedules given member) := by
  obtain ⟨distinct, fits, _, leaves⟩ := applyEdits_some applied
  unfold staysIn onDate
  rw [leaves, isSchedule]
  by_cases isNamed : member ∈ edits.map Edit.key
  · obtain ⟨edit, isEdit, rfl⟩ := List.mem_map.mp isNamed
    have fit := (fits edit isEdit).2
    rw [edited_of_mem distinct isEdit, datedBy_eq distinct,
      findRecord_filterMap dateGiven_key distinct isEdit]
    cases edit with
    | add key values =>
        have absent := fit.mp rfl
        rw [← valuesOf_eq_none, isSchedule] at absent
        cases absent
    | remove key =>
        have removed : (removedBy edits).contains (Edit.remove key : ScheduleEdit).key = true :=
          List.contains_iff_mem.mpr (mem_removedBy.mpr isEdit)
        rw [if_pos removed]
        rfl
    | update key change =>
        have notRemoved :
            ¬ (removedBy edits).contains (Edit.update key change : ScheduleEdit).key = true := by
          rw [List.contains_iff_mem, mem_removedBy]
          intro isRemoval
          have same := List.inj_on_of_nodup_map distinct isRemoval isEdit rfl
          cases same
        rw [if_neg notRemoved]
        cases isDated : change.date with
        | none => simp [dateGiven, isDated, Edit.effect, Schedule.updated]
        | some day => simp [dateGiven, isDated, Edit.effect, Schedule.updated]
  · have notRemoved : ¬ (removedBy edits).contains member = true := by
      rw [List.contains_iff_mem, mem_removedBy]
      exact fun isRemoval => isNamed (List.mem_map_of_mem (f := Edit.key) isRemoval)
    rw [if_neg notRemoved, edited_of_not_mem isNamed, datedBy_eq distinct,
      findRecord_filterMap_of_not_mem dateGiven_key isNamed]
    rfl

theorem filterSome_eq {Value : Type} {test : Value → Option Bool} {holds : Value → Bool}
    {values : List Value} (each : ∀ value ∈ values, test value = some (holds value)) :
    filterSome test values = some (values.filter holds) := by
  induction values with
  | nil => rfl
  | cons value rest inductionHypothesis =>
      rw [List.forall_mem_cons] at each
      rw [filterSome, each.1, inductionHypothesis each.2, List.filter_cons]
      rfl

/-! ## The operations -/

/-- What the series of a row needs. -/
def needed (schedules : List (Entry Text Schedule)) (row : Entry Text Series) :
    Option SeriesEdit :=
  let kept := row.values.schedules.filter
    (onDate schedules ((ruleDates row.values.rule).getD []))
  if kept = row.values.schedules then none
  else if kept = [] then some (.remove row.key)
  else some (.update row.key ⟨none, none, some kept⟩)

theorem needed_key {schedules : List (Entry Text Schedule)} (row : Entry Text Series)
    (edit : SeriesEdit) (isNeeded : needed schedules row = some edit) : edit.key = row.key := by
  unfold needed at isNeeded
  dsimp only at isNeeded
  split_ifs at isNeeded <;> cases isNeeded <;> rfl

theorem needed_adds {schedules : List (Entry Text Schedule)} {row : Entry Text Series}
    {edit : SeriesEdit} (isNeeded : needed schedules row = some edit) : edit.adds = false := by
  unfold needed at isNeeded
  dsimp only at isNeeded
  split_ifs at isNeeded <;> cases isNeeded <;> rfl

theorem upkeepOf_eq {document : Document} {edits : List ScheduleEdit}
    {schedules : List (Entry Text Schedule)}
    (applied : applyEdits Schedule.updated [] document.schedules edits = some schedules)
    {row : Entry Text Series} (holds : row.values.Holds document) :
    upkeepOf document edits row = some (needed schedules row) := by
  obtain ⟨dates, isDates, members⟩ := holds.members
  have each : ∀ member ∈ row.values.schedules,
      staysIn document edits dates member = some (onDate schedules dates member) := by
    intro member isIn
    have isReminder := members member isIn
    unfold isMember at isReminder
    cases isSchedule : valuesOf document.schedules member with
    | none =>
        rw [isSchedule] at isReminder
        cases isReminder
    | some schedule => exact staysIn_eq applied dates isSchedule
  unfold upkeepOf needed
  rw [isDates, Option.bind_eq_bind, Option.bind_some, filterSome_eq each, Option.bind_some,
    Option.getD_some]
  dsimp only
  split_ifs <;> rfl

/-- What the operation of a series leaves of it. -/
theorem effect_needed (schedules : List (Entry Text Schedule)) (row : Entry Text Series)
    (some : row.values.schedules ≠ []) :
    (match needed schedules row with
      | none => Option.some row.values
      | Option.some edit => edit.effect Series.updated (Option.some row.values)) =
      remaining schedules row.values := by
  unfold needed remaining
  dsimp only
  split_ifs with same noKept noKept
  · exact absurd (same.symm.trans noKept) some
  · rw [same]
  · rfl
  · rfl

/-- The operations of a patch's other series: which they are, and what they leave. -/
theorem upkeep_spec {document : Document} {patch : Patch}
    {schedules : List (Entry Text Schedule)}
    (distinct : (document.series.map Entry.key).Nodup)
    (each : ∀ row ∈ document.series, row.values.Holds document)
    (applied : applyEdits Schedule.updated [] document.schedules patch.schedules =
      some schedules) :
    ∃ operations, upkeep document patch = some operations ∧
      (operations.map Edit.key).Nodup ∧
      (∀ edit ∈ operations, edit.key ∉ patch.series.map Edit.key ∧
        edit.Fits document.series) ∧
      ∀ key, key ∉ patch.series.map Edit.key →
        edited Series.updated operations key (valuesOf document.series key) =
          (valuesOf document.series key).bind (remaining schedules) := by
  have unnamedDistinct := distinct.sublist
    ((List.filter_sublist (p := fun row => row.key ∉ patch.series.map Edit.key)).map Entry.key)
  have runs : upkeep document patch = some ((document.series.filter fun row =>
      row.key ∉ patch.series.map Edit.key).filterMap (needed schedules)) := by
    unfold upkeep
    rw [option_mapM_of_forall fun row member =>
      upkeepOf_eq applied (each row (List.mem_filter.mp member).1)]
    exact congrArg some (List.filterMap_map)
  refine ⟨_, runs, filterMap_keys_nodup needed_key unnamedDistinct, ?_, ?_⟩
  · intro edit member
    obtain ⟨row, isRow, isNeeded⟩ := List.mem_filterMap.mp member
    obtain ⟨isIn, unnamed⟩ := List.mem_filter.mp isRow
    unfold Edit.Fits
    rw [needed_key row edit isNeeded, needed_adds isNeeded]
    refine ⟨of_decide_eq_true unnamed, ?_⟩
    simp [List.mem_map_of_mem isIn]
  · intro key unnamed
    cases isValues : valuesOf document.series key with
    | none =>
        have absent := valuesOf_eq_none.mp isValues
        have notRow : key ∉ (document.series.filter fun row =>
            row.key ∉ patch.series.map Edit.key).map Entry.key := by
          intro member
          obtain ⟨row, isRow, same⟩ := List.mem_map.mp member
          exact absent (same ▸ List.mem_map_of_mem (List.mem_filter.mp isRow).1)
        unfold edited
        rw [findRecord_filterMap_of_not_mem needed_key notRow]
        rfl
    | some values =>
        have isRow := (valuesOf_eq_some distinct).mp isValues
        have isIn : (⟨key, values⟩ : Entry Text Series) ∈ document.series.filter fun row =>
            row.key ∉ patch.series.map Edit.key :=
          List.mem_filter.mpr ⟨isRow, decide_eq_true unnamed⟩
        unfold edited
        rw [findRecord_filterMap needed_key unnamedDistinct isIn, Option.bind_some, ← effect_needed schedules ⟨key, values⟩ (each _ isRow).some]
        cases needed schedules ⟨key, values⟩ <;> rfl

/-! ## The edited document -/

/-- A reminder that a change of its document leaves is still one of its campaign. -/
theorem isMember_of_onDate {document after : Document} {campaignId : Text}
    {dates : List Text} {member : Text}
    (distinct : (after.schedules.map Entry.key).Nodup)
    (unmoved : validateScheduleChange document after = true)
    (wasMember : isMember document campaignId dates member = true)
    (isDated : onDate after.schedules dates member = true) :
    isMember after campaignId dates member = true := by
  unfold onDate at isDated
  rw [Option.any_eq_true] at isDated
  obtain ⟨schedule, isSchedule, isDate⟩ := isDated
  unfold validateScheduleChange at unmoved
  rw [List.all_eq_true] at unmoved
  have same := unmoved _ ((valuesOf_eq_some distinct).mp isSchedule)
  unfold isMember at wasMember ⊢
  cases before : valuesOf document.schedules member with
  | none =>
      rw [before] at wasMember
      cases wasMember
  | some previous =>
      rw [before] at wasMember same
      dsimp only at wasMember same
      rw [Bool.and_eq_true, Bool.and_eq_true, beq_iff_eq, beq_iff_eq] at wasMember
      rw [Bool.and_eq_true, beq_iff_eq, beq_iff_eq] at same
      rw [isSchedule]
      dsimp only
      rw [same.1, same.2, wasMember.1.1, wasMember.1.2, isDate]
      simp

/-- What is left of a valid series is valid in the edited document. -/
theorem Series.Holds.remaining {document after : Document} {series left : Series}
    (holds : series.Holds document) (sameCampaigns : after.campaigns = document.campaigns)
    (distinct : (after.schedules.map Entry.key).Nodup)
    (unmoved : validateScheduleChange document after = true)
    (isLeft : ReminderSeries.remaining after.schedules series = Option.some left) :
    left.Holds after ∧ left.schedules ⊆ series.schedules := by
  obtain ⟨dates, isDates, members⟩ := holds.members
  unfold ReminderSeries.remaining at isLeft
  rw [isDates, Option.getD_some] at isLeft
  dsimp only at isLeft
  split_ifs at isLeft with noKept
  cases isLeft
  refine ⟨⟨?_, holds.stored, noKept, ?_, holds.increasing.filter _, dates, isDates, ?_⟩, ?_⟩
  · rw [sameCampaigns]
    exact holds.campaign
  · exact fun member isIn => holds.uuids member (List.mem_filter.mp isIn).1
  · intro member isIn
    obtain ⟨wasIn, isDated⟩ := List.mem_filter.mp isIn
    exact isMember_of_onDate distinct unmoved (members member wasIn) isDated
  · exact fun member isIn => (List.mem_filter.mp isIn).1

/-- A patch applies with its upkeep, when its operations on series fit. A series that
it names is as the patch leaves it, and any other keeps its members on its dates. -/
theorem applyPatch_upkeep {document : Document} {patch : Patch}
    {schedules : List (Entry Text Schedule)} (distinct : document.Distinct)
    (valid : validateSeriesRecords document = true)
    (applied : applyEdits Schedule.updated [] document.schedules patch.schedules =
      some schedules)
    (namedDistinct : (patch.series.map Edit.key).Nodup)
    (namedFit : ∀ edit ∈ patch.series, edit.Fits document.series) :
    ∃ operations series, upkeep document patch = some operations ∧
      applyPatch document { patch with series := patch.series ++ operations } =
        some { document with schedules := schedules, series := series } ∧
      Document.Distinct { document with schedules := schedules, series := series } ∧
      ∀ key, valuesOf series key =
        if key ∈ patch.series.map Edit.key then
          edited Series.updated patch.series key (valuesOf document.series key)
        else
          (valuesOf document.series key).bind (remaining schedules) := by
  obtain ⟨each, _⟩ := (validateSeriesRecords_iff distinct.series).mp valid
  have rowsHold : ∀ row ∈ document.series, row.values.Holds document :=
    fun row member => each row.key row.values ((valuesOf_eq_some distinct.series).mpr member)
  obtain ⟨operations, isUpkeep, operationsDistinct, fits, leaves⟩ :=
    upkeep_spec distinct.series rowsHold applied
  have allDistinct : ((patch.series ++ operations).map Edit.key).Nodup := by
    rw [List.map_append, List.nodup_append]
    refine ⟨namedDistinct, operationsDistinct, ?_⟩
    rintro key isNamed other isOther rfl
    obtain ⟨edit, isEdit, rfl⟩ := List.mem_map.mp isOther
    exact (fits edit isEdit).1 isNamed
  have allFit : ∀ edit ∈ patch.series ++ operations, edit.Fits document.series := by
    intro edit member
    rcases List.mem_append.mp member with isNamed | isUpkeep
    · exact namedFit edit isNamed
    · exact (fits edit isUpkeep).2
  have applies : ∃ series, applyEdits Series.updated [] document.series
      (patch.series ++ operations) = some series :=
    applyEdits_of_fits allDistinct (fun _ _ => List.not_mem_nil) allFit
  obtain ⟨series, isSeries⟩ := applies
  obtain ⟨_, _, keepsSchedules, _⟩ := applyEdits_some applied
  obtain ⟨_, _, keepsSeries, leavesSeries⟩ := applyEdits_some isSeries
  refine ⟨operations, series, isUpkeep, ?_,
    ⟨keepsSchedules distinct.schedules, keepsSeries distinct.series⟩, ?_⟩
  · unfold applyPatch
    rw [applied, isSeries]
    rfl
  · intro key
    rw [leavesSeries, edited_append]
    split_ifs with isNamed
    · rfl
    · exact leaves key isNamed

/-- A patch of schedules alone applies with its upkeep. -/
theorem applyPatch_schedules {document : Document} {edits : List ScheduleEdit}
    {schedules : List (Entry Text Schedule)} (distinct : document.Distinct)
    (valid : validateSeriesRecords document = true)
    (applied : applyEdits Schedule.updated [] document.schedules edits = some schedules) :
    ∃ operations series, upkeep document ⟨edits, []⟩ = some operations ∧
      applyPatch document ⟨edits, operations⟩ =
        some { document with schedules := schedules, series := series } ∧
      Document.Distinct { document with schedules := schedules, series := series } ∧
      ∀ key, valuesOf series key =
        (valuesOf document.series key).bind (remaining schedules) := by
  obtain ⟨operations, series, isUpkeep, applies, distinctAfter, leaves⟩ :=
    @applyPatch_upkeep document ⟨edits, []⟩ schedules distinct valid applied List.nodup_nil nofun
  refine ⟨operations, series, isUpkeep, applies, distinctAfter, fun key => ?_⟩
  rw [leaves key, List.map_nil, if_neg List.not_mem_nil]

/-- A document whose series keep the members that are still on their dates is valid. -/
theorem valid_of_remaining {document after : Document} (distinct : document.Distinct)
    (valid : validateSeriesRecords document = true)
    (campaigns : after.campaigns = document.campaigns) (distinctAfter : after.Distinct)
    (unmoved : validateScheduleChange document after = true)
    (left : ∀ key, valuesOf after.series key =
      (valuesOf document.series key).bind (remaining after.schedules)) :
    validateSeriesRecords after = true := by
  obtain ⟨each, apart⟩ := (validateSeriesRecords_iff distinct.series).mp valid
  have leftHolds : ∀ key one, valuesOf after.series key = some one →
      ∃ before, valuesOf document.series key = some before ∧ one.Holds after ∧
        one.schedules ⊆ before.schedules := by
    intro key one isOne
    rw [left, Option.bind_eq_some_iff] at isOne
    obtain ⟨before, isBefore, isLeft⟩ := isOne
    have holds := each key before isBefore
    exact ⟨before, isBefore, holds.remaining campaigns distinctAfter.schedules unmoved isLeft⟩
  rw [validateSeriesRecords_iff distinctAfter.series]
  constructor
  · intro key one isOne
    obtain ⟨_, _, holds, _⟩ := leftHolds key one isOne
    exact holds
  · intro key other one otherOne different isOne isOther member isIn isInOther
    obtain ⟨before, isBefore, _, within⟩ := leftHolds key one isOne
    obtain ⟨otherBefore, isOtherBefore, _, otherWithin⟩ := leftHolds other otherOne isOther
    exact apart key other before otherBefore different isBefore isOtherBefore member
      (within isIn) (otherWithin isInOther)

/-- A patch of schedules, with its upkeep, leaves the series valid: each keeps the
reminders that are still there on a date its rule gives, and goes when none is. -/
theorem upkeep_keeps_series {document : Document} {edits : List ScheduleEdit}
    {schedules : List (Entry Text Schedule)} (distinct : document.Distinct)
    (valid : validateSeriesRecords document = true)
    (applied : applyEdits Schedule.updated [] document.schedules edits = some schedules)
    (unmoved : validateScheduleChange document { document with schedules := schedules } =
      true) :
    ∃ operations edited, upkeep document ⟨edits, []⟩ = some operations ∧
      applyPatch document ⟨edits, operations⟩ = some edited ∧
      edited.schedules = schedules ∧ edited.Distinct ∧
      validateSeriesRecords edited = true ∧
      ∀ key, valuesOf edited.series key =
        (valuesOf document.series key).bind (remaining schedules) := by
  obtain ⟨operations, series, isUpkeep, applies, distinctAfter, left⟩ :=
    applyPatch_schedules distinct valid applied
  exact ⟨operations, _, isUpkeep, applies, rfl, distinctAfter,
    valid_of_remaining distinct valid rfl distinctAfter unmoved left, left⟩

/-! ## A campaign with a series -/

def reminderId (last : String) : Text :=
  "00000000-0000-4000-8000-00000000000".toList ++ last.toList

def reminderOn (day : String) : Schedule :=
  ⟨.reminder, "fall".toList, some day.toList, "09:00:00".toList, "letter".toList⟩

def mondays (start stop : String) : Members :=
  ruleOf start.toList stop.toList (.weekly [0])

/-- Three Mondays of a campaign. -/
def fallSeries : Entry Text Series :=
  ⟨reminderId "a", ⟨"fall".toList, mondays "2054-10-05" "2054-10-19",
    [reminderId "1", reminderId "2", reminderId "3"]⟩⟩

def fall : Document where
  campaigns := ["fall".toList]
  schedules := [⟨reminderId "1", reminderOn "2054-10-05"⟩,
    ⟨reminderId "2", reminderOn "2054-10-12"⟩, ⟨reminderId "3", reminderOn "2054-10-19"⟩]
  series := [fallSeries]

theorem fall_distinct : fall.Distinct :=
  ⟨by decide, by decide⟩

theorem fall_valid : validateSeriesRecords fall = true := by
  rfl

/-- One reminder is moved to a Tuesday, another is removed and one is added. -/
def fallEdits : List ScheduleEdit :=
  [.update (reminderId "2") ⟨none, none, some "2054-10-13".toList, none, none⟩,
    .remove (reminderId "3"), .add (reminderId "4") (reminderOn "2054-10-19")]

def fallEdited : List (Entry Text Schedule) :=
  [⟨reminderId "1", reminderOn "2054-10-05"⟩, ⟨reminderId "2", reminderOn "2054-10-13"⟩,
    ⟨reminderId "4", reminderOn "2054-10-19"⟩]

theorem fall_keeps_series :
    ∃ operations edited, upkeep fall ⟨fallEdits, []⟩ = some operations ∧
      applyPatch fall ⟨fallEdits, operations⟩ = some edited ∧
      edited.schedules = fallEdited ∧ edited.Distinct ∧
      validateSeriesRecords edited = true ∧
      ∀ key, valuesOf edited.series key =
        (valuesOf fall.series key).bind (remaining fallEdited) :=
  upkeep_keeps_series fall_distinct fall_valid rfl rfl

end ParishKit.ReminderSeries
