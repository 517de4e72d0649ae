import Mathlib.Data.List.Lex
import Mathlib.Data.Char
import ParishKit.Campaigns.RuleCuts
import ParishKit.Configuration.Documents
import ParishKit.Lib.RecordEdits

/-!
# Remembered reminder series

A series names reminders of one campaign, each on a date that the rule of the
series gives. The checks of a document's series, and the operations that an
ordinary schedule edit needs so that they still pass.
-/

namespace ParishKit.ReminderSeries

open ParishKit.Lib ParishKit.Campaigns ParishKit.Configuration

/-! ## Equal values -/

/-- The number of a value; `True` is one. -/
def pythonNumber (value : Campaigns.Json) : Option Rat :=
  match value with
  | .bool flag => some (if flag then 1 else 0)
  | _ => number? (some value)

mutual

/-- `left == right`. -/
def equal : Campaigns.Json → Campaigns.Json → Bool
  | .null, .null => true
  | .string left, .string right => left == right
  | .array left, .array right => equalItems left right
  | .object left, .object right => left.length == right.length && equalMembers left right
  | left, right =>
      match pythonNumber left, pythonNumber right with
      | some number, some other => number == other
      | _, _ => false

def equalItems : List Campaigns.Json → List Campaigns.Json → Bool
  | [], [] => true
  | left :: lefts, right :: rights => equal left right && equalItems lefts rights
  | _, _ => false

/-- Each member on the left has its equal on the right. -/
def equalMembers : Members → Members → Bool
  | [], _ => true
  | (key, left) :: rest, rights =>
      (match member? rights key with
        | some right => equal left right
        | none => false) && equalMembers rest rights

end

/-- `left == right` of mappings. -/
def equalRules (left right : Members) : Bool :=
  equal (.object left) (.object right)

/-! ## Documents -/

inductive ScheduleKind where
  | initial
  | reminder
  | dailyDigest
  | weeklyDigest
  | report
deriving DecidableEq

/-- What a series and its edits read of a schedule. A report has no date. -/
structure Schedule where
  kind : ScheduleKind
  campaignId : Text
  date : Option Text
  time : Text
  templateVersion : Text
deriving DecidableEq

/-- The values that an update of a schedule names. -/
structure ScheduleChange where
  kind : Option ScheduleKind
  campaignId : Option Text
  date : Option Text
  time : Option Text
  templateVersion : Option Text
deriving DecidableEq

structure Series where
  campaignId : Text
  rule : Members
  schedules : List Text

structure SeriesChange where
  campaignId : Option Text
  rule : Option Members
  schedules : Option (List Text)

/-- The sections of a configuration that a series depends on. -/
structure Document where
  campaigns : List Text
  schedules : List (Entry Text Schedule)
  series : List (Entry Text Series)

abbrev ScheduleEdit := Edit Text Schedule ScheduleChange

abbrev SeriesEdit := Edit Text Series SeriesChange

/-- The operations of a patch, by section, each section in the order of the patch. -/
structure Patch where
  schedules : List ScheduleEdit
  series : List SeriesEdit

/-- `existing["values"].update(values)`. -/
def Schedule.updated (change : ScheduleChange) (old : Schedule) : Schedule where
  kind := change.kind.getD old.kind
  campaignId := change.campaignId.getD old.campaignId
  date := change.date.orElse fun _ => old.date
  time := change.time.getD old.time
  templateVersion := change.templateVersion.getD old.templateVersion

def Series.updated (change : SeriesChange) (old : Series) : Series where
  campaignId := change.campaignId.getD old.campaignId
  rule := change.rule.getD old.rule
  schedules := change.schedules.getD old.schedules

/-- The document after a patch. -/
def applyPatch (document : Document) (patch : Patch) : Option Document := do
  let schedules ← applyEdits Schedule.updated [] document.schedules patch.schedules
  let series ← applyEdits Series.updated [] document.series patch.series
  some { document with schedules := schedules, series := series }

/-! ## The checks -/

/-- `canonical_rule(rule) == rule`. -/
def isStored (rule : Members) : Bool :=
  match canonicalRule rule with
  | some (some stored) => equalRules stored rule
  | _ => false

/-- A reminder of the campaign on one of the dates. -/
def isMember (document : Document) (campaignId : Text) (dates : List Text) (member : Text) :
    Bool :=
  match valuesOf document.schedules member with
  | some schedule =>
      schedule.kind == .reminder && schedule.campaignId == campaignId &&
        schedule.date.any dates.contains
  | none => false

/-- One series, after those that claim the given reminders. -/
def validSeries (document : Document) (claimed : List Text) (series : Series) : Bool :=
  document.campaigns.contains series.campaignId && isStored series.rule &&
    !series.schedules.isEmpty && series.schedules.all isUuid &&
    series.schedules == sortedDistinct series.schedules &&
    !series.schedules.any claimed.contains &&
    (ruleDates series.rule).any fun dates =>
      series.schedules.all (isMember document series.campaignId dates)

def validFrom (document : Document) : List Text → List (Entry Text Series) → Bool
  | _, [] => true
  | claimed, row :: rest =>
      validSeries document claimed row.values &&
        validFrom document (claimed ++ row.values.schedules) rest

/-- `validate_series_records`. -/
def validateSeriesRecords (document : Document) : Bool :=
  validFrom document [] document.series

/-- `validate_campaign_change`, of its schedules: one that stays keeps its campaign
and its kind. -/
def validateScheduleChange (before after : Document) : Bool :=
  after.schedules.all fun row =>
    match valuesOf before.schedules row.key with
    | some previous =>
        row.values.campaignId == previous.campaignId && row.values.kind == previous.kind
    | none => row.values.kind != .dailyDigest && row.values.kind != .weeklyDigest

/-! ## Upkeep -/

/-- The schedules that a patch removes. -/
def removedBy (edits : List ScheduleEdit) : List Text :=
  edits.filterMap fun edit =>
    match edit with
    | .remove key => some key
    | _ => none

/-- The date that an operation gives its schedule. -/
def dateGiven : ScheduleEdit → Option (Text × Text)
  | .add key values => values.date.map (key, ·)
  | .update key change => change.date.map (key, ·)
  | .remove _ => none

/-- The dates that a patch gives, by schedule. -/
def datedBy (edits : List ScheduleEdit) : List (Text × Text) :=
  recordsByKey Prod.fst (edits.filterMap dateGiven)

/-- Whether a member of a series stays in it. -/
def staysIn (document : Document) (edits : List ScheduleEdit) (given : List Text)
    (member : Text) : Option Bool :=
  if (removedBy edits).contains member then
    some false
  else do
    let current ← valuesOf document.schedules member
    match findRecord Prod.fst (datedBy edits) member with
    | some (_, date) => some (given.contains date)
    | none => some (current.date.any given.contains)

/-- The members for which a partial test holds. -/
def filterSome {Value : Type} (test : Value → Option Bool) : List Value → Option (List Value)
  | [] => some []
  | value :: rest => do
      let holds ← test value
      let kept ← filterSome test rest
      some (if holds then value :: kept else kept)

/-- What a series needs: nothing, fewer reminders, or its removal. -/
def upkeepOf (document : Document) (edits : List ScheduleEdit) (row : Entry Text Series) :
    Option (Option SeriesEdit) := do
  let given ← ruleDates row.values.rule
  let kept ← filterSome (staysIn document edits given) row.values.schedules
  if kept = row.values.schedules then
    some none
  else if kept = [] then
    some (some (.remove row.key))
  else
    some (some (.update row.key ⟨none, none, some kept⟩))

/-- `upkeep`: of the series that the patch does not name. -/
def upkeep (document : Document) (patch : Patch) : Option (List SeriesEdit) := do
  let needed ← (document.series.filter fun row =>
    row.key ∉ patch.series.map Edit.key).mapM (upkeepOf document patch.schedules)
  some needed.reduceOption

end ParishKit.ReminderSeries
