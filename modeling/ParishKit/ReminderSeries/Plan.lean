import ParishKit.ReminderSeries.Records

/-!
# Series edits

The plan of "this and following", "the whole series" and deleting a series, from
the applied records alone, and the patch that carries it out. From the cut date a
date's unsent member that already is as wanted stays; any other is removed and its
date added again.
-/

namespace ParishKit.ReminderSeries

open ParishKit.Lib ParishKit.Campaigns ParishKit.Configuration

/-! ## Outcomes -/

/-- `SeriesEditError`. -/
structure SeriesEditError where
  message : String
  reason : String
deriving DecidableEq

namespace SeriesEditError

def notMember : SeriesEditError :=
  ⟨"That reminder is not in this series.", "not_member"⟩

def allSent : SeriesEditError :=
  ⟨"Every reminder of this series has already sent.", "all_sent"⟩

def readOnlySeries : SeriesEditError :=
  ⟨"A reminder of this series on the date of its first unsent " ++
    "reminder has already sent or is being prepared; edit " ++
    "this and following (\"following\") from a later reminder.", "read_only_series"⟩

def readOnlyFollowing : SeriesEditError :=
  ⟨"A reminder of this series from this date on has already sent or " ++
    "is being prepared; start from a later reminder.", "read_only_following"⟩

def ruleStart (cutDate : Text) : SeriesEditError :=
  ⟨"The new repeat must start on or after " ++ String.ofList cutDate ++
    ", the first reminder " ++
    "it changes; the earlier reminders stay in this series.", "rule_start"⟩

def noDates : SeriesEditError :=
  ⟨"The new repeat gives no dates.", "no_dates"⟩

end SeriesEditError

/-- A refusal, or any other exception. -/
inductive Failure where
  | refused (error : SeriesEditError)
  | raised
deriving DecidableEq

def orRaise {Value : Type} (value : Option Value) : Except Failure Value :=
  match value with
  | some value => .ok value
  | none => .error .raised

inductive Scope where
  | following
  | series
  | delete
deriving DecidableEq

/-- A reminder to add. -/
structure Wanted where
  date : Text
  time : Text
  templateVersion : Text
deriving DecidableEq

/-- The series that holds the result; without an identity a new one. -/
structure Held where
  id : Option Text
  rule : Members
  keep : List Text

structure Outcome where
  remove : List Text
  add : List Wanted
  series : Option Held
  changes : List SeriesEdit

def Outcome.nothing : Outcome :=
  ⟨[], [], none, []⟩

/-! ## The members of a series -/

/-- Python's reading of a time of day and its text. Nothing below depends on it. -/
structure Clock (Time : Type) where
  read : Text → Option Time
  same : Time → Time → Bool
  text : Time → Text

/-- A member with its saved values. -/
structure Row where
  member : Text
  date : Text
  time : Text
  templateVersion : Text
deriving DecidableEq

variable {Time : Type} (clock : Clock Time)

/-- Equality of `_time`. -/
def sameTime (left right : Text) : Bool :=
  match clock.read left, clock.read right with
  | some time, some other => clock.same time other
  | none, none => left == right
  | _, _ => false

/-- `str(_time(value))`. -/
def timeText (value : Text) : Text :=
  match clock.read value with
  | some time => clock.text time
  | none => value

/-- `_same`. -/
def same (row : Row) (wanted : Wanted) : Bool :=
  row.date == wanted.date && sameTime clock row.time wanted.time &&
    row.templateVersion == wanted.templateVersion

/-- `_order`: by date, then time, then identity. -/
def rowLe (left right : Row) : Prop :=
  left.date < right.date ∨ left.date = right.date ∧
    (timeText clock left.time < timeText clock right.time ∨
      timeText clock left.time = timeText clock right.time ∧ left.member ≤ right.member)

instance : DecidableRel (rowLe clock) := fun _ _ =>
  inferInstanceAs (Decidable (_ ∨ _))

/-- `schedules[member]`, with its date. -/
def rowOf (schedules : List (Entry Text Schedule)) (member : Text) : Option Row := do
  let schedule ← valuesOf schedules member
  let date ← schedule.date
  some ⟨member, date, schedule.time, schedule.templateVersion⟩

/-- The members in order. -/
def orderedRows (schedules : List (Entry Text Schedule)) (members : List Text) :
    Except Failure (List Row) := do
  let rows ← orRaise (members.mapM (rowOf schedules))
  .ok (rows.insertionSort (rowLe clock))

/-- The saved schedules of a campaign. -/
def campaignSchedules (document : Document) (campaignId : Text) :
    List (Entry Text Schedule) :=
  document.schedules.filter fun entry => entry.values.campaignId = campaignId

/-- `cut`: the reminder that an edit is cut at. -/
def cut (rows : List Row) (readOnly : List Text) (scope : Scope) (start : Option Text) :
    Except Failure Row :=
  if scope = .following then
    match rows.find? fun row => some row.member == start with
    | some row => .ok row
    | none => .error (.refused .notMember)
  else
    match rows.find? fun row => row.member ∉ readOnly with
    | some row => .ok row
    | none => .error (.refused .allSent)

/-! ## The plan -/

/-- `canonical_rule` of a rule that has a stored form. -/
def storedRule (rule : Members) : Except Failure Members :=
  match canonicalRule rule with
  | some (some stored) => .ok stored
  | _ => .error .raised

/-- The dates of the result, each with the member that has it, and its rule. -/
def targets (oldRule : Members) (cutDate : Text) (after : List Row) (rule : Option Members) :
    Except Failure (List (Text × Option Row) × Members) :=
  match rule with
  | none => do
      let newRule ← storedRule (withMember oldRule "start" (.string cutDate))
      .ok (after.map fun row => (row.date, some row), newRule)
  | some rule => do
      let days ← orRaise (ruleDates rule)
      .ok (days.map fun day => (day, after.find? fun row => row.date == day), rule)

/-- The times by date, and otherwise for every date, and the email. -/
structure NewValues where
  times : List (Text × Text)
  timeOfDay : Option Text
  templateVersion : Option Text

/-- What the reminder on a date is wanted to be. -/
def wantedOn (values : NewValues) (anchor : Row) (target : Text × Option Row) : Wanted :=
  let source := target.2.getD anchor
  let given := match findRecord Prod.fst values.times target.1 with
    | some (_, time) => some time
    | none => values.timeOfDay
  ⟨target.1, given.getD source.time, values.templateVersion.getD source.templateVersion⟩

/-- One round of the loop over the dates. -/
def placeTarget (values : NewValues) (anchor : Row) (placed : List Text × List Wanted)
    (target : Text × Option Row) : List Text × List Wanted :=
  let wanted := wantedOn values anchor target
  match target.2 with
  | some row =>
      if row.member ∉ placed.1 ∧ same clock row wanted = true then
        (placed.1 ++ [row.member], placed.2)
      else
        (placed.1, placed.2 ++ [wanted])
  | none => (placed.1, placed.2 ++ [wanted])

/-- The earlier reminders of a series, under its rule up to the day before. -/
def endBefore (series : Entry Text Series) (cutDate : Text) (before : List Text) :
    Except Failure SeriesEdit := do
  let last ← orRaise (dayBefore cutDate)
  let rule ← storedRule (withMember series.values.rule "end" (.string last))
  .ok (.update series.key
    ⟨none, some rule, some (before.insertionSort fun left right => left ≤ right)⟩)

/-- Whether a new rule starts before the cut date, where earlier reminders stay. -/
def startsEarly (before : List Row) (rule : Option Members) (cutDate : Text) :
    Except Failure Bool :=
  match rule with
  | none => .ok false
  | some rule =>
      if before = [] then
        .ok false
      else
        match member? rule "start" with
        | some (.string start) => .ok (decide (start < cutDate))
        | _ => .error .raised

/-- The saved rule, if the reminders alone were kept. -/
def baseline (before : List Row) (oldRule : Members) (cutDate : Text) :
    Except Failure Members :=
  if before = [] then .ok oldRule
  else storedRule (withMember oldRule "start" (.string cutDate))

/-- `plan`. -/
def plan (series : Entry Text Series) (schedules : List (Entry Text Schedule))
    (readOnly : List Text) (scope : Scope) (start : Option Text) (rule : Option Members)
    (values : NewValues) : Except Failure Outcome := do
  let rows ← orderedRows clock schedules series.values.schedules
  if scope = .delete then
    .ok ⟨(rows.map Row.member).filter fun member => member ∉ readOnly, [], none,
      [.remove series.key]⟩
  else do
    let anchor ← cut rows readOnly scope start
    let before := rows.filter fun row => row.date < anchor.date
    let after := rows.filter fun row => ¬ row.date < anchor.date
    if after.any fun row => row.member ∈ readOnly then
      .error (.refused (if scope = .series then .readOnlySeries else .readOnlyFollowing))
    else do
      let early ← startsEarly before rule anchor.date
      if early then
        .error (.refused (.ruleStart anchor.date))
      else do
        let (wanted, newRule) ← targets series.values.rule anchor.date after rule
        if wanted = [] then
          .error (.refused .noDates)
        else do
          let (keep, add) := wanted.foldl (placeTarget clock values anchor) ([], [])
          let remove := (after.map Row.member).filter fun member => member ∉ keep
          let unchanged ← baseline before series.values.rule anchor.date
          if remove = [] ∧ add = [] ∧ (rule.isNone = true ∨ equalRules newRule unchanged = true)
          then
            .ok .nothing
          else do
            let kept := keep.insertionSort fun left right => left ≤ right
            if before = [] then
              .ok ⟨remove, add, some ⟨some series.key, newRule, kept⟩, []⟩
            else do
              let shortened ← endBefore series anchor.date (before.map Row.member)
              .ok ⟨remove, add, some ⟨none, newRule, kept⟩, [shortened]⟩

/-! ## The patch -/

/-- A reminder as it is added. -/
def Wanted.schedule (campaignId : Text) (wanted : Wanted) : Schedule :=
  ⟨.reminder, campaignId, some wanted.date, wanted.time, wanted.templateVersion⟩

/-- The series that holds the result, with the added reminders. -/
def remembered (campaignId : Text) (added : List Text) (fresh : Text) (held : Held) :
    SeriesEdit :=
  let schedules := (added ++ held.keep).insertionSort fun left right => left ≤ right
  match held.id with
  | some key => .update key ⟨some campaignId, some held.rule, some schedules⟩
  | none => .add fresh ⟨campaignId, held.rule, schedules⟩

/-- The patch of an edit: the reminders under their new identities, the series that
holds the result, and the changes of the old one. -/
def seriesPatch (campaignId : Text) (outcome : Outcome) (added : List Text) (fresh : Text) :
    Patch where
  schedules := outcome.remove.map .remove ++
    (added.zip outcome.add).map fun pair => .add pair.1 (pair.2.schedule campaignId)
  series := (outcome.series.map (remembered campaignId added fresh)).toList ++ outcome.changes

/-- The document after an edit of a series and the upkeep of the others. -/
def editSeries (document : Document) (campaignId : Text) (outcome : Outcome)
    (added : List Text) (fresh : Text) : Option Document := do
  let patch := seriesPatch campaignId outcome added fresh
  let operations ← upkeep document patch
  applyPatch document { patch with series := patch.series ++ operations }

end ParishKit.ReminderSeries
