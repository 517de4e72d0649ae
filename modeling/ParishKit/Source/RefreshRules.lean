import ParishKit.Source.RefreshWindow

/-!
# Refresh rules

A schedule is saved with its rules: full rules, single times, and skips that
remove times. Stored quick rules give no time. The daily times are what the
settings store beside the rules.
-/

namespace ParishKit.Source

open ParishKit.Lib

inductive RuleKind where
  | full
  | quick
deriving DecidableEq

/-- At a time, or every so many minutes from a start time to a last time. -/
inductive RefreshRule where
  | single (kind : RuleKind) (time : Text)
  | every (kind : RuleKind) (step : Nat) (start last : Text)
deriving DecidableEq

/-- A time, or a range whose end is excluded. -/
inductive RefreshSkip where
  | single (time : Text)
  | range (start finish : Text)
deriving DecidableEq

/-- A `refresh_rules` document. -/
structure RefreshRules where
  rules : List RefreshRule
  skips : List RefreshSkip
  skipAroundFamilyEmails : Bool
deriving DecidableEq

def RefreshRule.kind : RefreshRule → RuleKind
  | .single kind _ => kind
  | .every kind _ _ _ => kind

/-! ## The closed shape -/

/-- The rule intervals the editor offers, in minutes. -/
def steps : List Nat :=
  [15, 30, 60, 120, 180, 240, 360, 480, 720]

def ruleOk (kinds : List RuleKind) (rule : RefreshRule) : Bool :=
  kinds.contains rule.kind &&
    match rule with
    | .single _ time => isHhmm time
    | .every _ step start last =>
        steps.contains step && isHhmm start && isHhmm last && decide (start ≤ last)

def skipOk : RefreshSkip → Bool
  | .single time => isHhmm time
  | .range start finish => isHhmm start && isHhmm finish && decide (start < finish)

/-- `valid_shape`: the caps of the editor, or those of a stored document, which may
still hold quick rules. -/
def validShape (value : RefreshRules) (stored : Bool) : Bool :=
  let mostRules := if stored then 96 else 64
  let mostSkips := if stored then 96 else 16
  let kinds : List RuleKind := if stored then [.full, .quick] else [.full]
  decide (1 ≤ value.rules.length) && decide (value.rules.length ≤ mostRules) &&
    value.rules.all (ruleOk kinds) && decide (value.skips.length ≤ mostSkips) &&
    value.skips.all skipOk

/-! ## Daily times -/

/-- The canonical time so many minutes after midnight. -/
def clock (value : Nat) : Text :=
  twoDigits (value / 60) ++ ':' :: twoDigits (value % 60)

/-- `_skipped`: the row removes the time. -/
def skipped (skip : RefreshSkip) (value : Nat) : Bool :=
  match skip with
  | .single time => value == minutesOf time
  | .range start finish =>
      decide (minutesOf start ≤ value) && decide (value < minutesOf finish)

def ruleTimes : RefreshRule → List Nat
  | .single _ time => [minutesOf time]
  | .every _ step start last =>
      let stop := minutesOf last + 1
      List.range' (minutesOf start) ((stop - minutesOf start + step - 1) / step) step

/-- `_times`: what the rules of a kind give, before any skip. -/
def times (rules : List RefreshRule) (kind : RuleKind) : List Nat :=
  (rules.filter (·.kind == kind)).flatMap ruleTimes

/-- The skips in turn, each against the times before any skip: what is left, and
the indexes of those that matched none. -/
def applySkips (generated : List Nat) :
    Nat → List RefreshSkip → List Nat → List Nat × List Nat
  | _, [], full => (full, [])
  | index, skip :: rest, full =>
      let removed := generated.filter (skipped skip)
      let later := applySkips generated (index + 1) rest
        (full.filter fun value => !removed.contains value)
      (later.1, if removed.isEmpty then index :: later.2 else later.2)

structure DailyTimes where
  full : List Text
  unmatchedSkips : List Nat
deriving DecidableEq

def sortedTimes (values : List Nat) : List Nat :=
  values.dedup.insertionSort fun left right => left ≤ right

/-- `daily_times`; anything but the closed shape raises. -/
def dailyTimes (refreshRules : RefreshRules) : Option DailyTimes :=
  if validShape refreshRules true then
    let full := times refreshRules.rules .full
    let kept := applySkips full 0 refreshRules.skips full
    some ⟨(sortedTimes kept.1).map clock, kept.2⟩
  else
    none

/-- `full_rules`: the document without its quick rules, and without the skips that
matched only quick times. -/
def fullRules (refreshRules : RefreshRules) : RefreshRules :=
  if refreshRules.rules.all fun rule => rule.kind == .full then refreshRules
  else
    let full := times refreshRules.rules .full
    let quick := times refreshRules.rules .quick
    { refreshRules with
      rules := refreshRules.rules.filter fun rule => rule.kind == .full
      skips := refreshRules.skips.filter fun skip =>
        full.any (skipped skip) || !quick.any (skipped skip) }

/-! ## Stored settings -/

/-- The settings of a schedule that the validator compares, each optional, and the
rules themselves. -/
structure ScheduleSettings where
  fullRefresh : Option Text
  nightlyTime : Option Text
  fullRefreshTimes : Option (List Text)
  deltaRefresh : Option Text
  quickRefreshTimes : Option (List Text)
  refreshRules : Option RefreshRules
deriving DecidableEq

/-- What the cadence reads of them. -/
def ScheduleSettings.cadence (settings : ScheduleSettings) : StoredSettings where
  nightlyTime := settings.nightlyTime
  fullRefresh := settings.fullRefresh
  fullRefreshTimes := settings.fullRefreshTimes
  refreshRules := match settings.refreshRules with
    | none => .absent
    | some stored => .rules stored.skipAroundFamilyEmails

/-- The settings without the rules. -/
def ScheduleSettings.lists (settings : ScheduleSettings) : ScheduleSettings :=
  { settings with refreshRules := none }

/-- `stored_settings`; rules that leave no full time raise. -/
def storedSettings (refreshRules : RefreshRules) : Option ScheduleSettings :=
  match dailyTimes refreshRules with
  | some ⟨nightly :: full, _⟩ =>
      some
        { fullRefresh := some "daily".toList
          nightlyTime := some nightly
          fullRefreshTimes := some (nightly :: full)
          deltaRefresh := some "off".toList
          quickRefreshTimes := none
          refreshRules := some refreshRules }
  | _ => none

/-- Pairs of times less than a quarter of an hour apart, around midnight. -/
def spacingConflicts (values : List Text) : List (Text × Text) :=
  let sorted := sortedTimes (values.map minutesOf)
  let wrapped := match sorted, sorted.getLast? with
    | first :: _ :: _, some last => [(last, first + 1440)]
    | _, _ => []
  ((sorted.zip sorted.tail ++ wrapped).filter fun pair =>
    decide (pair.2 < pair.1 + 15)).map fun pair => (clock pair.1, clock (pair.2 % 1440))

inductive ProblemCode where
  | noFull
  | tooMany
  | tooClose
  | offQuarter
  | unmatchedSkip
  | rulesMismatch
deriving DecidableEq

/-- A reason a schedule cannot be saved, with the times and the skip it names. -/
structure Problem where
  code : ProblemCode
  times : List Text
  index : Option Nat
deriving DecidableEq

/-- `check_schedule`; settings without rules of the closed shape raise. -/
def checkSchedule (settings : ScheduleSettings) (kept : List Text) :
    Option (List Problem) := do
  let rules ← settings.refreshRules
  let result ← dailyTimes rules
  let noFull := if result.full.isEmpty then [⟨.noFull, [], none⟩] else []
  let tooMany := if 96 < result.full.length then [⟨.tooMany, [], none⟩] else []
  let tooClose := (spacingConflicts result.full).map fun pair =>
    ⟨.tooClose, [pair.1, pair.2], none⟩
  let offQuarter := (result.full.filter fun value =>
    decide (minutesOf value % 15 ≠ 0) && !kept.contains value).map fun value =>
      ⟨.offQuarter, [value], none⟩
  let unmatched := result.unmatchedSkips.map fun index =>
    ⟨.unmatchedSkip, [], some index⟩
  let mismatch := if result.full.isEmpty then []
    else if some settings.lists = (storedSettings rules).map ScheduleSettings.lists then []
    else [⟨.rulesMismatch, [], none⟩]
  some (noFull ++ tooMany ++ tooClose ++ offQuarter ++ unmatched ++ mismatch)

/-- The rule a refresh at every hour or quarter hour is shown as. -/
def everyRule (frequency : Text) : Option RefreshRule :=
  if frequency = "hourly".toList then
    some (.every .full 60 "00:00".toList "23:00".toList)
  else if frequency = "quarter_hour".toList then
    some (.every .full 15 "00:00".toList "23:45".toList)
  else
    none

/-- `converted_rules`: what the settings page shows for stored settings. -/
def convertedRules (settings : ScheduleSettings) : Option RefreshRules :=
  match settings.refreshRules with
  | some stored => some (fullRules stored)
  | none =>
      let schedule := refreshSettings settings.cadence
      if schedule.frequency = "daily".toList then
        some ⟨schedule.fullRefreshTimes.map (.single .full), [], false⟩
      else
        (everyRule schedule.frequency).map fun rule => ⟨[rule], [], false⟩

end ParishKit.Source
