import ParishKit.Lib.DateText
import ParishKit.Lib.Search

/-!
# Report schedules

The values of a report that its sends depend on, the evaluation of them in the
worker and in the database, and the proof of a page of slots. Dates are ordinals
and instants microseconds; `resolve` takes a local wall time to its instant.
-/

namespace ParishKit.Campaigns

open ParishKit.Lib

/-! ## Values -/

/-- Half-open, without an end while paused. -/
structure PausedRange where
  start : Int
  stop : Option Int

inductive FromBound where
  | campaignStart
  | dayAfterCampaignStart
  | date (day : Int)

inductive UntilBound where
  | campaignEnd
  | dayAfterCampaignEnd
  | firstSendAfterCampaignEnd
  | archive
  | date (day : Int)

inductive Frequency where
  | daily
  | weekly (weekdays : List Int)

inductive SlotBasis where
  | sendDate
  | reportDate
deriving DecidableEq

inductive ReportRule where
  | once (date : Int)
  | repeats (frequency : Frequency) (start : FromBound) (stop : UntilBound)

/-- A report's values, as `schedule_fields` reads them. A date stands for its
canonical text, a time for its microseconds after midnight and a pause's instant
for its only spelling. -/
structure ReportValues where
  rule : ReportRule
  time : Int
  slotBasis : SlotBasis
  skipDates : List Int
  pausedRanges : List PausedRange

/-- `_date`: neither the first nor the last date. -/
def dateAllowed (day : Int) : Bool :=
  decide (dateMin < day) && decide (day < dateMax)

def Frequency.allowed : Frequency → Bool
  | .daily => true
  | .weekly weekdays =>
      !weekdays.isEmpty &&
        (weekdays.all fun day => decide (0 ≤ day) && decide (day ≤ 6)) &&
        decide (weekdays.Pairwise (· < ·))

/-- `_schedule`. -/
def ReportRule.allowed : ReportRule → Bool
  | .once date => dateAllowed date
  | .repeats frequency start stop =>
      frequency.allowed &&
        match start, stop with
        | .date first, .date last =>
            dateAllowed first && dateAllowed last && decide (first ≤ last)
        | .date first, _ => dateAllowed first
        | _, .date last => dateAllowed last
        | _, _ => true

/-- `_pauses` after a range that ended at `previous`. -/
def pausesAllowed : Option Int → List PausedRange → Bool
  | _, [] => true
  | previous, range :: rest =>
      (range.stop.all fun stop => decide (range.start < stop)) &&
        (range.stop.isSome || rest.isEmpty) &&
        (previous.all fun before => decide (before ≤ range.start)) &&
        pausesAllowed range.stop rest

/-- `schedule_fields`. -/
def scheduleFields (values : ReportValues) : Bool :=
  values.rule.allowed &&
    decide (0 ≤ values.time ∧ values.time < 86400000000 ∧
      values.time % 1000000 = 0) &&
    decide (values.skipDates.length ≤ 400) &&
    (values.skipDates.all fun day =>
      decide (dateMin ≤ day) && decide (day < dateMax)) &&
    decide (values.skipDates.Pairwise (· < ·)) &&
    decide (values.pausedRanges.length ≤ 100) &&
    pausesAllowed none values.pausedRanges

def Frequency.sends (frequency : Frequency) (day : Int) : Bool :=
  match frequency with
  | .daily => true
  | .weekly weekdays => weekdays.contains (weekday day)

/-- The wall time of a day. -/
def wall (day time : Int) : Int :=
  day * 86400000000 + time

/-- In one of the pauses. -/
def paused (ranges : List PausedRange) (due : Int) : Bool :=
  ranges.any fun range =>
    decide (range.start ≤ due) && range.stop.all fun stop => decide (due < stop)

/-! ## The worker -/

inductive PlanRule where
  | once (date : Int)
  | repeats (frequency : Frequency) (first : Int) (last : Option Int)

structure ReportPlan where
  time : Int
  rule : PlanRule
  offset : Int
  skipped : List Int
  pauses : List PausedRange

structure ScheduleSlot where
  key : Text
  localDate : Int
  dueAt : Int

structure SchedulePage where
  slots : List ScheduleSlot
  cursor : Option Int
  exhausted : Bool

/-- The date `days` later; one after `date.max` raises. -/
def addDays (day days : Int) : Option Int :=
  if day + days ≤ dateMax then some (day + days) else none

/-- `(day - end.weekday()) % 7 or 7`. -/
def weekdayDistance (stop chosen : Int) : Int :=
  if (chosen - weekday stop) % 7 = 0 then 7 else (chosen - weekday stop) % 7

/-- `repeat_bounds`, of a campaign from `start` to `stop`. -/
def repeatBounds (frequency : Frequency) (fromBound : FromBound)
    (untilBound : UntilBound) (start stop : Int) :
    Option (Int × Option Int) := do
  let after ← addDays start 1
  let first := match fromBound with
    | .campaignStart => start
    | .dayAfterCampaignStart => after
    | .date day => day
  match untilBound with
  | .archive => some (first, none)
  | .campaignEnd => some (first, some stop)
  | .dayAfterCampaignEnd => (addDays stop 1).map fun last => (first, some last)
  | .firstSendAfterCampaignEnd =>
      match frequency with
      | .daily => (addDays stop 1).map fun last => (first, some last)
      | .weekly weekdays => do
          let distance ← (weekdays.map (weekdayDistance stop)).min?
          (addDays stop distance).map fun last => (first, some last)
  | .date day => some (first, some day)

def SlotBasis.offset : SlotBasis → Int
  | .sendDate => 0
  | .reportDate => 1

def planRule (rule : ReportRule) (start stop : Int) : Option PlanRule :=
  match rule with
  | .once date => some (.once date)
  | .repeats frequency fromBound untilBound =>
      (repeatBounds frequency fromBound untilBound start stop).map
        fun bounds => .repeats frequency bounds.1 bounds.2

/-- `ReportPlan.from_values`, of values that `schedule_fields` has let through. -/
def ReportPlan.fromValues (values : ReportValues) (start stop : Int) :
    Option ReportPlan :=
  (planRule values.rule start stop).map fun rule => {
    time := values.time
    rule := rule
    offset := values.slotBasis.offset
    skipped := values.skipDates
    pauses := values.pausedRanges }

namespace ReportPlan

/-- `_candidate`. -/
def candidate (plan : ReportPlan) (send : Int) : Bool :=
  match plan.rule with
  | .once date => send == date
  | .repeats frequency first last =>
      decide (first ≤ send) && (last.all fun last => decide (send ≤ last)) &&
        frequency.sends send

/-- `_next`. -/
def next (plan : ReportPlan) (send : Int) : Option Int :=
  match plan.rule with
  | .once date => if send < date then some date else none
  | .repeats _ first last =>
      let base := if send < first then first - 1 else send
      search (fun day => decide (dateMax < day) ||
        last.any fun last => decide (last < day)) plan.candidate 7 (base + 1)

def daily (plan : ReportPlan) : Bool :=
  match plan.rule with
  | .repeats .daily _ _ => true
  | _ => false

/-- `_due`. -/
def due (plan : ReportPlan) (resolve : Int → Int) (send : Int) : Int :=
  resolve (wall send plan.time)

/-- `_sends`. `local_day` raises on `date.max` and on midnights out of order. -/
def sends (plan : ReportPlan) (resolve : Int → Int) (send due : Int) :
    Option Bool :=
  let slot := send - plan.offset
  if plan.skipped.contains slot || paused plan.pauses due then
    some false
  else if plan.daily then
    if slot = dateMax ∨
        resolve (wall (slot + 1) 0) < resolve (wall slot 0) then
      none
    else
      some (decide (resolve (wall slot 0) < resolve (wall (slot + 1) 0)))
  else
    some true

/-- `_slot`. -/
def slot (plan : ReportPlan) (send due : Int) : ScheduleSlot :=
  ⟨isoDate (civil (send - plan.offset)), send - plan.offset, due⟩

/-- `_start`. -/
def start (plan : ReportPlan) : Option Int → Int
  | none => dateMin
  | some after => after + plan.offset

/-- The loop of `page`, from the candidate `send`. -/
def pageLoop (plan : ReportPlan) (resolve : Int → Int) (through : Int) :
    Nat → Option Int → List ScheduleSlot → Option Int → Option SchedulePage
  | 0, send, slots, cursor => some ⟨slots, cursor, send.isNone⟩
  | _ + 1, none, slots, cursor => some ⟨slots, cursor, true⟩
  | left + 1, some send, slots, cursor =>
      let due := plan.due resolve send
      if through < due then
        some ⟨slots, cursor, true⟩
      else do
        let isSend ← plan.sends resolve send due
        plan.pageLoop resolve through left (plan.next send)
          (if isSend then slots ++ [plan.slot send due] else slots)
          (some (send - plan.offset))

/-- `ReportPlan.page`. -/
def page (plan : ReportPlan) (resolve : Int → Int) (through : Int)
    (after : Option Int) (limit : Nat) : Option SchedulePage :=
  plan.pageLoop resolve through limit (plan.next (plan.start after)) [] after

end ReportPlan

/-! ## The database -/

/-- `stewardship_report_next_send_v1`; a null `after` is from the beginning. -/
def nextSend (values : ReportValues) (start stop : Int) (after : Option Int) :
    Option Int :=
  match values.rule with
  | .once day => if after.all fun after => decide (after < day) then some day else none
  | .repeats frequency fromBound untilBound =>
      let first := match fromBound with
        | .campaignStart => start
        | .dayAfterCampaignStart => start + 1
        | .date day => day
      let last : Option Int := match untilBound with
        | .campaignEnd => some stop
        | .dayAfterCampaignEnd => some (stop + 1)
        | .firstSendAfterCampaignEnd =>
            match frequency with
            | .daily => some (stop + 1)
            | .weekly weekdays =>
                (((List.range 7).map fun index : Nat => stop + (index + 1)).filter
                  fun day => weekdays.contains (weekday day)).min?
        | .archive => none
        | .date day => some day
      let base := match after with
        | none => first - 1
        | some after => if after < first then first - 1 else after
      search (fun day => last.any fun last => decide (last < day))
        frequency.sends 7 (base + 1)

def ReportValues.everyDay (values : ReportValues) : Bool :=
  match values.rule with
  | .repeats .daily _ _ => true
  | _ => false

/-- `stewardship_report_slot_due_v1`. -/
def slotDue (resolve : Int → Int) (values : ReportValues) (start stop : Int)
    (slot : Text) : Option Int :=
  match dateParts slot with
  | none => none
  | some date =>
      if date.year < 1 ∨ ¬ date.Valid then
        none
      else
        let day := date.ordinal
        let send := day + values.slotBasis.offset
        if values.skipDates.any fun skipped => isoDate (civil skipped) == slot then
          none
        else if nextSend values start stop (some (send - 1)) ≠ some send then
          none
        else if values.everyDay = true ∧
            resolve (wall day 0) = resolve (wall (day + 1) 0) then
          none
        else
          let due := resolve (wall send values.time)
          if paused values.pausedRanges due then none else some due

inductive PreparationPhase where
  | dates
  | cover
  | inputs
  | capture
  | fanout
  | complete
  | cancelled
deriving DecidableEq

/-- The text of a date, in the database. -/
def databaseDate (day : Int) : Text :=
  let date := civil day
  if date.year < 1 then
    isoDate { date with year := 1 - date.year } ++ [' ', 'B', 'C']
  else if date.year ≤ 9999 then
    isoDate date
  else
    Nat.toDigits 10 date.year.toNat ++ (isoDate date).drop 4

/-- What the proof of a page reads of the report's record. -/
structure ReportRecords where
  excluded : Text → Bool
  occurs : Text → Int → Bool

/-- A preparation before or after a step. -/
structure PreparationPage where
  phase : PreparationPhase
  cursor : Option Int
  cutoff : Int

/-- A due slot of the page that is neither excluded nor recorded, or is too
late. -/
def passedOver (resolve : Int → Int) (values : ReportValues) (start stop : Int)
    (records : ReportRecords) (cutoff day : Int) : Bool :=
  let slot := databaseDate day
  (slotDue resolve values start stop slot).any fun due =>
    decide (cutoff < due) || (!records.excluded slot && !records.occurs slot due)

/-- `stewardship_report_email_page_v1`. -/
def pageAdmitted (resolve : Int → Int) (values : ReportValues) (start stop : Int)
    (records : ReportRecords) (prior proposed : PreparationPage) : Bool :=
  let shift := values.slotBasis.offset
  let cover :=
    if proposed.phase = .cover then
      (nextSend values start stop (proposed.cursor.map (· + shift))).all
        fun send => decide (proposed.cutoff < resolve (wall send values.time))
    else
      true
  if prior.phase ≠ .dates ∨ proposed.phase = .cancelled then
    true
  else if proposed.cursor = prior.cursor then
    cover
  else
    let firstDay := match prior.cursor with
      | some cursor => some (cursor + 1)
      | none => (nextSend values start stop none).map (· - shift)
    match proposed.cursor, firstDay with
    | some last, some first =>
        if last < first ∨ first + 735 < last then
          false
        else if (List.range (last - first + 1).toNat).any fun index : Nat =>
            passedOver resolve values start stop records proposed.cutoff
              (first + index) then
          false
        else
          cover
    | _, _ => false

end ParishKit.Campaigns
