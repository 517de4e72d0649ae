import Mathlib.Data.List.DropRight
import Mathlib.Data.List.ReduceOption
import Mathlib.Data.List.Sort
import ParishKit.Lib.InTurn
import ParishKit.Lib.InstantText
import ParishKit.Lib.Zone
import ParishKit.Responses.Comparison

/-!
# Reservation events

The events of a bookable resource's calendar, the times they occupy, and the response
to each that is pending.
-/

namespace ParishKit.Reservations

open ParishKit.Lib
open ParishKit.Responses (Unicode)

/-! ## Data -/

structure Attendee where
  /-- `none` when the entry has no email, or one that is no text. -/
  email : Option Text
  responseStatus : Option Text
deriving DecidableEq

/-- A start or an end. The outer `none` is an absent key, the inner one a value that is
no text. -/
structure EventTime where
  dateTime : Option (Option Text)
  date : Option (Option Text)
  timeZone : Option Text
deriving DecidableEq

structure Event where
  id : Option Text
  summary : Option Text
  created : Option Text
  /-- The email of the event's creator. -/
  creator : Option Text
  transparency : Option Text
  /-- `none` is an entry that is no mapping. -/
  attendees : List (Option Attendee)
  start : Option EventTime
  finish : Option EventTime
deriving DecidableEq

structure ReservationCalendar where
  name : Text
  calendarId : Text
  checkConflicts : Bool

/-- What a `datetime` is aware of its offset through. -/
inductive TimeZone where
  | fixed (offset : Int)
  | named (key : Text) (zone : Zone)

structure ReservationConfig where
  acceptableDomains : List Text
  timezone : TimeZone

inductive Response where
  | accepted
  | declined
deriving DecidableEq

/-! The attendee statuses that the source compares with. -/

def needsActionStatus : Text :=
  "needsAction".toList

def declinedStatus : Text :=
  "declined".toList

def acceptedStatus : Text :=
  "accepted".toList

def Response.status : Response → Text
  | accepted => acceptedStatus
  | declined => declinedStatus

structure EventDecision where
  event : Event
  response : Response
  reason : Option Text
  attendeeEmail : Text
deriving DecidableEq

/-! ## Times -/

/-- An aware `datetime`, its wall time in microseconds. -/
structure AwareTime where
  wall : Int
  timezone : TimeZone

inductive TimeFault where
  /-- A `KeyError`, `TypeError`, `ValueError` or `ZoneInfoNotFoundError`. -/
  | malformed
  /-- Any other exception, an `OverflowError` among them. -/
  | uncaught
deriving DecidableEq

/-- The standard library's readers. A `datetime` is read as a wall time with the offset
that its text states, a `date` as its midnight. -/
class TimeReaders where
  dateTimeFromIsoFormat : Text → Option (Int × Option Int)
  dateFromIsoFormat : Text → Option Int
  zoneInfo : Text → Except TimeFault Zone

def second : Int :=
  1000000

/-- A wall time from the year 1 on and before the year 10000. -/
def WallInRange (wall : Int) : Prop :=
  dateMin * dayMicros ≤ wall ∧ wall < (dateMax + 1) * dayMicros

instance (wall : Int) : Decidable (WallInRange wall) :=
  inferInstanceAs (Decidable (_ ∧ _))

def TimeZone.instant : TimeZone → Int → Int
  | fixed offset, wall => wall - offset
  | named _ zone, wall => zone.instant false wall

def TimeZone.same : TimeZone → TimeZone → Bool
  | fixed offset, fixed other => offset = other
  | named key _, named other _ => key = other
  | _, _ => false

/-- Times of one zone compare as wall times, others as instants. -/
def AwareTime.le (left right : AwareTime) : Bool :=
  if left.timezone.same right.timezone then left.wall ≤ right.wall
  else left.timezone.instant left.wall ≤ right.timezone.instant right.wall

def AwareTime.add (time : AwareTime) (micros : Int) : Except TimeFault AwareTime :=
  let wall := time.wall + micros
  if WallInRange wall then .ok { time with wall } else .error .uncaught

abbrev Interval := AwareTime × AwareTime

def intervalsOverlap (left right : Interval) : Bool :=
  left.1.le right.2 && right.1.le left.2

variable [TimeReaders]

def readText {Value : Type} (read : Text → Option Value) (value : Option (Option Text)) :
    Except TimeFault Value :=
  match value.join.bind read with
  | some value => .ok value
  | none => .error .malformed

def eventTime (value : EventTime) (timezone : TimeZone) : Except TimeFault AwareTime :=
  if value.dateTime.isSome then do
    let parsed ← readText TimeReaders.dateTimeFromIsoFormat value.dateTime
    match parsed.2 with
    | some offset => pure ⟨parsed.1, .fixed offset⟩
    | none =>
        match value.timeZone with
        | some (first :: rest) => do
            let zone ← TimeReaders.zoneInfo (first :: rest)
            pure ⟨parsed.1, .named (first :: rest) zone⟩
        | _ => pure ⟨parsed.1, timezone⟩
  else do
    let parsed ← readText TimeReaders.dateFromIsoFormat value.date
    pure ⟨parsed, timezone⟩

/-- The time of a field that may be missing. -/
def fieldTime (value : Option EventTime) (timezone : TimeZone) :
    Except TimeFault AwareTime :=
  match value with
  | some value => eventTime value timezone
  | none => .error .malformed

/-- The times an event occupies, each end moved inward by a second. -/
def eventInterval (event : Event) (timezone : TimeZone) : Except TimeFault Interval := do
  let start ← fieldTime event.start timezone
  let start ← start.add second
  let finish ← fieldTime event.finish timezone
  let finish ← finish.add (-second)
  pure (start, finish)

/-- The outer `none` is an exception that nothing catches. -/
def eventIntervalOrNone (event : Event) (timezone : TimeZone) : Option (Option Interval) :=
  match eventInterval event timezone with
  | .ok interval => some (some interval)
  | .error .malformed => some none
  | .error .uncaught => none

/-! ## Decisions -/

def eventIsTransparent (event : Event) : Bool :=
  event.transparency = some "transparent".toList

def malformedTimeDecision (event : Event) (attendeeEmail : Text) : EventDecision where
  event
  response := .declined
  reason := some "event start/end time is malformed".toList
  attendeeEmail

def acceptedDecision (event : Event) (attendeeEmail : Text) : EventDecision where
  event
  response := .accepted
  reason := none
  attendeeEmail

def conflictDecision (conflict event : Event) (attendeeEmail : Text) : EventDecision where
  event
  response := .declined
  reason := some ("conflicts with existing event '".toList ++ conflict.summary.getD [] ++
    "' (ID: ".toList ++ conflict.id.getD "None".toList ++ ")".toList)
  attendeeEmail

/-- Whether an attendee's email is the calendar's, whatever its case. -/
def isCalendar [Unicode] (calendarId : Text) (attendee : Option Attendee) : Bool :=
  match attendee with
  | some ⟨some email, _⟩ => Unicode.casefold email = Unicode.casefold calendarId
  | _ => false

def calendarAttendee [Unicode] (event : Event) (calendarId : Text) : Option Attendee :=
  (event.attendees.find? (isCalendar calendarId)).join

def attendeeStatus [Unicode] (event : Event) (calendarId : Text) : Option Text :=
  (calendarAttendee event calendarId).bind Attendee.responseStatus

/-- What is after the last `@`. -/
def creatorDomain [Unicode] (email : Text) : Text :=
  if '@' ∉ email then [] else Unicode.casefold (email.rtakeWhile (· ≠ '@'))

def domainDecision (event : Event) (attendeeEmail : Text) : EventDecision where
  event
  response := .declined
  reason := some ("creator ".toList ++ event.creator.getD [] ++
    " is not in an acceptable domain".toList)
  attendeeEmail

/-- What `reservation_decisions` has collected of the events so far. -/
structure Collected where
  pendingEvents : List (Event × Text)
  existingEvents : List Event
  decisions : List EventDecision

section Judging

variable (config : ReservationConfig)

/-- The decision on a pending event where conflicts are not checked. -/
def uncheckedDecision (pending : Event × Text) : Option EventDecision := do
  let interval ← eventIntervalOrNone pending.1 config.timezone
  match interval with
  | none => some (malformedTimeDecision pending.1 pending.2)
  | some _ => some (acceptedDecision pending.1 pending.2)

/-- An event already on the calendar with its interval, when that can be read. -/
def existingInterval (event : Event) : Option (Option (Event × Interval)) := do
  let interval ← eventIntervalOrNone event config.timezone
  some (interval.map (event, ·))

/-- The decision on a pending event, and the interval it takes up once accepted. -/
def judgePending (acceptedIntervals : List (Event × Interval)) (pending : Event × Text) :
    Option (EventDecision × List (Event × Interval)) := do
  let interval ← eventIntervalOrNone pending.1 config.timezone
  match interval with
  | none => some (malformedTimeDecision pending.1 pending.2, [])
  | some interval =>
      match acceptedIntervals.find? fun existing => intervalsOverlap interval existing.2 with
      | some conflict => some (conflictDecision conflict.1 pending.1 pending.2, [])
      | none =>
          some (acceptedDecision pending.1 pending.2,
            if eventIsTransparent pending.1 then [] else [(pending.1, interval)])

/-- Oldest first by creation time. -/
def createdOrder (left right : Event × Text) : Prop :=
  left.1.created.getD [] ≤ right.1.created.getD []

instance : DecidableRel createdOrder := fun left right =>
  inferInstanceAs (Decidable (left.1.created.getD [] ≤ right.1.created.getD []))

end Judging

variable [Unicode] (calendar : ReservationCalendar) (config : ReservationConfig)

omit [TimeReaders] in
def collectEvent (collected : Collected) (event : Event) : Collected :=
  let resourceAttendee := calendarAttendee event calendar.calendarId
  let resourceStatus := resourceAttendee.bind Attendee.responseStatus
  if resourceStatus = some needsActionStatus then
    let attendeeEmail := (resourceAttendee.bind Attendee.email).getD calendar.calendarId
    if creatorDomain (event.creator.getD []) ∉ config.acceptableDomains then
      { collected with
        decisions := collected.decisions ++ [domainDecision event attendeeEmail] }
    else
      { collected with
        pendingEvents := collected.pendingEvents ++ [(event, attendeeEmail)] }
  else if resourceStatus ≠ some declinedStatus ∧ !eventIsTransparent event then
    { collected with existingEvents := collected.existingEvents ++ [event] }
  else collected

omit [TimeReaders] in
def collectEvents (events : List Event) : Collected :=
  events.foldl (collectEvent calendar config) ⟨[], [], []⟩

/-- `none` is an exception that the run does not survive. -/
def reservationDecisions (events : List Event) : Option (List EventDecision) := do
  let collected := collectEvents calendar config events
  if !calendar.checkConflicts then
    let decisions ← collected.pendingEvents.mapM (uncheckedDecision config)
    some (collected.decisions ++ decisions)
  else
    let existing ← collected.existingEvents.mapM (existingInterval config)
    let judged ← inTurn (judgePending config) existing.reduceOption
      (collected.pendingEvents.insertionSort createdOrder)
    some (collected.decisions ++ judged.1)

end ParishKit.Reservations
