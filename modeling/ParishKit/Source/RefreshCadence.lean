import Mathlib.Data.Char
import Mathlib.Data.List.Lex
import Mathlib.Data.List.Sort
import ParishKit.Campaigns.Intervals
import ParishKit.Lib.DateText

/-!
# Refresh slots

A schedule refreshes at local times of each day, or at hours or quarter hours.
Instants are microseconds. A slot is known by its key, the SHA-256 of what
identifies it; its command's identity is derived from the key and left out.
-/

namespace ParishKit.Source

open ParishKit.Lib
open ParishKit.Campaigns (resolveLocal)

/-- The zones, by their names. -/
class TimeZones where
  zone : Text → Zone

inductive RefreshCause where
  | nightly
  | catchUp
deriving DecidableEq

/-- What a slot's key is the digest of. -/
structure SlotIdentity where
  scopeFingerprint : Text
  timezone : Text
  nightlyTime : Option Text
  cause : RefreshCause
  dueAt : Int
deriving DecidableEq

/-- The SHA-256 of canonical payloads. The model uses no law of it. -/
class SlotDigests where
  slotKey : SlotIdentity → Text
  scopeFingerprint : Nat → Text → Text

/-- An exact due slot, with the configured time it fell due at. A catch-up has
none. -/
structure RefreshSlot where
  cause : RefreshCause
  dueAt : Int
  slotKey : Text
  nightlyTime : Option Text
deriving DecidableEq

/-! ## Stored settings -/

/-- How the Administrator entered the schedule. -/
inductive StoredRules where
  | absent
  | malformed
  | rules (skipAroundFamilyEmails : Bool)
deriving DecidableEq

/-- The schedule of an applied integration. Each setting is optional. -/
structure StoredSettings where
  nightlyTime : Option Text
  fullRefresh : Option Text
  fullRefreshTimes : Option (List Text)
  refreshRules : StoredRules
deriving DecidableEq

structure RefreshSchedule where
  nightlyTime : Text
  frequency : Text
  fullRefreshTimes : List Text
  rules : Bool
deriving DecidableEq

/-- `refresh_settings`. -/
def refreshSettings (settings : StoredSettings) : RefreshSchedule :=
  let nightlyTime := settings.nightlyTime.getD "02:00".toList
  { nightlyTime
    frequency := settings.fullRefresh.getD "daily".toList
    fullRefreshTimes := match settings.fullRefreshTimes with
      | none | some [] => [nightlyTime]
      | some times => times
    rules := decide (settings.refreshRules ≠ .absent) }

/-- `skips_around_emails`. -/
def skipsAroundEmails (settings : StoredSettings) : Bool :=
  settings.refreshRules == .rules true

/-- `is_hhmm`. -/
def isHhmm : Text → Bool
  | [hour, hours, colon, minute, minutes] =>
      (['0', '1'].contains hour && hours.isDigit ||
          hour == '2' && ['0', '1', '2', '3'].contains hours) &&
        colon == ':' && ['0', '1', '2', '3', '4', '5'].contains minute &&
        minutes.isDigit
  | _ => false

/-- `canonical_list`: sorted, and each time once. -/
def canonicalList (values : List Text) : Bool :=
  decide (1 ≤ values.length) && decide (values.length ≤ 96) &&
    values.all isHhmm &&
    values == values.dedup.insertionSort fun left right => left ≤ right

/-- `canonical_times`. -/
def canonicalTimes (nightlyTime : Text) (values : List Text) : Bool :=
  canonicalList values && values.head? == some nightlyTime

def frequencies : List Text :=
  ["daily".toList, "hourly".toList, "quarter_hour".toList]

/-- `_validate`: the times, of canonical inputs. -/
def validate (schedule : RefreshSchedule) : Option (List Text) :=
  if isHhmm schedule.nightlyTime &&
      canonicalTimes schedule.nightlyTime schedule.fullRefreshTimes &&
      (schedule.rules || decide (schedule.fullRefreshTimes.length ≤ 8)) &&
      frequencies.contains schedule.frequency then
    some schedule.fullRefreshTimes
  else
    none

/-! ## Due instants -/

def dayMicroseconds : Int :=
  86400000000

def hourMicroseconds : Int :=
  3600000000

def quarterHourMicroseconds : Int :=
  900000000

/-- The minutes after midnight of a canonical time. -/
def minutesOf : Text → Nat
  | [hour, hours, _, minute, minutes] =>
      (digitValue hour * 10 + digitValue hours) * 60 +
        (digitValue minute * 10 + digitValue minutes)
  | _ => 0

section

variable [TimeZones]

/-- `local_instant`, of a day's number. -/
def localInstant (day : Int) (value timezone : Text) : Int :=
  resolveLocal (TimeZones.zone timezone) (day * dayMicroseconds + minutesOf value * 60000000)

/-- `_occurrences`, the first two: on the day before and on the day. -/
def occurrences (day : Int) (value timezone : Text) : List Int :=
  [localInstant (day - 1) value timezone, localInstant day value timezone]

/-- The local day of an instant. -/
def localDay (now : Int) (timezone : Text) : Int :=
  (TimeZones.zone timezone).clock now / dayMicroseconds

/-- `precedence`: the later instant, then the nightly time, then the later time. -/
def precedence (nightlyTime : Text) (left right : Int × Text) : Bool :=
  if left.1 = right.1 then
    if (left.2 == nightlyTime) = (right.2 == nightlyTime) then
      decide (minutesOf left.2 < minutesOf right.2)
    else
      right.2 == nightlyTime
  else
    decide (left.1 < right.1)

/-- `_latest`. -/
def latestDue (now : Int) (timezone : Text) (times : List Text) (nightlyTime : Text) :
    Option (Int × Text) :=
  let candidates := times.flatMap fun value =>
    ((occurrences (localDay now timezone) value timezone).filter (· ≤ now)).map
      fun due => (due, value)
  greatest? (precedence nightlyTime) candidates

/-- `_floor`. -/
def floorTo (now step : Int) : Int :=
  now - now % step

/-- The full slot's instant and its recorded time. -/
def fullDue (now : Int) (timezone : Text) (times : List Text)
    (schedule : RefreshSchedule) : Option (Int × Text) :=
  if schedule.frequency = "daily".toList then
    latestDue now timezone times schedule.nightlyTime
  else if schedule.frequency = "hourly".toList then
    some (floorTo now hourMicroseconds, schedule.nightlyTime)
  else
    some (floorTo now quarterHourMicroseconds, schedule.nightlyTime)

variable [SlotDigests]

/-- `_slot`. -/
def makeSlot (cause : RefreshCause) (due : Int) (value : Option Text)
    (timezone scopeFingerprint : Text) : RefreshSlot where
  cause := cause
  dueAt := due
  slotKey := SlotDigests.slotKey ⟨scopeFingerprint, timezone, value, cause, due⟩
  nightlyTime := value

/-- `due_slots`. -/
def dueSlots (now : Int) (timezone scopeFingerprint : Text)
    (schedule : RefreshSchedule) : Option (List RefreshSlot) := do
  let times ← validate schedule
  let (full, chosen) ← fullDue now timezone times schedule
  some [makeSlot .nightly full (some chosen) timezone scopeFingerprint]

/-- `slots[slot.slot_key] = slot`. -/
def keepSlot (slots : List RefreshSlot) (slot : RefreshSlot) : List RefreshSlot :=
  if slot.slotKey ∈ slots.map RefreshSlot.slotKey then
    slots.map fun other => if other.slotKey = slot.slotKey then slot else other
  else
    slots ++ [slot]

/-- `listed_due_slots`. -/
def listedDueSlots (now : Int) (timezone scopeFingerprint : Text)
    (schedule : RefreshSchedule) : Option (List RefreshSlot) := do
  let times ← validate { schedule with
    frequency := "daily".toList
    rules := true }
  let found := times.flatMap fun value =>
    ((occurrences (localDay now timezone) value timezone).filter (· ≤ now)).map
      fun due => makeSlot .nightly due (some value) timezone scopeFingerprint
  some ((found.foldl keepSlot []).insertionSort fun left right =>
    left.dueAt ≤ right.dueAt)

/-- `catch_up_slot`: due at the whole second. -/
def catchUpSlot (effectiveAt : Int) (timezone scopeFingerprint : Text) : RefreshSlot :=
  makeSlot .catchUp (floorTo effectiveAt 1000000) none timezone scopeFingerprint

/-! ## What the slots are -/

omit [TimeZones] [SlotDigests] in
theorem mem_foldl_keepSlot
    {added kept : List RefreshSlot} {slot : RefreshSlot}
    (member : slot ∈ added.foldl keepSlot kept) : slot ∈ kept ∨ slot ∈ added := by
  induction added generalizing kept with
  | nil => exact Or.inl member
  | cons head tail inductionHypothesis =>
      rcases inductionHypothesis member with before | later
      · unfold keepSlot at before
        split at before
        · obtain ⟨other, isOther, isSlot⟩ := List.mem_map.mp before
          split at isSlot
          · rw [← isSlot]
            exact Or.inr List.mem_cons_self
          · rw [← isSlot]
            exact Or.inl isOther
        · rcases List.mem_append.mp before with isKept | isHead
          · exact Or.inl isKept
          · rw [List.mem_singleton.mp isHead]
            exact Or.inr List.mem_cons_self
      · exact Or.inr (List.mem_cons_of_mem _ later)

/-- A slot of the schedule, due at a configured time. -/
def RefreshSlot.IsFull (slot : RefreshSlot) : Prop :=
  slot.cause = .nightly ∧ slot.nightlyTime.isSome = true

theorem isFull_of_listed
    {now : Int} {timezone scopeFingerprint : Text} {schedule : RefreshSchedule}
    {slots : List RefreshSlot} {slot : RefreshSlot}
    (listed : listedDueSlots now timezone scopeFingerprint schedule = some slots)
    (member : slot ∈ slots) : slot.IsFull := by
  obtain ⟨times, _, isSlots⟩ := Option.bind_eq_some_iff.mp listed
  cases isSlots
  rw [List.mem_insertionSort] at member
  rcases mem_foldl_keepSlot member with none' | added
  · cases none'
  · obtain ⟨value, _, isDue⟩ := List.mem_flatMap.mp added
    obtain ⟨due, _, rfl⟩ := List.mem_map.mp isDue
    exact ⟨rfl, rfl⟩

theorem isFull_of_due
    {now : Int} {timezone scopeFingerprint : Text} {schedule : RefreshSchedule}
    {slots : List RefreshSlot} {slot : RefreshSlot}
    (isDue : dueSlots now timezone scopeFingerprint schedule = some slots)
    (member : slot ∈ slots) : slot.IsFull := by
  obtain ⟨times, _, afterTimes⟩ := Option.bind_eq_some_iff.mp isDue
  obtain ⟨⟨full, chosen⟩, _, isSlots⟩ := Option.bind_eq_some_iff.mp afterTimes
  cases isSlots
  rw [List.mem_singleton.mp member]
  exact ⟨rfl, rfl⟩

end

end ParishKit.Source
