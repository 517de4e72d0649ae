import Mathlib.Data.Rat.Floor
import ParishKit.Lib.DateText

/-!
# Repeat rules

A repeat rule as JSON, the server's expander of it and the page script's. Both
give an error, or the dates and the missing months; `none` is a raised
exception.
-/

namespace ParishKit.Campaigns

open ParishKit.Lib

/-! ## Values -/

/-- A JSON value. A number is an integer, or a double given by its sign and its
shortest decimal, `digits` times ten to the `exponent`. -/
inductive Json where
  | null
  | bool (value : Bool)
  | int (value : Int)
  | float (negative : Bool) (digits : Nat) (exponent : Int)
  | string (text : Text)
  | array (items : List Json)
  | object (members : List (String × Json))

abbrev Members := List (String × Json)

def member? (members : Members) (key : String) : Option Json :=
  (members.find? fun entry => entry.1 == key).map (·.2)

def isText (value : Option Json) (text : String) : Bool :=
  match value with
  | some (.string given) => given == text.toList
  | _ => false

inductive RuleError where
  | dates
  | order
  | span
  | weekdays
  | monthly
  | frequency
deriving DecidableEq

structure Expansion where
  dates : List Text
  missing : List Text
deriving DecidableEq

inductive Expanded where
  | error (code : RuleError)
  | expanded (expansion : Expansion)
deriving DecidableEq

def Expansion.addDate (expansion : Expansion) (date : Text) : Expansion :=
  { expansion with dates := expansion.dates ++ [date] }

def Expansion.addMissing (expansion : Expansion) (month : Text) : Expansion :=
  { expansion with missing := expansion.missing ++ [month] }

/-- `SPAN_DAYS` and `RECURRENCE_SPAN`. -/
def spanDays : Int :=
  366

/-! ## The server -/

/-- `_day`. The other texts that Python reads as a date are not canonical. -/
def serverDay (value : Option Json) : Option CivilDate :=
  match value with
  | some (.string text) =>
      (dateParts text).filter fun date =>
        decide (1 ≤ date.year) && decide date.Valid
  | _ => none

/-- `_index`. -/
def index (value : Option Json) (low high : Int) : Bool :=
  match value with
  | some (.int number) => decide (low ≤ number) && decide (number ≤ high)
  | _ => false

def isInt (value : Option Json) : Bool :=
  match value with
  | some (.int _) => true
  | _ => false

/-- The number of a value that is an integer. -/
def integer (value : Option Json) : Int :=
  match value with
  | some (.int number) => number
  | _ => 0

/-- The object under `monthly`, or an empty one. -/
def serverMonthly (rule : Members) : Members :=
  match member? rule "monthly" with
  | some (.object members) => members
  | _ => []

def weekdaysGiven (rule : Members) : List Json :=
  match member? rule "weekdays" with
  | some (.array items) => items
  | _ => []

def serverByDay (rule : Members) : Bool :=
  index (member? (serverMonthly rule) "day") 1 31

def serverByWeekday (rule : Members) : Bool :=
  isInt (member? (serverMonthly rule) "ordinal") &&
    [1, 2, 3, 4, -1].contains
      (integer (member? (serverMonthly rule) "ordinal")) &&
    index (member? (serverMonthly rule) "weekday") 0 6

/-- A day of the month and a weekday of the month together. -/
def mixed (monthly : Members) : Bool :=
  (member? monthly "day").isSome &&
    ((member? monthly "ordinal").isSome || (member? monthly "weekday").isSome)

/-- One round of the server's loop. -/
def serverVisit (rule : Members) (number : Int) (found : Expansion) :
    Expansion :=
  let day := civil number
  let last := daysInMonth day.year day.month
  let frequency := member? rule "frequency"
  let monthly := serverMonthly rule
  if isText frequency "daily" then
    found.addDate (isoDate day)
  else if isText frequency "weekly" then
    if (weekdaysGiven rule).any fun value =>
        integer (some value) == weekday number then
      found.addDate (isoDate day)
    else
      found
  else if serverByDay rule then
    if day.day = integer (member? monthly "day") then
      found.addDate (isoDate day)
    else if day.day = last ∧ last < integer (member? monthly "day") then
      found.addMissing ((isoDate day).take 7)
    else
      found
  else if weekday number = integer (member? monthly "weekday") ∧
      if integer (member? monthly "ordinal") = -1 then last < day.day + 7
      else (day.day + 6) / 7 = integer (member? monthly "ordinal") then
    found.addDate (isoDate day)
  else
    found

/-- The server's loop over `left` more days; the day after `date.max` raises. -/
def serverWalk (visit : Int → Expansion → Expansion) :
    Nat → Int → Expansion → Option Expansion
  | 0, _, found => some found
  | left + 1, number, found =>
      if number = dateMax then
        none
      else
        serverWalk visit left (number + 1) (visit number found)

/-- `recurrence.expand`. -/
def expand (rule : Members) : Option Expanded :=
  let frequency := member? rule "frequency"
  match serverDay (member? rule "start"), serverDay (member? rule "end") with
  | some first, some last =>
      if last.ordinal < first.ordinal then
        some (.error .order)
      else if spanDays ≤ last.ordinal - first.ordinal then
        some (.error .span)
      else if isText frequency "weekly" && !(!(weekdaysGiven rule).isEmpty &&
          (weekdaysGiven rule).all fun value => index (some value) 0 6) then
        some (.error .weekdays)
      else if isText frequency "monthly" && (mixed (serverMonthly rule) ||
          !(serverByDay rule || serverByWeekday rule)) then
        some (.error .monthly)
      else if !(["daily", "weekly", "monthly"].any (isText frequency)) then
        some (.error .frequency)
      else
        (serverWalk (serverVisit rule)
          (last.ordinal - first.ordinal + 1).toNat first.ordinal ⟨[], []⟩).map
          .expanded
  | _, _ => some (.error .dates)

/-! ## Texts of the page script -/

/-- The text of a number, of its sign and its shortest decimal. Integers that a
double rounds first have other digits. -/
def numberText (negative : Bool) (digits : Nat) (exponent : Int) : Text :=
  if digits = 0 then
    ['0']
  else
    let text := Nat.toDigits 10 digits
    let point := text.length + exponent
    (if negative then ['-'] else []) ++
      if text.length ≤ point ∧ point ≤ 21 then
        text ++ List.replicate exponent.toNat '0'
      else if 0 < point ∧ point ≤ 21 then
        text.take point.toNat ++ '.' :: text.drop point.toNat
      else if -6 < point ∧ point ≤ 0 then
        ['0', '.'] ++ List.replicate (-point).toNat '0' ++ text
      else
        text.take 1 ++ (if text.length = 1 then [] else '.' :: text.drop 1) ++
          ['e', if point - 1 < 0 then '-' else '+'] ++
          Nat.toDigits 10 (point - 1).natAbs

mutual

/-- `String(value)`. An object with a `toString` of its own raises. -/
def scriptText : Json → Option Text
  | .null => some "null".toList
  | .bool value => some (if value then "true".toList else "false".toList)
  | .int value => some (numberText (decide (value < 0)) value.natAbs 0)
  | .float negative digits exponent => some (numberText negative digits exponent)
  | .string text => some text
  | .array items => joinedText items
  | .object members =>
      if (member? members "toString").isSome then none
      else some "[object Object]".toList

/-- The items of an array with commas between them; a null is empty. -/
def joinedText : List Json → Option Text
  | [] => some []
  | item :: rest =>
      (scriptText item).bind fun text =>
        let own := match item with
          | .null => []
          | _ => text
        match rest with
        | [] => some own
        | _ :: _ => (joinedText rest).map fun others => own ++ ',' :: others

end

/-! ## Dates of the page script -/

/-- The ordinal of January 1, 1970; the script's days count from it. -/
def epoch : Int :=
  719163

/-- `Date.UTC`, as a day, with the month from 0. The years 0 to 99 are 1900 to
1999, and months and days outside their range carry over. -/
def dateUTC (year month day : Int) : Int :=
  let full := if 0 ≤ year ∧ year ≤ 99 then 1900 + year else year
  (CivilDate.mk (full + month / 12) ((month % 12).toNat + 1) 1).ordinal - epoch +
    day - 1

/-- The date part of `toISOString`. Years that do not have four digits have a
sign and six. -/
def toISOString (day : Int) : Text :=
  let date := civil (day + epoch)
  if 0 ≤ date.year ∧ date.year ≤ 9999 then
    isoDate date
  else
    (if date.year < 0 then '-' else '+') ::
      twoDigits (date.year.natAbs / 10000) ++
      isoDate { date with year := date.year.natAbs % 10000 }

/-- `civilDay`; the inner `none` is its null. -/
def civilDay (value : Option Json) : Option (Option Int) :=
  (match value with
    | none => some []
    | some .null => some []
    | some other => scriptText other).map fun text =>
      (dateParts text).bind fun parts =>
        let day := dateUTC parts.year (parts.month - 1) parts.day
        if (toISOString day).take 10 = text then some day else none

def isoDay (day : Int) : Text :=
  (toISOString day).take 10

def monthDays (day : Int) : Int :=
  let date := civil (day + epoch)
  (civil (dateUTC date.year date.month 0 + epoch)).day

/-- `getUTCDay`, Sunday 0. -/
def getUTCDay (day : Int) : Int :=
  (day + 4) % 7

def mondayFirst (day : Int) : Int :=
  (day + 6) % 7

/-! ## The page script -/

def number? (value : Option Json) : Option Rat :=
  match value with
  | some (.int number) => some number
  | some (.float negative digits exponent) =>
      some ((if negative then -1 else 1) * digits * (10 : Rat) ^ exponent)
  | _ => none

def inRange (value : Option Json) (low high : Int) : Bool :=
  match number? value with
  | some number =>
      number.isInt && decide ((low : Rat) ≤ number) && decide (number ≤ high)
  | none => false

/-- The members under `monthly`; an array has none of their names. -/
def scriptMonthly (rule : Members) : Members :=
  match member? rule "monthly" with
  | some (.object members) => members
  | _ => []

def scriptByDay (rule : Members) : Bool :=
  inRange (member? (scriptMonthly rule) "day") 1 31

def scriptByWeekday (rule : Members) : Bool :=
  ((number? (member? (scriptMonthly rule) "ordinal")).any fun number =>
    [1, 2, 3, 4, -1].contains number) &&
    inRange (member? (scriptMonthly rule) "weekday") 0 6

def isNumber (value : Option Json) (number : Int) : Bool :=
  number? value == some (number : Rat)

/-- One round of the script's loop. -/
def scriptVisit (rule : Members) (day : Int) (found : Expansion) : Expansion :=
  let date := (civil (day + epoch)).day
  let frequency := member? rule "frequency"
  let monthly := scriptMonthly rule
  if isText frequency "daily" then
    found.addDate (isoDay day)
  else if isText frequency "weekly" then
    if (weekdaysGiven rule).any fun value =>
        isNumber (some value) (mondayFirst (getUTCDay day)) then
      found.addDate (isoDay day)
    else
      found
  else if scriptByDay rule then
    if isNumber (member? monthly "day") date then
      found.addDate (isoDay day)
    else if date = monthDays day ∧
        (number? (member? monthly "day")).any fun chosen =>
          decide ((date : Rat) < chosen) then
      found.addMissing ((isoDay day).take 7)
    else
      found
  else if isNumber (member? monthly "weekday") (mondayFirst (getUTCDay day)) ∧
      if isNumber (member? monthly "ordinal") (-1) then monthDays day < date + 7
      else isNumber (member? monthly "ordinal") ⌈(date : Rat) / 7⌉ then
    found.addDate (isoDay day)
  else
    found

/-- The script's loop over `left` more days. -/
def scriptWalk (visit : Int → Expansion → Expansion) :
    Nat → Int → Expansion → Expansion
  | 0, _, found => found
  | left + 1, day, found => scriptWalk visit left (day + 1) (visit day found)

/-- `expandRecurrence`. -/
def expandRecurrence (rule : Members) : Option Expanded :=
  let frequency := member? rule "frequency"
  (civilDay (member? rule "start")).bind fun start =>
    (civilDay (member? rule "end")).map fun stop =>
      match start, stop with
      | some first, some last =>
          if last < first then
            .error .order
          else if spanDays ≤ last - first then
            .error .span
          else if isText frequency "weekly" && !(!(weekdaysGiven rule).isEmpty &&
              (weekdaysGiven rule).all fun value => inRange (some value) 0 6) then
            .error .weekdays
          else if isText frequency "monthly" && (mixed (scriptMonthly rule) ||
              !(scriptByDay rule || scriptByWeekday rule)) then
            .error .monthly
          else if !(["daily", "weekly", "monthly"].any (isText frequency)) then
            .error .frequency
          else
            .expanded (scriptWalk (scriptVisit rule) (last - first + 1).toNat
              first ⟨[], []⟩)
      | _, _ => .error .dates

end ParishKit.Campaigns
