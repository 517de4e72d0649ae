import Mathlib.Algebra.Order.Ring.Int
import Mathlib.Tactic.IntervalCases

/-!
# The proleptic Gregorian calendar

Civil dates and day numbers, day 1 being the first of January of year 1. The
two are in step: the day number of a date is strictly monotone in year, month
and day, and every day number has exactly one date.
-/

namespace ParishKit.Lib

def leapYear (year : Int) : Bool :=
  year % 4 == 0 && (year % 100 != 0 || year % 400 == 0)

/-- The days of a year before its month `month + 1`, in a common year. -/
def commonDays : Nat → Int
  | 0 => 0
  | 1 => 31
  | 2 => 59
  | 3 => 90
  | 4 => 120
  | 5 => 151
  | 6 => 181
  | 7 => 212
  | 8 => 243
  | 9 => 273
  | 10 => 304
  | 11 => 334
  | _ => 365

/-- The days of a year in its first `months` months. -/
def daysThrough (year : Int) (months : Nat) : Int :=
  commonDays months + if 2 ≤ months ∧ leapYear year = true then 1 else 0

def daysInMonth (year : Int) (month : Nat) : Int :=
  daysThrough year month - daysThrough year (month - 1)

def daysBeforeYear (year : Int) : Int :=
  365 * (year - 1) + (year - 1) / 4 - (year - 1) / 100 + (year - 1) / 400

structure CivilDate where
  year : Int
  month : Nat
  day : Int
deriving DecidableEq, Repr

namespace CivilDate

structure Valid (date : CivilDate) : Prop where
  month_pos : 1 ≤ date.month
  month_le : date.month ≤ 12
  day_pos : 1 ≤ date.day
  day_le : date.day ≤ daysInMonth date.year date.month

instance (date : CivilDate) : Decidable date.Valid :=
  decidable_of_iff (1 ≤ date.month ∧ date.month ≤ 12 ∧ 1 ≤ date.day ∧
      date.day ≤ daysInMonth date.year date.month)
    ⟨fun ⟨first, second, third, fourth⟩ => ⟨first, second, third, fourth⟩,
      fun valid => ⟨valid.month_pos, valid.month_le, valid.day_pos,
        valid.day_le⟩⟩

/-- The day's place in its year. -/
def yearDay (date : CivilDate) : Int :=
  daysThrough date.year (date.month - 1) + date.day

def ordinal (date : CivilDate) : Int :=
  daysBeforeYear date.year + date.yearDay

/-- Earlier in year, month and day. -/
def Before (first second : CivilDate) : Prop :=
  first.year < second.year ∨ first.year = second.year ∧
    (first.month < second.month ∨ first.month = second.month ∧
      first.day < second.day)

end CivilDate

/-! ## Years -/

theorem leapYear_iff (year : Int) :
    leapYear year = true ↔
      year % 4 = 0 ∧ (year % 100 ≠ 0 ∨ year % 400 = 0) := by
  simp [leapYear]

theorem daysThrough_year (year : Int) :
    daysThrough year 12 = 365 + if leapYear year = true then 1 else 0 := by
  simp [daysThrough, commonDays]

theorem daysBeforeYear_succ (year : Int) :
    daysBeforeYear (year + 1) = daysBeforeYear year + daysThrough year 12 := by
  rw [daysThrough_year]
  have leap := leapYear_iff year
  unfold daysBeforeYear
  by_cases isLeap : leapYear year = true
  · rw [if_pos isLeap]
    have divides := leap.mp isLeap
    omega
  · rw [if_neg isLeap]
    have divides : ¬(year % 4 = 0 ∧ (year % 100 ≠ 0 ∨ year % 400 = 0)) :=
      fun holds => isLeap (leap.mpr holds)
    omega

theorem daysBeforeYear_mono {first second : Int} (le : first ≤ second) :
    daysBeforeYear first ≤ daysBeforeYear second := by
  unfold daysBeforeYear
  omega

/-! ## Months -/

theorem daysThrough_zero (year : Int) : daysThrough year 0 = 0 := by
  simp [daysThrough, commonDays]

/-- Every month has at least twenty-eight days and at most thirty-one. -/
theorem daysInMonth_bounds (year : Int) {month : Nat} (first : 1 ≤ month)
    (last : month ≤ 12) :
    28 ≤ daysInMonth year month ∧ daysInMonth year month ≤ 31 := by
  unfold daysInMonth daysThrough
  by_cases isLeap : leapYear year = true
  · interval_cases month <;> simp [commonDays, isLeap]
  · interval_cases month <;> simp [commonDays, isLeap]

theorem daysInMonth_of_ne_two (first second : Int) {month : Nat}
    (monthPos : 1 ≤ month) (monthLe : month ≤ 12) (other : month ≠ 2) :
    daysInMonth first month = daysInMonth second month := by
  unfold daysInMonth daysThrough
  rcases Nat.lt_or_ge month 2 with early | late
  · rw [if_neg (by omega), if_neg (by omega), if_neg (by omega),
      if_neg (by omega)]
  · have both (year : Int) : (2 ≤ month ∧ leapYear year = true ↔
        2 ≤ month - 1 ∧ leapYear year = true) := by
      constructor
      · rintro ⟨_, leap⟩
        exact ⟨by omega, leap⟩
      · rintro ⟨_, leap⟩
        exact ⟨late, leap⟩
    simp only [both]
    omega

theorem daysInMonth_two (year : Int) :
    daysInMonth year 2 = 28 + if leapYear year = true then 1 else 0 := by
  unfold daysInMonth daysThrough
  by_cases isLeap : leapYear year = true
  · simp [commonDays, isLeap]
  · simp [commonDays, isLeap]

theorem leapYear_alone {year : Int} (leap : leapYear year = true) :
    leapYear (year - 1) = false := by
  have divides := (leapYear_iff year).mp leap
  rw [Bool.eq_false_iff]
  intro before
  have beforeDivides := (leapYear_iff (year - 1)).mp before
  omega

theorem daysThrough_mono (year : Int) {first second : Nat} (le : first ≤ second)
    (last : second ≤ 12) :
    daysThrough year first ≤ daysThrough year second := by
  induction second with
  | zero =>
      have isZero : first = 0 := by omega
      rw [isZero]
  | succ second inductionHypothesis =>
      rcases Nat.lt_or_ge first (second + 1) with below | above
      · have before := inductionHypothesis (by omega) (by omega)
        have bounds := daysInMonth_bounds year
          (show 1 ≤ second + 1 by omega) last
        unfold daysInMonth at bounds
        rw [Nat.add_sub_cancel] at bounds
        omega
      · have same : first = second + 1 := by omega
        rw [same]

namespace CivilDate

variable {first second date : CivilDate}

theorem Valid.yearDay_bounds (valid : date.Valid) :
    1 ≤ date.yearDay ∧ date.yearDay ≤ daysThrough date.year date.month := by
  have dayPos := valid.day_pos
  have dayLe := valid.day_le
  have monthPos := valid.month_pos
  have before := daysThrough_mono date.year (Nat.zero_le (date.month - 1))
    (by have := valid.month_le; omega)
  rw [daysThrough_zero] at before
  unfold yearDay
  unfold daysInMonth at dayLe
  omega

theorem Valid.ordinal_bounds (valid : date.Valid) :
    daysBeforeYear date.year < date.ordinal ∧
      date.ordinal ≤ daysBeforeYear (date.year + 1) := by
  have bounds := valid.yearDay_bounds
  have through := daysThrough_mono date.year valid.month_le (Nat.le_refl 12)
  rw [daysBeforeYear_succ]
  unfold ordinal
  omega

/-- The day number is strictly monotone. -/
theorem ordinal_lt_of_before
    (firstValid : first.Valid) (secondValid : second.Valid)
    (before : first.Before second) : first.ordinal < second.ordinal := by
  rcases before with year | ⟨year, month | ⟨month, day⟩⟩
  · have firstBounds := firstValid.ordinal_bounds
    have secondBounds := secondValid.ordinal_bounds
    have years := daysBeforeYear_mono (show first.year + 1 ≤ second.year by omega)
    omega
  · have firstBounds := firstValid.yearDay_bounds
    have months := daysThrough_mono second.year
      (show first.month ≤ second.month - 1 by omega)
      (by have := secondValid.month_le; omega)
    have dayPos := secondValid.day_pos
    unfold ordinal
    rw [year] at firstBounds ⊢
    have secondDay : second.yearDay =
        daysThrough second.year (second.month - 1) + second.day := rfl
    omega
  · unfold ordinal yearDay
    rw [year, month]
    omega

theorem before_trichotomy (first second : CivilDate) :
    first.Before second ∨ first = second ∨ second.Before first := by
  rcases lt_trichotomy first.year second.year with year | year | year
  · exact Or.inl (Or.inl year)
  · rcases Nat.lt_trichotomy first.month second.month with month | month | month
    · exact Or.inl (Or.inr ⟨year, Or.inl month⟩)
    · rcases lt_trichotomy first.day second.day with day | day | day
      · exact Or.inl (Or.inr ⟨year, Or.inr ⟨month, day⟩⟩)
      · refine Or.inr (Or.inl ?_)
        cases first
        cases second
        simp_all
      · exact Or.inr (Or.inr (Or.inr ⟨year.symm, Or.inr ⟨month.symm, day⟩⟩))
    · exact Or.inr (Or.inr (Or.inr ⟨year.symm, Or.inl month⟩))
  · exact Or.inr (Or.inr (Or.inl year))

theorem before_of_ordinal_lt
    (firstValid : first.Valid) (secondValid : second.Valid)
    (less : first.ordinal < second.ordinal) : first.Before second := by
  rcases before_trichotomy first second with before | same | after
  · exact before
  · rw [same] at less
    omega
  · have more := ordinal_lt_of_before secondValid firstValid after
    omega

theorem ordinal_injective
    (firstValid : first.Valid) (secondValid : second.Valid)
    (same : first.ordinal = second.ordinal) : first = second := by
  rcases before_trichotomy first second with before | equal | after
  · have less := ordinal_lt_of_before firstValid secondValid before
    omega
  · exact equal
  · have less := ordinal_lt_of_before secondValid firstValid after
    omega

end CivilDate

/-! ## The date of a day number -/

/-- The year of a day number: whole cycles of 400, 100, 4 and 1 years. -/
def yearOf (number : Int) : Int :=
  let rest := (number - 1) % 146097
  let hundreds := min (rest / 36524) 3
  let inHundred := rest - 36524 * hundreds
  let inFour := inHundred % 1461
  400 * ((number - 1) / 146097) + 100 * hundreds + 4 * (inHundred / 1461) +
    min (inFour / 365) 3 + 1

/-- A year told by its whole cycles: four centuries, centuries, leap cycles and
years. -/
theorem daysBeforeYear_cycles
    (cycles : Int) {hundreds fours ones : Int} (hundredsPos : 0 ≤ hundreds)
    (hundredsLe : hundreds ≤ 3) (foursPos : 0 ≤ fours) (foursLe : fours ≤ 24)
    (onesPos : 0 ≤ ones) (onesLe : ones ≤ 3) :
    daysBeforeYear (400 * cycles + 100 * hundreds + 4 * fours + ones + 1) =
        146097 * cycles + 36524 * hundreds + 1461 * fours + 365 * ones ∧
      (leapYear (400 * cycles + 100 * hundreds + 4 * fours + ones + 1) = true ↔
        ones = 3 ∧ (fours ≠ 24 ∨ hundreds = 3)) := by
  constructor
  · unfold daysBeforeYear
    have quarter : (400 * cycles + 100 * hundreds + 4 * fours + ones) / 4 =
        100 * cycles + 25 * hundreds + fours := by omega
    have century : (400 * cycles + 100 * hundreds + 4 * fours + ones) / 100 =
        4 * cycles + hundreds := by omega
    have cycle : (400 * cycles + 100 * hundreds + 4 * fours + ones) / 400 =
        cycles := by omega
    rw [Int.add_sub_cancel, quarter, century, cycle]
    omega
  · rw [leapYear_iff]
    omega

/-- A day number by its cycles; `left` days of its year are behind it. -/
theorem yearOf_cycles (number : Int) :
    ∃ cycles hundreds fours ones left : Int,
      yearOf number = 400 * cycles + 100 * hundreds + 4 * fours + ones + 1 ∧
      number - 1 = 146097 * cycles + 36524 * hundreds + 1461 * fours +
        365 * ones + left ∧
      (0 ≤ hundreds ∧ hundreds ≤ 3) ∧ (0 ≤ fours ∧ fours ≤ 24) ∧
      (0 ≤ ones ∧ ones ≤ 3) ∧ 0 ≤ left ∧
      (left < 365 ∨ left = 365 ∧ ones = 3 ∧ (fours ≠ 24 ∨ hundreds = 3)) := by
  obtain ⟨cycles, isCycles⟩ : ∃ part, part = (number - 1) / 146097 := ⟨_, rfl⟩
  obtain ⟨rest, isRest⟩ : ∃ part, part = (number - 1) % 146097 := ⟨_, rfl⟩
  obtain ⟨hundreds, isHundreds⟩ : ∃ part, part = min (rest / 36524) 3 :=
    ⟨_, rfl⟩
  obtain ⟨inHundred, isInHundred⟩ : ∃ part, part = rest - 36524 * hundreds :=
    ⟨_, rfl⟩
  obtain ⟨inFour, isInFour⟩ : ∃ part, part = inHundred % 1461 := ⟨_, rfl⟩
  obtain ⟨ones, isOnes⟩ : ∃ part, part = min (inFour / 365) 3 := ⟨_, rfl⟩
  have isYear : yearOf number = 400 * cycles + 100 * hundreds +
      4 * (inHundred / 1461) + ones + 1 := by
    rw [isOnes, isInFour, isInHundred, isHundreds, isRest, isCycles]
    rfl
  have inHundredBounds : 0 ≤ inHundred ∧
      (inHundred < 36524 ∨ hundreds = 3 ∧ inHundred ≤ 36524) := by omega
  have hundredBounds : 0 ≤ hundreds ∧ hundreds ≤ 3 := by omega
  have numberParts : number - 1 =
      146097 * cycles + 36524 * hundreds + inHundred := by omega
  have oneBounds : (0 ≤ ones ∧ ones ≤ 3) ∧ 0 ≤ inFour - 365 * ones ∧
      (inFour - 365 * ones < 365 ∨
        ones = 3 ∧ inFour - 365 * ones = 365 ∧ inFour = 1460) := by omega
  clear isCycles isRest isHundreds isInHundred isOnes
  refine ⟨cycles, hundreds, inHundred / 1461, ones, inFour - 365 * ones, isYear,
    ?_, hundredBounds, ?_, oneBounds.1, oneBounds.2.1, ?_⟩
  · omega
  · omega
  · omega

theorem yearOf_spec (number : Int) :
    daysBeforeYear (yearOf number) < number ∧
      number ≤ daysBeforeYear (yearOf number + 1) := by
  obtain ⟨cycles, hundreds, fours, ones, left, isYear, isNumber,
    ⟨hundredsPos, hundredsLe⟩, ⟨foursPos, foursLe⟩, ⟨onesPos, onesLe⟩, leftPos,
    leftLe⟩ := yearOf_cycles number
  obtain ⟨days, leap⟩ := daysBeforeYear_cycles cycles hundredsPos hundredsLe
    foursPos foursLe onesPos onesLe
  rw [daysBeforeYear_succ, daysThrough_year, isYear, days]
  by_cases isLeap : leapYear
      (400 * cycles + 100 * hundreds + 4 * fours + ones + 1) = true
  · rw [if_pos isLeap]
    omega
  · rw [if_neg isLeap]
    have which : ¬(ones = 3 ∧ (fours ≠ 24 ∨ hundreds = 3)) :=
      fun holds => isLeap (leap.mpr holds)
    omega

/-- The month of the `yearDay`-th day of a year. -/
def monthOf (year yearDay : Int) : Nat :=
  ((List.range 12).find? fun month =>
    decide (yearDay ≤ daysThrough year (month + 1))).getD 11 + 1

theorem monthOf_spec {year yearDay : Int} (first : 1 ≤ yearDay)
    (last : yearDay ≤ daysThrough year 12) :
    1 ≤ monthOf year yearDay ∧ monthOf year yearDay ≤ 12 ∧
      daysThrough year (monthOf year yearDay - 1) < yearDay ∧
      yearDay ≤ daysThrough year (monthOf year yearDay) := by
  unfold monthOf
  cases found : (List.range 12).find? fun month =>
      decide (yearDay ≤ daysThrough year (month + 1)) with
  | none =>
      have never := List.find?_eq_none.mp found 11 (by simp)
      simp at never
      omega
  | some month =>
      obtain ⟨isReached, inRange, missed⟩ := List.find?_range_eq_some.mp found
      have reached := decide_eq_true_eq.mp isReached
      have isSome : (some month).getD 11 + 1 = month + 1 := rfl
      rw [isSome]
      have inside : month < 12 := by simpa using inRange
      refine ⟨by omega, by omega, ?_, reached⟩
      rw [Nat.add_sub_cancel]
      rcases Nat.eq_zero_or_pos month with isFirst | later
      · rw [isFirst, daysThrough_zero]
        omega
      · have before := missed (month - 1) (by omega)
        rw [Nat.sub_add_cancel later] at before
        simpa using before

/-- The date of a day number. -/
def civil (number : Int) : CivilDate :=
  let year := yearOf number
  let yearDay := number - daysBeforeYear year
  let month := monthOf year yearDay
  ⟨year, month, yearDay - daysThrough year (month - 1)⟩

/-- The day of the week, Monday 0. -/
def weekday (number : Int) : Int :=
  (number + 6) % 7

theorem civil_valid (number : Int) : (civil number).Valid := by
  have year := yearOf_spec number
  rw [daysBeforeYear_succ] at year
  obtain ⟨monthPos, monthLe, dayPos, dayLe⟩ := monthOf_spec
    (show 1 ≤ number - daysBeforeYear (yearOf number) by omega)
    (show _ ≤ daysThrough (yearOf number) 12 by omega)
  refine ⟨monthPos, monthLe, ?_, ?_⟩
  · unfold civil
    dsimp only
    omega
  · unfold civil daysInMonth
    dsimp only
    omega

theorem ordinal_civil (number : Int) : (civil number).ordinal = number := by
  unfold civil CivilDate.ordinal CivilDate.yearDay
  dsimp only
  omega

theorem civil_ordinal {date : CivilDate} (valid : date.Valid) :
    civil date.ordinal = date :=
  CivilDate.ordinal_injective (civil_valid _) valid (ordinal_civil _)

theorem civil_before {first second : Int} (less : first < second) :
    (civil first).Before (civil second) := by
  refine CivilDate.before_of_ordinal_lt (civil_valid first)
    (civil_valid second) ?_
  rw [ordinal_civil, ordinal_civil]
  exact less

/-- The other days of a month are as many days away as their numbers differ. -/
theorem civil_add {number shift : Int} (first : 1 ≤ (civil number).day + shift)
    (last : (civil number).day + shift ≤
      daysInMonth (civil number).year (civil number).month) :
    civil (number + shift) =
      { civil number with day := (civil number).day + shift } := by
  have valid := civil_valid number
  have moved : ({ civil number with day := (civil number).day + shift } :
      CivilDate).Valid := ⟨valid.month_pos, valid.month_le, first, last⟩
  have isOrdinal : ({ civil number with day := (civil number).day + shift } :
      CivilDate).ordinal = number + shift := by
    have own := ordinal_civil number
    unfold CivilDate.ordinal CivilDate.yearDay at own ⊢
    dsimp only
    omega
  rw [← isOrdinal]
  exact civil_ordinal moved

/-! ## Months -/

def SameMonth (first second : Int) : Prop :=
  (civil first).year = (civil second).year ∧
    (civil first).month = (civil second).month

theorem SameMonth.sub {first second : Int} (same : SameMonth first second) :
    first - second = (civil first).day - (civil second).day := by
  obtain ⟨year, month⟩ := same
  have firstOrdinal := ordinal_civil first
  have secondOrdinal := ordinal_civil second
  unfold CivilDate.ordinal CivilDate.yearDay at firstOrdinal secondOrdinal
  rw [year, month] at firstOrdinal
  omega

/-- The days of a month are the days around one of them. -/
theorem sameMonth_add {number shift : Int}
    (first : 1 ≤ (civil number).day + shift)
    (last : (civil number).day + shift ≤
      daysInMonth (civil number).year (civil number).month) :
    SameMonth (number + shift) number ∧
      (civil (number + shift)).day = (civil number).day + shift := by
  rw [SameMonth, civil_add first last]
  exact ⟨⟨rfl, rfl⟩, rfl⟩

/-- The last day of a month. -/
def monthEnd (year : Int) (month : Nat) : Int :=
  (CivilDate.mk year month (daysInMonth year month)).ordinal

theorem civil_monthEnd (year : Int) {month : Nat} (monthPos : 1 ≤ month)
    (monthLe : month ≤ 12) :
    civil (monthEnd year month) = ⟨year, month, daysInMonth year month⟩ := by
  have days := daysInMonth_bounds year monthPos monthLe
  exact civil_ordinal ⟨monthPos, monthLe, by dsimp only; omega,
    Int.le_refl _⟩

theorem monthEnd_civil {number : Int}
    (last : (civil number).day =
      daysInMonth (civil number).year (civil number).month) :
    monthEnd (civil number).year (civil number).month = number := by
  unfold monthEnd
  rw [← last]
  exact ordinal_civil number

end ParishKit.Lib
