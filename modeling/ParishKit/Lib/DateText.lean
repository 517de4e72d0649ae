import ParishKit.Lib.Calendar
import ParishKit.Lib.Keyed

/-!
# Dates as text

The ten characters of a date, `YYYY-MM-DD`, and their reading. Texts are lists
of characters.
-/

namespace ParishKit.Lib

abbrev Text := List Char

/-- The first and the last day of the years 1 to 9999. -/
def dateMin : Int :=
  1

def dateMax : Int :=
  3652059

def twoDigits (number : Nat) : Text :=
  [Nat.digitChar (number / 10 % 10), Nat.digitChar (number % 10)]

def fourDigits (number : Nat) : Text :=
  [Nat.digitChar (number / 1000 % 10), Nat.digitChar (number / 100 % 10),
    Nat.digitChar (number / 10 % 10), Nat.digitChar (number % 10)]

/-- The text of a date of the years 0 to 9999. -/
def isoDate (date : CivilDate) : Text :=
  fourDigits date.year.toNat ++ '-' :: twoDigits date.month ++
    '-' :: twoDigits date.day.toNat

/-- The text of its month. -/
def isoMonth (year : Int) (month : Nat) : Text :=
  fourDigits year.toNat ++ '-' :: twoDigits month

def digitValue (char : Char) : Nat :=
  char.toNat - 48

/-- The numbers of a text of the form of a date, valid or not. -/
def dateParts : Text → Option CivilDate
  | [y1, y2, y3, y4, first, m1, m2, second, d1, d2] =>
      if first = '-' ∧ second = '-' ∧
          [y1, y2, y3, y4, m1, m2, d1, d2].all Char.isDigit = true then
        some ⟨(1000 * digitValue y1 + 100 * digitValue y2 + 10 * digitValue y3 +
            digitValue y4 : Nat), 10 * digitValue m1 + digitValue m2,
          (10 * digitValue d1 + digitValue d2 : Nat)⟩
      else
        none
  | _ => none

/-! ## Digits -/

theorem digitValue_digitChar (number : Nat) :
    digitValue (Nat.digitChar (number % 10)) = number % 10 := by
  have below := Nat.mod_lt number (show 0 < 10 by decide)
  generalize number % 10 = digit at below ⊢
  interval_cases digit <;> rfl

theorem isDigit_digitChar (number : Nat) :
    (Nat.digitChar (number % 10)).isDigit = true := by
  have below := Nat.mod_lt number (show 0 < 10 by decide)
  generalize number % 10 = digit at below ⊢
  interval_cases digit <;> rfl

/-- A digit is the one of its value, which is below ten. -/
theorem digitChar_digitValue {char : Char} (digit : char.isDigit = true) :
    Nat.digitChar (digitValue char) = char ∧ digitValue char < 10 := by
  simp only [Char.isDigit, Bool.and_eq_true, decide_eq_true_eq] at digit
  have lower : 48 ≤ char.toNat := UInt32.le_iff_toNat_le.mp digit.1
  have upper : char.toNat ≤ 57 := UInt32.le_iff_toNat_le.mp digit.2
  have isChar : char = Char.ofNat char.toNat := (Char.ofNat_toNat char).symm
  unfold digitValue
  generalize char.toNat = number at lower upper isChar ⊢
  rw [isChar]
  interval_cases number <;> decide

/-! ## Reading and writing -/

/-- A number of two digits, read back. -/
theorem twoDigits_value {number : Nat} (small : number < 100) :
    10 * digitValue (Nat.digitChar (number / 10 % 10)) +
      digitValue (Nat.digitChar (number % 10)) = number := by
  rw [digitValue_digitChar, digitValue_digitChar]
  omega

theorem fourDigits_value {number : Nat} (small : number < 10000) :
    1000 * digitValue (Nat.digitChar (number / 1000 % 10)) +
      100 * digitValue (Nat.digitChar (number / 100 % 10)) +
      10 * digitValue (Nat.digitChar (number / 10 % 10)) +
      digitValue (Nat.digitChar (number % 10)) = number := by
  simp only [digitValue_digitChar]
  omega

/-- The fields that have their digits. -/
structure CivilDate.Short (date : CivilDate) : Prop where
  year_nonneg : 0 ≤ date.year
  year_lt : date.year < 10000
  month_lt : date.month < 100
  day_nonneg : 0 ≤ date.day
  day_lt : date.day < 100

theorem CivilDate.Valid.short {date : CivilDate} (valid : date.Valid)
    (lower : 0 ≤ date.year) (upper : date.year ≤ 9999) : date.Short := by
  have days := daysInMonth_bounds date.year valid.month_pos valid.month_le
  have dayLe := valid.day_le
  have dayPos := valid.day_pos
  have monthLe := valid.month_le
  exact ⟨lower, by omega, by omega, by omega, by omega⟩

theorem dateParts_isoDate {date : CivilDate} (short : date.Short) :
    dateParts (isoDate date) = some date := by
  obtain ⟨yearNonneg, yearLt, monthLt, dayNonneg, dayLt⟩ := short
  have year := fourDigits_value (show date.year.toNat < 10000 by omega)
  have month := twoDigits_value monthLt
  have day := twoDigits_value (show date.day.toNat < 100 by omega)
  have digits : [Nat.digitChar (date.year.toNat / 1000 % 10),
      Nat.digitChar (date.year.toNat / 100 % 10),
      Nat.digitChar (date.year.toNat / 10 % 10),
      Nat.digitChar (date.year.toNat % 10), Nat.digitChar (date.month / 10 % 10),
      Nat.digitChar (date.month % 10), Nat.digitChar (date.day.toNat / 10 % 10),
      Nat.digitChar (date.day.toNat % 10)].all Char.isDigit = true := by
    simp only [List.all_cons, List.all_nil, isDigit_digitChar, Bool.and_self]
  unfold isoDate fourDigits twoDigits
  simp only [List.cons_append, List.nil_append]
  unfold dateParts
  dsimp only
  rw [if_pos ⟨rfl, rfl, digits⟩, year, month, day, Int.toNat_of_nonneg yearNonneg,
    Int.toNat_of_nonneg dayNonneg]

/-- What is read as a date is its text. -/
theorem isoDate_of_dateParts {text : Text} {date : CivilDate}
    (read : dateParts text = some date) : text = isoDate date ∧ date.Short := by
  unfold dateParts at read
  split at read
  · rename_i y1 y2 y3 y4 first m1 m2 second d1 d2
    split at read
    · rename_i form
      obtain ⟨rfl, rfl, digits⟩ := form
      simp only [List.all_cons, List.all_nil, Bool.and_true, Bool.and_eq_true]
        at digits
      obtain ⟨y1Digit, y2Digit, y3Digit, y4Digit, m1Digit, m2Digit, d1Digit,
        d2Digit⟩ := digits
      obtain ⟨y1Char, y1Lt⟩ := digitChar_digitValue y1Digit
      obtain ⟨y2Char, y2Lt⟩ := digitChar_digitValue y2Digit
      obtain ⟨y3Char, y3Lt⟩ := digitChar_digitValue y3Digit
      obtain ⟨y4Char, y4Lt⟩ := digitChar_digitValue y4Digit
      obtain ⟨m1Char, m1Lt⟩ := digitChar_digitValue m1Digit
      obtain ⟨m2Char, m2Lt⟩ := digitChar_digitValue m2Digit
      obtain ⟨d1Char, d1Lt⟩ := digitChar_digitValue d1Digit
      obtain ⟨d2Char, d2Lt⟩ := digitChar_digitValue d2Digit
      cases read
      refine ⟨?_, ?_⟩
      · have pair (first second : Nat) (firstLt : first < 10)
            (secondLt : second < 10) :
            (10 * first + second) / 10 % 10 = first ∧
              (10 * first + second) % 10 = second := by omega
        have four (first second third fourth : Nat) (firstLt : first < 10)
            (secondLt : second < 10) (thirdLt : third < 10)
            (fourthLt : fourth < 10) :
            (1000 * first + 100 * second + 10 * third + fourth) / 1000 % 10 =
                first ∧
              (1000 * first + 100 * second + 10 * third + fourth) / 100 % 10 =
                second ∧
              (1000 * first + 100 * second + 10 * third + fourth) / 10 % 10 =
                third ∧
              (1000 * first + 100 * second + 10 * third + fourth) % 10 =
                fourth := by omega
        obtain ⟨year1, year2, year3, year4⟩ :=
          four _ _ _ _ y1Lt y2Lt y3Lt y4Lt
        obtain ⟨month1, month2⟩ := pair _ _ m1Lt m2Lt
        obtain ⟨day1, day2⟩ := pair _ _ d1Lt d2Lt
        unfold isoDate fourDigits twoDigits
        dsimp only
        rw [Int.toNat_natCast, Int.toNat_natCast, year1, year2, year3, year4,
          month1, month2, day1, day2, y1Char, y2Char, y3Char, y4Char, m1Char,
          m2Char, d1Char, d2Char]
        rfl
      · constructor <;> dsimp only <;> omega
    · cases read
  · cases read

theorem isoDate_injective {first second : CivilDate} (firstShort : first.Short)
    (secondShort : second.Short) (same : isoDate first = isoDate second) :
    first = second := by
  have read := dateParts_isoDate firstShort
  rw [same, dateParts_isoDate secondShort] at read
  exact (Option.some.inj read).symm

/-- Four digits stand before the first dash of a date. -/
theorem dateParts_takeWhile {text : Text} {date : CivilDate}
    (read : dateParts text = some date) :
    text.takeWhile (· != '-') = fourDigits date.year.toNat := by
  obtain ⟨isText, _⟩ := isoDate_of_dateParts read
  have notDash (number : Nat) : (Nat.digitChar (number % 10) != '-') = true := by
    have below := Nat.mod_lt number (show 0 < 10 by decide)
    generalize number % 10 = digit at below ⊢
    interval_cases digit <;> rfl
  rw [isText]
  unfold isoDate fourDigits
  simp only [List.cons_append, List.nil_append, List.takeWhile_cons, notDash,
    if_true]
  simp

/-! ## The first and the last date -/

theorem ordinal_dateMax : (CivilDate.mk 9999 12 31).ordinal = dateMax := by
  decide

theorem ordinal_le_dateMax {date : CivilDate} (valid : date.Valid)
    (early : date.year ≤ 9999) : date.ordinal ≤ dateMax := by
  have upper := valid.ordinal_bounds.2
  have years := daysBeforeYear_mono (show date.year + 1 ≤ 10000 by omega)
  have isMax : daysBeforeYear 10000 = dateMax := by decide
  omega

theorem year_of_range {number : Int} (lower : dateMin ≤ number)
    (upper : number ≤ dateMax) :
    1 ≤ (civil number).year ∧ (civil number).year ≤ 9999 := by
  have bounds := (civil_valid number).ordinal_bounds
  rw [ordinal_civil] at bounds
  unfold daysBeforeYear at bounds
  unfold dateMin at lower
  unfold dateMax at upper
  omega

end ParishKit.Lib
