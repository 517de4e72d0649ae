import ParishKit.Lib.DateText

/-!
# The order of the texts of dates

Texts compare character by character. On the texts of dates this is the order of
the days.
-/

namespace ParishKit.Lib

/-! ## Digits -/

theorem digitChar_lt_iff {first second : Nat} (firstSmall : first < 10)
    (secondSmall : second < 10) :
    Nat.digitChar first < Nat.digitChar second ↔ first < second := by
  have firstNat := Nat.toNat_digitChar_of_lt_ten firstSmall
  have secondNat := Nat.toNat_digitChar_of_lt_ten secondSmall
  rw [Char.lt_def, UInt32.lt_iff_toNat_lt]
  change (Nat.digitChar first).toNat < (Nat.digitChar second).toNat ↔ _
  omega

theorem digitChar_inj {first second : Nat} (firstSmall : first < 10)
    (secondSmall : second < 10) :
    Nat.digitChar first = Nat.digitChar second ↔ first = second := by
  constructor
  · intro same
    have sameNat := congrArg Char.toNat same
    rw [Nat.toNat_digitChar_of_lt_ten firstSmall, Nat.toNat_digitChar_of_lt_ten secondSmall] at sameNat
    omega
  · exact congrArg Nat.digitChar

/-- The first digit decides, and the rest after equal ones. -/
theorem digit_cons_lt_iff {first second : Nat} (firstSmall : first < 10)
    (secondSmall : second < 10) (rest others : Text) :
    Nat.digitChar first :: rest < Nat.digitChar second :: others ↔
      first < second ∨ first = second ∧ rest < others := by
  rw [List.cons_lt_cons_iff, digitChar_lt_iff firstSmall secondSmall,
    digitChar_inj firstSmall secondSmall]

theorem twoDigits_append_lt_iff {first second : Nat} (firstSmall : first < 100)
    (secondSmall : second < 100) (rest others : Text) :
    twoDigits first ++ rest < twoDigits second ++ others ↔
      first < second ∨ first = second ∧ rest < others := by
  unfold twoDigits
  simp only [List.cons_append, List.nil_append]
  rw [digit_cons_lt_iff (by omega) (by omega), digit_cons_lt_iff (by omega) (by omega)]
  by_cases isLess : rest < others
  · simp only [isLess, and_true]
    omega
  · simp only [isLess, and_false, or_false]
    omega

theorem fourDigits_eq (number : Nat) :
    fourDigits number = twoDigits (number / 100) ++ twoDigits (number % 100) := by
  have thousands : number / 100 / 10 % 10 = number / 1000 % 10 := by omega
  have tens : number % 100 / 10 % 10 = number / 10 % 10 := by omega
  have units : number % 100 % 10 = number % 10 := by omega
  unfold fourDigits twoDigits
  rw [thousands, tens, units]
  rfl

theorem fourDigits_append_lt_iff {first second : Nat} (firstSmall : first < 10000)
    (secondSmall : second < 10000) (rest others : Text) :
    fourDigits first ++ rest < fourDigits second ++ others ↔
      first < second ∨ first = second ∧ rest < others := by
  rw [fourDigits_eq, fourDigits_eq, List.append_assoc, List.append_assoc,
    twoDigits_append_lt_iff (by omega) (by omega),
    twoDigits_append_lt_iff (by omega) (by omega)]
  by_cases isLess : rest < others
  · simp only [isLess, and_true]
    omega
  · simp only [isLess, and_false, or_false]
    omega

/-! ## Dates -/

/-- The year decides, then the month, then the day. -/
theorem isoDate_lt_iff_before {first second : CivilDate} (firstShort : first.Short)
    (secondShort : second.Short) :
    isoDate first < isoDate second ↔ first.Before second := by
  obtain ⟨firstYearNonneg, firstYear, firstMonth, firstDayNonneg, firstDay⟩ := firstShort
  obtain ⟨secondYearNonneg, secondYear, secondMonth, secondDayNonneg, secondDay⟩ :=
    secondShort
  have dash (rest others : Text) : '-' :: rest < '-' :: others ↔ rest < others := by
    rw [List.cons_lt_cons_iff]
    simp
  have days := twoDigits_append_lt_iff (show first.day.toNat < 100 by omega)
    (show second.day.toNat < 100 by omega) [] []
  rw [List.append_nil, List.append_nil] at days
  unfold isoDate CivilDate.Before
  rw [List.append_assoc, List.append_assoc, fourDigits_append_lt_iff (by omega) (by omega),
    List.cons_append, List.cons_append, dash, twoDigits_append_lt_iff firstMonth secondMonth,
    dash, days]
  have noLess : ¬ ([] : Text) < [] := List.not_lt_nil []
  simp only [noLess, and_false, or_false]
  omega

theorem isoDate_lt_iff {first second : CivilDate} (firstValid : first.Valid)
    (secondValid : second.Valid) (firstShort : first.Short)
    (secondShort : second.Short) :
    isoDate first < isoDate second ↔ first.ordinal < second.ordinal := by
  rw [isoDate_lt_iff_before firstShort secondShort]
  constructor
  · exact CivilDate.ordinal_lt_of_before firstValid secondValid
  · exact CivilDate.before_of_ordinal_lt firstValid secondValid

end ParishKit.Lib
