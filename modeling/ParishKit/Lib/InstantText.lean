import ParishKit.Lib.DecimalText

/-!
# Instants as text

An instant is counted in microseconds, from the midnight that begins the day of
ordinal zero. Its text is the one of UTC.
-/

namespace ParishKit.Lib

def dayMicros : Int :=
  86400000000

/-- The time of a day, with the microseconds when there are any. -/
def clockText (micros : Nat) : Text :=
  let seconds := micros / 1000000
  twoDigits (seconds / 3600) ++ ':' :: twoDigits (seconds / 60 % 60) ++
    ':' :: twoDigits (seconds % 60) ++
    if micros % 1000000 = 0 then [] else '.' :: lowDigits 6 micros

/-- `datetime.isoformat` in UTC. -/
def instantText (instant : Int) : Text :=
  isoDate (civil (instant / dayMicros)) ++
    'T' :: clockText (instant % dayMicros).toNat ++ "+00:00".toList

/-! ## Reading -/

def clockValue : Text → Nat
  | h1 :: h2 :: _ :: m1 :: m2 :: _ :: s1 :: s2 :: rest =>
      ((10 * digitValue h1 + digitValue h2) * 3600 +
          (10 * digitValue m1 + digitValue m2) * 60 +
          (10 * digitValue s1 + digitValue s2)) * 1000000 +
        if rest.head? = some '.' then Nat.ofDigitChars 10 (rest.tail.take 6) 0 else 0
  | _ => 0

def instantValue (text : Text) : Option Int :=
  (dateParts (text.take 10)).map fun date =>
    date.ordinal * dayMicros + clockValue (text.drop 11)

theorem ofDigitChars_lowDigits (places number : Nat) :
    Nat.ofDigitChars 10 (lowDigits places number) 0 = number % 10 ^ places := by
  induction places generalizing number with
  | zero =>
      rw [pow_zero, Nat.mod_one]
      rfl
  | succ places inductionHypothesis =>
      rw [lowDigits, Nat.ofDigitChars_append, inductionHypothesis,
        Nat.ofDigitChars_cons_digitChar_of_lt_ten (Nat.mod_lt _ (by decide)),
        Nat.ofDigitChars_nil, pow_succ, mul_comm _ 10, Nat.mod_mul]
      omega

/-- A time of a day is read back, whatever follows that is no fraction. -/
theorem clockValue_clockText
    {micros : Nat} (below : micros < 86400000000) {rest : Text}
    (noPoint : rest.head? ≠ some '.') :
    clockValue (clockText micros ++ rest) = micros := by
  have hours := twoDigits_value (show micros / 1000000 / 3600 < 100 by omega)
  have minutes := twoDigits_value (show micros / 1000000 / 60 % 60 < 100 by omega)
  have seconds := twoDigits_value (show micros / 1000000 % 60 < 100 by omega)
  unfold clockText twoDigits
  simp only [List.cons_append, List.nil_append]
  unfold clockValue
  dsimp only
  rw [hours, minutes, seconds]
  by_cases whole : micros % 1000000 = 0
  · rw [if_pos whole, List.nil_append, if_neg noPoint]
    omega
  · have taken : (lowDigits 6 micros ++ rest).take 6 = lowDigits 6 micros :=
      List.take_left' (length_lowDigits 6 micros)
    rw [if_neg whole, List.cons_append, List.head?_cons, if_pos rfl, List.tail_cons, taken,
      ofDigitChars_lowDigits]
    omega

theorem instantValue_instantText
    {instant : Int} (lower : dateMin ≤ instant / dayMicros)
    (upper : instant / dayMicros ≤ dateMax) :
    instantValue (instantText instant) = some instant := by
  have shape : instantText instant = isoDate (civil (instant / dayMicros)) ++
      'T' :: (clockText (instant % dayMicros).toNat ++ "+00:00".toList) := by
    unfold instantText
    rw [List.append_assoc, List.cons_append]
  have years := year_of_range lower upper
  have short := (civil_valid (instant / dayMicros)).short (by omega) years.2
  have nonneg : 0 ≤ instant % dayMicros := Int.emod_nonneg _ (by decide)
  have below : instant % dayMicros < dayMicros := Int.emod_lt_of_pos _ (by decide)
  have divided := Int.mul_ediv_add_emod instant dayMicros
  unfold dayMicros at nonneg below
  have clock : clockValue (clockText (instant % 86400000000).toNat ++ "+00:00".toList) =
      (instant % 86400000000).toNat := clockValue_clockText (by omega) (by decide)
  have taken : (isoDate (civil (instant / dayMicros)) ++
      'T' :: (clockText (instant % dayMicros).toNat ++ "+00:00".toList)).take 10 =
        isoDate (civil (instant / dayMicros)) := List.take_left' rfl
  have dropped : (isoDate (civil (instant / dayMicros)) ++
      'T' :: (clockText (instant % dayMicros).toNat ++ "+00:00".toList)).drop 11 =
        clockText (instant % dayMicros).toNat ++ "+00:00".toList := rfl
  unfold instantValue
  rw [shape, taken, dropped, dateParts_isoDate short, Option.map_some, ordinal_civil]
  unfold dayMicros at divided ⊢
  rw [clock]
  congr 1
  omega

end ParishKit.Lib
