import Mathlib.Algebra.Order.Field.Rat
import Mathlib.Data.List.DropRight
import Mathlib.Tactic.FieldSimp
import Mathlib.Tactic.Ring
import ParishKit.Lib.DateText

/-!
# Decimal text

The text of a number with so many decimal places, less the zeros at its end. Numbers
of one value have one text, and the value is read back from it.
-/

namespace ParishKit.Lib

/-- The last digits of a number, as many as asked. -/
def lowDigits : Nat → Nat → Text
  | 0, _ => []
  | places + 1, number => lowDigits places (number / 10) ++ [Nat.digitChar (number % 10)]

/-- The number of so many decimal places. -/
def fixedText (places number : Nat) : Text :=
  if places = 0 then Nat.toDigits 10 number
  else Nat.toDigits 10 (number / 10 ^ places) ++ '.' :: lowDigits places number

/-- `rstrip` of one character. -/
def stripEnd (char : Char) (text : Text) : Text :=
  text.rdropWhile (· == char)

/-- Without the zeros at the end of a fraction, nor a point that ends the text. -/
def stripFraction (text : Text) : Text :=
  if '.' ∈ text then stripEnd '.' (stripEnd '0' text) else text

/-! ## Digits -/

theorem isDigit_lowDigits (places number : Nat) :
    ∀ char ∈ lowDigits places number, char.isDigit = true := by
  induction places generalizing number with
  | zero =>
      intro char member
      cases member
  | succ places inductionHypothesis =>
      intro char member
      rw [lowDigits, List.mem_append, List.mem_singleton] at member
      rcases member with earlier | rfl
      · exact inductionHypothesis (number / 10) char earlier
      · exact isDigit_digitChar number

theorem length_lowDigits (places number : Nat) :
    (lowDigits places number).length = places := by
  induction places generalizing number with
  | zero => rfl
  | succ places inductionHypothesis =>
      rw [lowDigits, List.length_append, inductionHypothesis, List.length_singleton]

theorem lowDigits_scaled (places number : Nat) :
    lowDigits (places + 1) (10 * number) = lowDigits places number ++ ['0'] := by
  rw [lowDigits, Nat.mul_div_cancel_left _ (by decide), Nat.mul_mod_right]
  rfl

theorem point_not_mem_toDigits (number : Nat) : '.' ∉ Nat.toDigits 10 number := by
  intro member
  have digit := Nat.isDigit_of_mem_toDigits (by decide) (by decide) member
  cases digit

/-! ## Stripping -/

/-- What the whole part and the fraction leave. -/
def joined (whole fraction : Text) : Text :=
  whole ++ if fraction = [] then [] else '.' :: fraction

theorem stripEnd_of_not_mem {char : Char} {text : Text} (absent : char ∉ text) :
    stripEnd char text = text := by
  unfold stripEnd
  rw [List.rdropWhile_eq_self_iff]
  intro notNil isChar
  exact absent (eq_of_beq isChar ▸ List.getLast_mem notNil)

theorem stripEnd_append_self (char : Char) (text : Text) :
    stripEnd char (text ++ [char]) = stripEnd char text :=
  List.rdropWhile_concat_pos _ _ _ (beq_self_eq_true char)

theorem stripEnd_append_of_ne {char last : Char} (text : Text) (different : last ≠ char) :
    stripEnd char (text ++ [last]) = text ++ [last] :=
  List.rdropWhile_concat_neg _ _ _ fun same => different (eq_of_beq same)

theorem stripFraction_point
    {whole fraction : Text} (wholePlain : '.' ∉ whole) (fractionPlain : '.' ∉ fraction) :
    stripFraction (whole ++ '.' :: fraction) = joined whole (stripEnd '0' fraction) := by
  have pointed : '.' ∈ whole ++ '.' :: fraction :=
    List.mem_append_right _ List.mem_cons_self
  unfold stripFraction
  rw [if_pos pointed]
  clear pointed
  induction fraction using List.reverseRecOn with
  | nil =>
      have noZero : stripEnd '0' (whole ++ ['.']) = whole ++ ['.'] :=
        stripEnd_append_of_ne whole (by decide)
      rw [noZero, stripEnd_append_self, stripEnd_of_not_mem wholePlain]
      exact (List.append_nil whole).symm
  | append_singleton fraction last inductionHypothesis =>
      rw [List.mem_append, List.mem_singleton, not_or] at fractionPlain
      obtain ⟨plain, notPoint⟩ := fractionPlain
      rw [← List.cons_append, ← List.append_assoc]
      by_cases isZero : last = '0'
      · rw [isZero, stripEnd_append_self, stripEnd_append_self, inductionHypothesis plain]
      · rw [stripEnd_append_of_ne _ isZero, stripEnd_append_of_ne _ isZero,
          stripEnd_append_of_ne _ fun same => notPoint same.symm]
        unfold joined
        rw [if_neg (List.append_ne_nil_of_right_ne_nil _ (List.cons_ne_nil _ _)),
          List.append_assoc, List.cons_append]

theorem stripFraction_fixedText (places number : Nat) :
    stripFraction (fixedText places number) =
      joined (Nat.toDigits 10 (number / 10 ^ places))
        (stripEnd '0' (lowDigits places number)) := by
  unfold fixedText
  by_cases whole : places = 0
  · subst whole
    rw [if_pos rfl, pow_zero, Nat.div_one]
    unfold stripFraction
    rw [if_neg (point_not_mem_toDigits number)]
    exact (List.append_nil _).symm
  · rw [if_neg whole]
    refine stripFraction_point (point_not_mem_toDigits _) fun member => ?_
    have digit := isDigit_lowDigits places number '.' member
    cases digit

/-- A number has no sign. -/
theorem stripFraction_head_ne_minus (places number : Nat) :
    (stripFraction (fixedText places number)).head? ≠ some '-' := by
  rw [stripFraction_fixedText]
  unfold joined
  rw [List.head?_append_of_ne_nil _ Nat.toDigits_ne_nil]
  intro isMinus
  have digit := Nat.isDigit_of_mem_toDigits (by decide) (by decide)
    (List.mem_of_mem_head? isMinus)
  cases digit

/-- A sign is kept. -/
theorem stripFraction_minus (places number : Nat) :
    stripFraction ('-' :: fixedText places number) =
      '-' :: stripFraction (fixedText places number) := by
  have plain : '.' ∉ '-' :: Nat.toDigits 10 (number / 10 ^ places) := by
    rw [List.mem_cons, not_or]
    exact ⟨by decide, point_not_mem_toDigits _⟩
  have fractionPlain : '.' ∉ lowDigits places number := by
    intro member
    have digit := isDigit_lowDigits places number '.' member
    cases digit
  rw [stripFraction_fixedText]
  unfold fixedText
  by_cases whole : places = 0
  · subst whole
    rw [pow_zero, Nat.div_one] at plain
    rw [if_pos rfl, pow_zero, Nat.div_one]
    unfold stripFraction
    rw [if_neg plain]
    exact congrArg _ (List.append_nil _).symm
  · rw [if_neg whole, ← List.cons_append, stripFraction_point plain fractionPlain]
    rfl

/-! ## One text for one value -/

theorem stripFraction_scaled (places number : Nat) :
    stripFraction (fixedText (places + 1) (10 * number)) =
      stripFraction (fixedText places number) := by
  have sameWhole : 10 * number / 10 ^ (places + 1) = number / 10 ^ places := by
    rw [pow_succ, mul_comm (10 ^ places) 10, Nat.mul_div_mul_left _ _ (by decide)]
  rw [stripFraction_fixedText, stripFraction_fixedText, lowDigits_scaled,
    stripEnd_append_self, sameWhole]

theorem stripFraction_shifted (places shift number : Nat) :
    stripFraction (fixedText (places + shift) (10 ^ shift * number)) =
      stripFraction (fixedText places number) := by
  induction shift with
  | zero => rw [pow_zero, one_mul, Nat.add_zero]
  | succ shift inductionHypothesis =>
      rw [← Nat.add_assoc, pow_succ, mul_comm (10 ^ shift) 10, mul_assoc,
        stripFraction_scaled, inductionHypothesis]

/-- Numbers of one value have one text. -/
theorem stripFraction_eq_of_value_eq
    {places number otherPlaces other : Nat}
    (same : number * 10 ^ otherPlaces = other * 10 ^ places) :
    stripFraction (fixedText places number) = stripFraction (fixedText otherPlaces other) := by
  wlog fewer : places ≤ otherPlaces generalizing places number otherPlaces other
  · exact (this same.symm (le_of_not_ge fewer)).symm
  · obtain ⟨shift, rfl⟩ := Nat.exists_eq_add_of_le fewer
    have isOther : other = 10 ^ shift * number := by
      have positive : 0 < 10 ^ places := Nat.pow_pos (by decide)
      refine Nat.eq_of_mul_eq_mul_right positive ?_
      rw [← same, pow_add]
      ring
    rw [isOther, stripFraction_shifted]

/-! ## Reading -/

/-- What the digits after a point are worth. -/
def fractionValue : Text → ℚ
  | [] => 0
  | char :: rest => (digitValue char + fractionValue rest) / 10

/-- The value of a text of digits, with a fraction or not. -/
def magnitudeValue (text : Text) : ℚ :=
  Nat.ofDigitChars 10 (text.takeWhile Char.isDigit) 0 +
    fractionValue (text.dropWhile Char.isDigit).tail

theorem fractionValue_append (text : Text) (last : Char) :
    fractionValue (text ++ [last]) =
      fractionValue text + digitValue last / 10 ^ (text.length + 1) := by
  induction text with
  | nil =>
      simp only [List.nil_append, fractionValue, List.length_nil]
      ring
  | cons char text inductionHypothesis =>
      rw [List.cons_append, fractionValue, inductionHypothesis, fractionValue,
        List.length_cons, pow_succ _ (text.length + 1)]
      field_simp
      ring

theorem fractionValue_stripEnd (text : Text) :
    fractionValue (stripEnd '0' text) = fractionValue text := by
  induction text using List.reverseRecOn with
  | nil => rfl
  | append_singleton text last inductionHypothesis =>
      by_cases isZero : last = '0'
      · rw [isZero, stripEnd_append_self, inductionHypothesis, fractionValue_append]
        have noDigit : digitValue '0' = 0 := rfl
        rw [noDigit, Nat.cast_zero, zero_div, add_zero]
      · rw [stripEnd_append_of_ne _ isZero]

theorem fractionValue_lowDigits (places number : Nat) :
    fractionValue (lowDigits places number) =
      ((number % 10 ^ places : Nat) : ℚ) / 10 ^ places := by
  induction places generalizing number with
  | zero =>
      rw [lowDigits, fractionValue, pow_zero, Nat.mod_one, Nat.cast_zero, zero_div]
  | succ places inductionHypothesis =>
      have split : number % 10 ^ (places + 1) =
          number % 10 + 10 * (number / 10 % 10 ^ places) := by
        rw [pow_succ, mul_comm, Nat.mod_mul]
      rw [lowDigits, fractionValue_append, inductionHypothesis, length_lowDigits,
        digitValue_digitChar, split, Nat.cast_add, Nat.cast_mul]
      push_cast
      field_simp
      ring

theorem magnitudeValue_joined {whole fraction : Text}
    (digits : ∀ char ∈ whole, char.isDigit = true) :
    magnitudeValue (joined whole fraction) =
      Nat.ofDigitChars 10 whole 0 + fractionValue fraction := by
  have notDigit : ¬ '.'.isDigit = true := by decide
  unfold magnitudeValue joined
  by_cases isEmpty : fraction = []
  · rw [if_pos isEmpty, List.append_nil, List.takeWhile_eq_self_iff.mpr digits,
      List.dropWhile_eq_nil_iff.mpr digits, isEmpty]
    rfl
  · rw [if_neg isEmpty, List.takeWhile_append_of_pos digits,
      List.dropWhile_append_of_pos digits, List.takeWhile_cons_of_neg notDigit,
      List.dropWhile_cons_of_neg notDigit, List.append_nil, List.tail_cons]

/-- The text of a number is worth the number. -/
theorem magnitudeValue_stripFraction (places number : Nat) :
    magnitudeValue (stripFraction (fixedText places number)) =
      (number : ℚ) / 10 ^ places := by
  have digits : ∀ char ∈ Nat.toDigits 10 (number / 10 ^ places), char.isDigit = true :=
    fun _ member => Nat.isDigit_of_mem_toDigits (by decide) (by decide) member
  have whole := Nat.div_add_mod number (10 ^ places)
  rw [stripFraction_fixedText, magnitudeValue_joined digits, fractionValue_stripEnd,
    fractionValue_lowDigits, Nat.ofDigitChars_ten_toDigits]
  have split : (number : ℚ) =
      10 ^ places * ((number / 10 ^ places : Nat) : ℚ) +
        ((number % 10 ^ places : Nat) : ℚ) := by
    exact_mod_cast whole.symm
  rw [split]
  field_simp

end ParishKit.Lib
