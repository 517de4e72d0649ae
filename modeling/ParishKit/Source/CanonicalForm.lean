import Mathlib.Tactic.Linarith
import ParishKit.Lib.Except
import ParishKit.Source.Canonical

/-!
# Canonical payloads are a normal form

What is read back from a canonical text is encoded to it again, and payloads have one
text exactly when their normal forms are the same but for the order of keys.
-/

namespace ParishKit.Source.Canonical

open ParishKit.Lib

/-! ## Decimals -/

/-- What a decimal's text is worth. -/
def decimalValue (text : Text) : ℚ :=
  if text.head? = some '-' then -magnitudeValue text.tail else magnitudeValue text

namespace SourceDecimal

theorem value_finite (negative : Bool) (coefficient : Nat) (exponent : Int) :
    (finite negative coefficient exponent).value =
      (if negative then -1 else 1) *
        (((coefficient * 10 ^ exponent.toNat : Nat) : ℚ) / 10 ^ (-exponent).toNat) := by
  rw [value, mul_assoc]
  congr 1
  push_cast
  rcases le_total 0 exponent with nonneg | nonpos
  · have isNat : exponent = (exponent.toNat : Int) := (Int.toNat_of_nonneg nonneg).symm
    have isZero : (-exponent).toNat = 0 := Int.toNat_of_nonpos (by omega)
    rw [isZero, pow_zero, div_one, ← zpow_natCast, ← isNat]
  · have isNat : -exponent = ((-exponent).toNat : Int) :=
      (Int.toNat_of_nonneg (by omega)).symm
    have isZero : exponent.toNat = 0 := Int.toNat_of_nonpos nonpos
    rw [isZero, pow_zero, mul_one, ← zpow_natCast, ← isNat, zpow_neg, div_inv_eq_mul]

/-- The text of a number with its sign, which a text of digits alone has not. -/
theorem decimalValue_fixed (negative : Bool) (coefficient : Nat) (exponent : Int) :
    decimalValue (stripFraction (fixed negative coefficient exponent)) =
      (finite negative coefficient exponent).value := by
  have isValue := magnitudeValue_stripFraction (-exponent).toNat
    (coefficient * 10 ^ exponent.toNat)
  rw [value_finite, ← isValue]
  unfold fixed decimalValue
  cases negative with
  | true =>
      dsimp only
      rw [if_pos rfl, if_pos rfl, stripFraction_minus, List.head?_cons, if_pos rfl,
        List.tail_cons, neg_one_mul]
  | false =>
      dsimp only
      rw [if_neg Bool.false_ne_true, if_neg Bool.false_ne_true, one_mul,
        if_neg (stripFraction_head_ne_minus _ _)]

theorem value_zero (negative : Bool) (exponent : Int) :
    (finite negative 0 exponent).value = 0 := by
  rw [value, Nat.cast_zero, mul_zero, zero_mul]

/-- An accepted decimal is read back from its text. -/
theorem decimalValue_text {decimal : SourceDecimal} {text : Text}
    (isText : decimal.text? = some text) : decimalValue text = decimal.value := by
  cases decimal with
  | special => cases isText
  | finite negative coefficient exponent =>
      rw [text?] at isText
      split_ifs at isText with _ isZero
      · cases isText
        rw [isZero, value_zero]
        decide +kernel
      · cases isText
        exact decimalValue_fixed negative coefficient exponent

/-- The size of a decimal that is not zero. -/
theorem magnitude_pos {coefficient : Nat} (exponent : Int) (notZero : coefficient ≠ 0) :
    (0 : ℚ) < ((coefficient * 10 ^ exponent.toNat : Nat) : ℚ) /
      10 ^ (-exponent).toNat := by
  have positive : 0 < coefficient * 10 ^ exponent.toNat :=
    Nat.mul_pos (Nat.pos_of_ne_zero notZero) (Nat.pow_pos (by decide))
  exact div_pos (Nat.cast_pos.mpr positive) (pow_pos (by norm_num) _)

theorem value_ne_zero {coefficient : Nat} (negative : Bool) (exponent : Int)
    (notZero : coefficient ≠ 0) : (finite negative coefficient exponent).value ≠ 0 := by
  have positive := magnitude_pos exponent notZero
  rw [value_finite]
  refine mul_ne_zero ?_ positive.ne'
  split
  · norm_num
  · norm_num

/-- Decimals of one number that is not zero have one text, and one sign. -/
theorem fixed_eq_of_value_eq
    {negative otherNegative : Bool} {coefficient other : Nat} {exponent otherExponent : Int}
    (notZero : coefficient ≠ 0) (otherNotZero : other ≠ 0)
    (same : (finite negative coefficient exponent).value =
      (finite otherNegative other otherExponent).value) :
    stripFraction (fixed negative coefficient exponent) =
      stripFraction (fixed otherNegative other otherExponent) := by
  have positive := magnitude_pos exponent notZero
  have otherPositive := magnitude_pos otherExponent otherNotZero
  rw [value_finite, value_finite] at same
  have sameSign : negative = otherNegative := by
    cases negative with
    | true =>
        cases otherNegative with
        | true => rfl
        | false =>
            rw [if_pos rfl, if_neg Bool.false_ne_true] at same
            linarith
    | false =>
        cases otherNegative with
        | true =>
            rw [if_neg Bool.false_ne_true, if_pos rfl] at same
            linarith
        | false => rfl
  subst sameSign
  have sameSize : ((coefficient * 10 ^ exponent.toNat : Nat) : ℚ) / 10 ^ (-exponent).toNat =
      ((other * 10 ^ otherExponent.toNat : Nat) : ℚ) / 10 ^ (-otherExponent).toNat := by
    refine mul_left_cancel₀ ?_ same
    split
    · norm_num
    · norm_num
  rw [div_eq_div_iff (pow_ne_zero _ (by norm_num)) (pow_ne_zero _ (by norm_num))] at sameSize
  have sameText := stripFraction_eq_of_value_eq
    (show coefficient * 10 ^ exponent.toNat * 10 ^ (-otherExponent).toNat =
      other * 10 ^ otherExponent.toNat * 10 ^ (-exponent).toNat by exact_mod_cast sameSize)
  unfold fixed
  cases negative with
  | true =>
      rw [if_pos rfl, if_pos rfl, stripFraction_minus, stripFraction_minus, sameText]
  | false =>
      rw [if_neg Bool.false_ne_true, if_neg Bool.false_ne_true]
      exact sameText

/-- Accepted decimals have one text exactly when they are one number. -/
theorem text_eq_iff {decimal other : SourceDecimal} {text otherText : Text}
    (isText : decimal.text? = some text) (isOther : other.text? = some otherText) :
    text = otherText ↔ decimal.value = other.value := by
  constructor
  · intro same
    rw [← decimalValue_text isText, ← decimalValue_text isOther, same]
  · intro same
    cases decimal with
    | special => cases isText
    | finite negative coefficient exponent =>
        cases other with
        | special => cases isOther
        | finite otherNegative otherCoefficient otherExponent =>
            rw [text?] at isText isOther
            split_ifs at isText with _ isZero
            · split_ifs at isOther with _ otherZero
              · cases isText
                cases isOther
                rfl
              · rw [isZero, value_zero] at same
                exact absurd same.symm (value_ne_zero _ _ otherZero)
            · split_ifs at isOther with _ otherZero
              · rw [otherZero, value_zero] at same
                exact absurd same (value_ne_zero _ _ isZero)
              · cases isText
                cases isOther
                exact fixed_eq_of_value_eq isZero otherZero same

end SourceDecimal

/-! ## Instants -/

/-- An accepted timestamp is read back from its text. -/
theorem Timestamp.instantValue_text {timestamp : Timestamp} {text : Text}
    (isText : timestamp.text? = some text) : instantValue text = timestamp.instant? := by
  obtain ⟨instant, isInstant, rest⟩ := Option.bind_eq_some_iff.mp isText
  split at rest
  · rename_i range
    cases rest
    rw [instantValue_instantText range.1 range.2, isInstant]
  · cases rest

theorem Timestamp.text_eq_iff {timestamp other : Timestamp} {text otherText : Text}
    (isText : timestamp.text? = some text) (isOther : other.text? = some otherText) :
    text = otherText ↔ timestamp.instant? = other.instant? := by
  constructor
  · intro same
    rw [← instantValue_text isText, ← instantValue_text isOther, same]
  · intro same
    unfold Timestamp.text? at isText isOther
    rw [same, isOther] at isText
    exact (Option.some.inj isText).symm

/-! ## Quantities -/

/-- A number, or an instant. -/
inductive Quantity where
  | number (value : ℚ)
  | instant (micros : Int)

/-- What a scalar that is a number or an instant stands for. -/
def SourceScalar.quantity? : SourceScalar → Option Quantity
  | .int value => some (.number value)
  | .decimal value => some (.number value.value)
  | .timestamp value => value.instant?.map .instant
  | _ => none

/-- What a normal scalar was made of, if it was a number or an instant. -/
def readQuantity : Scalar → Option Quantity
  | .int value => some (.number value)
  | .text value =>
      if 'T' ∈ value then (instantValue value).map .instant
      else some (.number (decimalValue value))
  | _ => none

theorem letter_mem_instantText (instant : Int) : 'T' ∈ instantText instant := by
  unfold instantText
  exact List.mem_append_left _ (List.mem_append_right _ List.mem_cons_self)

theorem mem_of_mem_stripFraction {char : Char} {text : Text}
    (member : char ∈ stripFraction text) : char ∈ text := by
  unfold stripFraction at member
  split at member
  · have inner := (List.rdropWhile_prefix _ _).mem member
    exact (List.rdropWhile_prefix _ _).mem inner
  · exact member

theorem mem_fixedText {places number : Nat} {char : Char}
    (member : char ∈ fixedText places number) : char.isDigit = true ∨ char = '.' := by
  unfold fixedText at member
  split at member
  · exact Or.inl (Nat.isDigit_of_mem_toDigits (by decide) (by decide) member)
  · rcases List.mem_append.mp member with whole | fraction
    · exact Or.inl (Nat.isDigit_of_mem_toDigits (by decide) (by decide) whole)
    · rcases List.mem_cons.mp fraction with isPoint | later
      · exact Or.inr isPoint
      · exact Or.inl (isDigit_lowDigits _ _ _ later)

/-- What the text of a decimal is made of. -/
theorem mem_decimal_text {decimal : SourceDecimal} {text : Text}
    (isText : decimal.text? = some text) {char : Char} (member : char ∈ text) :
    char = '-' ∨ char.isDigit = true ∨ char = '.' := by
  cases decimal with
  | special => cases isText
  | finite negative coefficient exponent =>
      rw [SourceDecimal.text?] at isText
      split_ifs at isText
      · cases isText
        rw [List.mem_singleton.mp member]
        decide
      · cases isText
        have inFixed := mem_of_mem_stripFraction member
        unfold SourceDecimal.fixed at inFixed
        cases negative with
        | true =>
            rw [if_pos rfl, List.mem_cons] at inFixed
            exact inFixed.imp_right mem_fixedText
        | false =>
            rw [if_neg Bool.false_ne_true] at inFixed
            exact Or.inr (mem_fixedText inFixed)

theorem not_mem_decimal_text {decimal : SourceDecimal} {text : Text}
    (isText : decimal.text? = some text) {char : Char}
    (different : char ≠ '-' ∧ char.isDigit = false ∧ char ≠ '.') : char ∉ text := by
  intro member
  rcases mem_decimal_text isText member with isMinus | digit | isPoint
  · exact different.1 isMinus
  · rw [different.2.1] at digit
    cases digit
  · exact different.2.2 isPoint

/-- A number or an instant is read back from its normal form. -/
theorem readQuantity_normalizeScalar
    {scalar : SourceScalar} {normal : Scalar} {quantity : Quantity}
    (isNormal : normalizeScalar scalar = some normal)
    (isQuantity : scalar.quantity? = some quantity) :
    readQuantity normal = some quantity := by
  cases scalar with
  | int value =>
      rw [normalizeScalar] at isNormal
      split at isNormal
      · cases isNormal
        exact isQuantity
      · cases isNormal
  | decimal value =>
      obtain ⟨text, isText, rfl⟩ := Option.map_eq_some_iff.mp isNormal
      rw [readQuantity, if_neg (not_mem_decimal_text isText (by decide)),
        SourceDecimal.decimalValue_text isText]
      exact isQuantity
  | timestamp value =>
      obtain ⟨text, isText, rfl⟩ := Option.map_eq_some_iff.mp isNormal
      have hasLetter : 'T' ∈ text := by
        obtain ⟨instant, _, rest⟩ := Option.bind_eq_some_iff.mp isText
        split at rest
        · cases rest
          exact letter_mem_instantText instant
        · cases rest
      rw [readQuantity, if_pos hasLetter, Timestamp.instantValue_text isText]
      exact isQuantity
  | null => cases isQuantity
  | bool value => cases isQuantity
  | text value => cases isQuantity
  | date value => cases isQuantity
  | other => cases isQuantity

/-! ## Normal forms -/

/-- One entry of a mapping. -/
def normalizeEntry (depth : Nat) (entry : Text × DataTree SourceScalar) :
    Option (Text × DataTree Scalar) :=
  if 16 < depth then none
  else do
    let name ← normalizeText entry.1
    let normal ← normalize depth entry.2
    some (name, normal)

theorem normalizeEntries_eq (depth : Nat) (entries : List (Text × DataTree SourceScalar)) :
    normalizeEntries depth entries = entries.mapM (normalizeEntry depth) := by
  induction entries with
  | nil => rfl
  | cons entry rest inductionHypothesis =>
      obtain ⟨key, item⟩ := entry
      rw [normalizeEntries, List.mapM_cons, normalizeEntry, inductionHypothesis]
      dsimp only
      split
      · rfl
      · cases normalizeText key with
        | none => rfl
        | some name =>
            cases normalize depth item with
            | none => rfl
            | some normal => rfl

theorem normalizeEntry_eq_some
    {depth : Nat} {key : Text} {item : DataTree SourceScalar} {entry : Text × DataTree Scalar} :
    normalizeEntry depth (key, item) = some entry ↔
      ¬ 16 < depth ∧ normalizeText key = some key ∧ entry.1 = key ∧
        normalize depth item = some entry.2 := by
  unfold normalizeEntry
  constructor
  · intro isEntry
    split at isEntry
    · cases isEntry
    · rename_i shallow
      obtain ⟨name, isName, rest⟩ := Option.bind_eq_some_iff.mp isEntry
      obtain ⟨normal, isNormal, isPair⟩ := Option.bind_eq_some_iff.mp rest
      cases isPair
      have sameName : name = key := by
        unfold normalizeText at isName
        split at isName
        · cases isName
        · exact (Option.some.inj isName).symm
      subst sameName
      exact ⟨shallow, isName, rfl, isNormal⟩
  · rintro ⟨shallow, isName, sameKey, isNormal⟩
    obtain ⟨name, normal⟩ := entry
    dsimp only at sameKey isNormal ⊢
    subst sameKey
    rw [if_neg shallow, isName, isNormal]
    rfl

mutual

/-- The order of keys is irrelevant to the normal form. -/
theorem normalize_same : ∀ {tree other : DataTree SourceScalar} (depth : Nat),
    tree.Same other → ∀ {normal : DataTree Scalar}, normalize depth tree = some normal →
      ∃ another, normalize depth other = some another ∧ normal.Same another
  | _, _, depth, .leaf value, normal, isNormal => by
      refine ⟨normal, isNormal, ?_⟩
      exact same_of_sorted_eq rfl
  | .list items, .list others, depth, .list each, normal, isNormal => by
      rw [normalize] at isNormal ⊢
      split at isNormal
      · cases isNormal
      · rename_i fits
        obtain ⟨normals, areNormal, rfl⟩ := Option.map_eq_some_iff.mp isNormal
        obtain ⟨anothers, areOther, same⟩ := normalizeItems_same (depth + 1) each areNormal
        rw [← sameItems_length each, if_neg fits, areOther]
        exact ⟨_, rfl, DataTree.Same.list same⟩
  | .mapping entries, .mapping others, depth, .mapping each, normal, isNormal => by
      rw [normalize] at isNormal ⊢
      split at isNormal
      · cases isNormal
      · rename_i fits
        obtain ⟨normals, areNormal, rfl⟩ := Option.map_eq_some_iff.mp isNormal
        obtain ⟨anothers, areOther, same⟩ := normalizeEntries_same (depth + 1) each areNormal
        rw [← sameEntries_length each, if_neg fits, areOther]
        exact ⟨_, rfl, DataTree.Same.mapping same⟩

theorem normalizeItems_same : ∀ {items others : List (DataTree SourceScalar)} (depth : Nat),
    SameItems items others → ∀ {normals : List (DataTree Scalar)},
      normalizeItems depth items = some normals →
      ∃ anothers, normalizeItems depth others = some anothers ∧ SameItems normals anothers
  | _, _, _, .nil, _, areNormal => by
      cases areNormal
      exact ⟨[], rfl, SameItems.nil⟩
  | _, _, depth, .cons first each, _, areNormal => by
      rw [normalizeItems] at areNormal
      obtain ⟨normal, isNormal, rest⟩ := Option.bind_eq_some_iff.mp areNormal
      obtain ⟨normals, areRest, isList⟩ := Option.bind_eq_some_iff.mp rest
      cases isList
      obtain ⟨another, isOther, same⟩ := normalize_same depth first isNormal
      obtain ⟨anothers, areOther, sameRest⟩ := normalizeItems_same depth each areRest
      refine ⟨another :: anothers, ?_, SameItems.cons same sameRest⟩
      rw [normalizeItems, isOther, areOther]
      rfl

theorem normalizeEntries_same :
    ∀ {entries others : List (Text × DataTree SourceScalar)} (depth : Nat),
    SameEntries entries others → ∀ {normals : List (Text × DataTree Scalar)},
      normalizeEntries depth entries = some normals →
      ∃ anothers, normalizeEntries depth others = some anothers ∧
        SameEntries normals anothers
  | _, _, _, .nil, _, areNormal => by
      cases areNormal
      exact ⟨[], rfl, SameEntries.nil⟩
  | _, _, depth, .cons key first each, _, areNormal => by
      rw [normalizeEntries_eq, List.mapM_cons, ← normalizeEntries_eq] at areNormal
      obtain ⟨⟨name, normal⟩, isEntry, rest⟩ := Option.bind_eq_some_iff.mp areNormal
      obtain ⟨normals, areRest, isList⟩ := Option.bind_eq_some_iff.mp rest
      cases isList
      obtain ⟨shallow, isName, sameKey, isNormal⟩ := normalizeEntry_eq_some.mp isEntry
      obtain ⟨another, isOther, same⟩ := normalize_same depth first isNormal
      obtain ⟨anothers, areOther, sameRest⟩ := normalizeEntries_same depth each areRest
      have isPair : normalizeEntry depth (key, _) = some (name, another) :=
        normalizeEntry_eq_some.mpr ⟨shallow, isName, sameKey, isOther⟩
      rw [normalizeEntries_eq, List.mapM_append] at areOther
      obtain ⟨befores, areBefore, remaining⟩ := Option.bind_eq_some_iff.mp areOther
      obtain ⟨afters, areAfter, isAppend⟩ := Option.bind_eq_some_iff.mp remaining
      cases isAppend
      refine ⟨befores ++ (name, another) :: afters, ?_, SameEntries.cons name same sameRest⟩
      rw [normalizeEntries_eq, List.mapM_append, areBefore, List.mapM_cons, isPair, areAfter]
      rfl

end

mutual

/-- A normal form has its keys once where the payload has. -/
theorem normalize_keyed : ∀ {tree : DataTree SourceScalar} (depth : Nat), tree.Keyed →
    ∀ {normal : DataTree Scalar}, normalize depth tree = some normal → normal.Keyed
  | .leaf value, depth, _, normal, isNormal => by
      rw [normalize] at isNormal
      split at isNormal
      · cases isNormal
      · obtain ⟨scalar, _, rfl⟩ := Option.map_eq_some_iff.mp isNormal
        trivial
  | .list items, depth, keyed, normal, isNormal => by
      rw [normalize] at isNormal
      split at isNormal
      · cases isNormal
      · obtain ⟨normals, areNormal, rfl⟩ := Option.map_eq_some_iff.mp isNormal
        exact normalizeItems_keyed (depth + 1) keyed areNormal
  | .mapping entries, depth, keyed, normal, isNormal => by
      rw [normalize] at isNormal
      split at isNormal
      · cases isNormal
      · obtain ⟨normals, areNormal, rfl⟩ := Option.map_eq_some_iff.mp isNormal
        obtain ⟨sameKeys, each⟩ := normalizeEntries_keyed (depth + 1) keyed.2 areNormal
        rw [DataTree.Keyed, sameKeys]
        exact ⟨keyed.1, each⟩

theorem normalizeItems_keyed : ∀ {items : List (DataTree SourceScalar)} (depth : Nat),
    KeyedItems items → ∀ {normals : List (DataTree Scalar)},
      normalizeItems depth items = some normals → KeyedItems normals
  | [], _, _, _, areNormal => by
      cases areNormal
      trivial
  | item :: rest, depth, keyed, _, areNormal => by
      rw [normalizeItems] at areNormal
      obtain ⟨normal, isNormal, remaining⟩ := Option.bind_eq_some_iff.mp areNormal
      obtain ⟨normals, areRest, isList⟩ := Option.bind_eq_some_iff.mp remaining
      cases isList
      exact ⟨normalize_keyed depth keyed.1 isNormal,
        normalizeItems_keyed depth keyed.2 areRest⟩

theorem normalizeEntries_keyed :
    ∀ {entries : List (Text × DataTree SourceScalar)} (depth : Nat), KeyedEntries entries →
      ∀ {normals : List (Text × DataTree Scalar)},
        normalizeEntries depth entries = some normals →
        normals.map Prod.fst = entries.map Prod.fst ∧ KeyedEntries normals
  | [], _, _, _, areNormal => by
      cases areNormal
      exact ⟨rfl, trivial⟩
  | (key, item) :: rest, depth, keyed, _, areNormal => by
      rw [normalizeEntries_eq, List.mapM_cons, ← normalizeEntries_eq] at areNormal
      obtain ⟨⟨name, normal⟩, isEntry, remaining⟩ := Option.bind_eq_some_iff.mp areNormal
      obtain ⟨normals, areRest, isList⟩ := Option.bind_eq_some_iff.mp remaining
      cases isList
      obtain ⟨_, _, sameKey, isNormal⟩ := normalizeEntry_eq_some.mp isEntry
      obtain ⟨sameKeys, each⟩ := normalizeEntries_keyed depth keyed.2 areRest
      rw [List.map_cons, List.map_cons, sameKeys]
      dsimp only at sameKey ⊢
      rw [sameKey]
      exact ⟨rfl, normalize_keyed depth keyed.1 isNormal, each⟩

end

/-! ## Reading back -/

/-- Text of digits and marks has no null character. -/
theorem null_ne_of_isDigit {char : Char} (digit : char.isDigit = true) :
    Char.ofNat 0 ≠ char := by
  rintro rfl
  cases digit

theorem null_not_mem_twoDigits (number : Nat) : Char.ofNat 0 ∉ twoDigits number := by
  unfold twoDigits
  simp only [List.mem_cons, List.not_mem_nil, or_false, not_or]
  exact ⟨null_ne_of_isDigit (isDigit_digitChar _), null_ne_of_isDigit (isDigit_digitChar _)⟩

theorem null_not_mem_isoDate (date : CivilDate) : Char.ofNat 0 ∉ isoDate date := by
  have month := null_not_mem_twoDigits date.month
  have day := null_not_mem_twoDigits date.day.toNat
  have year : Char.ofNat 0 ∉ fourDigits date.year.toNat := by
    unfold fourDigits
    simp only [List.mem_cons, List.not_mem_nil, or_false, not_or]
    exact ⟨null_ne_of_isDigit (isDigit_digitChar _),
      null_ne_of_isDigit (isDigit_digitChar _), null_ne_of_isDigit (isDigit_digitChar _),
      null_ne_of_isDigit (isDigit_digitChar _)⟩
  have dash : Char.ofNat 0 ≠ '-' := by decide
  unfold isoDate
  simp only [List.mem_append, List.mem_cons, not_or]
  exact ⟨⟨year, dash, month⟩, dash, day⟩

theorem null_not_mem_lowDigits (places number : Nat) :
    Char.ofNat 0 ∉ lowDigits places number := fun member =>
  null_ne_of_isDigit (isDigit_lowDigits places number _ member) rfl

theorem null_not_mem_instantText (instant : Int) : Char.ofNat 0 ∉ instantText instant := by
  have date := null_not_mem_isoDate (civil (instant / dayMicros))
  have colon : Char.ofNat 0 ≠ ':' := by decide
  have point : Char.ofNat 0 ≠ '.' := by decide
  have letter : Char.ofNat 0 ≠ 'T' := by decide
  have zone : Char.ofNat 0 ∉ "+00:00".toList := by decide
  have clock : ∀ micros, Char.ofNat 0 ∉ clockText micros := by
    intro micros
    unfold clockText
    dsimp only
    simp only [List.mem_append, List.mem_cons, not_or]
    refine ⟨⟨⟨null_not_mem_twoDigits _, colon, null_not_mem_twoDigits _⟩, colon,
      null_not_mem_twoDigits _⟩, ?_⟩
    split
    · exact List.not_mem_nil
    · rw [List.mem_cons, not_or]
      exact ⟨point, null_not_mem_lowDigits _ _⟩
  unfold instantText
  simp only [List.mem_append, List.mem_cons, not_or]
  exact ⟨⟨date, letter, clock _⟩, zone⟩

/-- A normal scalar is normal already. -/
theorem normalizeScalar_ofScalar {scalar : SourceScalar} {normal : Scalar}
    (isNormal : normalizeScalar scalar = some normal) :
    normalizeScalar (SourceScalar.ofScalar normal) = some normal := by
  have ofText : ∀ {text : Text}, Char.ofNat 0 ∉ text →
      normalizeScalar (SourceScalar.ofScalar (.text text)) = some (.text text) := by
    intro text plain
    rw [SourceScalar.ofScalar, normalizeScalar, normalizeText, if_neg plain]
    rfl
  cases scalar with
  | null =>
      cases isNormal
      rfl
  | bool value =>
      cases isNormal
      rfl
  | int value =>
      rw [normalizeScalar] at isNormal
      split at isNormal
      · rename_i inRange
        cases isNormal
        rw [SourceScalar.ofScalar, normalizeScalar, if_pos inRange]
      · cases isNormal
  | text value =>
      obtain ⟨text, isText, rfl⟩ := Option.map_eq_some_iff.mp isNormal
      unfold normalizeText at isText
      split at isText
      · cases isText
      · rename_i plain
        cases isText
        exact ofText plain
  | timestamp value =>
      obtain ⟨text, isText, rfl⟩ := Option.map_eq_some_iff.mp isNormal
      obtain ⟨instant, _, rest⟩ := Option.bind_eq_some_iff.mp isText
      split at rest
      · cases rest
        exact ofText (null_not_mem_instantText instant)
      · cases rest
  | date value =>
      cases isNormal
      exact ofText (null_not_mem_isoDate _)
  | decimal value =>
      obtain ⟨text, isText, rfl⟩ := Option.map_eq_some_iff.mp isNormal
      exact ofText (not_mem_decimal_text isText (by decide))
  | other => cases isNormal

theorem mapItems_length (items : List (DataTree Scalar)) :
    (mapItems SourceScalar.ofScalar items).length = items.length := by
  induction items with
  | nil => rfl
  | cons item rest inductionHypothesis =>
      rw [mapItems, List.length_cons, inductionHypothesis, List.length_cons]

theorem normalizeItems_length {depth : Nat} {items : List (DataTree SourceScalar)}
    {normals : List (DataTree Scalar)} (areNormal : normalizeItems depth items = some normals) :
    normals.length = items.length := by
  induction items generalizing normals with
  | nil =>
      cases areNormal
      rfl
  | cons item rest inductionHypothesis =>
      rw [normalizeItems] at areNormal
      obtain ⟨normal, _, remaining⟩ := Option.bind_eq_some_iff.mp areNormal
      obtain ⟨others, areRest, isList⟩ := Option.bind_eq_some_iff.mp remaining
      cases isList
      rw [List.length_cons, List.length_cons, inductionHypothesis areRest]

theorem normalizeEntries_length {depth : Nat} {entries : List (Text × DataTree SourceScalar)}
    {normals : List (Text × DataTree Scalar)}
    (areNormal : normalizeEntries depth entries = some normals) :
    normals.length = entries.length := by
  rw [normalizeEntries_eq] at areNormal
  exact (option_mapM_eq_some areNormal).length_eq.symm

mutual

/-- A normal form, read back, is normal already. -/
theorem normalize_map : ∀ {tree : DataTree SourceScalar} (depth : Nat)
    {normal : DataTree Scalar}, normalize depth tree = some normal →
      normalize depth (normal.map SourceScalar.ofScalar) = some normal
  | .leaf value, depth, normal, isNormal => by
      rw [normalize] at isNormal
      split at isNormal
      · cases isNormal
      · rename_i shallow
        obtain ⟨scalar, isScalar, rfl⟩ := Option.map_eq_some_iff.mp isNormal
        rw [DataTree.map, normalize, if_neg shallow, normalizeScalar_ofScalar isScalar]
        rfl
  | .list items, depth, normal, isNormal => by
      rw [normalize] at isNormal
      split at isNormal
      · cases isNormal
      · rename_i fits
        obtain ⟨normals, areNormal, rfl⟩ := Option.map_eq_some_iff.mp isNormal
        rw [← normalizeItems_length areNormal, ← mapItems_length] at fits
        rw [DataTree.map, normalize, if_neg fits, normalizeItems_map (depth + 1) areNormal]
        rfl
  | .mapping entries, depth, normal, isNormal => by
      rw [normalize] at isNormal
      split at isNormal
      · cases isNormal
      · rename_i fits
        obtain ⟨normals, areNormal, rfl⟩ := Option.map_eq_some_iff.mp isNormal
        have sameLength : (mapEntries SourceScalar.ofScalar normals).length =
            entries.length := by
          rw [mapEntries_eq, List.length_map, normalizeEntries_length areNormal]
        rw [← sameLength] at fits
        rw [DataTree.map, normalize, if_neg fits, normalizeEntries_map (depth + 1) areNormal]
        rfl

theorem normalizeItems_map : ∀ {items : List (DataTree SourceScalar)} (depth : Nat)
    {normals : List (DataTree Scalar)}, normalizeItems depth items = some normals →
      normalizeItems depth (mapItems SourceScalar.ofScalar normals) = some normals
  | [], _, _, areNormal => by
      cases areNormal
      rfl
  | item :: rest, depth, _, areNormal => by
      rw [normalizeItems] at areNormal
      obtain ⟨normal, isNormal, remaining⟩ := Option.bind_eq_some_iff.mp areNormal
      obtain ⟨normals, areRest, isList⟩ := Option.bind_eq_some_iff.mp remaining
      cases isList
      rw [mapItems, normalizeItems, normalize_map depth isNormal,
        normalizeItems_map depth areRest]
      rfl

theorem normalizeEntries_map : ∀ {entries : List (Text × DataTree SourceScalar)} (depth : Nat)
    {normals : List (Text × DataTree Scalar)}, normalizeEntries depth entries = some normals →
      normalizeEntries depth (mapEntries SourceScalar.ofScalar normals) = some normals
  | [], _, _, areNormal => by
      cases areNormal
      rfl
  | (key, item) :: rest, depth, _, areNormal => by
      rw [normalizeEntries_eq, List.mapM_cons, ← normalizeEntries_eq] at areNormal
      obtain ⟨⟨name, normal⟩, isEntry, remaining⟩ := Option.bind_eq_some_iff.mp areNormal
      obtain ⟨normals, areRest, isList⟩ := Option.bind_eq_some_iff.mp remaining
      cases isList
      obtain ⟨shallow, isName, sameKey, isNormal⟩ := normalizeEntry_eq_some.mp isEntry
      dsimp only at sameKey isNormal
      subst sameKey
      have isPair : normalizeEntry depth (name, normal.map SourceScalar.ofScalar) =
          some (name, normal) :=
        normalizeEntry_eq_some.mpr ⟨shallow, isName, rfl, normalize_map depth isNormal⟩
      rw [mapEntries, normalizeEntries_eq, List.mapM_cons, ← normalizeEntries_eq, isPair,
        normalizeEntries_map depth areRest]
      rfl

end

/-! ## The canonical text -/

variable {sha256 : Text → Text} {payload other : DataTree SourceScalar}

theorem canonicalPayload_eq_some {text digest : Text} :
    canonicalPayload sha256 payload = some (text, digest) ↔
      (∃ entries, payload = .mapping entries) ∧
      ∃ normal, normalize 0 payload = some normal ∧ text = jsonText normal.sorted ∧
        ¬ 1024 * 1024 < utf8Length text ∧ digest = sha256 text := by
  constructor
  · intro isText
    cases payload with
    | leaf value => cases isText
    | list items => cases isText
    | mapping entries =>
        obtain ⟨normal, isNormal, rest⟩ := Option.bind_eq_some_iff.mp isText
        dsimp only at rest
        split at rest
        · cases rest
        · rename_i short
          cases rest
          exact ⟨⟨entries, rfl⟩, normal, isNormal, rfl, short, rfl⟩
  · rintro ⟨⟨entries, rfl⟩, normal, isNormal, rfl, short, rfl⟩
    unfold canonicalPayload
    dsimp only
    rw [isNormal]
    exact if_neg short

/-- The order of keys is irrelevant. -/
theorem canonicalPayload_of_same
    (keyed : payload.Keyed) (same : payload.Same other) {text digest : Text}
    (isText : canonicalPayload sha256 payload = some (text, digest)) :
    canonicalPayload sha256 other = some (text, digest) := by
  obtain ⟨⟨entries, isMapping⟩, normal, isNormal, textEq, short, digestEq⟩ :=
    canonicalPayload_eq_some.mp isText
  obtain ⟨another, isAnother, sameNormal⟩ := normalize_same 0 same isNormal
  refine canonicalPayload_eq_some.mpr ⟨?_, another, isAnother, ?_, short, digestEq⟩
  · subst isMapping
    cases same with
    | mapping each => exact ⟨_, rfl⟩
  · rw [textEq, sameNormal.sorted_eq (normalize_keyed 0 keyed isNormal)]

theorem canonicalPayload_readBack
    (keyed : payload.Keyed) {text digest : Text}
    (isText : canonicalPayload sha256 payload = some (text, digest)) :
    ∃ back, loads text = some back ∧
      canonicalPayload sha256 (back.map SourceScalar.ofScalar) = some (text, digest) := by
  obtain ⟨⟨entries, isMapping⟩, normal, isNormal, textEq, short, digestEq⟩ :=
    canonicalPayload_eq_some.mp isText
  have normalKeyed := normalize_keyed 0 keyed isNormal
  have isMap := normalize_map 0 isNormal
  obtain ⟨another, isAnother, same⟩ := normalize_same 0
    ((same_sorted normal).map SourceScalar.ofScalar) isMap
  refine ⟨normal.sorted, ?_, canonicalPayload_eq_some.mpr ⟨?_, another, isAnother, ?_, short,
    digestEq⟩⟩
  · rw [textEq, loads_jsonText normalKeyed.sorted]
  · subst isMapping
    rw [normalize] at isNormal
    split at isNormal
    · cases isNormal
    · obtain ⟨normals, _, rfl⟩ := Option.map_eq_some_iff.mp isNormal
      exact ⟨_, rfl⟩
  · rw [textEq, same.sorted_eq normalKeyed]

theorem text_eq_iff_same
    (keyed : payload.Keyed) (otherKeyed : other.Keyed) {normal another : DataTree Scalar}
    (isNormal : normalize 0 payload = some normal)
    (isAnother : normalize 0 other = some another) {text digest otherText otherDigest : Text}
    (isText : canonicalPayload sha256 payload = some (text, digest))
    (isOther : canonicalPayload sha256 other = some (otherText, otherDigest)) :
    text = otherText ↔ normal.Same another := by
  obtain ⟨_, found, isFound, textEq, _, _⟩ := canonicalPayload_eq_some.mp isText
  obtain ⟨_, otherFound, isOtherFound, otherEq, _, _⟩ := canonicalPayload_eq_some.mp isOther
  rw [isNormal] at isFound
  rw [isAnother] at isOtherFound
  cases isFound
  cases isOtherFound
  have normalKeyed := normalize_keyed 0 keyed isNormal
  have anotherKeyed := normalize_keyed 0 otherKeyed isAnother
  rw [textEq, otherEq, same_iff_sorted_eq normalKeyed]
  exact ⟨jsonText_injective normalKeyed.sorted anotherKeyed.sorted, congrArg jsonText⟩

end ParishKit.Source.Canonical
