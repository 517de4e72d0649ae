import Mathlib.Data.List.TakeWhile
import ParishKit.Campaigns.RepeatRule

/-!
# Reading the dates of a repeat rule

The page script turns a value into text before it reads a date, so it reads a
date in arrays of one item too, it raises on an object with a `toString` member,
and its years start at 100.
-/

namespace ParishKit.Campaigns

open ParishKit.Lib

/-! ## Texts -/

/-- The item of an array of one item, of an array of one item, and so on. -/
def bare : Json → Json
  | .array [item] => bare item
  | value => value

mutual

/-- An object with a `toString` member, here or in an array. -/
def namesToString : Json → Bool
  | .object members => (member? members "toString").isSome
  | .array items => anyNamesToString items
  | _ => false

def anyNamesToString : List Json → Bool
  | [] => false
  | item :: rest => namesToString item || anyNamesToString rest

end

mutual

theorem scriptText_eq_none (value : Json) :
    scriptText value = none ↔ namesToString value = true := by
  match value with
  | .object members =>
      rw [scriptText, namesToString]
      split
      · rename_i named
        exact ⟨fun _ => named, fun _ => rfl⟩
      · rename_i unnamed
        exact ⟨nofun, fun named => absurd named unnamed⟩
  | .array items =>
      rw [scriptText, namesToString]
      exact joinedText_eq_none items
  | .null => exact ⟨nofun, nofun⟩
  | .bool _ => exact ⟨nofun, nofun⟩
  | .int _ => exact ⟨nofun, nofun⟩
  | .float _ _ _ => exact ⟨nofun, nofun⟩
  | .string _ => exact ⟨nofun, nofun⟩

theorem joinedText_eq_none (items : List Json) :
    joinedText items = none ↔ anyNamesToString items = true := by
  match items with
  | [] => exact ⟨nofun, nofun⟩
  | item :: rest =>
      rw [joinedText, anyNamesToString, Bool.or_eq_true, ← scriptText_eq_none item,
        ← joinedText_eq_none rest]
      cases scriptText item with
      | none => simp
      | some text =>
          cases rest with
          | nil => simp [joinedText]
          | cons => simp

end

/-! ## Numbers are not dates -/

theorem toDigits_not_dash (number : Nat) :
    ∀ char ∈ Nat.toDigits 10 number, (char != '-') = true := by
  intro char member
  have digit := Nat.isDigit_of_mem_toDigits (by decide) (by decide) member
  rw [bne_iff_ne]
  rintro rfl
  cases digit

/-- A text without a dash, or one whose first dash follows an `e`, is no date. -/
theorem dateParts_of_dash {text : Text} (first : Text)
    (noDash : ∀ char ∈ first, (char != '-') = true)
    (form : text = first ∨ ∃ rest, text = first ++ ['e', '-'] ++ rest) :
    dateParts text = none := by
  cases read : dateParts text with
  | none => rfl
  | some date =>
      exfalso
      have start := dateParts_takeWhile read
      rcases form with rfl | ⟨rest, rfl⟩
      · rw [List.takeWhile_eq_self_iff.mpr noDash] at start
        rw [start] at read
        cases read
      · rw [List.append_assoc, List.takeWhile_append_of_pos noDash] at start
        have isE : ['e', '-'].takeWhile (· != '-') = ['e'] := by decide
        have after : (['e', '-'] ++ rest).takeWhile (· != '-') = ['e'] := rfl
        rw [after] at start
        have digits : ∀ char ∈ fourDigits date.year.toNat,
            char.isDigit = true := by
          intro char member
          unfold fourDigits at member
          simp only [List.mem_cons, List.not_mem_nil, or_false] at member
          rcases member with rfl | rfl | rfl | rfl <;> exact isDigit_digitChar _
        have isDigit := digits 'e' (by rw [← start]; simp)
        cases isDigit

theorem dateParts_minus (rest : Text) : dateParts ('-' :: rest) = none := by
  cases read : dateParts ('-' :: rest) with
  | none => rfl
  | some date =>
      have start := dateParts_takeWhile read
      have isNil : ('-' :: rest).takeWhile (· != '-') = [] := rfl
      rw [isNil] at start
      cases start

theorem dateParts_numberText (negative : Bool) (digits : Nat) (exponent : Int) :
    dateParts (numberText negative digits exponent) = none := by
  unfold numberText
  by_cases zero : digits = 0
  · rw [if_pos zero]
    rfl
  · rw [if_neg zero]
    dsimp only
    cases negative with
    | true => exact dateParts_minus _
    | false =>
        have noDash := toDigits_not_dash digits
        generalize Nat.toDigits 10 digits = text at noDash ⊢
        generalize (text.length : Int) + exponent = point
        have taken (count : Nat) : ∀ char ∈ text.take count,
            (char != '-') = true :=
          fun char member => noDash char (List.mem_of_mem_take member)
        have dropped (count : Nat) : ∀ char ∈ text.drop count,
            (char != '-') = true :=
          fun char member => noDash char (List.mem_of_mem_drop member)
        have zeros (count : Nat) : ∀ char ∈ List.replicate count '0',
            (char != '-') = true := by
          intro char member
          rw [List.eq_of_mem_replicate member]
          rfl
        rw [if_neg (by decide), List.nil_append]
        split
        · refine dateParts_of_dash _ (fun char member => ?_) (Or.inl rfl)
          rcases List.mem_append.mp member with inside | inside
          · exact noDash char inside
          · exact zeros _ char inside
        · split
          · refine dateParts_of_dash _ (fun char member => ?_) (Or.inl rfl)
            rcases List.mem_append.mp member with inside | inside
            · exact taken _ char inside
            · rcases List.mem_cons.mp inside with rfl | later
              · rfl
              · exact dropped _ char later
          · split
            · refine dateParts_of_dash _ (fun char member => ?_) (Or.inl rfl)
              rcases List.mem_append.mp member with inside | inside
              · rcases List.mem_append.mp inside with start | middle
                · simp only [List.mem_cons, List.not_mem_nil, or_false] at start
                  rcases start with rfl | rfl <;> rfl
                · exact zeros _ char middle
              · exact noDash char inside
            · have mantissa : ∀ char ∈ text.take 1 ++
                  (if text.length = 1 then [] else '.' :: text.drop 1),
                  (char != '-') = true := by
                intro char member
                rcases List.mem_append.mp member with inside | inside
                · exact taken _ char inside
                · split at inside
                  · cases inside
                  · rcases List.mem_cons.mp inside with rfl | later
                    · rfl
                    · exact dropped _ char later
              generalize text.take 1 ++
                (if text.length = 1 then [] else '.' :: text.drop 1) = start
                at mantissa ⊢
              by_cases below : point - 1 < 0
              · rw [if_pos below]
                exact dateParts_of_dash start mantissa (Or.inr ⟨_, rfl⟩)
              · rw [if_neg below]
                refine dateParts_of_dash _ (fun char member => ?_) (Or.inl rfl)
                rcases List.mem_append.mp member with inside | inside
                · rcases List.mem_append.mp inside with own | mark
                  · exact mantissa char own
                  · simp only [List.mem_cons, List.not_mem_nil, or_false] at mark
                    rcases mark with rfl | rfl <;> rfl
                · exact toDigits_not_dash _ char inside

/-! ## Values that read as a date -/

theorem dateParts_comma {text : Text} {date : CivilDate}
    (read : dateParts text = some date) : ',' ∉ text := by
  obtain ⟨isText, _⟩ := isoDate_of_dateParts read
  have notComma (number : Nat) : Nat.digitChar (number % 10) ≠ ',' := by
    intro isComma
    have digit := isDigit_digitChar number
    rw [isComma] at digit
    cases digit
  rw [isText]
  unfold isoDate fourDigits twoDigits
  simp only [List.cons_append, List.nil_append, List.mem_cons, List.not_mem_nil,
    or_false, not_or]
  exact ⟨(notComma _).symm, (notComma _).symm, (notComma _).symm,
    (notComma _).symm, by decide, (notComma _).symm, (notComma _).symm, by decide,
    (notComma _).symm, (notComma _).symm⟩

/-- Only a string, in arrays of one item or not, has the text of a date. -/
theorem bare_of_scriptText {value : Json} {text : Text} {date : CivilDate}
    (isText : scriptText value = some text)
    (read : dateParts text = some date) : bare value = .string text := by
  match value with
  | .null =>
      cases isText
      cases read
  | .bool given =>
      cases isText
      cases given <;> cases read
  | .int number =>
      cases isText
      rw [dateParts_numberText] at read
      cases read
  | .float negative digits exponent =>
      cases isText
      rw [dateParts_numberText] at read
      cases read
  | .string given =>
      cases isText
      rfl
  | .object members =>
      rw [scriptText] at isText
      split at isText
      · cases isText
      · cases isText
        cases read
  | .array [] =>
      cases isText
      cases read
  | .array [item] =>
      rw [scriptText, joinedText] at isText
      obtain ⟨own, isOwn, isText⟩ := Option.bind_eq_some_iff.mp isText
      dsimp only at isText
      rw [bare]
      cases item with
      | null =>
          cases isText
          cases read
      | _ =>
          cases isText
          exact bare_of_scriptText isOwn read
  | .array (first :: second :: rest) =>
      rw [scriptText, joinedText] at isText
      obtain ⟨own, _, isText⟩ := Option.bind_eq_some_iff.mp isText
      obtain ⟨others, _, isText⟩ := Option.map_eq_some_iff.mp isText
      refine absurd ?_ (dateParts_comma read)
      rw [← isText]
      exact List.mem_append_right _ List.mem_cons_self

theorem scriptText_of_bare {value : Json} {text : Text}
    (isBare : bare value = .string text) : scriptText value = some text := by
  match value with
  | .string given =>
      cases isBare
      rfl
  | .array [item] =>
      rw [bare] at isBare
      have own := scriptText_of_bare isBare
      rw [scriptText, joinedText, own]
      cases item with
      | null => cases isBare
      | _ => rfl
  | .null => cases isBare
  | .bool given => cases isBare
  | .int number => cases isBare
  | .float negative digits exponent => cases isBare
  | .object members => cases isBare
  | .array [] => cases isBare
  | .array (first :: second :: rest) => cases isBare

/-! ## Dates of the page script -/

theorem dateUTC_eq {date : CivilDate} (valid : date.Valid)
    (late : 100 ≤ date.year) :
    dateUTC date.year (date.month - 1) date.day = date.ordinal - epoch := by
  have monthPos := valid.month_pos
  have monthLe := valid.month_le
  unfold dateUTC
  have month : (((date.month : Int) - 1) % 12).toNat + 1 = date.month := by omega
  have years : ((date.month : Int) - 1) / 12 = 0 := by omega
  rw [if_neg (by omega), month, years]
  unfold CivilDate.ordinal CivilDate.yearDay
  dsimp only
  rw [Int.add_zero]
  omega

theorem isoDay_eq {day : Int} (lower : 0 ≤ (civil (day + epoch)).year)
    (upper : (civil (day + epoch)).year ≤ 9999) :
    isoDay day = isoDate (civil (day + epoch)) := by
  unfold isoDay toISOString
  dsimp only
  rw [if_pos ⟨lower, upper⟩]
  rfl

/-- The years before 100 are read in the twentieth century. -/
theorem dateUTC_early {date : CivilDate} (valid : date.Valid)
    (lower : 0 ≤ date.year) (early : date.year < 100) :
    date.ordinal ≠ dateUTC date.year (date.month - 1) date.day + epoch := by
  have monthPos := valid.month_pos
  have monthLe := valid.month_le
  have dayPos := valid.day_pos
  have upper := valid.ordinal_bounds.2
  have months := daysThrough_mono (1900 + date.year) (Nat.zero_le (date.month - 1))
    (by omega)
  rw [daysThrough_zero] at months
  unfold dateUTC
  have month : (((date.month : Int) - 1) % 12).toNat + 1 = date.month := by omega
  have years : ((date.month : Int) - 1) / 12 = 0 := by omega
  rw [if_pos (by omega), month, years]
  intro same
  rw [same] at upper
  unfold CivilDate.ordinal CivilDate.yearDay at upper
  dsimp only at upper
  rw [Int.add_zero] at upper
  unfold daysBeforeYear at upper
  omega

/-- The script keeps a date of the form exactly when it is a date of the year 100
or later. -/
theorem toISOString_dateUTC {date : CivilDate} (short : date.Short) :
    (toISOString (dateUTC date.year (date.month - 1) date.day)).take 10 =
      isoDate date ↔ 100 ≤ date.year ∧ date.Valid := by
  constructor
  · intro same
    have validDay := civil_valid
      (dateUTC date.year (date.month - 1) date.day + epoch)
    have isOrdinal := ordinal_civil
      (dateUTC date.year (date.month - 1) date.day + epoch)
    by_cases years : 0 ≤ (civil
        (dateUTC date.year (date.month - 1) date.day + epoch)).year ∧
        (civil (dateUTC date.year (date.month - 1) date.day + epoch)).year ≤ 9999
    · have text := isoDay_eq years.1 years.2
      unfold isoDay at text
      rw [text] at same
      have isDate := isoDate_injective
        (validDay.short years.1 years.2) short same
      rw [isDate] at validDay isOrdinal
      refine ⟨?_, validDay⟩
      by_contra early
      exact dateUTC_early validDay short.year_nonneg (by omega) isOrdinal
    · exfalso
      unfold toISOString at same
      dsimp only at same
      rw [if_neg years] at same
      have heads := congrArg (fun text : Text => text.head?.any Char.isDigit) same
      unfold isoDate fourDigits at heads
      simp only [List.cons_append, List.take_succ_cons, List.head?_cons,
        Option.any_some, isDigit_digitChar] at heads
      split at heads <;> cases heads
  · rintro ⟨late, valid⟩
    rw [dateUTC_eq valid late]
    have back : date.ordinal - epoch + epoch = date.ordinal := by omega
    have yearLt := short.year_lt
    have text := @isoDay_eq (date.ordinal - epoch)
    rw [back, civil_ordinal valid] at text
    exact text short.year_nonneg (by omega)

/-- What the server reads as a date. -/
theorem serverDay_eq_some {value : Option Json} {date : CivilDate} :
    serverDay value = some date ↔
      ∃ text, value = some (.string text) ∧ dateParts text = some date ∧
        1 ≤ date.year ∧ date.Valid := by
  unfold serverDay
  split
  · rename_i text
    simp only [Option.filter_eq_some_iff, Bool.and_eq_true, decide_eq_true_eq]
    constructor
    · rintro ⟨read, positive, valid⟩
      exact ⟨text, rfl, read, positive, valid⟩
    · rintro ⟨given, isGiven, read, positive, valid⟩
      cases isGiven
      exact ⟨read, positive, valid⟩
  · rename_i other
    constructor
    · nofun
    · rintro ⟨text, isText, _⟩
      exact absurd isText (other text)

/-- The script raises on a value that its text raises on. -/
theorem civilDay_eq_none {value : Option Json} :
    civilDay value = none ↔ ∃ given, value = some given ∧
      namesToString given = true := by
  unfold civilDay
  rw [Option.map_eq_none_iff]
  split
  · exact ⟨nofun, fun ⟨_, isGiven, _⟩ => by cases isGiven⟩
  · refine ⟨nofun, fun ⟨given, isGiven, named⟩ => ?_⟩
    cases isGiven
    cases named
  · rename_i given _
    rw [scriptText_eq_none]
    constructor
    · exact fun named => ⟨given, rfl, named⟩
    · rintro ⟨other, isOther, named⟩
      cases isOther
      exact named

/-- The script reads the dates from the year 100 on, and in arrays of one item
too. -/
theorem civilDay_eq_some {value : Option Json} {day : Int} :
    civilDay value = some (some day) ↔
      ∃ date, serverDay (value.map bare) = some date ∧ 100 ≤ date.year ∧
        day = date.ordinal - epoch := by
  have reads (text : Text) : (dateParts text).bind (fun parts =>
      let day := dateUTC parts.year (parts.month - 1) parts.day
      if (toISOString day).take 10 = text then some day else none) = some day ↔
      ∃ date, dateParts text = some date ∧ 100 ≤ date.year ∧ date.Valid ∧
        day = date.ordinal - epoch := by
    cases read : dateParts text with
    | none => exact ⟨nofun, fun ⟨_, isDate, _⟩ => by cases isDate⟩
    | some date =>
        obtain ⟨isText, short⟩ := isoDate_of_dateParts read
        rw [Option.bind_some]
        dsimp only
        rw [isText]
        have accepted := toISOString_dateUTC short
        constructor
        · intro kept
          split at kept
          · rename_i same
            obtain ⟨late, valid⟩ := accepted.mp same
            cases kept
            exact ⟨date, rfl, late, valid, dateUTC_eq valid late⟩
          · cases kept
        · rintro ⟨other, isOther, late, valid, isDay⟩
          cases isOther
          rw [if_pos (accepted.mpr ⟨late, valid⟩), dateUTC_eq valid late, isDay]
  unfold civilDay
  rw [Option.map_eq_some_iff]
  constructor
  · rintro ⟨text, isText, kept⟩
    obtain ⟨date, read, late, valid, isDay⟩ := (reads text).mp kept
    refine ⟨date, serverDay_eq_some.mpr ⟨text, ?_, read, by omega, valid⟩, late,
      isDay⟩
    split at isText
    · cases isText
      cases read
    · cases isText
      cases read
    · rename_i given _
      rw [Option.map_some, bare_of_scriptText isText read]
  · rintro ⟨date, accepted, late, isDay⟩
    obtain ⟨text, isBare, read, _, valid⟩ := serverDay_eq_some.mp accepted
    refine ⟨text, ?_, (reads text).mpr ⟨date, read, late, valid, isDay⟩⟩
    obtain ⟨given, isGiven, isString⟩ := Option.map_eq_some_iff.mp isBare
    rw [isGiven]
    have isText := scriptText_of_bare isString
    split
    · rename_i noValue
      cases noValue
    · rename_i isNull
      cases isNull
      cases isString
    · rename_i other _ isOther
      cases isOther
      exact isText

end ParishKit.Campaigns
