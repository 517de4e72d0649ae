import ParishKit.Lib.JsonText

/-!
# Reading JSON text back

What is written is read as it was: first numbers, then the characters of texts, then
values with what follows them.
-/

namespace ParishKit.Lib

/-! ## Numbers -/

/-- What follows a number does not continue it. -/
def EndsNumber (rest : Text) : Prop :=
  ∀ char ∈ rest.head?, char.isDigit = false

theorem takeWhile_digits {digits rest : Text} (all : ∀ char ∈ digits, char.isDigit = true)
    (ends : EndsNumber rest) :
    (digits ++ rest).takeWhile Char.isDigit = digits ∧
      (digits ++ rest).dropWhile Char.isDigit = rest := by
  induction digits with
  | nil =>
      cases rest with
      | nil => exact ⟨rfl, rfl⟩
      | cons char rest =>
          have notDigit : ¬ char.isDigit = true := by
            rw [ends char rfl]
            exact Bool.false_ne_true
          rw [List.nil_append, List.takeWhile_cons_of_neg notDigit,
            List.dropWhile_cons_of_neg notDigit]
          exact ⟨rfl, rfl⟩
  | cons char digits inductionHypothesis =>
      obtain ⟨isDigit, others⟩ := List.forall_mem_cons.mp all
      obtain ⟨taken, dropped⟩ := inductionHypothesis others
      rw [List.cons_append, List.takeWhile_cons_of_pos isDigit,
        List.dropWhile_cons_of_pos isDigit, taken, dropped]
      exact ⟨rfl, rfl⟩

theorem isDigit_of_toDigits (number : Nat) :
    ∀ char ∈ Nat.toDigits 10 number, char.isDigit = true := fun _ member =>
  Nat.isDigit_of_mem_toDigits (by decide) (by decide) member

/-- A positive number does not begin with a zero. -/
theorem toDigits_head_ne_zero {number : Nat} (positive : 0 < number) :
    (Nat.toDigits 10 number).head? ≠ some '0' := by
  induction number using Nat.strong_induction_on with
  | _ number inductionHypothesis =>
      by_cases small : number < 10
      · rw [Nat.toDigits_of_lt_base small, List.head?_cons]
        interval_cases number <;> decide
      · rw [Nat.toDigits_of_base_le (by decide) (by omega), List.head?_append_of_ne_nil _
          Nat.toDigits_ne_nil]
        exact inductionHypothesis (number / 10) (by omega) (by omega)

theorem readNatural_toDigits (number : Nat) {rest : Text} (ends : EndsNumber rest) :
    readNatural (Nat.toDigits 10 number ++ rest) = some (number, rest) := by
  unfold readNatural
  by_cases isZero : number = 0
  · subst isZero
    rw [Nat.toDigits_zero]
    rfl
  · obtain ⟨taken, dropped⟩ := takeWhile_digits (isDigit_of_toDigits number) ends
    rw [List.head?_append_of_ne_nil _ Nat.toDigits_ne_nil,
      if_neg (toDigits_head_ne_zero (Nat.pos_of_ne_zero isZero)), taken, dropped,
      if_neg Nat.toDigits_ne_nil, Nat.ofDigitChars_ten_toDigits]

theorem readInt_intText (number : Int) {rest : Text} (ends : EndsNumber rest) :
    readInt (intText number ++ rest) = some (number, rest) := by
  unfold readInt
  cases number with
  | ofNat number =>
      have notMinus : (Nat.toDigits 10 number ++ rest).head? ≠ some '-' := by
        rw [List.head?_append_of_ne_nil _ Nat.toDigits_ne_nil]
        intro isMinus
        have digit := isDigit_of_toDigits number '-' (List.mem_of_mem_head? isMinus)
        exact absurd digit (by decide)
      rw [intText, if_neg notMinus, readNatural_toDigits number ends]
      rfl
  | negSucc number =>
      rw [intText, List.cons_append, List.head?_cons, if_pos rfl, List.tail_cons,
        readNatural_toDigits (number + 1) ends]
      rfl

/-! ## Texts -/

theorem unescape_controlText {code : Nat} (control : code < 32) (rest : Text) :
    unescape (controlText code ++ rest) = some (Char.ofNat code, rest) := by
  interval_cases code <;> rfl

/-- An escape and the characters that follow it. -/
theorem readChars_escape
    {fuel : Nat} {char : Char} {text rest last : Text} {more : Text}
    (isEscape : unescape text = some (char, rest))
    (isRead : readChars fuel rest = some (more, last)) :
    readChars (fuel + 1) (backslash :: text) = some (char :: more, last) := by
  rw [readChars, if_neg (by decide), if_pos rfl, isEscape]
  dsimp only [Option.bind_eq_bind, Option.bind_some]
  rw [isRead]
  rfl

theorem readChars_escaped
    {fuel : Nat} {rest last more : Text} (char : Char)
    (isRead : readChars fuel rest = some (more, last)) :
    readChars (fuel + 1) (escaped char ++ rest) = some (char :: more, last) := by
  unfold escaped
  split
  · rename_i isMark
    rw [isMark]
    exact readChars_escape rfl isRead
  · rename_i notMark
    split
    · rename_i isBackslash
      rw [isBackslash]
      exact readChars_escape rfl isRead
    · rename_i notBackslash
      split
      · rename_i control
        have isEscape := unescape_controlText control rest
        rw [Char.ofNat_toNat] at isEscape
        exact readChars_escape isEscape isRead
      · rename_i plain
        rw [List.cons_append, List.nil_append, readChars, if_neg notMark,
          if_neg notBackslash, if_neg plain, isRead]
        rfl

theorem readChars_flatMap
    {fuel : Nat} (value rest : Text) (enough : value.length < fuel) :
    readChars fuel (value.flatMap escaped ++ quoteMark :: rest) = some (value, rest) := by
  induction value generalizing fuel with
  | nil =>
      cases fuel with
      | zero => cases enough
      | succ fuel =>
          rw [List.flatMap_nil, List.nil_append, readChars, if_pos rfl]
  | cons char value inductionHypothesis =>
      cases fuel with
      | zero => cases enough
      | succ fuel =>
          rw [List.flatMap_cons, List.append_assoc]
          exact readChars_escaped char (inductionHypothesis (Nat.lt_of_succ_lt_succ enough))

theorem escaped_ne_nil (char : Char) : escaped char ≠ [] := by
  unfold escaped
  split_ifs
  · exact List.cons_ne_nil _ _
  · exact List.cons_ne_nil _ _
  · exact List.cons_ne_nil _ _
  · exact List.cons_ne_nil _ _

theorem length_le_flatMap_escaped (value : Text) :
    value.length ≤ (value.flatMap escaped).length := by
  induction value with
  | nil => exact Nat.le_refl _
  | cons char value inductionHypothesis =>
      have positive := List.length_pos_iff.mpr (escaped_ne_nil char)
      rw [List.flatMap_cons, List.length_append, List.length_cons]
      omega

/-- The characters of a quoted text, after its first mark. -/
theorem readChars_quoted (value rest : Text) :
    readChars ((value.flatMap escaped ++ quoteMark :: rest).length + 1)
      (value.flatMap escaped ++ quoteMark :: rest) = some (value, rest) := by
  have shorter := length_le_flatMap_escaped value
  refine readChars_flatMap value rest ?_
  rw [List.length_append]
  omega

/-! ## Dictionaries -/

theorem placeEntry_of_not_mem
    {key : Text} {item : DataTree Scalar} {entries : List (Text × DataTree Scalar)}
    (absent : key ∉ entries.map Prod.fst) :
    placeEntry key item entries = entries ++ [(key, item)] := by
  induction entries with
  | nil => rfl
  | cons entry rest inductionHypothesis =>
      rw [List.map_cons, List.mem_cons, not_or] at absent
      rw [placeEntry, if_neg fun same => absent.1 same.symm, inductionHypothesis absent.2,
        List.cons_append]

theorem dictionary_of_nodup
    {pairs : List (Text × DataTree Scalar)} (distinct : (pairs.map Prod.fst).Nodup) :
    dictionary pairs = pairs := by
  have after : ∀ entries : List (Text × DataTree Scalar),
      ((entries ++ pairs).map Prod.fst).Nodup →
      pairs.foldl (fun entries pair => placeEntry pair.1 pair.2 entries) entries =
        entries ++ pairs := by
    clear distinct
    induction pairs with
    | nil =>
        intro entries _
        rw [List.foldl_nil, List.append_nil]
    | cons pair rest inductionHypothesis =>
        intro entries distinct
        have absent : pair.1 ∉ entries.map Prod.fst := by
          rw [List.map_append, List.map_cons, List.nodup_append] at distinct
          intro member
          exact distinct.2.2 pair.1 member pair.1 List.mem_cons_self rfl
        rw [List.foldl_cons, placeEntry_of_not_mem absent, inductionHypothesis,
          List.append_assoc, List.singleton_append]
        rw [List.append_assoc, List.singleton_append]
        exact distinct
  exact after [] distinct

/-! ## Values -/

theorem skipBlank_cons {char : Char} (rest : Text)
    (plain : [' ', '\t', '\n', '\r'].contains char = false) :
    skipBlank (char :: rest) = char :: rest := by
  unfold skipBlank
  exact List.dropWhile_cons_of_neg (by rw [plain]; exact Bool.false_ne_true)

/-- A character a value begins with. -/
structure BeginsValue (char : Char) : Prop where
  plain : [' ', '\t', '\n', '\r'].contains char = false
  notBracket : char ≠ ']'

theorem beginsValue_of_isDigit {char : Char} (digit : char.isDigit = true) :
    BeginsValue char := by
  obtain ⟨isChar, below⟩ := digitChar_digitValue digit
  rw [← isChar]
  generalize digitValue char = number at below ⊢
  interval_cases number <;> exact ⟨by decide, by decide⟩

theorem intText_begins (number : Int) :
    ∃ char text, intText number = char :: text ∧ (char = '-' ∨ char.isDigit = true) := by
  cases number with
  | ofNat number =>
      cases isText : Nat.toDigits 10 number with
      | nil => exact absurd isText Nat.toDigits_ne_nil
      | cons char text =>
          refine ⟨char, text, isText, Or.inr (isDigit_of_toDigits number char ?_)⟩
          rw [isText]
          exact List.mem_cons_self
  | negSucc number => exact ⟨'-', _, rfl, Or.inl rfl⟩

theorem jsonText_begins (tree : DataTree Scalar) :
    ∃ char text, jsonText tree = char :: text ∧ BeginsValue char := by
  cases tree with
  | leaf value =>
      cases value with
      | null => exact ⟨'n', _, rfl, by decide, by decide⟩
      | bool value =>
          cases value with
          | true => exact ⟨'t', _, rfl, by decide, by decide⟩
          | false => exact ⟨'f', _, rfl, by decide, by decide⟩
      | int number =>
          obtain ⟨char, text, isText, isMinus | digit⟩ := intText_begins number
          · rw [isMinus] at isText
            exact ⟨'-', text, isText, by decide, by decide⟩
          · exact ⟨char, text, isText, beginsValue_of_isDigit digit⟩
      | text value => exact ⟨quoteMark, _, rfl, by decide, by decide⟩
  | list items => exact ⟨'[', _, rfl, by decide, by decide⟩
  | mapping entries => exact ⟨openBrace, _, rfl, by decide, by decide⟩

theorem readScalar_intText (number : Int) {rest : Text} (ends : EndsNumber rest) :
    readScalar (intText number ++ rest) = some (.int number, rest) := by
  obtain ⟨char, text, isText, begins⟩ := intText_begins number
  have isRead := readInt_intText number ends
  have notWord : ∀ (word : Text) (count : Nat), word.head? ≠ some char →
      (intText number ++ rest).take (count + 1) ≠ word := by
    intro word count different same
    rw [isText, List.cons_append, List.take_succ_cons] at same
    rw [← same] at different
    exact different rfl
  have notLetter : char ≠ 'n' ∧ char ≠ 't' ∧ char ≠ 'f' := by
    rcases begins with rfl | digit
    · decide
    · refine ⟨?_, ?_, ?_⟩
      · rintro rfl
        cases digit
      · rintro rfl
        cases digit
      · rintro rfl
        cases digit
  unfold readScalar
  have notNull := notWord "null".toList 3 fun same : some 'n' = some char =>
    notLetter.1 (Option.some.inj same).symm
  have notTrue := notWord "true".toList 3 fun same : some 't' = some char =>
    notLetter.2.1 (Option.some.inj same).symm
  have notFalse := notWord "false".toList 4 fun same : some 'f' = some char =>
    notLetter.2.2 (Option.some.inj same).symm
  rw [if_neg notNull, if_neg notTrue, if_neg notFalse, isRead]
  rfl

/-- A scalar that begins as no text, list or mapping does. -/
theorem readValue_scalar
    {fuel : Nat} {char : Char} {text rest : Text} {value : Scalar}
    (notMark : char ≠ quoteMark) (notBracket : char ≠ '[') (notBrace : char ≠ openBrace)
    (isRead : readScalar (char :: text) = some (value, rest)) :
    readValue (fuel + 1) (char :: text) = some (.leaf value, rest) := by
  rw [readValue, if_neg notMark, if_neg notBracket, if_neg notBrace, isRead]
  rfl

theorem readValue_leaf
    {fuel : Nat} (value : Scalar) {rest : Text} (ends : EndsNumber rest) :
    readValue (fuel + 1) (scalarText value ++ rest) = some (.leaf value, rest) := by
  cases value with
  | null => exact readValue_scalar (by decide) (by decide) (by decide) rfl
  | bool value =>
      cases value with
      | true => exact readValue_scalar (by decide) (by decide) (by decide) rfl
      | false => exact readValue_scalar (by decide) (by decide) (by decide) rfl
  | int number =>
      obtain ⟨char, text, isText, begins⟩ := intText_begins number
      have isRead := readScalar_intText number ends
      rw [scalarText, isText, List.cons_append] at *
      rcases begins with rfl | digit
      · exact readValue_scalar (by decide) (by decide) (by decide) isRead
      · refine readValue_scalar ?_ ?_ ?_ isRead
        · rintro rfl
          cases digit
        · rintro rfl
          cases digit
        · rintro rfl
          cases digit
  | text value =>
      rw [scalarText, quoted, List.cons_append, List.cons_append, List.append_assoc,
        List.singleton_append, readValue, if_pos rfl, readChars_quoted]
      rfl

theorem endsNumber_cons {char : Char} (rest : Text) (notDigit : char.isDigit = false) :
    EndsNumber (char :: rest) := by
  intro first isFirst
  rw [List.head?_cons, Option.mem_some] at isFirst
  rw [← isFirst]
  exact notDigit

theorem skipBlank_jsonText (tree : DataTree Scalar) (rest : Text) :
    skipBlank (jsonText tree ++ rest) = jsonText tree ++ rest := by
  obtain ⟨char, text, isText, begins⟩ := jsonText_begins tree
  rw [isText, List.cons_append]
  exact skipBlank_cons _ begins.plain

theorem itemsText_cons (item : DataTree Scalar) (items : List (DataTree Scalar)) :
    ∃ text, itemsText (item :: items) = jsonText item ++ text := by
  rw [itemsText]
  exact ⟨_, rfl⟩

theorem skipBlank_itemsText (item : DataTree Scalar) (items : List (DataTree Scalar)) (rest : Text) :
    skipBlank (itemsText (item :: items) ++ rest) = itemsText (item :: items) ++ rest := by
  obtain ⟨text, isText⟩ := itemsText_cons item items
  rw [isText, List.append_assoc]
  exact skipBlank_jsonText item _

theorem itemsText_head_ne (item : DataTree Scalar) (items : List (DataTree Scalar)) (rest : Text) :
    (itemsText (item :: items) ++ rest).head? ≠ some ']' := by
  obtain ⟨text, isText⟩ := itemsText_cons item items
  obtain ⟨char, more, isChar, begins⟩ := jsonText_begins item
  rw [isText, isChar, List.cons_append, List.cons_append, List.head?_cons]
  exact fun same => begins.notBracket (Option.some.inj same)

/-- The text of entries, with what follows it. -/
theorem entriesText_append (key : Text) (item : DataTree Scalar)
    (entries : List (Text × DataTree Scalar)) (rest : Text) :
    entriesText ((key, item) :: entries) ++ rest =
      quoteMark :: (key.flatMap escaped ++ quoteMark :: (':' :: (jsonText item ++
        ((if entries.isEmpty then [] else ',' :: entriesText entries) ++ rest)))) := by
  rw [entriesText, quoted]
  simp only [List.cons_append, List.append_assoc, List.nil_append]

mutual

/-- A tree is read from its text, whatever follows that does not continue a number. -/
theorem readValue_jsonText : ∀ (tree : DataTree Scalar) (fuel : Nat) (rest : Text), tree.Keyed →
    (jsonText tree).length < fuel → EndsNumber rest →
      readValue fuel (jsonText tree ++ rest) = some (tree, rest)
  | _, 0, _, _, enough, _ => by
      cases enough
  | .leaf value, fuel + 1, rest, _, _, ends => readValue_leaf value ends
  | .list [], fuel + 1, rest, _, _, _ => by
      rw [jsonText, itemsText]
      rfl
  | .list (item :: items), fuel + 1, rest, keyed, enough, _ => by
      rw [jsonText, List.length_append, List.length_cons, List.length_singleton] at enough
      have isRead := readItems_itemsText item items fuel rest keyed.1 keyed.2 (by omega)
      rw [jsonText, List.cons_append, List.cons_append, List.append_assoc,
        List.singleton_append, readValue, if_neg (by decide), if_pos rfl,
        skipBlank_itemsText, if_neg (itemsText_head_ne item items _), isRead]
      rfl
  | .mapping [], fuel + 1, rest, _, _, _ => by
      rw [jsonText, entriesText]
      rfl
  | .mapping ((key, item) :: entries), fuel + 1, rest, keyed, enough, _ => by
      rw [jsonText, List.length_append, List.length_cons, List.length_singleton] at enough
      have isRead := readEntries_entriesText key item entries fuel rest keyed.2.1 keyed.2.2
        (by omega)
      have begins := entriesText_append key item entries (closeBrace :: rest)
      have notBlank : skipBlank (entriesText ((key, item) :: entries) ++ closeBrace :: rest) =
          entriesText ((key, item) :: entries) ++ closeBrace :: rest := by
        rw [begins]
        exact skipBlank_cons _ (by decide)
      have notClosed : (entriesText ((key, item) :: entries) ++
          closeBrace :: rest).head? ≠ some closeBrace := by
        rw [begins, List.head?_cons]
        decide
      rw [jsonText, List.cons_append, List.cons_append, List.append_assoc,
        List.singleton_append, readValue, if_neg (by decide), if_neg (by decide), if_pos rfl,
        notBlank, if_neg notClosed, isRead]
      dsimp only [Option.bind_eq_bind, Option.bind_some]
      rw [dictionary_of_nodup keyed.1]

theorem readItems_itemsText : ∀ (item : DataTree Scalar) (items : List (DataTree Scalar)) (fuel : Nat)
    (rest : Text), item.Keyed → KeyedItems items →
    (itemsText (item :: items)).length + 1 < fuel →
      readItems fuel (itemsText (item :: items) ++ ']' :: rest) = some (item :: items, rest)
  | _, _, 0, _, _, _, enough => by
      cases enough
  | item, [], fuel + 1, rest, keyed, _, enough => by
      rw [itemsText, List.length_append] at enough
      have isRead := readValue_jsonText item fuel (']' :: rest) keyed (by omega)
        (endsNumber_cons rest (by decide))
      rw [itemsText, List.isEmpty_nil, if_pos rfl, List.append_nil, readItems, isRead]
      rfl
  | item, second :: others, fuel + 1, rest, keyed, othersKeyed, enough => by
      rw [itemsText, List.isEmpty_cons, if_neg Bool.false_ne_true, List.length_append,
        List.length_cons] at enough
      have isRead := readValue_jsonText item fuel
        (',' :: (itemsText (second :: others) ++ ']' :: rest)) keyed (by omega)
        (endsNumber_cons _ (by decide))
      have areRead := readItems_itemsText second others fuel rest othersKeyed.1 othersKeyed.2
        (by omega)
      rw [itemsText, List.isEmpty_cons, if_neg Bool.false_ne_true, List.append_assoc,
        List.cons_append, readItems, isRead]
      dsimp only [Option.bind_eq_bind, Option.bind_some]
      rw [skipBlank_cons _ (by decide)]
      dsimp only
      rw [if_neg (by decide), if_pos rfl, skipBlank_itemsText, areRead]
      rfl

theorem readEntries_entriesText : ∀ (key : Text) (item : DataTree Scalar)
    (entries : List (Text × DataTree Scalar)) (fuel : Nat) (rest : Text),
    item.Keyed → KeyedEntries entries →
    (entriesText ((key, item) :: entries)).length + 1 < fuel →
      readEntries fuel (entriesText ((key, item) :: entries) ++ closeBrace :: rest) =
        some ((key, item) :: entries, rest)
  | _, _, _, 0, _, _, _, enough => by
      cases enough
  | key, item, [], fuel + 1, rest, keyed, _, enough => by
      rw [entriesText, List.length_append, List.length_append, List.length_cons] at enough
      have isRead := readValue_jsonText item fuel (closeBrace :: rest) keyed (by omega)
        (endsNumber_cons rest (by decide))
      rw [entriesText_append, List.isEmpty_nil, if_pos rfl, List.nil_append, readEntries,
        if_pos rfl, readChars_quoted]
      dsimp only [Option.bind_eq_bind, Option.bind_some]
      rw [skipBlank_cons _ (by decide), List.head?_cons, if_pos rfl, List.tail_cons,
        skipBlank_jsonText, isRead]
      rfl
  | key, item, (second, other) :: others, fuel + 1, rest, keyed, othersKeyed, enough => by
      rw [entriesText, List.isEmpty_cons, if_neg Bool.false_ne_true, List.length_append,
        List.length_append, List.length_cons, List.length_cons] at enough
      have isRead := readValue_jsonText item fuel
        (',' :: (entriesText ((second, other) :: others) ++ closeBrace :: rest)) keyed
        (by omega) (endsNumber_cons _ (by decide))
      have areRead := readEntries_entriesText second other others fuel rest othersKeyed.1
        othersKeyed.2 (by omega)
      have notBlank : skipBlank (entriesText ((second, other) :: others) ++
          closeBrace :: rest) = entriesText ((second, other) :: others) ++
          closeBrace :: rest := by
        rw [entriesText_append]
        exact skipBlank_cons _ (by decide)
      rw [entriesText_append, List.isEmpty_cons, if_neg Bool.false_ne_true, List.cons_append,
        readEntries, if_pos rfl, readChars_quoted]
      dsimp only [Option.bind_eq_bind, Option.bind_some]
      rw [skipBlank_cons _ (by decide), List.head?_cons, if_pos rfl, List.tail_cons,
        skipBlank_jsonText, isRead]
      dsimp only [Option.bind_some]
      rw [skipBlank_cons _ (by decide)]
      dsimp only
      rw [if_neg (by decide), if_pos rfl, notBlank, areRead]
      rfl

end

/-- What is written is read. -/
theorem loads_jsonText {tree : DataTree Scalar} (keyed : tree.Keyed) :
    loads (jsonText tree) = some tree := by
  have isRead := readValue_jsonText tree ((jsonText tree).length + 1) [] keyed
    (Nat.lt_succ_self _) fun char isHead => (by cases isHead)
  have notBlank := skipBlank_jsonText tree []
  rw [List.append_nil] at isRead notBlank
  unfold loads
  rw [notBlank, isRead]
  rfl

theorem jsonText_injective {tree other : DataTree Scalar} (keyed : tree.Keyed)
    (otherKeyed : other.Keyed) (same : jsonText tree = jsonText other) : tree = other := by
  have isRead := loads_jsonText keyed
  rw [same, loads_jsonText otherKeyed] at isRead
  exact (Option.some.inj isRead).symm

end ParishKit.Lib
