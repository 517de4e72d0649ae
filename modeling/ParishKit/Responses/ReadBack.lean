import ParishKit.Responses.AnswerValidation
import ParishKit.Responses.TextLaws

/-!
# Values read back as they were written

The shapes in which an accepted value is stored, and that decoding its encoded
form gives the value itself.
-/

namespace ParishKit.Responses

open ParishKit.Lib

/-- The runtime reads a civil date as itself. -/
class LawfulIsoDates [IsoDates] : Prop where
  civilDate_of_isIsoDate : ∀ value, isIsoDate value = true →
    IsoDates.civilDate value = some value

/-! ## Email addresses -/

/-- The addresses kept by `split_email_addresses` after some others. -/
def keepAddress (addresses : List Text) (email : Text) : List Text :=
  if email = [] ∨ email ∈ addresses then addresses else addresses ++ [email]

theorem mem_foldl_keepAddress
    {items kept : List Text} {email : Text}
    (member : email ∈ items.foldl keepAddress kept) :
    email ∈ kept ∨ email ∈ items ∧ email ≠ [] := by
  induction items generalizing kept with
  | nil => exact Or.inl member
  | cons head tail inductionHypothesis =>
      rcases inductionHypothesis member with isKept | ⟨later, nonblank⟩
      · unfold keepAddress at isKept
        split at isKept
        · exact Or.inl isKept
        · rename_i fresh
          rcases List.mem_append.mp isKept with before | isHead
          · exact Or.inl before
          · rw [List.mem_singleton.mp isHead]
            exact Or.inr ⟨List.mem_cons_self, fun blank => fresh (Or.inl blank)⟩
      · exact Or.inr ⟨List.mem_cons_of_mem _ later, nonblank⟩

/-- Different addresses are all kept. -/
theorem foldl_keepAddress_of_nodup
    {items kept : List Text} (distinct : (kept ++ items).Nodup)
    (nonblank : ∀ email ∈ items, email ≠ []) :
    items.foldl keepAddress kept = kept ++ items := by
  induction items generalizing kept with
  | nil => exact (List.append_nil kept).symm
  | cons head tail inductionHypothesis =>
      have fresh : head ∉ kept := fun member =>
        (List.disjoint_of_nodup_append distinct) member List.mem_cons_self
      have appended : keepAddress kept head = kept ++ [head] :=
        if_neg (not_or.mpr ⟨nonblank head List.mem_cons_self, fresh⟩)
      have regrouped : kept ++ head :: tail = kept ++ [head] ++ tail := by simp
      rw [List.foldl_cons, appended, regrouped]
      exact inductionHypothesis (regrouped ▸ distinct) fun email member =>
        nonblank email (List.mem_cons_of_mem _ member)

/-- A part of the form's text between its separators is a part of the text. -/
theorem infix_of_form_part
    {value part : Text}
    (member : part ∈
      (value.map fun char => if char = ',' then ';' else char).splitOn ';') :
    part <:+: value ∧ ',' ∉ part ∧ ';' ∉ part := by
  obtain ⟨⟨before, after, inMapped⟩, noSemicolon⟩ := piece_of_splitOn member
  obtain ⟨front, last, split, isFront, _⟩ := List.map_eq_append_iff.mp inMapped.symm
  obtain ⟨first, middle, splitFront, _, isPart⟩ := List.map_eq_append_iff.mp isFront
  have unchanged : ∀ char ∈ middle, char ≠ ',' := by
    rintro char inMiddle rfl
    refine noSemicolon ?_
    rw [← isPart]
    exact List.mem_map.mpr ⟨',', inMiddle, rfl⟩
  have same : middle = part := by
    rw [← isPart]
    symm
    refine (List.map_congr_left fun char inMiddle => ?_).trans (List.map_id _)
    exact if_neg (unchanged char inMiddle)
  subst same
  refine ⟨⟨first, last, ?_⟩, fun comma => unchanged ',' comma rfl, noSemicolon⟩
  rw [split, splitFront]

section

variable [Unicode]

/-- An address as the form stores it. -/
structure MailAddress (email : Text) : Prop where
  nonblank : email ≠ []
  stripped : strip email = email
  lowered : Unicode.lower email = email
  noComma : ',' ∉ email
  noSemicolon : ';' ∉ email
  unreserved : ∀ char ∈ email, isReserved char = false
  normalBounded : (Unicode.nfc email).length ≤ email.length

theorem splitEmailAddresses_eq (value : Text) :
    splitEmailAddresses value =
      ((value.splitOn ';').map fun part => Unicode.lower (strip part)).foldl
        keepAddress [] :=
  rfl

variable [LawfulUnicode]

theorem mailAddress_of_part
    {limit : Nat} {value part : Text} (clean : CleanLine limit value)
    (inside : part <:+: value) (noComma : ',' ∉ part) (noSemicolon : ';' ∉ part)
    (nonblank : Unicode.lower (strip part) ≠ [])
    (stripped : strip (Unicode.lower (strip part)) = Unicode.lower (strip part)) :
    MailAddress (Unicode.lower (strip part)) := by
  have inPart : ∀ char,
      (isReserved char || char == ',' || char == ';') = true →
      char ∈ Unicode.lower (strip part) → char ∈ part := fun char special member =>
    mem_of_mem_strip (LawfulUnicode.lower_reserved _ char special member)
  refine ⟨nonblank, stripped, LawfulUnicode.lower_lower _,
    fun comma => noComma (inPart ',' (by decide) comma),
    fun semicolon => noSemicolon (inPart ';' (by decide) semicolon),
    fun char member => ?_, ?_⟩
  · by_contra reserved
    rw [Bool.not_eq_false] at reserved
    have inValue := inside.subset
      (inPart char (by simp [reserved]) member)
    rw [clean.unreserved char inValue] at reserved
    cases reserved
  · refine LawfulUnicode.nfc_lower _ ?_
    exact LawfulUnicode.nfc_infix _ value ((trim_isInfix part).trans inside)
      clean.normal

/-- Every address the form accepts is stored in its final shape. -/
theorem mailAddress_of_formAddresses [EmailValidator]
    {limit : Nat} {value email : Text} (clean : CleanLine limit value)
    (member : email ∈ formAddresses value) : MailAddress email := by
  have inAddresses := List.mem_dedup.mp member
  cases mapped : (splitEmailAddresses (value.map fun char =>
      if char = ',' then ';' else char)).mapM normalizedEmail with
  | none =>
      rw [mapped] at inAddresses
      cases inAddresses
  | some emails =>
      rw [mapped, Option.getD_some] at inAddresses
      obtain ⟨found, isFound, normalized⟩ :=
        exists_input_of_forall₂ (option_mapM_eq_some mapped) inAddresses
      unfold normalizedEmail at normalized
      split at normalized <;> cases normalized
      rename_i checked
      simp only [not_or, not_not] at checked
      rw [splitEmailAddresses_eq] at isFound
      rcases mem_foldl_keepAddress isFound with none' | ⟨isPart, nonblank⟩
      · cases none'
      · obtain ⟨part, inParts, rfl⟩ := List.mem_map.mp isPart
        obtain ⟨inside, noComma, noSemicolon⟩ := infix_of_form_part inParts
        rw [LawfulUnicode.lower_lower]
        exact mailAddress_of_part clean inside noComma noSemicolon nonblank
          checked.1.symm

/-! ## Joined addresses -/

omit [LawfulUnicode] in
/-- Final addresses joined for the provider are split into themselves. -/
theorem splitEmailAddresses_joined
    {addresses : List Text} (each : ∀ email ∈ addresses, MailAddress email)
    (distinct : addresses.Nodup) (nonempty : addresses ≠ []) :
    splitEmailAddresses ([';', ' '].intercalate addresses) = addresses := by
  have parts : (([';', ' '].intercalate addresses).splitOn ';').map strip =
      addresses :=
    split_joined (by decide) (by decide)
      (fun email member => (each email member).noSemicolon)
      (fun email member => (each email member).stripped) nonempty
  have lowered : addresses.map Unicode.lower = addresses :=
    (List.map_congr_left fun email member => (each email member).lowered).trans
      (List.map_id _)
  change (((([';', ' '].intercalate addresses).splitOn ';').map
    (Unicode.lower ∘ strip)).foldl keepAddress []) = addresses
  rw [← List.map_map, parts, lowered]
  exact foldl_keepAddress_of_nodup (by simpa using distinct)
    fun email member => (each email member).nonblank

/-- The order in which addresses are joined. -/
def inOrder (addresses : List Text) : List Text :=
  addresses.insertionSort fun left right => left ≤ right

omit [Unicode] [LawfulUnicode] in
theorem joinEmails_inOrder (addresses : List Text) :
    joinEmails (inOrder addresses) = joinEmails addresses := by
  unfold joinEmails inOrder
  rw [(List.pairwise_insertionSort _ addresses).insertionSort_eq]

omit [Unicode] [LawfulUnicode] in
theorem inOrder_ne_nil
    {addresses : List Text} (nonempty : addresses ≠ []) :
    inOrder addresses ≠ [] := by
  rw [← List.length_pos_iff_ne_nil, inOrder, List.length_insertionSort]
  exact List.length_pos_iff_ne_nil.mpr nonempty

omit [LawfulUnicode] in
/-- The provider's form of addresses joined for display. -/
theorem encode_joinEmails
    {addresses : List Text} (each : ∀ email ∈ addresses, MailAddress email)
    (nonempty : addresses ≠ []) (nonblank : joinEmails addresses ≠ []) :
    encodeMemberValue .email (.text (joinEmails addresses)) =
      .text ([';', ' '].intercalate (inOrder addresses)) := by
  have eachOrdered : ∀ email ∈ inOrder addresses, MailAddress email :=
    fun email member => each email ((List.mem_insertionSort _).mp member)
  have parts : ((joinEmails addresses).splitOn ',').map strip =
      inOrder addresses :=
    split_joined (by decide) (by decide)
      (fun email member => (eachOrdered email member).noComma)
      (fun email member => (eachOrdered email member).stripped)
      (inOrder_ne_nil nonempty)
  have allKept : ((inOrder addresses).filter fun part => part ≠ []) =
      inOrder addresses :=
    List.filter_eq_self.mpr fun email member =>
      decide_eq_true (eachOrdered email member).nonblank
  rw [encodeMemberValue, if_pos ⟨rfl, nonblank⟩, parts, allKept]

omit [LawfulUnicode] in
theorem splitEmailAddresses_inOrder
    {addresses : List Text} (each : ∀ email ∈ addresses, MailAddress email)
    (distinct : addresses.Nodup) (nonempty : addresses ≠ []) :
    splitEmailAddresses ([';', ' '].intercalate (inOrder addresses)) =
      inOrder addresses :=
  splitEmailAddresses_joined
    (fun email member => each email ((List.mem_insertionSort _).mp member))
    ((List.perm_insertionSort _ _).nodup_iff.mpr distinct)
    (inOrder_ne_nil nonempty)

omit [LawfulUnicode] in
theorem joinEmails_unreserved
    {addresses : List Text} (each : ∀ email ∈ addresses, MailAddress email) :
    ∀ char ∈ joinEmails addresses, isReserved char = false := by
  intro char member
  rcases mem_intercalate member with between | ⟨email, isEmail, inEmail⟩
  · simp only [List.mem_cons, List.not_mem_nil, or_false] at between
    rcases between with rfl | rfl <;> decide
  · exact (each email ((List.mem_insertionSort _).mp isEmail)).unreserved char
      inEmail

theorem length_nfc_joinEmails_le
    {addresses : List Text} (each : ∀ email ∈ addresses, MailAddress email) :
    (Unicode.nfc (joinEmails addresses)).length ≤ (joinEmails addresses).length := by
  unfold joinEmails
  rw [nfc_intercalate]
  exact length_intercalate_le fun email member =>
    (each email ((List.mem_insertionSort _).mp member)).normalBounded

/-! ## Stored values -/

/-- The shapes in which a field the API writes is stored, when it is not blank. -/
inductive Stored (field : MemberField) : Scalar → Prop where
  | line {value : Text} (kind : field.kind = .text)
      (clean : CleanLine field.maxLength value) : Stored field (.text value)
  | date {value : Text} (kind : field.kind = .date)
      (civil : isIsoDate value = true) : Stored field (.text value)
  | phone {display : Text} {record : PhoneRecord} (kind : field.kind = .phone)
      (clean : CleanLine field.maxLength display) (nonblank : display ≠ [])
      (recorded : phoneRecord display = some record) :
      Stored field (.phone record)
  | emails {addresses : List Text} (kind : field.kind = .email)
      (each : ∀ email ∈ addresses, MailAddress email)
      (distinct : addresses.Nodup) (nonempty : addresses ≠ [])
      (bounded : (joinEmails addresses).length ≤ field.maxLength) :
      Stored field (.text (joinEmails addresses))

omit [Unicode] [LawfulUnicode] in
theorem birthDate_eq_ok
    {value today : Text} {result : Value}
    (validated : birthDate value today = .ok result) :
    result = .null ∨ result = .text value ∧ isIsoDate value = true := by
  unfold birthDate at validated
  split at validated
  · cases validated
    exact Or.inl rfl
  · split at validated <;> cases validated
    rename_i civil
    rw [Bool.and_eq_true] at civil
    exact Or.inr ⟨rfl, civil.1⟩

omit [Unicode] [LawfulUnicode] in
theorem editedDate_eq_ok
    {value today : Text} {result : Value}
    (validated : editedDate value today = .ok result) :
    result = .text value ∧ isIsoDate value = true := by
  unfold editedDate at validated
  split at validated <;> cases validated
  rename_i civil
  rw [Bool.and_eq_true] at civil
  exact ⟨rfl, civil.1⟩

omit [LawfulUnicode] in
theorem validPhone_eq_ok [PhoneNumbers]
    {value : Text} {source : KnownValue} {result : Value}
    (validated : validPhone value source = .ok result) :
    ∃ record, phoneRecord value = some record ∧
      result = .scalar (.phone record) := by
  unfold validPhone at validated
  split at validated
  · cases validated
  · rename_i record recorded
    dsimp only at validated
    split at validated
    · cases validated
      exact ⟨record, recorded, rfl⟩
    · split at validated <;> cases validated
      exact ⟨record, recorded, rfl⟩

omit [Unicode] [LawfulUnicode] in
/-- A field the API writes offers no choices, and is no gender. -/
theorem choices_of_api
    {field : MemberField} (api : field.capability.handling = .api) :
    field.choices = [] ∧ field ≠ .gender ∧ field.kind ≠ .enum := by
  cases field <;> first | exact ⟨rfl, nofun, nofun⟩ | cases api

omit [Unicode] [LawfulUnicode] in
theorem member_kind_cases (field : MemberField) :
    field.kind = .text ∨ field.kind = .date ∨ field.kind = .enum ∨
      field.kind = .phone ∨ field.kind = .email := by
  cases field <;> decide

theorem stored_of_validateMemberValue [EmailValidator] [PhoneNumbers]
    {field : MemberField} {raw : RawValue} {source : KnownValue} {today : Text}
    {value : Value} (api : field.capability.handling = .api)
    (validated : validateMemberValue field raw source today = .ok value)
    (nonblank : clearsValue value = false) :
    ∃ scalar, value = .scalar scalar ∧ Stored field scalar := by
  obtain ⟨noChoices, notGender, notEnum⟩ := choices_of_api api
  unfold validateMemberValue at validated
  split at validated
  · cases validated
  rename_i line read
  split at validated
  · cases validated
  rename_i unbroken
  have clean : CleanLine field.maxLength line := by
    cases raw with
    | null => cases read
    | other => cases read
    | text raw => exact cleanLine_of_cleanText read (by simpa using unbroken)
  unfold validateCleaned at validated
  split at validated
  · rename_i kind
    rcases birthDate_eq_ok validated with rfl | ⟨rfl, civil⟩
    · cases nonblank
    · exact ⟨_, rfl, .date kind civil⟩
  rename_i notDate
  split at validated
  · cases validated
  split at validated
  · rename_i offered
    exact absurd noChoices offered.1
  split at validated
  · rename_i decoded
    exact absurd decoded.1 notGender
  split at validated
  · rename_i phone
    obtain ⟨record, recorded, rfl⟩ := validPhone_eq_ok validated
    exact ⟨_, rfl, .phone phone.1 clean phone.2 recorded⟩
  rename_i notPhone
  split at validated
  · rename_i email
    dsimp only at validated
    split at validated
    · cases validated
    rename_i nonempty
    split at validated <;> cases validated
    rename_i bounded
    exact ⟨_, rfl, .emails email.1
      (fun address member => mailAddress_of_formAddresses clean member)
      (List.nodup_dedup _) nonempty (Nat.le_of_not_lt bounded)⟩
  rename_i notEmail
  split at validated
  · cases validated
    cases nonblank
  · cases validated
    have given : line ≠ [] := by
      rintro rfl
      cases nonblank
    have isText : field.kind = .text := by
      rcases member_kind_cases field with kind | kind | kind | kind | kind
      · exact kind
      · exact absurd kind notDate
      · exact absurd kind notEnum
      · exact absurd ⟨kind, given⟩ notPhone
      · exact absurd ⟨kind, given⟩ notEmail
    exact ⟨_, rfl, .line isText clean⟩

omit [LawfulUnicode] in
/-- An accepted edit is what was read, or is refused. -/
theorem readEdit_of_editedValue [EmailValidator] [PhoneNumbers]
    {field : Field} {raw : RawValue} {today : Text} {handling : Handling}
    {value : Value} (validated : editedValue field raw today handling = .ok value) :
    ∃ text, readEdit field text today = .ok value := by
  unfold editedValue at validated
  dsimp only at validated
  split at validated
  · rename_i text
    split at validated
    · cases validated
    · obtain ⟨read, isRead, checked⟩ := except_bind_eq_ok validated
      refine ⟨text, ?_⟩
      split at checked
      · cases checked
      split at checked
      · split at checked <;> cases checked
        exact isRead
      · cases checked
        exact isRead
  · cases validated

theorem stored_of_accepted [EmailValidator] [PhoneNumbers]
    {field : MemberField} {value : Value}
    (api : field.capability.handling = .api)
    (accepted : Accepted (.member field) value)
    (nonblank : clearsValue value = false) :
    ∃ scalar, value = .scalar scalar ∧ Stored field scalar := by
  cases accepted with
  | answered ofMember raw source today validated =>
      cases ofMember
      exact stored_of_validateMemberValue api validated nonblank
  | edited raw today handling validated =>
      obtain ⟨text, read⟩ := readEdit_of_editedValue validated
      unfold readEdit at read
      dsimp only at read
      split at read
      · rename_i kind
        obtain ⟨rfl, civil⟩ := editedDate_eq_ok read
        exact ⟨_, rfl, .date kind civil⟩
      · cases answer : validateMemberValue field (.text text) none today with
        | error message =>
            rw [answer] at read
            cases read
        | ok found =>
            rw [answer] at read
            cases read
            exact stored_of_validateMemberValue api answer nonblank

/-! ## Reading back -/

omit [LawfulUnicode] in
theorem sourceValue_text
    {definition : CensusField} {value cleaned : Text}
    (noChoices : definition.choices = []) (notPhone : definition.kind ≠ .phone)
    (read : cleanText definition.maxLength value = some cleaned ∧
      breaksLine cleaned = false)
    (comparable : (canonicalValue definition.kind (.text value)).isSome = true) :
    sourceValue definition (.text value) = .ok (.text value) := by
  obtain ⟨key, isKey⟩ := Option.isSome_iff_exists.mp comparable
  unfold sourceValue
  dsimp only
  rw [read.1, isKey]
  dsimp only
  rw [read.2, if_neg (by simp), if_neg notPhone, noChoices, List.find?_nil,
    Option.getD_none]

omit [Unicode] [LawfulUnicode] in
/-- The characters of a civil date are digits and two dashes. -/
theorem isIsoDate_ascii
    {value : Text} (civil : isIsoDate value = true) :
    value.length = 10 ∧ ∀ char ∈ value, char.toNat < 128 ∧
      isReserved char = false := by
  have plain : ∀ char : Char, isDigit char = true →
      char.toNat < 128 ∧ isReserved char = false := by
    intro char digit
    simp only [isDigit, Bool.and_eq_true, decide_eq_true_eq] at digit
    simp only [isReserved, Bool.or_eq_false_iff, decide_eq_false_iff_not,
      beq_eq_false_iff_ne]
    omega
  have dash : ('-' : Char).toNat < 128 ∧ isReserved '-' = false := by decide
  unfold isIsoDate at civil
  split at civil
  · simp only [List.all_cons, List.all_nil, Bool.and_true, Bool.and_eq_true] at civil
    obtain ⟨⟨⟨⟨⟨⟨y1, y2, y3, y4, m1, m2, d1, d2⟩, _⟩, _⟩, _⟩, _⟩, _⟩ := civil
    refine ⟨rfl, ?_⟩
    simp only [List.forall_mem_cons]
    exact ⟨plain _ y1, plain _ y2, plain _ y3, plain _ y4, dash, plain _ m1,
      plain _ m2, dash, plain _ d1, plain _ d2,
      fun _ member => absurd member List.not_mem_nil⟩
  · cases civil

omit [LawfulUnicode] in
/-- A phone's stored record is that of its own display text. -/
theorem phoneRecord_display
    {limit : Nat} {display : Text} {record : PhoneRecord}
    (clean : CleanLine limit display) (small : limit ≤ 8192)
    (recorded : phoneRecord display = some record) : record.display = display := by
  unfold phoneRecord at recorded
  rw [clean.normalizeText_eq small] at recorded
  simp only [Option.bind_eq_bind, Option.bind_some, Option.bind_eq_some_iff] at recorded
  obtain ⟨key, _, isRecord⟩ := recorded
  split at isRecord <;> cases isRecord <;> rfl

omit [LawfulUnicode] in
theorem CleanLine.phoneKey_isSome
    {limit : Nat} {display : Text} (clean : CleanLine limit display)
    (small : limit ≤ 256) :
    (canonicalValue .phone (.text display)).isSome = true := by
  have short := clean.bounded.trans small
  simp only [canonicalValue, canonicalScalar, phoneKey, Option.bind_eq_bind,
    clean.normalizeText_eq (small.trans (by decide)), Option.bind_some]
  rw [if_neg (Nat.not_lt.mpr short)]
  rfl

/-- What publication writes of a stored value reads back as that value. -/
theorem decode_encode [IsoDates] [LawfulIsoDates]
    {field : MemberField} {value : Scalar} {encoded : Text}
    (api : field.capability.handling = .api) (stored : Stored field value)
    (encodes : encodeMemberValue field.kind value = .text encoded)
    (nonblank : encoded ≠ []) :
    decodeMemberValue field.definition (.text encoded) = some (.scalar value) := by
  have noChoices : field.definition.choices = [] := (choices_of_api api).1
  have small : field.maxLength ≤ 254 := by cases field <;> decide
  have kindOf : field.definition.kind = field.kind := rfl
  cases stored with
  | line kind clean =>
      rw [kind] at encodes
      cases encodes
      have comparable :
          (canonicalValue field.definition.kind (.text encoded)).isSome = true := by
        change (canonicalValue field.kind _).isSome = true
        simp only [kind, canonicalValue, canonicalScalar,
          clean.normalizeText_eq (small.trans (by decide))]
        rfl
      have read := sourceValue_text noChoices (by simp [kindOf, kind])
        clean.cleanText_eq comparable
      unfold decodeMemberValue
      rw [kindOf, kind]
      change (sourceValue field.definition (.text encoded)).toOption = _
      rw [read]
      rfl
  | date kind civil =>
      rw [kind] at encodes
      cases encodes
      obtain ⟨ten, ascii⟩ := isIsoDate_ascii civil
      have normal : Unicode.nfc encoded = encoded :=
        LawfulUnicode.nfc_ascii encoded fun char member => (ascii char member).1
      have bounded : encoded.length ≤ field.definition.maxLength := by
        rw [ten]
        change 10 ≤ field.maxLength
        cases field <;> decide
      have cleaned := cleanText_of_unreserved bounded
        (fun char member => (ascii char member).2) (normal.symm ▸ bounded)
      have comparable :
          (canonicalValue field.definition.kind (.text encoded)).isSome = true := by
        simp only [kindOf, kind, canonicalValue, canonicalScalar, if_pos civil]
        rfl
      have read := sourceValue_text noChoices (by simp [kindOf, kind]) cleaned
        comparable
      have civilDate : readCivilDate (.text encoded) = some (.text encoded) := by
        cases encoded with
        | nil => cases ten
        | cons first rest =>
            unfold readCivilDate
            dsimp only
            rw [if_neg (by omega), LawfulIsoDates.civilDate_of_isIsoDate _ civil]
            rfl
      unfold decodeMemberValue
      rw [kindOf, kind]
      change ((readCivilDate (.text encoded)).bind fun raw =>
        (sourceValue field.definition raw).toOption) = _
      rw [civilDate, Option.bind_some, read]
      rfl
  | @phone display record kind clean given recorded =>
      rw [kind, encodeMemberValue, if_pos rfl] at encodes
      cases encodes
      have same := phoneRecord_display clean (small.trans (by decide)) recorded
      have comparable := clean.phoneKey_isSome (small.trans (by decide))
      obtain ⟨key, isKey⟩ := Option.isSome_iff_exists.mp comparable
      have read : sourceValue field.definition (.text display) =
          .ok (.scalar (.phone record)) := by
        unfold sourceValue
        dsimp only
        have lengthOf : field.definition.maxLength = field.maxLength := rfl
        rw [kindOf, kind, isKey, lengthOf, clean.cleanText_eq.1]
        dsimp only
        rw [clean.cleanText_eq.2, if_neg (by simp), if_pos rfl, if_neg given,
          recorded]
        rfl
      unfold decodeMemberValue
      rw [kindOf, kind, same]
      change (sourceValue field.definition (.text display)).toOption = _
      rw [read]
      rfl
  | @emails addresses kind each distinct nonempty bounded =>
      have given : joinEmails addresses ≠ [] := by
        intro blank
        rw [kind, encodeMemberValue, if_neg (by simp [blank])] at encodes
        cases encodes
        exact nonblank blank
      rw [kind, encode_joinEmails each nonempty given] at encodes
      cases encodes
      have split := splitEmailAddresses_inOrder each distinct nonempty
      have unreserved := joinEmails_unreserved each
      have bounds : (Unicode.nfc (joinEmails addresses)).length ≤
          field.definition.maxLength := (length_nfc_joinEmails_le each).trans bounded
      have cleaned := cleanText_of_unreserved bounded unreserved bounds
      have short : (joinEmails addresses).length ≤ 8192 :=
        bounded.trans (small.trans (by decide))
      have comparable : (canonicalValue field.definition.kind
          (.text (joinEmails addresses))).isSome = true := by
        simp only [kindOf, kind, canonicalValue, canonicalScalar,
          normalizeText_of_unreserved short unreserved]
        rfl
      have read := sourceValue_text noChoices (by simp [kindOf, kind]) cleaned
        comparable
      unfold decodeMemberValue
      rw [kindOf, kind]
      change (sourceValue field.definition (.text (joinEmails
        (splitEmailAddresses ([';', ' '].intercalate (inOrder addresses)))))
        ).toOption = _
      rw [split, joinEmails_inOrder, read]
      rfl

end

end ParishKit.Responses
