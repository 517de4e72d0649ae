import ParishKit.Responses.Publication

/-!
# Validated values

`validate_member_value` reads one field of the Family form and `edited_value` a
reviewer's edit. Both store a value in the shape publication encodes. A Family's
address, which no publication writes, is left out of the edits.
-/

namespace ParishKit.Responses

/-- Django's `EmailValidator`. The model uses no law of it. -/
class EmailValidator where
  valid : Text → Bool

/-- A number as the phone number metadata parses it. -/
structure ParsedNumber where
  possible : Bool
  e164 : Text
  extension : Text

/-- The phone number metadata, with the US as the national context. The model
uses no law of it. -/
class PhoneNumbers where
  parse : Text → Option ParsedNumber

def MemberField.required : MemberField → Bool
  | .firstName => true
  | .lastName => true
  | .birthDate => true
  | .gender => true
  | .language => true
  | _ => false

/-- A code of one letter, in either case, as the census word it means. -/
def genderWord : Value → Value
  | .scalar (.text value) =>
      match strip value with
      | ['M'] | ['m'] => .text ['M', 'a', 'l', 'e']
      | ['F'] | ['f'] => .text ['F', 'e', 'm', 'a', 'l', 'e']
      | ['U'] | ['u'] =>
          .text ['U', 'n', 's', 'p', 'e', 'c', 'i', 'f', 'i', 'e', 'd']
      | _ => .text value
  | value => value

def unknownDate : Text :=
  ['u', 'n', 'k', 'n', 'o', 'w', 'n']

/-- Two civil dates in their form compare as their texts. -/
def notAfter (value today : Text) : Bool :=
  decide (value ≤ today)

/-- `member_census._date`: a birth date or the explicit Unknown. -/
def birthDate (value today : Text) : Except String Value :=
  if value = unknownDate then
    .ok .null
  else if isIsoDate value && notAfter value today then
    .ok (.text value)
  else
    .error "Enter a valid birth date, or choose Unknown."

section

variable [Unicode]

/-- `clean_text` of a value of any shape. -/
def cleanValue (limit : Nat) : Value → Option Text
  | .scalar (.text value) => cleanText limit value
  | _ => none

def cleanRaw (limit : Nat) : RawValue → Option Text
  | .text value => cleanText limit value
  | _ => none

/-- `normalized_email`; `none` is its refusal. -/
def normalizedEmail [EmailValidator] (value : Text) : Option Text :=
  if value ≠ strip value ∨ value.length > 254 ∨
      EmailValidator.valid value = false then
    none
  else
    some (Unicode.lower value)

/-- The addresses of a form field, each separated by a comma or a semicolon. A
refused one leaves none. -/
def formAddresses [EmailValidator] (value : Text) : List Text :=
  (((splitEmailAddresses (value.map fun char => if char = ',' then ';' else char)
    ).mapM normalizedEmail).getD []).dedup

/-- `member_census._phone`: the recorded number unchanged, or one the metadata
knows to be complete. -/
def validPhone [PhoneNumbers] (value : Text) (source : KnownValue) :
    Except String Value :=
  match phoneRecord value with
  | none => .error "The field has no valid canonical comparison value."
  | some record =>
      if source = some (.scalar (.phone record)) then
        .ok (.scalar (.phone record))
      else
        let complete := (PhoneNumbers.parse value).any fun parsed =>
          parsed.possible && record.normalized.isSome &&
            decide (parsed.extension.length ≤ 12) &&
            record.normalized == some (parsed.e164 ++
              if parsed.extension = [] then []
              else [';', 'e', 'x', 't', '='] ++ parsed.extension)
        if complete then
          .ok (.scalar (.phone record))
        else
          .error "Enter a complete phone number; include + and country code outside the US."

/-- `validate_member_value` on the value cleaned. -/
def validateCleaned [EmailValidator] [PhoneNumbers] (field : MemberField)
    (value : Text) (source : KnownValue) (today : Text) : Except String Value :=
  if field.kind = .date then
    birthDate value today
  else if field.required = true ∧ value = [] then
    .error "Complete this field before continuing."
  else if field.choices ≠ [] ∧ value ∉ field.choices ∧
      (source = none ∨ source.bind (cleanValue field.maxLength) ≠ some value) then
    .error "Choose one of the displayed options."
  else if field = .gender ∧ source.isSome = true ∧ source ≠ some (.text value) ∧
      source.map genderWord = some (.text value) then
    -- The Family kept the decoded record: its own code is stored.
    .ok (match source.bind (cleanValue field.maxLength) with
      | none => .null
      | some code => .text code)
  else if field.kind = .phone ∧ value ≠ [] then
    validPhone value source
  else if field.kind = .email ∧ value ≠ [] then
    let addresses := formAddresses value
    if addresses = [] then
      .error "Enter valid email addresses or leave this field blank."
    else if (joinEmails addresses).length > field.maxLength then
      .error "Enter fewer email addresses within the displayed length limit."
    else
      .ok (.text (joinEmails addresses))
  else if field.required = false ∧ value = [] ∧
      (source = none ∨ source = some .null) then
    .ok .null
  else
    .ok (.text value)

/-- `validate_member_value`. -/
def validateMemberValue [EmailValidator] [PhoneNumbers] (field : MemberField)
    (raw : RawValue) (source : KnownValue) (today : Text) : Except String Value :=
  match cleanRaw field.maxLength raw with
  | none => .error "Enter a valid value within the displayed length limit."
  | some value =>
      if breaksLine value then
        .error "Enter a valid value within the displayed length limit."
      else
        validateCleaned field value source today

/-! ## A reviewer's edit -/

def blankEdit : String :=
  "Enter the value to use. To leave ParishSoft as it is, choose Ignore."

/-- The form's messages in the words of an edit. -/
def editWording : String → String
  | "Complete this field before continuing." => blankEdit
  | "Enter valid email addresses or leave this field blank." =>
      "Enter valid email addresses, separated by commas or semicolons."
  | message => message

/-- `census_review._civil_date`. -/
def editedDate (value today : Text) : Except String Value :=
  if isIsoDate value && notAfter value today then
    .ok (.text value)
  else
    .error "Enter a whole date no later than today."

/-- The value of an edit, before it is held to what publication sends. -/
def readEdit [EmailValidator] [PhoneNumbers] (field : Field) (raw today : Text) :
    Except String Value :=
  match field with
  | .member member =>
      if member.kind = .date then
        editedDate (strip raw) today
      else
        (validateMemberValue member (.text raw) none today).mapError editWording
  | .request .deathDate => editedDate (strip raw) today
  | _ => .error "This census change cannot take an edited value."

/-- What an automatic edit must be to be sent, and what is said when it is not. -/
def sendRefusal (field : Field) (provider : String) (value : Value) :
    Option String :=
  match value with
  | .member _ => none
  | .scalar value =>
      let encoded := encodeMemberValue field.kind value
      if sendable provider encoded then
        none
      else
        match encoded, (putSchema provider).bind Prod.snd with
        | .text text, some maximum =>
            if text.length > maximum then
              some s!"ParishSoft takes at most {maximum} characters in this field."
            else
              some "Enter the whole phone number, with its area code."
        | _, _ => some "Enter the whole phone number, with its area code."

/-- `edited_value` of a Member's field. -/
def editedValue [EmailValidator] [PhoneNumbers] (field : Field) (raw : RawValue)
    (today : Text) (handling : Handling) : Except String Value :=
  let known := (capability .member field).getD ⟨.manual, none⟩
  match raw with
  | .text raw =>
      if handling = .api ∧ known.handling ≠ .api then
        .error "This census change cannot take an edited value."
      else do
        let value ← readEdit field raw today
        if clearsValue value then
          .error blankEdit
        else if handling = .api ∧ field.kind ≠ .enum then
          match known.providerField.bind fun provider =>
              sendRefusal field provider value with
          | some refusal => .error refusal
          | none => .ok value
        else
          .ok value
  | _ => .error "This census change cannot take an edited value."

/-- A value the form or a reviewer's edit stored for the field. -/
inductive Accepted [EmailValidator] [PhoneNumbers] (field : Field) (value : Value) :
    Prop where
  | answered {member : MemberField} (ofMember : field = .member member)
      (raw : RawValue) (source : KnownValue) (today : Text)
      (validated : validateMemberValue member raw source today = .ok value)
  | edited (raw : RawValue) (today : Text) (handling : Handling)
      (validated : editedValue field raw today handling = .ok value)

end

end ParishKit.Responses
