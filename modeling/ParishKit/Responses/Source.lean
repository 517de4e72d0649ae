import Mathlib.Data.List.Sort
import ParishKit.Responses.Merge

/-!
# Census values of the ParishSoft source

One retained snapshot holds Member and contact records. A census field is read
from them as a known value, as unavailable, or not at all when the retained text
cannot supply the field.
-/

namespace ParishKit.Responses

/-- A JSON value of a retained record: null, text, or a shape no census field
takes. -/
inductive RawValue where
  | null
  | text (value : Text)
  | other
deriving DecidableEq, Repr

structure SourceMember where
  memberDUID : Nat
  familyKey : String
  active : Bool
  deceased : Bool
  payload : String → Option RawValue

structure SourceContact where
  ownerKind : String
  ownerKey : String
  available : List String
  emails : List Text
  phones : String → Option RawValue

/-- The records of one promoted snapshot, by their source keys. -/
structure Corpus where
  member : String → Option SourceMember
  contact : String → Option SourceContact

/-! ## Field definitions -/

/-- One server-owned field with its source name and bounds. -/
structure CensusField where
  name : Field
  sourceName : String
  kind : ValueKind
  maxLength : Nat
  choices : List Text

def genders : List Text :=
  [['M', 'a', 'l', 'e'], ['F', 'e', 'm', 'a', 'l', 'e'],
    ['U', 'n', 's', 'p', 'e', 'c', 'i', 'f', 'i', 'e', 'd']]

def maritalStatuses : List Text :=
  [[], ['A', 'n', 'n', 'u', 'l', 'l', 'e', 'd'],
    ['D', 'i', 'v', 'o', 'r', 'c', 'e', 'd'],
    ['M', 'a', 'r', 'r', 'i', 'e', 'd'],
    ['S', 'i', 'n', 'g', 'l', 'e'],
    ['S', 'e', 'p', 'a', 'r', 'a', 't', 'e', 'd'],
    ['W', 'i', 'd', 'o', 'w', 'e', 'd']]

def MemberField.sourceName : MemberField → String
  | .namePrefix => "salutation"
  | .firstName => "firstName"
  | .middleName => "middleName"
  | .lastName => "lastName"
  | .nameSuffix => "suffix"
  | .nickname => "nickName"
  | .maidenName => "maidenName"
  | .birthDate => "birthdate"
  | .gender => "sex"
  | .email => "email"
  | .homePhone => "home"
  | .mobilePhone => "mobile"
  | .workPhone => "work"
  | .maritalStatus => "maritalStatus"
  | .language => "language"

def MemberField.maxLength : MemberField → Nat
  | .birthDate => 10
  | .email => 254
  | _ => 100

def MemberField.choices : MemberField → List Text
  | .gender => genders
  | .maritalStatus => maritalStatuses
  | _ => []

def MemberField.definition (field : MemberField) : CensusField :=
  ⟨.member field, field.sourceName, field.kind, field.maxLength, field.choices⟩

def RequestField.definition : RequestField → CensusField
  | .movedHousehold => ⟨.request .movedHousehold, "", .boolean, 100, []⟩
  | .deceasedStatus =>
      ⟨.request .deceasedStatus, "deceased", .boolean, 100, []⟩
  | .deathDate => ⟨.request .deathDate, "dateOfDeath", .date, 10, []⟩

/-- The definition of a field that belongs to a Member record. -/
def Field.definition? : Field → Option CensusField
  | .member field => some field.definition
  | .request field => some field.definition
  | .family _ => none
  | .newMember => none

theorem definition_kind
    {field : Field} {definition : CensusField}
    (found : field.definition? = some definition) :
    definition.kind = field.kind := by
  cases field with
  | member field =>
      cases found
      rfl
  | request field =>
      cases found
      cases field <;> rfl
  | family field => cases found
  | newMember => cases found

/-! ## Reading a field -/

/-- The exceptions reading or comparing a response can raise. -/
inductive ResponseError where
  | storageInvariant
  | comparisonValue
  | formInputsUnavailable
  | memberSourceUnavailable
deriving DecidableEq, Repr

def orRaise {α : Type} (error : ResponseError) :
    Option α → Except ResponseError α
  | none => .error error
  | some value => .ok value

theorem orRaise_eq_ok
    {α : Type} {error : ResponseError} {computed : Option α} {value : α}
    (succeeds : orRaise error computed = .ok value) :
    computed = some value := by
  cases computed with
  | none => cases succeeds
  | some found => exact congrArg some (Except.ok.inj succeeds)

section Source

variable [Unicode]

/-- Bounded text without control characters, normalized and stripped. -/
def cleanText (limit : Nat) (value : Text) : Option Text :=
  let controlled := value.any fun char =>
    (char.toNat < 32 && !(['\n', '\r', '\t'].contains char)) ||
      char.toNat == 127
  if value.length > limit || controlled then
    none
  else
    let normalized := strip (Unicode.nfc value)
    if normalized.length ≤ limit then some normalized else none

/-- The line breaks and tabs no one-line field may hold. -/
def breaksLine (value : Text) : Bool :=
  value.any fun char =>
    ['\n', '\r', '\t'].contains char || char.toNat == 0x85 ||
      char.toNat == 0x2028 || char.toNat == 0x2029

/-- `source_value`: the retained value in its census shape. -/
def sourceValue (field : CensusField) :
    RawValue → Except ResponseError Value
  | .null => .ok .null
  | .other => .error .memberSourceUnavailable
  | .text value =>
      match cleanText field.maxLength value,
          canonicalValue field.kind (.text value) with
      | some cleaned, some _ =>
          if breaksLine cleaned then
            .error .memberSourceUnavailable
          else if field.kind = .phone then
            if value = [] then
              .ok (.text [])
            else
              (fun record => .scalar (.phone record)) <$>
                orRaise .comparisonValue (phoneRecord value)
          else
            .ok (.text ((field.choices.find? fun choice =>
              decide (Unicode.casefold (strip value) =
                Unicode.casefold choice)).getD value))
      | _, _ => .error .memberSourceUnavailable

/-- Email addresses in code point order, joined for display. -/
def joinEmails (emails : List Text) : Text :=
  List.intercalate [',', ' '] (emails.insertionSort fun left right => left ≤ right)

/-- `member_field_value`: one Member's field from its records. -/
def memberFieldValue (member : SourceMember) (contact : Option SourceContact)
    (field : CensusField) : Except ResponseError KnownValue :=
  if field.name = .request .movedHousehold ∨
      field.name = .request .deceasedStatus then
    .ok (some (.boolean false))
  else if contact.any fun owned =>
      owned.ownerKind != "member" ||
        owned.ownerKey != toString member.memberDUID then
    .error .formInputsUnavailable
  else if field.name = .member .email then
    match contact with
    | none => .ok none
    | some owned =>
        if owned.available.contains "email" then
          some <$> sourceValue field (.text (joinEmails owned.emails))
        else
          .ok none
  else if field.kind = .phone then
    match contact with
    | none => .ok none
    | some owned =>
        if owned.available.contains field.sourceName then
          some <$> sourceValue field
            ((owned.phones field.sourceName).getD .null)
        else
          .ok none
  else
    match member.payload field.sourceName with
    | none => .ok none
    | some raw => some <$> sourceValue field raw

end Source

/-- No verified source read exists for household fields. -/
def familyFieldValue (_field : FamilyField) : KnownValue :=
  none

end ParishKit.Responses
