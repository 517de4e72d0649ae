import Mathlib.Data.Char
import Mathlib.Data.List.Lex
import Mathlib.Data.Fintype.Pi
import Mathlib.Logic.Relation
import ParishKit.Lib.Keyed

/-!
# Typed comparison values

The closed census fields, the JSON values a change can carry, and the canonical
key under which two of them compare equal.
-/

namespace ParishKit.Responses

/-- Text as the source sees it: a sequence of code points. -/
abbrev Text := List Char

/-- The Unicode database of the Python runtime. The model uses no law of it. -/
class Unicode where
  /-- Normalization form C. -/
  nfc : Text → Text
  /-- Full case folding. -/
  casefold : Text → Text
  /-- Lower case. -/
  lower : Text → Text

/-- The Unicode database restricted to ASCII text. -/
abbrev asciiUnicode : Unicode where
  nfc := id
  casefold := List.map Char.toLower
  lower := List.map Char.toLower

/-! ## Fields -/

inductive ValueKind where
  | text
  | email
  | phone
  | date
  | boolean
  | enum
  | address
  | member
deriving DecidableEq, Repr

inductive MemberField where
  | namePrefix
  | firstName
  | middleName
  | lastName
  | nameSuffix
  | nickname
  | maidenName
  | birthDate
  | gender
  | email
  | homePhone
  | mobilePhone
  | workPhone
  | maritalStatus
  | language
deriving DecidableEq, Repr

inductive RequestField where
  | movedHousehold
  | deceasedStatus
  | deathDate
deriving DecidableEq, Repr

inductive FamilyField where
  | homeAddress
  | mailingAddress
  | emailOptOut
deriving DecidableEq, Repr

inductive Field where
  | member (field : MemberField)
  | request (field : RequestField)
  | family (field : FamilyField)
  | newMember
deriving DecidableEq, Repr

/-- The Member fields in the order of the source's `MEMBER_FIELDS`. -/
def memberFields : List MemberField :=
  [.namePrefix, .firstName, .middleName, .lastName, .nameSuffix, .nickname,
    .maidenName, .birthDate, .gender, .email, .homePhone, .mobilePhone,
    .workPhone, .maritalStatus, .language]

instance : Fintype MemberField where
  elems := ⟨memberFields, by decide⟩
  complete := by
    intro field
    cases field <;> decide

def MemberField.kind : MemberField → ValueKind
  | .birthDate => .date
  | .gender => .enum
  | .email => .email
  | .homePhone => .phone
  | .mobilePhone => .phone
  | .workPhone => .phone
  | .maritalStatus => .enum
  | _ => .text

def RequestField.kind : RequestField → ValueKind
  | .movedHousehold => .boolean
  | .deceasedStatus => .boolean
  | .deathDate => .date

def FamilyField.kind : FamilyField → ValueKind
  | .homeAddress => .address
  | .mailingAddress => .address
  | .emailOptOut => .boolean

def Field.kind : Field → ValueKind
  | .member field => field.kind
  | .request field => field.kind
  | .family field => field.kind
  | .newMember => .member

/-! ## Values -/

/-- A postal address with its complete set of components. -/
structure Address where
  line1 : Text
  line2 : Text
  city : Text
  region : Text
  postalCode : Text
  country : Text
deriving DecidableEq, Repr

/-- The stored form of a phone number: the dialable number, when there is one,
beside what was entered. -/
structure PhoneRecord where
  normalized : Option Text
  display : Text
deriving DecidableEq, Repr

inductive Scalar where
  | null
  | boolean (value : Bool)
  | text (value : Text)
  | phone (record : PhoneRecord)
  | address (parts : Address)
deriving DecidableEq, Repr

/-- A JSON value of a change: one field's value, or a whole proposed Member. -/
inductive Value where
  | scalar (value : Scalar)
  | member (fields : MemberField → Scalar)
deriving DecidableEq

namespace Value

abbrev null : Value := .scalar .null

abbrev boolean (value : Bool) : Value := .scalar (.boolean value)

abbrev text (value : Text) : Value := .scalar (.text value)

abbrev address (parts : Address) : Value := .scalar (.address parts)

end Value

/-- A source value: `none` is a field that cannot be reconstructed, which is not
a known null. -/
abbrev KnownValue := Option Value

/-! ## Text normalization -/

/-- The code points for which Python's `str.isspace` holds. -/
def isSpace (char : Char) : Bool :=
  let code := char.toNat
  (9 ≤ code && code ≤ 13) || (28 ≤ code && code ≤ 32) || code == 0x85 ||
    code == 0xA0 || code == 0x1680 || (0x2000 ≤ code && code ≤ 0x200A) ||
    code == 0x2028 || code == 0x2029 || code == 0x202F || code == 0x205F ||
    code == 0x3000

def strip (value : Text) : Text :=
  ((value.dropWhile isSpace).reverse.dropWhile isSpace).reverse

section Canonical

variable [Unicode]

/-- The source's `_text`: bounded text without a NUL, normalized and stripped. -/
def normalizeText (value : Text) : Option Text :=
  if value.length > 8192 || value.contains '\x00' then
    none
  else
    some (strip (Unicode.nfc value))

def isDigit (char : Char) : Bool :=
  48 ≤ char.toNat && char.toNat ≤ 57

def isNumberChar (char : Char) : Bool :=
  isDigit char || [' ', '(', ')', '.', '-'].contains char

/-- The start of a telephone number: a digit, optionally after one sign or one
opening bracket. -/
def startsNumber : Text → Bool
  | '+' :: char :: _ => isDigit char
  | '(' :: char :: _ => isDigit char
  | char :: _ => isDigit char
  | [] => false

/-- The number part of a telephone text and what follows it. -/
def splitNumber (value : Text) : Option (Text × Text) :=
  if startsNumber value then
    match value with
    | [] => none
    | first :: rest =>
        some (first :: rest.takeWhile isNumberChar,
          rest.dropWhile isNumberChar)
  else
    none

/-- Strips one extension marker: `ext`, `ext.`, `x`, `#` or `;ext=`. -/
def dropExtensionMarker (value : Text) : Option Text :=
  match value with
  | '#' :: rest => some rest
  | ';' :: e :: x :: t :: '=' :: rest =>
      if ['e', 'E'].contains e && ['x', 'X'].contains x &&
          ['t', 'T'].contains t then
        some rest
      else
        none
  | char :: rest =>
      if ['x', 'X'].contains char then
        some rest
      else if ['e', 'E'].contains char then
        match rest with
        | x :: t :: tail =>
            if ['x', 'X'].contains x && ['t', 'T'].contains t then
              match tail with
              | '.' :: digits => some digits
              | digits => some digits
            else
              none
        | _ => none
      else
        none
  | [] => none

/-- The extension after a number: empty when there is none, `none` when the text
is no telephone extension. -/
def parseExtension (value : Text) : Option Text :=
  if value = [] then
    some []
  else
    match dropExtensionMarker (value.dropWhile isSpace) with
    | none => none
    | some marked =>
        let digits := marked.dropWhile isSpace
        if digits.all isDigit && 1 ≤ digits.length && digits.length ≤ 12 then
          some digits
        else
          none

inductive PhoneKey where
  | opaqueText (value : Text)
  | number (international : Bool) (digits : Text) (extension : Text)
deriving DecidableEq, Repr

/-- The telephone key of normalized text, in a US context or in none. -/
def phoneTextKey (dialingUS : Bool) (value : Text) : PhoneKey :=
  match splitNumber value with
  | none => .opaqueText value
  | some (number, rest) =>
      match parseExtension rest with
      | none => .opaqueText value
      | some extension =>
          let digits := number.filter isDigit
          if 1 ≤ digits.length && digits.length ≤ 15 then
            if number.head? = some '+' then
              .number true digits extension
            else if dialingUS && digits.length == 10 then
              .number true ('1' :: digits) extension
            else if dialingUS && digits.length == 11 &&
                digits.head? = some '1' then
              .number true digits extension
            else
              .number false digits extension
          else
            .opaqueText value

/-- The source's `_phone` on text. -/
def phoneKey (dialingUS : Bool) (value : Text) : Option PhoneKey := do
  let normalized ← normalizeText value
  if normalized.length > 256 then
    none
  else
    some (phoneTextKey dialingUS normalized)

def phoneRecord (value : Text) : Option PhoneRecord := do
  let display ← normalizeText value
  match ← phoneKey true display with
  | .number true digits extension =>
      some ⟨some ('+' :: digits ++
        if extension = [] then [] else [';', 'e', 'x', 't', '='] ++ extension),
        display⟩
  | _ => some ⟨none, display⟩

/-- The text compared for a stored phone: its dialable number when it has one. -/
def PhoneRecord.compared (record : PhoneRecord) : Text :=
  match record.normalized with
  | some (first :: rest) => first :: rest
  | _ => record.display

def daysInMonth (year month : Nat) : Nat :=
  if month = 2 then
    if year % 4 = 0 ∧ (year % 100 ≠ 0 ∨ year % 400 = 0) then 29 else 28
  else if month = 4 ∨ month = 6 ∨ month = 9 ∨ month = 11 then 30
  else 31

def decimal (digits : Text) : Nat :=
  digits.foldl (fun total char => 10 * total + (char.toNat - 48)) 0

/-- Whether the text is a civil date in the form `YYYY-MM-DD`. -/
def isIsoDate (value : Text) : Bool :=
  match value with
  | [y1, y2, y3, y4, '-', m1, m2, '-', d1, d2] =>
      let year := decimal [y1, y2, y3, y4]
      let month := decimal [m1, m2]
      let day := decimal [d1, d2]
      [y1, y2, y3, y4, m1, m2, d1, d2].all isDigit && 1 ≤ year &&
        1 ≤ month && month ≤ 12 && 1 ≤ day && day ≤ daysInMonth year month
  | _ => false

/-! ## Canonical keys -/

inductive ScalarKey where
  | null
  | boolean (value : Bool)
  | text (value : Text)
  | phone (key : PhoneKey)
  | address (line1 line2 city region postalCode country : Text)
deriving DecidableEq, Repr

inductive Key where
  | scalar (key : ScalarKey)
  | member (fields : List (MemberField × ScalarKey))
deriving DecidableEq, Repr

/-- `canonical_value` at a kind other than a whole Member. `none` is the
source's `ComparisonValueError`. -/
def canonicalScalar : ValueKind → Scalar → Option ScalarKey
  | _, .null => some .null
  | .text, .text value => .text <$> normalizeText value
  | .enum, .text value => .text <$> normalizeText value
  | .email, .text value =>
      (fun normalized => .text (Unicode.casefold normalized)) <$>
        normalizeText value
  | .phone, .text value => .phone <$> phoneKey false value
  | .phone, .phone record =>
      if phoneRecord record.display = some record then
        .phone <$> phoneKey false record.compared
      else
        none
  | .boolean, .boolean value => some (.boolean value)
  | .date, .text value => if isIsoDate value then some (.text value) else none
  | .address, .address parts => do
      let component (value : Text) : Option Text :=
        Unicode.casefold <$> normalizeText value
      some (.address (← component parts.line1) (← component parts.line2)
        (← component parts.city) (← component parts.region)
        (← component parts.postalCode) (← component parts.country))
  | _, _ => none

def canonicalValue : ValueKind → Value → Option Key
  | _, .scalar .null => some (.scalar .null)
  | .member, .scalar _ => none
  | .member, .member fields =>
      .member <$> memberFields.mapM fun field =>
        (fun key => (field, key)) <$> canonicalScalar field.kind (fields field)
  | kind, .scalar value => .scalar <$> canonicalScalar kind value
  | _, .member _ => none

/-- The key of an available value; an unavailable one has no key. -/
def knownKey (kind : ValueKind) : KnownValue → Option (Option Key)
  | none => some none
  | some value => some <$> canonicalValue kind value

end Canonical

end ParishKit.Responses
