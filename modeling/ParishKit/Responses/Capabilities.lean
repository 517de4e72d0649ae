import ParishKit.Responses.Change

/-!
# Handling registry

Which census fields the ParishSoft API may write, under which provider field,
and how one proposal is handled.
-/

namespace ParishKit.Responses

/-- A field's processing route and its provider field when the API writes it. -/
structure Capability where
  handling : Handling
  providerField : Option String
deriving DecidableEq, Repr

def MemberField.capability : MemberField → Capability
  | .firstName => ⟨.api, some "firstName"⟩
  | .middleName => ⟨.api, some "middleName"⟩
  | .lastName => ⟨.api, some "lastName"⟩
  | .nickname => ⟨.api, some "nickName"⟩
  | .maidenName => ⟨.api, some "maidenName"⟩
  | .birthDate => ⟨.api, some "dateOfBirth"⟩
  | .language => ⟨.api, some "language"⟩
  | .email => ⟨.api, some "emailAddress"⟩
  | .homePhone => ⟨.api, some "homePhone"⟩
  | .mobilePhone => ⟨.api, some "cellPhone"⟩
  | .workPhone => ⟨.api, some "workPhone"⟩
  | .namePrefix => ⟨.manual, none⟩
  | .nameSuffix => ⟨.manual, none⟩
  | .gender => ⟨.manual, none⟩
  | .maritalStatus => ⟨.manual, none⟩

/-- The registry; `none` is an unknown combination, which is refused. -/
def capability : EntityKind → Field → Option Capability
  | .family, .family _ => some ⟨.manual, none⟩
  | .member, .member field => some field.capability
  | .member, .request _ => some ⟨.manual, none⟩
  | .proposedMember, .newMember => some ⟨.manual, none⟩
  | _, _ => none

/-- Whether a submitted value removes the field's value. -/
def clearsValue (value : Value) : Bool :=
  value == .null || value == .text []

def proposalHandling (item : Item) (submitted : Value) : Option Handling := do
  let known ← capability item.entityKind item.field
  if known.handling = .api && clearsValue submitted then
    some .manual
  else
    some known.handling

theorem capability_of_proposalHandling
    {item : Item} {submitted : Value} {handling : Handling}
    (handled : proposalHandling item submitted = some handling) :
    (capability item.entityKind item.field).isSome = true := by
  obtain ⟨known, registered, _⟩ := Option.bind_eq_some_iff.mp handled
  simp [registered]

/-- A field the API writes belongs to a Member. -/
theorem entityKind_of_api
    {entityKind : EntityKind} {field : Field} {provider : Option String}
    (written : capability .member field = some ⟨.api, provider⟩)
    (registered : (capability entityKind field).isSome = true) :
    entityKind = .member := by
  cases field with
  | member field =>
      cases entityKind with
      | member => rfl
      | family => cases registered
      | proposedMember => cases registered
  | request field => cases written
  | family field => cases written
  | newMember => cases written

/-- The recorded bounds of one provider field: its least and greatest length. -/
def putSchema : String → Option (Nat × Option Nat)
  | "firstName" => some (0, some 30)
  | "nickName" => some (0, some 30)
  | "middleName" => some (0, some 30)
  | "lastName" => some (0, some 50)
  | "maidenName" => some (0, some 50)
  | "dateOfBirth" => some (0, none)
  | "dateOfDeath" => some (0, none)
  | "language" => some (0, some 50)
  | "emailAddress" => some (0, some 150)
  | "homePhone" => some (10, some 25)
  | "cellPhone" => some (10, some 25)
  | "workPhone" => some (10, some 25)
  | "pager" => some (10, some 25)
  | "fax" => some (10, some 25)
  | "gender" => some (0, some 1)
  | _ => none

/-- The form `[0-9]{4}-[0-9]{2}-[0-9]{2}`, whatever its numbers. -/
def hasDateForm : Text → Bool
  | [y1, y2, y3, y4, '-', m1, m2, '-', d1, d2] =>
      [y1, y2, y3, y4, m1, m2, d1, d2].all isDigit
  | _ => false

/-- Whether one encoded value satisfies the recorded request schema. -/
def sendable (provider : String) : Scalar → Bool
  | .null => true
  | .text value =>
      if provider == "dateOfBirth" || provider == "dateOfDeath" then
        hasDateForm value
      else
        match putSchema provider with
        | none => false
        | some (minimum, maximum) =>
            minimum ≤ value.length && maximum.all (value.length ≤ ·)
  | _ => false

end ParishKit.Responses
