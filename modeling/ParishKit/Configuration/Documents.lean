import ParishKit.Lib.Dict
import ParishKit.Lib.JsonText

/-!
# Configuration documents

A version of the configuration is a document of sections of records, each with a
globally unique identity. Values are JSON; a dictionary's entries are kept in the
order of its keys, as its canonical text has them.
-/

namespace ParishKit.Configuration

open ParishKit.Lib

/-- A value. One of another type, as a float or a date, is not JSON. -/
inductive Json where
  | null
  | bool (value : Bool)
  | int (value : Int)
  | text (value : Text)
  | list (items : List Json)
  | object (fields : List (Text × Json))
  | other (kind : Nat)

abbrev Fields :=
  List (Text × Json)

/-! ## Equality -/

mutual

def Json.same : Json → Json → Bool
  | .null, .null => true
  | .bool left, .bool right => left == right
  | .int left, .int right => left == right
  | .text left, .text right => left == right
  | .list left, .list right => sameItems left right
  | .object left, .object right => sameFields left right
  | .other left, .other right => left == right
  | _, _ => false

def sameItems : List Json → List Json → Bool
  | [], [] => true
  | left :: lefts, right :: rights => left.same right && sameItems lefts rights
  | _, _ => false

def sameFields : List (Text × Json) → List (Text × Json) → Bool
  | [], [] => true
  | (key, left) :: lefts, (other, right) :: rights =>
      key == other && left.same right && sameFields lefts rights
  | _, _ => false

end

mutual

theorem Json.eq_of_same : ∀ {left right : Json}, left.same right = true → left = right
  | .null, right, same => by
      cases right <;> first | rfl | cases same
  | .bool value, right, same => by
      cases right <;> first | cases same | exact congrArg _ (eq_of_beq same)
  | .int value, right, same => by
      cases right <;> first | cases same | exact congrArg _ (eq_of_beq same)
  | .text value, right, same => by
      cases right <;> first | cases same | exact congrArg _ (eq_of_beq same)
  | .list items, right, same => by
      cases right <;> first | cases same | exact congrArg _ (eq_of_sameItems same)
  | .object fields, right, same => by
      cases right <;> first | cases same | exact congrArg _ (eq_of_sameFields same)
  | .other kind, right, same => by
      cases right <;> first | cases same | exact congrArg _ (eq_of_beq same)

theorem eq_of_sameItems :
    ∀ {lefts rights : List Json}, sameItems lefts rights = true → lefts = rights
  | [], rights, same => by
      cases rights with
      | nil => rfl
      | cons right rights => cases same
  | left :: lefts, rights, same => by
      cases rights with
      | nil => cases same
      | cons right rights =>
          rw [sameItems, Bool.and_eq_true] at same
          rw [left.eq_of_same same.1, eq_of_sameItems same.2]

theorem eq_of_sameFields :
    ∀ {lefts rights : List (Text × Json)}, sameFields lefts rights = true → lefts = rights
  | [], rights, same => by
      cases rights with
      | nil => rfl
      | cons right rights => cases same
  | (key, left) :: lefts, rights, same => by
      cases rights with
      | nil => cases same
      | cons right rights =>
          obtain ⟨other, right⟩ := right
          rw [sameFields, Bool.and_eq_true, Bool.and_eq_true] at same
          rw [eq_of_beq same.1.1, left.eq_of_same same.1.2, eq_of_sameFields same.2]

end

mutual

theorem Json.same_self : ∀ value : Json, value.same value = true
  | .null => rfl
  | .bool value => beq_self_eq_true value
  | .int value => beq_self_eq_true value
  | .text value => beq_self_eq_true value
  | .list items => sameItems_self items
  | .object fields => sameFields_self fields
  | .other kind => beq_self_eq_true kind

theorem sameItems_self : ∀ items : List Json, sameItems items items = true
  | [] => rfl
  | item :: items => by
      rw [sameItems, item.same_self, sameItems_self items]
      rfl

theorem sameFields_self : ∀ fields : List (Text × Json), sameFields fields fields = true
  | [] => rfl
  | (key, value) :: fields => by
      rw [sameFields, value.same_self, sameFields_self fields, beq_self_eq_true]
      rfl

end

instance : DecidableEq Json := fun left right =>
  if same : left.same right = true then isTrue (Json.eq_of_same same)
  else isFalse fun equal => same (equal ▸ left.same_self)

/-! ## Bounds -/

mutual

/-- `_json_value`: what is left of the budget, unless a value is not JSON or the
limits are exceeded. -/
def jsonValue (depth : Nat) (value : Json) (budget : Nat) : Option Nat :=
  if budget = 0 ∨ 32 < depth then none
  else match value with
    | .list items => jsonItems (depth + 1) items (budget - 1)
    | .object fields => jsonFields (depth + 1) fields (budget - 1)
    | .other _ => none
    | _ => some (budget - 1)

def jsonItems (depth : Nat) : List Json → Nat → Option Nat
  | [], budget => some budget
  | item :: rest, budget => (jsonValue depth item budget).bind (jsonItems depth rest)

def jsonFields (depth : Nat) : List (Text × Json) → Nat → Option Nat
  | [], budget => some budget
  | (_, item) :: rest, budget => (jsonValue depth item budget).bind (jsonFields depth rest)

end

/-! ## Canonical text -/

mutual

/-- `json.dumps` of what the bounds admit. -/
def dumps : Json → Text
  | .null => "null".toList
  | .bool value => if value then "true".toList else "false".toList
  | .int value => (toString value).toList
  | .text value => quoted value
  | .list items => '[' :: dumpsItems items ++ [']']
  | .object fields => openBrace :: dumpsFields fields ++ [closeBrace]
  | .other _ => []

def dumpsItems : List Json → Text
  | [] => []
  | item :: rest =>
      dumps item ++ if rest.isEmpty then [] else ',' :: dumpsItems rest

def dumpsFields : List (Text × Json) → Text
  | [] => []
  | (key, item) :: rest =>
      quoted key ++ ':' :: dumps item ++
        if rest.isEmpty then [] else ',' :: dumpsFields rest

end

/-! ## Documents -/

structure Record where
  id : Text
  values : Fields
deriving DecidableEq

abbrev Sections :=
  Dict Text (List Record)

instance : DecidableEq Sections := fun left right =>
  decidable_of_iff (left.entries = right.entries)
    ⟨fun same => by
      obtain ⟨_, _⟩ := left
      obtain ⟨_, _⟩ := right
      cases same
      rfl, fun same => congrArg _ same⟩

/-- A document of the envelope's fields. -/
structure Document where
  schemaVersion : Int
  versionId : Text
  predecessorDigest : Option Text
  sections : Sections
deriving DecidableEq

def Record.json (record : Record) : Json :=
  .object [("id".toList, .text record.id), ("values".toList, .object record.values)]

def Document.json (document : Document) : Json :=
  .object
    [("predecessor_digest".toList, match document.predecessorDigest with
        | some digest => .text digest
        | none => .null),
      ("schema_version".toList, .int document.schemaVersion),
      ("sections".toList, .object (document.sections.entries.map fun entry =>
        (entry.1, .list (entry.2.map Record.json)))),
      ("version_id".toList, .text document.versionId)]

namespace Document

/-- The record of an identity in a section. -/
def record? (document : Document) (name identifier : Text) : Option Record :=
  ((document.sections.get name).getD []).find? fun record => record.id == identifier

/-- The records of each section in the order of their identities. -/
def sorted (document : Document) : Document :=
  { document with
    sections := document.sections.mapValues fun records =>
      records.insertionSort fun left right => left.id ≤ right.id }

/-- Every identity of a record. -/
def identities (document : Document) : List Text :=
  document.sections.entries.flatMap fun entry => entry.2.map Record.id

end Document

/-! ## Versions -/

def isHexDigit (char : Char) : Bool :=
  char.isDigit || ['a', 'b', 'c', 'd', 'e', 'f'].contains char

/-- The text of a UUID. Another spelling of one, which the source would rewrite,
never equals the version it came in. -/
def isUuid (value : Text) : Bool :=
  value.length == 36 && value.zipIdx.all fun (char, index) =>
    if [8, 13, 18, 23].contains index then char == '-' else isHexDigit char

/-- `_digest`. -/
def isDigest (value : Text) : Bool :=
  value.length == 64 && value.all isHexDigit

def sectionNames : List Text :=
  ["parish".toList, "integrations".toList, "login_rules".toList, "campaigns".toList,
    "content".toList, "schedules".toList, "schedule_series".toList,
    "share_options".toList, "ministries".toList, "funds".toList]

/-- An immutable version. Its canonical bytes are the text of its document. -/
structure ConfigurationVersion where
  versionId : Text
  predecessorDigest : Option Text
  document : Document
deriving DecidableEq

/-- SHA-256, in hexadecimal. The model uses no law of it. -/
class Sha256 where
  sha256 : Text → Text

def ConfigurationVersion.digest [Sha256] (version : ConfigurationVersion) : Text :=
  Sha256.sha256 (dumps version.document.json)

/-- The checks of the envelope, before the records are sorted. -/
def Document.Enveloped (document : Document) : Prop :=
  document.schemaVersion = 1 ∧
    (jsonValue 0 document.json 100000).isSome = true ∧
    isUuid document.versionId = true ∧
    (∀ digest ∈ document.predecessorDigest, isDigest digest = true) ∧
    (∀ name ∈ document.sections.keys, name ∈ sectionNames) ∧
    (∀ identifier ∈ document.identities, isUuid identifier = true) ∧
    document.identities.Nodup

instance (document : Document) : Decidable document.Enveloped :=
  inferInstanceAs (Decidable (_ ∧ _))

/-- `parse_version`. -/
def parseVersion (validateSections : Document → Bool) (document : Document) :
    Option ConfigurationVersion :=
  if document.Enveloped then
    let normalized := document.sorted
    if utf8Length (dumps normalized.json) ≤ 2000000 ∧
        validateSections normalized = true then
      some ⟨document.versionId, document.predecessorDigest, normalized⟩
    else
      none
  else
    none

end ParishKit.Configuration
