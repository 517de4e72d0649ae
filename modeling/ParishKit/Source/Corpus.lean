import ParishKit.Responses.AnswerValidation

/-!
# The normalized corpus

`normalize_core` turns the provider's Families and Members into stored payloads.
Ministries, rosters, funds and addresses are left out: they only refuse further
loads, and no Family's eligibility reads them.
-/

namespace ParishKit.Source

open ParishKit.Responses (Text Unicode IsoDates EmailValidator strip
  splitEmailAddresses normalizedEmail)

/-- A value of a provider's record: JSON, or a date the loader has read. -/
inductive ProviderValue where
  | null
  | boolean (value : Bool)
  | integer (value : Int)
  | text (value : Text)
  | civil (date : Text)
  | other

/-- A provider's record by its field names; a value may be no record. -/
abbrev ProviderRow := String → Option ProviderValue

/-- What the loader returned of one organization. -/
structure ParishSoftData where
  organizationId : Int
  families : List (Int × Option ProviderRow)
  members : List (Int × Option ProviderRow)
  familyGroups : List (Int × ProviderValue)
  memberContactInfos : List (Int × Option ProviderRow)
  /-- Pledges or contributions were loaded with it. -/
  unscopedGiving : Bool

/-- A JSON value of a stored payload. -/
inductive StoredValue where
  | null
  | boolean (value : Bool)
  | integer (value : Int)
  | text (value : Text)
  | list (items : List StoredValue)
  | object (fields : List (String × StoredValue))

/-- A stored mapping. -/
abbrev Payload := List (String × StoredValue)

inductive OwnerKind where
  | member
  | family
deriving DecidableEq

def OwnerKind.name : OwnerKind → Text
  | .member => "member".toList
  | .family => "family".toList

/-- The collections eligibility reads, by key. A contact's key is its owner. -/
structure Corpus where
  family : List (String × Payload)
  member : List (String × Payload)
  contact : List ((OwnerKind × String) × Payload)

inductive SourceError where
  | invalidPayload (message : String)
  | referenceSkew (message : String)
deriving DecidableEq

/-! ## Reading and changing a mapping -/

namespace Payload

def text? (payload : Payload) (name : String) : Option Text :=
  match payload.lookup name with
  | some (.text value) => some value
  | _ => none

def integer? (payload : Payload) (name : String) : Option Int :=
  match payload.lookup name with
  | some (.integer value) => some value
  | _ => none

def boolean? (payload : Payload) (name : String) : Option Bool :=
  match payload.lookup name with
  | some (.boolean value) => some value
  | _ => none

/-- One entry set, in its place when it is there. -/
def set (payload : Payload) (name : String) (value : StoredValue) : Payload :=
  if payload.any fun entry => entry.1 == name then
    payload.map fun entry => if entry.1 = name then (name, value) else entry
  else
    payload ++ [(name, value)]

end Payload

/-! ## Payload bounds -/

/-- What `_normalize` accepts, at most so many levels further down. -/
def StoredValue.withinBounds : Nat → StoredValue → Bool
  | 0, _ => false
  | _ + 1, .null => true
  | _ + 1, .boolean _ => true
  | _ + 1, .integer value =>
      decide (-(2 ^ 63) ≤ value) && decide (value < 2 ^ 63)
  | _ + 1, .text value => !value.contains '\x00'
  | depth + 1, .list items =>
      decide (items.length ≤ 10000) && items.all (withinBounds depth)
  | depth + 1, .object fields =>
      decide (fields.length ≤ 10000) && fields.all fun field =>
        !field.1.toList.contains '\x00' && withinBounds depth field.2

/-- The bytes of a character in JSON text. -/
def jsonCharSize (char : Char) : Nat :=
  if ['"', '\\', '\n', '\r', '\t', '\x08', '\x0c'].contains char then 2
  else if char.toNat < 32 then 6
  else char.utf8Size

def jsonTextSize (value : Text) : Nat :=
  2 + (value.map jsonCharSize).sum

/-- The bytes of a value's compact JSON text, down to a depth. -/
def StoredValue.jsonSize : Nat → StoredValue → Nat
  | 0, _ => 0
  | _ + 1, .null => 4
  | _ + 1, .boolean value => if value then 4 else 5
  | _ + 1, .integer value => (toString value).length
  | _ + 1, .text value => jsonTextSize value
  | depth + 1, .list items =>
      2 + (items.map (jsonSize depth)).sum + (items.length - 1)
  | depth + 1, .object fields =>
      2 + (fields.map fun field =>
        jsonTextSize field.1.toList + 1 + jsonSize depth field.2).sum +
        (fields.length - 1)

/-- `canonical_payload`. Its JSON text reads back as the payload itself; which bound
a refused payload exceeds is not told. -/
def canonicalPayload (payload : Payload) : Except SourceError Payload :=
  let value := StoredValue.object payload
  if value.withinBounds 17 && decide (value.jsonSize 17 ≤ 1024 * 1024) then
    .ok payload
  else
    .error (.invalidPayload "Source payload contains an unsupported value.")

/-- `_put`. No payload has a schema version of its own. -/
def put {Key : Type} [DecidableEq Key] (entries : List (Key × Payload)) (key : Key)
    (payload : Payload) : Except SourceError (List (Key × Payload)) :=
  if key ∈ entries.map Prod.fst then
    .error (.invalidPayload "Source collection repeats a normalized identity.")
  else do
    let stored ← canonicalPayload (("schema_version", .integer 1) :: payload)
    .ok (entries ++ [(key, stored)])

/-! ## Fields -/

def familyFields : List String :=
  ["familyDUID", "familyID", "firstName", "lastName", "mailingName",
    "envelopeNumber", "registeredOrganizationID", "famGroupID", "status",
    "familyParticipationStatus", "hasMembers", "hasSuspense", "sendNoMail"]

def memberFields : List String :=
  ["memberDUID", "firstName", "middleName", "lastName", "nickName", "salutation",
    "suffix", "maidenName", "memberType", "memberStatus", "sex", "maritalStatus",
    "maritalStatusID", "language", "birthdate", "dateOfDeath"]

def memberContactFallbacks : List (String × String) :=
  [("middleName", "middleName"), ("nickName", "nickName"),
    ("maidenName", "maidenName"), ("birthdate", "dateOfBirth"),
    ("dateOfDeath", "dateOfDeath"), ("sex", "gender")]

def integerFields : List String :=
  ["familyDUID", "familyID", "registeredOrganizationID", "famGroupID",
    "envelopeNumber", "hasMembers", "memberDUID", "maritalStatusID", "id",
    "fundId", "ministryRoleId", "ministryEventId"]

def booleanFields : List String :=
  ["status", "hasSuspense", "sendNoMail", "active", "requiresPledges", "trained",
    "subOnly"]

def dateFields : List String :=
  ["birthdate", "dateOfDeath", "fundStartDate", "fundEndDate"]

/-- `_id`. -/
def sourceId : Option ProviderValue → Except SourceError Int
  | some (.integer value) =>
      if 1 ≤ value ∧ value < 2 ^ 31 then .ok value
      else .error (.invalidPayload "Source identity is invalid.")
  | _ => .error (.invalidPayload "Source identity is invalid.")

/-- The text of an identity. -/
def idKey (identifier : Int) : String :=
  toString identifier.toNat

section

variable [Unicode]

/-- `_scalar` of a text. -/
def scalarText (value : Text) : Except SourceError Text :=
  if value.length ≤ 8192 then
    .ok (Unicode.nfc (strip value))
  else
    .error (.invalidPayload "Source field has an unsupported type or length.")

variable [IsoDates]

def invalidDate : SourceError :=
  .invalidPayload "Source civil date is invalid."

/-- `_date` of a text or of none. -/
def dateText : Text → Except SourceError StoredValue
  | [] => .ok .null
  | value =>
      if value.length ≤ 40 then
        match IsoDates.civilDate value with
        | some date => .ok (.text date)
        | none => .error invalidDate
      else
        .error invalidDate

/-- `_date` of a provider's value. -/
def providerDate : ProviderValue → Except SourceError StoredValue
  | .null => .ok .null
  | .civil date => .ok (.text date)
  | .text value => dateText value
  | _ => .error invalidDate

/-- `_date` of a value read before. -/
def storedDate : StoredValue → Except SourceError StoredValue
  | .null => .ok .null
  | .text value => dateText value
  | _ => .error invalidDate

/-- One field of the closed vocabulary. -/
def fieldValue (name : String) (value : ProviderValue) :
    Except SourceError StoredValue :=
  if name ∈ dateFields then
    providerDate value
  else
    match value with
    | .null => .ok .null
    | .integer number =>
        if name ∉ integerFields then
          .error (.invalidPayload "Source field type differs from its contract.")
        else if -(2 ^ 31) ≤ number ∧ number < 2 ^ 31 then
          .ok (.integer number)
        else
          .error (.invalidPayload "Source integer is out of range.")
    | .boolean flag =>
        if name ∈ integerFields ∨ name ∉ booleanFields then
          .error (.invalidPayload "Source field type differs from its contract.")
        else
          .ok (.boolean flag)
    | .text value =>
        if name ∈ integerFields ∨ name ∈ booleanFields then
          .error (.invalidPayload "Source field type differs from its contract.")
        else
          .text <$> scalarText value
    | _ => .error (.invalidPayload "Source field type differs from its contract.")

/-- `_fields` of one name. -/
def takeField (row : ProviderRow) (values : Payload) (name : String) :
    Except SourceError Payload :=
  match row name with
  | none => .ok values
  | some value => do
      let stored ← fieldValue name value
      .ok (values.set name stored)

def fields (row : ProviderRow) (names : List String) : Except SourceError Payload :=
  names.foldlM (takeField row) []

end

/-- One entry of a collection, whose record names its own key. -/
def entry (identity : String) (indexed : Int × Option ProviderRow) :
    Except SourceError (Int × ProviderRow) :=
  match indexed.2 with
  | none => .error (.invalidPayload
      "Source record identity differs from its index.")
  | some row => do
      let key ← sourceId (some (.integer indexed.1))
      let named ← sourceId (row identity)
      if key ≠ named then
        .error (.invalidPayload "Source record identity differs from its index.")
      else
        .ok (key, row)

/-- `_entries`. -/
def entries (rows : List (Int × Option ProviderRow)) (identity : String) :
    Except SourceError (List (Int × ProviderRow)) := do
  let checked ← rows.mapM (entry identity)
  .ok (checked.insertionSort fun left right => left.1 ≤ right.1)

/-! ## Families rules -/

/-- The Member statuses an Advanced rule may accept. -/
inductive RuleStatus where
  | active
  | actOther
  | unknown
deriving DecidableEq

def RuleStatus.name : RuleStatus → Text
  | .active => "Active".toList
  | .actOther => "ActOther".toList
  | .unknown => "Unknown".toList

/-- A campaign's Families rule; the legacy rule is none. -/
inductive FamiliesRule where
  | activeParishioners
  | activeParishionersAndStaff
  | advanced (registered : Bool) (familyGroups : List (Int × Text))
      (memberStatuses : List RuleStatus)
deriving DecidableEq

/-- The SHA-256 of a rule's canonical JSON. The model uses no law of it. -/
class RuleDigests where
  sha : FamiliesRule → Text

def ruleDigest [RuleDigests] (rule : Option FamiliesRule) : Option Text :=
  rule.map RuleDigests.sha

/-- The exact group names of a preset. -/
def FamiliesRule.presetGroups : FamiliesRule → Option (List Text)
  | .activeParishioners => some ["Active".toList]
  | .activeParishionersAndStaff => some ["Active".toList, "Staff".toList]
  | .advanced _ _ _ => none

/-- `family_rule_member_statuses`. -/
def FamiliesRule.memberStatuses : FamiliesRule → List Text
  | .advanced _ _ statuses => statuses.map RuleStatus.name
  | _ => ["Active".toList]

def memberIsDeceased (member : Payload) : Bool :=
  member.text? "memberStatus" == some "Deceased".toList

def memberIsActive (member : Payload) : Bool :=
  member.text? "memberStatus" != some "Inactive".toList && !memberIsDeceased member

/-- `member_matches_rule`. -/
def memberMatchesRule (member : Payload) : Option FamiliesRule → Bool
  | none => memberIsActive member
  | some rule => (member.text? "memberStatus").any rule.memberStatuses.contains

/-- What the shared predicates read of a Family. -/
structure FamilyFacts where
  registeredOrganizationId : Option Int
  famGroupId : Option Int
  group : Option Text
  members : List Payload

def familyIsActive (family : FamilyFacts) : Bool :=
  family.group != some "Inactive".toList && family.members.any memberIsActive

def familyIsParishioner (family : FamilyFacts) (organization : Option Int) : Bool :=
  match organization, family.registeredOrganizationId with
  | some organization, some registered => registered == organization
  | _, _ => false

/-- `_family_in_rule_groups`. -/
def familyInRuleGroups (family : FamilyFacts) (rule : FamiliesRule) : Bool :=
  match rule with
  | .advanced _ groups _ =>
      let chosen := groups.map Prod.fst
      match family.famGroupId with
      | none | some 0 => chosen.contains 0
      | some group => chosen.contains group ||
          chosen.contains 0 && family.group == some "No Family Group".toList
  | preset => family.group.any (preset.presetGroups.getD []).contains

def FamiliesRule.requiresRegistration : FamiliesRule → Bool
  | .advanced registered _ _ => registered
  | _ => true

/-- `family_matches_rule`. -/
def familyMatchesRule (family : FamilyFacts) (rule : Option FamiliesRule)
    (organization : Option Int) : Bool :=
  match rule with
  | none => familyIsActive family && familyIsParishioner family organization
  | some chosen =>
      (!chosen.requiresRegistration || familyIsParishioner family organization) &&
        familyInRuleGroups family chosen &&
        family.members.any fun member => memberMatchesRule member rule

def memberIsHead (member : Payload) : Bool :=
  (member.text? "memberType").any
    ["Head".toList, "Husband".toList, "Wife".toList].contains

/-- `get_family_heads`, as the entries of its mapping. -/
def familyHeads (members : List Payload) : List (Int × Payload) :=
  (members.filter memberIsHead).filterMap fun member =>
    (member.integer? "memberDUID").map fun identifier => (identifier, member)

/-! ## Contacts -/

section

variable [Unicode] [EmailValidator]

/-- One fragment of an email field, and whether it is an address. -/
def contactEmail (fragment : Text) : Text × Bool :=
  match normalizedEmail fragment with
  | some value => (value, true)
  | none => (fragment, false)

/-- The last entry of a value is kept. -/
def keepEmail (values : List (Text × Bool)) (email : Text × Bool) :
    List (Text × Bool) :=
  if email.1 ∈ values.map Prod.fst then
    values.map fun other => if other.1 = email.1 then email else other
  else
    values ++ [email]

def contactEmails (value : Text) : List (Text × Bool) :=
  let fragments := (splitEmailAddresses value).insertionSort fun left right =>
    left ≤ right
  ((fragments.map contactEmail).foldl keepEmail []).insertionSort
    fun left right => left.1 ≤ right.1

def emailPayload (email : Text × Bool) : StoredValue :=
  .object [("value", .text email.1), ("valid", .boolean email.2)]

/-- A phone that is no blank text. -/
def cleanPhone (phone : String × ProviderValue) :
    Except SourceError (Option (String × StoredValue)) :=
  match phone.2 with
  | .null => .ok none
  | .text value =>
      if strip value = [] then .ok none
      else (fun text => some (phone.1, .text text)) <$> scalarText value
  | _ => .error (.invalidPayload "Source phone field is not text.")

/-- A publication flag that is absent counts as no. -/
def publishes : ProviderValue → Except SourceError Bool
  | .null => .ok false
  | .boolean flag => .ok flag
  | _ => .error (.invalidPayload "Source contact publication flag is invalid.")

/-- The email fragments of a contact field. -/
def emailsOf : ProviderValue → Except SourceError (List (Text × Bool))
  | .null => .ok []
  | .text value => contactEmails <$> scalarText value
  | _ => .error (.invalidPayload "Source email field is not text.")

/-- `_contact`: the contacts with this one, and whether it has an address. -/
def putContact (contacts : List ((OwnerKind × String) × Payload)) (kind : OwnerKind)
    (identifier : Int) (email : ProviderValue)
    (phones : List (String × ProviderValue)) (available : List String)
    (publishEmail publishPhone : ProviderValue) :
    Except SourceError (List ((OwnerKind × String) × Payload) × Bool) := do
  let values ← emailsOf email
  let cleaned ← phones.mapM cleanPhone
  let showsEmail ← publishes publishEmail
  let showsPhone ← publishes publishPhone
  let hasAddress := values.any Prod.snd
  if available.isEmpty then
    .ok (contacts, hasAddress)
  else do
    let contacts ← put contacts (kind, idKey identifier)
      [("owner_kind", .text kind.name),
        ("owner_key", .text (idKey identifier).toList),
        ("emails", .list (values.map emailPayload)),
        ("phones", .object cleaned.reduceOption),
        ("available", .list (available.map fun name => .text name.toList)),
        ("publish_email", .boolean showsEmail),
        ("publish_phone", .boolean showsPhone)]
    .ok (contacts, hasAddress)

end

/-! ## Members -/

/-- What the two loops have built so far. -/
structure Loading where
  corpus : Corpus
  /-- The Members of each Family, in the order they were read. -/
  grouped : List (Int × Payload)
  memberEmails : List (Int × Bool)

section

variable [Unicode] [IsoDates]

/-- A field the Member's record lacks, from its contact information. -/
def takeFallback (contact : ProviderRow) (values : Payload)
    (fallback : String × String) : Except SourceError Payload :=
  if (values.lookup fallback.1).isSome then
    .ok values
  else
    match contact fallback.2 with
    | none => .ok values
    | some value => do
        let stored ← fieldValue fallback.1 value
        .ok (values.set fallback.1 stored)

def takeDate (values : Payload) (name : String) : Except SourceError Payload :=
  match values.lookup name with
  | none => .ok values
  | some value => do
      let date ← storedDate value
      .ok (values.set name date)

/-- The values stored of a Member. -/
def memberValues (familyId : Int) (raw contact : ProviderRow) :
    Except SourceError Payload := do
  let own ← fields raw memberFields
  let filled ← memberContactFallbacks.foldlM (takeFallback contact) own
  let dated ← ["birthdate", "dateOfDeath"].foldlM takeDate filled
  .ok (((dated.set "family_key" (.text (idKey familyId).toList)).set
    "active" (.boolean (memberIsActive dated))).set
    "deceased" (.boolean (memberIsDeceased dated)))

/-- A Member's contact information; none is an empty record. -/
def contactInfo (source : ParishSoftData) (identifier : Int) :
    Except SourceError ProviderRow :=
  match source.memberContactInfos.lookup identifier with
  | none => .ok fun _ => none
  | some (some row) => .ok row
  | some none => .error (.invalidPayload
      "Source Member contact information is invalid.")

/-- `raw.get(primary, contact.get(fallback))`. -/
def fallbackValue (raw contact : ProviderRow) (primary fallback : String) :
    ProviderValue :=
  (raw primary).getD ((contact fallback).getD .null)

def memberContactNames : List (String × String × String) :=
  [("email", "emailAddress", "emailAddress"), ("home", "homePhone", "homePhone"),
    ("mobile", "mobilePhone", "cellPhone"), ("work", "workPhone", "workPhone")]

variable [EmailValidator]

/-- The loop over the Members. -/
def loadMember (source : ParishSoftData) (families : List Int) (state : Loading)
    (indexed : Int × ProviderRow) : Except SourceError Loading := do
  let (identifier, raw) := indexed
  let familyId ← sourceId (raw "familyDUID")
  if familyId ∉ families then
    .error (.referenceSkew "Source Member has no retained Family.")
  else do
    let contact ← contactInfo source identifier
    let values ← memberValues familyId raw contact
    let members ← put state.corpus.member (idKey identifier) values
    let contacts ← putContact state.corpus.contact .member identifier
      (fallbackValue raw contact "emailAddress" "emailAddress")
      [("home", fallbackValue raw contact "homePhone" "homePhone"),
        ("mobile", fallbackValue raw contact "mobilePhone" "cellPhone"),
        ("work", fallbackValue raw contact "workPhone" "workPhone")]
      ((memberContactNames.filter fun names =>
        (raw names.2.1).isSome || (contact names.2.2).isSome).map Prod.fst)
      ((raw "family_PublishEMail").getD .null)
      ((raw "family_PublishPhone").getD .null)
    .ok ⟨{ state.corpus with member := members, contact := contacts.1 },
      state.grouped ++ [(familyId, values)],
      state.memberEmails ++ [(identifier, contacts.2)]⟩

/-! ## Families -/

/-- A reference that is there is an integer from its least value on. -/
def checkReference (values : Payload) (reference : String × Int) :
    Except SourceError Unit :=
  match values.lookup reference.1 with
  | none | some .null => .ok ()
  | some (.integer value) =>
      if reference.2 ≤ value ∧ value < 2 ^ 31 then .ok ()
      else .error (.invalidPayload "Source Family reference metadata is invalid.")
  | some _ => .error (.invalidPayload
      "Source Family reference metadata is invalid.")

/-- The name of the Family's group in the group list. -/
def familyGroup (source : ParishSoftData) (raw : ProviderRow) :
    Except SourceError (Option Text) :=
  let found : Option Int := match raw "famGroupID" with
    | some (.integer group) => some group
    | _ => none
  let listed := found.bind fun group => source.familyGroups.lookup group
  if found.any (· ≠ 0) && listed.isNone then
    .error (.invalidPayload "Source Family group reference is unavailable.")
  else
    match listed with
    | none | some .null => .ok none
    | some (.text name) => some <$> scalarText name
    | some _ => .error (.invalidPayload "Source Family group is not text.")

/-- The Members of one Family. -/
def Loading.membersOf (state : Loading) (familyId : Int) : List Payload :=
  (state.grouped.filter fun entry => entry.1 == familyId).map Prod.snd

/-- The row of a Family. -/
def familyRow [RuleDigests] (organization : Int) (rule : Option FamiliesRule)
    (members : List Payload) (memberEmails : List (Int × Bool)) (values : Payload)
    (group : Option Text) : Payload :=
  let facts : FamilyFacts := ⟨values.integer? "registeredOrganizationID",
    values.integer? "famGroupID", group, members⟩
  let heads := ((familyHeads members).filter fun head =>
    memberMatchesRule head.2 rule).map Prod.fst
  let eligible := familyMatchesRule facts rule (some organization)
  let row := (((((values.set "family_group" (match group with
      | some name => .text name
      | none => .null)).set
    "active" (.boolean (familyIsActive facts))).set
    "parishioner" (.boolean (familyIsParishioner facts (some organization)))).set
    "portal_eligible" (.boolean eligible)).set
    "active_head_duids" (.list ((heads.insertionSort (· ≤ ·)).map .integer))).set
    "email_eligible" (.boolean (eligible && heads.any fun head =>
      (memberEmails.lookup head).getD false))
  match ruleDigest rule with
  | none => row
  | some digest => row.set "campaign_families" (.text digest)

def familyContactNames : List (String × String) :=
  [("email", "eMailAddress"), ("home", "familyHomePhone"),
    ("primary", "primaryPhone")]

/-- The loop over the Families. -/
def loadFamily [RuleDigests] (source : ParishSoftData) (rule : Option FamiliesRule)
    (state : Loading) (indexed : Int × ProviderRow) :
    Except SourceError Loading := do
  let (identifier, raw) := indexed
  let values ← fields raw familyFields
  let _ ← [("familyID", -(2 ^ 31)), ("registeredOrganizationID", 0),
    ("famGroupID", 0)].mapM (checkReference values)
  let group ← familyGroup source raw
  let families ← put state.corpus.family (idKey identifier)
    (familyRow source.organizationId rule (state.membersOf identifier)
      state.memberEmails values group)
  let contacts ← putContact state.corpus.contact .family identifier
    ((raw "eMailAddress").getD .null)
    [("home", (raw "familyHomePhone").getD .null),
      ("primary", (raw "primaryPhone").getD .null)]
    ((familyContactNames.filter fun names => (raw names.2).isSome).map Prod.fst)
    ((raw "primaryPublishEMail").getD .null)
    ((raw "primaryPublishPhone").getD .null)
  .ok { state with
    corpus := { state.corpus with family := families, contact := contacts.1 } }

/-- `normalize_core`. -/
def normalizeCore [RuleDigests] (source : ParishSoftData)
    (rule : Option FamiliesRule) : Except SourceError Corpus := do
  let _ ← sourceId (some (.integer source.organizationId))
  if source.unscopedGiving then
    .error (.invalidPayload "Unscoped giving cannot be normalized as core data.")
  else do
    let familyRows ← entries source.families "familyDUID"
    let memberRows ← entries source.members "memberDUID"
    let start : Loading := ⟨⟨[], [], []⟩, [], []⟩
    let members ← memberRows.foldlM
      (loadMember source (familyRows.map Prod.fst)) start
    let loaded ← familyRows.foldlM (loadFamily source rule) members
    .ok loaded.corpus

end

end ParishKit.Source
