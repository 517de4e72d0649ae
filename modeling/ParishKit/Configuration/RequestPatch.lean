import ParishKit.Configuration.Documents

/-!
# Configuration patches

A request is a list of operations on records of its sections. Each stored format
chooses the schema and the checks of the change. Whatever a step refuses, the whole
patch is refused.
-/

namespace ParishKit.Configuration

open ParishKit.Lib

inductive Action where
  | add
  | update
  | remove
deriving DecidableEq

/-- An operation of the closed form. A removal has no values. -/
structure Operation where
  action : Action
  section_ : Text
  id : Text
  values : Fields
deriving DecidableEq

namespace Action

def word : Action → Text
  | .add => "add".toList
  | .update => "update".toList
  | .remove => "remove".toList

def read (value : Json) : Option Action :=
  [Action.add, .update, .remove].find? fun action => value = .text action.word

end Action

namespace Operation

/-- The record it is about. -/
def key (operation : Operation) : Text × Text :=
  (operation.section_, operation.id)

/-- Its normalized form. -/
def item (operation : Operation) : Json :=
  .object
    ([("id".toList, .text operation.id),
        ("operation".toList, .text operation.action.word),
        ("section".toList, .text operation.section_)] ++
      if operation.action = .remove then []
      else [("values".toList, .object operation.values)])

/-- Which values of an integration an operation may name. -/
def integrationAllowed (action : Action) (values : Fields) (credentialReference : Bool) :
    Bool :=
  match action with
  | .add =>
      credentialReference ||
        [none, some Json.null].contains (findEntry "credential_fingerprint".toList values)
  | _ =>
      (findEntry "kind".toList values).isNone &&
        (credentialReference ||
          (findEntry "credential_fingerprint".toList values).isNone)

/-- The checks that need no document: the closed form, the section, the identity and
the values. -/
def read (sections : List Text) (credentialReference : Bool) (operation : Json) :
    Option Operation :=
  match operation with
  | .object fields => do
      let action ← (findEntry "operation".toList fields).bind Action.read
      let expected := ["id".toList, "operation".toList, "section".toList] ++
        if action = .remove then [] else ["values".toList]
      if fields.map Prod.fst ≠ expected then none
      else
        match findEntry "section".toList fields, findEntry "id".toList fields with
        | some (.text name), some (.text identifier) =>
            if name ∉ sections then none
            else if name = "parish".toList ∧ action ≠ .update then none
            else if isUuid identifier = false then none
            else if action = .remove then some ⟨action, name, identifier, []⟩
            else
              match findEntry "values".toList fields with
              | some (Json.object values) =>
                  if values = [] then none
                  else if name = "integrations".toList ∧
                      integrationAllowed action values credentialReference = false then
                    none
                  else some ⟨action, name, identifier, values⟩
              | _ => none
        | _, _ => none
  | _ => none

end Operation

/-! ## Applying operations -/

/-- Without a value's entry. -/
def eraseEntry (key : Text) (fields : Fields) : Fields :=
  fields.filter fun entry => decide (entry.1 ≠ key)

/-- The optional values that clearing removes: of an update with these values. -/
def clearedBy (name : Text) (values : Fields) : List Text :=
  (if name = "parish".toList ∧
      findEntry "online_giving_url".toList values = some .null then
    ["online_giving_url".toList] else []) ++
  (if name = "campaigns".toList ∧ findEntry "artwork".toList values = some .null then
    ["artwork".toList] else []) ++
  (if name = "campaigns".toList ∧
      findEntry "reminder_workgroup".toList values = some .null then
    ["reminder_workgroup".toList] else []) ++
  if name = "schedules".toList ∧ (findEntry "kind".toList values).isSome = true ∧
      (findEntry "comparison".toList values).isNone = true then
    ["comparison".toList] else []

/-- `dict.update`. -/
def updateFields (fields values : Fields) : Fields :=
  values.foldr (fun entry updated => setEntry entry.1 entry.2 updated) fields

/-- The named values replaced, and the cleared ones removed. -/
def updatedValues (name : Text) (values old : Fields) : Fields :=
  (clearedBy name values).foldl (fun fields key => eraseEntry key fields)
    (updateFields old values)

/-- The first record of an identity, changed or dropped. -/
def changeRecord (identifier : Text) (change : Record → Option Record) :
    List Record → List Record
  | [] => []
  | record :: rest =>
      if record.id = identifier then
        match change record with
        | some changed => changed :: rest
        | none => rest
      else record :: changeRecord identifier change rest

/-- One operation on the document. -/
def applyOperation (document : Document) (operation : Operation) : Option Document :=
  let records := (document.sections.get operation.section_).getD []
  let withRecords (changed : List Record) : Document :=
    { document with sections := document.sections.set operation.section_ changed }
  match operation.action, records.find? fun record => record.id == operation.id with
  | .add, none => some (withRecords (records ++ [⟨operation.id, operation.values⟩]))
  | .update, some _ =>
      some (withRecords (changeRecord operation.id (fun record =>
        some { record with
          values := updatedValues operation.section_ operation.values record.values })
        records))
  | .remove, some _ =>
      some (withRecords (changeRecord operation.id (fun _ => none) records))
  | _, _ => none

/-- The operations in turn, each on another record. -/
def applyOperations :
    List (Text × Text) → Document → List Operation → Option Document
  | _, document, [] => some document
  | seen, document, operation :: rest =>
      if operation.key ∈ seen then none
      else do
        let next ← applyOperation document operation
        applyOperations (operation.key :: seen) next rest

/-! ## Building a candidate -/

inductive Schema where
  | parishIntegrations
  | foundationPolicy
  | campaignFoundation
  | ministryActivity
  | campaignContent
  | sourceCadence
  | bootstrapPolicy
  | bootstrapUsers
  | users
  | series
  | reports
deriving DecidableEq

/-- The records whose text keeps the rules it was applied under: all, or those that
are carried unchanged, with the refresh schedules. -/
inductive Trust where
  | all
  | carried (content : List (Text × Text)) (schedules : List Text)

/-- `records_of`. -/
def recordsOf (document : Document) : Trust :=
  .carried
    (((document.sections.get "content".toList).getD []).map fun record =>
      (record.id, dumps (.object record.values)))
    (((document.sections.get "integrations".toList).getD []).filterMap fun record =>
      match findEntry "settings".toList record.values with
      | some (Json.object settings) =>
          (findEntry "refresh_rules".toList settings).map dumps
      | _ => none)

/-- The formats that are built from records. -/
inductive RequestFormat where
  | parish
  | policy
  | campaign
  | ministry
  | content
  | cadence
  | users
  | credential
  | cadenceCredential
  | usersCredential
  | recovery
  | campaignRecovery
  | bootstrapRecovery
  | ministryRecovery
  | contentRecovery
  | cadenceRecovery
  | usersRecovery
  | chairSeed
  | usersUpgrade
deriving DecidableEq

/-- What the product's schemas decide, of documents alone: `validator_for` under a
trust, `schema_for`, the checks of a change from one document to another, those of a
recovery's one operation, and those of a Chairperson's confirmation. -/
class ConfigurationRules extends Sha256 where
  validSections : Schema → Trust → Document → Bool
  schemaFor : Document → Schema
  changeAllowed : RequestFormat → Document → Document → Bool
  recoveryAllowed : RequestFormat → Document → Json → Document → Bool
  seedAllowed : Document → Document → Json → Bool

/-- What a format asks of the records. -/
structure Plan where
  schema : Schema
  baseSchema : Schema
  sections : List Text
  credentialReference : Bool
  limit : Nat

/-- An immutable validated candidate and its minimal intent. The canonical bytes of
the patch are the text of its items. -/
structure PatchedConfiguration where
  candidate : ConfigurationVersion
  canonicalPatch : List Json
  payloadFingerprint : Text
deriving DecidableEq

/-- By the section, and by the identity within it. -/
def itemOrder (left right : Operation) : Prop :=
  left.section_ < right.section_ ∨ left.section_ = right.section_ ∧ left.id ≤ right.id

instance : DecidableRel itemOrder := fun _ _ =>
  inferInstanceAs (Decidable (_ ∨ _))

variable [rules : ConfigurationRules]

/-- `_build_records`. -/
def buildRecords (plan : Plan) (base : ConfigurationVersion) (patch : List Json)
    (candidateId : Text) : Option PatchedConfiguration :=
  if candidateId = base.versionId then none
  else if patch.length = 0 ∨ plan.limit < patch.length then none
  else if parseVersion (rules.validSections plan.baseSchema .all) base.document ≠
      some base then
    none
  else do
    let operations ← patch.mapM (Operation.read plan.sections plan.credentialReference)
    let document ← applyOperations []
      { base.document with
        versionId := candidateId
        predecessorDigest := some base.digest } operations
    let candidate ← parseVersion
      (rules.validSections plan.schema (recordsOf base.document)) document
    let canonicalPatch := (operations.insertionSort itemOrder).map Operation.item
    some ⟨candidate, canonicalPatch,
      rules.sha256 (base.digest ++ dumps (.list canonicalPatch))⟩

/-! ## The formats -/

def ordinarySections : List Text :=
  ["parish".toList, "integrations".toList, "login_rules".toList, "campaigns".toList,
    "schedules".toList, "ministries".toList, "content".toList]

/-- A field of an operation that is a dictionary. -/
def field? (operation : Json) (key : Text) : Option Json :=
  match operation with
  | .object fields => findEntry key fields
  | _ => none

/-- A section that has records. -/
def hasRecords (document : Document) (name : Text) : Bool :=
  !((document.sections.get name).getD []).isEmpty

/-- `uses_reports`. -/
def usesReports (document : Document) : Bool :=
  ((document.sections.get "schedules".toList).getD []).any fun record =>
    findEntry "kind".toList record.values = some (.text "report".toList)

/-- `_users_schema`, of the base and of any operation of the patch. -/
def usersSchema (document : Document) (patch : List Json) : Schema :=
  if usesReports document || patch.any fun item =>
      decide (field? item "section".toList = some (.text "schedules".toList)) &&
        decide ((field? item "values".toList).bind (field? · "kind".toList) =
          some (.text "report".toList)) then
    .reports
  else if (document.sections.get "schedule_series".toList).isSome ||
      patch.any fun item => decide
        (field? item "section".toList = some (.text "schedule_series".toList)) then
    .series
  else
    .users

/-- `_credential_schema_v6`. -/
def credentialSchema (document : Document) : Schema :=
  if (document.sections.get "content".toList).isSome then .campaignContent
  else if hasRecords document "ministries".toList then .ministryActivity
  else if hasRecords document "campaigns".toList ||
      hasRecords document "schedules".toList then
    .campaignFoundation
  else if hasRecords document "login_rules".toList then .foundationPolicy
  else .parishIntegrations

/-- The one operation of a credential format: a new fingerprint, with the settings it
was checked against, or Slack with its first key. -/
def credentialShape (patch : List Json) : Bool :=
  match patch with
  | [operation] =>
      match field? operation "values".toList with
      | some (Json.object values) =>
          let names := values.map Prod.fst
          let credential := "credential_fingerprint".toList
          decide (field? operation "section".toList =
              some (.text "integrations".toList)) &&
            decide (findEntry credential values ≠ some .null) &&
            (decide (field? operation "operation".toList = some (.text "update".toList)) &&
                (names == [credential] || names == [credential, "settings".toList]) ||
              decide (field? operation "operation".toList = some (.text "add".toList)) &&
                names == [credential, "kind".toList, "settings".toList] &&
                decide (findEntry "kind".toList values = some (.text "slack".toList)))
      | _ => false
  | _ => false

/-- The integration of a credential format is one with a key. -/
def keyedIntegration (patch : List Json) (candidate : Document) : Bool :=
  match patch.head?.bind (field? · "id".toList) with
  | some (.text identifier) =>
      match candidate.record? "integrations".toList identifier with
      | some record =>
          [some (Json.text "parishsoft".toList), some (.text "google_workspace".toList),
            some (.text "slack".toList)].contains (findEntry "kind".toList record.values)
      | none => false
  | _ => false

/-- The operation an assignment of a Chairperson names. -/
def assignmentOperation (item : Json) : Option Json :=
  match field? item "values".toList with
  | some (Json.object values) =>
      if findEntry "kind".toList values = some (.text "assignment".toList) then
        some ((findEntry "operation_id".toList values).getD .null)
      else none
  | _ => none

/-- `candidate_operation`: the one operation identity of a confirmation. -/
def candidateOperation (patch : List Json) : Option Json :=
  match (patch.filterMap assignmentOperation).dedup with
  | [operation] => some operation
  | _ => none

/-- The bases the users upgrade converts. -/
def upgradeBases : List Schema :=
  [.foundationPolicy, .campaignFoundation, .ministryActivity, .campaignContent,
    .sourceCadence]

/-- A plan whose base has the candidate's schema. -/
def planOf (schema : Schema) (sections : List Text) : Plan :=
  ⟨schema, schema, sections, false, 100⟩

/-- The schema and the sections of each format, or a refusal. -/
def RequestFormat.plan (format : RequestFormat) (document : Document)
    (patch : List Json) : Option Plan :=
  let credentialPlan (schema : Schema) : Option Plan :=
    if credentialShape patch then
      some { planOf schema ["integrations".toList] with credentialReference := true }
    else none
  let loginRules := ["login_rules".toList]
  match format with
  | .parish => some (planOf .parishIntegrations ["parish".toList, "integrations".toList])
  | .policy =>
      some (planOf .foundationPolicy
        ["parish".toList, "integrations".toList, "login_rules".toList])
  | .campaign =>
      some (planOf .campaignFoundation
        ["parish".toList, "integrations".toList, "login_rules".toList,
          "campaigns".toList, "schedules".toList])
  | .ministry =>
      some (planOf .ministryActivity
        ["parish".toList, "integrations".toList, "login_rules".toList,
          "campaigns".toList, "schedules".toList, "ministries".toList])
  | .content => some (planOf .campaignContent ordinarySections)
  | .cadence => some (planOf .sourceCadence ordinarySections)
  | .users =>
      some (planOf (usersSchema document patch)
        (ordinarySections ++ ["schedule_series".toList]))
  | .credential => credentialPlan (credentialSchema document)
  | .cadenceCredential => credentialPlan .sourceCadence
  | .usersCredential => credentialPlan (usersSchema document [])
  | .recovery => some (planOf .foundationPolicy loginRules)
  | .campaignRecovery => some (planOf .campaignFoundation loginRules)
  | .bootstrapRecovery => some (planOf .bootstrapPolicy loginRules)
  | .ministryRecovery => some (planOf .ministryActivity loginRules)
  | .contentRecovery => some (planOf .campaignContent loginRules)
  | .cadenceRecovery => some (planOf .sourceCadence loginRules)
  | .usersRecovery =>
      some (planOf
        (if rules.schemaFor document = .bootstrapUsers then .bootstrapUsers
          else usersSchema document [])
        loginRules)
  | .chairSeed => some (planOf .sourceCadence loginRules)
  | .usersUpgrade =>
      if rules.schemaFor document ∈ upgradeBases then
        some ⟨.users, rules.schemaFor document, loginRules, false, 4000⟩
      else none

/-- The checks of each format after the records are built. -/
def RequestFormat.accepts (format : RequestFormat) (document : Document)
    (patch : List Json) (candidate : Document) : Bool :=
  match format with
  | .credential | .cadenceCredential | .usersCredential =>
      keyedIntegration patch candidate
  | .recovery | .campaignRecovery | .bootstrapRecovery | .ministryRecovery
  | .contentRecovery | .cadenceRecovery | .usersRecovery =>
      match patch with
      | [operation] => rules.recoveryAllowed format document operation candidate
      | _ => false
  | .chairSeed =>
      match candidateOperation patch with
      | some operation =>
          rules.seedAllowed document candidate operation &&
            rules.changeAllowed format document candidate
      | none => false
  | _ => rules.changeAllowed format document candidate

/-- `build_candidate`, of the formats built from records. -/
def buildCandidate (format : RequestFormat) (base : ConfigurationVersion)
    (patch : List Json) (candidateId : Text) : Option PatchedConfiguration := do
  let plan ← format.plan base.document patch
  let result ← buildRecords plan base patch candidateId
  if format.accepts base.document patch result.candidate.document then some result
  else none

end ParishKit.Configuration
