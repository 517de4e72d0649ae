import ParishKit.Responses.AcceptedBase

/-!
# Publication planning

`plan_entity` evaluates a Member's open changes against a freshly read contact
record. It plans a write only over the baseline the Family answered against or
over a ParishSoft value a reviewer accepted.
-/

namespace ParishKit.Responses

open ParishKit.Lib

/-- The runtime's ISO 8601 reader: the civil date of a date or date-time text.
The model uses no law of it. -/
class IsoDates where
  /-- `datetime.fromisoformat(value).date().isoformat()`. -/
  civilDate : Text → Option Text

/-- A contact record as read: the present fields by their provider name. -/
abbrev ContactRecord := String → Option RawValue

inductive PlanOutcome where
  | write
  | alreadyInParishSoft
  | conflict
  | cannotCheck
  | notApproved
  | byHand
deriving DecidableEq, Repr

def PlanOutcome.blocking : PlanOutcome → Bool
  | .conflict => true
  | .cannotCheck => true
  | _ => false

structure FieldPlan where
  proposal : Nat
  field : Field
  outcome : PlanOutcome
deriving DecidableEq, Repr

/-- One entity's dry-run plan. `payload` is the request body: only the fields to
write, under the provider's names. -/
structure EntityPlan where
  entityKind : EntityKind
  entityKey : String
  fields : List FieldPlan
  blocked : Bool
  payload : Option (List (String × Text))
  currentDigest : Option String
  plannedDigest : Option String

/-- The field's name, by which a plan orders its changes. -/
def Field.name : Field → String
  | .member .namePrefix => "prefix"
  | .member .firstName => "first_name"
  | .member .middleName => "middle_name"
  | .member .lastName => "last_name"
  | .member .nameSuffix => "suffix"
  | .member .nickname => "nickname"
  | .member .maidenName => "maiden_name"
  | .member .birthDate => "birth_date"
  | .member .gender => "gender"
  | .member .email => "email"
  | .member .homePhone => "home_phone"
  | .member .mobilePhone => "mobile_phone"
  | .member .workPhone => "work_phone"
  | .member .maritalStatus => "marital_status"
  | .member .language => "language"
  | .request .movedHousehold => "moved_household"
  | .request .deceasedStatus => "deceased_status"
  | .request .deathDate => "death_date"
  | .family .homeAddress => "home_address"
  | .family .mailingAddress => "mailing_address"
  | .family .emailOptOut => "email_opt_out"
  | .newMember => "new_member"

/-! ## Values sent to the provider -/

/-- `encode_member_value`: a census value in the provider's request form. -/
def encodeMemberValue (kind : ValueKind) : Scalar → Scalar
  | .phone record =>
      if kind = .phone then .text record.display else .phone record
  | .text value =>
      if kind = .email ∧ value ≠ [] then
        .text (List.intercalate [';', ' ']
          (((value.splitOn ',').map strip).filter fun part => part ≠ []))
      else
        .text value
  | value => value

/-- The provider text of the value carried forward, when the API can write it:
not blank, and within the recorded request schema. -/
def writableText (provider : String) (row : ProposedChange) : Option Text :=
  match row.carried with
  | .member _ => none
  | .scalar value =>
      match encodeMemberValue row.item.field.kind value with
      | .text encoded =>
          if strip encoded = [] then none
          else if sendable provider (.text encoded) then some encoded
          else none
      | _ => none

/-- The encoded value of a planned write: not blank, and sendable. -/
structure WritesText (provider : String) (row : ProposedChange)
    (encoded : Text) : Prop where
  carried : ∃ value, row.carried = .scalar value ∧
    encodeMemberValue row.item.field.kind value = .text encoded
  nonblank : strip encoded ≠ []
  sent : sendable provider (.text encoded) = true

theorem writesText_of_writableText
    {provider : String} {row : ProposedChange} {encoded : Text}
    (writable : writableText provider row = some encoded) :
    WritesText provider row encoded := by
  unfold writableText at writable
  split at writable
  · cases writable
  · rename_i value carried
    split at writable
    · rename_i text encodes
      split at writable
      · cases writable
      · rename_i nonblank
        split at writable
        · rename_i sent
          cases writable
          exact ⟨⟨value, carried, encodes⟩, nonblank, sent⟩
        · cases writable
    · cases writable

section Publication

variable [Unicode]

/-! ## Values read from the provider -/

/-- Several addresses in one provider field: split, lowercased, without blanks
or repeats, in their first order. -/
def splitEmailAddresses (value : Text) : List Text :=
  ((value.splitOn ';').map fun part => Unicode.lower (strip part)).foldl
    (fun addresses email =>
      if email = [] ∨ email ∈ addresses then addresses
      else addresses ++ [email]) []

/-- A provider date as a civil date; blank is no date. -/
def readCivilDate [IsoDates] : RawValue → Option RawValue
  | .null => some .null
  | .other => none
  | .text [] => some .null
  | .text value =>
      if value.length > 40 then none else .text <$> IsoDates.civilDate value

/-- `decode_member_value`: a provider value in the census comparison form. -/
def decodeMemberValue [IsoDates] (field : CensusField) (raw : RawValue) :
    Option Value :=
  match field.kind, raw with
  | .date, raw => do (sourceValue field (← readCivilDate raw)).toOption
  | .email, .other => none
  | .email, .text value =>
      (sourceValue field
        (.text (joinEmails (splitEmailAddresses value)))).toOption
  | _, raw => (sourceValue field raw).toOption

/-! ## Evaluation -/

/-- The value ParishSoft must still hold for the change to be written. -/
def publicationBase (change : Change) : KnownValue :=
  if change.hasActiveBase then some (change.row.current.getD .null)
  else change.row.baseline

/-- No plan merges with a confirmed edit, so `adminResolved` does not occur. -/
def mergeOutcome : MergeState → PlanOutcome
  | .familyChanged => .write
  | .upstreamCaughtUp => .alreadyInParishSoft
  | .current => .alreadyInParishSoft
  | .sourceChanged => .conflict
  | .conflict => .conflict
  | .unavailable => .cannotCheck
  | .adminResolved => .cannotCheck

/-- Classifies one approved, API-writable change against the record read. -/
def evaluate [IsoDates] (change : Change) (definition : CensusField)
    (provider : String) (payload : Option ContactRecord) : PlanOutcome :=
  if change.row.execution = .conflict then
    .conflict
  else
    match payload.bind fun record => record provider with
    | none => .cannotCheck
    | some raw =>
        match (do
          let current ← decodeMemberValue definition raw
          mergeValue definition.kind (some current)
            (some ⟨publicationBase change, change.row.carried, none⟩)) with
        | none => .cannotCheck
        | some merge => mergeOutcome merge.state

/-- One change's outcome, with the text to write where it plans a write. -/
def planField [IsoDates] (entityKind : EntityKind) (change : Change)
    (payload : Option ContactRecord) : Option (FieldPlan × Option (String × Text)) :=
  let row := change.row
  let planned (outcome : PlanOutcome) : FieldPlan :=
    ⟨row.pk, row.item.field, outcome⟩
  match capability entityKind row.item.field with
  | none => none
  | some known =>
      match known.handling, known.providerField, row.item.field.definition? with
      | .api, some provider, some definition =>
          match writableText provider row with
          | none => some (planned .byHand, none)
          | some encoded =>
              if entityKind ≠ .member ∨ row.handling ≠ .api then
                some (planned .byHand, none)
              else if row.decision ≠ .approved then
                some (planned .notApproved, none)
              else
                let outcome := evaluate change definition provider payload
                some (planned outcome,
                  if outcome = .write then some (provider, encoded) else none)
      | _, _, _ => some (planned .byHand, none)

/-- The record a read must return after the request: the read with the writes
applied. -/
def applyWrites (record : ContactRecord) (writes : List (String × Text)) :
    ContactRecord :=
  fun name =>
    match writes.find? fun write => write.1 == name with
    | some write => some (.text write.2)
    | none => record name

def ProposedChange.plannable (row : ProposedChange) : Bool :=
  row.execution == .pending || row.execution == .failed ||
    row.execution == .conflict

/-- `plan_entity`. `none` is its refusal of an unregistered field or of two open
changes of one field. -/
def planEntity [IsoDates] (payloadDigest : ContactRecord → String)
    (entityKind : EntityKind) (entityKey : String) (changes : List Change)
    (payload : Option ContactRecord) : Option EntityPlan := do
  let plannable := changes.filter fun change => change.row.plannable
  if ¬ (plannable.map fun change => change.row.item.field).Nodup then
    none
  else
    let ordered := plannable.insertionSort fun left right =>
      left.row.item.field.name.toList ≤ right.row.item.field.name.toList
    let planned ← ordered.mapM fun change => planField entityKind change payload
    let fields := planned.map Prod.fst
    let writes := planned.filterMap Prod.snd
    let blocked := fields.any fun field => field.outcome.blocking
    match payload with
    | some record =>
        if blocked || writes.isEmpty then
          some ⟨entityKind, entityKey, fields, blocked, none, none, none⟩
        else
          some ⟨entityKind, entityKey, fields, false, some writes,
            some (payloadDigest record),
            some (payloadDigest (applyWrites record writes))⟩
    | none =>
        some ⟨entityKind, entityKey, fields, blocked, none, none, none⟩

/-! ## What a planned write rests on -/

variable [IsoDates]

/-- The record holds, under the field's provider name, a value that reads as
`decoded`. -/
def RecordHolds (field : Field) (provider : String)
    (payload : Option ContactRecord) (decoded : Value) : Prop :=
  ∃ record raw definition, payload = some record ∧
    record provider = some raw ∧ field.definition? = some definition ∧
    decodeMemberValue definition raw = some decoded

theorem evaluate_eq_write
    {change : Change} {definition : CensusField} {provider : String}
    {payload : Option ContactRecord}
    (found : change.row.item.field.definition? = some definition)
    (planned : evaluate change definition provider payload = .write) :
    ∃ decoded key,
      RecordHolds change.row.item.field provider payload decoded ∧
      canonicalValue change.row.item.field.kind decoded = some key ∧
      knownKey change.row.item.field.kind (publicationBase change) =
        some (some key) := by
  unfold evaluate at planned
  split at planned
  · cases planned
  · split at planned
    · cases planned
    · rename_i raw reading
      split at planned
      · cases planned
      · rename_i merge evaluated
        simp only [Option.bind_eq_bind, Option.bind_eq_some_iff] at evaluated
        obtain ⟨decoded, decodes, merged⟩ := evaluated
        obtain ⟨record, present, atProvider⟩ :=
          Option.bind_eq_some_iff.mp reading
        rw [definition_kind found] at merged
        obtain ⟨current, submitted, baseline, currentKey, _, baselineKey,
          outcome⟩ := mergeValue_cases merged
        refine ⟨decoded, current,
          ⟨record, raw, definition, present, atProvider, found, decodes⟩,
          currentKey, ?_⟩
        cases outcome with
        | familyChanged _ _ kept _ _ => rw [baselineKey, kept]
        | unchanged _ _ state _ => simp [mergeOutcome, state] at planned
        | sourceChanged _ _ state _ => simp [mergeOutcome, state] at planned
        | caughtUp _ _ state _ => simp [mergeOutcome, state] at planned
        | conflict _ _ _ state _ => simp [mergeOutcome, state] at planned

/-- Everything a planned write of one change needs. -/
theorem planField_eq_write
    {entityKind : EntityKind} {change : Change}
    {payload : Option ContactRecord} {plan : FieldPlan}
    {writes : Option (String × Text)}
    (planned : planField entityKind change payload = some (plan, writes))
    (write : plan.outcome = .write) :
    plan.proposal = change.row.pk ∧ entityKind = .member ∧
      change.row.decision = .approved ∧ change.row.handling = .api ∧
      ∃ provider encoded definition,
        capability .member change.row.item.field =
          some ⟨.api, some provider⟩ ∧
        WritesText provider change.row encoded ∧
        change.row.item.field.definition? = some definition ∧
        evaluate change definition provider payload = .write := by
  unfold planField at planned
  dsimp only at planned
  split at planned
  · cases planned
  · rename_i known registered
    split at planned
    · rename_i provider definition isApi atProvider found
      split at planned
      · cases planned
        cases write
      · rename_i encoded writable
        split at planned
        · cases planned
          cases write
        · rename_i admitted
          split at planned
          · cases planned
            cases write
          · rename_i decided
            cases planned
            simp only [not_or, not_not] at admitted decided
            obtain ⟨rfl, handled⟩ := admitted
            have sameKnown : known = ⟨.api, some provider⟩ := by
              cases known
              simp_all
            exact ⟨rfl, rfl, decided, handled, provider, encoded, definition,
              sameKnown ▸ registered, writesText_of_writableText writable,
              found, write⟩
    · cases planned
      cases write

theorem exists_planField_of_mem
    {payloadDigest : ContactRecord → String} {entityKind : EntityKind}
    {entityKey : String} {changes : List Change}
    {payload : Option ContactRecord} {plan : EntityPlan} {field : FieldPlan}
    (planned : planEntity payloadDigest entityKind entityKey changes payload =
      some plan)
    (member : field ∈ plan.fields) :
    ∃ change ∈ changes, ∃ writes,
      planField entityKind change payload = some (field, writes) := by
  simp only [planEntity] at planned
  split at planned
  · cases planned
  · obtain ⟨rows, traversed, assembled⟩ := Option.bind_eq_some_iff.mp planned
    have sameFields : plan.fields = rows.map Prod.fst := by
      split at assembled
      · split at assembled
        · cases assembled
          rfl
        · cases assembled
          rfl
      · cases assembled
        rfl
    rw [sameFields] at member
    obtain ⟨⟨found, writes⟩, foundMember, rfl⟩ := List.mem_map.mp member
    obtain ⟨change, selected, changePlan⟩ :=
      exists_input_of_forall₂ (option_mapM_eq_some traversed) foundMember
    have inPlannable := (List.mem_insertionSort _).mp selected
    exact ⟨change, (List.mem_filter.mp inPlannable).1, writes, changePlan⟩

end Publication

/-- The ISO reader on plain civil dates. -/
abbrev plainDates : IsoDates where
  civilDate value := if isIsoDate value then some value else none

/-- A contact record with one first name. -/
def firstNameRecord (name : Text) : ContactRecord :=
  fun provider => if provider = "firstName" then some (.text name) else none

/-- ParishSoft moved to `c` and a reviewer used the Family's value anyway. -/
def firstNameResolved : Change where
  row := { firstNameChange with
    current := some (.text ['c'])
    currentSource := 2
    decision := .approved
    version := 3 }
  reviews := [⟨1, 2, .approved, none, true, some (.text ['c']), some 2⟩]
  generation := 2

def firstNameHistory : List ChangeOp :=
  [.refresh (firstNameCorpus ['c']) 7, .resolveConflict quietFacts 2]

end ParishKit.Responses
