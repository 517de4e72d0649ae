import ParishKit.Source.Corpus

/-!
# Eligibility read from the corpus

`family_eligibility` reads each Family's row again, with its heads and their
contacts, and refuses a corpus whose rows say otherwise.
-/

namespace ParishKit.Source

open ParishKit.Responses (Text Unicode IsoDates EmailValidator normalizedEmail)

/-- One Family's facts. -/
structure FamilyEligibility where
  key : String
  active : Bool
  eligible : Bool
  /-- The valid addresses of its heads; a set. -/
  addresses : List Text

/-- The Families rule of the snapshot, when the caller knows it. -/
inductive RuleCheck where
  | unchecked
  | checked (rule : Option FamiliesRule)

/-- The number of a decimal text. -/
def keyId (key : String) : Nat :=
  Nat.ofDigitChars 10 key.toList 0

/-- `str(int(key)) == key`, of an identity. -/
def isIdKey (key : String) : Bool :=
  toString (keyId key) == key && decide (1 ≤ keyId key) &&
    decide (keyId key < 2 ^ 31)

def isFirstVersion (payload : Payload) : Bool :=
  payload.integer? "schema_version" == some 1

/-- One head's identity. -/
def headId : StoredValue → Option Int
  | .integer value => if 1 ≤ value ∧ value < 2 ^ 31 then some value else none
  | _ => none

/-- The heads of a row: distinct identities. -/
def rowHeads (family : Payload) : Option (List Int) :=
  match family.lookup "active_head_duids" with
  | some (.list items) =>
      match items.mapM headId with
      | some heads => if heads.Nodup then some heads else none
      | none => none
  | _ => none

section

variable [Unicode] [EmailValidator]

/-- What one stored email adds: a canonical address when it is valid. -/
def emailAddress : StoredValue → Option (Option Text)
  | .object fields =>
      match Payload.boolean? fields "valid" with
      | none => none
      | some false => some none
      | some true =>
          match Payload.text? fields "value" with
          | none => none
          | some value =>
              if normalizedEmail value = some value then some (some value)
              else none
  | _ => none

/-- The valid addresses of a head's contact. -/
def contactAddresses (head : Int) (contact : Payload) : Option (List Text) :=
  if isFirstVersion contact &&
      contact.text? "owner_kind" == some OwnerKind.member.name &&
      contact.text? "owner_key" == some (idKey head).toList then
    match contact.lookup "emails" with
    | some (.list emails) => List.reduceOption <$> emails.mapM emailAddress
    | _ => none
  else
    none

/-- The valid addresses of one head of a Family. -/
def headAddresses (corpus : Corpus) (key : String) (head : Int) :
    Option (List Text) :=
  match corpus.member.lookup (idKey head) with
  | none => none
  | some member =>
      if isFirstVersion member && member.text? "family_key" == some key.toList &&
          member.boolean? "active" == some true then
        match corpus.contact.lookup (.member, idKey head) with
        | none => some []
        | some contact => contactAddresses head contact
      else
        none

/-- The Members of a Family, by the Family they name. -/
def Corpus.membersOf (corpus : Corpus) (key : String) : List Payload :=
  (corpus.member.map Prod.snd).filter fun member =>
    member.text? "family_key" == some key.toList

/-- `_rule_eligible`. -/
def ruleEligible (family : Payload) (parishioner : Bool) (rule : FamiliesRule)
    (members : List Payload) : Bool :=
  let registered := family.integer? "registeredOrganizationID"
  familyMatchesRule ⟨registered, family.integer? "famGroupID",
      family.text? "family_group", members⟩ (some rule)
    (if parishioner then registered else none)

variable [RuleDigests]

/-- Whether the Family is eligible, by the rule its row names. -/
def markedEligible (corpus : Corpus) (rule : RuleCheck) (key : String)
    (family : Payload) (active parishioner portalEligible : Bool) : Option Bool :=
  match family.lookup "campaign_families" with
  | none | some .null =>
      match rule with
      | .checked (some _) => none
      | _ => some (active && parishioner)
  | some (.text marker) =>
      match rule with
      | .unchecked => some portalEligible
      | .checked checked =>
          if some marker ≠ ruleDigest checked ∨
              (family.lookup "family_group").isNone then
            none
          else
            checked.map fun checked =>
              ruleEligible family parishioner checked (corpus.membersOf key)
  | some _ => none

/-- `_eligibility`; `none` is any of its refusals. -/
def eligibility (corpus : Corpus) (rule : RuleCheck) (row : String × Payload) :
    Option FamilyEligibility := do
  let (key, family) := row
  let active ← family.boolean? "active"
  let parishioner ← family.boolean? "parishioner"
  let portalEligible ← family.boolean? "portal_eligible"
  let recordedEmail ← family.boolean? "email_eligible"
  let heads ← rowHeads family
  let addresses ← List.flatten <$> heads.mapM (headAddresses corpus key)
  let eligible ← markedEligible corpus rule key family active parishioner
    portalEligible
  if isIdKey key && isFirstVersion family && portalEligible == eligible &&
      recordedEmail == (eligible && !addresses.isEmpty) then
    some ⟨key, active, eligible, addresses⟩
  else
    none

def inconsistent : SourceError :=
  .invalidPayload "Source Family eligibility is inconsistent."

/-- `family_eligibility`, in Family key order. Under a rule every Member is first
put under the Family it names. -/
def familyEligibility (corpus : Corpus) (rule : RuleCheck) :
    Except SourceError (List FamilyEligibility) :=
  let grouped := match rule with
    | .checked (some _) => corpus.member.all fun member =>
        (member.2.lookup "family_key").isSome
    | _ => true
  let rows := corpus.family.insertionSort fun left right => left.1 ≤ right.1
  match rows.mapM (eligibility corpus rule) with
  | some results => if grouped then .ok results else .error inconsistent
  | none => .error inconsistent

end

end ParishKit.Source
