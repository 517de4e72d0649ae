import ParishKit.Source.LoadedCorpus

/-!
# What eligibility reads of a load

The lookups in a normalized corpus give back the Members and the Families it was
built from, and the rules say of the stored rows what they said of the provider's
records.
-/

namespace ParishKit.Source

open ParishKit.Responses (Text Unicode IsoDates EmailValidator normalizedEmail)

/-! ## Lookups in what was loaded -/

/-- The entries of the items that have one, by the items' keys. -/
theorem lookup_filterMap
    {Item Key Value : Type} [BEq Key] [LawfulBEq Key] {items : List Item} {key : Item → Key}
    {value : Item → Option Value} {item : Item} (keys : (items.map key).Nodup)
    (member : item ∈ items) :
    (items.filterMap fun other => (value other).map fun found =>
      (key other, found)).lookup (key item) = value item := by
  have absent : ∀ (others : List Item), key item ∉ others.map key →
      (others.filterMap fun other => (value other).map fun found =>
        (key other, found)).lookup (key item) = none := by
    intro others notThere
    refine lookup_of_not_mem fun named => ?_
    obtain ⟨entry, isEntry, same⟩ := List.mem_map.mp named
    obtain ⟨other, isOther, found⟩ := List.mem_filterMap.mp isEntry
    obtain ⟨_, _, rfl⟩ := Option.map_eq_some_iff.mp found
    exact notThere (List.mem_map.mpr ⟨other, isOther, same⟩)
  induction items with
  | nil => cases member
  | cons head tail inductionHypothesis =>
      rw [List.map_cons, List.nodup_cons] at keys
      rcases List.mem_cons.mp member with rfl | later
      · cases found : value item with
        | none =>
            rw [List.filterMap_cons_none (by rw [found]; rfl)]
            exact absent tail keys.1
        | some inner =>
            rw [List.filterMap_cons_some (by rw [found]; rfl)]
            exact List.lookup_cons_self
      · have different : key item ≠ key head := fun same =>
          keys.1 (same ▸ List.mem_map.mpr ⟨item, later, rfl⟩)
        cases found : value head with
        | none =>
            rw [List.filterMap_cons_none (by rw [found]; rfl)]
            exact inductionHypothesis keys.2 later
        | some inner =>
            rw [List.filterMap_cons_some (by rw [found]; rfl), List.lookup_cons,
              beq_false_of_ne different]
            exact inductionHypothesis keys.2 later

section

variable {members : List LoadedMember} {families : List LoadedFamily}
  {member : LoadedMember}

theorem member_lookup
    (keys : (members.map LoadedMember.key).Nodup) (isMember : member ∈ members) :
    (afterFamilies members families).corpus.member.lookup member.key =
      some (stored member.values) := by
  refine lookup_of_mem ?_ (List.mem_map.mpr ⟨member, isMember, rfl⟩)
  change (List.map _ (List.map _ members)).Nodup
  rw [List.map_map]
  exact keys

theorem contact_lookup
    (keys : (members.map LoadedMember.key).Nodup) (isMember : member ∈ members) :
    (afterFamilies members families).corpus.contact.lookup (.member, member.key) =
      member.contact := by
  have ownKeys : (members.map fun member => (OwnerKind.member, member.key)).Nodup := by
    have pairs : (members.map fun member => (OwnerKind.member, member.key)) =
        (members.map LoadedMember.key).map fun key => (OwnerKind.member, key) := by
      rw [List.map_map]
      rfl
    rw [pairs]
    exact keys.map fun left right same => (Prod.mk.inj same).2
  have own : (members.filterMap LoadedMember.contactEntry).lookup
      (OwnerKind.member, member.key) = member.contact :=
    lookup_filterMap ownKeys isMember
  have noFamily : (families.filterMap LoadedFamily.contactEntry).lookup
      (OwnerKind.member, member.key) = none := by
    refine lookup_of_not_mem fun named => ?_
    obtain ⟨entry, isEntry, same⟩ := List.mem_map.mp named
    obtain ⟨family, _, found⟩ := List.mem_filterMap.mp isEntry
    obtain ⟨_, _, rfl⟩ := Option.map_eq_some_iff.mp found
    cases same
  change ((members.filterMap LoadedMember.contactEntry) ++ _).lookup _ = _
  rw [List.lookup_append, noFamily, Option.or_none]
  exact own

theorem memberEmails_lookup
    (keys : (members.map LoadedMember.key).Nodup) (isMember : member ∈ members) :
    (afterMembers members).memberEmails.lookup member.identifier =
      some member.hasAddress := by
  refine lookup_of_mem ?_ (List.mem_map.mpr ⟨member, isMember, rfl⟩)
  change (List.map _ (List.map _ members)).Nodup
  rw [List.map_map]
  refine List.Nodup.of_map idKey ?_
  rw [List.map_map]
  exact keys

end

/-! ## Heads -/

/-- The heads of a Family that the rule accepts. -/
def acceptedHeads (members : List LoadedMember) (rule : Option FamiliesRule)
    (familyId : Int) : List LoadedMember :=
  members.filter fun member => member.familyId == familyId &&
    (memberIsHead member.values && memberMatchesRule member.values rule)

theorem familyHeads_valuesOf
    {members : List LoadedMember} {rule : Option FamiliesRule} {familyId : Int}
    (named : ∀ member ∈ members,
      member.values.integer? "memberDUID" = some member.identifier) :
    ((familyHeads (valuesOf members familyId)).filter fun head =>
      memberMatchesRule head.2 rule).map Prod.fst =
        (acceptedHeads members rule familyId).map LoadedMember.identifier := by
  induction members with
  | nil => rfl
  | cons head tail inductionHypothesis =>
      have rest := inductionHypothesis fun member isMember =>
        named member (List.mem_cons_of_mem _ isMember)
      have identity := named head List.mem_cons_self
      unfold familyHeads valuesOf acceptedHeads at rest ⊢
      by_cases ofFamily : head.familyId = familyId
      · by_cases isHead : memberIsHead head.values = true
        · by_cases accepted : memberMatchesRule head.values rule = true
          · simpa [ofFamily, isHead, accepted, identity] using rest
          · simpa [ofFamily, isHead, accepted, identity] using rest
        · simpa [ofFamily, isHead] using rest
      · simpa [ofFamily] using rest

theorem mapM_headId
    {heads : List Int} (bounded : ∀ head ∈ heads, IsIdentity head) :
    (heads.map StoredValue.integer).mapM headId = some heads := by
  induction heads with
  | nil => rfl
  | cons head tail inductionHypothesis =>
      have first : headId (.integer head) = some head :=
        if_pos (bounded head List.mem_cons_self)
      rw [List.map_cons, List.mapM_cons, first, inductionHypothesis fun other isOther =>
        bounded other (List.mem_cons_of_mem _ isOther)]
      rfl

/-! ## Addresses -/

/-- The valid addresses of a contact's emails. -/
def validAddresses (emails : List (Text × Bool)) : List Text :=
  (emails.map fun email => if email.2 then some email.1 else none).reduceOption

theorem mem_validAddresses
    {emails : List (Text × Bool)} {address : Text} :
    address ∈ validAddresses emails ↔ (address, true) ∈ emails := by
  unfold validAddresses
  rw [List.reduceOption_mem_iff, List.mem_map]
  constructor
  · rintro ⟨⟨value, valid⟩, isEmail, found⟩
    cases valid
    · cases found
    · cases found
      exact isEmail
  · intro isEmail
    exact ⟨_, isEmail, rfl⟩

section

variable [Unicode] [EmailValidator]

theorem mapM_emailAddress
    {emails : List (Text × Bool)} (canonical : CanonicalEmails emails) :
    (emails.map emailPayload).mapM emailAddress =
      some (emails.map fun email => if email.2 then some email.1 else none) := by
  induction emails with
  | nil => rfl
  | cons head tail inductionHypothesis =>
      have first : emailAddress (emailPayload head) =
          some (if head.2 then some head.1 else none) := by
        obtain ⟨value, valid⟩ := head
        cases valid
        · rfl
        · have settled := canonical _ List.mem_cons_self rfl
          change (if normalizedEmail value = some value then some (some value)
            else none) = _
          rw [if_pos settled]
          rfl
      rw [List.map_cons, List.mapM_cons, first, inductionHypothesis fun email isEmail =>
        canonical email (List.mem_cons_of_mem _ isEmail)]
      rfl

theorem contactAddresses_eq
    {identifier : Int} {emails : List (Text × Bool)} {contact : Payload}
    (agrees : ContactSays .member identifier emails contact)
    (canonical : CanonicalEmails emails) :
    contactAddresses identifier contact = some (validAddresses emails) := by
  unfold contactAddresses
  rw [agrees.version, agrees.ownerKind, agrees.ownerKey, agrees.listed]
  simp only [beq_self_eq_true, Bool.and_self, if_true]
  rw [mapM_emailAddress canonical]
  rfl

/-- What a head that the rule accepts adds to its Family's addresses. -/
theorem headAddresses_eq
    {members : List LoadedMember} {families : List LoadedFamily}
    {known : List Int} {member : LoadedMember}
    (keys : (members.map LoadedMember.key).Nodup) (isMember : member ∈ members)
    (sound : MemberSound known member) (active : memberIsActive member.values = true) :
    headAddresses (afterFamilies members families).corpus (idKey member.familyId)
      member.identifier = some (validAddresses member.emails) := by
  have isStored : (afterFamilies members families).corpus.member.lookup member.key =
      some (stored member.values) := member_lookup keys isMember
  have isContact : (afterFamilies members families).corpus.contact.lookup
      (.member, member.key) = member.contact := contact_lookup keys isMember
  have family : (stored member.values).text? "family_key" =
      some (idKey member.familyId).toList :=
    (Payload.text?_congr (lookup_stored (by decide))).trans sound.record.family
  have isActive : (stored member.values).boolean? "active" = some true := by
    rw [Payload.boolean?_congr (lookup_stored (by decide)), sound.record.active, active]
  unfold headAddresses
  rw [show idKey member.identifier = member.key from rfl, isStored]
  dsimp only
  rw [isFirstVersion_stored, family, isActive, isContact]
  simp only [beq_self_eq_true, Bool.and_self, if_true]
  cases given : member.contact with
  | none =>
      rw [sound.noContact given]
      rfl
  | some contact =>
      exact contactAddresses_eq (sound.contact contact given) sound.canonical

end

/-! ## Rows -/

/-- What a stored row says of the Family it was made of. -/
structure RowSays [RuleDigests] (organization : Int) (rule : Option FamiliesRule)
    (heads : List Int) (memberEmails : List (Int × Bool)) (facts : FamilyFacts)
    (row : Payload) : Prop where
  version : isFirstVersion row = true
  active : row.boolean? "active" = some (familyIsActive facts)
  parishioner : row.boolean? "parishioner" =
    some (familyIsParishioner facts (some organization))
  portal : row.boolean? "portal_eligible" =
    some (familyMatchesRule facts rule (some organization))
  email : row.boolean? "email_eligible" =
    some (familyMatchesRule facts rule (some organization) &&
      heads.any fun head => (memberEmails.lookup head).getD false)
  heads : row.lookup "active_head_duids" =
    some (.list ((heads.insertionSort (· ≤ ·)).map .integer))
  registered : row.integer? "registeredOrganizationID" =
    facts.registeredOrganizationId
  famGroup : row.integer? "famGroupID" = facts.famGroupId
  group : row.text? "family_group" = facts.group
  hasGroup : (row.lookup "family_group").isNone = false
  marker : row.lookup "campaign_families" = (ruleDigest rule).map .text

section

variable [RuleDigests]

theorem rowSays_familyRow
    {organization : Int} {rule : Option FamiliesRule} {members : List Payload}
    {memberEmails : List (Int × Bool)} {values : Payload} {group : Option Text}
    {heads : List Int} (unmarked : values.lookup "campaign_families" = none)
    (areHeads : ((familyHeads members).filter fun head =>
      memberMatchesRule head.2 rule).map Prod.fst = heads) :
    RowSays organization rule heads memberEmails
      ⟨values.integer? "registeredOrganizationID", values.integer? "famGroupID",
        group, members⟩
      (stored (familyRow organization rule members memberEmails values group)) := by
  subst areHeads
  cases digest : ruleDigest rule with
  | none =>
      refine ⟨rfl, ?_, ?_, ?_, ?_, ?_, ?_, ?_, ?_, ?_, ?_⟩
      all_goals simp (disch := decide) [familyRow, digest, Payload.boolean?,
        Payload.integer?, Payload.text?, lookup_stored, Payload.lookup_set_of_ne,
        unmarked]
      cases group <;> rfl
  | some marker =>
      refine ⟨rfl, ?_, ?_, ?_, ?_, ?_, ?_, ?_, ?_, ?_, ?_⟩
      all_goals simp (disch := decide) [familyRow, digest, Payload.boolean?,
        Payload.integer?, Payload.text?, lookup_stored, Payload.lookup_set_of_ne]
      cases group <;> rfl

/-! ## Eligibility read again -/

omit [RuleDigests] in
theorem memberMatchesRule_stored (values : Payload) (rule : Option FamiliesRule) :
    memberMatchesRule (stored values) rule = memberMatchesRule values rule := by
  have same : (stored values).text? "memberStatus" = values.text? "memberStatus" :=
    Payload.text?_congr (lookup_stored (by decide))
  cases rule with
  | none => exact memberIsActive_congr (lookup_stored (by decide))
  | some rule =>
      unfold memberMatchesRule
      rw [same]

omit [RuleDigests] in
/-- No rule accepts an Inactive or a Deceased Member. -/
theorem memberIsActive_of_matches
    {values : Payload} {rule : Option FamiliesRule}
    (accepted : memberMatchesRule values rule = true) :
    memberIsActive values = true := by
  cases rule with
  | none => exact accepted
  | some rule =>
      unfold memberMatchesRule at accepted
      cases isStatus : values.text? "memberStatus" with
      | none =>
          rw [isStatus] at accepted
          cases accepted
      | some status =>
      rw [isStatus] at accepted
      have listed : rule.memberStatuses.contains status = true := accepted
      have known : status ∈ ["Active".toList, "ActOther".toList, "Unknown".toList] := by
        rw [List.contains_iff_mem] at listed
        cases rule with
        | activeParishioners =>
            rw [List.mem_singleton.mp listed]
            decide
        | activeParishionersAndStaff =>
            rw [List.mem_singleton.mp listed]
            decide
        | advanced registered groups statuses =>
            obtain ⟨named, _, rfl⟩ := List.mem_map.mp listed
            cases named <;> decide
      unfold memberIsActive memberIsDeceased
      rw [isStatus]
      simp only [List.mem_cons, List.not_mem_nil, or_false] at known
      rcases known with rfl | rfl | rfl <;> decide

omit [RuleDigests] in
/-- The corpus puts under a Family the Members it was read with. -/
theorem membersOf_corpus
    {members : List LoadedMember} {families : List LoadedFamily} {familyId : Int}
    (bounded : IsIdentity familyId)
    (named : ∀ member ∈ members, IsIdentity member.familyId ∧
      member.values.text? "family_key" = some (idKey member.familyId).toList) :
    (afterFamilies members families).corpus.membersOf (idKey familyId) =
      (valuesOf members familyId).map stored := by
  unfold Corpus.membersOf valuesOf afterFamilies afterMembers
  dsimp only
  rw [List.map_map, List.filter_map, List.map_map]
  refine congrArg (List.map _) (List.filter_congr fun member isMember => ?_)
  obtain ⟨identity, ofFamily⟩ := named member isMember
  have read : (stored member.values).text? "family_key" =
      some (idKey member.familyId).toList :=
    (Payload.text?_congr (lookup_stored (by decide))).trans ofFamily
  change ((stored member.values).text? "family_key" ==
    some (idKey familyId).toList) = (member.familyId == familyId)
  rw [read, Bool.eq_iff_iff, beq_iff_eq, beq_iff_eq]
  constructor
  · intro same
    exact idKey_injective identity bounded
      (String.toList_injective (Option.some.inj same))
  · rintro rfl
    rfl

omit [RuleDigests] in
/-- Registration kept as a flag is registration here. -/
theorem familyIsParishioner_flag
    (facts : FamilyFacts) (organization : Int) (members : List Payload) :
    familyIsParishioner { facts with members := members }
        (if familyIsParishioner facts (some organization) then
          facts.registeredOrganizationId else none) =
      familyIsParishioner facts (some organization) := by
  unfold familyIsParishioner
  cases facts.registeredOrganizationId with
  | none => simp
  | some registered =>
      by_cases same : registered = organization
      · simp [same]
      · simp [same]

/-- The rule gives the row's own facts what it gave the provider's. -/
theorem ruleEligible_eq
    {organization : Int} {rule : FamiliesRule} {heads : List Int}
    {memberEmails : List (Int × Bool)} {facts : FamilyFacts} {row : Payload}
    (agrees : RowSays organization (some rule) heads memberEmails facts row) :
    ruleEligible row (familyIsParishioner facts (some organization)) rule
        (facts.members.map stored) =
      familyMatchesRule facts (some rule) (some organization) := by
  have counted : ((facts.members.map stored).any fun member =>
      memberMatchesRule member (some rule)) =
        facts.members.any fun member => memberMatchesRule member (some rule) := by
    rw [List.any_map]
    exact congrArg (List.any facts.members)
      (funext fun member => memberMatchesRule_stored member (some rule))
  have flag := familyIsParishioner_flag facts organization (facts.members.map stored)
  unfold ruleEligible familyMatchesRule
  dsimp only
  rw [agrees.registered, agrees.famGroup, agrees.group, counted]
  rw [flag]
  rfl

theorem markedEligible_eq
    {organization : Int} {rule : Option FamiliesRule} {heads : List Int}
    {memberEmails : List (Int × Bool)} {facts : FamilyFacts} {row : Payload}
    {corpus : Corpus} {key : String} {portal : Bool}
    (agrees : RowSays organization rule heads memberEmails facts row)
    (sameMembers : corpus.membersOf key = facts.members.map stored) :
    markedEligible corpus (.checked rule) key row (familyIsActive facts)
        (familyIsParishioner facts (some organization)) portal =
      some (familyMatchesRule facts rule (some organization)) := by
  have marker := agrees.marker
  have hasGroup := agrees.hasGroup
  unfold markedEligible
  cases rule with
  | none =>
      rw [marker]
      rfl
  | some rule =>
      rw [marker]
      change (if some (RuleDigests.sha rule) ≠ some (RuleDigests.sha rule) ∨
          (row.lookup "family_group").isNone then none else _) = _
      rw [if_neg (by simp [hasGroup]), sameMembers]
      exact congrArg some (ruleEligible_eq agrees)

end

end ParishKit.Source
