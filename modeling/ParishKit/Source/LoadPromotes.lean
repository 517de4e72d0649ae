import ParishKit.Lib.Keyed
import ParishKit.Source.LoadedEligibility

/-!
# Every load that normalizes can be promoted

Eligibility read from a normalized corpus is what the load recorded, for the rule
of the load and for no other.
-/

namespace ParishKit.Source

open ParishKit.Lib (find?_key_of_mem option_mapM_of_exists option_mapM_of_forall)
open ParishKit.Responses (Text Unicode IsoDates EmailValidator normalizedEmail
  asciiUnicode plainDates)

/-- A head of the Family, accepted by the rule, whose contact has this address. -/
def HeadLists (corpus : Corpus) (rule : Option FamiliesRule) (key : String)
    (address : Text) : Prop :=
  ∃ memberKey member contact emails,
    (memberKey, member) ∈ corpus.member ∧
    member.text? "family_key" = some key.toList ∧
    memberIsHead member = true ∧ memberMatchesRule member rule = true ∧
    ((OwnerKind.member, memberKey), contact) ∈ corpus.contact ∧
    contact.lookup "emails" = some (.list emails) ∧
    emailPayload (address, true) ∈ emails

/-- Eligibility read from a row agrees with the row and with the corpus. -/
structure ReadAsRecorded (corpus : Corpus) (rule : Option FamiliesRule)
    (row : String × Payload) (result : FamilyEligibility) : Prop where
  key : result.key = row.1
  portal : row.2.boolean? "portal_eligible" = some result.eligible
  email : row.2.boolean? "email_eligible" =
    some (result.eligible && !result.addresses.isEmpty)
  addresses : ∀ address, address ∈ result.addresses ↔
    HeadLists corpus rule row.1 address

/-- A contact's owner is a record of the corpus, and the contact names it. -/
structure OwnerKnown (corpus : Corpus) (contact : (OwnerKind × String) × Payload) :
    Prop where
  kind : contact.2.text? "owner_kind" = some contact.1.1.name
  key : contact.2.text? "owner_key" = some contact.1.2.toList
  owner : match contact.1.1 with
    | .member => contact.1.2 ∈ corpus.member.map Prod.fst
    | .family => contact.1.2 ∈ corpus.family.map Prod.fst

/-! ## The accepted heads -/

section

variable {members : List LoadedMember} {families : List LoadedFamily}
  {rule : Option FamiliesRule} {familyId : Int} {member : LoadedMember}

theorem mem_acceptedHeads :
    member ∈ acceptedHeads members rule familyId ↔
      member ∈ members ∧ member.familyId = familyId ∧
        memberIsHead member.values = true ∧
        memberMatchesRule member.values rule = true := by
  unfold acceptedHeads
  rw [List.mem_filter, Bool.and_eq_true, Bool.and_eq_true, beq_iff_eq]

theorem identifiers_nodup (keys : (members.map LoadedMember.key).Nodup) :
    (members.map LoadedMember.identifier).Nodup := by
  refine List.Nodup.of_map idKey ?_
  rw [List.map_map]
  exact keys

/-- The valid addresses of a Member, by its identity. -/
def addressesOf (members : List LoadedMember) (head : Int) : List Text :=
  ((members.find? fun member => member.identifier == head).map
    fun member => validAddresses member.emails).getD []

theorem addressesOf_identifier
    (keys : (members.map LoadedMember.key).Nodup) (isMember : member ∈ members) :
    addressesOf members member.identifier = validAddresses member.emails := by
  unfold addressesOf
  rw [find?_key_of_mem (identifiers_nodup keys) isMember]
  rfl

/-- The identities a row lists. -/
def headIds (members : List LoadedMember) (rule : Option FamiliesRule)
    (familyId : Int) : List Int :=
  (acceptedHeads members rule familyId).map LoadedMember.identifier

theorem headIds_nodup (keys : (members.map LoadedMember.key).Nodup) :
    (headIds members rule familyId).Nodup :=
  (identifiers_nodup keys).sublist (List.filter_sublist.map _)

theorem mem_headIds_sorted {head : Int} :
    head ∈ (headIds members rule familyId).insertionSort (· ≤ ·) ↔
      ∃ member ∈ acceptedHeads members rule familyId, member.identifier = head := by
  rw [List.mem_insertionSort]
  exact List.mem_map

/-- An address of the heads is one of an accepted head. -/
theorem mem_addresses
    (keys : (members.map LoadedMember.key).Nodup) {address : Text} :
    address ∈ (((headIds members rule familyId).insertionSort (· ≤ ·)).map
        (addressesOf members)).flatten ↔
      ∃ member ∈ acceptedHeads members rule familyId,
        (address, true) ∈ member.emails := by
  rw [List.mem_flatten]
  constructor
  · rintro ⟨found, isFound, isAddress⟩
    obtain ⟨head, isHead, rfl⟩ := List.mem_map.mp isFound
    obtain ⟨member, accepted, rfl⟩ := mem_headIds_sorted.mp isHead
    rw [addressesOf_identifier keys (mem_acceptedHeads.mp accepted).1] at isAddress
    exact ⟨member, accepted, mem_validAddresses.mp isAddress⟩
  · rintro ⟨member, accepted, isEmail⟩
    refine ⟨validAddresses member.emails, List.mem_map.mpr ⟨member.identifier,
      mem_headIds_sorted.mpr ⟨member, accepted, rfl⟩, ?_⟩,
      mem_validAddresses.mpr isEmail⟩
    exact addressesOf_identifier keys (mem_acceptedHeads.mp accepted).1

/-- Some head was loaded with an address when the heads have one. -/
theorem any_memberEmails
    (keys : (members.map LoadedMember.key).Nodup) :
    ((headIds members rule familyId).any fun head =>
        ((afterMembers members).memberEmails.lookup head).getD false) =
      !(((headIds members rule familyId).insertionSort (· ≤ ·)).map
        (addressesOf members)).flatten.isEmpty := by
  rw [Bool.eq_iff_iff, List.any_eq_true, Bool.not_eq_true', List.isEmpty_eq_false_iff_exists_mem]
  constructor
  · rintro ⟨head, isHead, hasAddress⟩
    obtain ⟨member, accepted, rfl⟩ := List.mem_map.mp isHead
    rw [memberEmails_lookup keys (mem_acceptedHeads.mp accepted).1] at hasAddress
    obtain ⟨⟨address, valid⟩, isEmail, isValid⟩ := List.any_eq_true.mp hasAddress
    cases (isValid : valid = true)
    exact ⟨address, (mem_addresses keys).mpr ⟨member, accepted, isEmail⟩⟩
  · rintro ⟨address, isAddress⟩
    obtain ⟨member, accepted, isEmail⟩ := (mem_addresses keys).mp isAddress
    refine ⟨member.identifier, List.mem_map.mpr ⟨member, accepted, rfl⟩, ?_⟩
    rw [memberEmails_lookup keys (mem_acceptedHeads.mp accepted).1]
    exact List.any_eq_true.mpr ⟨_, isEmail, rfl⟩

theorem rowHeads_eq
    {row : Payload} {heads : List Int} (bounded : ∀ head ∈ heads, IsIdentity head)
    (distinct : heads.Nodup)
    (listed : row.lookup "active_head_duids" =
      some (.list ((heads.insertionSort (· ≤ ·)).map .integer))) :
    rowHeads row = some (heads.insertionSort (· ≤ ·)) := by
  have sortedDistinct : (heads.insertionSort (· ≤ ·)).Nodup :=
    (List.perm_insertionSort _ heads).nodup_iff.mpr distinct
  have sortedBounded : ∀ head ∈ heads.insertionSort (· ≤ ·), IsIdentity head :=
    fun head isHead => bounded head ((List.mem_insertionSort _).mp isHead)
  unfold rowHeads
  rw [listed]
  dsimp only
  rw [mapM_headId sortedBounded]
  exact if_pos sortedDistinct

end

/-! ## What the corpus lists -/

section

variable {members : List LoadedMember} {families : List LoadedFamily}

theorem mem_contacts
    {entry : (OwnerKind × String) × Payload}
    (isEntry : entry ∈ (afterFamilies members families).corpus.contact) :
    (∃ member ∈ members, member.contact = some entry.2 ∧
        entry.1 = (.member, member.key)) ∨
      ∃ family ∈ families, family.contact = some entry.2 ∧
        entry.1 = (.family, family.key) := by
  rcases List.mem_append.mp isEntry with ofMember | ofFamily
  · obtain ⟨member, isMember, found⟩ := List.mem_filterMap.mp ofMember
    obtain ⟨contact, isContact, rfl⟩ := Option.map_eq_some_iff.mp found
    exact Or.inl ⟨member, isMember, isContact, rfl⟩
  · obtain ⟨family, isFamily, found⟩ := List.mem_filterMap.mp ofFamily
    obtain ⟨contact, isContact, rfl⟩ := Option.map_eq_some_iff.mp found
    exact Or.inr ⟨family, isFamily, isContact, rfl⟩

/-- A Member's contact in the corpus is the one it was read with. -/
theorem mem_memberContacts
    {member : LoadedMember} {contact : Payload}
    (keys : (members.map LoadedMember.key).Nodup) (isMember : member ∈ members) :
    ((OwnerKind.member, member.key), contact) ∈
        (afterFamilies members families).corpus.contact ↔
      member.contact = some contact := by
  constructor
  · intro isEntry
    rcases mem_contacts isEntry with
      ⟨other, isOther, isContact, same⟩ | ⟨_, _, _, same⟩
    · have sameKey : member.key = other.key := (Prod.mk.inj same).2
      rw [List.inj_on_of_nodup_map keys isMember isOther sameKey]
      exact isContact
    · cases (Prod.mk.inj same).1
  · intro isContact
    refine List.mem_append_left _ (List.mem_filterMap.mpr ⟨member, isMember, ?_⟩)
    unfold LoadedMember.contactEntry
    rw [isContact]
    rfl

theorem memberIsHead_stored (values : Payload) :
    memberIsHead (stored values) = memberIsHead values := by
  have same : (stored values).text? "memberType" = values.text? "memberType" :=
    Payload.text?_congr (lookup_stored (by decide))
  unfold memberIsHead
  rw [same]

theorem emailPayload_injective {left right : Text × Bool}
    (same : emailPayload left = emailPayload right) : left = right := by
  obtain ⟨leftValue, leftValid⟩ := left
  obtain ⟨rightValue, rightValid⟩ := right
  simp only [emailPayload, StoredValue.object.injEq, List.cons.injEq, Prod.mk.injEq,
    StoredValue.text.injEq, StoredValue.boolean.injEq, true_and, and_true] at same
  rw [same.1, same.2]

/-- A stored Member names the Family it was read under. -/
theorem family_stored
    [Unicode] [EmailValidator] {known : List Int} {member : LoadedMember}
    {familyId : Int} (sound : MemberSound known member) (bounded : IsIdentity familyId) :
    (stored member.values).text? "family_key" = some (idKey familyId).toList ↔
      member.familyId = familyId := by
  have read : (stored member.values).text? "family_key" =
      some (idKey member.familyId).toList :=
    (Payload.text?_congr (lookup_stored (by decide))).trans sound.record.family
  rw [read]
  constructor
  · intro same
    exact idKey_injective sound.family bounded
      (String.toList_injective (Option.some.inj same))
  · rintro rfl
    rfl

end

/-! ## Eligibility of one row -/

section

variable [Unicode] [EmailValidator]

/-- The addresses of the accepted heads are read back. -/
theorem mapM_headAddresses
    {members : List LoadedMember} {families : List LoadedFamily} {known : List Int}
    {rule : Option FamiliesRule} {familyId : Int}
    (keys : (members.map LoadedMember.key).Nodup)
    (sound : ∀ member ∈ members, MemberSound known member) :
    ((headIds members rule familyId).insertionSort (· ≤ ·)).mapM
        (headAddresses (afterFamilies members families).corpus (idKey familyId)) =
      some (((headIds members rule familyId).insertionSort (· ≤ ·)).map
        (addressesOf members)) := by
  refine option_mapM_of_forall fun head isHead => ?_
  obtain ⟨member, accepted, rfl⟩ := mem_headIds_sorted.mp isHead
  obtain ⟨isMember, rfl, _, matchesRule⟩ := mem_acceptedHeads.mp accepted
  rw [addressesOf_identifier keys isMember]
  exact headAddresses_eq keys isMember (sound member isMember)
    (memberIsActive_of_matches matchesRule)

/-- The corpus lists an address for a head as the load read it. -/
theorem headLists_iff
    {members : List LoadedMember} {families : List LoadedFamily} {known : List Int}
    {rule : Option FamiliesRule} {familyId : Int} {address : Text}
    (bounded : IsIdentity familyId) (keys : (members.map LoadedMember.key).Nodup)
    (sound : ∀ member ∈ members, MemberSound known member) :
    HeadLists (afterFamilies members families).corpus rule (idKey familyId) address ↔
      ∃ member ∈ acceptedHeads members rule familyId,
        (address, true) ∈ member.emails := by
  constructor
  · rintro ⟨memberKey, payload, contact, emails, isMember, ofFamily, isHead,
      matchesRule, isContact, listed, isEmail⟩
    obtain ⟨member, isLoaded, same⟩ := List.mem_map.mp isMember
    cases same
    rw [memberIsHead_stored] at isHead
    rw [memberMatchesRule_stored] at matchesRule
    have isSound := sound member isLoaded
    have accepted : member ∈ acceptedHeads members rule familyId :=
      mem_acceptedHeads.mpr
        ⟨isLoaded, (family_stored isSound bounded).mp ofFamily, isHead, matchesRule⟩
    have own := isSound.contact contact ((mem_memberContacts keys isLoaded).mp isContact)
    rw [own.listed] at listed
    cases listed
    obtain ⟨email, isListed, sameEmail⟩ := List.mem_map.mp isEmail
    cases emailPayload_injective sameEmail
    exact ⟨member, accepted, isListed⟩
  · rintro ⟨member, accepted, isEmail⟩
    obtain ⟨isLoaded, ofFamily, isHead, matchesRule⟩ := mem_acceptedHeads.mp accepted
    have isSound := sound member isLoaded
    cases given : member.contact with
    | none =>
        rw [isSound.noContact given] at isEmail
        cases isEmail
    | some contact =>
        refine ⟨member.key, stored member.values, contact, _,
          List.mem_map.mpr ⟨member, isLoaded, rfl⟩,
          (family_stored isSound bounded).mpr ofFamily, ?_, ?_,
          (mem_memberContacts keys isLoaded).mpr given,
          (isSound.contact contact given).listed, List.mem_map_of_mem isEmail⟩
        · rw [memberIsHead_stored, isHead]
        · rw [memberMatchesRule_stored, matchesRule]

variable [RuleDigests]

theorem eligibility_eq
    {organization : Int} {members : List LoadedMember}
    {families : List LoadedFamily} {known : List Int} {rule : Option FamiliesRule}
    {family : LoadedFamily} (keys : (members.map LoadedMember.key).Nodup)
    (sound : ∀ member ∈ members, MemberSound known member)
    (familySound : FamilySound organization rule members family) :
    ∃ result, eligibility (afterFamilies members families).corpus (.checked rule)
        (family.key, stored family.row) = some result ∧
      ReadAsRecorded (afterFamilies members families).corpus rule
        (family.key, stored family.row) result := by
  obtain ⟨values, group, unmarked, isRow⟩ := familySound.row
  let facts : FamilyFacts := ⟨values.integer? "registeredOrganizationID",
    values.integer? "famGroupID", group, valuesOf members family.identifier⟩
  let heads := headIds members rule family.identifier
  let addresses := ((heads.insertionSort (· ≤ ·)).map (addressesOf members)).flatten
  let eligible := familyMatchesRule facts rule (some organization)
  have areHeads : ((familyHeads (valuesOf members family.identifier)).filter
      fun head => memberMatchesRule head.2 rule).map Prod.fst = heads :=
    familyHeads_valuesOf fun member isMember => (sound member isMember).record.identity
  have row : RowSays organization rule heads (afterMembers members).memberEmails facts
      (stored family.row) := by
    rw [isRow]
    exact rowSays_familyRow unmarked areHeads
  have headsBounded : ∀ head ∈ heads, IsIdentity head := by
    intro head isHead
    obtain ⟨member, accepted, rfl⟩ := List.mem_map.mp isHead
    exact (sound member (mem_acceptedHeads.mp accepted).1).identity
  have isHeads := rowHeads_eq headsBounded (headIds_nodup keys) row.heads
  have sameMembers : (afterFamilies members families).corpus.membersOf family.key =
      facts.members.map stored := membersOf_corpus familySound.identity
    fun member isMember =>
      ⟨(sound member isMember).family, (sound member isMember).record.family⟩
  have email : (stored family.row).boolean? "email_eligible" =
      some (eligible && !addresses.isEmpty) := by
    rw [row.email, any_memberEmails keys]
  have isAddresses : (heads.insertionSort (· ≤ ·)).mapM
      (headAddresses (afterFamilies members families).corpus family.key) =
        some ((heads.insertionSort (· ≤ ·)).map (addressesOf members)) :=
    mapM_headAddresses keys sound
  have isMarked : markedEligible (afterFamilies members families).corpus
      (.checked rule) family.key (stored family.row) (familyIsActive facts)
      (familyIsParishioner facts (some organization)) eligible = some eligible :=
    markedEligible_eq row sameMembers
  have named : isIdKey family.key = true := isIdKey_idKey familySound.identity
  refine ⟨⟨family.key, familyIsActive facts, eligible, addresses⟩, ?_, ?_⟩
  · unfold eligibility
    dsimp only
    rw [row.active, row.parishioner, row.portal, email, isHeads]
    simp only [Option.bind_eq_bind, Option.bind_some]
    rw [isAddresses, Option.map_eq_map, Option.map_some, Option.bind_some, isMarked,
      Option.bind_some]
    refine if_pos ?_
    rw [named, isFirstVersion_stored]
    simp [eligible, addresses]
  · exact {
      key := rfl
      portal := row.portal
      email := email
      addresses := fun address => (mem_addresses keys).trans
        (headLists_iff familySound.identity keys sound).symm }

omit [Unicode] [EmailValidator] in
/-- Under another digest no row of the load is accepted. -/
theorem markedEligible_other
    {organization : Int} {rule other : Option FamiliesRule} {heads : List Int}
    {memberEmails : List (Int × Bool)} {facts : FamilyFacts} {row : Payload}
    {corpus : Corpus} {key : String} {active parishioner portal : Bool}
    (agrees : RowSays organization rule heads memberEmails facts row)
    (different : ruleDigest other ≠ ruleDigest rule) :
    markedEligible corpus (.checked other) key row active parishioner portal =
      none := by
  have marker := agrees.marker
  unfold markedEligible
  cases digest : ruleDigest rule with
  | none =>
      rw [digest] at marker different
      rw [marker]
      cases other with
      | none => exact absurd rfl different
      | some other => rfl
  | some found =>
      rw [digest] at marker different
      rw [marker]
      exact if_pos (Or.inl (Ne.symm different))

theorem eligibility_other
    {organization : Int} {members : List LoadedMember} {corpus : Corpus}
    {rule other : Option FamiliesRule} {family : LoadedFamily}
    (familySound : FamilySound organization rule members family)
    (different : ruleDigest other ≠ ruleDigest rule) :
    eligibility corpus (.checked other) (family.key, stored family.row) = none := by
  obtain ⟨values, group, unmarked, isRow⟩ := familySound.row
  rw [isRow]
  have row : RowSays organization rule _ _ _ (stored (familyRow organization rule
      (valuesOf members family.identifier) (afterMembers members).memberEmails values
      group)) := rowSays_familyRow unmarked rfl
  rw [Option.eq_none_iff_forall_ne_some]
  intro result isResult
  obtain ⟨_, _, afterActive⟩ := Option.bind_eq_some_iff.mp isResult
  obtain ⟨_, _, afterParishioner⟩ := Option.bind_eq_some_iff.mp afterActive
  obtain ⟨_, _, afterPortal⟩ := Option.bind_eq_some_iff.mp afterParishioner
  obtain ⟨_, _, afterEmail⟩ := Option.bind_eq_some_iff.mp afterPortal
  obtain ⟨_, _, afterHeads⟩ := Option.bind_eq_some_iff.mp afterEmail
  obtain ⟨_, _, afterAddresses⟩ := Option.bind_eq_some_iff.mp afterHeads
  obtain ⟨eligible, isMarked, _⟩ := Option.bind_eq_some_iff.mp afterAddresses
  rw [markedEligible_other row different] at isMarked
  cases isMarked

end

/-! ## The whole corpus -/

section

variable [Unicode] [IsoDates] [EmailValidator] [RuleDigests]

omit [IsoDates] in
theorem familyEligibility_eq_error
    {corpus : Corpus} {rule : RuleCheck} (someFamily : corpus.family ≠ [])
    (refused : ∀ row ∈ corpus.family, eligibility corpus rule row = none) :
    familyEligibility corpus rule = .error inconsistent := by
  have refusesRows : (corpus.family.insertionSort fun left right =>
      left.1 ≤ right.1).mapM (eligibility corpus rule) = none := by
    cases sorted : corpus.family.insertionSort fun left right => left.1 ≤ right.1 with
    | nil =>
        have sameLength := List.length_insertionSort
          (fun left right : String × Payload => left.1 ≤ right.1) corpus.family
        rw [sorted] at sameLength
        exact absurd (List.length_eq_zero_iff.mp sameLength.symm) someFamily
    | cons first rest =>
        have isFirst : first ∈ corpus.family := by
          rw [← List.mem_insertionSort fun left right => left.1 ≤ right.1, sorted]
          exact List.mem_cons_self
        rw [List.mapM_cons, refused first isFirst]
        rfl
  unfold familyEligibility
  dsimp only
  rw [refusesRows]

omit [IsoDates] in
theorem familyEligibility_eq_ok
    {corpus : Corpus} {rule : RuleCheck}
    {Says : String × Payload → FamilyEligibility → Prop}
    (grouped : ∀ member ∈ corpus.member, (member.2.lookup "family_key").isSome = true)
    (each : ∀ row ∈ corpus.family, ∃ result,
      eligibility corpus rule row = some result ∧ Says row result) :
    ∃ results, familyEligibility corpus rule = .ok results ∧
      List.Forall₂ Says (corpus.family.insertionSort fun left right =>
        left.1 ≤ right.1) results := by
  obtain ⟨results, isResults, each⟩ := option_mapM_of_exists fun row isRow =>
    each row ((List.mem_insertionSort fun left right => left.1 ≤ right.1).mp isRow)
  have allGrouped : (corpus.member.all fun member =>
      (member.2.lookup "family_key").isSome) = true := List.all_eq_true.mpr grouped
  refine ⟨results, ?_, each⟩
  unfold familyEligibility
  dsimp only
  rw [isResults]
  rcases rule with _ | rule
  · rfl
  · cases rule with
    | none => rfl
    | some rule => exact if_pos allGrouped

/-- A load that normalizes is consistent, its Families are eligible as recorded, and
no rule of another digest accepts it while it holds a Family. -/
theorem load_promotes
    (settle : EmailsSettle) {source : ParishSoftData} {rule : Option FamiliesRule}
    {corpus : Corpus} (loaded : normalizeCore source rule = .ok corpus) :
    (∀ member ∈ corpus.member, ∃ family ∈ corpus.family,
      member.2.text? "family_key" = some family.1.toList) ∧
    (∀ contact ∈ corpus.contact, OwnerKnown corpus contact) ∧
    (∃ results, familyEligibility corpus (.checked rule) = .ok results ∧
      List.Forall₂ (ReadAsRecorded corpus rule)
        (corpus.family.insertionSort fun left right => left.1 ≤ right.1) results) ∧
    (corpus.family ≠ [] → ∀ other, ruleDigest other ≠ ruleDigest rule →
      familyEligibility corpus (.checked other) = .error inconsistent) := by
  obtain ⟨members, families, rfl, sound, keys, familiesSound, _⟩ :=
    normalizeCore_eq_ok settle loaded
  refine ⟨?_, ?_, ?_, ?_⟩
  · intro member isMember
    obtain ⟨read, isLoaded, rfl⟩ := List.mem_map.mp isMember
    have isSound := sound read isLoaded
    obtain ⟨family, isFamily, identity⟩ := List.mem_map.mp isSound.retained
    refine ⟨(family.key, stored family.row), List.mem_map.mpr ⟨family, isFamily, rfl⟩, ?_⟩
    exact (family_stored isSound (identity ▸ isSound.family)).mpr identity.symm
  · intro contact isContact
    rcases mem_contacts isContact with
      ⟨member, isLoaded, isRead, named⟩ | ⟨family, isFamily, isRead, named⟩
    · have own := (sound member isLoaded).contact _ isRead
      refine ⟨?_, ?_, ?_⟩
      · rw [named]
        exact own.ownerKind
      · rw [named]
        exact own.ownerKey
      · rw [named]
        exact List.mem_map.mpr ⟨_, List.mem_map.mpr ⟨member, isLoaded, rfl⟩, rfl⟩
    · obtain ⟨emails, own⟩ := (familiesSound family isFamily).contact _ isRead
      refine ⟨?_, ?_, ?_⟩
      · rw [named]
        exact own.ownerKind
      · rw [named]
        exact own.ownerKey
      · rw [named]
        exact List.mem_map.mpr ⟨_, List.mem_map.mpr ⟨family, isFamily, rfl⟩, rfl⟩
  · refine familyEligibility_eq_ok ?_ ?_
    · intro member isMember
      obtain ⟨read, isLoaded, rfl⟩ := List.mem_map.mp isMember
      have isSound := sound read isLoaded
      have ofFamily := (family_stored isSound isSound.family).mpr rfl
      unfold Payload.text? at ofFamily
      dsimp only
      cases found : (stored read.values).lookup "family_key" with
      | none =>
          rw [found] at ofFamily
          cases ofFamily
      | some value => rfl
    · intro row isRow
      obtain ⟨family, isFamily, rfl⟩ := List.mem_map.mp isRow
      exact eligibility_eq keys sound (familiesSound family isFamily)
  · intro someFamily other different
    refine familyEligibility_eq_error someFamily fun row isRow => ?_
    obtain ⟨family, isFamily, rfl⟩ := List.mem_map.mp isRow
    exact eligibility_other (familiesSound family isFamily) different

end

/-! ## Two loads -/

/-- One address is valid, in any case. -/
abbrev oneAddress : EmailValidator where
  valid email := email.map Char.toLower == "a@x.org".toList

/-- Every rule has one digest. -/
abbrev oneDigest : RuleDigests where
  sha _ := "0".toList

theorem emailsSettle_oneAddress :
    letI := asciiUnicode
    letI := oneAddress
    EmailsSettle := by
  let := asciiUnicode
  let := oneAddress
  intro email value normalized
  unfold normalizedEmail at normalized
  split at normalized
  · cases normalized
  · rename_i accepted
    cases normalized
    rw [not_or, not_or, Bool.not_eq_false] at accepted
    have isAddress : Unicode.lower email = "a@x.org".toList :=
      beq_iff_eq.mp accepted.2.2
    rw [isAddress]
    decide

/-- A registered Family with one head, who has an address. -/
def oneFamily : ParishSoftData where
  organizationId := 7
  families := [(1, some fun name => match name with
    | "familyDUID" => some (.integer 1)
    | "registeredOrganizationID" => some (.integer 7)
    | _ => none)]
  members := [(5, some fun name => match name with
    | "memberDUID" => some (.integer 5)
    | "familyDUID" => some (.integer 1)
    | "memberType" => some (.text "Head".toList)
    | "memberStatus" => some (.text "Active".toList)
    | "emailAddress" => some (.text "A@x.org".toList)
    | _ => none)]
  familyGroups := []
  memberContactInfos := []
  unscopedGiving := false

theorem load_promotes_one_family :
    letI := asciiUnicode
    letI := plainDates
    letI := oneAddress
    letI := oneDigest
    ∃ corpus, normalizeCore oneFamily none = .ok corpus ∧
      corpus.family.length = 1 ∧
      (∃ results, familyEligibility corpus (.checked none) = .ok results ∧
        List.Forall₂ (ReadAsRecorded corpus none)
          (corpus.family.insertionSort fun left right => left.1 ≤ right.1) results) ∧
      familyEligibility corpus (.checked (some .activeParishioners)) =
        .error inconsistent := by
  let := asciiUnicode
  let := plainDates
  let := oneAddress
  let := oneDigest
  have counted : (normalizeCore oneFamily none).toOption.map
      (fun corpus => corpus.family.length) = some 1 := by decide +kernel
  cases loaded : normalizeCore oneFamily none with
  | error refusal =>
      rw [loaded] at counted
      cases counted
  | ok corpus =>
      rw [loaded] at counted
      have one : corpus.family.length = 1 := Option.some.inj counted
      obtain ⟨_, _, read, other⟩ := load_promotes emailsSettle_oneAddress loaded
      refine ⟨corpus, rfl, one, read, other ?_ _ ?_⟩
      · rintro empty
        rw [empty] at one
        cases one
      · intro same
        cases same

/-- A load without Families is accepted under every rule. -/
theorem empty_load_promotes_under_any_rule :
    letI := asciiUnicode
    letI := plainDates
    letI := oneAddress
    letI := oneDigest
    ¬ ∀ (source : ParishSoftData) (rule other : Option FamiliesRule) (corpus : Corpus),
      normalizeCore source rule = .ok corpus → ruleDigest other ≠ ruleDigest rule →
        ∃ refusal, familyEligibility corpus (.checked other) = .error refusal := by
  let := asciiUnicode
  let := plainDates
  let := oneAddress
  let := oneDigest
  intro always
  obtain ⟨refusal, isRefused⟩ := always ⟨7, [], [], [], [], false⟩ none
    (some .activeParishioners) ⟨[], [], []⟩ rfl nofun
  cases isRefused

end ParishKit.Source
