import ParishKit.Lib.Except
import ParishKit.Source.FamilyEligibility

/-!
# What a load leaves in the corpus

Each step of the two loops adds one record. The corpus after them is given by the
Members and the Families read, in their order.
-/

namespace ParishKit.Source

open ParishKit.Lib (except_bind_eq_ok except_map_eq_ok except_mapM_eq_ok
  exists_input_of_forall₂)
open ParishKit.Responses (Text Unicode IsoDates EmailValidator strip
  splitEmailAddresses normalizedEmail)

/-! ## Mappings -/

section Lookup

variable {Key Value : Type} [BEq Key] [LawfulBEq Key] {entries : List (Key × Value)}

/-- The entry of a key that stands once. -/
theorem lookup_of_mem
    {key : Key} {value : Value} (keys : (entries.map Prod.fst).Nodup)
    (member : (key, value) ∈ entries) : entries.lookup key = some value := by
  induction entries with
  | nil => cases member
  | cons head tail inductionHypothesis =>
      rw [List.map_cons, List.nodup_cons] at keys
      rcases List.mem_cons.mp member with rfl | later
      · exact List.lookup_cons_self
      · have different : key ≠ head.1 := fun same =>
          keys.1 (same ▸ List.mem_map.mpr ⟨_, later, rfl⟩)
        rw [List.lookup_cons, beq_false_of_ne different]
        exact inductionHypothesis keys.2 later

theorem lookup_of_not_mem
    {key : Key} (absent : key ∉ entries.map Prod.fst) :
    entries.lookup key = none := by
  rw [List.lookup_eq_none_iff]
  intro entry member
  rw [bne_iff_ne]
  rintro rfl
  exact absent (List.mem_map.mpr ⟨entry, member, rfl⟩)

end Lookup

namespace Payload

variable {payload : Payload} {name other : String} {value : StoredValue}

@[simp]
theorem lookup_set_self : (payload.set name value).lookup name = some value := by
  unfold set
  split
  · rename_i present
    induction payload with
    | nil => cases present
    | cons head tail inductionHypothesis =>
        rw [List.map_cons]
        by_cases same : head.1 = name
        · rw [if_pos same, List.lookup_cons_self]
        · rw [if_neg same, List.lookup_cons, beq_false_of_ne (Ne.symm same)]
          rw [List.any_cons, beq_false_of_ne same, Bool.false_or] at present
          exact inductionHypothesis present
  · rename_i absent
    have noEntry : payload.lookup name = none := by
      rw [List.lookup_eq_none_iff]
      intro entry member
      rw [Bool.not_eq_true, List.any_eq_false] at absent
      have different := absent entry member
      rw [beq_iff_eq] at different
      exact bne_iff_ne.mpr (Ne.symm different)
    rw [List.lookup_append, noEntry, Option.none_or, List.lookup_cons_self]

theorem lookup_set_of_ne (different : other ≠ name) :
    (payload.set name value).lookup other = payload.lookup other := by
  unfold set
  split
  · clear *- different
    induction payload with
    | nil => rfl
    | cons head tail inductionHypothesis =>
        rw [List.map_cons]
        by_cases same : head.1 = name
        · rw [if_pos same, List.lookup_cons, beq_false_of_ne different,
            List.lookup_cons, same, beq_false_of_ne different]
          exact inductionHypothesis
        · rw [if_neg same, List.lookup_cons, List.lookup_cons, inductionHypothesis]
  · rw [List.lookup_append, List.lookup_cons, beq_false_of_ne different]
    simp

/-- A mapping that adds only other entries reads the same. -/
theorem text?_congr {left right : Payload} (same : left.lookup name = right.lookup name) :
    left.text? name = right.text? name := by
  unfold text?
  rw [same]

theorem integer?_congr
    {left right : Payload} (same : left.lookup name = right.lookup name) :
    left.integer? name = right.integer? name := by
  unfold integer?
  rw [same]

theorem boolean?_congr
    {left right : Payload} (same : left.lookup name = right.lookup name) :
    left.boolean? name = right.boolean? name := by
  unfold boolean?
  rw [same]

end Payload

/-- A payload as `_put` stores it. -/
def stored (payload : Payload) : Payload :=
  ("schema_version", .integer 1) :: payload

@[simp]
theorem isFirstVersion_stored (payload : Payload) :
    isFirstVersion (stored payload) = true :=
  rfl

theorem lookup_stored
    {payload : Payload} {name : String} (different : name ≠ "schema_version") :
    (stored payload).lookup name = payload.lookup name := by
  rw [stored, List.lookup_cons, beq_false_of_ne different]

/-! ## Identities -/

theorem keyId_idKey (identifier : Int) : keyId (idKey identifier) = identifier.toNat := by
  unfold keyId idKey
  rw [Nat.toString_eq_ofList_toDigits, String.toList_ofList,
    Nat.ofDigitChars_toDigits (by decide) (by decide)]

/-- An identity the source admits. -/
def IsIdentity (identifier : Int) : Prop :=
  1 ≤ identifier ∧ identifier < 2 ^ 31

theorem isIdKey_idKey
    {identifier : Int} (bounded : IsIdentity identifier) :
    isIdKey (idKey identifier) = true := by
  obtain ⟨least, most⟩ := bounded
  unfold isIdKey
  rw [keyId_idKey, Bool.and_eq_true, Bool.and_eq_true, decide_eq_true_eq,
    decide_eq_true_eq]
  refine ⟨⟨beq_self_eq_true _, ?_⟩, ?_⟩ <;> omega

theorem idKey_injective
    {left right : Int} (ofLeft : IsIdentity left) (ofRight : IsIdentity right)
    (same : idKey left = idKey right) : left = right := by
  have sameNumber := congrArg keyId same
  rw [keyId_idKey, keyId_idKey] at sameNumber
  obtain ⟨leastLeft, _⟩ := ofLeft
  obtain ⟨leastRight, _⟩ := ofRight
  omega

theorem sourceId_eq_ok
    {value : Option ProviderValue} {identifier : Int}
    (admitted : sourceId value = .ok identifier) :
    value = some (.integer identifier) ∧ IsIdentity identifier := by
  unfold sourceId at admitted
  split at admitted
  · split at admitted <;> cases admitted
    rename_i bounded
    exact ⟨rfl, bounded⟩
  · cases admitted

theorem entry_eq_ok
    {identity : String} {indexed : Int × Option ProviderRow}
    {result : Int × ProviderRow} (read : entry identity indexed = .ok result) :
    IsIdentity result.1 ∧ result.2 identity = some (.integer result.1) := by
  unfold entry at read
  split at read
  · cases read
  · rename_i row isRow
    obtain ⟨key, keyed, afterKey⟩ := except_bind_eq_ok read
    obtain ⟨named, isNamed, compared⟩ := except_bind_eq_ok afterKey
    clear read afterKey
    split at compared <;> cases compared
    rename_i same
    rw [not_not] at same
    obtain ⟨holds, bounded⟩ := sourceId_eq_ok isNamed
    exact ⟨same ▸ bounded, same ▸ holds⟩

theorem entries_eq_ok
    {rows : List (Int × Option ProviderRow)} {identity : String}
    {result : List (Int × ProviderRow)} (read : entries rows identity = .ok result) :
    ∀ indexed ∈ result, IsIdentity indexed.1 ∧
      indexed.2 identity = some (.integer indexed.1) := by
  obtain ⟨checked, isChecked, sorted⟩ := except_bind_eq_ok read
  cases sorted
  intro indexed member
  obtain ⟨row, _, isEntry⟩ := exists_input_of_forall₂ (except_mapM_eq_ok isChecked)
    ((List.mem_insertionSort _).mp member)
  exact entry_eq_ok isEntry

/-! ## Fields -/

section

variable [Unicode] [IsoDates]

theorem takeField_lookup_of_ne
    {row : ProviderRow} {values result : Payload} {name other : String}
    (taken : takeField row values name = .ok result) (different : other ≠ name) :
    result.lookup other = values.lookup other := by
  unfold takeField at taken
  split at taken
  · cases taken
    rfl
  · obtain ⟨value, _, isSet⟩ := except_bind_eq_ok taken
    cases isSet
    exact Payload.lookup_set_of_ne different

theorem fields_lookup_of_not_mem
    {row : ProviderRow} {names : List String} {start result : Payload}
    {other : String} (taken : names.foldlM (takeField row) start = .ok result)
    (absent : other ∉ names) : result.lookup other = start.lookup other := by
  induction names generalizing start with
  | nil =>
      cases taken
      rfl
  | cons name rest inductionHypothesis =>
      rw [List.foldlM_cons] at taken
      obtain ⟨next, first, later⟩ := except_bind_eq_ok taken
      rw [List.mem_cons, not_or] at absent
      rw [inductionHypothesis later absent.2, takeField_lookup_of_ne first absent.1]

/-- The Member's identity is the first field taken. -/
theorem fields_memberDUID
    {row : ProviderRow} {values : Payload} {identifier : Int}
    (bounded : IsIdentity identifier)
    (named : row "memberDUID" = some (.integer identifier))
    (taken : fields row memberFields = .ok values) :
    values.lookup "memberDUID" = some (.integer identifier) := by
  unfold fields memberFields at taken
  rw [List.foldlM_cons] at taken
  obtain ⟨next, first, later⟩ := except_bind_eq_ok taken
  rw [fields_lookup_of_not_mem later (by decide)]
  unfold takeField at first
  rw [named] at first
  obtain ⟨value, isValue, isSet⟩ := except_bind_eq_ok first
  cases isSet
  have least : -(2 ^ 31) ≤ identifier := by
    have := bounded.1
    omega
  have same : fieldValue "memberDUID" (.integer identifier) =
      .ok (.integer identifier) := by
    unfold fieldValue
    rw [if_neg (by decide)]
    dsimp only
    rw [if_neg (by decide), if_pos ⟨least, bounded.2⟩]
  rw [same] at isValue
  cases isValue
  exact Payload.lookup_set_self

end

/-! ## Storing -/

theorem put_eq_ok
    {Key : Type} [DecidableEq Key] {entries result : List (Key × Payload)}
    {key : Key} {payload : Payload} (isPut : put entries key payload = .ok result) :
    key ∉ entries.map Prod.fst ∧ result = entries ++ [(key, stored payload)] := by
  unfold put at isPut
  split at isPut
  · cases isPut
  · rename_i fresh
    obtain ⟨canonical, bounded, isResult⟩ := except_bind_eq_ok isPut
    cases isResult
    refine ⟨fresh, ?_⟩
    unfold canonicalPayload at bounded
    dsimp only at bounded
    split at bounded <;> cases bounded
    rfl

/-- What the stored contact of an owner says. -/
structure ContactSays (kind : OwnerKind) (identifier : Int)
    (emails : List (Text × Bool)) (contact : Payload) : Prop where
  version : isFirstVersion contact = true
  ownerKind : contact.text? "owner_kind" = some kind.name
  ownerKey : contact.text? "owner_key" = some (idKey identifier).toList
  listed : contact.lookup "emails" = some (.list (emails.map emailPayload))

section

variable [Unicode] [EmailValidator]

theorem putContact_eq_ok
    {contacts : List ((OwnerKind × String) × Payload)} {kind : OwnerKind}
    {identifier : Int} {email : ProviderValue}
    {phones : List (String × ProviderValue)} {available : List String}
    {publishEmail publishPhone : ProviderValue}
    {result : List ((OwnerKind × String) × Payload) × Bool}
    (isPut : putContact contacts kind identifier email phones available
      publishEmail publishPhone = .ok result) :
    ∃ emails, emailsOf email = .ok emails ∧ result.2 = emails.any Prod.snd ∧
      (available = [] ∧ result.1 = contacts ∨
        available ≠ [] ∧ (kind, idKey identifier) ∉ contacts.map Prod.fst ∧
        ∃ contact, ContactSays kind identifier emails contact ∧
          result.1 = contacts ++ [((kind, idKey identifier), contact)]) := by
  obtain ⟨emails, isEmails, afterEmails⟩ := except_bind_eq_ok isPut
  obtain ⟨cleaned, _, afterPhones⟩ := except_bind_eq_ok afterEmails
  obtain ⟨showsEmail, _, afterEmail⟩ := except_bind_eq_ok afterPhones
  obtain ⟨showsPhone, _, assembled⟩ := except_bind_eq_ok afterEmail
  refine ⟨emails, isEmails, ?_⟩
  dsimp only at assembled
  split at assembled
  · rename_i none'
    cases assembled
    exact ⟨rfl, Or.inl ⟨List.isEmpty_iff.mp none', rfl⟩⟩
  · rename_i some'
    obtain ⟨stored', isStored, isResult⟩ := except_bind_eq_ok assembled
    cases isResult
    obtain ⟨fresh, isNew⟩ := put_eq_ok isStored
    refine ⟨rfl, Or.inr ⟨fun empty => some' (List.isEmpty_iff.mpr empty), fresh,
      _, ?_, isNew⟩⟩
    exact ⟨rfl, rfl, rfl, rfl⟩

/-- Every valid entry is a canonical address. -/
def CanonicalEmails (emails : List (Text × Bool)) : Prop :=
  ∀ email ∈ emails, email.2 = true → normalizedEmail email.1 = some email.1

omit [Unicode] [EmailValidator] in
theorem mem_foldl_keepEmail
    {added kept : List (Text × Bool)} {email : Text × Bool}
    (member : email ∈ added.foldl keepEmail kept) : email ∈ kept ∨ email ∈ added := by
  induction added generalizing kept with
  | nil => exact Or.inl member
  | cons head tail inductionHypothesis =>
      rcases inductionHypothesis member with before | later
      · unfold keepEmail at before
        split at before
        · obtain ⟨other, isOther, isEmail⟩ := List.mem_map.mp before
          split at isEmail
          · rw [← isEmail]
            exact Or.inr List.mem_cons_self
          · rw [← isEmail]
            exact Or.inl isOther
        · rcases List.mem_append.mp before with isKept | isHead
          · exact Or.inl isKept
          · rw [List.mem_singleton.mp isHead]
            exact Or.inr List.mem_cons_self
      · exact Or.inr (List.mem_cons_of_mem _ later)

/-- `normalized_email` leaves its own result as it is. -/
def EmailsSettle : Prop :=
  ∀ email value : Text, normalizedEmail email = some value →
    normalizedEmail value = some value

theorem canonical_contactEmails
    (settle : EmailsSettle) (value : Text) : CanonicalEmails (contactEmails value) := by
  intro email member valid
  have kept := (List.mem_insertionSort _).mp member
  rcases mem_foldl_keepEmail kept with none' | added
  · cases none'
  · obtain ⟨fragment, _, rfl⟩ := List.mem_map.mp added
    unfold contactEmail at valid ⊢
    split at valid
    · rename_i found normalized
      exact settle fragment found normalized
    · cases valid

theorem canonical_emailsOf
    (settle : EmailsSettle) {value : ProviderValue} {emails : List (Text × Bool)}
    (read : emailsOf value = .ok emails) : CanonicalEmails emails := by
  unfold emailsOf at read
  split at read
  · cases read
    exact fun email member => absurd member List.not_mem_nil
  · obtain ⟨text, _, rfl⟩ := except_map_eq_ok read
    exact canonical_contactEmails settle text
  · cases read

end

/-! ## Members -/

section

variable [Unicode] [IsoDates]

theorem takeFallback_lookup_of_ne
    {contact : ProviderRow} {values result : Payload} {fallback : String × String}
    {other : String} (taken : takeFallback contact values fallback = .ok result)
    (different : other ≠ fallback.1) : result.lookup other = values.lookup other := by
  unfold takeFallback at taken
  split at taken
  · cases taken
    rfl
  · split at taken
    · cases taken
      rfl
    · obtain ⟨value, _, isSet⟩ := except_bind_eq_ok taken
      cases isSet
      exact Payload.lookup_set_of_ne different

omit [Unicode] in
theorem takeDate_lookup_of_ne
    {values result : Payload} {name other : String}
    (taken : takeDate values name = .ok result) (different : other ≠ name) :
    result.lookup other = values.lookup other := by
  unfold takeDate at taken
  split at taken
  · cases taken
    rfl
  · obtain ⟨value, _, isSet⟩ := except_bind_eq_ok taken
    cases isSet
    exact Payload.lookup_set_of_ne different

omit [Unicode] [IsoDates] in
/-- A fold whose steps leave an entry leaves it. -/
theorem foldlM_lookup
    {Item : Type} {step : Payload → Item → Except SourceError Payload}
    {items : List Item} {start result : Payload} {other : String}
    (kept : ∀ item ∈ items, ∀ values next, step values item = .ok next →
      next.lookup other = values.lookup other)
    (folded : items.foldlM step start = .ok result) :
    result.lookup other = start.lookup other := by
  induction items generalizing start with
  | nil =>
      cases folded
      rfl
  | cons item rest inductionHypothesis =>
      rw [List.foldlM_cons] at folded
      obtain ⟨next, first, later⟩ := except_bind_eq_ok folded
      rw [inductionHypothesis (fun entry member =>
        kept entry (List.mem_cons_of_mem _ member)) later]
      exact kept item List.mem_cons_self start next first

/-- What the rules read of a stored Member. -/
structure MemberSays (identifier familyId : Int) (values : Payload) : Prop where
  identity : values.integer? "memberDUID" = some identifier
  family : values.text? "family_key" = some (idKey familyId).toList
  active : values.boolean? "active" = some (memberIsActive values)

omit [Unicode] [IsoDates] in
theorem memberIsActive_congr
    {left right : Payload}
    (same : left.lookup "memberStatus" = right.lookup "memberStatus") :
    memberIsActive left = memberIsActive right := by
  unfold memberIsActive memberIsDeceased
  rw [Payload.text?_congr same]

theorem memberValues_eq_ok
    {familyId identifier : Int} {raw contact : ProviderRow} {values : Payload}
    (bounded : IsIdentity identifier)
    (named : raw "memberDUID" = some (.integer identifier))
    (read : memberValues familyId raw contact = .ok values) :
    MemberSays identifier familyId values := by
  obtain ⟨own, isOwn, afterOwn⟩ := except_bind_eq_ok read
  obtain ⟨filled, isFilled, afterFilled⟩ := except_bind_eq_ok afterOwn
  obtain ⟨dated, isDated, assembled⟩ := except_bind_eq_ok afterFilled
  cases assembled
  have identity : dated.lookup "memberDUID" = some (.integer identifier) := by
    rw [foldlM_lookup (fun name member values next taken =>
        takeDate_lookup_of_ne taken fun same => by
          subst same
          exact absurd member (by decide)) isDated,
      foldlM_lookup (fun fallback member values next taken =>
        takeFallback_lookup_of_ne taken fun same => by
          have isName : "memberDUID" ∈ memberContactFallbacks.map Prod.fst :=
            List.mem_map.mpr ⟨fallback, member, same.symm⟩
          exact absurd isName (by decide)) isFilled]
    exact fields_memberDUID bounded named isOwn
  refine ⟨?_, ?_, ?_⟩
  · unfold Payload.integer?
    rw [Payload.lookup_set_of_ne (by decide), Payload.lookup_set_of_ne (by decide),
      Payload.lookup_set_of_ne (by decide), identity]
  · unfold Payload.text?
    rw [Payload.lookup_set_of_ne (by decide), Payload.lookup_set_of_ne (by decide),
      Payload.lookup_set_self]
  · unfold Payload.boolean?
    rw [Payload.lookup_set_of_ne (by decide), Payload.lookup_set_self]
    refine congrArg some (memberIsActive_congr ?_)
    rw [Payload.lookup_set_of_ne (by decide), Payload.lookup_set_of_ne (by decide),
      Payload.lookup_set_of_ne (by decide)]

/-- A Member read, with its contact. -/
structure LoadedMember where
  identifier : Int
  familyId : Int
  values : Payload
  emails : List (Text × Bool)
  contact : Option Payload

namespace LoadedMember

def key (member : LoadedMember) : String :=
  idKey member.identifier

def hasAddress (member : LoadedMember) : Bool :=
  member.emails.any Prod.snd

def contactEntry (member : LoadedMember) :
    Option ((OwnerKind × String) × Payload) :=
  member.contact.map fun contact => ((.member, member.key), contact)

end LoadedMember

/-- What holds of a Member read. -/
structure MemberSound [EmailValidator] (families : List Int)
    (member : LoadedMember) : Prop where
  identity : IsIdentity member.identifier
  retained : member.familyId ∈ families
  family : IsIdentity member.familyId
  record : MemberSays member.identifier member.familyId member.values
  contact : ∀ contact ∈ member.contact,
    ContactSays .member member.identifier member.emails contact
  noContact : member.contact = none → member.emails = []
  canonical : CanonicalEmails member.emails

/-- The state after some Members. -/
def afterMembers (members : List LoadedMember) : Loading where
  corpus := {
    family := []
    member := members.map fun member => (member.key, stored member.values)
    contact := members.filterMap LoadedMember.contactEntry }
  grouped := members.map fun member => (member.familyId, member.values)
  memberEmails := members.map fun member => (member.identifier, member.hasAddress)

variable [EmailValidator]

theorem loadMember_eq_ok
    (settle : EmailsSettle) {source : ParishSoftData} {families : List Int}
    {members : List LoadedMember} {indexed : Int × ProviderRow} {result : Loading}
    (bounded : IsIdentity indexed.1)
    (named : indexed.2 "memberDUID" = some (.integer indexed.1))
    (loaded : loadMember source families (afterMembers members) indexed =
      .ok result) :
    ∃ member, MemberSound families member ∧
      member.key ∉ members.map LoadedMember.key ∧
      result = afterMembers (members ++ [member]) := by
  obtain ⟨identifier, raw⟩ := indexed
  obtain ⟨familyId, isFamily, afterFamily⟩ := except_bind_eq_ok loaded
  clear loaded
  split at afterFamily
  · cases afterFamily
  rename_i retained
  rw [not_not] at retained
  obtain ⟨contact, _, afterContact⟩ := except_bind_eq_ok afterFamily
  obtain ⟨values, isValues, afterValues⟩ := except_bind_eq_ok afterContact
  obtain ⟨stored', isStored, afterStored⟩ := except_bind_eq_ok afterValues
  obtain ⟨contacts, isContacts, assembled⟩ := except_bind_eq_ok afterStored
  cases assembled
  obtain ⟨fresh, rfl⟩ := put_eq_ok isStored
  obtain ⟨emails, isEmails, flag, outcome⟩ := putContact_eq_ok isContacts
  have record := memberValues_eq_ok bounded named isValues
  have canonical := canonical_emailsOf settle isEmails
  have freshKey : idKey identifier ∉ members.map LoadedMember.key := by
    simpa [afterMembers, List.map_map, Function.comp_def] using fresh
  rcases outcome with ⟨nothing, same⟩ | ⟨_, _, stored'', contactSays, isContact⟩
  · have noEmail : emails = [] := by
      have unlisted := List.filter_eq_nil_iff.mp (List.map_eq_nil_iff.mp nothing)
        ("email", "emailAddress", "emailAddress") List.mem_cons_self
      rw [Bool.or_eq_true, not_or, Bool.not_eq_true, Bool.not_eq_true,
        Option.isSome_eq_false_iff, Option.isSome_eq_false_iff,
        Option.isNone_iff_eq_none, Option.isNone_iff_eq_none] at unlisted
      unfold fallbackValue at isEmails
      rw [unlisted.1, unlisted.2] at isEmails
      cases isEmails
      rfl
    subst noEmail
    refine ⟨⟨identifier, familyId, values, [], none⟩, ?_, freshKey, ?_⟩
    · exact {
        identity := bounded
        retained := retained
        family := (sourceId_eq_ok isFamily).2
        record := record
        contact := fun contact isSome => by cases isSome
        noContact := fun _ => rfl
        canonical := canonical }
    · rw [flag, same]
      simp [afterMembers, LoadedMember.contactEntry, LoadedMember.key,
        LoadedMember.hasAddress]
  · refine ⟨⟨identifier, familyId, values, emails, some stored''⟩, ?_, freshKey, ?_⟩
    · exact {
        identity := bounded
        retained := retained
        family := (sourceId_eq_ok isFamily).2
        record := record
        contact := fun contact isSome => by
          cases isSome
          exact contactSays
        noContact := nofun
        canonical := canonical }
    · rw [flag, isContact]
      simp [afterMembers, LoadedMember.contactEntry, LoadedMember.key,
        LoadedMember.hasAddress]

theorem loadMembers_eq_ok
    (settle : EmailsSettle) {source : ParishSoftData} {families : List Int}
    {rows : List (Int × ProviderRow)} {members : List LoadedMember} {result : Loading}
    (named : ∀ indexed ∈ rows, IsIdentity indexed.1 ∧
      indexed.2 "memberDUID" = some (.integer indexed.1))
    (sound : ∀ member ∈ members, MemberSound families member)
    (keys : (members.map LoadedMember.key).Nodup)
    (loaded : rows.foldlM (loadMember source families) (afterMembers members) =
      .ok result) :
    ∃ all, result = afterMembers all ∧ (∀ member ∈ all, MemberSound families member) ∧
      (all.map LoadedMember.key).Nodup := by
  induction rows generalizing members with
  | nil =>
      cases loaded
      exact ⟨members, rfl, sound, keys⟩
  | cons indexed rest inductionHypothesis =>
      rw [List.foldlM_cons] at loaded
      obtain ⟨next, first, later⟩ := except_bind_eq_ok loaded
      obtain ⟨bounded, isNamed⟩ := named indexed List.mem_cons_self
      obtain ⟨member, isSound, fresh, rfl⟩ :=
        loadMember_eq_ok settle bounded isNamed first
      refine inductionHypothesis (fun entry isEntry =>
        named entry (List.mem_cons_of_mem _ isEntry)) ?_ ?_ later
      · intro other isOther
        rcases List.mem_append.mp isOther with before | isMember
        · exact sound other before
        · rw [List.mem_singleton.mp isMember]
          exact isSound
      · rw [List.map_append]
        exact keys.append (List.nodup_singleton _)
          (List.disjoint_singleton.mpr fresh)

/-! ## Families -/

/-- A Family read, with its contact. -/
structure LoadedFamily where
  identifier : Int
  row : Payload
  contact : Option Payload

namespace LoadedFamily

def key (family : LoadedFamily) : String :=
  idKey family.identifier

def contactEntry (family : LoadedFamily) :
    Option ((OwnerKind × String) × Payload) :=
  family.contact.map fun contact => ((.family, family.key), contact)

end LoadedFamily

/-- The values stored of the Members of one Family. -/
def valuesOf (members : List LoadedMember) (familyId : Int) : List Payload :=
  (members.filter fun member => member.familyId == familyId).map
    LoadedMember.values

omit [Unicode] [IsoDates] [EmailValidator] in
theorem membersOf_afterMembers (members : List LoadedMember) (familyId : Int) :
    (afterMembers members).membersOf familyId = valuesOf members familyId := by
  unfold Loading.membersOf afterMembers valuesOf
  rw [List.filter_map, List.map_map]
  rfl

variable [RuleDigests]

/-- What holds of a Family read. -/
structure FamilySound (organization : Int) (rule : Option FamiliesRule)
    (members : List LoadedMember) (family : LoadedFamily) : Prop where
  identity : IsIdentity family.identifier
  row : ∃ values group, values.lookup "campaign_families" = none ∧
    family.row = familyRow organization rule (valuesOf members family.identifier)
      (afterMembers members).memberEmails values group
  contact : ∀ contact ∈ family.contact, ∃ emails,
    ContactSays .family family.identifier emails contact

/-- The state after all Members and some Families. -/
def afterFamilies (members : List LoadedMember) (families : List LoadedFamily) :
    Loading :=
  { afterMembers members with
    corpus := { (afterMembers members).corpus with
      family := families.map fun family => (family.key, stored family.row)
      contact := (afterMembers members).corpus.contact ++
        families.filterMap LoadedFamily.contactEntry } }

theorem loadFamily_eq_ok
    {source : ParishSoftData} {rule : Option FamiliesRule}
    {members : List LoadedMember} {families : List LoadedFamily}
    {indexed : Int × ProviderRow} {result : Loading} (bounded : IsIdentity indexed.1)
    (loaded : loadFamily source rule (afterFamilies members families) indexed =
      .ok result) :
    ∃ family, FamilySound source.organizationId rule members family ∧
      family.identifier = indexed.1 ∧
      family.key ∉ families.map LoadedFamily.key ∧
      result = afterFamilies members (families ++ [family]) := by
  obtain ⟨identifier, raw⟩ := indexed
  obtain ⟨values, isValues, afterValues⟩ := except_bind_eq_ok loaded
  obtain ⟨_, _, afterReferences⟩ := except_bind_eq_ok afterValues
  obtain ⟨group, _, afterGroup⟩ := except_bind_eq_ok afterReferences
  obtain ⟨stored', isStored, afterStored⟩ := except_bind_eq_ok afterGroup
  obtain ⟨contacts, isContacts, assembled⟩ := except_bind_eq_ok afterStored
  clear loaded afterValues afterReferences afterGroup afterStored
  cases assembled
  obtain ⟨fresh, rfl⟩ := put_eq_ok isStored
  obtain ⟨emails, isEmails, flag, outcome⟩ := putContact_eq_ok isContacts
  have unmarked : values.lookup "campaign_families" = none :=
    fields_lookup_of_not_mem isValues (by decide)
  have sameMembers : (afterFamilies members families).membersOf identifier =
      valuesOf members identifier := membersOf_afterMembers members identifier
  have freshKey : idKey identifier ∉ families.map LoadedFamily.key := by
    simpa [afterFamilies, List.map_map, Function.comp_def] using fresh
  let row := familyRow source.organizationId rule (valuesOf members identifier)
    (afterMembers members).memberEmails values group
  rcases outcome with ⟨_, same⟩ | ⟨_, _, contact, contactSays, isContact⟩
  · refine ⟨⟨identifier, row, none⟩, ⟨bounded, ⟨values, group, unmarked, rfl⟩, ?_⟩,
      rfl, freshKey, ?_⟩
    · intro contact isSome
      cases isSome
    · rw [same, sameMembers]
      simp [afterFamilies, LoadedFamily.contactEntry, LoadedFamily.key, row]
  · refine ⟨⟨identifier, row, some contact⟩, ⟨bounded, ⟨values, group, unmarked, rfl⟩,
      ?_⟩, rfl, freshKey, ?_⟩
    · intro other isSome
      cases isSome
      exact ⟨emails, contactSays⟩
    · rw [isContact, sameMembers]
      simp [afterFamilies, LoadedFamily.contactEntry, LoadedFamily.key, row]

theorem loadFamilies_eq_ok
    {source : ParishSoftData} {rule : Option FamiliesRule}
    {members : List LoadedMember} {families : List LoadedFamily}
    {rows : List (Int × ProviderRow)} {result : Loading}
    (bounded : ∀ indexed ∈ rows, IsIdentity indexed.1)
    (sound : ∀ family ∈ families,
      FamilySound source.organizationId rule members family)
    (keys : (families.map LoadedFamily.key).Nodup)
    (loaded : rows.foldlM (loadFamily source rule) (afterFamilies members families) =
      .ok result) :
    ∃ all, result = afterFamilies members all ∧
      (∀ family ∈ all, FamilySound source.organizationId rule members family) ∧
      (all.map LoadedFamily.key).Nodup ∧
      all.map LoadedFamily.identifier =
        families.map LoadedFamily.identifier ++ rows.map Prod.fst := by
  induction rows generalizing families with
  | nil =>
      cases loaded
      exact ⟨families, rfl, sound, keys, (List.append_nil _).symm⟩
  | cons indexed rest inductionHypothesis =>
      rw [List.foldlM_cons] at loaded
      obtain ⟨next, first, later⟩ := except_bind_eq_ok loaded
      obtain ⟨family, isSound, named, fresh, rfl⟩ :=
        loadFamily_eq_ok (bounded indexed List.mem_cons_self) first
      obtain ⟨all, isAll, allSound, allKeys, identifiers⟩ := inductionHypothesis
        (fun entry isEntry => bounded entry (List.mem_cons_of_mem _ isEntry))
        (fun other isOther => by
          rcases List.mem_append.mp isOther with before | isFamily
          · exact sound other before
          · rw [List.mem_singleton.mp isFamily]
            exact isSound)
        (by
          rw [List.map_append]
          exact keys.append (List.nodup_singleton _)
            (List.disjoint_singleton.mpr fresh)) later
      refine ⟨all, isAll, allSound, allKeys, ?_⟩
      rw [identifiers, List.map_append, List.map_cons, named]
      simp

/-- The corpus of a load, by the records read. -/
theorem normalizeCore_eq_ok
    (settle : EmailsSettle) {source : ParishSoftData} {rule : Option FamiliesRule}
    {corpus : Corpus} (loaded : normalizeCore source rule = .ok corpus) :
    ∃ members families, corpus = (afterFamilies members families).corpus ∧
      (∀ member ∈ members,
        MemberSound (families.map LoadedFamily.identifier) member) ∧
      (members.map LoadedMember.key).Nodup ∧
      (∀ family ∈ families,
        FamilySound source.organizationId rule members family) ∧
      (families.map LoadedFamily.key).Nodup := by
  obtain ⟨_, _, afterOrganization⟩ := except_bind_eq_ok loaded
  split at afterOrganization
  · cases afterOrganization
  obtain ⟨familyRows, isFamilies, afterFamilyRows⟩ :=
    except_bind_eq_ok afterOrganization
  obtain ⟨memberRows, isMembers, afterMemberRows⟩ :=
    except_bind_eq_ok afterFamilyRows
  obtain ⟨middle, membersRead, afterMiddle⟩ := except_bind_eq_ok afterMemberRows
  obtain ⟨final, familiesRead, isCorpus⟩ := except_bind_eq_ok afterMiddle
  clear loaded afterOrganization afterFamilyRows afterMemberRows afterMiddle
  cases isCorpus
  have noMembers : ∀ member ∈ ([] : List LoadedMember),
      MemberSound (familyRows.map Prod.fst) member := nofun
  obtain ⟨members, rfl, membersSound, memberKeys⟩ :=
    loadMembers_eq_ok settle (entries_eq_ok isMembers) noMembers List.nodup_nil
      membersRead
  have start : afterMembers members = afterFamilies members [] := by
    simp [afterFamilies]
    rfl
  rw [start] at familiesRead
  have noFamilies : ∀ family ∈ ([] : List LoadedFamily),
      FamilySound source.organizationId rule members family := nofun
  obtain ⟨families, rfl, familiesSound, familyKeys, identifiers⟩ :=
    loadFamilies_eq_ok
      (fun indexed member => (entries_eq_ok isFamilies indexed member).1) noFamilies
      List.nodup_nil familiesRead
  refine ⟨members, families, rfl, ?_, memberKeys, familiesSound, familyKeys⟩
  rw [identifiers]
  exact membersSound

end

end ParishKit.Source
