import ParishKit.ContactSync.Actions
import ParishKit.Lib.Except

/-!
# What a run plans

The lists that the mappings name, the desired addresses, and the actions computed
from them.
-/

namespace ParishKit.ContactSync

open ParishKit.Lib
open ParishKit.Responses (Unicode LawfulUnicode inOrder keepAddress mem_foldl_keepAddress)

variable [Unicode]

/-! ## Addresses of Members -/

theorem splitEmailAddresses_lowered [LawfulUnicode] {values : List Text} {email : Text}
    (member : email ∈ ParishSoft.splitEmailAddresses values) : Unicode.lower email = email := by
  cases mem_foldl_keepAddress member with
  | inl isKept => cases isKept
  | inr added =>
      obtain ⟨part, _, isLower⟩ := List.mem_map.mp added.1
      rw [← isLower]
      exact LawfulUnicode.lower_lower _

theorem PsMember.emails_lowered [LawfulUnicode] {member : PsMember} {email : Text}
    (has : email ∈ member.emails) : Unicode.lower email = email := by
  rw [PsMember.emails, ParishSoft.memberEmailAddresses.eq_def] at has
  split at has
  · exact splitEmailAddresses_lowered has
  · split at has
    · cases has
    · split at has
      · cases has
      · exact splitEmailAddresses_lowered has

theorem mem_membersByEmail {data : ParishSoftData} {email : Text} {member : PsMember} :
    member ∈ membersByEmail data email ↔ member ∈ data.members ∧ email ∈ member.emails := by
  simp [membersByEmail, List.mem_flatMap]

omit [Unicode] in
theorem salutation_some {members : List PsMember} (present : members ≠ []) :
    ∃ names, salutationForMembers members = some names := by
  cases members with
  | nil => exact absurd rfl present
  | cons first others =>
      cases others with
      | nil => exact ⟨_, rfl⟩
      | cons second rest =>
          rw [salutationForMembers]
          split <;> split <;> exact ⟨_, rfl⟩

/-! ## The desired state -/

theorem mem_addPrimary
    {emails : List Text} {member : Option PsMember} {email : Text}
    (isIn : email ∈ addPrimary emails member) :
    email ∈ emails ∨ ∃ one, member = some one ∧ email ∈ one.emails := by
  rw [addPrimary] at isIn
  split at isIn
  · exact Or.inl isIn
  · next primary isPrimary =>
      obtain ⟨one, isMember, isHead⟩ := Option.bind_eq_some_iff.mp isPrimary
      split at isIn
      · exact Or.inl isIn
      · cases List.mem_append.mp isIn with
        | inl before => exact Or.inl before
        | inr added =>
            refine Or.inr ⟨one, isMember, ?_⟩
            rw [List.mem_singleton.mp added]
            exact List.mem_of_head? isHead

theorem mem_workgroupEmails
    {data : ParishSoftData} {workgroup : Workgroup} {email : Text}
    (isIn : email ∈ workgroupEmails data workgroup) : membersByEmail data email ≠ [] := by
  suffices general : ∀ (rows : List (Option Int)) (start : List Text),
      email ∈ (rows.map data.findMember).foldl addPrimary start →
        email ∈ start ∨ membersByEmail data email ≠ [] from
    (general workgroup.membership [] isIn).resolve_left (List.not_mem_nil)
  intro rows
  induction rows with
  | nil => exact fun start member => Or.inl member
  | cons row rest inductionHypothesis =>
      intro start member
      cases inductionHypothesis _ member with
      | inr found => exact Or.inr found
      | inl earlier =>
          refine (mem_addPrimary earlier).imp_right ?_
          rintro ⟨one, isMember, has⟩
          obtain ⟨memberId, _, found⟩ := Option.bind_eq_some_iff.mp isMember
          exact List.ne_nil_of_mem
            (mem_membersByEmail.mpr ⟨(findRecord_some found).1, has⟩)

omit [Unicode] in
theorem listByName_some
    {lists : List ContactList} {name : Text} {ccList : ContactList}
    (found : listByName lists name = some ccList) : ccList ∈ lists ∧ ccList.name = name :=
  (findRecord_some found).imp_left mem_of_mem_recordsByKey

/-- What resolving finds for one mapping. -/
structure ResolvedMapping (data : ParishSoftData) (lists : List ContactList)
    (mapping : CCSyncMapping) (emails : List Text) : Prop where
  target : ∃ ccList, listByName lists mapping.targetList = some ccList
  members : ∀ email ∈ emails, membersByEmail data email ≠ []

theorem resolved_mappings
    {mappings : List CCSyncMapping} {data : ParishSoftData} {lists : List ContactList}
    {desired : List (List Text)}
    (resolved : resolveDesiredState mappings data lists = some desired) :
    List.Forall₂ (ResolvedMapping data lists) mappings desired := by
  refine (option_mapM_eq_some resolved).imp ?_
  intro mapping emails found
  obtain ⟨ccList, isList, rest⟩ := Option.bind_eq_some_iff.mp found
  obtain ⟨workgroup, _, isEmails⟩ := Option.bind_eq_some_iff.mp rest
  cases isEmails
  exact ⟨⟨ccList, isList⟩, fun email => mem_workgroupEmails⟩

/-! ## Addresses that opted out -/

/-- The addresses of contacts that are marked unsubscribed. -/
def optedOut (contacts : List Contact) : List Text :=
  (contacts.filter fun contact =>
    contact.emailAddress.permissionToSend = some unsubscribedPermission).map Contact.key

theorem discardAddress_fst (data : ParishSoftData) (email : Text)
    (mapping : List Text × List (Text × Text × Text)) :
    (discardAddress data email mapping).1 = mapping.1.filter fun other => other ≠ email := by
  rw [discardAddress]
  split
  · rfl
  · next absent =>
      symm
      rw [List.filter_eq_self]
      intro other member
      exact decide_eq_true fun same => absent (same ▸ member)

theorem filterUnsubscribed_fst
    (data : ParishSoftData) (contacts : List Contact) (desired : List (List Text)) :
    (filterUnsubscribed data contacts desired).map Prod.fst =
      desired.map fun emails => emails.filter fun email => email ∉ optedOut contacts := by
  suffices general : ∀ start : List (List Text × List (Text × Text × Text)),
      (contacts.foldl (fun mappings contact =>
        if contact.emailAddress.permissionToSend = some unsubscribedPermission then
          mappings.map (discardAddress data contact.key)
        else mappings) start).map Prod.fst =
        start.map fun mapping => mapping.1.filter fun email => email ∉ optedOut contacts by
    rw [filterUnsubscribed, general, List.map_map]
    rfl
  induction contacts with
  | nil =>
      intro start
      simp [optedOut]
  | cons contact rest inductionHypothesis =>
      intro start
      rw [List.foldl_cons, inductionHypothesis]
      by_cases isOut : contact.emailAddress.permissionToSend = some unsubscribedPermission
      · rw [if_pos isOut, List.map_map]
        apply List.map_congr_left
        intro mapping _
        rw [Function.comp_apply, discardAddress_fst, List.filter_filter]
        apply List.filter_congr
        intro email _
        simp [optedOut, isOut, Bool.and_comm]
      · rw [if_neg isOut]
        simp [optedOut, isOut]

/-- A desired address is resolved and not opted out. -/
theorem desiredEmails_some
    {config : CCSyncConfig} {data : ParishSoftData} {lists : List ContactList}
    {contacts : List Contact} {desired : List (List Text)} :
    desiredEmails config data lists contacts = some desired ↔
      ∃ resolved, resolveDesiredState config.mappings data lists = some resolved ∧
        desired = resolved.map fun emails =>
          emails.filter fun email => email ∉ optedOut contacts := by
  rw [desiredEmails, Option.bind_eq_bind, Option.bind_eq_some_iff]
  constructor
  · rintro ⟨resolved, isResolved, isDesired⟩
    refine ⟨resolved, isResolved, ?_⟩
    rw [← filterUnsubscribed_fst data]
    exact (Option.some.inj isDesired).symm
  · rintro ⟨resolved, isResolved, isDesired⟩
    refine ⟨resolved, isResolved, ?_⟩
    rw [isDesired, filterUnsubscribed_fst]
    rfl

theorem desired_mappings
    {config : CCSyncConfig} {data : ParishSoftData} {lists : List ContactList}
    {contacts : List Contact} {desired : List (List Text)}
    (isDesired : desiredEmails config data lists contacts = some desired) :
    List.Forall₂ (ResolvedMapping data lists) config.mappings desired := by
  obtain ⟨resolved, isResolved, rfl⟩ := desiredEmails_some.mp isDesired
  rw [List.forall₂_map_right_iff]
  refine (resolved_mappings isResolved).imp fun mapping emails found => ⟨found.target, ?_⟩
  exact fun email member => found.members email (List.mem_of_mem_filter member)

/-! ## Lists -/

theorem mem_listContacts {contacts : List Contact} {listId email : Text} :
    email ∈ listContacts contacts listId ↔
      ∃ contact ∈ contacts, contact.key = email ∧ listId ∈ contact.listMemberships := by
  rw [listContacts, mem_keys_recordsByKey, List.mem_map]
  constructor
  · rintro ⟨contact, member, isKey⟩
    rw [List.mem_filter] at member
    exact ⟨contact, member.1, isKey, of_decide_eq_true member.2⟩
  · rintro ⟨contact, member, isKey, onList⟩
    exact ⟨contact, List.mem_filter.mpr ⟨member, decide_eq_true onList⟩, isKey⟩

theorem mem_contactsByEmail_keys {contacts : List Contact} {email : Text} :
    email ∈ (contactsByEmail contacts).map Contact.key ↔ email ∈ contacts.map Contact.key :=
  mem_keys_recordsByKey

omit [Unicode] in
theorem mem_inOrder {emails : List Text} {email : Text} :
    email ∈ inOrder emails ↔ email ∈ emails :=
  List.mem_insertionSort _

/-- The id of the list that a mapping names. -/
def targetId (lists : List ContactList) (mapping : CCSyncMapping) : Text :=
  ((listByName lists mapping.targetList).map ContactList.listId).getD []

omit [Unicode] in
theorem targetId_of_some
    {lists : List ContactList} {mapping : CCSyncMapping} {ccList : ContactList}
    (found : listByName lists mapping.targetList = some ccList) :
    targetId lists mapping = ccList.listId := by
  rw [targetId, found]
  rfl

/-! ## Actions -/

theorem membershipActions_eq
    {config : CCSyncConfig} {data : ParishSoftData} {lists : List ContactList}
    {contacts : List Contact} {desired : List (List Text)}
    (isDesired : desiredEmails config data lists contacts = some desired) :
    membershipActions config data lists contacts =
      some (computeCreateActions desired contacts ++
        ((config.mappings.zip desired).zipIdx.map fun mapping =>
          listActions contacts mapping.1.1.targetList (targetId lists mapping.1.1) mapping.2
            mapping.1.2).flatten) := by
  have each : (config.mappings.zip desired).zipIdx.mapM (fun mapping => do
      let ccList ← listByName lists mapping.1.1.targetList
      pure (listActions contacts mapping.1.1.targetList ccList.listId mapping.2 mapping.1.2)) =
      some ((config.mappings.zip desired).zipIdx.map fun mapping =>
        listActions contacts mapping.1.1.targetList (targetId lists mapping.1.1) mapping.2
          mapping.1.2) := by
    apply option_mapM_of_forall
    intro mapping member
    have inZip : (mapping.1.1, mapping.1.2) ∈ config.mappings.zip desired :=
      List.fst_mem_of_mem_zipIdx member
    obtain ⟨ccList, found⟩ :=
      ((List.forall₂_iff_zip.mp (desired_mappings isDesired)).2 inZip).target
    rw [found, targetId_of_some found]
    rfl
  rw [membershipActions, isDesired]
  change computeAllActions config.mappings desired lists contacts = _
  rw [computeAllActions, computeSubscribeUnsubscribeActions, each]
  rfl

/-- What an action of a list mapping is for. -/
theorem mem_listActions
    {contacts : List Contact} {targetList listUuid : Text} {index : Nat} {emails : List Text}
    {action : CCAction} :
    action ∈ listActions contacts targetList listUuid index emails ↔
      (∃ email ∈ emails, email ∉ listContacts contacts listUuid ∧
        action = subscribeAction targetList listUuid index email) ∨
      ∃ email ∈ listContacts contacts listUuid, email ∉ emails ∧
        action = unsubscribeAction targetList listUuid index email := by
  simp only [listActions, List.mem_append, List.mem_map, mem_inOrder, List.mem_filter,
    decide_eq_true_eq, and_assoc, @eq_comm _ action]

theorem mem_computeCreateActions
    {desired : List (List Text)} {contacts : List Contact} {action : CCAction} :
    action ∈ computeCreateActions desired contacts ↔
      ∃ email, (∃ emails ∈ desired, email ∈ emails) ∧
        email ∉ contacts.map Contact.key ∧ action = createAction desired email := by
  rw [computeCreateActions, List.mem_map]
  apply exists_congr
  intro email
  rw [mem_inOrder, List.mem_filter, List.mem_dedup, List.mem_flatten, decide_eq_true_eq,
    mem_contactsByEmail_keys, and_assoc, @eq_comm _ action]

/-- The updates that a contact of the candidates gets. -/
theorem mem_detectNameMismatches
    {data : ParishSoftData} {contacts : List Contact} {updateNames : Bool}
    {candidates : Text → List Nat} {action : CCAction} :
    action ∈ detectNameMismatches data contacts updateNames candidates ↔
      updateNames = true ∧ ∃ contact ∈ contactsByEmail contacts, ∃ first last,
        salutationForMembers (membersByEmail data contact.key) = some (first, last) ∧
        ¬(removePeriods first = contact.first ∧ last = contact.last) ∧
        ∃ index ∈ candidates contact.key,
          action = updateNameAction contact.key (removePeriods first) last index := by
  rw [detectNameMismatches]
  split
  · next isOn =>
      rw [List.mem_flatMap]
      simp only [isOn, true_and]
      apply exists_congr
      intro contact
      apply and_congr_right
      intro _
      rw [contactMismatches]
      split
      · next none =>
          simp [none]
      · next first last found =>
          rw [found]
          split
          · next same =>
              constructor
              · intro isIn
                cases isIn
              · rintro ⟨first', last', isNames, different, _⟩
                cases isNames
                exact absurd same different
          · next different =>
              rw [List.mem_map]
              constructor
              · rintro ⟨index, isIndex, isAction⟩
                exact ⟨first, last, rfl, different, index, isIndex, isAction.symm⟩
              · rintro ⟨first', last', isNames, _, index, isIndex, isAction⟩
                cases isNames
                exact ⟨index, isIndex, isAction.symm⟩
  · next isOff =>
      simp [isOff]

theorem nameActions_eq
    {config : CCSyncConfig} {data : ParishSoftData} {lists : List ContactList}
    {contacts : List Contact} {desired : List (List Text)}
    (isDesired : desiredEmails config data lists contacts = some desired) :
    nameActions config data lists contacts =
      some (detectNameMismatches data contacts config.updateNames fun email =>
        ((((config.mappings.zip desired).map fun mapping =>
          mapping.2 ++ listContacts contacts (targetId lists mapping.1)).zipIdx.filter
            fun emails => email ∈ emails.1).map Prod.snd)) := by
  have each : (config.mappings.zip desired).mapM (fun mapping => do
      let ccList ← listByName lists mapping.1.targetList
      pure (mapping.2 ++ listContacts contacts ccList.listId)) =
      some ((config.mappings.zip desired).map fun mapping =>
        mapping.2 ++ listContacts contacts (targetId lists mapping.1)) := by
    apply option_mapM_of_forall
    intro mapping member
    obtain ⟨ccList, found⟩ :=
      ((List.forall₂_iff_zip.mp (desired_mappings isDesired)).2 member).target
    rw [found, targetId_of_some found]
    rfl
  rw [nameActions, isDesired]
  change (nameUpdateCandidateSyncIndices config.mappings desired lists contacts).bind _ = _
  rw [nameUpdateCandidateSyncIndices, each]
  rfl

end ParishKit.ContactSync
