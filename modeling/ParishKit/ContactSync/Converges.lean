import ParishKit.ContactSync.RunActions

/-!
# One run converges

After a run each configured list holds its desired addresses, every other list is as
it was, and the next run has no contact to create and no list to change.
-/

namespace ParishKit.ContactSync

open ParishKit.Lib
open ParishKit.Responses (Unicode LawfulUnicode)

/-! ## Lists of one contact -/

/-- The lists of a contact once its own bodies are sent. -/
theorem mem_applyBodies
    {email : Text} {contact : Contact} {group : List CCAction}
    (distinct : contact.listMemberships.Nodup) {listId : Text} :
    listId ∈ (applyBodies (knownPost email contact group)
        (foldBodies (knownPost email contact group) (knownPut contact group))
        contact).listMemberships ↔
      (listId ∈ contact.listMemberships ∧
        ¬∃ action ∈ ofType .unsubscribe group, action.listUuid = some listId) ∨
      listId ∈ subscribedLists group := by
  cases isPut : knownPut contact group with
  | none =>
      obtain ⟨noUnsubscribe, _⟩ := knownPut_none isPut
      cases isPost : knownPost email contact group with
      | none =>
          simp [foldBodies, applyBodies, noUnsubscribe, knownPost_none isPost]
      | some form =>
          have lists := (knownPost_some isPost).2.2.2
          simp [foldBodies, applyBodies, noUnsubscribe, Contact.signedUp, signUpFormBody,
            mem_addLists, lists]
  | some body =>
      obtain ⟨sending, folded⟩ := foldBodies_isSome (knownPost email contact group) body
      obtain ⟨putBody, isBody, isId, _⟩ := foldBodies_some folded
      cases isBody
      have isContact := (isId.trans (knownPut_some isPut).1).symm
      rw [folded, (applyBodies_updated _ isContact).2.2, mem_foldBodies folded]
      apply or_congr
      · simp only [Option.some.injEq, exists_eq_left']
        rw [knownPut_lists isPut, mem_removeLists distinct]
        simp
      · cases isPost : knownPost email contact group with
        | none => simp [knownPost_none isPost]
        | some form => simp [(knownPost_some isPost).2.2.2]

/-! ## Lists of the account -/

variable [Unicode]

section

variable {config : CCSyncConfig} {data : ParishSoftData} {account : Account}
    {desired : List (List Text)} {actions : List CCAction}

/-- The mapped list is the one of its id, and no other mapping names it. -/
theorem target_unique
    {lists : List ContactList} {contacts : List Contact}
    (listIds : (lists.map ContactList.listId).Nodup)
    (isDesired : desiredEmails config data lists contacts = some desired)
    {mapping other : CCSyncMapping × List Text}
    (isMapping : mapping ∈ mapped config desired) (isOther : other ∈ mapped config desired)
    (sameId : targetId lists mapping.1 = targetId lists other.1) : mapping = other := by
  have resolved := List.forall₂_iff_zip.mp (desired_mappings isDesired)
  obtain ⟨ccList, found⟩ := (resolved.2 isMapping).target
  obtain ⟨otherList, otherFound⟩ := (resolved.2 isOther).target
  rw [targetId_of_some found, targetId_of_some otherFound] at sameId
  have sameList := List.inj_on_of_nodup_map listIds (listByName_some found).1
    (listByName_some otherFound).1 sameId
  have sameName : mapping.1.targetList = other.1.targetList := by
    rw [← (listByName_some found).2, ← (listByName_some otherFound).2, sameList]
  have distinct : ((mapped config desired).map fun one => one.1.targetList).Nodup := by
    have names : (mapped config desired).map (fun one => one.1.targetList) =
        config.mappings.map CCSyncMapping.targetList := by
      have firsts : (mapped config desired).map Prod.fst = config.mappings :=
        List.map_fst_zip (le_of_eq resolved.1)
      rw [← firsts, List.map_map]
      rfl
    rw [names]
    exact config.targetLists_nodup
  exact List.inj_on_of_nodup_map distinct isMapping isOther sameName

theorem targetId_mem
    {lists : List ContactList} {contacts : List Contact}
    (isDesired : desiredEmails config data lists contacts = some desired)
    {mapping : CCSyncMapping × List Text} (isMapping : mapping ∈ mapped config desired) :
    ∃ ccList ∈ lists, ccList.name = mapping.1.targetList ∧
      ccList.listId = targetId lists mapping.1 := by
  obtain ⟨ccList, found⟩ :=
    ((List.forall₂_iff_zip.mp (desired_mappings isDesired)).2 isMapping).target
  exact ⟨ccList, (listByName_some found).1, (listByName_some found).2,
    (targetId_of_some found).symm⟩

theorem readContact_self
    {contacts : List Contact} (uniqueAddresses : (contacts.map Contact.key).Nodup)
    {contact : Contact} (member : contact ∈ contacts) :
    readContact contacts contact = contact :=
  List.inj_on_of_nodup_map uniqueAddresses (readContact_mem member).2.1 member
    (readContact_mem member).2.2

/-- The contacts after a run of an account. -/
structure After (data : ParishSoftData) (account : Account) (actions : List CCAction)
    (news : List Contact) : Prop where
  newKeys : news.map Contact.key =
    (emailsOf actions).filter fun email => email ∉ account.contacts.map Contact.key
  created : ∀ contact ∈ news, CreatedFor data account.contacts actions contact

/-- The contacts that an account had, and the new ones. -/
abbrev afterRun (account : Account) (actions : List CCAction) (news : List Contact) :
    List Contact :=
  account.contacts.map (settleContact account.contacts actions) ++ news

variable {news : List Contact}

theorem After.mem_optedOut (after : After data account actions news) {email : Text} :
    email ∈ optedOut (afterRun account actions news) ↔ email ∈ optedOut account.contacts := by
  have isOut : ∀ {contacts : List Contact} {email : Text}, email ∈ optedOut contacts ↔
      ∃ contact ∈ contacts, contact.emailAddress.permissionToSend = some unsubscribedPermission ∧
        contact.key = email := by
    intro contacts email
    simp only [optedOut, List.mem_map, List.mem_filter, decide_eq_true_eq, and_assoc]
  rw [isOut, isOut]
  constructor
  · rintro ⟨contact, member, isPermission, isKey⟩
    cases List.mem_append.mp member with
    | inl settled =>
        obtain ⟨loaded, isLoaded, rfl⟩ := List.mem_map.mp settled
        rw [settleContact_emailAddress account.contactIds isLoaded] at isPermission
        rw [settleContact_key account.contactIds isLoaded] at isKey
        exact ⟨loaded, isLoaded, isPermission, isKey⟩
    | inr isNew => exact absurd isPermission (after.created contact isNew).allowed
  · rintro ⟨loaded, isLoaded, isPermission, isKey⟩
    refine ⟨settleContact account.contacts actions loaded,
      List.mem_append_left _ (List.mem_map_of_mem isLoaded), ?_, ?_⟩
    · rw [settleContact_emailAddress account.contactIds isLoaded]
      exact isPermission
    · rw [settleContact_key account.contactIds isLoaded]
      exact isKey

/-- After a run the same addresses are desired. -/
theorem After.desiredEmails (after : After data account actions news)
    (isDesired : desiredEmails config data account.lists account.contacts = some desired) :
    desiredEmails config data account.lists (afterRun account actions news) = some desired := by
  obtain ⟨resolved, isResolved, rfl⟩ := desiredEmails_some.mp isDesired
  refine desiredEmails_some.mpr ⟨resolved, isResolved, ?_⟩
  refine List.map_congr_left fun emails _ => ?_
  apply List.filter_congr
  intro email _
  rw [decide_eq_decide, after.mem_optedOut]

/-- After a run a configured list holds the addresses that are desired. -/
theorem After.listed
    (after : After data account actions news)
    (run : RunActions config data account.lists account.contacts desired actions)
    (uniqueAddresses : (account.contacts.map Contact.key).Nodup)
    (noRepeats : ∀ contact ∈ account.contacts, contact.listMemberships.Nodup)
    {mapping : CCSyncMapping × List Text} (isMapping : mapping ∈ mapped config desired)
    {email : Text} :
    email ∈ listContacts (afterRun account actions news) (targetId account.lists mapping.1) ↔
      email ∈ mapping.2 := by
  obtain ⟨ccList, isList, _, isId⟩ := targetId_mem run.isDesired isMapping
  have nonblank := isId ▸ account.listIdsNonblank ccList isList
  have unique : ∀ other ∈ mapped config desired,
      targetId account.lists other.1 = targetId account.lists mapping.1 → other = mapping :=
    fun other isOther => target_unique account.listIds run.isDesired isOther isMapping
  have subscribed : ∀ email, targetId account.lists mapping.1 ∈
      subscribedLists (groupOf actions email) ↔ email ∈ mapping.2 ∧
        email ∉ listContacts account.contacts (targetId account.lists mapping.1) := by
    intro email
    rw [run.mem_subscribedLists nonblank]
    constructor
    · rintro ⟨other, isOther, sameId, wanted, missing⟩
      rw [unique other isOther sameId] at wanted
      exact ⟨wanted, missing⟩
    · rintro ⟨wanted, missing⟩
      exact ⟨mapping, isMapping, rfl, wanted, missing⟩
  have unsubscribed : ∀ email, (∃ action ∈ ofType .unsubscribe (groupOf actions email),
      action.listUuid = some (targetId account.lists mapping.1)) ↔
        email ∈ listContacts account.contacts (targetId account.lists mapping.1) ∧
          email ∉ mapping.2 := by
    intro email
    rw [run.unsubscribed_iff]
    constructor
    · rintro ⟨other, isOther, sameId, listed, unwanted⟩
      rw [unique other isOther sameId] at unwanted
      exact ⟨listed, unwanted⟩
    · rintro ⟨listed, unwanted⟩
      exact ⟨mapping, isMapping, rfl, listed, unwanted⟩
  have ofContact : ∀ contact ∈ account.contacts,
      targetId account.lists mapping.1 ∈
          (settleContact account.contacts actions contact).listMemberships ↔
        contact.key ∈ mapping.2 := by
    intro contact member
    have onList : contact.key ∈ listContacts account.contacts
        (targetId account.lists mapping.1) ↔
          targetId account.lists mapping.1 ∈ contact.listMemberships := by
      rw [mem_listContacts]
      constructor
      · rintro ⟨other, isOther, sameKey, listed⟩
        rwa [List.inj_on_of_nodup_map uniqueAddresses isOther member sameKey] at listed
      · exact fun listed => ⟨contact, member, rfl, listed⟩
    rw [settleContact, readContact_self uniqueAddresses member,
      mem_applyBodies (noRepeats contact member), subscribed, unsubscribed, onList]
    tauto
  rw [mem_listContacts]
  constructor
  · rintro ⟨contact, member, isKey, listed⟩
    cases List.mem_append.mp member with
    | inl settled =>
        obtain ⟨loaded, isLoaded, rfl⟩ := List.mem_map.mp settled
        rw [← isKey, settleContact_key account.contactIds isLoaded]
        exact (ofContact loaded isLoaded).mp listed
    | inr isNew =>
        have isSubscribed := ((after.created contact isNew).listed _).mp listed
        rw [← isKey]
        exact ((subscribed _).mp isSubscribed).1
  · intro wanted
    by_cases known : email ∈ account.contacts.map Contact.key
    · obtain ⟨loaded, isLoaded, isKey⟩ := List.mem_map.mp known
      refine ⟨settleContact account.contacts actions loaded,
        List.mem_append_left _ (List.mem_map_of_mem isLoaded), ?_, ?_⟩
      · rw [settleContact_key account.contactIds isLoaded, isKey]
      · exact (ofContact loaded isLoaded).mpr (isKey ▸ wanted)
    · obtain ⟨create, isCreate, createEmail, _⟩ :=
        run.created (List.of_mem_zip isMapping).2 wanted known
      have isNewKey : email ∈ news.map Contact.key := by
        rw [after.newKeys, List.mem_filter]
        exact ⟨mem_emailsOf.mpr ⟨create, isCreate, createEmail⟩, decide_eq_true known⟩
      obtain ⟨contact, isNew, isKey⟩ := List.mem_map.mp isNewKey
      refine ⟨contact, List.mem_append_right _ isNew, isKey, ?_⟩
      rw [(after.created contact isNew).listed, isKey, subscribed]
      exact ⟨wanted, fun listed => known (listContacts_key listed)⟩

/-- Membership of a list that is not configured is as it was. -/
theorem After.unlisted
    (run : RunActions config data account.lists account.contacts desired actions)
    (uniqueAddresses : (account.contacts.map Contact.key).Nodup)
    (noRepeats : ∀ contact ∈ account.contacts, contact.listMemberships.Nodup)
    {listId : Text}
    (other : ∀ mapping ∈ mapped config desired, targetId account.lists mapping.1 ≠ listId)
    {contact : Contact} (member : contact ∈ account.contacts) :
    listId ∈ (settleContact account.contacts actions contact).listMemberships ↔
      listId ∈ contact.listMemberships := by
  have notAdded : listId ∉ subscribedLists (groupOf actions contact.key) := by
    intro added
    by_cases nonblank : listId = []
    · rw [subscribedLists, List.mem_filterMap] at added
      obtain ⟨action, _, isId⟩ := added
      have isNonblank := (Option.filter_eq_some_iff.mp isId).2
      simp [nonblank] at isNonblank
    · obtain ⟨mapping, isMapping, isId, _⟩ := (run.mem_subscribedLists nonblank).mp added
      exact other mapping isMapping isId
  have notRemoved : ¬∃ action ∈ ofType .unsubscribe (groupOf actions contact.key),
      action.listUuid = some listId := by
    rw [run.unsubscribed_iff]
    rintro ⟨mapping, isMapping, isId, _⟩
    exact other mapping isMapping isId
  rw [settleContact, readContact_self uniqueAddresses member,
    mem_applyBodies (noRepeats contact member)]
  simp only [notAdded, notRemoved, not_false_eq_true, and_true, or_false]

/-- After a run there is nothing to create, subscribe or unsubscribe. -/
theorem After.nothing_more
    (after : After data account actions news)
    (run : RunActions config data account.lists account.contacts desired actions)
    (uniqueAddresses : (account.contacts.map Contact.key).Nodup)
    (noRepeats : ∀ contact ∈ account.contacts, contact.listMemberships.Nodup) :
    membershipActions config data account.lists (afterRun account actions news) = some [] := by
  rw [membershipActions_eq (after.desiredEmails run.isDesired)]
  refine congrArg some (List.eq_nil_iff_forall_not_mem.mpr fun action member => ?_)
  cases List.mem_append.mp member with
  | inl isCreate =>
      obtain ⟨email, ⟨emails, isMapping, wanted⟩, absent, _⟩ :=
        mem_computeCreateActions.mp isCreate
      obtain ⟨index, isEmails⟩ := List.mem_iff_getElem?.mp isMapping
      have lengths := (List.forall₂_iff_zip.mp (desired_mappings run.isDesired)).1
      have inside : index < config.mappings.length := by
        rw [lengths]
        exact (List.getElem?_eq_some_iff.mp isEmails).1
      have inZip : (config.mappings[index], emails) ∈ mapped config desired :=
        List.mem_iff_getElem?.mpr
          ⟨index, by simp [mapped, List.getElem?_zip_eq_some, isEmails, inside]⟩
      exact absent (listContacts_key
        ((after.listed run uniqueAddresses noRepeats inZip).mpr wanted))
  | inr isChange =>
      rw [← List.flatMap_def, List.mem_flatMap] at isChange
      obtain ⟨indexed, isIndexed, isOfList⟩ := isChange
      have listed : ∀ email, email ∈ listContacts (afterRun account actions news)
          (targetId account.lists indexed.1.1) ↔ email ∈ indexed.1.2 := fun email =>
        after.listed run uniqueAddresses noRepeats (List.fst_mem_of_mem_zipIdx isIndexed)
      cases mem_listActions.mp isOfList with
      | inl subscribed =>
          obtain ⟨email, wanted, missing, _⟩ := subscribed
          exact missing ((listed email).mpr wanted)
      | inr removed =>
          obtain ⟨email, onList, unwanted, _⟩ := removed
          exact unwanted ((listed email).mp onList)

end

/-! ## Runs -/

variable (service : ContactService)

theorem runSync_after [LawfulUnicode]
    {config : CCSyncConfig} {data : ParishSoftData} {account : Account}
    {desired : List (List Text)}
    (isDesired : desiredEmails config data account.lists account.contacts = some desired) :
    ∃ actions news, RunActions config data account.lists account.contacts desired actions ∧
      After data account actions news ∧
      runSync service config data account = some (afterRun account actions news) := by
  obtain ⟨memberships, isMemberships⟩ : ∃ memberships,
      membershipActions config data account.lists account.contacts = some memberships :=
    ⟨_, membershipActions_eq isDesired⟩
  obtain ⟨updates, isUpdates⟩ : ∃ updates,
      nameActions config data account.lists account.contacts = some updates :=
    ⟨_, nameActions_eq isDesired⟩
  have run : RunActions config data account.lists account.contacts desired
      (memberships ++ updates) := ⟨isDesired, _, _, isMemberships, isUpdates, rfl⟩
  obtain ⟨news, executed, newKeys, created⟩ :=
    executeActions_planned service account.contactIds run.planned
  refine ⟨_, news, run, ⟨newKeys, created⟩, ?_⟩
  rw [runSync, isMemberships, isUpdates]
  exact executed

/-- One run leaves on each configured list exactly its desired addresses that are not
unsubscribed, and every other list as it was; a second run has nothing to create,
subscribe or unsubscribe. -/
theorem contact_sync_converges
    [LawfulUnicode] (config : CCSyncConfig) (data : ParishSoftData) (account : Account)
    (desired : List (List Text))
    (resolved : resolveDesiredState config.mappings data account.lists = some desired)
    (uniqueNames : (account.lists.map ContactList.name).Nodup)
    (uniqueAddresses : (account.contacts.map Contact.key).Nodup)
    (noRepeats : ∀ contact ∈ account.contacts, contact.listMemberships.Nodup) :
    ∃ after, runSync service config data account = some after ∧
      (∀ mapping ∈ config.mappings.zip desired, ∀ ccList ∈ account.lists,
        ccList.name = mapping.1.targetList → ∀ email,
          email ∈ listContacts after ccList.listId ↔
            email ∈ mapping.2 ∧ ¬∃ contact ∈ account.contacts, contact.key = email ∧
              contact.emailAddress.permissionToSend = some unsubscribedPermission) ∧
      (∀ contact ∈ account.contacts, ∃ kept ∈ after,
        kept.contactId = contact.contactId ∧ kept.emailAddress = contact.emailAddress ∧
        ∀ listId, (∀ ccList ∈ account.lists, ccList.listId = listId →
            ccList.name ∉ config.mappings.map CCSyncMapping.targetList) →
          (listId ∈ kept.listMemberships ↔ listId ∈ contact.listMemberships)) ∧
      (∀ contact ∈ after, contact.contactId ∉ account.contacts.map Contact.contactId →
        ∀ listId ∈ contact.listMemberships, ∃ ccList ∈ account.lists,
          ccList.listId = listId ∧
            ccList.name ∈ config.mappings.map CCSyncMapping.targetList) ∧
      membershipActions config data account.lists after = some [] := by
  have isDesired : desiredEmails config data account.lists account.contacts =
      some (desired.map fun emails =>
        emails.filter fun email => email ∉ optedOut account.contacts) :=
    desiredEmails_some.mpr ⟨desired, resolved, rfl⟩
  obtain ⟨actions, news, run, after, ran⟩ := runSync_after service isDesired
  refine ⟨afterRun account actions news, ran, ?_, ?_, ?_,
    after.nothing_more run uniqueAddresses noRepeats⟩
  · intro mapping isMapping ccList isList isName email
    have filtered : (mapping.1, mapping.2.filter fun email => email ∉ optedOut account.contacts) ∈
        mapped config (desired.map fun emails =>
          emails.filter fun email => email ∉ optedOut account.contacts) := by
      rw [mapped, List.zip_map_right]
      exact List.mem_map.mpr ⟨mapping, isMapping, rfl⟩
    obtain ⟨target, isTarget, targetName, isId⟩ := targetId_mem isDesired filtered
    have same : target = ccList :=
      List.inj_on_of_nodup_map uniqueNames isTarget isList (targetName.trans isName.symm)
    rw [← same, isId, after.listed run uniqueAddresses noRepeats filtered, List.mem_filter,
      decide_eq_true_eq]
    refine and_congr_right fun _ => not_congr ?_
    simp only [optedOut, List.mem_map, List.mem_filter, decide_eq_true_eq, and_assoc, and_comm]
  · intro contact member
    refine ⟨_, List.mem_append_left _ (List.mem_map_of_mem member),
      settleContact_contactId _ _ _, settleContact_emailAddress account.contactIds member, ?_⟩
    intro listId other
    refine After.unlisted run uniqueAddresses noRepeats ?_ member
    intro mapping isMapping isId
    obtain ⟨target, isTarget, targetName, targetIs⟩ := targetId_mem isDesired isMapping
    refine other target isTarget (targetIs.trans isId) ?_
    rw [targetName]
    exact List.mem_map_of_mem (List.of_mem_zip isMapping).1
  · intro contact member isNew listId listed
    cases List.mem_append.mp member with
    | inl settled =>
        obtain ⟨loaded, isLoaded, rfl⟩ := List.mem_map.mp settled
        rw [settleContact_contactId] at isNew
        exact absurd (List.mem_map_of_mem isLoaded) isNew
    | inr created =>
        have isSubscribed := ((after.created contact created).listed _).mp listed
        obtain ⟨action, isAction, isList⟩ := List.mem_filterMap.mp isSubscribed
        have nonblank : listId ≠ [] := by simpa using (Option.filter_eq_some_iff.mp isList).2
        obtain ⟨mapping, isMapping, isId, _⟩ :=
          (run.mem_subscribedLists nonblank).mp isSubscribed
        obtain ⟨target, isTarget, targetName, targetIs⟩ := targetId_mem isDesired isMapping
        refine ⟨target, isTarget, targetIs.trans isId, ?_⟩
        rw [targetName]
        exact List.mem_map_of_mem (List.of_mem_zip isMapping).1

/-! ## A sample -/

/-- A contact id longer than every other. -/
def longerContactId : ContactService where
  newContactId contacts _ := 'c' :: contacts.flatMap Contact.contactId
  newContactId_fresh contacts _ := longer_not_mem 'c' Contact.contactId contacts
  newPermission _ := some "implicit".toList
  newPermission_allowed _ := by decide

def sampleMember (memberDuid : Int) (emailAddress firstName lastName : String) : PsMember where
  memberDuid := memberDuid
  pyEmailAddresses := none
  emailAddress := some emailAddress.toList
  nickName := none
  firstName := firstName.toList
  lastName := lastName.toList
  pyFriendlyNameFL := none

def sampleData : ParishSoftData where
  members := [sampleMember 1 "Ann@x" "Ann" "Lee", sampleMember 2 "bo@x" "Bo" "Ray"]
  memberWorkgroupMemberships := [⟨"Choir".toList, [some 1, some 2, none]⟩]

/-- One contact is to be signed up, one created, and one taken off. -/
def sampleAccount : Account where
  lists := [⟨['l'], "Choir".toList⟩, ⟨['o'], "Other".toList⟩]
  contacts :=
    [⟨['1'], ⟨"ANN@x".toList, none⟩, some "Ann".toList, none, [['o']]⟩,
      ⟨['2'], ⟨"cy@x".toList, none⟩, none, none, [['l'], ['o']]⟩]
  listIds := by decide
  listIdsNonblank := by decide
  contactIds := by decide

def sampleMapping : CCSyncMapping where
  sourceWorkgroup := "Choir".toList
  targetList := "Choir".toList

omit [Unicode] in
theorem contact_sync_converges_sample :
    let config := @CCSyncConfig.mk Responses.asciiUnicode [sampleMapping] true rfl
    ∃ after,
      @runSync Responses.asciiUnicode longerContactId config sampleData sampleAccount =
        some after ∧
      @membershipActions Responses.asciiUnicode config sampleData sampleAccount.lists after =
        some [] := by
  obtain ⟨after, ran, _, _, _, nothingMore⟩ :=
    @contact_sync_converges Responses.asciiUnicode longerContactId Responses.lawfulAscii
      (@CCSyncConfig.mk Responses.asciiUnicode [sampleMapping] true rfl) sampleData sampleAccount
      [["ann@x".toList, "bo@x".toList]] (by decide) (by decide) (by decide) (by decide)
  exact ⟨after, ran, nothingMore⟩

end ParishKit.ContactSync
