import ParishKit.ContactSync.Converges

/-!
# Names after a run

With name updates on, the only update left is of a salutation with a blank part; with
them off, a contact keeps its name up to the periods of its first name.
-/

namespace ParishKit.ContactSync

open ParishKit.Lib
open ParishKit.Responses (Unicode LawfulUnicode)

theorem removePeriods_removePeriods (text : Text) :
    removePeriods (removePeriods text) = removePeriods text := by
  simp [removePeriods]

theorem orText_of_ne_nil {first second : Text} (nonblank : first ≠ []) :
    orText (some first) second = first :=
  if_neg nonblank

theorem orText_nil (second : Text) : orText (some []) second = second :=
  rfl

/-! ## Names of one contact -/

/-- The name update of a group that counts. -/
def lastUpdate (group : List CCAction) : Option CCAction :=
  (ofType .updateName group).getLast?

/-- The names that the bodies of an address leave, when its contact is the one read. -/
theorem applyBodies_names (email : Text) (contact : Contact) (group : List CCAction) :
    let after := applyBodies (knownPost email contact group)
      (foldBodies (knownPost email contact group) (knownPut contact group)) contact
    after.last = orText ((lastUpdate group).bind CCAction.newLast) contact.last ∧
      (after.first =
          removePeriods (orText ((lastUpdate group).bind CCAction.newFirst) contact.first) ∨
        lastUpdate group = none ∧ after.first = contact.first) := by
  intro after
  cases isPut : knownPut contact group with
  | none =>
      have noUpdate : lastUpdate group = none := by
        rw [lastUpdate, (knownPut_none isPut).2, List.getLast?_nil]
      cases isPost : knownPost email contact group with
      | none =>
          have same : after = contact := by
            simp only [after, isPut, isPost]
            rfl
          rw [same, noUpdate]
          exact ⟨rfl, Or.inr ⟨rfl, rfl⟩⟩
      | some form =>
          have same : after = contact.signedUp (signUpFormBody form) := by
            simp only [after, isPut, isPost]
            rfl
          obtain ⟨_, isFirst, isLast, _⟩ := knownPost_some isPost
          rw [same, noUpdate]
          exact ⟨isLast, Or.inl (congrArg removePeriods isFirst)⟩
  | some body =>
      obtain ⟨sending, folded⟩ := foldBodies_isSome (knownPost email contact group) body
      obtain ⟨putBody, isBody, isId, _, isFirst, isLast⟩ := foldBodies_some folded
      cases isBody
      have isContact := (isId.trans (knownPut_some isPut).1).symm
      have names := applyBodies_updated (knownPost email contact group) isContact
      simp only [after, isPut, folded]
      rw [names.1, names.2.1, isFirst, isLast]
      rw [knownPut] at isPut
      split at isPut <;> cases isPut
      exact ⟨rfl, Or.inl rfl⟩

/-- The lists of a contact after its bodies are among those named by anything sent. -/
theorem mem_of_mem_applyBodies
    {email : Text} {read contact : Contact} {group : List CCAction} {listId : Text}
    (listed : listId ∈ (applyBodies (knownPost email read group)
      (foldBodies (knownPost email read group) (knownPut read group)) contact).listMemberships) :
    listId ∈ contact.listMemberships ∨ listId ∈ read.listMemberships ∨
      listId ∈ subscribedLists group := by
  have ofForm : ∀ form, knownPost email read group = some form →
      listId ∈ form.listMemberships → listId ∈ subscribedLists group := by
    intro form isPost member
    rwa [(knownPost_some isPost).2.2.2] at member
  have ofSigned : listId ∈ (applyBodies (knownPost email read group) none
      contact).listMemberships →
        listId ∈ contact.listMemberships ∨ listId ∈ subscribedLists group := by
    intro member
    cases isPost : knownPost email read group with
    | none =>
        rw [isPost] at member
        exact Or.inl member
    | some form =>
        rw [isPost] at member
        exact (mem_addLists.mp member).imp_right (ofForm form isPost)
  cases folded : foldBodies (knownPost email read group) (knownPut read group) with
  | none =>
      rw [folded] at listed
      exact (ofSigned listed).imp_right Or.inr
  | some body =>
      rw [folded, applyBodies.eq_def] at listed
      dsimp only at listed
      split at listed
      · cases (mem_foldBodies folded).mp listed with
        | inl put =>
            obtain ⟨putBody, isPut, member⟩ := put
            rw [knownPut_lists isPut] at member
            exact Or.inr (Or.inl (mem_of_mem_removeLists member))
        | inr post =>
            obtain ⟨form, isPost, member⟩ := post
            exact Or.inr (Or.inr (ofForm form isPost member))
      · exact (ofSigned listed).imp_right Or.inr

/-! ## Candidates -/

variable [Unicode]

section

variable {config : CCSyncConfig} {data : ParishSoftData} {lists : List ContactList}
    {contacts : List Contact} {desired : List (List Text)} {actions : List CCAction}

/-- `name_update_candidate_sync_indices` of resolved mappings. -/
def candidatesOf (config : CCSyncConfig) (lists : List ContactList) (contacts : List Contact)
    (desired : List (List Text)) (email : Text) : List Nat :=
  (((mapped config desired).map fun mapping =>
    mapping.2 ++ listContacts contacts (targetId lists mapping.1)).zipIdx.filter
      fun emails => email ∈ emails.1).map Prod.snd

theorem candidatesOf_ne_nil {email : Text} :
    candidatesOf config lists contacts desired email ≠ [] ↔
      ∃ mapping ∈ mapped config desired, email ∈ mapping.2 ∨
        email ∈ listContacts contacts (targetId lists mapping.1) := by
  rw [candidatesOf, Ne, List.map_eq_nil_iff, List.filter_eq_nil_iff]
  constructor
  · intro someIn
    push Not at someIn
    obtain ⟨indexed, isIndexed, isIn⟩ := someIn
    obtain ⟨mapping, isMapping, isEmails⟩ :=
      List.mem_map.mp (List.fst_mem_of_mem_zipIdx isIndexed)
    rw [decide_eq_true_eq, ← isEmails, List.mem_append] at isIn
    exact ⟨mapping, isMapping, isIn⟩
  · rintro ⟨mapping, isMapping, isIn⟩ noneIn
    obtain ⟨index, indexed⟩ := mem_zipIdx_of_mem (List.mem_map_of_mem
      (f := fun mapping => mapping.2 ++ listContacts contacts (targetId lists mapping.1))
      isMapping)
    exact noneIn _ indexed (decide_eq_true (List.mem_append.mpr isIn))

omit [Unicode] in
theorem nonblank_of_mem_subscribedLists {group : List CCAction} {listId : Text}
    (member : listId ∈ subscribedLists group) : listId ≠ [] := by
  obtain ⟨action, _, isId⟩ := List.mem_filterMap.mp member
  simpa using (Option.filter_eq_some_iff.mp isId).2

/-- A run makes no address a candidate that was none. -/
theorem After.candidates
    {account : Account} {news : List Contact} (after : After data account actions news)
    (run : RunActions config data account.lists account.contacts desired actions)
    {email : Text}
    (isCandidate : candidatesOf config account.lists (afterRun account actions news) desired
      email ≠ []) :
    candidatesOf config account.lists account.contacts desired email ≠ [] := by
  rw [candidatesOf_ne_nil] at isCandidate ⊢
  obtain ⟨mapping, isMapping, isIn⟩ := isCandidate
  have ofSubscribed : targetId account.lists mapping.1 ∈
      subscribedLists (groupOf actions email) →
        ∃ mapping ∈ mapped config desired, email ∈ mapping.2 ∨
          email ∈ listContacts account.contacts (targetId account.lists mapping.1) := by
    intro member
    obtain ⟨other, isOther, _, wanted, _⟩ :=
      (run.mem_subscribedLists (nonblank_of_mem_subscribedLists member)).mp member
    exact ⟨other, isOther, Or.inl wanted⟩
  cases isIn with
  | inl wanted => exact ⟨mapping, isMapping, Or.inl wanted⟩
  | inr listed =>
      obtain ⟨contact, member, isKey, onList⟩ := mem_listContacts.mp listed
      cases List.mem_append.mp member with
      | inr isNew =>
          rw [(after.created contact isNew).listed, isKey] at onList
          exact ofSubscribed onList
      | inl settled =>
          obtain ⟨loaded, isLoaded, rfl⟩ := List.mem_map.mp settled
          rw [settleContact_key account.contactIds isLoaded] at isKey
          have isRead := readContact_mem isLoaded
          rcases mem_of_mem_applyBodies onList with onLoaded | onRead | subscribed
          · exact ⟨mapping, isMapping, Or.inr (mem_listContacts.mpr
              ⟨loaded, isLoaded, isKey, onLoaded⟩)⟩
          · exact ⟨mapping, isMapping, Or.inr (mem_listContacts.mpr
              ⟨_, isRead.2.1, isRead.2.2.trans isKey, onRead⟩)⟩
          · exact ofSubscribed (isKey ▸ subscribed)

/-! ## Updates -/

theorem nameActions_candidates
    (isDesired : desiredEmails config data lists contacts = some desired) :
    nameActions config data lists contacts =
      some (detectNameMismatches data contacts config.updateNames
        (candidatesOf config lists contacts desired)) :=
  nameActions_eq isDesired

theorem contactsByEmail_nodup (contacts : List Contact) :
    ((contactsByEmail contacts).map Contact.key).Nodup :=
  recordsByKey_nodup Contact.key contacts

theorem readContact_of_mem {contact : Contact} (member : contact ∈ contactsByEmail contacts) :
    readContact contacts contact = contact := by
  rw [readContact, findRecord_of_mem (contactsByEmail_nodup contacts) member]
  rfl

/-- What the last update of an address says, when there is one. -/
theorem RunActions.lastUpdate_some
    (run : RunActions config data lists contacts desired actions) {contact : Contact}
    (member : contact ∈ contactsByEmail contacts) {update : CCAction}
    (isLast : lastUpdate (groupOf actions contact.key) = some update) :
    config.updateNames = true ∧ ∃ first last,
      salutationForMembers (membersByEmail data contact.key) = some (first, last) ∧
      update.newFirst = some (removePeriods first) ∧ update.newLast = some last := by
  obtain ⟨isAction, isEmail, isUpdate⟩ := mem_ofType.mp (List.mem_of_getLast? isLast)
  rcases run.mem_iff.mp isAction with isCreate | ⟨⟨mapping, index⟩, _, isOfList⟩ | isName
  · obtain ⟨email, _, _, rfl⟩ := mem_computeCreateActions.mp isCreate
    cases isUpdate
  · rcases mem_listActions.mp isOfList with ⟨email, _, _, rfl⟩ | ⟨email, _, _, rfl⟩
    · cases isUpdate
    · cases isUpdate
  · obtain ⟨updates, isUpdates, isOfUpdates⟩ := isName
    rw [nameActions_candidates run.isDesired] at isUpdates
    cases isUpdates
    obtain ⟨isOn, other, isOther, first, last, salutation, _, _, _, rfl⟩ :=
      mem_detectNameMismatches.mp isOfUpdates
    cases List.inj_on_of_nodup_map (contactsByEmail_nodup contacts) isOther member isEmail
    exact ⟨isOn, first, last, salutation, rfl, rfl⟩

/-- A candidate that gets no update has the name of its salutation. -/
theorem RunActions.lastUpdate_none
    (run : RunActions config data lists contacts desired actions) {contact : Contact}
    (member : contact ∈ contactsByEmail contacts) (isOn : config.updateNames = true)
    (isCandidate : candidatesOf config lists contacts desired contact.key ≠ [])
    {first last : Text}
    (salutation : salutationForMembers (membersByEmail data contact.key) = some (first, last))
    (noUpdate : lastUpdate (groupOf actions contact.key) = none) :
    removePeriods first = contact.first ∧ last = contact.last := by
  by_contra different
  obtain ⟨index, isIndex⟩ := List.exists_mem_of_ne_nil _ isCandidate
  have isUpdate : updateNameAction contact.key (removePeriods first) last index ∈
      ofType .updateName (groupOf actions contact.key) := by
    refine mem_ofType.mpr ⟨run.mem_iff.mpr (Or.inr (Or.inr ⟨_,
      nameActions_candidates run.isDesired, ?_⟩)), rfl, rfl⟩
    exact mem_detectNameMismatches.mpr ⟨isOn, contact, member, first, last, salutation,
      different, index, isIndex, rfl⟩
  rw [lastUpdate, List.getLast?_eq_none_iff] at noUpdate
  rw [noUpdate] at isUpdate
  cases isUpdate

/-- The name of a contact that a run read, after the run, against its salutation. -/
theorem RunActions.settled_name
    (run : RunActions config data lists contacts desired actions) {contact : Contact}
    (member : contact ∈ contactsByEmail contacts) (isOn : config.updateNames = true)
    (isCandidate : candidatesOf config lists contacts desired contact.key ≠ [])
    {first last : Text}
    (salutation : salutationForMembers (membersByEmail data contact.key) = some (first, last)) :
    (removePeriods first = (settleContact contacts actions contact).first ∨
        removePeriods first = []) ∧
      (last = (settleContact contacts actions contact).last ∨ last = []) := by
  have names := applyBodies_names contact.key contact (groupOf actions contact.key)
  rw [settleContact, readContact_of_mem member]
  dsimp only at names ⊢
  cases isLast : lastUpdate (groupOf actions contact.key) with
  | none =>
      obtain ⟨sameFirst, sameLast⟩ :=
        run.lastUpdate_none member isOn isCandidate salutation isLast
      rw [isLast] at names
      refine ⟨Or.inl ?_, Or.inl (sameLast.trans names.1.symm)⟩
      cases names.2 with
      | inl stored =>
          rw [stored]
          change _ = removePeriods contact.first
          rw [← sameFirst, removePeriods_removePeriods]
      | inr kept => rw [kept.2, sameFirst]
  | some update =>
      obtain ⟨_, otherFirst, otherLast, same, isFirst, isLastName⟩ :=
        run.lastUpdate_some member isLast
      rw [salutation] at same
      cases same
      rw [isLast] at names
      change _ = orText update.newLast _ ∧ (_ = removePeriods (orText update.newFirst _) ∨ _) at names
      rw [isFirst, isLastName] at names
      have stored := names.2.resolve_right fun kept => by cases kept.1
      constructor
      · by_cases blank : removePeriods first = []
        · exact Or.inr blank
        · rw [stored, orText_of_ne_nil blank, removePeriods_removePeriods]
          exact Or.inl rfl
      · by_cases blank : last = []
        · exact Or.inr blank
        · rw [names.1, orText_of_ne_nil blank]
          exact Or.inl rfl

end

/-! ## Runs -/

variable (service : ContactService)

theorem contactsByEmail_afterRun
    {data : ParishSoftData} {account : Account} {actions : List CCAction} {news : List Contact}
    (after : After data account actions news) :
    contactsByEmail (afterRun account actions news) =
      (contactsByEmail account.contacts).map (settleContact account.contacts actions) ++
        news := by
  rw [contactsByEmail, afterRun, recordsByKey_append, recordsByKey_map]
  · rfl
  · exact fun contact member => settleContact_key account.contactIds member
  · rw [after.newKeys]
    exact (emailsOf_nodup actions).filter _
  · intro contact isNew isKey
    have newKey : contact.key ∈ news.map Contact.key := List.mem_map_of_mem isNew
    rw [after.newKeys, List.mem_filter, decide_eq_true_eq] at newKey
    obtain ⟨settled, isSettled, sameKey⟩ := List.mem_map.mp isKey
    obtain ⟨loaded, isLoaded, rfl⟩ := List.mem_map.mp isSettled
    rw [settleContact_key account.contactIds isLoaded] at sameKey
    exact newKey.2 (sameKey ▸ List.mem_map_of_mem isLoaded)

/-- After a run with name updates on, an update is only left for a salutation with a blank
part where the contact has a name. After a run with name updates off, a contact that was
read keeps its last name, and its first name up to the periods that sending takes out. -/
theorem contact_names_settle
    [LawfulUnicode] (config : CCSyncConfig) (data : ParishSoftData) (account : Account)
    (after : List Contact) (completed : runSync service config data account = some after) :
    (config.updateNames = true →
      ∃ updates, nameActions config data account.lists after = some updates ∧
        ∀ update ∈ updates, ∃ contact ∈ contactsByEmail after, contact.key = update.email ∧
          (update.newFirst = some [] ∧ contact.first ≠ [] ∨
            update.newLast = some [] ∧ contact.last ≠ [])) ∧
      (config.updateNames = false →
        ∀ contact ∈ contactsByEmail account.contacts, ∃ kept ∈ after,
          kept.contactId = contact.contactId ∧ kept.last = contact.last ∧
          (kept.first = contact.first ∨ kept.first = removePeriods contact.first ∧
            ∃ actions, membershipActions config data account.lists account.contacts =
              some actions ∧ ∃ action ∈ actions, action.email = contact.key)) := by
  obtain ⟨memberships, isMemberships, _⟩ := Option.bind_eq_some_iff.mp completed
  obtain ⟨desired, isDesired, _⟩ := Option.bind_eq_some_iff.mp isMemberships
  obtain ⟨actions, news, run, isAfter, ran⟩ := runSync_after service isDesired
  cases completed.symm.trans ran
  constructor
  · intro isOn
    refine ⟨_, nameActions_candidates (isAfter.desiredEmails isDesired), fun update member => ?_⟩
    obtain ⟨_, contact, isContact, first, last, salutation, different, index, isIndex, rfl⟩ :=
      mem_detectNameMismatches.mp member
    refine ⟨contact, isContact, rfl, ?_⟩
    rw [contactsByEmail_afterRun isAfter] at isContact
    cases List.mem_append.mp isContact with
    | inl settled =>
        obtain ⟨read, isRead, rfl⟩ := List.mem_map.mp settled
        have sameKey : (settleContact account.contacts actions read).key = read.key :=
          settleContact_key account.contactIds (mem_of_mem_recordsByKey isRead)
        rw [sameKey] at salutation isIndex
        have isCandidate := isAfter.candidates run (List.ne_nil_of_mem isIndex)
        obtain ⟨ofFirst, ofLast⟩ := run.settled_name isRead isOn isCandidate salutation
        by_contra settledNames
        rw [not_or, not_and_not_right, not_and_not_right] at settledNames
        refine different ⟨?_, ?_⟩
        · cases ofFirst with
          | inl same => exact same
          | inr blank => exact blank.trans (settledNames.1 (congrArg some blank)).symm
        · cases ofLast with
          | inl same => exact same
          | inr blank => exact blank.trans (settledNames.2 (congrArg some blank)).symm
    | inr isNew =>
        obtain ⟨otherFirst, otherLast, sameSalutation, isFirst, isLast⟩ :=
          (isAfter.created contact isNew).named
        rw [salutation] at sameSalutation
        cases sameSalutation
        exact absurd ⟨isFirst.symm, isLast.symm⟩ different
  · intro isOff contact isRead
    refine ⟨settleContact account.contacts actions contact, List.mem_append_left _
      (List.mem_map_of_mem (mem_of_mem_recordsByKey isRead)), settleContact_contactId _ _ _, ?_⟩
    have noUpdate : lastUpdate (groupOf actions contact.key) = none := by
      cases isLast : lastUpdate (groupOf actions contact.key) with
      | none => rfl
      | some update =>
          have isOn := (run.lastUpdate_some isRead isLast).1
          rw [isOff] at isOn
          cases isOn
    have names := applyBodies_names contact.key contact (groupOf actions contact.key)
    rw [noUpdate] at names
    by_cases untouched : groupOf actions contact.key = []
    · rw [settleContact_untouched untouched]
      exact ⟨rfl, Or.inl rfl⟩
    · rw [settleContact, readContact_of_mem isRead]
      refine ⟨names.1, ?_⟩
      cases names.2 with
      | inr kept => exact Or.inl kept.2
      | inl stored =>
          refine Or.inr ⟨stored, memberships, isMemberships, ?_⟩
          obtain ⟨action, isOfGroup⟩ := List.exists_mem_of_ne_nil _ untouched
          obtain ⟨isAction, isEmail⟩ := List.mem_filter.mp isOfGroup
          refine ⟨action, ?_, of_decide_eq_true isEmail⟩
          obtain ⟨others, updates, isOthers, isUpdates, rfl⟩ := run.isActions
          cases isMemberships.symm.trans isOthers
          rw [nameActions_candidates isDesired, isOff] at isUpdates
          cases isUpdates
          simpa [detectNameMismatches] using isAction

/-! ## A sample -/

/-- A Member without a last name, of the address that a named contact has. -/
def namelessData : ParishSoftData where
  members := [sampleMember 1 "bo@x" "Bo" ""]
  memberWorkgroupMemberships := [⟨"Choir".toList, [some 1]⟩]

def abbreviatedAccount : Account where
  lists := [⟨['l'], "Choir".toList⟩]
  contacts := [⟨['1'], ⟨"bo@x".toList, none⟩, some "B.".toList, some "Ray".toList, []⟩]
  listIds := by decide
  listIdsNonblank := by decide
  contactIds := by decide

def sampleConfig (updateNames : Bool) : @CCSyncConfig Responses.asciiUnicode :=
  @CCSyncConfig.mk Responses.asciiUnicode [sampleMapping] updateNames rfl

/-- The contact of the account after a run. -/
def abbreviatedAfter (firstName : String) : List Contact :=
  [⟨['1'], ⟨"bo@x".toList, none⟩, some firstName.toList, some "Ray".toList, [['l']]⟩]

omit [Unicode] in
/-- The blank last name is an update again, and sending takes the period of a name out. -/
theorem contact_names_unsettled :
    (@runSync Responses.asciiUnicode longerContactId (sampleConfig true) namelessData
        abbreviatedAccount = some (abbreviatedAfter "Bo") ∧
      @nameActions Responses.asciiUnicode (sampleConfig true) namelessData
        abbreviatedAccount.lists (abbreviatedAfter "Bo") ≠ some []) ∧
    @runSync Responses.asciiUnicode longerContactId (sampleConfig false) namelessData
        abbreviatedAccount = some (abbreviatedAfter "B") ∧
      abbreviatedAccount.contacts.map Contact.first ≠
        (abbreviatedAfter "B").map Contact.first := by
  decide

omit [Unicode] in
theorem contact_names_settle_sample :
    ∃ updates, @nameActions Responses.asciiUnicode (sampleConfig true) namelessData
        abbreviatedAccount.lists (abbreviatedAfter "Bo") = some updates ∧
      ∀ update ∈ updates, ∃ contact ∈ @contactsByEmail Responses.asciiUnicode
        (abbreviatedAfter "Bo"), @Contact.key Responses.asciiUnicode contact = update.email ∧
          (update.newFirst = some [] ∧ contact.first ≠ [] ∨
            update.newLast = some [] ∧ contact.last ≠ []) :=
  (@contact_names_settle Responses.asciiUnicode longerContactId Responses.lawfulAscii
    (sampleConfig true) namelessData abbreviatedAccount (abbreviatedAfter "Bo")
    (by decide)).1 rfl

end ParishKit.ContactSync
