import ParishKit.ContactSync.Executed

/-!
# The contacts after a run

Planned actions are carried out to the end: each contact takes the changes of its own
address, and each address without a contact gets one.
-/

namespace ParishKit.ContactSync

open ParishKit.Lib
open ParishKit.Responses (Unicode LawfulUnicode)

variable [Unicode]

/-! ## Planned actions -/

/-- What is known of the actions of a run when its bodies are built. -/
structure Planned (data : ParishSoftData) (contacts : List Contact)
    (actions : List CCAction) : Prop where
  lowered : ∀ action ∈ actions, Unicode.lower action.email = action.email
  wanted : ∀ action ∈ actions, action.type = .create →
    action.email ∉ contacts.map Contact.key ∧ membersByEmail data action.email ≠ []
  created : ∀ action ∈ actions, action.email ∉ contacts.map Contact.key →
    ∃ create ∈ actions, create.email = action.email ∧ create.type = .create
  settled : ∀ action ∈ actions, action.type = .unsubscribe ∨ action.type = .updateName →
    action.email ∈ contacts.map Contact.key

section

variable {data : ParishSoftData} {contacts : List Contact} {actions : List CCAction}
    {email : Text}

theorem Planned.lower_eq (planned : Planned data contacts actions)
    (touched : email ∈ emailsOf actions) : Unicode.lower email = email := by
  obtain ⟨action, isAction, isEmail⟩ := mem_emailsOf.mp touched
  rw [← isEmail]
  exact planned.lowered action isAction

theorem Planned.no_create (planned : Planned data contacts actions)
    (known : email ∈ contacts.map Contact.key) :
    ofType .create (groupOf actions email) = [] := by
  rw [List.eq_nil_iff_forall_not_mem]
  intro action member
  obtain ⟨isAction, isEmail, isCreate⟩ := mem_ofType.mp member
  exact (planned.wanted action isAction isCreate).1 (isEmail ▸ known)

theorem Planned.create_of_absent (planned : Planned data contacts actions)
    (touched : email ∈ emailsOf actions) (absent : email ∉ contacts.map Contact.key) :
    ofType .create (groupOf actions email) ≠ [] ∧ membersByEmail data email ≠ [] := by
  obtain ⟨action, isAction, isEmail⟩ := mem_emailsOf.mp touched
  obtain ⟨create, isCreate, createEmail, createType⟩ :=
    planned.created action isAction (isEmail ▸ absent)
  rw [isEmail] at createEmail
  constructor
  · exact List.ne_nil_of_mem (mem_ofType.mpr ⟨isCreate, createEmail, createType⟩)
  · rw [← createEmail]
    exact (planned.wanted create isCreate createType).2

theorem Planned.no_change (planned : Planned data contacts actions)
    (absent : email ∉ contacts.map Contact.key) {type : ActionType}
    (isChange : type = .unsubscribe ∨ type = .updateName) :
    ofType type (groupOf actions email) = [] := by
  rw [List.eq_nil_iff_forall_not_mem]
  intro action member
  obtain ⟨isAction, isEmail, isType⟩ := mem_ofType.mp member
  exact absent (isEmail ▸ planned.settled action isAction (isType ▸ isChange))

end

/-- The contact that stands for the address of a contact as loaded. -/
def readContact (contacts : List Contact) (contact : Contact) : Contact :=
  (findRecord Contact.key (contactsByEmail contacts) contact.key).getD contact

/-- A contact with the changes of its address. -/
def settleContact (contacts : List Contact) (actions : List CCAction) (contact : Contact) :
    Contact :=
  let read := readContact contacts contact
  let group := groupOf actions contact.key
  let post := knownPost contact.key read group
  applyBodies post (foldBodies post (knownPut read group)) contact

/-- A contact that a run created for its address. -/
structure CreatedFor (data : ParishSoftData) (contacts : List Contact)
    (actions : List CCAction) (contact : Contact) : Prop where
  fresh : contact.contactId ∉ contacts.map Contact.contactId
  allowed : contact.emailAddress.permissionToSend ≠ some unsubscribedPermission
  named : ∃ first last,
    salutationForMembers (membersByEmail data contact.key) = some (first, last) ∧
    contact.first = removePeriods first ∧ contact.last = last
  listed : ∀ listId, listId ∈ contact.listMemberships ↔
    listId ∈ subscribedLists (groupOf actions contact.key)

/-! ## One contact -/

theorem readContact_mem
    {contacts : List Contact} {contact : Contact} (member : contact ∈ contacts) :
    findRecord Contact.key (contactsByEmail contacts) contact.key =
        some (readContact contacts contact) ∧
      readContact contacts contact ∈ contacts ∧
      (readContact contacts contact).key = contact.key := by
  have present : contact.key ∈ (contactsByEmail contacts).map Contact.key :=
    mem_contactsByEmail_keys.mpr (List.mem_map_of_mem member)
  obtain ⟨read, found⟩ := findRecord_isSome present
  have isRead : readContact contacts contact = read := by
    rw [readContact, found]
    rfl
  rw [isRead]
  exact ⟨found, mem_of_mem_recordsByKey (findRecord_some found).1, (findRecord_some found).2⟩

theorem settleContact_contactId (contacts : List Contact) (actions : List CCAction)
    (contact : Contact) :
    (settleContact contacts actions contact).contactId = contact.contactId :=
  applyBodies_contactId _ _ _

theorem settleContact_emailAddress
    {contacts : List Contact} {actions : List CCAction}
    (contactIds : (contacts.map Contact.contactId).Nodup) {contact : Contact}
    (member : contact ∈ contacts) :
    (settleContact contacts actions contact).emailAddress = contact.emailAddress := by
  apply applyBodies_emailAddress
  intro body folded sameId
  obtain ⟨putBody, isPut, isId, isAddress, _⟩ := foldBodies_some folded
  have isRead := knownPut_some isPut
  have same : contact = readContact contacts contact :=
    List.inj_on_of_nodup_map contactIds member (readContact_mem member).2.1
      (sameId.trans (isId.trans isRead.1))
  rw [isAddress, isRead.2, ← same]

theorem settleContact_key
    {contacts : List Contact} {actions : List CCAction}
    (contactIds : (contacts.map Contact.contactId).Nodup) {contact : Contact}
    (member : contact ∈ contacts) :
    (settleContact contacts actions contact).key = contact.key := by
  rw [Contact.key, settleContact_emailAddress contactIds member, Contact.key]

theorem settleContact_untouched
    {contacts : List Contact} {actions : List CCAction} {contact : Contact}
    (untouched : groupOf actions contact.key = []) :
    settleContact contacts actions contact = contact := by
  rw [settleContact, untouched]
  rfl

/-! ## One group -/

/-- The contacts when the groups of some addresses are carried out. -/
structure Progress (data : ParishSoftData) (contacts : List Contact)
    (actions : List CCAction) (done : List Text) (state news : List Contact) : Prop where
  split : state = (contacts.map fun contact =>
    if contact.key ∈ done then settleContact contacts actions contact else contact) ++ news
  newKeys : news.map Contact.key = done.filter fun email => email ∉ contacts.map Contact.key
  created : ∀ contact ∈ news, CreatedFor data contacts actions contact

section

variable {data : ParishSoftData} {contacts : List Contact} {actions : List CCAction}
    {done : List Text} {state news : List Contact}

theorem Progress.new_key
    (progress : Progress data contacts actions done state news) {contact : Contact}
    (member : contact ∈ news) :
    contact.key ∈ done ∧ contact.key ∉ contacts.map Contact.key := by
  have isKey : contact.key ∈ news.map Contact.key := List.mem_map_of_mem member
  rw [progress.newKeys, List.mem_filter, decide_eq_true_eq] at isKey
  exact isKey

/-- A contact of the state is a loaded one, as it was or changed, or a new one. -/
theorem Progress.mem_state
    (contactIds : (contacts.map Contact.contactId).Nodup)
    (progress : Progress data contacts actions done state news) {contact : Contact}
    (member : contact ∈ state) :
    (∃ loaded ∈ contacts, contact.contactId = loaded.contactId ∧ contact.key = loaded.key) ∨
      contact ∈ news := by
  rw [progress.split, List.mem_append, List.mem_map] at member
  refine member.imp_left ?_
  rintro ⟨loaded, isLoaded, isContact⟩
  refine ⟨loaded, isLoaded, ?_⟩
  split at isContact
  · rw [← isContact]
    exact ⟨settleContact_contactId _ _ _, settleContact_key contactIds isLoaded⟩
  · rw [isContact]
    exact ⟨rfl, rfl⟩

theorem Progress.mem_keys
    (contactIds : (contacts.map Contact.contactId).Nodup)
    (progress : Progress data contacts actions done state news) {email : Text} :
    email ∈ state.map Contact.key ↔
      email ∈ contacts.map Contact.key ∨ email ∈ news.map Contact.key := by
  have loadedKeys : (contacts.map fun contact =>
      if contact.key ∈ done then settleContact contacts actions contact else contact).map
        Contact.key = contacts.map Contact.key := by
    rw [List.map_map]
    refine List.map_congr_left fun contact member => ?_
    rw [Function.comp_apply]
    split
    · exact settleContact_key contactIds member
    · rfl
  rw [progress.split, List.map_append, loadedKeys, List.mem_append]

theorem Progress.mem_ids
    (progress : Progress data contacts actions done state news) {contactId : Text}
    (isLoaded : contactId ∈ contacts.map Contact.contactId) :
    contactId ∈ state.map Contact.contactId := by
  obtain ⟨loaded, member, isId⟩ := List.mem_map.mp isLoaded
  rw [progress.split, List.map_append, List.map_map]
  refine List.mem_append_left _ (List.mem_map.mpr ⟨loaded, member, ?_⟩)
  rw [Function.comp_apply]
  split
  · rw [settleContact_contactId, isId]
  · exact isId

variable (service : ContactService)

/-- The group of an address that contacts have. -/
theorem Progress.known
    (contactIds : (contacts.map Contact.contactId).Nodup)
    (planned : Planned data contacts actions)
    (progress : Progress data contacts actions done state news) {email : Text}
    (pending : email ∉ done) (touched : email ∈ emailsOf actions)
    (known : email ∈ contacts.map Contact.key) :
    ∃ next, executeGroup service data contacts state (email, groupOf actions email) =
      some next ∧ Progress data contacts actions (done ++ [email]) next news := by
  obtain ⟨read, found⟩ := findRecord_isSome (mem_contactsByEmail_keys.mpr known)
  have isRead := findRecord_some found
  have readLoaded : read ∈ contacts := mem_of_mem_recordsByKey isRead.1
  have notNew := planned.no_create known
  have lowered := planned.lower_eq touched
  let post := knownPost email read (groupOf actions email)
  let put := foldBodies post (knownPut read (groupOf actions email))
  have isLoadedId : ∀ body, put = some body → ∀ contact ∈ state,
      contact.contactId = body.contactId → contact.key = email := by
    intro body isPut contact member sameId
    obtain ⟨putBody, isKnown, isId, _⟩ := foldBodies_some isPut
    rw [isId, (knownPut_some isKnown).1] at sameId
    cases progress.mem_state contactIds member with
    | inl loaded =>
        obtain ⟨loaded, isLoaded, loadedId, loadedKey⟩ := loaded
        have same : loaded = read := List.inj_on_of_nodup_map contactIds isLoaded readLoaded
          (loadedId.symm.trans sameId)
        rw [loadedKey, same, isRead.2]
    | inr isNew =>
        exact absurd (sameId ▸ List.mem_map_of_mem readLoaded)
          (progress.created contact isNew).fresh
  have posted : ∀ body, post = some body → Unicode.lower body.address = email := by
    intro body isPost
    rw [(knownPost_some isPost).1]
    exact lowered
  refine ⟨sendBodies service state post put, ?_, ?_⟩
  · rw [executeGroup, postBody_known found notNew, putBody_known found]
    rfl
  rw [sendBodies_known service ((progress.mem_keys contactIds).mpr (Or.inl known)) posted
    isLoadedId]
  refine ⟨?_, ?_, progress.created⟩
  · rw [progress.split, List.map_append, List.map_map]
    congr 1
    · refine List.map_congr_left fun contact member => ?_
      rw [Function.comp_apply]
      by_cases isDone : contact.key ∈ done
      · have other : contact.key ≠ email := fun same => pending (same ▸ isDone)
        rw [if_pos isDone, if_neg (by rwa [settleContact_key contactIds member]),
          if_pos (List.mem_append_left _ isDone)]
      · rw [if_neg isDone]
        by_cases isKey : contact.key = email
        · have readIs : readContact contacts contact = read := by
            rw [readContact, isKey, found]
            rfl
          rw [if_pos isKey, if_pos (by simp [isKey]), settleContact, readIs, isKey]
        · rw [if_neg isKey, if_neg (by simp [isDone, isKey])]
    · refine (List.map_congr_left fun contact member => ?_).trans (List.map_id _)
      exact if_neg fun isKey : contact.key = email => pending (isKey ▸ (progress.new_key member).1)
  · rw [List.filter_append, progress.newKeys, List.filter_cons_of_neg, List.filter_nil,
      List.append_nil]
    rw [decide_eq_true_eq]
    exact not_not_intro known

/-- The group of an address that no contact has. -/
theorem Progress.new
    (contactIds : (contacts.map Contact.contactId).Nodup)
    (planned : Planned data contacts actions)
    (progress : Progress data contacts actions done state news) {email : Text}
    (pending : email ∉ done) (touched : email ∈ emailsOf actions)
    (absent : email ∉ contacts.map Contact.key) :
    ∃ next created, executeGroup service data contacts state (email, groupOf actions email) =
      some next ∧ Progress data contacts actions (done ++ [email]) next (news ++ [created]) := by
  have lowered := planned.lower_eq touched
  obtain ⟨isNew, hasMembers⟩ := planned.create_of_absent touched absent
  obtain ⟨⟨first, last⟩, salutation⟩ := salutation_some hasMembers
  let body : PostBody :=
    ⟨Unicode.lower email, first, last, subscribedLists (groupOf actions email)⟩
  let created := createdContact service state (signUpFormBody body)
  have isKey : created.key = email := by
    change Unicode.lower (Unicode.lower email) = email
    rw [lowered, lowered]
  have absentNow : Unicode.lower body.address ∉ state.map Contact.key := by
    change Unicode.lower (Unicode.lower email) ∉ _
    rw [lowered, lowered, progress.mem_keys contactIds]
    rintro (isLoaded | isNews)
    · exact absent isLoaded
    · rw [progress.newKeys] at isNews
      exact pending (List.mem_of_mem_filter isNews)
  refine ⟨state ++ [created], created, ?_, ?_, ?_, ?_⟩
  · rw [executeGroup, postBody_new salutation isNew,
      putBody_new (planned.no_change absent (Or.inl rfl))
        (planned.no_change absent (Or.inr rfl))]
    exact congrArg some (sendBodies_new service absentNow)
  · rw [progress.split, List.append_assoc]
    congr 1
    refine List.map_congr_left fun contact member => ?_
    have other : contact.key ≠ email := fun same => absent (same ▸ List.mem_map_of_mem member)
    simp [other]
  · rw [List.map_append, List.filter_append, progress.newKeys, List.map_singleton, isKey,
      List.filter_cons_of_pos, List.filter_nil]
    exact decide_eq_true absent
  · intro contact member
    cases List.mem_append.mp member with
    | inl before => exact progress.created contact before
    | inr added =>
        rw [List.mem_singleton.mp added]
        refine ⟨?_, service.newPermission_allowed _, ⟨first, last, ?_, rfl, rfl⟩, ?_⟩
        · exact fun isLoaded => service.newContactId_fresh state (Unicode.lower email)
            (progress.mem_ids isLoaded)
        · rw [isKey]
          exact salutation
        · intro listId
          rw [isKey]
          change listId ∈ addLists [] _ ↔ _
          rw [mem_addLists]
          simp [body, signUpFormBody]

/-! ## All groups -/

theorem Progress.run
    (contactIds : (contacts.map Contact.contactId).Nodup)
    (planned : Planned data contacts actions)
    (progress : Progress data contacts actions done state news) {pending : List Text}
    (distinct : (done ++ pending).Nodup) (touched : ∀ email ∈ pending, email ∈ emailsOf actions) :
    ∃ after added,
      (pending.map fun email => (email, groupOf actions email)).foldlM
        (executeGroup service data contacts) state = some after ∧
      Progress data contacts actions (done ++ pending) after added := by
  induction pending generalizing done state news with
  | nil => exact ⟨state, news, rfl, by simpa using progress⟩
  | cons email rest inductionHypothesis =>
      have notDone : email ∉ done := fun isDone =>
        (List.disjoint_of_nodup_append distinct) isDone List.mem_cons_self
      have isTouched := touched email List.mem_cons_self
      have step : ∃ next added,
          executeGroup service data contacts state (email, groupOf actions email) = some next ∧
          Progress data contacts actions (done ++ [email]) next added := by
        by_cases known : email ∈ contacts.map Contact.key
        · obtain ⟨next, executed, isNext⟩ :=
            progress.known service contactIds planned notDone isTouched known
          exact ⟨next, news, executed, isNext⟩
        · obtain ⟨next, created, executed, isNext⟩ :=
            progress.new service contactIds planned notDone isTouched known
          exact ⟨next, _, executed, isNext⟩
      obtain ⟨next, added, executed, isNext⟩ := step
      have regrouped : done ++ email :: rest = done ++ [email] ++ rest := by simp
      rw [regrouped] at distinct ⊢
      rw [List.map_cons, List.foldlM_cons, executed]
      exact inductionHypothesis isNext distinct fun other member =>
        touched other (List.mem_cons_of_mem _ member)

/-- The contacts after a run, each settled, and the new ones after them. -/
theorem executeActions_planned
    (contactIds : (contacts.map Contact.contactId).Nodup)
    (planned : Planned data contacts actions) :
    ∃ news, executeActions service data contacts actions =
        some (contacts.map (settleContact contacts actions) ++ news) ∧
      (news.map Contact.key =
        (emailsOf actions).filter fun email => email ∉ contacts.map Contact.key) ∧
      ∀ contact ∈ news, CreatedFor data contacts actions contact := by
  have start : Progress data contacts actions [] contacts [] := ⟨by simp, rfl, by simp⟩
  obtain ⟨after, news, executed, progress⟩ :=
    start.run service contactIds planned (by simpa using emailsOf_nodup actions) fun _ => id
  rw [List.nil_append] at progress
  refine ⟨news, ?_, progress.newKeys, progress.created⟩
  rw [executeActions, groupActions_eq, executed, progress.split]
  congr 2
  refine List.map_congr_left fun contact _ => ?_
  split
  · rfl
  · next untouched => exact (settleContact_untouched (groupOf_eq_nil untouched)).symm

end

end ParishKit.ContactSync
