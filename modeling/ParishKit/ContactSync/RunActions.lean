import ParishKit.ContactSync.Settles

/-!
# The actions of a run

Which lists a run subscribes an address to and which it takes it off, and that its
actions are carried out to the end.
-/

namespace ParishKit.ContactSync

open ParishKit.Lib
open ParishKit.Responses (Unicode LawfulUnicode)

variable [Unicode]

/-! ## Accepted configurations -/

theorem duplicateTargetLists_nil
    {mappings : List CCSyncMapping} (accepted : duplicateTargetLists mappings = []) :
    (mappings.map fun mapping => Unicode.casefold mapping.targetList).Nodup := by
  suffices general : ∀ (seen duplicates : List Text),
      (mappings.foldl noteTargetList (seen, duplicates)).2 = [] →
      duplicates = [] ∧
        (mappings.map fun mapping => Unicode.casefold mapping.targetList).Nodup ∧
        ∀ mapping ∈ mappings, Unicode.casefold mapping.targetList ∉ seen from
    (general [] [] accepted).2.1
  clear accepted
  induction mappings with
  | nil => exact fun seen duplicates isNil => ⟨isNil, List.nodup_nil, by simp⟩
  | cons mapping rest inductionHypothesis =>
      intro seen duplicates isNil
      rw [List.foldl_cons, noteTargetList] at isNil
      obtain ⟨noneYet, distinct, unseen⟩ := inductionHypothesis _ _ isNil
      split at noneYet
      · exact absurd noneYet (by simp)
      · next isNew =>
          refine ⟨noneYet, ?_, ?_⟩
          · rw [List.map_cons, List.nodup_cons]
            refine ⟨fun repeated => ?_, distinct⟩
            obtain ⟨other, member, same⟩ := List.mem_map.mp repeated
            exact unseen other member (same ▸ List.mem_cons_self)
          · rw [List.forall_mem_cons]
            exact ⟨isNew, fun other member isSeen =>
              unseen other member (List.mem_cons_of_mem _ isSeen)⟩

theorem CCSyncConfig.targetLists_nodup (config : CCSyncConfig) :
    (config.mappings.map CCSyncMapping.targetList).Nodup := by
  have distinct : ((config.mappings.map CCSyncMapping.targetList).map Unicode.casefold).Nodup := by
    rw [List.map_map]
    exact duplicateTargetLists_nil config.accepted
  exact List.Nodup.of_map _ distinct

/-! ## The actions of one address -/

section

variable {config : CCSyncConfig} {data : ParishSoftData} {lists : List ContactList}
    {contacts : List Contact} {desired : List (List Text)}

/-- The actions of a run, the name updates last. -/
structure RunActions (config : CCSyncConfig) (data : ParishSoftData)
    (lists : List ContactList) (contacts : List Contact) (desired : List (List Text))
    (actions : List CCAction) : Prop where
  isDesired : desiredEmails config data lists contacts = some desired
  isActions : ∃ memberships updates,
    membershipActions config data lists contacts = some memberships ∧
    nameActions config data lists contacts = some updates ∧ actions = memberships ++ updates

/-- The mappings with their desired addresses. -/
abbrev mapped (config : CCSyncConfig) (desired : List (List Text)) :
    List (CCSyncMapping × List Text) :=
  config.mappings.zip desired

theorem RunActions.mem_iff {actions : List CCAction}
    (run : RunActions config data lists contacts desired actions) {action : CCAction} :
    action ∈ actions ↔
      action ∈ computeCreateActions desired contacts ∨
      (∃ indexed ∈ (mapped config desired).zipIdx,
        action ∈ listActions contacts indexed.1.1.targetList (targetId lists indexed.1.1)
          indexed.2 indexed.1.2) ∨
      ∃ updates, nameActions config data lists contacts = some updates ∧ action ∈ updates := by
  obtain ⟨memberships, updates, isMemberships, isUpdates, rfl⟩ := run.isActions
  rw [membershipActions_eq run.isDesired] at isMemberships
  cases isMemberships
  rw [List.mem_append, List.mem_append, ← List.flatMap_def, List.mem_flatMap, or_assoc,
    isUpdates]
  simp only [Option.some.injEq, exists_eq_left']

theorem mem_nameActions
    (isDesired : desiredEmails config data lists contacts = some desired)
    {updates : List CCAction} (isUpdates : nameActions config data lists contacts = some updates)
    {action : CCAction} (member : action ∈ updates) :
    action.type = .updateName ∧ action.email ∈ contacts.map Contact.key := by
  rw [nameActions_eq isDesired] at isUpdates
  cases isUpdates
  obtain ⟨_, contact, isContact, first, last, _, _, index, _, rfl⟩ :=
    mem_detectNameMismatches.mp member
  exact ⟨rfl, mem_contactsByEmail_keys.mp (List.mem_map_of_mem isContact)⟩

omit [Unicode] in
theorem mem_zipIdx_of_mem {Value : Type} {values : List Value} {value : Value}
    (member : value ∈ values) : ∃ index, (value, index) ∈ values.zipIdx := by
  obtain ⟨index, isValue⟩ := List.mem_iff_getElem?.mp member
  exact ⟨index, List.mem_zipIdx_iff_getElem?.mpr isValue⟩

variable {actions : List CCAction}

/-- Who is subscribed to a list. -/
theorem RunActions.mem_subscribedLists
    (run : RunActions config data lists contacts desired actions)
    {email listId : Text} (nonblank : listId ≠ []) :
    listId ∈ subscribedLists (groupOf actions email) ↔
      ∃ mapping ∈ mapped config desired, targetId lists mapping.1 = listId ∧
        email ∈ mapping.2 ∧ email ∉ listContacts contacts listId := by
  rw [subscribedLists, List.mem_filterMap]
  constructor
  · rintro ⟨action, member, isId⟩
    obtain ⟨isAction, isEmail, isSubscribe⟩ := mem_ofType.mp member
    have isList : action.listUuid = some listId := (Option.filter_eq_some_iff.mp isId).1
    rcases run.mem_iff.mp isAction with isCreate | ⟨⟨mapping, index⟩, isMapping, isOfList⟩ | isUpdate
    · obtain ⟨other, _, _, rfl⟩ := mem_computeCreateActions.mp isCreate
      cases isSubscribe
    · cases mem_listActions.mp isOfList with
      | inl subscribed =>
          obtain ⟨other, wanted, missing, rfl⟩ := subscribed
          cases isEmail
          cases isList
          exact ⟨mapping, List.fst_mem_of_mem_zipIdx isMapping, rfl, wanted, missing⟩
      | inr removed =>
          obtain ⟨other, _, _, rfl⟩ := removed
          cases isSubscribe
    · obtain ⟨updates, isUpdates, member⟩ := isUpdate
      rw [(mem_nameActions run.isDesired isUpdates member).1] at isSubscribe
      cases isSubscribe
  · rintro ⟨mapping, isMapping, isId, wanted, missing⟩
    subst isId
    obtain ⟨index, indexed⟩ := mem_zipIdx_of_mem isMapping
    refine ⟨subscribeAction mapping.1.targetList (targetId lists mapping.1) index email,
      mem_ofType.mpr ⟨?_, rfl, rfl⟩, Option.filter_eq_some_iff.mpr ⟨rfl, by simpa using nonblank⟩⟩
    exact run.mem_iff.mpr (Or.inr (Or.inl ⟨⟨mapping, index⟩, indexed,
      mem_listActions.mpr (Or.inl ⟨email, wanted, missing, rfl⟩)⟩))

/-- Who is taken off a list. -/
theorem RunActions.unsubscribed_iff
    (run : RunActions config data lists contacts desired actions) {email listId : Text} :
    (∃ action ∈ ofType .unsubscribe (groupOf actions email), action.listUuid = some listId) ↔
      ∃ mapping ∈ mapped config desired, targetId lists mapping.1 = listId ∧
        email ∈ listContacts contacts listId ∧ email ∉ mapping.2 := by
  constructor
  · rintro ⟨action, member, isList⟩
    obtain ⟨isAction, isEmail, isUnsubscribe⟩ := mem_ofType.mp member
    rcases run.mem_iff.mp isAction with isCreate | ⟨⟨mapping, index⟩, isMapping, isOfList⟩ | isUpdate
    · obtain ⟨other, _, _, rfl⟩ := mem_computeCreateActions.mp isCreate
      cases isUnsubscribe
    · cases mem_listActions.mp isOfList with
      | inl subscribed =>
          obtain ⟨other, _, _, rfl⟩ := subscribed
          cases isUnsubscribe
      | inr removed =>
          obtain ⟨other, listed, unwanted, rfl⟩ := removed
          cases isEmail
          cases isList
          exact ⟨mapping, List.fst_mem_of_mem_zipIdx isMapping, rfl, listed, unwanted⟩
    · obtain ⟨updates, isUpdates, member⟩ := isUpdate
      rw [(mem_nameActions run.isDesired isUpdates member).1] at isUnsubscribe
      cases isUnsubscribe
  · rintro ⟨mapping, isMapping, isId, listed, unwanted⟩
    subst isId
    obtain ⟨index, indexed⟩ := mem_zipIdx_of_mem isMapping
    refine ⟨unsubscribeAction mapping.1.targetList (targetId lists mapping.1) index email,
      mem_ofType.mpr ⟨?_, rfl, rfl⟩, rfl⟩
    exact run.mem_iff.mpr (Or.inr (Or.inl ⟨⟨mapping, index⟩, indexed,
      mem_listActions.mpr (Or.inr ⟨email, listed, unwanted, rfl⟩)⟩))

/-- A desired address without a contact is created. -/
theorem RunActions.created
    (run : RunActions config data lists contacts desired actions)
    {emails : List Text} (isMapping : emails ∈ desired) {email : Text} (wanted : email ∈ emails)
    (absent : email ∉ contacts.map Contact.key) :
    ∃ create ∈ actions, create.email = email ∧ create.type = .create :=
  ⟨createAction desired email, run.mem_iff.mpr (Or.inl (mem_computeCreateActions.mpr
    ⟨email, ⟨emails, isMapping, wanted⟩, absent, rfl⟩)), rfl, rfl⟩

theorem resolved_lowered [LawfulUnicode]
    (isDesired : desiredEmails config data lists contacts = some desired)
    {emails : List Text} (isMapping : emails ∈ desired) {email : Text} (wanted : email ∈ emails) :
    membersByEmail data email ≠ [] ∧ Unicode.lower email = email := by
  obtain ⟨mapping, _, resolved⟩ :=
    exists_input_of_forall₂ (desired_mappings isDesired) isMapping
  have hasMembers := resolved.members email wanted
  obtain ⟨member, isMember⟩ := List.exists_mem_of_ne_nil _ hasMembers
  exact ⟨hasMembers, PsMember.emails_lowered (mem_membersByEmail.mp isMember).2⟩

theorem key_lowered [LawfulUnicode] {email : Text}
    (isKey : email ∈ contacts.map Contact.key) : Unicode.lower email = email := by
  obtain ⟨contact, _, rfl⟩ := List.mem_map.mp isKey
  exact LawfulUnicode.lower_lower _

theorem listContacts_key {email listId : Text} (listed : email ∈ listContacts contacts listId) :
    email ∈ contacts.map Contact.key := by
  obtain ⟨contact, member, isKey, _⟩ := mem_listContacts.mp listed
  exact List.mem_map.mpr ⟨contact, member, isKey⟩

theorem RunActions.planned [LawfulUnicode]
    (run : RunActions config data lists contacts desired actions) :
    Planned data contacts actions := by
  have each : ∀ action ∈ actions,
      (action.type = .create ∧ (∃ emails ∈ desired, action.email ∈ emails) ∧
        action.email ∉ contacts.map Contact.key) ∨
      (action.type = .subscribe ∧ ∃ emails ∈ desired, action.email ∈ emails) ∨
      ((action.type = .unsubscribe ∨ action.type = .updateName) ∧
        action.email ∈ contacts.map Contact.key) := by
    intro action isAction
    rcases run.mem_iff.mp isAction with isCreate | ⟨⟨mapping, index⟩, isMapping, isOfList⟩ | isUpdate
    · obtain ⟨email, wanted, absent, rfl⟩ := mem_computeCreateActions.mp isCreate
      exact Or.inl ⟨rfl, wanted, absent⟩
    · cases mem_listActions.mp isOfList with
      | inl subscribed =>
          obtain ⟨email, wanted, _, rfl⟩ := subscribed
          exact Or.inr (Or.inl ⟨rfl, mapping.2,
            (List.of_mem_zip (List.fst_mem_of_mem_zipIdx isMapping)).2, wanted⟩)
      | inr removed =>
          obtain ⟨email, listed, _, rfl⟩ := removed
          exact Or.inr (Or.inr ⟨Or.inl rfl, listContacts_key listed⟩)
    · obtain ⟨updates, isUpdates, member⟩ := isUpdate
      have named := mem_nameActions run.isDesired isUpdates member
      exact Or.inr (Or.inr ⟨Or.inr named.1, named.2⟩)
  constructor
  · intro action isAction
    rcases each action isAction with ⟨_, ⟨emails, isMapping, wanted⟩, _⟩ |
      ⟨_, emails, isMapping, wanted⟩ | ⟨_, isKey⟩
    · exact (resolved_lowered run.isDesired isMapping wanted).2
    · exact (resolved_lowered run.isDesired isMapping wanted).2
    · exact key_lowered isKey
  · intro action isAction isCreate
    rcases each action isAction with ⟨_, ⟨emails, isMapping, wanted⟩, absent⟩ |
      ⟨isSubscribe, _⟩ | ⟨isChange, _⟩
    · exact ⟨absent, (resolved_lowered run.isDesired isMapping wanted).1⟩
    · rw [isSubscribe] at isCreate
      cases isCreate
    · rw [isCreate] at isChange
      simp at isChange
  · intro action isAction absent
    rcases each action isAction with ⟨_, ⟨emails, isMapping, wanted⟩, _⟩ |
      ⟨_, emails, isMapping, wanted⟩ | ⟨_, isKey⟩
    · exact run.created isMapping wanted absent
    · exact run.created isMapping wanted absent
    · exact absurd isKey absent
  · intro action isAction isChange
    rcases each action isAction with ⟨isCreate, _⟩ | ⟨isSubscribe, _⟩ | ⟨_, isKey⟩
    · rw [isCreate] at isChange
      simp at isChange
    · rw [isSubscribe] at isChange
      simp at isChange
    · exact isKey

end

end ParishKit.ContactSync
