import ParishKit.ContactSync.Planned

/-!
# What a run leaves

The actions grouped by address, the two bodies of one address as one change of its
contact, and the contacts after every group.
-/

namespace ParishKit.ContactSync

open ParishKit.Lib
open ParishKit.Responses (Unicode LawfulUnicode)

/-! ## Groups -/

def groupOf (actions : List CCAction) (email : Text) : List CCAction :=
  actions.filter fun action => action.email = email

/-- The addresses of actions, in order of first appearance. -/
def emailsOf (actions : List CCAction) : List Text :=
  (recordsByKey CCAction.email actions).map CCAction.email

theorem appendAction_map
    {emails : List Text} (distinct : emails.Nodup) (groups : Text → List CCAction)
    (action : CCAction) (empty : action.email ∉ emails → groups action.email = []) :
    appendAction (emails.map fun email => (email, groups email)) action =
      (if action.email ∈ emails then emails else emails ++ [action.email]).map fun email =>
        (email, if email = action.email then groups email ++ [action] else groups email) := by
  induction emails with
  | nil => simp [appendAction, empty]
  | cons head rest inductionHypothesis =>
      rw [List.nodup_cons] at distinct
      by_cases same : head = action.email
      · have others : ∀ email ∈ rest, email ≠ action.email := fun email member isEmail =>
          distinct.1 (same ▸ isEmail ▸ member)
        rw [List.map_cons, appendAction, if_pos same, if_pos (same ▸ List.mem_cons_self),
          List.map_cons, if_pos same]
        refine congrArg _ (List.map_congr_left fun email member => ?_)
        rw [if_neg (others email member)]
      · have later : action.email ∉ rest → groups action.email = [] := fun absent =>
          empty fun member => absent ((List.mem_cons.mp member).resolve_left (Ne.symm same))
        rw [List.map_cons, appendAction, if_neg same, inductionHypothesis distinct.2 later]
        simp only [List.mem_cons, Ne.symm same, false_or]
        split <;> simp [same]

theorem groupOf_concat (actions : List CCAction) (action : CCAction) (email : Text) :
    groupOf (actions ++ [action]) email =
      if email = action.email then groupOf actions email ++ [action]
      else groupOf actions email := by
  by_cases same : action.email = email
  · simp [groupOf, same]
  · simp [groupOf, same, Ne.symm same]

theorem groupOf_eq_nil {actions : List CCAction} {email : Text}
    (absent : email ∉ emailsOf actions) : groupOf actions email = [] := by
  rw [emailsOf, mem_keys_recordsByKey] at absent
  rw [groupOf, List.filter_eq_nil_iff]
  intro action member isEmail
  exact absent (List.mem_map.mpr ⟨action, member, of_decide_eq_true isEmail⟩)

theorem mem_emailsOf {actions : List CCAction} {email : Text} :
    email ∈ emailsOf actions ↔ ∃ action ∈ actions, action.email = email := by
  rw [emailsOf, mem_keys_recordsByKey, List.mem_map]

theorem emailsOf_nodup (actions : List CCAction) : (emailsOf actions).Nodup :=
  recordsByKey_nodup _ _

theorem groupActions_eq (actions : List CCAction) :
    groupActions actions =
      (emailsOf actions).map fun email => (email, groupOf actions email) := by
  induction actions using List.reverseRecOn with
  | nil => rfl
  | append_singleton actions action inductionHypothesis =>
      rw [groupActions, List.foldl_append, List.foldl_cons, List.foldl_nil, ← groupActions,
        inductionHypothesis, appendAction_map (emailsOf_nodup actions) _ _ groupOf_eq_nil]
      have emails : emailsOf (actions ++ [action]) =
          if action.email ∈ emailsOf actions then emailsOf actions
          else emailsOf actions ++ [action.email] := by
        rw [emailsOf, recordsByKey_concat, keys_putRecord]
        by_cases present : action.email ∈ emailsOf actions
        · rw [if_pos present]
          exact if_pos present
        · rw [if_neg present]
          exact if_neg present
      rw [emails]
      refine List.map_congr_left fun email _ => ?_
      rw [groupOf_concat]

theorem mem_ofType {type : ActionType} {actions : List CCAction} {email : Text}
    {action : CCAction} :
    action ∈ ofType type (groupOf actions email) ↔
      action ∈ actions ∧ action.email = email ∧ action.type = type := by
  simp only [ofType, groupOf, List.mem_filter, decide_eq_true_eq, and_assoc]

/-! ## Lists -/

theorem mem_addLists {listIds added : List Text} {listId : Text} :
    listId ∈ addLists listIds added ↔ listId ∈ listIds ∨ listId ∈ added := by
  induction added generalizing listIds with
  | nil => simp [addLists]
  | cons head rest inductionHypothesis =>
      rw [addLists, List.foldl_cons, ← addLists, inductionHypothesis, List.mem_cons]
      split
      · next present =>
          constructor
          · exact Or.imp_right Or.inr
          · intro either
            cases either with
            | inl before => exact Or.inl before
            | inr added =>
                cases added with
                | inl isHead => exact Or.inl (isHead ▸ present)
                | inr later => exact Or.inr later
      · rw [List.mem_append, List.mem_singleton, or_assoc]

theorem mem_of_mem_removeLists {removals : List CCAction} {listIds : List Text} {listId : Text}
    (member : listId ∈ removals.foldl removeList listIds) : listId ∈ listIds := by
  induction removals generalizing listIds with
  | nil => exact member
  | cons head rest inductionHypothesis =>
      have kept := inductionHypothesis member
      rw [removeList] at kept
      split at kept
      · exact kept
      · exact List.mem_of_mem_erase kept

/-- Lists that stand once are gone when they are removed. -/
theorem mem_removeLists {removals : List CCAction} {listIds : List Text} {listId : Text}
    (distinct : listIds.Nodup) :
    listId ∈ removals.foldl removeList listIds ↔
      listId ∈ listIds ∧ ∀ action ∈ removals, action.listUuid ≠ some listId := by
  induction removals generalizing listIds with
  | nil => simp
  | cons head rest inductionHypothesis =>
      rw [List.foldl_cons]
      cases isList : head.listUuid with
      | none =>
          rw [removeList, isList, inductionHypothesis distinct]
          simp [isList]
      | some listUuid =>
          rw [removeList, isList, inductionHypothesis (distinct.erase _), distinct.mem_erase_iff]
          simp only [List.forall_mem_cons, isList, ne_eq, Option.some.injEq, eq_comm]
          tauto

/-! ## Bodies -/

/-- The lists that a sign-up of the actions names. -/
def subscribedLists (actions : List CCAction) : List Text :=
  (ofType .subscribe actions).filterMap fun action =>
    action.listUuid.filter fun listUuid => listUuid ≠ []

/-- The POST body of a contact that is there. -/
def knownPost (email : Text) (read : Contact) (actions : List CCAction) : Option PostBody :=
  if ofType .subscribe actions = [] then none
  else some ⟨email, read.first, read.last, subscribedLists actions⟩

/-- The PUT body of a contact that is there. -/
def knownPut (read : Contact) (actions : List CCAction) : Option PutBody :=
  if ofType .unsubscribe actions = [] ∧ ofType .updateName actions = [] then none
  else some {
    contactId := read.contactId
    emailAddress := read.emailAddress
    firstName := orText ((ofType .updateName actions).getLast?.bind CCAction.newFirst) read.first
    lastName := orText ((ofType .updateName actions).getLast?.bind CCAction.newLast) read.last
    listMemberships := (ofType .unsubscribe actions).foldl removeList read.listMemberships }

theorem knownPost_some
    {email : Text} {read : Contact} {group : List CCAction} {form : PostBody}
    (isPost : knownPost email read group = some form) :
    form.address = email ∧ form.firstName = read.first ∧ form.lastName = read.last ∧
      form.listMemberships = subscribedLists group := by
  rw [knownPost] at isPost
  split at isPost <;> cases isPost
  exact ⟨rfl, rfl, rfl, rfl⟩

theorem knownPost_none {email : Text} {read : Contact} {group : List CCAction}
    (isNone : knownPost email read group = none) : subscribedLists group = [] := by
  rw [knownPost] at isNone
  split at isNone
  · next noSubscribe =>
      rw [subscribedLists, noSubscribe]
      rfl
  · cases isNone

theorem knownPut_some {read : Contact} {group : List CCAction} {body : PutBody}
    (isPut : knownPut read group = some body) :
    body.contactId = read.contactId ∧ body.emailAddress = read.emailAddress := by
  rw [knownPut] at isPut
  split at isPut <;> cases isPut
  exact ⟨rfl, rfl⟩

theorem knownPut_lists {read : Contact} {group : List CCAction} {body : PutBody}
    (isPut : knownPut read group = some body) :
    body.listMemberships =
      (ofType .unsubscribe group).foldl removeList read.listMemberships := by
  rw [knownPut] at isPut
  split at isPut <;> cases isPut
  rfl

theorem knownPut_none {read : Contact} {group : List CCAction}
    (isNone : knownPut read group = none) :
    ofType .unsubscribe group = [] ∧ ofType .updateName group = [] := by
  rw [knownPut] at isNone
  split at isNone
  · next nothing => exact nothing
  · cases isNone

theorem foldBodies_isSome (post : Option PostBody) (body : PutBody) :
    ∃ sending, foldBodies post (some body) = some sending := by
  cases post with
  | none => exact ⟨_, rfl⟩
  | some form => exact ⟨_, rfl⟩

/-- Folding changes the lists of a PUT body only. -/
theorem foldBodies_some {post : Option PostBody} {put : Option PutBody} {body : PutBody}
    (folded : foldBodies post put = some body) :
    ∃ putBody, put = some putBody ∧ body.contactId = putBody.contactId ∧
      body.emailAddress = putBody.emailAddress ∧ body.firstName = putBody.firstName ∧
      body.lastName = putBody.lastName := by
  cases put with
  | none => cases post <;> cases folded
  | some putBody =>
      cases post with
      | none =>
          cases folded
          exact ⟨_, rfl, rfl, rfl, rfl, rfl⟩
      | some form =>
          cases folded
          exact ⟨_, rfl, rfl, rfl, rfl, rfl⟩

theorem mem_foldBodies {post : Option PostBody} {put : Option PutBody} {body : PutBody}
    (folded : foldBodies post put = some body) {listId : Text} :
    listId ∈ body.listMemberships ↔
      (∃ putBody, put = some putBody ∧ listId ∈ putBody.listMemberships) ∨
        ∃ form, post = some form ∧ listId ∈ form.listMemberships := by
  cases put with
  | none => cases post <;> cases folded
  | some putBody =>
      cases post with
      | none =>
          cases folded
          simp
      | some form =>
          cases folded
          simp [mem_addLists]

/-- What the two bodies make of a contact of their address. -/
def applyBodies (post : Option PostBody) (put : Option PutBody) (contact : Contact) : Contact :=
  let signed :=
    match post with
    | none => contact
    | some body => contact.signedUp (signUpFormBody body)
  match put with
  | none => signed
  | some body =>
      if contact.contactId = body.contactId then signed.updated (updateContactBody body)
      else signed

theorem applyBodies_contactId (post : Option PostBody) (put : Option PutBody)
    (contact : Contact) : (applyBodies post put contact).contactId = contact.contactId := by
  cases post with
  | none =>
      cases put with
      | none => rfl
      | some body =>
          rw [applyBodies]
          split <;> rfl
  | some form =>
      cases put with
      | none => rfl
      | some body =>
          rw [applyBodies]
          split <;> rfl

/-- A contact that is updated holds what the PUT sends. -/
theorem applyBodies_updated
    (post : Option PostBody) {body : PutBody} {contact : Contact}
    (isContact : contact.contactId = body.contactId) :
    (applyBodies post (some body) contact).first = removePeriods body.firstName ∧
      (applyBodies post (some body) contact).last = body.lastName ∧
      (applyBodies post (some body) contact).listMemberships = body.listMemberships := by
  rw [applyBodies.eq_def]
  dsimp only
  rw [if_pos isContact]
  exact ⟨rfl, rfl, rfl⟩

theorem applyBodies_emailAddress {post : Option PostBody} {put : Option PutBody}
    {contact : Contact}
    (same : ∀ body, put = some body → contact.contactId = body.contactId →
      body.emailAddress = contact.emailAddress) :
    (applyBodies post put contact).emailAddress = contact.emailAddress := by
  cases put with
  | none => cases post <;> rfl
  | some body =>
      rw [applyBodies.eq_def]
      dsimp only
      split
      · next isContact => exact same body rfl isContact
      · cases post <;> rfl

variable [Unicode]

theorem postBody_known
    {data : ParishSoftData} {contacts : List Contact} {email : Text} {read : Contact}
    {actions : List CCAction}
    (found : findRecord Contact.key (contactsByEmail contacts) email = some read)
    (notNew : ofType .create actions = []) :
    postBodyForActions data contacts email actions = some (knownPost email read actions) := by
  rw [postBodyForActions, knownPost]
  simp only [notNew, true_and, found, if_true]
  split <;> rfl

theorem putBody_known
    {contacts : List Contact} {email : Text} {read : Contact} {actions : List CCAction}
    (found : findRecord Contact.key (contactsByEmail contacts) email = some read) :
    putBodyForActions contacts email actions = some (knownPut read actions) := by
  rw [putBodyForActions, knownPut]
  simp only [found]
  split <;> rfl

theorem postBody_new
    {data : ParishSoftData} {contacts : List Contact} {email first last : Text}
    {actions : List CCAction}
    (salutation : salutationForMembers (membersByEmail data email) = some (first, last))
    (isNew : ofType .create actions ≠ []) :
    postBodyForActions data contacts email actions =
      some (some ⟨Unicode.lower email, first, last, subscribedLists actions⟩) := by
  rw [postBodyForActions]
  simp only [isNew, false_and, if_false, createContactDict, salutation]
  rfl

theorem putBody_new
    {contacts : List Contact} {email : Text} {actions : List CCAction}
    (noUnsubscribes : ofType .unsubscribe actions = [])
    (noUpdates : ofType .updateName actions = []) :
    putBodyForActions contacts email actions = some none := by
  rw [putBodyForActions]
  exact if_pos ⟨noUnsubscribes, noUpdates⟩

/-! ## One address -/

variable (service : ContactService)

/-- The bodies of an address that is there change its contacts and no other. -/
theorem sendBodies_known
    {contacts : List Contact} {email : Text} {post : Option PostBody} {put : Option PutBody}
    (present : email ∈ contacts.map Contact.key)
    (posted : ∀ body, post = some body → Unicode.lower body.address = email)
    (updated : ∀ body, put = some body → ∀ contact ∈ contacts,
      contact.contactId = body.contactId → contact.key = email) :
    sendBodies service contacts post put =
      contacts.map fun contact =>
        if contact.key = email then applyBodies post put contact else contact := by
  have signed : ∀ body, post = some body → signUp service contacts (signUpFormBody body) =
      contacts.map fun contact =>
        if contact.key = email then contact.signedUp (signUpFormBody body) else contact := by
    intro body isBody
    have isEmail : Unicode.lower (signUpFormBody body).emailAddress = email :=
      posted body isBody
    rw [signUp, isEmail, if_pos present]
  cases put with
  | none =>
      cases post with
      | none => simp [sendBodies, applyBodies]
      | some form =>
          rw [sendBodies, signed form rfl]
          rfl
  | some body =>
      cases post with
      | none =>
          rw [sendBodies, updateContact]
          refine List.map_congr_left fun contact member => ?_
          rw [applyBodies]
          by_cases isId : contact.contactId = body.contactId
          · rw [if_pos isId, if_pos (updated body rfl contact member isId)]
          · rw [if_neg isId, ite_self]
      | some form =>
          rw [sendBodies, signed form rfl, updateContact, List.map_map]
          refine List.map_congr_left fun contact member => ?_
          rw [Function.comp_apply, applyBodies]
          by_cases isKey : contact.key = email
          · rw [if_pos isKey, if_pos isKey]
            rfl
          · rw [if_neg isKey, if_neg isKey,
              if_neg fun isId => isKey (updated body rfl contact member isId)]

/-- The bodies of an address that is not there create a contact. -/
theorem sendBodies_new
    {contacts : List Contact} {body : PostBody}
    (absent : Unicode.lower body.address ∉ contacts.map Contact.key) :
    sendBodies service contacts (some body) none =
      contacts ++ [createdContact service contacts (signUpFormBody body)] := by
  rw [sendBodies, signUp]
  exact if_neg absent

end ParishKit.ContactSync
