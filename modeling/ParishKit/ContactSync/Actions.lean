import ParishKit.ContactSync.Desired

/-!
# The actions of a Constant Contact sync

What is created, subscribed, unsubscribed and renamed, the bodies that are sent for
one contact, and what Constant Contact does with them.
-/

namespace ParishKit.ContactSync

open ParishKit.Lib
open ParishKit.Responses (Unicode LawfulUnicode inOrder)

/-! ## Actions -/

inductive ActionType where
  | create
  | subscribe
  | unsubscribe
  | updateName
deriving DecidableEq

structure CCAction where
  type : ActionType
  email : Text
  syncIndex : Nat
  detail : Text
  listName : Option Text := none
  listUuid : Option Text := none
  newFirst : Option Text := none
  newLast : Option Text := none
deriving DecidableEq

/-- `first or second`. -/
def orText (first : Option Text) (second : Text) : Text :=
  match first with
  | none => second
  | some text => if text = [] then second else text

/-- `text.replace(".", "")`. -/
def removePeriods (text : Text) : Text :=
  text.filter (· ≠ '.')

/-! ## Salutations -/

def PsMember.preferredFirst (member : PsMember) : Text :=
  orText member.nickName member.firstName

def PsMember.fullName (member : PsMember) : Text :=
  member.preferredFirst ++ ' ' :: member.lastName

/-- The names before the last one, and the last one after `", and "`. -/
def commaAnd (names : List Text) (final : Text) : Text :=
  List.intercalate ", ".toList names ++ ", and ".toList ++ final

/-- `salutation_for_members`; no Members are refused. -/
def salutationForMembers (members : List PsMember) : Option (Text × Text) :=
  match members with
  | [] => none
  | [member] => some (member.preferredFirst, member.lastName)
  | first :: second :: rest =>
      let final := (second :: rest).getLastD first
      let others := (first :: second :: rest).dropLast
      if (first :: second :: rest).all fun member => member.lastName = first.lastName then
        if rest = [] then
          some (first.preferredFirst ++ " and ".toList ++ second.preferredFirst, first.lastName)
        else
          some (commaAnd (others.map PsMember.preferredFirst) final.preferredFirst, first.lastName)
      else if rest = [] then
        some (first.fullName ++ " and ".toList ++ second.preferredFirst, second.lastName)
      else
        some (commaAnd (others.map PsMember.fullName) final.preferredFirst, final.lastName)

/-! ## Computing -/

variable [Unicode]

def createAction (desired : List (List Text)) (email : Text) : CCAction where
  type := .create
  email := email
  syncIndex := desired.findIdx fun emails => email ∈ emails
  detail := "Create contact for ".toList ++ email

/-- The desired addresses that no contact has. -/
def computeCreateActions (desired : List (List Text)) (contacts : List Contact) :
    List CCAction :=
  (inOrder (desired.flatten.dedup.filter fun email =>
    email ∉ (contactsByEmail contacts).map Contact.key)).map (createAction desired)

omit [Unicode] in
def subscribeAction (targetList listUuid : Text) (index : Nat) (email : Text) : CCAction where
  type := .subscribe
  email := email
  syncIndex := index
  detail := "Subscribe ".toList ++ email ++ " to ".toList ++ targetList
  listName := some targetList
  listUuid := some listUuid

omit [Unicode] in
def unsubscribeAction (targetList listUuid : Text) (index : Nat) (email : Text) : CCAction where
  type := .unsubscribe
  email := email
  syncIndex := index
  detail := "Unsubscribe ".toList ++ email ++ " from ".toList ++ targetList
  listName := some targetList
  listUuid := some listUuid

/-- One mapping of the loop: what its list lacks, and what it has too much. -/
def listActions (contacts : List Contact) (targetList listUuid : Text) (index : Nat)
    (emails : List Text) : List CCAction :=
  let current := listContacts contacts listUuid
  (inOrder (emails.filter fun email => email ∉ current)).map
      (subscribeAction targetList listUuid index) ++
    (inOrder (current.filter fun email => email ∉ emails)).map
      (unsubscribeAction targetList listUuid index)

def computeSubscribeUnsubscribeActions (mappings : List CCSyncMapping)
    (desired : List (List Text)) (lists : List ContactList) (contacts : List Contact) :
    Option (List CCAction) := do
  let actions ← (mappings.zip desired).zipIdx.mapM fun mapping => do
    let ccList ← listByName lists mapping.1.1.targetList
    pure (listActions contacts mapping.1.1.targetList ccList.listId mapping.2 mapping.1.2)
  pure actions.flatten

def computeAllActions (mappings : List CCSyncMapping) (desired : List (List Text))
    (lists : List ContactList) (contacts : List Contact) : Option (List CCAction) := do
  let actions ← computeSubscribeUnsubscribeActions mappings desired lists contacts
  pure (computeCreateActions desired contacts ++ actions)

/-- The mappings that an address is eligible by; the addresses with none are no keys. -/
def nameUpdateCandidateSyncIndices (mappings : List CCSyncMapping)
    (desired : List (List Text)) (lists : List ContactList) (contacts : List Contact) :
    Option (Text → List Nat) := do
  let scopes ← (mappings.zip desired).mapM fun mapping => do
    let ccList ← listByName lists mapping.1.targetList
    pure (mapping.2 ++ listContacts contacts ccList.listId)
  pure fun email =>
    (scopes.zipIdx.filter fun emails => email ∈ emails.1).map Prod.snd

omit [Unicode] in
def updateNameAction (email first last : Text) (index : Nat) : CCAction where
  type := .updateName
  email := email
  syncIndex := index
  detail := "Update name for ".toList ++ email
  newFirst := some first
  newLast := some last

/-- One contact of the loop; a contact of no Members has no salutation. -/
def contactMismatches (data : ParishSoftData) (candidates : Text → List Nat)
    (contact : Contact) : List CCAction :=
  match salutationForMembers (membersByEmail data contact.key) with
  | none => []
  | some (first, last) =>
      if removePeriods first = contact.first ∧ last = contact.last then []
      else
        (candidates contact.key).map
          (updateNameAction contact.key (removePeriods first) last)

/-- `detect_name_mismatches` of the candidates by their sync indices. -/
def detectNameMismatches (data : ParishSoftData) (contacts : List Contact)
    (updateNames : Bool) (candidates : Text → List Nat) : List CCAction :=
  if updateNames then
    (contactsByEmail contacts).flatMap (contactMismatches data candidates)
  else []

/-! ## Bodies -/

structure PostBody where
  /-- The address in `"email_address"`. -/
  address : Text
  firstName : Text
  lastName : Text
  listMemberships : List Text

structure PutBody where
  contactId : Text
  emailAddress : EmailAddress
  firstName : Text
  lastName : Text
  listMemberships : List Text

def createContactDict (email : Text) (members : List PsMember) : Option PostBody := do
  let (first, last) ← salutationForMembers members
  pure ⟨Unicode.lower email, first, last, []⟩

omit [Unicode] in
def ofType (type : ActionType) (actions : List CCAction) : List CCAction :=
  actions.filter fun action => action.type = type

/-- An address that no Member and no contact has is refused. -/
def postBodyForActions (data : ParishSoftData) (contacts : List Contact) (email : Text)
    (actions : List CCAction) : Option (Option PostBody) :=
  let creates := ofType .create actions
  let subscribes := ofType .subscribe actions
  if creates = [] ∧ subscribes = [] then some none
  else do
    let body ←
      if creates = [] then do
        let contact ← findRecord Contact.key (contactsByEmail contacts) email
        pure ⟨email, contact.first, contact.last, []⟩
      else createContactDict email (membersByEmail data email)
    pure (some { body with
      listMemberships := subscribes.filterMap fun action =>
        action.listUuid.filter fun listUuid => listUuid ≠ [] })

omit [Unicode] in
/-- `body["list_memberships"].remove(action.list_uuid)`, when it is there. -/
def removeList (listIds : List Text) (action : CCAction) : List Text :=
  match action.listUuid with
  | none => listIds
  | some listUuid => listIds.erase listUuid

def putBodyForActions (contacts : List Contact) (email : Text) (actions : List CCAction) :
    Option (Option PutBody) :=
  let unsubscribes := ofType .unsubscribe actions
  let nameUpdates := ofType .updateName actions
  if unsubscribes = [] ∧ nameUpdates = [] then some none
  else do
    let contact ← findRecord Contact.key (contactsByEmail contacts) email
    let update := nameUpdates.getLast?
    pure (some {
      contactId := contact.contactId
      emailAddress := contact.emailAddress
      firstName := orText (update.bind CCAction.newFirst) contact.first
      lastName := orText (update.bind CCAction.newLast) contact.last
      listMemberships := unsubscribes.foldl removeList contact.listMemberships })

omit [Unicode] in
/-- Appends each id that is not there yet. -/
def addLists (listIds added : List Text) : List Text :=
  added.foldl
    (fun listIds listId => if listId ∈ listIds then listIds else listIds ++ [listId]) listIds

omit [Unicode] in
/-- The PUT body with the lists that the POST subscribes folded in. -/
def foldBodies (post : Option PostBody) (put : Option PutBody) : Option PutBody :=
  match post, put with
  | some postBody, some putBody =>
      some { putBody with
        listMemberships := addLists putBody.listMemberships postBody.listMemberships }
  | _, _ => put

/-- The payload of `contacts/sign_up_form`. -/
structure SignUpForm where
  emailAddress : Text
  firstName : Text
  lastName : Text
  listMemberships : List Text

/-- The payload of `contacts/{contact_id}`. -/
structure ContactUpdate where
  updateSource : Text
  firstName : Text
  lastName : Text
  emailAddress : EmailAddress
  listMemberships : List Text

omit [Unicode] in
def signUpFormBody (body : PostBody) : SignUpForm where
  emailAddress := body.address
  firstName := removePeriods body.firstName
  lastName := body.lastName
  listMemberships := body.listMemberships

omit [Unicode] in
def updateContactBody (body : PutBody) : ContactUpdate where
  updateSource := "Contact".toList
  firstName := removePeriods body.firstName
  lastName := body.lastName
  emailAddress := body.emailAddress
  listMemberships := body.listMemberships

/-! ## Constant Contact -/

/-- Constant Contact gives each contact it creates an id of its own, and a permission. -/
structure ContactService where
  newContactId : List Contact → Text → Text
  newContactId_fresh : ∀ contacts address,
    newContactId contacts address ∉ contacts.map Contact.contactId
  newPermission : Text → Option Text
  newPermission_allowed : ∀ address, newPermission address ≠ some unsubscribedPermission

variable (service : ContactService)

omit [Unicode] in
def Contact.signedUp (contact : Contact) (form : SignUpForm) : Contact :=
  { contact with
    firstName := some form.firstName
    lastName := some form.lastName
    listMemberships := addLists contact.listMemberships form.listMemberships }

omit [Unicode] in
def createdContact (contacts : List Contact) (form : SignUpForm) : Contact where
  contactId := service.newContactId contacts form.emailAddress
  emailAddress := ⟨form.emailAddress, service.newPermission form.emailAddress⟩
  firstName := some form.firstName
  lastName := some form.lastName
  listMemberships := addLists [] form.listMemberships

/-- Signs up the contact of the address ignoring case, or creates it. -/
def signUp (contacts : List Contact) (form : SignUpForm) : List Contact :=
  if Unicode.lower form.emailAddress ∈ contacts.map Contact.key then
    contacts.map fun contact =>
      if contact.key = Unicode.lower form.emailAddress then contact.signedUp form else contact
  else contacts ++ [createdContact service contacts form]

omit [Unicode] in
def Contact.updated (contact : Contact) (update : ContactUpdate) : Contact :=
  { contact with
    emailAddress := update.emailAddress
    firstName := some update.firstName
    lastName := some update.lastName
    listMemberships := update.listMemberships }

omit [Unicode] in
def updateContact (contacts : List Contact) (contactId : Text) (update : ContactUpdate) :
    List Contact :=
  contacts.map fun contact =>
    if contact.contactId = contactId then contact.updated update else contact

/-! ## Executing -/

omit [Unicode] in
/-- `grouped[action.email].append(action)`. -/
def appendAction (grouped : List (Text × List CCAction)) (action : CCAction) :
    List (Text × List CCAction) :=
  match grouped with
  | [] => [(action.email, [action])]
  | (email, actions) :: rest =>
      if email = action.email then (email, actions ++ [action]) :: rest
      else (email, actions) :: appendAction rest action

omit [Unicode] in
def groupActions (actions : List CCAction) : List (Text × List CCAction) :=
  actions.foldl appendAction []

/-- The POST and the PUT of one address. The bodies are of the contacts as loaded. -/
def sendBodies (contacts : List Contact) (post : Option PostBody) (put : Option PutBody) :
    List Contact :=
  let signed :=
    match post with
    | none => contacts
    | some body => signUp service contacts (signUpFormBody body)
  match put with
  | none => signed
  | some body => updateContact signed body.contactId (updateContactBody body)

def executeGroup (data : ParishSoftData) (loaded contacts : List Contact)
    (group : Text × List CCAction) : Option (List Contact) := do
  let post ← postBodyForActions data loaded group.1 group.2
  let put ← putBodyForActions loaded group.1 group.2
  pure (sendBodies service contacts post (foldBodies post put))

/-- `execute_actions` on the account whose contacts were loaded. -/
def executeActions (data : ParishSoftData) (loaded : List Contact)
    (actions : List CCAction) : Option (List Contact) :=
  (groupActions actions).foldlM (executeGroup service data loaded) loaded

/-! ## Running -/

/-- The name updates that a run computes. -/
def nameActions (config : CCSyncConfig) (data : ParishSoftData) (lists : List ContactList)
    (contacts : List Contact) : Option (List CCAction) := do
  let desired ← desiredEmails config data lists contacts
  let candidates ← nameUpdateCandidateSyncIndices config.mappings desired lists contacts
  pure (detectNameMismatches data contacts config.updateNames candidates)

/-- The creations and list changes that a run computes. -/
def membershipActions (config : CCSyncConfig) (data : ParishSoftData)
    (lists : List ContactList) (contacts : List Contact) : Option (List CCAction) := do
  let desired ← desiredEmails config data lists contacts
  computeAllActions config.mappings desired lists contacts

/-- A run without its guards: the contacts after it. -/
def runSync (config : CCSyncConfig) (data : ParishSoftData) (account : Account) :
    Option (List Contact) := do
  let actions ← membershipActions config data account.lists account.contacts
  let updates ← nameActions config data account.lists account.contacts
  executeActions service data account.contacts (actions ++ updates)

end ParishKit.ContactSync
