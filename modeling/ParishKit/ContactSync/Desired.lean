import ParishKit.Lib.Records
import ParishKit.ParishSoft.Addresses
import ParishKit.Responses.ReadBack

/-!
# The desired addresses of Constant Contact lists

The primary addresses of the workgroup behind each configured list, less those of
contacts that opted out.
-/

namespace ParishKit.ContactSync

open ParishKit.Lib
open ParishKit.ParishSoft (memberEmailAddresses)
open ParishKit.Responses (Unicode LawfulUnicode)

/-! ## ParishSoft -/

structure PsMember where
  memberDuid : Int
  pyEmailAddresses : Option (List Text)
  emailAddress : Option Text
  /-- `nickName` of `"py contactInfo"`. -/
  nickName : Option Text
  firstName : Text
  lastName : Text
  pyFriendlyNameFL : Option Text

structure Workgroup where
  name : Text
  /-- `"py member duid"` of each row. -/
  membership : List (Option Int)

/-- `members` stand each under its `memberDUID`. -/
structure ParishSoftData where
  members : List PsMember
  memberWorkgroupMemberships : List Workgroup

/-! ## Constant Contact -/

structure ContactList where
  listId : Text
  name : Text

structure EmailAddress where
  address : Text
  permissionToSend : Option Text
deriving DecidableEq

/-- A name that the contact does not carry is `none`. -/
structure Contact where
  contactId : Text
  emailAddress : EmailAddress
  firstName : Option Text
  lastName : Option Text
  listMemberships : List Text
deriving DecidableEq

/-- What `load_cc_data` loads: lists and contacts go by ids of their own. -/
structure Account where
  lists : List ContactList
  contacts : List Contact
  listIds : (lists.map ContactList.listId).Nodup
  listIdsNonblank : ∀ list ∈ lists, list.listId ≠ []
  contactIds : (contacts.map Contact.contactId).Nodup

/-- `contact.get("first_name", "")`. -/
def Contact.first (contact : Contact) : Text :=
  contact.firstName.getD []

/-- `contact.get("last_name", "")`. -/
def Contact.last (contact : Contact) : Text :=
  contact.lastName.getD []

def unsubscribedPermission : Text :=
  "unsubscribed".toList

variable [Unicode]

/-- The address that a contact is matched by. -/
def Contact.key (contact : Contact) : Text :=
  Unicode.lower contact.emailAddress.address

/-- The keys of `"CONTACTS"`, which `link_cc_data` builds for the list of the id. -/
def listContacts (contacts : List Contact) (listId : Text) : List Text :=
  (recordsByKey Contact.key
    (contacts.filter fun contact => listId ∈ contact.listMemberships)).map Contact.key

def contactsByEmail (contacts : List Contact) : List Contact :=
  recordsByKey Contact.key contacts

/-! ## Configuration -/

structure CCSyncMapping where
  sourceWorkgroup : Text
  targetList : Text

/-- One mapping of the loop: the names seen, and the duplicates. -/
def noteTargetList (state : List Text × List Text) (mapping : CCSyncMapping) :
    List Text × List Text :=
  let normalized := Unicode.casefold mapping.targetList
  (normalized :: state.1,
    if normalized ∈ state.1 then state.2 ++ [mapping.targetList] else state.2)

/-- The `duplicates` of `_validate_unique_target_lists`. -/
def duplicateTargetLists (mappings : List CCSyncMapping) : List Text :=
  (mappings.foldl noteTargetList ([], [])).2

structure CCSyncConfig where
  mappings : List CCSyncMapping
  updateNames : Bool
  accepted : duplicateTargetLists mappings = []

/-! ## The desired state -/

def PsMember.emails (member : PsMember) : List Text :=
  memberEmailAddresses member.pyEmailAddresses member.emailAddress

/-- `emails.add(addresses[0])` of the Member, when there is one with an address. -/
def addPrimary (emails : List Text) (member : Option PsMember) : List Text :=
  match member.bind fun member => member.emails.head? with
  | none => emails
  | some email => if email ∈ emails then emails else emails ++ [email]

def ParishSoftData.findMember (data : ParishSoftData) (memberId : Option Int) :
    Option PsMember :=
  memberId.bind (findRecord PsMember.memberDuid data.members)

def workgroupEmails (data : ParishSoftData) (workgroup : Workgroup) : List Text :=
  (workgroup.membership.map data.findMember).foldl addPrimary []

omit [Unicode] in
def listByName (lists : List ContactList) (name : Text) : Option ContactList :=
  findRecord ContactList.name (recordsByKey ContactList.name lists) name

omit [Unicode] in
def workgroupByName (data : ParishSoftData) (name : Text) : Option Workgroup :=
  findRecord Workgroup.name (recordsByKey Workgroup.name data.memberWorkgroupMemberships) name

/-- A list or workgroup that is not there is refused. -/
def resolveDesiredState (mappings : List CCSyncMapping) (data : ParishSoftData)
    (lists : List ContactList) : Option (List (List Text)) :=
  mappings.mapM fun mapping => do
    let _ ← listByName lists mapping.targetList
    let workgroup ← workgroupByName data mapping.sourceWorkgroup
    pure (workgroupEmails data workgroup)

/-- The Members of an address, in the order of `data.members`. -/
def membersByEmail (data : ParishSoftData) (email : Text) : List PsMember :=
  data.members.flatMap fun member =>
    (member.emails.filter fun other => other = email).map fun _ => member

/-- The line of the report about an address that opted out. -/
def reportEntry (data : ParishSoftData) (email : Text) : Text × Text × Text :=
  let members := membersByEmail data email
  (email,
    List.intercalate [',', ' '] (members.map fun member => member.pyFriendlyNameFL.getD []),
    List.intercalate [',', ' '] (members.map fun member => (toString member.memberDuid).toList))

/-- One mapping of the inner loop: its desired addresses, and its report. -/
def discardAddress (data : ParishSoftData) (email : Text)
    (mapping : List Text × List (Text × Text × Text)) :
    List Text × List (Text × Text × Text) :=
  if email ∈ mapping.1 then
    (mapping.1.filter fun other => other ≠ email, mapping.2 ++ [reportEntry data email])
  else mapping

def filterUnsubscribed (data : ParishSoftData) (contacts : List Contact)
    (desired : List (List Text)) : List (List Text × List (Text × Text × Text)) :=
  contacts.foldl
    (fun mappings contact =>
      if contact.emailAddress.permissionToSend = some unsubscribedPermission then
        mappings.map (discardAddress data contact.key)
      else mappings)
    (desired.map fun emails => (emails, []))

/-- The addresses that each configured list is to hold. -/
def desiredEmails (config : CCSyncConfig) (data : ParishSoftData) (lists : List ContactList)
    (contacts : List Contact) : Option (List (List Text)) := do
  let desired ← resolveDesiredState config.mappings data lists
  pure ((filterUnsubscribed data contacts desired).map Prod.fst)

end ParishKit.ContactSync
