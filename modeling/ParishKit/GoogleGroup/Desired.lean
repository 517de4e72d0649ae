import ParishKit.ParishSoft.Addresses

/-!
# The desired members of a Google Group

The Members that a group's ministries, workgroups and selectors pick, and its static
members, merged by the normal form of their addresses.
-/

namespace ParishKit.GoogleGroup

open ParishKit.Lib
open ParishKit.ParishSoft (memberEmailAddresses UpperCase)
open ParishKit.Responses (Unicode LawfulUnicode strip)

/-! ## Data -/

/-- An entry of `"py ministries"`. -/
structure Ministry where
  name : Text
  role : Option Text

structure Member where
  pyEmailAddresses : Option (List Text)
  emailAddress : Option Text
  pyMinistries : List Ministry
  /-- The names under `"py workgroups"`. -/
  pyWorkgroups : List Text
  pyFriendlyName : Option Text
  firstName : Text
  lastName : Text

structure StaticMember where
  email : Text
  leader : Bool

structure Selector where
  type : Text
  ministryPrefix : Option Text
  ministryPattern : Option Text
  memberRoles : List Text
  leaderRoles : List Text
  staffOwnerDomains : List Text

structure GroupSync where
  ministries : List Text
  workgroups : List Text
  staticMembers : List StaticMember
  selectors : List Selector

structure DesiredMember where
  email : Text
  leader : Bool
  names : List Text

/-! ## Addresses -/

variable [Unicode]

def Member.emails (member : Member) : List Text :=
  memberEmailAddresses member.pyEmailAddresses member.emailAddress

/-- What is before the first separator, and what is after it. -/
def splitOnce (separator : Char) (text : Text) : Text × Text :=
  (text.takeWhile (· != separator), (text.dropWhile (· != separator)).drop 1)

def normalizeEmail (googleMailDomains : List Text) (email : Text) : Text :=
  if '@' ∉ email then Unicode.lower email
  else
    let (localPart, domain) := splitOnce '@' (Unicode.lower email)
    if domain ∉ googleMailDomains then localPart ++ '@' :: domain
    else
      let untagged := (splitOnce '+' localPart).1
      let plain :=
        if domain = "gmail.com".toList ∨ domain = "googlemail.com".toList then
          untagged.filter (· != '.')
        else untagged
      plain ++ '@' :: domain

def compareEmail (googleMailDomains : List Text) (left right : Text) : Bool :=
  normalizeEmail googleMailDomains left == normalizeEmail googleMailDomains right

/-! ## Sources -/

-- `search` is `re.search` with its answer as found or not.
variable (search : Text → Text → Bool) (leaderRoles : List Text)

omit [Unicode] in
def isMinistryLeader (ministry : Ministry) : Bool :=
  ministry.role.any fun role => leaderRoles.contains role

def memberInMinistries (member : Member) (ministries : List Text) : Bool × Bool :=
  member.pyMinistries.foldl
    (fun (found, leader) ministry =>
      if ministries.contains ministry.name then
        (true, leader || isMinistryLeader leaderRoles ministry)
      else (found, leader))
    (false, false)

def memberInWorkgroups (member : Member) (workgroups : List Text) : Bool × Bool :=
  workgroups.foldl
    (fun (found, leader) workgroup =>
      let found := found || member.pyWorkgroups.contains workgroup
      if member.pyWorkgroups.contains (workgroup ++ " Ldr".toList) ||
          member.pyWorkgroups.contains (workgroup ++ " Leader".toList) then
        (true, true)
      else (found, leader))
    (false, false)

def ministryNameMatchesSelector (name : Text) (selector : Selector) : Bool :=
  (selector.ministryPrefix.getD []).isPrefixOf name &&
    selector.ministryPattern.all fun pattern => search pattern name

/-- The domain of the primary address. -/
def Member.domain (member : Member) : Text :=
  let email := member.emails.headD []
  if '@' ∈ email then (email.splitOn '@').getLastD [] else []

/-- `selector_matches_member`; an unknown type is refused. -/
def selectorMatchesMember (member : Member) (selector : Selector) : Option (Bool × Bool) :=
  let leads := fun ministry => isMinistryLeader leaderRoles ministry &&
    ministryNameMatchesSelector search ministry.name selector
  if selector.type = "all_ministry_chairs".toList then
    if member.pyMinistries.any leads then
      some (true, selector.staffOwnerDomains.contains member.domain)
    else some (false, false)
  else if selector.type = "ministry_chair".toList then
    if member.pyMinistries.any leads then some (true, true) else some (false, false)
  else if selector.type = "ministry_role".toList then
    some (member.pyMinistries.foldl
      (fun (isMember, isLeader) ministry =>
        if !ministryNameMatchesSelector search ministry.name selector then
          (isMember, isLeader)
        else
          let inRoles := ministry.role.any fun role => selector.memberRoles.contains role
          let inLeaderRoles := ministry.role.any fun role =>
            selector.leaderRoles.contains role
          if inRoles || inLeaderRoles then
            (true, isLeader || inLeaderRoles || isMinistryLeader leaderRoles ministry)
          else (isMember, isLeader))
      (false, false))
  else none

def memberMatchesGroup (member : Member) (group : GroupSync) : Option (Bool × Bool) := do
  let ministry := memberInMinistries leaderRoles member group.ministries
  let workgroup := memberInWorkgroups member group.workgroups
  let (isMember, isLeader) ← group.selectors.foldlM
    (fun (isMember, isLeader) selector => do
      let (selectorMember, selectorLeader) ←
        selectorMatchesMember search leaderRoles member selector
      pure (isMember || selectorMember, isLeader || selectorLeader))
    (ministry.1 || workgroup.1, ministry.2 || workgroup.2)
  pure (isMember || isLeader, isLeader)

/-! ## Merging -/

/-- `add_desired_member`. -/
def addDesiredMember (googleMailDomains : List Text) (found : List (Text × DesiredMember))
    (email : Text) (leader : Bool) (name : Option Text) : List (Text × DesiredMember) :=
  let displayEmail := Unicode.lower email
  let normalized := normalizeEmail googleMailDomains displayEmail
  if normalized ∈ found.map Prod.fst then
    found.map fun entry =>
      if entry.1 = normalized then
        (entry.1, { entry.2 with
          leader := entry.2.leader || leader
          names := entry.2.names ++ name.toList })
      else entry
  else found ++ [(normalized, ⟨displayEmail, leader, name.toList⟩)]

def memberDisplayName (member : Member) : Text :=
  strip (member.firstName ++ ' ' :: member.lastName)

/-- `name if name else nothing`, of the friendly name or the display name. -/
def Member.shownName (member : Member) : Option Text :=
  let name := match member.pyFriendlyName with
    | some (first :: rest) => first :: rest
    | _ => memberDisplayName member
  if name = [] then none else some name

/-- One Member of the loop. -/
def addMember (googleMailDomains : List Text) (group : GroupSync)
    (found : List (Text × DesiredMember)) (member : Member) :
    Option (List (Text × DesiredMember)) := do
  let (isMember, isLeader) ← memberMatchesGroup search leaderRoles member group
  if !isMember && !isLeader then pure found
  else
    match member.emails with
    | [] => pure found
    | primary :: _ =>
        pure (addDesiredMember googleMailDomains found primary isLeader member.shownName)

def desiredMembers (googleMailDomains : List Text) (group : GroupSync)
    (members : List Member) : Option (List DesiredMember) := do
  let found ← members.foldlM (addMember search leaderRoles googleMailDomains group) []
  let found := group.staticMembers.foldl
    (fun found static => addDesiredMember googleMailDomains found static.email
      static.leader none) found
  pure (found.map Prod.snd)

end ParishKit.GoogleGroup
