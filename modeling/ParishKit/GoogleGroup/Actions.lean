import ParishKit.GoogleGroup.DesiredSet
import ParishKit.Lib.Records

/-!
# The actions of a Google Group sync

What is added, changed and deleted, and what the group's members are after it.
-/

namespace ParishKit.GoogleGroup

open ParishKit.Lib
open ParishKit.ParishSoft (UpperCase)
open ParishKit.Responses (Unicode LawfulUnicode strip)

/-! ## Members and actions -/

/-- A member as Google lists it. -/
structure GroupMember where
  id : Option Text
  email : Text
  role : Option Text

/-- An entry of `normalized_group_members`. -/
structure NormalizedMember where
  email : Text
  role : Text
  id : Text

inductive ActionKind where
  | add
  | changeRole
  | delete
deriving DecidableEq

structure SyncAction where
  action : ActionKind
  email : Text
  role : Option Text
  groupMemberId : Option Text

def ownerRole : Text := "OWNER".toList

def memberRole : Text := "MEMBER".toList

/-- `str(first or second)`. -/
def orText (first : Option Text) (second : Text) : Text :=
  match first with
  | none => second
  | some text => if text = [] then second else text

/-- The id a member is changed and deleted by. -/
def GroupMember.key (member : GroupMember) : Text :=
  orText member.id member.email

variable [Unicode] [UpperCase]

def normalizedGroupMember (member : GroupMember) : NormalizedMember where
  email := Unicode.lower member.email
  role := UpperCase.upper (member.role.getD memberRole)
  id := member.key

def normalizedGroupMembers (members : List GroupMember) : List NormalizedMember :=
  members.map normalizedGroupMember

/-! ## Computing -/

def desiredRole (desired : DesiredMember) : Text :=
  if desired.leader then ownerRole else memberRole

/-- The first current member of the same normal form, with its index. -/
def matchIndex (googleMailDomains : List Text) (groupMembers : List NormalizedMember)
    (desired : DesiredMember) : Option (NormalizedMember × Nat) :=
  groupMembers.zipIdx.find? fun member =>
    compareEmail googleMailDomains desired.email member.1.email

/-- One desired member of the loop: the actions and the indexes matched so far. -/
def compareDesired (googleMailDomains : List Text) (groupMembers : List NormalizedMember)
    (state : List SyncAction × List Nat) (desired : DesiredMember) :
    List SyncAction × List Nat :=
  match matchIndex googleMailDomains groupMembers desired with
  | none =>
      (state.1 ++ [⟨.add, desired.email, some (desiredRole desired), none⟩], state.2)
  | some (groupMember, index) =>
      if UpperCase.upper groupMember.role ≠ desiredRole desired then
        (state.1 ++ [⟨.changeRole, desired.email, some (desiredRole desired),
          some (orText groupMember.id groupMember.email)⟩], state.2 ++ [index])
      else (state.1, state.2 ++ [index])

def computeActions (googleMailDomains : List Text) (desired : List DesiredMember)
    (groupMembers : List NormalizedMember) : List SyncAction :=
  let (actions, matched) :=
    desired.foldl (compareDesired googleMailDomains groupMembers) ([], [])
  actions ++ (groupMembers.zipIdx.filter fun member => member.2 ∉ matched).map fun member =>
    ⟨.delete, member.1.email, none, some (orText member.1.id member.1.email)⟩

/-! ## Applying -/

/-- Google gives each member it adds an id that no member of the group has. -/
structure Directory where
  newId : List GroupMember → Text → Text
  newId_ne_nil : ∀ members email, newId members email ≠ []
  newId_fresh : ∀ members email, newId members email ∉ members.map GroupMember.key

variable (directory : Directory)

def insertGroupMember (members : List GroupMember) (email role : Text) : List GroupMember :=
  members ++ [⟨some (directory.newId members email), email, some role⟩]

def updateGroupMemberRole (members : List GroupMember) (id role : Text) : List GroupMember :=
  members.map fun member => if member.key = id then { member with role := some role } else member

def deleteGroupMember (members : List GroupMember) (id : Text) : List GroupMember :=
  members.filter fun member => member.key ≠ id

def applyAction (members : List GroupMember) (action : SyncAction) : List GroupMember :=
  match action.action with
  | .add => insertGroupMember directory members action.email (orText action.role memberRole)
  | .changeRole =>
      updateGroupMemberRole members (orText action.groupMemberId action.email)
        (orText action.role memberRole)
  | .delete => deleteGroupMember members (orText action.groupMemberId action.email)

/-- `apply_actions`: the deletes first, and each kind in its order. -/
def applyActions (members : List GroupMember) (actions : List SyncAction) : List GroupMember :=
  let ordered := actions.filter (fun action => action.action = .delete) ++
    actions.filter fun action => action.action ≠ .delete
  ordered.foldl (applyAction directory) members

end ParishKit.GoogleGroup
