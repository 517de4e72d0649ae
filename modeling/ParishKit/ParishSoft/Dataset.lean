import ParishKit.Lib.DateText
import ParishKit.Lib.Records

/-!
# The loaded dataset

ParishSoft's Families and Members, the rosters that name them, and the filter that
removes the records out of scope with their memberships.
-/

namespace ParishKit.ParishSoft

open ParishKit.Lib

/-! ## Loading -/

structure MemberElement where
  memberDuid : Int
  familyDuid : Int
  memberStatus : Option Text

structure Member extends MemberElement where
  /-- The key of the Family in `"py family"`. -/
  pyFamily : Option Int
  pyActive : Bool

structure FamilyElement where
  familyDuid : Int
  famGroupId : Option Int
  familyGroupId : Option Int
  registeredOrganizationId : Option Int

structure Family extends FamilyElement where
  pyFamilyGroup : Option Text
  pyMembers : List Member

/-- A row of a Family workgroup. A field that the row does not carry is `none`. -/
structure FamilyRowElement where
  familyDuid : Option Int
  familyId : Option Int

/-- A row of a Member workgroup or of a Ministry roster. -/
structure MemberRowElement extends FamilyRowElement where
  memberDuid : Option Int
  memberId : Option Int

structure FamilyRow extends FamilyRowElement where
  pyFamilyDuid : Option Int

structure MemberRow extends FamilyRow where
  memberDuid : Option Int
  memberId : Option Int
  pyMemberDuid : Option Int

/-- `_copy_first_duid`: the first field present. -/
def copyFirstDuid (first second : Option Int) : Option Int :=
  first.or second

def loadMember (element : MemberElement) : Member :=
  { element with pyFamily := none, pyActive := false }

def loadFamily (element : FamilyElement) : Family :=
  { element with pyFamilyGroup := none, pyMembers := [] }

def loadFamilyRow (element : FamilyRowElement) : FamilyRow :=
  { element with pyFamilyDuid := copyFirstDuid element.familyDuid element.familyId }

def loadMemberRow (element : MemberRowElement) : MemberRow :=
  { element with
    pyFamilyDuid := copyFirstDuid element.familyDuid element.familyId
    pyMemberDuid := copyFirstDuid element.memberDuid element.memberId }

/-- A workgroup or Ministry, with its membership. -/
structure Group (Row : Type) where
  duid : Int
  membership : List Row

/-- What the endpoints give. -/
structure Elements where
  families : List FamilyElement
  members : List MemberElement
  familyGroups : List (Int × Text)
  familyWorkgroups : List (Group FamilyRowElement)
  memberWorkgroups : List (Group MemberRowElement)
  ministryTypes : List (Group MemberRowElement)

/-- The collections that linking and filtering change. -/
structure Dataset where
  families : List Family
  members : List Member
  familyWorkgroupMemberships : List (Group FamilyRow)
  memberWorkgroupMemberships : List (Group MemberRow)
  ministryTypeMemberships : List (Group MemberRow)

def Group.load {Element Row : Type} (loadRow : Element → Row) (group : Group Element) :
    Group Row :=
  { duid := group.duid, membership := group.membership.map loadRow }

def load (elements : Elements) : Dataset where
  families := (recordsByKey FamilyElement.familyDuid elements.families).map loadFamily
  members := (recordsByKey MemberElement.memberDuid elements.members).map loadMember
  familyWorkgroupMemberships := elements.familyWorkgroups.map (Group.load loadFamilyRow)
  memberWorkgroupMemberships := elements.memberWorkgroups.map (Group.load loadMemberRow)
  ministryTypeMemberships := elements.ministryTypes.map (Group.load loadMemberRow)

/-! ## Linking -/

/-- `family["py members"].append(member)`, of the Family under the Member's key. -/
def appendMember (families : List Family) (member : Member) : List Family :=
  families.map fun family =>
    if family.familyDuid = member.familyDuid then
      { family with pyMembers := family.pyMembers ++ [member] }
    else family

/-- `member["py family"] = families.get(family_duid)`. -/
def linkMember (families : List Family) (member : Member) : Member :=
  { member with
    pyFamily := (families.find? fun family => family.familyDuid == member.familyDuid).map
      fun family => family.familyDuid }

def linkFamiliesAndMembers (dataset : Dataset) : Dataset :=
  let families := dataset.families.map fun family => { family with pyMembers := [] }
  let members := dataset.members.map (linkMember families)
  { dataset with members, families := members.foldl appendMember families }

/-- `a or b` of two identifiers: zero is as good as none. -/
def orDuid (first second : Option Int) : Option Int :=
  if first = some 0 then second else first.or second

def linkFamilyGroups (groups : List (Int × Text)) (dataset : Dataset) : Dataset :=
  { dataset with
    families := dataset.families.map fun family =>
      match orDuid family.famGroupId family.familyGroupId with
      | none => family
      | some groupId =>
          { family with
            pyFamilyGroup := (groups.find? fun entry => entry.1 == groupId).map Prod.snd } }

/-! ## Filtering -/

structure Flags where
  activeOnly : Bool
  parishionersOnly : Bool
  includeDeceased : Bool
  retainEmptyFamilies : Bool

def memberIsDeceased (member : Member) : Bool :=
  member.memberStatus == some "Deceased".toList

def memberIsActive (member : Member) : Bool :=
  member.memberStatus != some "Inactive".toList && !memberIsDeceased member

def familyIsActive (family : Family) : Bool :=
  family.pyFamilyGroup != some "Inactive".toList && family.pyMembers.any memberIsActive

def familyIsParishioner (family : Family) (orgId : Int) : Bool :=
  family.registeredOrganizationId == some orgId

/-- `int(duid or -1)`: -1 stands for no id. -/
def orMissing : Option Int → Int
  | none => -1
  | some duid => if duid = 0 then -1 else duid

/-- The Member id a row is compared by. -/
def MemberRow.memberKey (row : MemberRow) : Int :=
  orMissing (orDuid row.pyMemberDuid row.memberDuid)

/-- The Family id a row is compared by, under any of its three names. -/
def FamilyRow.familyKey (row : FamilyRow) : Int :=
  orMissing (orDuid (orDuid row.pyFamilyDuid row.familyDuid) row.familyId)

def Group.keep {Row : Type} (wanted : Row → Bool) (group : Group Row) : Group Row :=
  { group with membership := group.membership.filter wanted }

def removeMembershipsForMember (memberId : Int) (dataset : Dataset) : Dataset :=
  { dataset with
    memberWorkgroupMemberships := dataset.memberWorkgroupMemberships.map
      (Group.keep fun row => row.memberKey ≠ memberId)
    ministryTypeMemberships := dataset.ministryTypeMemberships.map
      (Group.keep fun row => row.memberKey ≠ memberId) }

def removeMembershipsForFamily (familyId : Int) (dataset : Dataset) : Dataset :=
  { dataset with
    familyWorkgroupMemberships := dataset.familyWorkgroupMemberships.map
      (Group.keep fun row => row.familyKey ≠ familyId)
    memberWorkgroupMemberships := dataset.memberWorkgroupMemberships.map
      (Group.keep fun row => row.familyKey ≠ familyId)
    ministryTypeMemberships := dataset.ministryTypeMemberships.map
      (Group.keep fun row => row.familyKey ≠ familyId) }

/-- A Member is one object: a change shows in the collection and in its Family's list. -/
def Dataset.changeMembers (change : Member → Member) (dataset : Dataset) : Dataset :=
  { dataset with
    members := dataset.members.map change
    families := dataset.families.map fun family =>
      { family with pyMembers := family.pyMembers.map change } }

def outOfScope (flags : Flags) (member : Member) : Bool :=
  (!flags.includeDeceased && memberIsDeceased member) ||
    (flags.activeOnly && !memberIsActive member)

def setActive (memberId : Int) (active : Bool) (member : Member) : Member :=
  if member.memberDuid = memberId then { member with pyActive := active } else member

/-- `family["py members"]` of the Member's Family, without the Member. -/
def detachMember (member : Member) (dataset : Dataset) : Dataset :=
  match member.pyFamily with
  | none => dataset
  | some familyDuid =>
      { dataset with
        families := dataset.families.map fun family =>
          if family.familyDuid = familyDuid then
            { family with
              pyMembers := family.pyMembers.filter fun item =>
                item.memberDuid ≠ member.memberDuid }
          else family }

/-- One Member of the first pass. -/
def filterMember (flags : Flags) (dataset : Dataset) (member : Member) : Dataset :=
  if outOfScope flags member then
    let inactive := dataset.changeMembers (setActive member.memberDuid false)
    let detached := detachMember member inactive
    let cleaned := removeMembershipsForMember member.memberDuid detached
    { cleaned with
      members := cleaned.members.filter fun other =>
        other.memberDuid ≠ member.memberDuid }
  else dataset

def removesFamily (flags : Flags) (orgId : Int) (family : Family) : Bool :=
  (!family.pyMembers.any Member.pyActive && !flags.retainEmptyFamilies) ||
    (flags.activeOnly && !familyIsActive family) ||
    (flags.parishionersOnly && !familyIsParishioner family orgId)

/-- One Family of the second pass. -/
def filterFamily (flags : Flags) (orgId : Int) (dataset : Dataset) (family : Family) :
    Dataset :=
  if removesFamily flags orgId family then
    let popped : Dataset := { dataset with
      members := family.pyMembers.foldl
        (fun members member => members.filter fun other =>
          other.memberDuid ≠ member.memberDuid)
        dataset.members }
    let cleaned := removeMembershipsForFamily family.familyDuid popped
    { cleaned with
      families := cleaned.families.filter fun other =>
        other.familyDuid ≠ family.familyDuid }
  else dataset

def filterFamiliesAndMembers (flags : Flags) (orgId : Int) (dataset : Dataset) : Dataset :=
  let started := dataset.changeMembers fun member => { member with pyActive := true }
  let inScope := started.members.foldl (filterMember flags) started
  inScope.families.foldl (filterFamily flags orgId) inScope

/-- `load_families_and_members`, from what the endpoints gave. -/
def loadFamiliesAndMembers (flags : Flags) (orgId : Int) (elements : Elements) : Dataset :=
  filterFamiliesAndMembers flags orgId
    (linkFamilyGroups elements.familyGroups (linkFamiliesAndMembers (load elements)))

end ParishKit.ParishSoft
