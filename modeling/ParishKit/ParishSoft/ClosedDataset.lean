import ParishKit.ParishSoft.FilterPasses

/-!
# A closed dataset

Which Members and Families the filter keeps, and which rows it leaves behind.
-/

namespace ParishKit.ParishSoft

open ParishKit.Lib

/-! ## What is kept -/

variable (flags : Flags) (orgId : Int)

/-- A linked Family has a Member in scope, or may be empty, and passes the flags. -/
def familyStays (linked : Dataset) (family : Family) : Bool :=
  ((linked.members.any fun member =>
      member.familyDuid = family.familyDuid && !outOfScope flags member) ||
    flags.retainEmptyFamilies) &&
  (!flags.activeOnly || familyIsActive family) &&
  (!flags.parishionersOnly || familyIsParishioner family orgId)

/-- A Member was loaded under this id and is no longer there. -/
def memberRemoved (before after : Dataset) (memberId : Int) : Bool :=
  (before.members.any fun member => member.memberDuid = memberId) &&
    !after.members.any fun member => member.memberDuid = memberId

def familyRemoved (before after : Dataset) (familyId : Int) : Bool :=
  (before.families.any fun family => family.familyDuid = familyId) &&
    !after.families.any fun family => family.familyDuid = familyId

/-- No row names a removed record, and every other row is still there, in order. -/
structure GroupClosed {Row : Type} (namesRemoved : Row → Bool) (old new : Group Row) :
    Prop where
  same_group : new.duid = old.duid
  no_new_row : new.membership.Sublist old.membership
  none_dangles : ∀ row ∈ new.membership, namesRemoved row = false
  others_stay : (old.membership.filter fun row => !namesRemoved row).Sublist new.membership

/-- The dataset after the filter is closed. -/
structure Closed (before after : Dataset) : Prop where
  member_kept : ∀ member ∈ before.members,
    (memberRemoved before after member.memberDuid = false ↔
      outOfScope flags member = false ∧ ∀ family ∈ before.families,
        family.familyDuid = member.familyDuid →
          familyRemoved before after family.familyDuid = false)
  family_kept : ∀ family ∈ before.families,
    (familyRemoved before after family.familyDuid = false ↔
      familyStays flags orgId before family = true)
  load_order : (after.members.map fun member => member.toMemberElement).Sublist
    (before.members.map fun member => member.toMemberElement)
  family_order : (after.families.map fun family => family.toFamilyElement).Sublist
    (before.families.map fun family => family.toFamilyElement)
  py_members : ∀ family ∈ after.families, family.pyMembers =
    after.members.filter fun member => member.familyDuid = family.familyDuid
  family_workgroups : List.Forall₂
    (GroupClosed fun row => familyRemoved before after row.familyKey)
    before.familyWorkgroupMemberships after.familyWorkgroupMemberships
  member_workgroups : List.Forall₂
    (GroupClosed fun row => memberRemoved before after row.memberKey ||
      familyRemoved before after row.familyKey)
    before.memberWorkgroupMemberships after.memberWorkgroupMemberships
  ministries : List.Forall₂
    (GroupClosed fun row => memberRemoved before after row.memberKey ||
      familyRemoved before after row.familyKey)
    before.ministryTypeMemberships after.ministryTypeMemberships

/-- A row of a Member who goes with the Family carries the id of a Family that goes. -/
def RowsCarryFamily (linked : Dataset) : Prop :=
  ∀ group ∈ linked.memberWorkgroupMemberships ++ linked.ministryTypeMemberships,
    ∀ row ∈ group.membership, ∀ member ∈ linked.members, ∀ family ∈ linked.families,
      member.memberDuid = row.memberKey → outOfScope flags member = false →
      family.familyDuid = member.familyDuid →
      familyStays flags orgId linked family = false →
      ∃ other ∈ linked.families, other.familyDuid = row.familyKey ∧
        familyStays flags orgId linked other = false

/-! ## The dataset between the passes -/

variable {flags orgId}

def activated (linked : Dataset) : Dataset :=
  linked.changeMembers fun member => { member with pyActive := true }

/-- The dataset after the first pass. -/
def inScope (flags : Flags) (linked : Dataset) : Dataset :=
  dropMembers (outOfScopeIds flags linked.members) (activated linked)

/-- The Families the second pass removes. -/
def goneFamilies (flags : Flags) (orgId : Int) (linked : Dataset) : List Family :=
  (inScope flags linked).families.filter (removesFamily flags orgId)

theorem Linked.member_eq
    {dataset : Dataset} (linked : Linked dataset) {member other : Member}
    (isMember : member ∈ dataset.members) (isOther : other ∈ dataset.members)
    (same : member.memberDuid = other.memberDuid) : member = other :=
  List.inj_on_of_nodup_map linked.members_distinct isMember isOther same

theorem Linked.family_eq
    {dataset : Dataset} (linked : Linked dataset) {family other : Family}
    (isFamily : family ∈ dataset.families) (isOther : other ∈ dataset.families)
    (same : family.familyDuid = other.familyDuid) : family = other :=
  List.inj_on_of_nodup_map linked.families_distinct isFamily isOther same

theorem Linked.mem_pyMembers
    {dataset : Dataset} (linked : Linked dataset) {family : Family} {member : Member}
    (isFamily : family ∈ dataset.families) :
    member ∈ family.pyMembers ↔
      member ∈ dataset.members ∧ member.familyDuid = family.familyDuid := by
  simp [linked.listed family isFamily]

theorem Linked.listedOnly
    {dataset : Dataset} (linked : Linked dataset) {member : Member}
    (isMember : member ∈ dataset.members) : ListedOnlyWhereReferred member dataset := by
  intro family isFamily item isItem same
  have listed := (linked.mem_pyMembers isFamily).mp isItem
  have equal := linked.member_eq listed.1 isMember same
  exact linked.refers member isMember family isFamily (equal ▸ listed.2)

theorem Linked.activated {dataset : Dataset} (linked : Linked dataset) :
    Linked (activated dataset) := by
  refine ⟨?_, ?_, ?_, ?_⟩
  · simpa [ParishSoft.activated, Dataset.changeMembers, Function.comp_def] using
      linked.members_distinct
  · simpa [ParishSoft.activated, Dataset.changeMembers, Function.comp_def] using
      linked.families_distinct
  · intro family isFamily
    obtain ⟨before, isBefore, rfl⟩ := List.mem_map.mp isFamily
    simp [ParishSoft.activated, Dataset.changeMembers, linked.listed before isBefore,
      List.filter_map, Function.comp_def]
  · intro member isMember family isFamily
    obtain ⟨loaded, isLoaded, rfl⟩ := List.mem_map.mp isMember
    obtain ⟨before, isBefore, rfl⟩ := List.mem_map.mp isFamily
    exact linked.refers loaded isLoaded before isBefore

theorem Linked.dropMembers {dataset : Dataset} (linked : Linked dataset) (out : List Int) :
    Linked (dropMembers out dataset) := by
  refine ⟨?_, ?_, ?_, ?_⟩
  · exact linked.members_distinct.sublist (List.filter_sublist.map _)
  · simpa [ParishSoft.dropMembers, Function.comp_def] using linked.families_distinct
  · intro family isFamily
    obtain ⟨before, isBefore, rfl⟩ := List.mem_map.mp isFamily
    simp [ParishSoft.dropMembers, linked.listed before isBefore, List.filter_filter,
      Bool.and_comm]
  · intro member isMember family isFamily
    obtain ⟨before, isBefore, rfl⟩ := List.mem_map.mp isFamily
    exact linked.refers member (List.mem_filter.mp isMember).1 before isBefore

theorem filterFamiliesAndMembers_eq
    {dataset : Dataset} (linked : Linked dataset) :
    filterFamiliesAndMembers flags orgId dataset =
      dropFamilies (goneFamilies flags orgId dataset) (inScope flags dataset) := by
  have firstPass := foldl_filterMember flags (activated dataset).members
    fun member isMember => linked.activated.listedOnly isMember
  have sameIds : outOfScopeIds flags (activated dataset).members =
      outOfScopeIds flags dataset.members := by
    simp only [outOfScopeIds, activated, Dataset.changeMembers, List.filter_map, List.map_map]
    rfl
  rw [sameIds] at firstPass
  have secondPass := foldl_filterFamily flags orgId (inScope flags dataset).families
    (inScope flags dataset)
  unfold filterFamiliesAndMembers
  simp only
  rw [show (dataset.changeMembers fun member => { member with pyActive := true }) =
    activated dataset from rfl, firstPass]
  exact secondPass

/-! ## Who goes -/

theorem Linked.mem_outOfScopeIds
    (flags : Flags) {dataset : Dataset} (linked : Linked dataset) {member : Member}
    (isMember : member ∈ dataset.members) :
    member.memberDuid ∈ outOfScopeIds flags dataset.members ↔
      outOfScope flags member = true := by
  simp only [outOfScopeIds, List.mem_map, List.mem_filter]
  constructor
  · rintro ⟨other, ⟨isOther, out⟩, same⟩
    rwa [← linked.member_eq isOther isMember same]
  · intro out
    exact ⟨member, ⟨isMember, out⟩, rfl⟩

/-- A linked Family as the second pass finds it. -/
def familyInScope (flags : Flags) (family : Family) : Family :=
  { family with
    pyMembers := (family.pyMembers.filter fun member => !outOfScope flags member).map
      fun member => { member with pyActive := true } }

theorem inScope_families {dataset : Dataset} (linked : Linked dataset) :
    (inScope flags dataset).families = dataset.families.map (familyInScope flags) := by
  simp only [inScope, dropMembers, activated, Dataset.changeMembers, List.map_map]
  apply List.map_congr_left
  intro family isFamily
  simp only [Function.comp_apply, familyInScope, List.filter_map]
  congr 2
  apply List.filter_congr
  intro member isMember
  have listed := (linked.mem_pyMembers isFamily).mp isMember
  have out := linked.mem_outOfScopeIds flags listed.1
  cases scope : outOfScope flags member <;> simp [out, scope]

theorem inScope_members {dataset : Dataset} (linked : Linked dataset) :
    (inScope flags dataset).members =
      (dataset.members.filter fun member => !outOfScope flags member).map
        fun member => { member with pyActive := true } := by
  simp only [inScope, dropMembers, activated, Dataset.changeMembers, List.filter_map]
  congr 1
  apply List.filter_congr
  intro member isMember
  have out := linked.mem_outOfScopeIds flags isMember
  cases scope : outOfScope flags member <;> simp [out, scope]

theorem inScope_linked
    (flags : Flags) {dataset : Dataset} (linked : Linked dataset) :
    Linked (inScope flags dataset) :=
  linked.activated.dropMembers _

theorem outOfScope_of_active
    {member : Member} (active : memberIsActive member = true) :
    outOfScope flags member = false := by
  have living : memberIsDeceased member = false := by
    simp only [memberIsActive, Bool.and_eq_true] at active
    simpa using active.2
  simp [outOfScope, active, living]

/-- An active Member is in scope, so the first pass leaves the Family's activity as it was. -/
theorem familyIsActive_inScope (family : Family) :
    familyIsActive (familyInScope flags family) = familyIsActive family := by
  have sameAny : (familyInScope flags family).pyMembers.any memberIsActive =
      family.pyMembers.any memberIsActive := by
    rw [Bool.eq_iff_iff]
    simp only [familyInScope, List.any_map, List.any_eq_true, List.mem_filter,
      Function.comp_apply]
    constructor
    · rintro ⟨member, ⟨isMember, _⟩, active⟩
      exact ⟨member, isMember, active⟩
    · rintro ⟨member, isMember, active⟩
      exact ⟨member, ⟨isMember, by simp [outOfScope_of_active active]⟩, active⟩
  simp only [familyIsActive, sameAny]
  rfl

theorem removesFamily_inScope
    {dataset : Dataset} (linked : Linked dataset) {family : Family}
    (isFamily : family ∈ dataset.families) :
    removesFamily flags orgId (familyInScope flags family) =
      !familyStays flags orgId dataset family := by
  have retained : (familyInScope flags family).pyMembers.any Member.pyActive =
      dataset.members.any fun member =>
        member.familyDuid = family.familyDuid && !outOfScope flags member := by
    simp only [familyInScope, linked.listed family isFamily, List.any_map, List.any_filter]
    congr 1
    funext member
    simp [Bool.and_comm]
  have parishioner : familyIsParishioner (familyInScope flags family) orgId =
      familyIsParishioner family orgId := rfl
  simp only [removesFamily, familyStays, retained, familyIsActive_inScope, parishioner]
  simp [Bool.not_and, Bool.not_or, Bool.or_assoc]

/-- A linked Family under this id goes. -/
def FamilyGoes (flags : Flags) (orgId : Int) (linked : Dataset) (familyId : Int) : Prop :=
  ∃ family ∈ linked.families, family.familyDuid = familyId ∧
    familyStays flags orgId linked family = false

theorem mem_goneFamilies_ids {dataset : Dataset} (linked : Linked dataset) (familyId : Int) :
    familyId ∈ (goneFamilies flags orgId dataset).map (fun family => family.familyDuid) ↔
      FamilyGoes flags orgId dataset familyId := by
  simp only [goneFamilies, inScope_families linked, List.mem_map, List.mem_filter, FamilyGoes]
  constructor
  · rintro ⟨_, ⟨⟨family, isFamily, rfl⟩, removed⟩, rfl⟩
    rw [removesFamily_inScope linked isFamily] at removed
    exact ⟨family, isFamily, rfl, by simpa using removed⟩
  · rintro ⟨family, isFamily, rfl, goes⟩
    refine ⟨familyInScope flags family, ⟨⟨family, isFamily, rfl⟩, ?_⟩, rfl⟩
    rw [removesFamily_inScope linked isFamily, goes]
    rfl

/-- The second pass takes a Member in scope exactly with its Family. -/
theorem mem_goneMembers
    {dataset : Dataset} (linked : Linked dataset) {member : Member}
    (isMember : member ∈ (inScope flags dataset).members) :
    (member.memberDuid ∈ (goneFamilies flags orgId dataset).flatMap fun family =>
        family.pyMembers.map fun item => item.memberDuid) ↔
      FamilyGoes flags orgId dataset member.familyDuid := by
  have between := inScope_linked flags linked
  rw [← mem_goneFamilies_ids linked]
  simp only [List.mem_flatMap, List.mem_map]
  constructor
  · rintro ⟨family, isGone, item, isItem, same⟩
    have listed := (between.mem_pyMembers (List.mem_filter.mp isGone).1).mp isItem
    have equal := between.member_eq listed.1 isMember same
    exact ⟨family, isGone, by rw [← equal, listed.2]⟩
  · rintro ⟨family, isGone, same⟩
    exact ⟨family, isGone, member,
      (between.mem_pyMembers (List.mem_filter.mp isGone).1).mpr ⟨isMember, same.symm⟩, rfl⟩

/-! ## What the filter leaves -/

theorem mem_filtered_families
    {dataset : Dataset} (linked : Linked dataset) (familyId : Int) :
    (∃ family ∈ (filterFamiliesAndMembers flags orgId dataset).families,
      family.familyDuid = familyId) ↔
      (∃ family ∈ dataset.families, family.familyDuid = familyId) ∧
        ¬FamilyGoes flags orgId dataset familyId := by
  rw [filterFamiliesAndMembers_eq linked]
  simp only [dropFamilies, List.mem_filter, mem_goneFamilies_ids linked,
    inScope_families linked, List.mem_map, decide_eq_true_eq]
  constructor
  · rintro ⟨_, ⟨⟨family, isFamily, rfl⟩, stays⟩, rfl⟩
    exact ⟨⟨family, isFamily, rfl⟩, stays⟩
  · rintro ⟨⟨family, isFamily, rfl⟩, stays⟩
    exact ⟨familyInScope flags family, ⟨⟨family, isFamily, rfl⟩, stays⟩, rfl⟩

theorem mem_filtered_members
    {dataset : Dataset} (linked : Linked dataset) {member : Member}
    (isMember : member ∈ dataset.members) :
    (∃ other ∈ (filterFamiliesAndMembers flags orgId dataset).members,
      other.memberDuid = member.memberDuid) ↔
      outOfScope flags member = false ∧
        ¬FamilyGoes flags orgId dataset member.familyDuid := by
  rw [filterFamiliesAndMembers_eq linked]
  simp only [dropFamilies, List.mem_filter, decide_eq_true_eq]
  constructor
  · rintro ⟨other, ⟨isOther, stays⟩, same⟩
    rw [mem_goneMembers linked isOther] at stays
    rw [inScope_members linked] at isOther
    obtain ⟨loaded, isLoaded, rfl⟩ := List.mem_map.mp isOther
    obtain ⟨loadedMember, scope⟩ := List.mem_filter.mp isLoaded
    have equal := linked.member_eq loadedMember isMember same
    subst equal
    exact ⟨by simpa using scope, stays⟩
  · rintro ⟨scope, stays⟩
    have isOther : ({ member with pyActive := true } : Member) ∈
        (inScope flags dataset).members := by
      rw [inScope_members linked]
      exact List.mem_map.mpr ⟨member, List.mem_filter.mpr ⟨isMember, by simp [scope]⟩, rfl⟩
    exact ⟨_, ⟨isOther, by rw [mem_goneMembers linked isOther]; exact stays⟩, rfl⟩

theorem familyRemoved_iff {dataset : Dataset} (linked : Linked dataset) (familyId : Int) :
    familyRemoved dataset (filterFamiliesAndMembers flags orgId dataset) familyId = true ↔
      FamilyGoes flags orgId dataset familyId := by
  have isThere := @mem_filtered_families flags orgId dataset linked familyId
  have isLoaded : FamilyGoes flags orgId dataset familyId →
      ∃ family ∈ dataset.families, family.familyDuid = familyId :=
    fun ⟨family, isFamily, same, _⟩ => ⟨family, isFamily, same⟩
  simp only [familyRemoved, Bool.and_eq_true, Bool.not_eq_true', List.any_eq_true,
    decide_eq_true_eq, ← Bool.not_eq_true, isThere]
  constructor
  · rintro ⟨loaded, absent⟩
    by_contra stays
    exact absent ⟨loaded, stays⟩
  · intro goes
    exact ⟨isLoaded goes, fun there => there.2 goes⟩

theorem memberRemoved_iff
    {dataset : Dataset} (linked : Linked dataset) {member : Member}
    (isMember : member ∈ dataset.members) :
    memberRemoved dataset (filterFamiliesAndMembers flags orgId dataset)
        member.memberDuid = true ↔
      outOfScope flags member = true ∨
        FamilyGoes flags orgId dataset member.familyDuid := by
  have isThere := @mem_filtered_members flags orgId dataset linked member isMember
  have isLoaded : ∃ other ∈ dataset.members, other.memberDuid = member.memberDuid :=
    ⟨member, isMember, rfl⟩
  simp only [memberRemoved, Bool.and_eq_true, Bool.not_eq_true', List.any_eq_true,
    decide_eq_true_eq, ← Bool.not_eq_true, isThere, isLoaded, true_and]
  tauto

/-- A membership is closed exactly when the rows taken out are those that dangle. -/
theorem groupsClosed_keep_iff
    {Row : Type} (namesRemoved wanted : Row → Bool) (groups : List (Group Row)) :
    List.Forall₂ (GroupClosed namesRemoved) groups (groups.map (Group.keep wanted)) ↔
      ∀ group ∈ groups, ∀ row ∈ group.membership, wanted row = !namesRemoved row := by
  rw [List.forall₂_map_right_iff, List.forall₂_same]
  apply forall₂_congr
  intro group _
  constructor
  · intro closed row isRow
    cases isWanted : wanted row with
    | true =>
        have stayed := closed.none_dangles row (List.mem_filter.mpr ⟨isRow, isWanted⟩)
        rw [stayed]
        rfl
    | false =>
        cases dangles : namesRemoved row with
        | true => rfl
        | false =>
            have kept := closed.others_stay.subset
              (List.mem_filter.mpr ⟨isRow, by simp [dangles]⟩)
            have wantedToo := (List.mem_filter.mp kept).2
            rw [isWanted] at wantedToo
            cases wantedToo
  · intro same
    have sameFilter : group.membership.filter wanted =
        group.membership.filter fun row => !namesRemoved row := List.filter_congr same
    refine ⟨rfl, List.filter_sublist, ?_, ?_⟩
    · intro row isRow
      simp only [Group.keep, sameFilter, List.mem_filter] at isRow
      simpa using isRow.2
    · simp only [Group.keep, sameFilter]
      exact List.Sublist.refl _

/-- The Member-scoped rows that both passes leave. -/
def rowLeft (flags : Flags) (orgId : Int) (linked : Dataset) (row : MemberRow) : Bool :=
  row.memberKey ∉ outOfScopeIds flags linked.members &&
    row.familyKey ∉ (goneFamilies flags orgId linked).map fun family => family.familyDuid

/-- A row left names a removed Member only if the Member went with a Family that the row
does not carry. -/
theorem rowLeft_eq_iff {dataset : Dataset} (linked : Linked dataset) (row : MemberRow) :
    rowLeft flags orgId dataset row =
        !(memberRemoved dataset (filterFamiliesAndMembers flags orgId dataset)
            row.memberKey ||
          familyRemoved dataset (filterFamiliesAndMembers flags orgId dataset)
            row.familyKey) ↔
      ∀ member ∈ dataset.members, ∀ family ∈ dataset.families,
        member.memberDuid = row.memberKey → outOfScope flags member = false →
        family.familyDuid = member.familyDuid →
        familyStays flags orgId dataset family = false →
        FamilyGoes flags orgId dataset row.familyKey := by
  have familyKey : row.familyKey ∈ (goneFamilies flags orgId dataset).map
      (fun family => family.familyDuid) ↔ FamilyGoes flags orgId dataset row.familyKey :=
    mem_goneFamilies_ids linked row.familyKey
  have removedFamily := @familyRemoved_iff flags orgId dataset linked row.familyKey
  by_cases gone : FamilyGoes flags orgId dataset row.familyKey
  · have isRemoved := removedFamily.mpr gone
    simp [rowLeft, familyKey.mpr gone, isRemoved, gone]
  · have isKept : familyRemoved dataset (filterFamiliesAndMembers flags orgId dataset)
        row.familyKey = false := by
      simpa using mt removedFamily.mp gone
    have isLeft : rowLeft flags orgId dataset row =
        decide (row.memberKey ∉ outOfScopeIds flags dataset.members) := by
      have absent := mt familyKey.mp gone
      simp only [rowLeft, absent, not_false_eq_true, decide_true, Bool.and_true]
    rw [isLeft, isKept, Bool.or_false]
    by_cases loaded : ∃ member ∈ dataset.members, member.memberDuid = row.memberKey
    · obtain ⟨member, isMember, same⟩ := loaded
      have removedMember := @memberRemoved_iff flags orgId dataset linked member isMember
      have out := linked.mem_outOfScopeIds flags isMember
      rw [same] at removedMember out
      have onlyMember : ∀ other ∈ dataset.members, other.memberDuid = row.memberKey →
          other = member := fun other isOther sameKey =>
        linked.member_eq isOther isMember (sameKey.trans same.symm)
      cases scope : outOfScope flags member with
      | true =>
          have isRemoved := removedMember.mpr (Or.inl scope)
          simp only [isRemoved, out.mpr scope, not_true_eq_false, decide_false, Bool.not_true,
            true_iff]
          intro other isOther _ _ sameKey otherScope
          rw [onlyMember other isOther sameKey, scope] at otherScope
          cases otherScope
      | false =>
          have inside : row.memberKey ∉ outOfScopeIds flags dataset.members := by
            simp [out, scope]
          simp only [inside, not_false_eq_true, decide_true]
          constructor
          · intro kept other isOther family isFamily sameKey _ sameFamily goes
            rw [onlyMember other isOther sameKey] at sameFamily
            have isRemoved := removedMember.mpr (Or.inr ⟨family, isFamily, sameFamily, goes⟩)
            rw [isRemoved] at kept
            cases kept
          · intro carries
            cases isRemoved : memberRemoved dataset
                (filterFamiliesAndMembers flags orgId dataset) row.memberKey with
            | false => rfl
            | true =>
                rcases removedMember.mp isRemoved with isOut | ⟨family, isFamily, sameId, goes⟩
                · rw [scope] at isOut
                  cases isOut
                · exact absurd (carries member isMember family isFamily same scope sameId goes)
                    gone
    · have unknown : memberRemoved dataset (filterFamiliesAndMembers flags orgId dataset)
          row.memberKey = false := by
        have noMember : (dataset.members.any fun member =>
            member.memberDuid = row.memberKey) = false := by
          simpa using loaded
        simp only [memberRemoved, noMember, Bool.false_and]
      have inside : row.memberKey ∉ outOfScopeIds flags dataset.members := by
        intro isOut
        obtain ⟨member, isMember, same⟩ := List.mem_map.mp isOut
        exact loaded ⟨member, (List.mem_filter.mp isMember).1, same⟩
      simp only [unknown, inside, not_false_eq_true, decide_true, Bool.not_false, true_iff]
      intro member isMember _ _ same
      exact absurd ⟨member, isMember, same⟩ loaded

/-! ## The closed dataset -/

theorem filtered_rows
    {dataset : Dataset} (linked : Linked dataset) :
    (filterFamiliesAndMembers flags orgId dataset).memberWorkgroupMemberships =
        dataset.memberWorkgroupMemberships.map (Group.keep (rowLeft flags orgId dataset)) ∧
      (filterFamiliesAndMembers flags orgId dataset).ministryTypeMemberships =
        dataset.ministryTypeMemberships.map (Group.keep (rowLeft flags orgId dataset)) ∧
      (filterFamiliesAndMembers flags orgId dataset).familyWorkgroupMemberships =
        dataset.familyWorkgroupMemberships.map (Group.keep fun row => row.familyKey ∉
          (goneFamilies flags orgId dataset).map fun family => family.familyDuid) := by
  rw [filterFamiliesAndMembers_eq linked]
  simp only [dropFamilies, inScope, dropMembers, activated, Dataset.changeMembers,
    List.map_map]
  refine ⟨?_, ?_, trivial⟩ <;>
  · apply List.map_congr_left
    intro group _
    exact keep_keep _ _ group

theorem filtered_members_in_order
    {dataset : Dataset} (linked : Linked dataset) :
    ((filterFamiliesAndMembers flags orgId dataset).members.map
      fun member => member.toMemberElement).Sublist
        (dataset.members.map fun member => member.toMemberElement) := by
  rw [filterFamiliesAndMembers_eq linked]
  have left : ((dropFamilies (goneFamilies flags orgId dataset)
      (inScope flags dataset)).members.map fun member => member.toMemberElement).Sublist
        ((inScope flags dataset).members.map fun member => member.toMemberElement) :=
    List.filter_sublist.map _
  apply left.trans
  rw [inScope_members linked, List.map_map]
  exact List.filter_sublist.map _

theorem filtered_families_in_order
    {dataset : Dataset} (linked : Linked dataset) :
    ((filterFamiliesAndMembers flags orgId dataset).families.map
      fun family => family.toFamilyElement).Sublist
        (dataset.families.map fun family => family.toFamilyElement) := by
  rw [filterFamiliesAndMembers_eq linked]
  have left : ((dropFamilies (goneFamilies flags orgId dataset)
      (inScope flags dataset)).families.map fun family => family.toFamilyElement).Sublist
        ((inScope flags dataset).families.map fun family => family.toFamilyElement) :=
    List.filter_sublist.map _
  apply left.trans
  rw [inScope_families linked, List.map_map]
  exact List.Sublist.refl _

theorem filtered_pyMembers
    {dataset : Dataset} (linked : Linked dataset) :
    ∀ family ∈ (filterFamiliesAndMembers flags orgId dataset).families,
      family.pyMembers = (filterFamiliesAndMembers flags orgId dataset).members.filter
        fun member => member.familyDuid = family.familyDuid := by
  rw [filterFamiliesAndMembers_eq linked]
  intro family isFamily
  obtain ⟨isBetween, stays⟩ := List.mem_filter.mp isFamily
  have notGone : ¬FamilyGoes flags orgId dataset family.familyDuid := by
    simpa only [decide_eq_true_eq, mem_goneFamilies_ids linked] using stays
  rw [(inScope_linked flags linked).listed family isBetween]
  simp only [dropFamilies, List.filter_filter]
  apply List.filter_congr
  intro member isMember
  by_cases same : member.familyDuid = family.familyDuid
  · have stillThere := mt (@mem_goneMembers flags orgId dataset linked member isMember).mp
      (by rwa [same])
    simp only [same, decide_true, stillThere, not_false_eq_true, Bool.and_self]
  · simp [same]

theorem filter_closed_iff {dataset : Dataset} (linked : Linked dataset) :
    Closed flags orgId dataset (filterFamiliesAndMembers flags orgId dataset) ↔
      RowsCarryFamily flags orgId dataset := by
  obtain ⟨memberRows, ministryRows, familyRows⟩ :=
    @filtered_rows flags orgId dataset linked
  have carries : RowsCarryFamily flags orgId dataset ↔
      ∀ group ∈ dataset.memberWorkgroupMemberships ++ dataset.ministryTypeMemberships,
        ∀ row ∈ group.membership, rowLeft flags orgId dataset row =
          !(memberRemoved dataset (filterFamiliesAndMembers flags orgId dataset)
              row.memberKey ||
            familyRemoved dataset (filterFamiliesAndMembers flags orgId dataset)
              row.familyKey) := by
    apply forall₂_congr
    intro group _
    apply forall₂_congr
    intro row _
    exact (rowLeft_eq_iff linked row).symm
  rw [carries]
  constructor
  · intro closed
    have workgroups := closed.member_workgroups
    have ministries := closed.ministries
    rw [memberRows, groupsClosed_keep_iff] at workgroups
    rw [ministryRows, groupsClosed_keep_iff] at ministries
    intro group isGroup
    rcases List.mem_append.mp isGroup with isWorkgroup | isMinistry
    · exact workgroups group isWorkgroup
    · exact ministries group isMinistry
  · intro rows
    refine ⟨?_, ?_, filtered_members_in_order linked, filtered_families_in_order linked,
      filtered_pyMembers linked, ?_, ?_, ?_⟩
    · intro member isMember
      rw [← Bool.not_eq_true, memberRemoved_iff linked isMember]
      simp only [not_or, Bool.not_eq_true]
      apply and_congr_right
      intro _
      constructor
      · intro stays family _ same
        rw [← Bool.not_eq_true, familyRemoved_iff linked, same]
        exact stays
      · rintro kept ⟨family, isFamily, same, goes⟩
        have isKept := kept family isFamily same
        rw [← Bool.not_eq_true, familyRemoved_iff linked] at isKept
        exact isKept ⟨family, isFamily, rfl, goes⟩
    · intro family isFamily
      rw [← Bool.not_eq_true, familyRemoved_iff linked]
      constructor
      · intro stays
        cases keeps : familyStays flags orgId dataset family with
        | true => rfl
        | false => exact absurd ⟨family, isFamily, rfl, keeps⟩ stays
      · rintro keeps ⟨other, isOther, same, goes⟩
        rw [linked.family_eq isOther isFamily same, keeps] at goes
        cases goes
    · rw [familyRows, groupsClosed_keep_iff]
      intro group _ row _
      rw [Bool.eq_iff_iff, decide_eq_true_eq, mem_goneFamilies_ids linked, Bool.not_eq_true',
        ← Bool.not_eq_true, familyRemoved_iff linked]
    · rw [memberRows, groupsClosed_keep_iff]
      exact fun group isGroup => rows group (List.mem_append_left _ isGroup)
    · rw [ministryRows, groupsClosed_keep_iff]
      exact fun group isGroup => rows group (List.mem_append_right _ isGroup)

/-- Filtering what was loaded leaves a closed dataset exactly when each row of a Member
who goes only with the Family carries the id of a Family that goes. -/
theorem loaded_dataset_closed_iff
    (flags : Flags) (orgId : Int) (elements : Elements) :
    Closed flags orgId (linkedDataset elements)
        (loadFamiliesAndMembers flags orgId elements) ↔
      RowsCarryFamily flags orgId (linkedDataset elements) :=
  filter_closed_iff (linkedDataset_linked elements)

/-- One active Member of a Family registered elsewhere, on a Ministry roster that names
no Family. -/
def rosterWithoutFamilies : Elements where
  families := [⟨1, none, none, some 8⟩]
  members := [⟨2, 1, some "Active".toList⟩]
  familyGroups := []
  familyWorkgroups := []
  memberWorkgroups := []
  ministryTypes := [⟨300, [⟨⟨none, none⟩, none, some 2⟩]⟩]

theorem roster_names_removed_member :
    ¬Closed ⟨true, true, false, false⟩ 7 (linkedDataset rosterWithoutFamilies)
      (loadFamiliesAndMembers ⟨true, true, false, false⟩ 7 rosterWithoutFamilies) := by
  intro closed
  have ministries := closed.ministries
  rw [show (linkedDataset rosterWithoutFamilies).ministryTypeMemberships =
      [⟨300, [⟨⟨⟨none, none⟩, none⟩, none, some 2, some 2⟩]⟩] from rfl,
    show (loadFamiliesAndMembers ⟨true, true, false, false⟩ 7
        rosterWithoutFamilies).ministryTypeMemberships =
      [⟨300, [⟨⟨⟨none, none⟩, none⟩, none, some 2, some 2⟩]⟩] from rfl] at ministries
  cases ministries with
  | cons readers _ =>
      have removed := readers.none_dangles _ List.mem_cons_self
      revert removed
      decide

end ParishKit.ParishSoft
