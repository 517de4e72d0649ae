import ParishKit.ParishSoft.Dataset

/-!
# The passes of the filter

Each pass over the linked dataset removes what one test names, and nothing else.
-/

namespace ParishKit.ParishSoft

open ParishKit.Lib

/-! ## The linked dataset -/

/-- The dataset the filter is given. -/
def linkedDataset (elements : Elements) : Dataset :=
  linkFamilyGroups elements.familyGroups (linkFamiliesAndMembers (load elements))

/-- Each Family lists its Members in load order, and each Member refers to its Family. -/
structure Linked (dataset : Dataset) : Prop where
  members_distinct : (dataset.members.map fun member => member.memberDuid).Nodup
  families_distinct : (dataset.families.map fun family => family.familyDuid).Nodup
  listed : ∀ family ∈ dataset.families, family.pyMembers =
    dataset.members.filter fun member => member.familyDuid = family.familyDuid
  refers : ∀ member ∈ dataset.members, ∀ family ∈ dataset.families,
    member.familyDuid = family.familyDuid → member.pyFamily = some family.familyDuid

theorem foldl_appendMember (families : List Family) (members : List Member) :
    members.foldl appendMember families = families.map fun family =>
      { family with
        pyMembers := family.pyMembers ++
          members.filter fun member => member.familyDuid = family.familyDuid } := by
  induction members generalizing families with
  | nil => simp
  | cons member members inductionHypothesis =>
      rw [List.foldl_cons, inductionHypothesis, appendMember, List.map_map]
      apply List.map_congr_left
      intro family _
      by_cases same : family.familyDuid = member.familyDuid
      · simp [same]
      · simp [same, Ne.symm same]

theorem linkMember_pyFamily
    {families : List Family} {family : Family} (member : Member)
    (listed : family ∈ families) (same : member.familyDuid = family.familyDuid) :
    (linkMember families member).pyFamily = some family.familyDuid := by
  simp only [linkMember, Option.map_eq_some_iff]
  cases found : families.find? fun other => other.familyDuid == member.familyDuid with
  | none =>
      have absent := List.find?_eq_none.mp found family listed
      simp [same] at absent
  | some other =>
      have matched := List.find?_some found
      exact ⟨other, rfl, by simpa [same] using matched⟩

theorem linkFamiliesAndMembers_linked
    {dataset : Dataset}
    (membersDistinct : (dataset.members.map fun member => member.memberDuid).Nodup)
    (familiesDistinct : (dataset.families.map fun family => family.familyDuid).Nodup) :
    Linked (linkFamiliesAndMembers dataset) := by
  have isFamilies := foldl_appendMember
    (dataset.families.map fun family => { family with pyMembers := [] })
    (dataset.members.map
      (linkMember (dataset.families.map fun family => { family with pyMembers := [] })))
  refine ⟨?_, ?_, ?_, ?_⟩
  · simpa [linkFamiliesAndMembers, Function.comp_def, linkMember] using membersDistinct
  · simp only [linkFamiliesAndMembers, isFamilies]
    simpa [Function.comp_def] using familiesDistinct
  · intro family isFamily
    simp only [linkFamiliesAndMembers, isFamilies, List.map_map] at isFamily ⊢
    obtain ⟨loaded, _, rfl⟩ := List.mem_map.mp isFamily
    simp
  · intro member isMember family isFamily same
    simp only [linkFamiliesAndMembers, isFamilies] at isMember isFamily
    obtain ⟨loaded, _, rfl⟩ := List.mem_map.mp isMember
    obtain ⟨reset, isReset, rfl⟩ := List.mem_map.mp isFamily
    have referred := linkMember_pyFamily loaded isReset same
    exact referred

theorem linkFamilyGroups_linked
    {groups : List (Int × Text)} {dataset : Dataset} (linked : Linked dataset) :
    Linked (linkFamilyGroups groups dataset) := by
  have changed : ∀ family ∈ (linkFamilyGroups groups dataset).families,
      ∃ before ∈ dataset.families, family.familyDuid = before.familyDuid ∧
        family.pyMembers = before.pyMembers := by
    intro family isFamily
    obtain ⟨before, isBefore, rfl⟩ := List.mem_map.mp isFamily
    refine ⟨before, isBefore, ?_⟩
    split <;> simp
  refine ⟨linked.members_distinct, ?_, ?_, ?_⟩
  · have sameKeys : (linkFamilyGroups groups dataset).families.map
        (fun family => family.familyDuid) =
        dataset.families.map fun family => family.familyDuid := by
      simp only [linkFamilyGroups, List.map_map]
      apply List.map_congr_left
      intro family _
      simp only [Function.comp_apply]
      split <;> rfl
    rw [sameKeys]
    exact linked.families_distinct
  · intro family isFamily
    obtain ⟨before, isBefore, sameKey, sameMembers⟩ := changed family isFamily
    rw [sameMembers, sameKey]
    exact linked.listed before isBefore
  · intro member isMember family isFamily same
    obtain ⟨before, isBefore, sameKey, _⟩ := changed family isFamily
    rw [sameKey] at same ⊢
    exact linked.refers member isMember before isBefore same

theorem linkedDataset_linked (elements : Elements) : Linked (linkedDataset elements) := by
  apply linkFamilyGroups_linked
  apply linkFamiliesAndMembers_linked
  · simpa [load, Function.comp_def, loadMember] using
      recordsByKey_nodup MemberElement.memberDuid elements.members
  · simpa [load, Function.comp_def, loadFamily] using
      recordsByKey_nodup FamilyElement.familyDuid elements.families

/-! ## The first pass -/

@[simp]
theorem keep_keep {Row : Type} (first second : Row → Bool) (group : Group Row) :
    (group.keep first).keep second = group.keep fun row => first row && second row := by
  simp [Group.keep, List.filter_filter, Bool.and_comm]

@[simp]
theorem keep_all {Row : Type} : Group.keep (fun _ : Row => true) = id := by
  funext group
  simp [Group.keep]

/-- The dataset without the Members of these ids. -/
def dropMembers (out : List Int) (dataset : Dataset) : Dataset where
  families := dataset.families.map fun family =>
    { family with pyMembers := family.pyMembers.filter fun item => item.memberDuid ∉ out }
  members := dataset.members.filter fun member => member.memberDuid ∉ out
  familyWorkgroupMemberships := dataset.familyWorkgroupMemberships
  memberWorkgroupMemberships := dataset.memberWorkgroupMemberships.map
    (Group.keep fun row => row.memberKey ∉ out)
  ministryTypeMemberships := dataset.ministryTypeMemberships.map
    (Group.keep fun row => row.memberKey ∉ out)

theorem dropMembers_nil (dataset : Dataset) : dropMembers [] dataset = dataset := by
  simp [dropMembers]

theorem dropMembers_dropMembers (first second : List Int) (dataset : Dataset) :
    dropMembers second (dropMembers first dataset) =
      dropMembers (first ++ second) dataset := by
  simp [dropMembers, List.filter_filter, Bool.and_comm]

theorem filter_map_setActive (memberId : Int) (active : Bool) (members : List Member) :
    (members.map (setActive memberId active)).filter
        (fun member => member.memberDuid ≠ memberId) =
      members.filter fun member => member.memberDuid ≠ memberId := by
  induction members with
  | nil => rfl
  | cons member members inductionHypothesis =>
      by_cases same : member.memberDuid = memberId
      · simpa [setActive, same] using inductionHypothesis
      · simpa [setActive, same] using inductionHypothesis

/-- A Member is listed by no Family but the one it refers to. -/
def ListedOnlyWhereReferred (member : Member) (dataset : Dataset) : Prop :=
  ∀ family ∈ dataset.families, ∀ item ∈ family.pyMembers,
    item.memberDuid = member.memberDuid → member.pyFamily = some family.familyDuid

theorem ListedOnlyWhereReferred.dropMembers
    {member : Member} {dataset : Dataset} (only : ListedOnlyWhereReferred member dataset)
    (out : List Int) : ListedOnlyWhereReferred member (dropMembers out dataset) := by
  intro family isFamily item isItem same
  obtain ⟨before, isBefore, rfl⟩ := List.mem_map.mp isFamily
  exact only before isBefore item (List.mem_filter.mp isItem).1 same

theorem detached_families
    {member : Member} {dataset : Dataset} (only : ListedOnlyWhereReferred member dataset) :
    (detachMember member
        (dataset.changeMembers (setActive member.memberDuid false))).families =
      dataset.families.map fun family =>
        { family with
          pyMembers := family.pyMembers.filter fun item =>
            item.memberDuid ≠ member.memberDuid } := by
  have absent : ∀ family ∈ dataset.families, member.pyFamily ≠ some family.familyDuid →
      ∀ item ∈ family.pyMembers, item.memberDuid ≠ member.memberDuid :=
    fun family isFamily other item isItem same => other (only family isFamily item isItem same)
  -- A list without the Member is as it was, active or not.
  have untouched : ∀ family ∈ dataset.families, member.pyFamily ≠ some family.familyDuid →
      family.pyMembers.map (setActive member.memberDuid false) =
        family.pyMembers.filter fun item => item.memberDuid ≠ member.memberDuid := by
    intro family isFamily other
    have unlisted := absent family isFamily other
    rw [List.filter_eq_self.mpr (by simpa using unlisted)]
    calc family.pyMembers.map (setActive member.memberDuid false)
        = family.pyMembers.map id :=
          List.map_congr_left fun item isItem => if_neg (unlisted item isItem)
      _ = family.pyMembers := List.map_id _
  cases referred : member.pyFamily with
  | none =>
      simp only [detachMember, referred, Dataset.changeMembers]
      apply List.map_congr_left
      intro family isFamily
      rw [untouched family isFamily (by simp [referred])]
  | some familyDuid =>
      simp only [detachMember, referred, Dataset.changeMembers, List.map_map]
      apply List.map_congr_left
      intro family isFamily
      by_cases same : family.familyDuid = familyDuid
      · simp only [Function.comp_apply, if_pos same]
        rw [filter_map_setActive]
      · have other : member.pyFamily ≠ some family.familyDuid := by
          rw [referred]
          exact fun equal => same (Option.some.inj equal).symm
        simp only [Function.comp_apply, if_neg same]
        rw [untouched family isFamily other]

theorem filterMember_eq
    {flags : Flags} {member : Member} {dataset : Dataset}
    (only : ListedOnlyWhereReferred member dataset) :
    filterMember flags dataset member =
      dropMembers (if outOfScope flags member then [member.memberDuid] else []) dataset := by
  by_cases out : outOfScope flags member = true
  · have families := detached_families only
    have rest : ∀ changed : Dataset,
        (detachMember member changed).members = changed.members ∧
        (detachMember member changed).familyWorkgroupMemberships =
          changed.familyWorkgroupMemberships ∧
        (detachMember member changed).memberWorkgroupMemberships =
          changed.memberWorkgroupMemberships ∧
        (detachMember member changed).ministryTypeMemberships =
          changed.ministryTypeMemberships := by
      intro changed
      unfold detachMember
      split <;> simp
    obtain ⟨members, familyRows, memberRows, ministryRows⟩ :=
      rest (dataset.changeMembers (setActive member.memberDuid false))
    simp only [filterMember, if_pos out, removeMembershipsForMember, dropMembers, families,
      members, familyRows, memberRows, ministryRows]
    simp only [Dataset.changeMembers, filter_map_setActive, List.mem_singleton, ne_eq]
  · simp only [filterMember, if_neg out, dropMembers_nil]

/-- The ids of the Members out of scope. -/
def outOfScopeIds (flags : Flags) (members : List Member) : List Int :=
  (members.filter (outOfScope flags)).map fun member => member.memberDuid

theorem foldl_filterMember
    (flags : Flags) (members : List Member) {dataset : Dataset}
    (only : ∀ member ∈ members, ListedOnlyWhereReferred member dataset) :
    members.foldl (filterMember flags) dataset =
      dropMembers (outOfScopeIds flags members) dataset := by
  induction members generalizing dataset with
  | nil => exact (dropMembers_nil dataset).symm
  | cons member members inductionHypothesis =>
      have first := only member List.mem_cons_self
      rw [List.foldl_cons, filterMember_eq first,
        inductionHypothesis fun other isOther =>
          (only other (List.mem_cons_of_mem _ isOther)).dropMembers _,
        dropMembers_dropMembers]
      congr 1
      by_cases out : outOfScope flags member = true <;> simp [outOfScopeIds, out]

/-! ## The second pass -/

/-- The dataset without these Families, and without the Members they list. -/
def dropFamilies (gone : List Family) (dataset : Dataset) : Dataset where
  families := dataset.families.filter fun family =>
    family.familyDuid ∉ gone.map fun other => other.familyDuid
  members := dataset.members.filter fun member =>
    member.memberDuid ∉ gone.flatMap fun family =>
      family.pyMembers.map fun item => item.memberDuid
  familyWorkgroupMemberships := dataset.familyWorkgroupMemberships.map
    (Group.keep fun row => row.familyKey ∉ gone.map fun family => family.familyDuid)
  memberWorkgroupMemberships := dataset.memberWorkgroupMemberships.map
    (Group.keep fun row => row.familyKey ∉ gone.map fun family => family.familyDuid)
  ministryTypeMemberships := dataset.ministryTypeMemberships.map
    (Group.keep fun row => row.familyKey ∉ gone.map fun family => family.familyDuid)

theorem dropFamilies_nil (dataset : Dataset) : dropFamilies [] dataset = dataset := by
  simp [dropFamilies]

theorem dropFamilies_dropFamilies (first second : List Family) (dataset : Dataset) :
    dropFamilies second (dropFamilies first dataset) =
      dropFamilies (first ++ second) dataset := by
  simp [dropFamilies, List.filter_filter, Bool.and_comm]

theorem filterFamily_eq (flags : Flags) (orgId : Int) (dataset : Dataset) (family : Family) :
    filterFamily flags orgId dataset family =
      dropFamilies (if removesFamily flags orgId family then [family] else []) dataset := by
  by_cases removed : removesFamily flags orgId family = true
  · have popped : (family.pyMembers.foldl
        (fun members member => members.filter fun other =>
          other.memberDuid ≠ member.memberDuid) dataset.members) =
        dataset.members.filter fun member =>
          member.memberDuid ∉ family.pyMembers.map fun item => item.memberDuid := by
      rw [← foldl_filter_key fun member : Member => member.memberDuid, List.foldl_map]
    simp only [filterFamily, if_pos removed, removeMembershipsForFamily, dropFamilies, popped]
    simp
  · simp only [filterFamily, if_neg removed, dropFamilies_nil]

theorem foldl_filterFamily
    (flags : Flags) (orgId : Int) (families : List Family) (dataset : Dataset) :
    families.foldl (filterFamily flags orgId) dataset =
      dropFamilies (families.filter (removesFamily flags orgId)) dataset := by
  induction families generalizing dataset with
  | nil => exact (dropFamilies_nil dataset).symm
  | cons family families inductionHypothesis =>
      rw [List.foldl_cons, filterFamily_eq, inductionHypothesis, dropFamilies_dropFamilies]
      congr 1
      by_cases removed : removesFamily flags orgId family = true <;> simp [removed]

end ParishKit.ParishSoft
