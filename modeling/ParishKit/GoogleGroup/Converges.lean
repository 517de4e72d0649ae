import ParishKit.GoogleGroup.Actions

/-!
# A sync in one run

Applying the computed actions leaves each desired address once, in its role, and
nothing more to do.
-/

namespace ParishKit.GoogleGroup

open ParishKit.Lib
open ParishKit.ParishSoft (UpperCase)
open ParishKit.Responses (Unicode LawfulUnicode strip)

variable [Unicode] [UpperCase] {googleMailDomains : List Text}

/-! ## Matching -/

/-- The role a current member is compared by. -/
def currentRole (member : GroupMember) : Text :=
  UpperCase.upper (normalizedGroupMember member).role

omit [Unicode] [UpperCase] in
theorem email_of_key_nil {member : GroupMember} (blank : member.key = []) :
    member.email = [] := by
  unfold GroupMember.key orText at blank
  split at blank
  · exact blank
  · split at blank
    · exact blank
    · contradiction

theorem changeId_eq (member : GroupMember) :
    orText (normalizedGroupMember member).id (normalizedGroupMember member).email =
      member.key := by
  unfold normalizedGroupMember
  simp only [orText]
  split
  · next blank =>
      rw [blank, email_of_key_nil blank]
      exact UpperCase.lower_nil
  · rfl

omit [UpperCase] in
theorem email_of_normal_nil
    {email : Text} (lowered : Unicode.lower email = email)
    (blank : normalizeEmail googleMailDomains email = []) : email = [] := by
  unfold normalizeEmail at blank
  split at blank
  · exact lowered.symm.trans blank
  · generalize splitOnce '@' (Unicode.lower email) = parts at blank
    have ended : ∀ front : Text, front ++ '@' :: parts.2 ≠ [] := fun front =>
      List.append_ne_nil_of_right_ne_nil _ (List.cons_ne_nil _ _)
    simp only at blank
    split at blank
    · exact absurd blank (ended _)
    · exact absurd blank (ended _)

/-- A role change acts on the matched member, also when nothing names it. -/
theorem changeTarget
    {member : GroupMember} {desired : DesiredMember}
    (lowered : Unicode.lower desired.email = desired.email)
    (same : addressKey googleMailDomains member.email =
      normalizeEmail googleMailDomains desired.email) :
    orText (some member.key) desired.email = member.key := by
  by_cases blank : member.key = []
  · have normalBlank : normalizeEmail googleMailDomains desired.email = [] := by
      rw [← same, addressKey, email_of_key_nil blank, UpperCase.lower_nil]
      simp [normalizeEmail, UpperCase.lower_nil]
    simp [orText, blank, email_of_normal_nil lowered normalBlank]
  · simp [orText, blank]

theorem matchIndex_some
    {members : List GroupMember} {desired : DesiredMember} {found : NormalizedMember}
    {index : Nat}
    (isMatch : matchIndex googleMailDomains (normalizedGroupMembers members) desired =
      some (found, index)) :
    ∃ member, members[index]? = some member ∧ found = normalizedGroupMember member ∧
      addressKey googleMailDomains member.email =
        normalizeEmail googleMailDomains desired.email := by
  have matched := List.find?_some isMatch
  have isMember := List.mem_of_find?_eq_some isMatch
  rw [List.mem_zipIdx_iff_getElem?, normalizedGroupMembers, List.getElem?_map,
    Option.map_eq_some_iff] at isMember
  obtain ⟨member, atIndex, rfl⟩ := isMember
  simp only [compareEmail, beq_iff_eq] at matched
  exact ⟨member, atIndex, rfl, matched.symm⟩

theorem matchIndex_none
    {members : List GroupMember} {desired : DesiredMember}
    (noMatch : matchIndex googleMailDomains (normalizedGroupMembers members) desired = none) :
    ∀ member ∈ members, addressKey googleMailDomains member.email ≠
      normalizeEmail googleMailDomains desired.email := by
  intro member isMember same
  obtain ⟨index, inBounds, atIndex⟩ := List.mem_iff_getElem.mp isMember
  have paired : (normalizedGroupMember member, index) ∈
      (normalizedGroupMembers members).zipIdx := by
    rw [List.mem_zipIdx_iff_getElem?, normalizedGroupMembers, List.getElem?_map,
      List.getElem?_eq_getElem inBounds, atIndex]
    rfl
  have differs := List.find?_eq_none.mp noMatch _ paired
  simp only [compareEmail, beq_iff_eq] at differs
  exact differs same.symm

theorem matchIndex_unique
    {members : List GroupMember} {desired : DesiredMember} {member : GroupMember} {index : Nat}
    (distinct : (members.map fun one => addressKey googleMailDomains one.email).Nodup)
    (atIndex : members[index]? = some member)
    (same : addressKey googleMailDomains member.email =
      normalizeEmail googleMailDomains desired.email) :
    matchIndex googleMailDomains (normalizedGroupMembers members) desired =
      some (normalizedGroupMember member, index) := by
  cases isMatch : matchIndex googleMailDomains (normalizedGroupMembers members) desired with
  | none =>
      exact absurd same (matchIndex_none isMatch member (List.mem_of_getElem? atIndex))
  | some found =>
      obtain ⟨other, atOther, isFound, sameOther⟩ := matchIndex_some isMatch
      have sameIndex : index = found.2 := by
        have inBounds : index < (members.map fun one =>
            addressKey googleMailDomains one.email).length := by
          rw [List.length_map]
          exact (List.getElem?_eq_some_iff.mp atIndex).1
        refine (List.getElem?_inj inBounds distinct).mp ?_
        rw [List.getElem?_map, List.getElem?_map, atIndex, atOther]
        simp [same, sameOther]
      rw [← sameIndex, atIndex] at atOther
      obtain rfl := Option.some.inj atOther
      rw [sameIndex, ← isFound]

/-! ## Computing -/

/-- The action of one desired member, if any. -/
def actionOf (googleMailDomains : List Text) (groupMembers : List NormalizedMember)
    (desired : DesiredMember) : List SyncAction :=
  match matchIndex googleMailDomains groupMembers desired with
  | none => [⟨.add, desired.email, some (desiredRole desired), none⟩]
  | some (groupMember, _) =>
      if UpperCase.upper groupMember.role ≠ desiredRole desired then
        [⟨.changeRole, desired.email, some (desiredRole desired),
          some (orText groupMember.id groupMember.email)⟩]
      else []

/-- The indexes of the current members that stay. -/
def matchedIndexes (googleMailDomains : List Text) (groupMembers : List NormalizedMember)
    (desired : List DesiredMember) : List Nat :=
  desired.filterMap fun one =>
    (matchIndex googleMailDomains groupMembers one).map Prod.snd

theorem foldl_compareDesired
    (groupMembers : List NormalizedMember) (desired : List DesiredMember)
    (state : List SyncAction × List Nat) :
    desired.foldl (compareDesired googleMailDomains groupMembers) state =
      (state.1 ++ desired.flatMap (actionOf googleMailDomains groupMembers),
        state.2 ++ matchedIndexes googleMailDomains groupMembers desired) := by
  induction desired generalizing state with
  | nil => simp [matchedIndexes]
  | cons one desired inductionHypothesis =>
      rw [List.foldl_cons, inductionHypothesis, List.flatMap_cons]
      unfold compareDesired actionOf matchedIndexes
      cases isMatch : matchIndex googleMailDomains groupMembers one with
      | none => simp [isMatch]
      | some found =>
          by_cases sameRole : UpperCase.upper found.1.role = desiredRole one
          · simp [isMatch, sameRole]
          · simp [isMatch, sameRole]

/-- The current members that no desired member matches are deleted. -/
def deletedKeys (googleMailDomains : List Text) (members : List GroupMember)
    (desired : List DesiredMember) : List Text :=
  ((normalizedGroupMembers members).zipIdx.filter fun member =>
    member.2 ∉ matchedIndexes googleMailDomains (normalizedGroupMembers members) desired).map
      fun member => orText member.1.id member.1.email

theorem computeActions_eq (groupMembers : List NormalizedMember) (desired : List DesiredMember) :
    computeActions googleMailDomains desired groupMembers =
      desired.flatMap (actionOf googleMailDomains groupMembers) ++
        (groupMembers.zipIdx.filter fun member =>
          member.2 ∉ matchedIndexes googleMailDomains groupMembers desired).map fun member =>
            ⟨.delete, member.1.email, none, some (orText member.1.id member.1.email)⟩ := by
  simp [computeActions, foldl_compareDesired]

theorem actionOf_not_delete
    {groupMembers : List NormalizedMember} {desired : DesiredMember} {action : SyncAction}
    (isAction : action ∈ actionOf googleMailDomains groupMembers desired) :
    action.action ≠ .delete := by
  unfold actionOf at isAction
  split at isAction
  · simp_all
  · split at isAction
    · simp_all
    · cases isAction

omit [Unicode] [UpperCase] in
theorem orText_orText (first : Option Text) (second : Text) :
    orText (some (orText first second)) second = orText first second := by
  cases first with
  | none => exact ite_self second
  | some text =>
      by_cases blank : text = []
      · simp only [orText, if_pos blank]
        exact ite_self second
      · simp [orText, blank]

omit [Unicode] [UpperCase] in
theorem foldl_deletes
    (directory : Directory) (members : List GroupMember)
    (removed : List (NormalizedMember × Nat)) :
    (removed.map fun member =>
      (⟨.delete, member.1.email, none, some (orText member.1.id member.1.email)⟩ :
        SyncAction)).foldl (applyAction directory) members =
      members.filter fun member =>
        member.key ∉ removed.map fun one => orText one.1.id one.1.email := by
  have asFilter := foldl_filter_key GroupMember.key members
    (removed.map fun one => orText one.1.id one.1.email)
  rw [List.foldl_map] at asFilter ⊢
  simp only [applyAction, deleteGroupMember, orText_orText]
  refine asFilter.trans (List.filter_congr fun member _ => ?_)
  rw [decide_eq_decide]

/-- The deletes leave the members that are matched; the other actions follow. -/
theorem applyActions_computeActions
    (directory : Directory) (members : List GroupMember) (desired : List DesiredMember) :
    applyActions directory members
        (computeActions googleMailDomains desired (normalizedGroupMembers members)) =
      (desired.flatMap (actionOf googleMailDomains (normalizedGroupMembers members))).foldl
        (applyAction directory)
        (members.filter fun member =>
          member.key ∉ deletedKeys googleMailDomains members desired) := by
  have others : ∀ action ∈ desired.flatMap
      (actionOf googleMailDomains (normalizedGroupMembers members)),
      action.action ≠ .delete := by
    intro action isAction
    obtain ⟨one, _, isOne⟩ := List.mem_flatMap.mp isAction
    exact actionOf_not_delete isOne
  have noDeletes : (desired.flatMap
      (actionOf googleMailDomains (normalizedGroupMembers members))).filter
        (fun action => decide (action.action = .delete)) = [] :=
    List.filter_eq_nil_iff.mpr fun action isAction => by simpa using others action isAction
  have allOthers : (desired.flatMap
      (actionOf googleMailDomains (normalizedGroupMembers members))).filter
        (fun action => decide (action.action ≠ .delete)) = _ :=
    List.filter_eq_self.mpr fun action isAction => by simpa using others action isAction
  simp only [applyActions, computeActions_eq, List.filter_append, noDeletes, allOthers,
    List.filter_map, Function.comp_def, decide_true, ne_eq, not_true_eq_false, decide_false,
    List.filter_true, List.filter_false, List.map_nil, List.nil_append, List.append_nil,
    List.foldl_append, foldl_deletes]
  rfl

/-! ## The members that stay -/

theorem mem_deletedKeys
    {members : List GroupMember} (distinct : (members.map GroupMember.key).Nodup)
    (desired : List DesiredMember) {member : GroupMember} {index : Nat}
    (atIndex : members[index]? = some member) :
    member.key ∈ deletedKeys googleMailDomains members desired ↔
      index ∉ matchedIndexes googleMailDomains (normalizedGroupMembers members) desired := by
  have paired : ∀ {other : GroupMember} {place : Nat}, members[place]? = some other →
      (normalizedGroupMember other, place) ∈ (normalizedGroupMembers members).zipIdx := by
    intro other place atPlace
    rw [List.mem_zipIdx_iff_getElem?, normalizedGroupMembers, List.getElem?_map, atPlace]
    rfl
  simp only [deletedKeys, List.mem_map, List.mem_filter, decide_eq_true_eq]
  constructor
  · rintro ⟨⟨found, place⟩, ⟨isFound, unmatched⟩, same⟩
    rw [List.mem_zipIdx_iff_getElem?, normalizedGroupMembers, List.getElem?_map,
      Option.map_eq_some_iff] at isFound
    obtain ⟨other, atPlace, rfl⟩ := isFound
    rw [changeId_eq] at same
    have samePlace : index = place := by
      have inBounds : index < (members.map GroupMember.key).length := by
        rw [List.length_map]
        exact (List.getElem?_eq_some_iff.mp atIndex).1
      refine (List.getElem?_inj inBounds distinct).mp ?_
      rw [List.getElem?_map, List.getElem?_map, atIndex, atPlace]
      simp [same]
    rw [samePlace]
    exact unmatched
  · intro unmatched
    exact ⟨(normalizedGroupMember member, index), ⟨paired atIndex, unmatched⟩,
      changeId_eq member⟩

/-- A member stays exactly when a desired member's first match is that member. -/
theorem mem_staying
    (googleMailDomains : List Text) {members : List GroupMember} (distinct : (members.map GroupMember.key).Nodup)
    (desired : List DesiredMember) (member : GroupMember) :
    member ∈ (members.filter fun member =>
        member.key ∉ deletedKeys googleMailDomains members desired) ↔
      ∃ one ∈ desired, ∃ index, members[index]? = some member ∧
        matchIndex googleMailDomains (normalizedGroupMembers members) one =
          some (normalizedGroupMember member, index) := by
  simp only [List.mem_filter, decide_eq_true_eq]
  constructor
  · rintro ⟨isMember, stays⟩
    obtain ⟨index, inBounds, isAt⟩ := List.mem_iff_getElem.mp isMember
    have atIndex : members[index]? = some member := by
      rw [List.getElem?_eq_getElem inBounds, isAt]
    rw [mem_deletedKeys distinct desired atIndex, not_not, matchedIndexes,
      List.mem_filterMap] at stays
    obtain ⟨one, isOne, isIndex⟩ := stays
    obtain ⟨⟨found, place⟩, isMatch, rfl⟩ := Option.map_eq_some_iff.mp isIndex
    obtain ⟨other, atPlace, rfl, _⟩ := matchIndex_some isMatch
    rw [atIndex] at atPlace
    obtain rfl := Option.some.inj atPlace
    exact ⟨one, isOne, place, atIndex, isMatch⟩
  · rintro ⟨one, isOne, index, atIndex, isMatch⟩
    refine ⟨List.mem_of_getElem? atIndex, ?_⟩
    rw [mem_deletedKeys distinct desired atIndex, not_not, matchedIndexes, List.mem_filterMap]
    exact ⟨one, isOne, by rw [isMatch]; rfl⟩

/-! ## Adding and changing -/

/-- What holds of the group while the desired members are gone through, with `members`
the group before the run. -/
structure Syncing (googleMailDomains : List Text) (members : List GroupMember)
    (done pending : List DesiredMember) (state : List GroupMember) : Prop where
  keys_distinct : (state.map GroupMember.key).Nodup
  addresses_distinct :
    (state.map fun member => addressKey googleMailDomains member.email).Nodup
  only_desired : ∀ member ∈ state, ∃ one ∈ done ++ pending,
    normalizeEmail googleMailDomains one.email = addressKey googleMailDomains member.email
  settled : ∀ one ∈ done, ∃ member ∈ state,
    addressKey googleMailDomains member.email = normalizeEmail googleMailDomains one.email ∧
      currentRole member = desiredRole one
  to_add : ∀ one ∈ pending,
    matchIndex googleMailDomains (normalizedGroupMembers members) one = none →
      ∀ member ∈ state, addressKey googleMailDomains member.email ≠
        normalizeEmail googleMailDomains one.email
  to_compare : ∀ one ∈ pending, ∀ found ∈
    matchIndex googleMailDomains (normalizedGroupMembers members) one,
      ∃ member ∈ state, addressKey googleMailDomains member.email =
          normalizeEmail googleMailDomains one.email ∧
        member.key = orText found.1.id found.1.email ∧
        currentRole member = UpperCase.upper found.1.role

theorem upper_role (desired : DesiredMember) :
    UpperCase.upper (UpperCase.upper (desiredRole desired)) = desiredRole desired := by
  rw [UpperCase.upper_upper]
  unfold desiredRole
  split
  · rw [UpperCase.upper_ascii _ (by simp [ownerRole])]
    rfl
  · rw [UpperCase.upper_ascii _ (by simp [memberRole])]
    rfl

omit [Unicode] [UpperCase] in
theorem orText_role (desired : DesiredMember) :
    orText (some (desiredRole desired)) memberRole = desiredRole desired := by
  unfold desiredRole
  split <;> rfl

theorem syncing_start
    {members : List GroupMember} {desired : List DesiredMember}
    (distinct : (members.map GroupMember.key).Nodup)
    (separate : (desired.map fun one => normalizeEmail googleMailDomains one.email).Nodup) :
    Syncing googleMailDomains members [] desired
      (members.filter fun member =>
        member.key ∉ deletedKeys googleMailDomains members desired) := by
  have staying := mem_staying googleMailDomains distinct desired
  constructor
  · exact distinct.sublist (List.filter_sublist.map _)
  · have distinctMembers : (members.filter fun member =>
        member.key ∉ deletedKeys googleMailDomains members desired).Nodup :=
      List.Nodup.filter _ (List.Nodup.of_map _ distinct)
    rw [List.nodup_map_iff_inj_on distinctMembers]
    intro left isLeft right isRight sameAddress
    obtain ⟨one, isOne, index, atIndex, isMatch⟩ := (staying left).mp isLeft
    obtain ⟨other, isOther, place, atPlace, isMatchToo⟩ := (staying right).mp isRight
    obtain ⟨_, atIndexToo, _, sameLeft⟩ := matchIndex_some isMatch
    obtain ⟨_, atPlaceToo, _, sameRight⟩ := matchIndex_some isMatchToo
    rw [atIndex] at atIndexToo
    rw [atPlace] at atPlaceToo
    obtain rfl := Option.some.inj atIndexToo
    obtain rfl := Option.some.inj atPlaceToo
    have sameDesired : one = other := List.inj_on_of_nodup_map separate isOne isOther
      (sameLeft.symm.trans (sameAddress.trans sameRight))
    rw [sameDesired, isMatchToo] at isMatch
    have samePlace : place = index := congrArg Prod.snd (Option.some.inj isMatch)
    rw [samePlace, atIndex] at atPlace
    exact Option.some.inj atPlace
  · intro member isMember
    obtain ⟨one, isOne, index, atIndex, isMatch⟩ := (staying member).mp isMember
    obtain ⟨other, atOther, _, same⟩ := matchIndex_some isMatch
    rw [atIndex] at atOther
    obtain rfl := Option.some.inj atOther
    exact ⟨one, isOne, same.symm⟩
  · intro one isOne
    cases isOne
  · intro one _ noMatch member isMember
    exact matchIndex_none noMatch member (List.mem_filter.mp isMember).1
  · rintro one isOne ⟨found, index⟩ isMatch
    obtain ⟨member, atIndex, rfl, same⟩ := matchIndex_some isMatch
    exact ⟨member, (staying member).mpr ⟨one, isOne, index, atIndex, isMatch⟩, same,
      (changeId_eq member).symm, rfl⟩

theorem Syncing.add
    [LawfulUnicode] {directory : Directory} {members state : List GroupMember}
    {done pending : List DesiredMember} {one : DesiredMember}
    (syncing : Syncing googleMailDomains members done (one :: pending) state)
    (separate : ((one :: pending).map fun other =>
      normalizeEmail googleMailDomains other.email).Nodup)
    (lowered : Unicode.lower one.email = one.email)
    (noMatch : matchIndex googleMailDomains (normalizedGroupMembers members) one = none) :
    Syncing googleMailDomains members (done ++ [one]) pending
      (insertGroupMember directory state one.email (desiredRole one)) := by
  have absent := syncing.to_add one List.mem_cons_self noMatch
  have newKey : GroupMember.key ⟨some (directory.newId state one.email), one.email,
      some (desiredRole one)⟩ = directory.newId state one.email :=
    if_neg (directory.newId_ne_nil state one.email)
  have newAddress : addressKey googleMailDomains one.email =
      normalizeEmail googleMailDomains one.email := by rw [addressKey, lowered]
  have others : ∀ other ∈ pending, normalizeEmail googleMailDomains other.email ≠
      normalizeEmail googleMailDomains one.email := by
    intro other isOther same
    rw [List.map_cons, List.nodup_cons] at separate
    exact separate.1 (same ▸ List.mem_map_of_mem isOther)
  unfold insertGroupMember
  constructor
  · rw [List.map_append, List.nodup_append]
    refine ⟨syncing.keys_distinct, by simp, ?_⟩
    intro key isKey last isLast
    simp only [List.map_cons, List.map_nil, List.mem_singleton, newKey] at isLast
    rw [isLast]
    exact fun same => directory.newId_fresh state one.email (same ▸ isKey)
  · rw [List.map_append, List.nodup_append]
    refine ⟨syncing.addresses_distinct, by simp, ?_⟩
    intro address isAddress last isLast
    simp only [List.map_cons, List.map_nil, List.mem_singleton, newAddress] at isLast
    obtain ⟨member, isMember, rfl⟩ := List.mem_map.mp isAddress
    rw [isLast]
    exact absent member isMember
  · intro member isMember
    rcases List.mem_append.mp isMember with before | isLast
    · simpa using syncing.only_desired member before
    · rw [List.mem_singleton.mp isLast]
      exact ⟨one, by simp, newAddress.symm⟩
  · intro other isOther
    rcases List.mem_append.mp isOther with before | isLast
    · obtain ⟨member, isMember, settled⟩ := syncing.settled other before
      exact ⟨member, List.mem_append_left _ isMember, settled⟩
    · rw [List.mem_singleton.mp isLast]
      exact ⟨_, List.mem_append_right _ List.mem_cons_self, newAddress, upper_role one⟩
  · intro other isOther noOther member isMember
    rcases List.mem_append.mp isMember with before | isLast
    · exact syncing.to_add other (List.mem_cons_of_mem _ isOther) noOther member before
    · rw [List.mem_singleton.mp isLast]
      exact fun same => others other isOther (same.symm.trans newAddress)
  · intro other isOther found isMatch
    obtain ⟨member, isMember, compared⟩ :=
      syncing.to_compare other (List.mem_cons_of_mem _ isOther) found isMatch
    exact ⟨member, List.mem_append_left _ isMember, compared⟩

/-- The member under an id, with another role. -/
def withRole (id role : Text) (member : GroupMember) : GroupMember :=
  if member.key = id then { member with role := some role } else member

omit [Unicode] [UpperCase] in
@[simp]
theorem withRole_email (id role : Text) (member : GroupMember) :
    (withRole id role member).email = member.email := by
  unfold withRole
  split <;> rfl

omit [Unicode] [UpperCase] in
@[simp]
theorem withRole_key (id role : Text) (member : GroupMember) :
    (withRole id role member).key = member.key := by
  unfold withRole
  split <;> rfl

theorem Syncing.changeRole
    {members state : List GroupMember} {done pending : List DesiredMember}
    {one : DesiredMember} {found : NormalizedMember × Nat}
    (syncing : Syncing googleMailDomains members done (one :: pending) state)
    (separate : ((done ++ one :: pending).map fun other =>
      normalizeEmail googleMailDomains other.email).Nodup)
    (isMatch : matchIndex googleMailDomains (normalizedGroupMembers members) one =
      some found) :
    Syncing googleMailDomains members (done ++ [one]) pending
      (updateGroupMemberRole state (orText found.1.id found.1.email) (desiredRole one)) := by
  obtain ⟨changed, isChanged, same, key, _⟩ :=
    syncing.to_compare one List.mem_cons_self found isMatch
  rw [← key]
  have asMap : updateGroupMemberRole state changed.key (desiredRole one) =
      state.map (withRole changed.key (desiredRole one)) := rfl
  -- Who has another address has another id, and keeps the role.
  have untouched : ∀ member ∈ state, ∀ other : DesiredMember,
      normalizeEmail googleMailDomains other.email ≠
        normalizeEmail googleMailDomains one.email →
      addressKey googleMailDomains member.email =
        normalizeEmail googleMailDomains other.email →
      withRole changed.key (desiredRole one) member = member := by
    intro member isMember other different sameOther
    refine if_neg fun sameKey => different ?_
    rw [← sameOther, List.inj_on_of_nodup_map syncing.keys_distinct isMember isChanged sameKey,
      same]
  have differs : ∀ other ∈ done ++ pending, normalizeEmail googleMailDomains other.email ≠
      normalizeEmail googleMailDomains one.email := by
    rw [List.map_append, List.map_cons, List.nodup_middle, List.nodup_cons,
      ← List.map_append] at separate
    exact fun other isOther sameOther =>
      separate.1 (sameOther ▸ List.mem_map_of_mem isOther)
  rw [asMap]
  constructor
  · simpa [Function.comp_def] using syncing.keys_distinct
  · simpa [Function.comp_def] using syncing.addresses_distinct
  · intro member isMember
    obtain ⟨before, isBefore, rfl⟩ := List.mem_map.mp isMember
    simpa using syncing.only_desired before isBefore
  · intro other isOther
    rcases List.mem_append.mp isOther with isDone | isLast
    · obtain ⟨member, isMember, sameOther, role⟩ := syncing.settled other isDone
      refine ⟨member, List.mem_map.mpr ⟨member, isMember, ?_⟩, sameOther, role⟩
      exact untouched member isMember other
        (differs other (List.mem_append_left _ isDone)) sameOther
    · rw [List.mem_singleton.mp isLast]
      refine ⟨_, List.mem_map_of_mem isChanged, by simpa using same, ?_⟩
      rw [withRole, if_pos rfl]
      exact upper_role one
  · intro other isOther noOther member isMember
    obtain ⟨before, isBefore, rfl⟩ := List.mem_map.mp isMember
    rw [withRole_email]
    exact syncing.to_add other (List.mem_cons_of_mem _ isOther) noOther before isBefore
  · intro other isOther otherFound isOtherMatch
    obtain ⟨member, isMember, sameOther, otherKey, role⟩ :=
      syncing.to_compare other (List.mem_cons_of_mem _ isOther) otherFound isOtherMatch
    refine ⟨member, List.mem_map.mpr ⟨member, isMember, ?_⟩, sameOther, otherKey, role⟩
    exact untouched member isMember other
      (differs other (List.mem_append_right _ isOther)) sameOther

theorem Syncing.keep
    {members state : List GroupMember} {done pending : List DesiredMember}
    {one : DesiredMember} {found : NormalizedMember × Nat}
    (syncing : Syncing googleMailDomains members done (one :: pending) state)
    (isMatch : matchIndex googleMailDomains (normalizedGroupMembers members) one =
      some found)
    (sameRole : UpperCase.upper found.1.role = desiredRole one) :
    Syncing googleMailDomains members (done ++ [one]) pending state := by
  obtain ⟨member, isMember, same, _, role⟩ :=
    syncing.to_compare one List.mem_cons_self found isMatch
  refine ⟨syncing.keys_distinct, syncing.addresses_distinct, ?_, ?_, ?_, ?_⟩
  · simpa using syncing.only_desired
  · intro other isOther
    rcases List.mem_append.mp isOther with before | isLast
    · exact syncing.settled other before
    · rw [List.mem_singleton.mp isLast]
      exact ⟨member, isMember, same, role.trans sameRole⟩
  · exact fun other isOther => syncing.to_add other (List.mem_cons_of_mem _ isOther)
  · exact fun other isOther => syncing.to_compare other (List.mem_cons_of_mem _ isOther)

theorem Syncing.step
    [LawfulUnicode] (directory : Directory) {members state : List GroupMember}
    {done pending : List DesiredMember} {one : DesiredMember}
    (syncing : Syncing googleMailDomains members done (one :: pending) state)
    (separate : ((done ++ one :: pending).map fun other =>
      normalizeEmail googleMailDomains other.email).Nodup)
    (lowered : Unicode.lower one.email = one.email) :
    Syncing googleMailDomains members (done ++ [one]) pending
      ((actionOf googleMailDomains (normalizedGroupMembers members) one).foldl
        (applyAction directory) state) := by
  unfold actionOf
  split
  · next noMatch =>
      rw [List.foldl_cons, List.foldl_nil, applyAction, orText_role]
      rw [List.map_append] at separate
      exact syncing.add (List.Nodup.of_append_right separate) lowered noMatch
  · next found index isMatch =>
      split
      · obtain ⟨member, _, same, key, _⟩ :=
          syncing.to_compare one List.mem_cons_self _ isMatch
        have target := changeTarget lowered same
        rw [key] at target
        rw [List.foldl_cons, List.foldl_nil, applyAction, orText_role]
        simp only
        rw [target]
        exact syncing.changeRole separate isMatch
      · next sameRole =>
          exact syncing.keep isMatch (not_not.mp sameRole)

theorem Syncing.run
    [LawfulUnicode] (directory : Directory) {members : List GroupMember}
    {pending done : List DesiredMember} {state : List GroupMember}
    (syncing : Syncing googleMailDomains members done pending state)
    (separate : ((done ++ pending).map fun other =>
      normalizeEmail googleMailDomains other.email).Nodup)
    (lowered : ∀ one ∈ pending, Unicode.lower one.email = one.email) :
    Syncing googleMailDomains members (done ++ pending) []
      ((pending.flatMap (actionOf googleMailDomains (normalizedGroupMembers members))).foldl
        (applyAction directory) state) := by
  induction pending generalizing done state with
  | nil => simpa using syncing
  | cons one pending inductionHypothesis =>
      have next := syncing.step directory separate
        (lowered one List.mem_cons_self)
      have after := inductionHypothesis next (by simpa using separate)
        fun other isOther => lowered other (List.mem_cons_of_mem _ isOther)
      rw [List.append_assoc] at after
      rw [List.flatMap_cons, List.foldl_append]
      exact after

/-! ## After the run -/

/-- A group in which every desired member is settled. -/
theorem Syncing.nothing_more
    {members state : List GroupMember} {desired : List DesiredMember}
    (syncing : Syncing googleMailDomains members desired [] state) :
    computeActions googleMailDomains desired (normalizedGroupMembers state) = [] := by
  have quiet : desired.flatMap
      (actionOf googleMailDomains (normalizedGroupMembers state)) = [] := by
    rw [List.flatMap_eq_nil_iff]
    intro one isOne
    obtain ⟨member, isMember, same, role⟩ := syncing.settled one isOne
    obtain ⟨index, inBounds, isAt⟩ := List.mem_iff_getElem.mp isMember
    have atIndex : state[index]? = some member := by
      rw [List.getElem?_eq_getElem inBounds, isAt]
    have isMatch := matchIndex_unique syncing.addresses_distinct atIndex same
    simp only [actionOf, isMatch]
    exact if_neg (not_not.mpr role)
  have noDeletes : ((normalizedGroupMembers state).zipIdx.filter fun member =>
      member.2 ∉ matchedIndexes googleMailDomains (normalizedGroupMembers state) desired) =
      [] := by
    rw [List.filter_eq_nil_iff]
    rintro ⟨found, index⟩ isFound
    rw [List.mem_zipIdx_iff_getElem?, normalizedGroupMembers, List.getElem?_map,
      Option.map_eq_some_iff] at isFound
    obtain ⟨member, atIndex, rfl⟩ := isFound
    obtain ⟨one, isOne, same⟩ := syncing.only_desired member (List.mem_of_getElem? atIndex)
    rw [List.append_nil] at isOne
    have isMatch := matchIndex_unique syncing.addresses_distinct atIndex same.symm
    have isMatched : index ∈
        matchedIndexes googleMailDomains (normalizedGroupMembers state) desired := by
      rw [matchedIndexes, List.mem_filterMap]
      exact ⟨one, isOne, by rw [isMatch]; rfl⟩
    simpa using isMatched
  rw [computeActions_eq, quiet, noDeletes]
  rfl

theorem syncing_after
    [LawfulUnicode] (directory : Directory) {search : Text → Text → Bool}
    {leaderRoles : List Text} {group : GroupSync} {members : List Member}
    {current : List GroupMember} {desired : List DesiredMember}
    (isSet : DesiredSet search leaderRoles googleMailDomains group members desired)
    (distinct : (current.map GroupMember.key).Nodup) :
    Syncing googleMailDomains current desired []
      (applyActions directory current
        (computeActions googleMailDomains desired (normalizedGroupMembers current))) := by
  rw [applyActions_computeActions]
  have start := syncing_start distinct isSet.distinct
  simpa using start.run directory (by simpa using isSet.distinct) isSet.lowered

/-- One run leaves exactly the desired addresses, each once and in its role, and a second
run has nothing to do; what is desired depends on no order. -/
theorem group_sync_converges
    [LawfulUnicode] (search : Text → Text → Bool) (leaderRoles googleMailDomains : List Text)
    (group : GroupSync) (members : List Member) (directory : Directory)
    (current : List GroupMember) (desired : List DesiredMember)
    (accepted : desiredMembers search leaderRoles googleMailDomains group members =
      some desired)
    (distinct : (current.map GroupMember.key).Nodup) :
    let after := applyActions directory current
      (computeActions googleMailDomains desired (normalizedGroupMembers current))
    (∀ key, Desires search leaderRoles googleMailDomains group members key →
      (after.filter fun member =>
        addressKey googleMailDomains member.email = key).length = 1) ∧
    (∀ member ∈ after, Desires search leaderRoles googleMailDomains group members
      (addressKey googleMailDomains member.email)) ∧
    (∀ member ∈ after, ((normalizedGroupMember member).role = ownerRole ↔
        MakesLeader search leaderRoles googleMailDomains group members
          (addressKey googleMailDomains member.email)) ∧
      ((normalizedGroupMember member).role = ownerRole ∨
        (normalizedGroupMember member).role = memberRole)) ∧
    computeActions googleMailDomains desired (normalizedGroupMembers after) = [] ∧
    ∀ other others, SameSources group other → members.Perm others →
      ∃ again, desiredMembers search leaderRoles googleMailDomains other others =
          some again ∧
        ∀ key leader,
          (∃ one ∈ desired, normalizeEmail googleMailDomains one.email = key ∧
            one.leader = leader) ↔
          ∃ one ∈ again, normalizeEmail googleMailDomains one.email = key ∧
            one.leader = leader := by
  intro after
  have isSet := desiredMembers_set accepted
  have syncing : Syncing googleMailDomains current desired [] after :=
    syncing_after directory isSet distinct
  refine ⟨?_, ?_, ?_, syncing.nothing_more,
    fun other others same permuted => desired_in_any_order same permuted accepted⟩
  · intro key isDesired
    obtain ⟨one, isOne, sameKey⟩ := (isSet.desires key).mpr isDesired
    obtain ⟨member, isMember, sameAddress, _⟩ := syncing.settled one isOne
    have onceAddress := List.count_eq_one_of_mem syncing.addresses_distinct
      (List.mem_map_of_mem isMember)
    rw [sameAddress, sameKey, List.count, List.countP_map, List.countP_eq_length_filter]
      at onceAddress
    rw [← onceAddress]
    congr 1
    apply List.filter_congr
    intro other _
    simp only [Function.comp_apply, beq_eq_decide]
  · intro member isMember
    obtain ⟨one, isOne, same⟩ := syncing.only_desired member isMember
    rw [List.append_nil] at isOne
    exact (isSet.desires _).mp ⟨one, isOne, same⟩
  · intro member isMember
    obtain ⟨one, isOne, same⟩ := syncing.only_desired member isMember
    rw [List.append_nil] at isOne
    obtain ⟨other, isOther, sameOther, role⟩ := syncing.settled one isOne
    have equal : other = member := List.inj_on_of_nodup_map syncing.addresses_distinct
      isOther isMember (sameOther.trans same)
    have isRole : (normalizedGroupMember member).role = desiredRole one := by
      rw [← role, equal, currentRole, normalizedGroupMember, UpperCase.upper_upper]
    rw [isRole, ← same, ← isSet.leads one isOne]
    unfold desiredRole
    cases one.leader <;> simp [ownerRole, memberRole]

/-! ## A group of two -/

omit [Unicode] [UpperCase] in
theorem toUpper_toUpper (char : Char) : char.toUpper.toUpper = char.toUpper := by
  by_cases isLower : 97 ≤ char.val.toNat ∧ char.val.toNat ≤ 122
  · have raised : char.toUpper.val.toNat = char.val.toNat - 32 := by
      unfold Char.toUpper
      split
      · change (char.val + (-32 : UInt32)).toNat = _
        have same : char.val.toNat = char.toNat := rfl
        have size : UInt32.size = 4294967296 := rfl
        rw [UInt32.toNat_add]
        simp
        omega
      · rename_i other
        exact absurd isLower other
    have unchanged : ¬(97 ≤ char.toUpper.val.toNat ∧ char.toUpper.val.toNat ≤ 122) := by
      omega
    rw [Char.toUpper.eq_def char.toUpper]
    exact dif_neg unchanged
  · have same : char.toUpper = char := by
      rw [Char.toUpper.eq_def]
      exact dif_neg isLower
    rw [same, same]

/-- The upper case of ASCII text. -/
abbrev asciiUpper : @UpperCase Responses.asciiUnicode :=
  @UpperCase.mk Responses.asciiUnicode rfl (List.map Char.toUpper)
    (fun text => by
      rw [List.map_map]
      exact List.map_congr_left fun char _ => toUpper_toUpper char)
    (fun _ _ => rfl)

/-- An id longer than every other. -/
def longerId : Directory where
  newId members _ := 'm' :: members.flatMap GroupMember.key
  newId_ne_nil _ _ := List.cons_ne_nil _ _
  newId_fresh members _ := longer_not_mem 'm' GroupMember.key members

def staticOwner : GroupSync where
  ministries := []
  workgroups := []
  staticMembers := [⟨"A.B@gmail.com".toList, true⟩]
  selectors := []

omit [Unicode] [UpperCase] in
theorem group_sync_converges_static :
    let current : List GroupMember :=
      [⟨some ['1'], "ab+c@gmail.com".toList, some memberRole⟩, ⟨some ['2'], ['z'], none⟩]
    let after := @applyActions longerId current
      (@computeActions Responses.asciiUnicode asciiUpper ["gmail.com".toList]
        [⟨"a.b@gmail.com".toList, true, []⟩]
        (@normalizedGroupMembers Responses.asciiUnicode asciiUpper current))
    @computeActions Responses.asciiUnicode asciiUpper ["gmail.com".toList]
      [⟨"a.b@gmail.com".toList, true, []⟩]
      (@normalizedGroupMembers Responses.asciiUnicode asciiUpper after) = [] :=
  (@group_sync_converges Responses.asciiUnicode asciiUpper Responses.lawfulAscii
    (fun pattern name => decide (pattern <:+: name)) [] ["gmail.com".toList] staticOwner []
    longerId [⟨some ['1'], "ab+c@gmail.com".toList, some memberRole⟩, ⟨some ['2'], ['z'], none⟩]
    [⟨"a.b@gmail.com".toList, true, []⟩] rfl (by decide)).2.2.2.1

end ParishKit.GoogleGroup
