import ParishKit.Source.FamilyNamesAgree

/-!
# What a Family's name shows

The surnames lead, each group's once, and after the comma stand the first names of each
group, in the order of the surnames.
-/

namespace ParishKit.Source.FamilyNames

open ParishKit.Lib

/-! ## Series -/

/-- Every name of a series stands in it. -/
theorem infix_nameSeries {parts : List Text} {part : Text} (member : part ∈ parts)
    (notBlank : part ≠ []) : part <:+: nameSeries parts := by
  have kept : part ∈ parts.filter (!·.isEmpty) := by
    rw [List.mem_filter, isEmpty_eq_decide]
    exact ⟨member, decide_eq_true notBlank⟩
  unfold nameSeries
  dsimp only
  generalize parts.filter (!·.isEmpty) = names at kept ⊢
  split
  · exact infix_intercalate kept
  · rename_i many
    have notNil : names ≠ [] := List.ne_nil_of_mem kept
    rw [← List.dropLast_append_getLast notNil] at kept
    rcases List.mem_append.mp kept with front | isLast
    · have inFront : part <:+: ", ".toList.intercalate names.dropLast :=
        infix_intercalate front
      exact List.infix_append_of_infix_left (List.infix_append_of_infix_left inFront)
    · rw [List.mem_singleton.mp isLast]
      rw [List.getLastD_eq_getLast?, List.getLast?_eq_some_getLast notNil]
      exact List.infix_append_of_infix_right List.infix_rfl

/-! ## The groups that are shown -/

variable {folding : CaseFolding} {surname : Text} {recorded : Bool} {rows : List NameRow}
  {groups : List (Text × SurnameGroup)} {heads : List Head}

/-- The heads of a last name, ignoring letter case. -/
def headsOf (folding : CaseFolding) (heads : List Head) (key : Text) : List Head :=
  heads.filter fun head =>
    decide (head.lastText ≠ []) && decide (folding.casefold head.lastText = key)

theorem members_rowsFrom (heads : List Head) (o : Nat) (key : Text) :
    (members (rowsFrom folding o heads) key).map NameRow.first =
      (headsOf folding heads key).map Head.firstText := by
  induction heads generalizing o with
  | nil => rfl
  | cons head rest inductionHypothesis =>
      have tail := inductionHypothesis (o + 1)
      unfold members headsOf at tail ⊢
      rw [rowsFrom]
      by_cases blank : head.lastText = []
      · rw [List.filter_cons_of_neg (by simp [blank])]
        split
        · exact tail
        · have noKey : (rowOf folding o head).key = none := if_neg (not_not.mpr blank)
          rw [List.filter_cons_of_neg (by simp [noKey])]
          exact tail
      · have hasKey : (rowOf folding o head).key = some (folding.casefold head.lastText) :=
          if_pos blank
        rw [if_neg fun both => blank both.2]
        by_cases same : folding.casefold head.lastText = key
        · rw [List.filter_cons_of_pos (by simp [hasKey, same]),
            List.filter_cons_of_pos (by simp [blank, same]), List.map_cons, List.map_cons,
            tail]
          rfl
        · rw [List.filter_cons_of_neg (by simp [hasKey, same]),
            List.filter_cons_of_neg (by simp [same])]
          exact tail

/-- The groups as they are shown: the own under the surname, then the others. -/
def shownGroups (folding : CaseFolding) (surname : Text) (recorded : Bool)
    (groups : List (Text × SurnameGroup)) : List SurnameGroup :=
  (ownEntries folding surname recorded groups).map (fun entry =>
      ⟨surname, entry.2.firsts⟩) ++
    (otherEntries folding surname recorded groups).map Prod.snd

theorem own_key {entry : Text × SurnameGroup}
    (member : entry ∈ ownEntries folding surname recorded groups) :
    entry.1 = folding.casefold surname := by
  have own := (List.mem_filter.mp member).2
  unfold isOwn at own
  rw [Bool.and_eq_true] at own
  exact of_decide_eq_true own.2

/-- The spelling kept is one of the key's. -/
theorem casefold_last
    (headRows : HeadRows folding rows) (grouped : Grouped rows groups)
    {entry : Text × SurnameGroup} (inGroups : entry ∈ groups) :
    folding.casefold entry.2.last = entry.1 := by
  obtain ⟨first, rest, isMembers, isGroup⟩ := grouped.each entry inGroups
  have isMember : first ∈ members rows entry.1 := by
    rw [isMembers]
    exact List.mem_cons_self
  obtain ⟨inRows, hasKey⟩ := List.mem_filter.mp isMember
  have isKey := headRows.keyed first inRows
  rw [of_decide_eq_true hasKey] at isKey
  rw [isGroup]
  split at isKey
  · exact (Option.some.inj isKey).symm
  · cases isKey

/-- A shown group is one of the dictionary, under its key. -/
theorem casefold_shown
    (headRows : HeadRows folding rows) (grouped : Grouped rows groups) :
    (shownGroups folding surname recorded groups).map (fun group =>
        folding.casefold group.last) =
      (ownEntries folding surname recorded groups ++
        otherEntries folding surname recorded groups).map Prod.fst := by
  unfold shownGroups
  rw [List.map_append, List.map_append, List.map_map, List.map_map]
  refine congrArg₂ _ (List.map_congr_left fun entry member => ?_)
    (List.map_congr_left fun entry member => ?_)
  · exact (own_key member).symm
  · exact casefold_last headRows grouped (List.mem_filter.mp member).1

theorem entries_perm (folding : CaseFolding) (surname : Text) (recorded : Bool)
    (groups : List (Text × SurnameGroup)) :
    (ownEntries folding surname recorded groups ++
      otherEntries folding surname recorded groups).Perm groups :=
  List.filter_append_perm _ groups

/-- What the shown groups are of the heads. -/
structure GroupsOf (folding : CaseFolding) (heads : List Head)
    (groups : List SurnameGroup) : Prop where
  distinct : (groups.map fun group => folding.casefold group.last).Nodup
  firsts : ∀ group ∈ groups, group.firsts =
    (headsOf folding heads (folding.casefold group.last)).map Head.firstText
  covered : ∀ head ∈ heads, head.lastText ≠ [] →
    ∃ group ∈ groups, folding.casefold group.last = folding.casefold head.lastText

theorem groupsOf_shown
    (headRows : HeadRows folding (rowsFrom folding 1 heads))
    (grouped : Grouped (rowsFrom folding 1 heads) groups) :
    GroupsOf folding heads (shownGroups folding surname recorded groups) := by
  have keys : (shownGroups folding surname recorded groups).map
      (fun group => folding.casefold group.last) = _ := casefold_shown headRows grouped
  have perm := entries_perm folding surname recorded groups
  refine ⟨?_, fun group member => ?_, fun head member notBlank => ?_⟩
  · rw [keys, (perm.map Prod.fst).nodup_iff]
    exact grouped.keys_nodup
  · have firstsOf : ∀ entry ∈ groups, entry.2.firsts =
        (headsOf folding heads entry.1).map Head.firstText := by
      intro entry inGroups
      obtain ⟨first, rest, isMembers, isGroup⟩ := grouped.each entry inGroups
      rw [isGroup, ← members_rowsFrom heads 1 entry.1, isMembers]
    unfold shownGroups at member
    rcases List.mem_append.mp member with isOwn | isOther
    · obtain ⟨entry, own, rfl⟩ := List.mem_map.mp isOwn
      dsimp only
      rw [firstsOf entry (List.mem_filter.mp own).1, own_key own]
    · obtain ⟨entry, other, rfl⟩ := List.mem_map.mp isOther
      have inGroups := (List.mem_filter.mp other).1
      rw [firstsOf entry inGroups, casefold_last headRows grouped inGroups]
  · have isKey : folding.casefold head.lastText ∈
        (shownGroups folding surname recorded groups).map fun group =>
          folding.casefold group.last := by
      rw [keys, (perm.map Prod.fst).mem_iff]
      have inMembers : head.firstText ∈ (members (rowsFrom folding 1 heads)
          (folding.casefold head.lastText)).map NameRow.first := by
        rw [members_rowsFrom]
        refine List.mem_map_of_mem (List.mem_filter.mpr ⟨member, ?_⟩)
        rw [decide_eq_true notBlank, decide_eq_true rfl]
        rfl
      obtain ⟨row, isRow, _⟩ := List.mem_map.mp inMembers
      obtain ⟨inRows, hasKey⟩ := List.mem_filter.mp isRow
      exact grouped.complete row inRows _ (of_decide_eq_true hasKey)
    obtain ⟨group, isGroup, same⟩ := List.mem_map.mp isKey
    exact ⟨group, isGroup, same⟩

/-- The surnames before the comma. -/
def leading (surname : Text) (groups : List SurnameGroup) : Text :=
  if groups = [] then surname
  else " / ".toList.intercalate (groups.map SurnameGroup.last)

/-- The first names after it, each in its group: with one group, all in head order. -/
def NamesOf (heads : List Head) (groups : List SurnameGroup) (names : Text) : Prop :=
  groups.length ≤ 1 ∧ names = nameSeries (heads.map Head.firstText) ∨
    names = " / ".toList.intercalate
      (((groups.map fun group => nameSeries group.firsts) ++ aloneNames heads).filter
        (!·.isEmpty))

/-- The name is its surnames and its first names. -/
theorem familyHeadsName_shown
    (headRows : HeadRows folding (rowsFrom folding 1 heads))
    (grouped : Grouped (rowsFrom folding 1 heads) groups)
    (isGroups : heads.foldl (addHead folding) [] = groups) :
    ∃ names, NamesOf heads (shownGroups folding surname recorded groups) names ∧
      familyHeadsName folding surname heads recorded =
        if names = [] then leading surname (shownGroups folding surname recorded groups)
        else leading surname (shownGroups folding surname recorded groups) ++
          ", ".toList ++ names := by
  have isPython : surnameGroups folding heads (if recorded then surname else []) = _ :=
    surnameGroups_eq headRows grouped isGroups
  have toList : ownEntries folding surname recorded groups = _ := own_eq_toList grouped
  have isFirst : ∀ head : Head,
      (if head.lastText = [] then headFullName head else head.firstText) =
        head.firstText := by
    intro head
    split
    · rename_i blank
      exact headFullName_eq blank
    · rfl
  unfold familyHeadsName
  rw [isPython]
  unfold ownEntries at toList
  unfold shownGroups ownEntries otherEntries
  dsimp only
  simp only [isFirst]
  generalize (groups.filter fun entry => isOwn folding surname recorded entry.1) = owns
    at toList ⊢
  generalize (groups.filter fun entry => !isOwn folding surname recorded entry.1) = others
  cases isHead : owns.head? with
  | none =>
      rw [isHead, Option.toList_none] at toList
      subst toList
      cases others with
      | nil =>
          exact ⟨nameSeries (heads.map Head.firstText), Or.inl ⟨Nat.zero_le 1, rfl⟩, rfl⟩
      | cons other others =>
          refine ⟨_, Or.inr rfl, ?_⟩
          simp [leading]
  | some entry =>
      rw [isHead, Option.toList_some] at toList
      subst toList
      cases others with
      | nil =>
          refine ⟨nameSeries (heads.map Head.firstText), Or.inl ⟨Nat.le_refl 1, rfl⟩, ?_⟩
          simp [leading]
      | cons other others =>
          refine ⟨_, Or.inr rfl, ?_⟩
          simp [leading]

/-- Each first name stands in a part of its own group. -/
theorem first_shown {shown : List SurnameGroup} {names : Text}
    (groupsOf : GroupsOf folding heads shown) (namesOf : NamesOf heads shown names)
    {head : Head} (member : head ∈ heads) (notBlank : head.firstText ≠ []) :
    ∃ part, part <:+: names ∧ head.firstText <:+: part ∧
      (head.lastText ≠ [] → ∃ group ∈ shown,
        folding.casefold group.last = folding.casefold head.lastText ∧
        head.firstText ∈ group.firsts ∧
        (shown.length ≤ 1 ∨ part = nameSeries group.firsts)) := by
  have inGroup : head.lastText ≠ [] → ∃ group ∈ shown,
      folding.casefold group.last = folding.casefold head.lastText ∧
      head.firstText ∈ group.firsts := by
    intro hasLast
    obtain ⟨group, isGroup, same⟩ := groupsOf.covered head member hasLast
    refine ⟨group, isGroup, same, ?_⟩
    rw [groupsOf.firsts group isGroup, same]
    refine List.mem_map_of_mem (List.mem_filter.mpr ⟨member, ?_⟩)
    rw [decide_eq_true hasLast, decide_eq_true rfl]
    rfl
  rcases namesOf with ⟨single, isSeries⟩ | isParts
  · refine ⟨names, List.infix_rfl, ?_, fun hasLast => ?_⟩
    · rw [isSeries]
      exact infix_nameSeries (List.mem_map_of_mem member) notBlank
    · obtain ⟨group, isGroup, same, inFirsts⟩ := inGroup hasLast
      exact ⟨group, isGroup, same, inFirsts, Or.inl single⟩
  · have standing : ∀ part, part ∈ (shown.map fun group => nameSeries group.firsts) ++
        aloneNames heads → head.firstText <:+: part → part <:+: names := by
      intro part isPart inside
      rw [isParts]
      refine infix_intercalate (List.mem_filter.mpr ⟨isPart, ?_⟩)
      rw [isEmpty_eq_decide]
      refine decide_eq_true fun isNil => notBlank ?_
      rw [isNil] at inside
      exact List.infix_nil.mp inside
    by_cases blank : head.lastText = []
    · refine ⟨head.firstText, standing _ (List.mem_append_right _ ?_) List.infix_rfl,
        List.infix_rfl, fun hasLast => absurd blank hasLast⟩
      refine List.mem_filterMap.mpr ⟨head, member, ?_⟩
      rw [headFullName_eq blank, if_pos ⟨blank, notBlank⟩]
    · obtain ⟨group, isGroup, same, inFirsts⟩ := inGroup blank
      have inside := infix_nameSeries inFirsts notBlank
      have isPart : nameSeries group.firsts ∈ shown.map fun group => nameSeries group.firsts :=
        List.mem_map_of_mem isGroup
      exact ⟨nameSeries group.firsts, standing _ (List.mem_append_left _ isPart) inside, inside,
        fun _ => ⟨group, isGroup, same, inFirsts, Or.inr rfl⟩⟩

/-- Among distinct keys, each is once. -/
theorem last_shown_once {shown : List SurnameGroup} (groupsOf : GroupsOf folding heads shown)
    {head : Head} (member : head ∈ heads) (hasLast : head.lastText ≠ []) :
    (shown.map fun group => folding.casefold group.last).count
      (folding.casefold head.lastText) = 1 := by
  obtain ⟨group, isGroup, same⟩ := groupsOf.covered head member hasLast
  refine List.count_eq_one_of_mem groupsOf.distinct ?_
  exact List.mem_map.mpr ⟨group, isGroup, same⟩

/-- The database and Python name a Family identically. The surnames lead, every last name
once up to letter case; after the comma stands every first name in its group. -/
theorem family_is_named_identically
    (folding : CaseFolding) (surname : Text) (heads : List Head) (recorded : Bool) :
    familyHeadsNameSql folding surname recorded (heads.map headPart) =
        some (familyHeadsName folding surname heads recorded) ∧
      ∃ shown names,
        familyHeadsName folding surname heads recorded =
          (if names = [] then leading surname shown
            else leading surname shown ++ ", ".toList ++ names) ∧
        NamesOf heads shown names ∧ GroupsOf folding heads shown ∧
        (∀ head ∈ heads, head.lastText ≠ [] →
          (shown.map fun group => folding.casefold group.last).count
            (folding.casefold head.lastText) = 1) ∧
        ∀ head ∈ heads, head.firstText ≠ [] → ∃ part, part <:+: names ∧
          head.firstText <:+: part ∧
          (head.lastText ≠ [] → ∃ group ∈ shown,
            folding.casefold group.last = folding.casefold head.lastText ∧
            head.firstText ∈ group.firsts ∧
            (shown.length ≤ 1 ∨ part = nameSeries group.firsts)) := by
  have headRows := (rowsFrom_headRows folding 1 heads).1
  have grouped := grouped_foldl headRows.ascending
  rw [← foldl_addHead folding heads 1 []] at grouped
  have groupsOf : GroupsOf folding heads (shownGroups folding surname recorded _) :=
    groupsOf_shown headRows grouped
  obtain ⟨names, namesOf, isName⟩ : ∃ names,
      NamesOf heads (shownGroups folding surname recorded _) names ∧
      familyHeadsName folding surname heads recorded = _ :=
    familyHeadsName_shown headRows grouped rfl
  refine ⟨familyHeadsNameSql_eq folding surname heads recorded, _, names, isName, namesOf,
    groupsOf, fun head member hasLast => last_shown_once groupsOf member hasLast,
    fun head member notBlank => first_shown groupsOf namesOf member notBlank⟩

end ParishKit.Source.FamilyNames
