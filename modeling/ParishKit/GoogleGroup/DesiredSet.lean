import ParishKit.GoogleGroup.Desired

/-!
# The set of desired members

Which addresses are desired and which of them lead, said of the sources alone, and
that the merged list holds each of them once.
-/

namespace ParishKit.GoogleGroup

open ParishKit.Lib
open ParishKit.Responses (Unicode LawfulUnicode strip)

variable [Unicode] (search : Text → Text → Bool) (leaderRoles googleMailDomains : List Text)

/-! ## Sources -/

inductive Source where
  | ministry (name : Text)
  | workgroup (name : Text)
  | selector (selector : Selector)

def GroupSync.sources (group : GroupSync) : List Source :=
  group.ministries.map .ministry ++ group.workgroups.map .workgroup ++
    group.selectors.map .selector

/-- What one source alone says of a Member: whether it is picked and whether it leads. -/
def sourceMatches (member : Member) : Source → Option (Bool × Bool)
  | .ministry name => some (memberInMinistries leaderRoles member [name])
  | .workgroup name => some (memberInWorkgroups member [name])
  | .selector selector => selectorMatchesMember search leaderRoles member selector

def sourcePicks (member : Member) (source : Source) : Bool :=
  (sourceMatches search leaderRoles member source).any fun flags => flags.1 || flags.2

def sourceLeads (member : Member) (source : Source) : Bool :=
  (sourceMatches search leaderRoles member source).any Prod.snd

omit [Unicode] in
theorem memberInMinistries_eq (member : Member) (names : List Text) :
    memberInMinistries leaderRoles member names =
      (member.pyMinistries.any fun ministry => names.contains ministry.name,
        member.pyMinistries.any fun ministry =>
          names.contains ministry.name && isMinistryLeader leaderRoles ministry) := by
  suffices general : ∀ (ministries : List Ministry) (found leader : Bool),
      ministries.foldl
        (fun state ministry =>
          if names.contains ministry.name then
            (true, state.2 || isMinistryLeader leaderRoles ministry)
          else state) (found, leader) =
        (found || ministries.any fun ministry => names.contains ministry.name,
          leader || ministries.any fun ministry =>
            names.contains ministry.name && isMinistryLeader leaderRoles ministry) from
    (general member.pyMinistries false false).trans (by simp only [Bool.false_or])
  intro ministries
  induction ministries with
  | nil => simp
  | cons ministry ministries inductionHypothesis =>
      intro found leader
      rw [List.foldl_cons]
      cases named : names.contains ministry.name with
      | true => simp [inductionHypothesis, named, Bool.or_assoc, -List.contains_eq_mem]
      | false => simp [inductionHypothesis, named, -List.contains_eq_mem]

/-- A sibling workgroup names the leaders. -/
def leadsWorkgroup (member : Member) (workgroup : Text) : Bool :=
  member.pyWorkgroups.contains (workgroup ++ " Ldr".toList) ||
    member.pyWorkgroups.contains (workgroup ++ " Leader".toList)

omit [Unicode] in
theorem memberInWorkgroups_eq (member : Member) (workgroups : List Text) :
    memberInWorkgroups member workgroups =
      (workgroups.any fun workgroup =>
        member.pyWorkgroups.contains workgroup || leadsWorkgroup member workgroup,
        workgroups.any (leadsWorkgroup member)) := by
  suffices general : ∀ found leader : Bool,
      workgroups.foldl
        (fun state workgroup =>
          if leadsWorkgroup member workgroup then (true, true)
          else (state.1 || member.pyWorkgroups.contains workgroup, state.2))
        (found, leader) =
        (found || workgroups.any fun workgroup =>
          member.pyWorkgroups.contains workgroup || leadsWorkgroup member workgroup,
          leader || workgroups.any (leadsWorkgroup member)) from
    (general false false).trans (by simp only [Bool.false_or])
  induction workgroups with
  | nil => simp
  | cons workgroup workgroups inductionHypothesis =>
      intro found leader
      rw [List.foldl_cons]
      cases leads : leadsWorkgroup member workgroup with
      | true => simp [inductionHypothesis, leads, -List.contains_eq_mem]
      | false =>
          simp [inductionHypothesis, leads, Bool.or_assoc, -List.contains_eq_mem]

omit [Unicode] in
theorem ministries_flags (member : Member) (group : GroupSync) :
    ((memberInMinistries leaderRoles member group.ministries).1 =
        group.ministries.any fun name =>
          (memberInMinistries leaderRoles member [name]).1) ∧
      (memberInMinistries leaderRoles member group.ministries).2 =
        group.ministries.any fun name =>
          (memberInMinistries leaderRoles member [name]).2 := by
  simp only [memberInMinistries_eq]
  constructor <;>
  · rw [Bool.eq_iff_iff]
    simp only [List.any_eq_true, List.contains_iff_mem, Bool.and_eq_true, List.mem_singleton]
    constructor
    · rintro ⟨ministry, isMinistry, named⟩
      grind
    · rintro ⟨name, isName, ministry, isMinistry, named⟩
      grind

theorem foldlM_selectors (member : Member) (selectors : List Selector) (start : Bool × Bool) :
    (selectors.foldlM
      (fun (isMember, isLeader) selector => do
        let (selectorMember, selectorLeader) ←
          selectorMatchesMember search leaderRoles member selector
        pure (isMember || selectorMember, isLeader || selectorLeader)) start) =
      if selectors.all fun selector =>
          (selectorMatchesMember search leaderRoles member selector).isSome then
        some (start.1 || selectors.any fun selector =>
            (selectorMatchesMember search leaderRoles member selector).any Prod.fst,
          start.2 || selectors.any fun selector =>
            (selectorMatchesMember search leaderRoles member selector).any Prod.snd)
      else none := by
  induction selectors generalizing start with
  | nil => simp
  | cons selector selectors inductionHypothesis =>
      rw [List.foldlM_cons]
      cases flags : selectorMatchesMember search leaderRoles member selector with
      | none => simp [flags]
      | some found =>
          obtain ⟨isMember, isLeader⟩ := start
          refine (inductionHypothesis _).trans ?_
          simp [flags, Bool.or_assoc]

/-- What the whole group says of a Member is what its sources say one by one. -/
theorem memberMatchesGroup_eq (member : Member) (group : GroupSync) :
    memberMatchesGroup search leaderRoles member group =
      if group.selectors.all fun selector =>
          (selectorMatchesMember search leaderRoles member selector).isSome then
        some (group.sources.any (sourcePicks search leaderRoles member),
          group.sources.any (sourceLeads search leaderRoles member))
      else none := by
  obtain ⟨ministryPicks, ministryLeads⟩ := ministries_flags leaderRoles member group
  unfold memberMatchesGroup
  simp only [foldlM_selectors]
  split
  · have leaders : ((memberInMinistries leaderRoles member group.ministries).2 ||
          (memberInWorkgroups member group.workgroups).2 ||
          group.selectors.any fun selector =>
            (selectorMatchesMember search leaderRoles member selector).any Prod.snd) =
        group.sources.any (sourceLeads search leaderRoles member) := by
      rw [ministryLeads]
      simp [GroupSync.sources, sourceLeads, sourceMatches, memberInWorkgroups_eq,
        Function.comp_def, Bool.or_assoc, -List.contains_eq_mem]
    have picked : ((memberInMinistries leaderRoles member group.ministries).1 ||
          (memberInWorkgroups member group.workgroups).1 ||
          (group.selectors.any fun selector =>
            (selectorMatchesMember search leaderRoles member selector).any Prod.fst) ||
          group.sources.any (sourceLeads search leaderRoles member)) =
        group.sources.any (sourcePicks search leaderRoles member) := by
      have split : group.sources.any (sourcePicks search leaderRoles member) =
          ((group.sources.any fun source =>
            (sourceMatches search leaderRoles member source).any Prod.fst) ||
            group.sources.any (sourceLeads search leaderRoles member)) := by
        rw [Bool.eq_iff_iff]
        simp only [sourcePicks, sourceLeads, List.any_eq_true, Bool.or_eq_true,
          Option.any_eq_true]
        grind
      rw [ministryPicks, split]
      congr 1
      simp [GroupSync.sources, sourceMatches, memberInWorkgroups_eq, Function.comp_def,
        Bool.or_assoc, -List.contains_eq_mem]
    simp only [Option.bind_eq_bind, Option.bind_some, leaders, picked]
    rfl
  · rfl

/-! ## Desired addresses -/

/-- The normal form an address is merged by. -/
def addressKey (email : Text) : Text :=
  normalizeEmail googleMailDomains (Unicode.lower email)

/-- A source picks a Member whose primary address has this normal form, or a static
member has it. -/
def Desires (group : GroupSync) (members : List Member) (key : Text) : Prop :=
  (∃ member ∈ members, ∃ primary ∈ member.emails.head?,
    addressKey googleMailDomains primary = key ∧
      ∃ source ∈ group.sources, sourcePicks search leaderRoles member source = true) ∨
  ∃ static ∈ group.staticMembers, addressKey googleMailDomains static.email = key

/-- A source makes this address a leader. -/
def MakesLeader (group : GroupSync) (members : List Member) (key : Text) : Prop :=
  (∃ member ∈ members, ∃ primary ∈ member.emails.head?,
    addressKey googleMailDomains primary = key ∧
      ∃ source ∈ group.sources, sourceLeads search leaderRoles member source = true) ∨
  ∃ static ∈ group.staticMembers, addressKey googleMailDomains static.email = key ∧
    static.leader = true

/-- The addresses merged so far, each with whether it leads. -/
structure Merged (entries : List (Text × Bool)) (found : List (Text × DesiredMember)) :
    Prop where
  distinct : (found.map Prod.fst).Nodup
  addressed : ∀ entry ∈ found, entry.1 = normalizeEmail googleMailDomains entry.2.email ∧
    Unicode.lower entry.2.email = entry.2.email
  desired : ∀ key, key ∈ found.map Prod.fst ↔
    ∃ entry ∈ entries, addressKey googleMailDomains entry.1 = key
  leads : ∀ entry ∈ found, entry.2.leader = true ↔
    ∃ other ∈ entries, addressKey googleMailDomains other.1 = entry.1 ∧ other.2 = true

variable {search leaderRoles googleMailDomains}

theorem merged_nil : Merged googleMailDomains [] [] := by
  constructor <;> simp

omit [Unicode] in
theorem exists_mem_concat {entries : List (Text × Bool)} {last : Text × Bool}
    {Holds : Text × Bool → Prop} :
    (∃ entry ∈ entries ++ [last], Holds entry) ↔
      (∃ entry ∈ entries, Holds entry) ∨ Holds last := by
  simp [or_and_right, exists_or]

theorem Merged.add
    [LawfulUnicode] {entries : List (Text × Bool)} {found : List (Text × DesiredMember)}
    (merged : Merged googleMailDomains entries found) (email : Text) (leader : Bool)
    (name : Option Text) :
    Merged googleMailDomains (entries ++ [(email, leader)])
      (addDesiredMember googleMailDomains found email leader name) := by
  unfold addDesiredMember
  simp only [← addressKey.eq_1]
  split
  · next known =>
      have sameKeys : (found.map fun entry =>
          if entry.1 = addressKey googleMailDomains email then
            (entry.1, { entry.2 with
              leader := entry.2.leader || leader
              names := entry.2.names ++ name.toList })
          else entry).map Prod.fst = found.map Prod.fst := by
        rw [List.map_map]
        apply List.map_congr_left
        intro entry _
        simp only [Function.comp_apply]
        split <;> rfl
      constructor
      · rw [sameKeys]
        exact merged.distinct
      · intro entry isEntry
        obtain ⟨before, isBefore, rfl⟩ := List.mem_map.mp isEntry
        have addressed := merged.addressed before isBefore
        split <;> exact addressed
      · intro key
        rw [sameKeys, merged.desired key, exists_mem_concat]
        constructor
        · exact Or.inl
        · rintro (old | same)
          · exact old
          · exact (merged.desired key).mp (same ▸ known)
      · intro entry isEntry
        obtain ⟨before, isBefore, rfl⟩ := List.mem_map.mp isEntry
        have leads := merged.leads before isBefore
        rw [exists_mem_concat]
        by_cases same : before.1 = addressKey googleMailDomains email
        · simp [same, leads]
        · simp [same, leads, Ne.symm same]
  · next fresh =>
      have unheard : ¬∃ other ∈ entries, addressKey googleMailDomains other.1 =
          addressKey googleMailDomains email := fun heard =>
        fresh ((merged.desired _).mpr heard)
      constructor
      · rw [List.map_append, List.nodup_append]
        refine ⟨merged.distinct, by simp, ?_⟩
        intro key isKey last isLast
        simp only [List.map_cons, List.map_nil, List.mem_singleton] at isLast
        rw [isLast]
        exact fun same => fresh (same ▸ isKey)
      · intro entry isEntry
        rcases List.mem_append.mp isEntry with before | isLast
        · exact merged.addressed entry before
        · rw [List.mem_singleton.mp isLast]
          exact ⟨rfl, LawfulUnicode.lower_lower email⟩
      · intro key
        rw [List.map_append, List.mem_append, merged.desired key, exists_mem_concat]
        simp [eq_comm]
      · intro entry isEntry
        rw [exists_mem_concat]
        rcases List.mem_append.mp isEntry with before | isLast
        · have other : addressKey googleMailDomains email ≠ entry.1 := fun same =>
            fresh (same ▸ List.mem_map_of_mem before)
          simp [merged.leads entry before, other]
        · rw [List.mem_singleton.mp isLast]
          simp only [true_and]
          constructor
          · exact Or.inr
          · rintro (⟨other, isOther, same, _⟩ | leads)
            · exact absurd ⟨other, isOther, same⟩ unheard
            · exact leads

/-- What a Member adds, once no selector is refused. -/
def memberEntry (search : Text → Text → Bool) (leaderRoles : List Text) (group : GroupSync)
    (member : Member) : List (Text × Bool) :=
  if group.sources.any (sourcePicks search leaderRoles member) then
    member.emails.head?.toList.map fun primary =>
      (primary, group.sources.any (sourceLeads search leaderRoles member))
  else []

theorem picks_of_leads
    {member : Member} {source : Source}
    (leads : sourceLeads search leaderRoles member source = true) :
    sourcePicks search leaderRoles member source = true := by
  simp only [sourceLeads, sourcePicks, Option.any_eq_true] at leads ⊢
  obtain ⟨flags, isFlags, leads⟩ := leads
  exact ⟨flags, isFlags, by simp [leads]⟩

theorem mem_memberEntry
    {group : GroupSync} {member : Member} {entry : Text × Bool} :
    entry ∈ memberEntry search leaderRoles group member ↔
      ∃ primary ∈ member.emails.head?,
        (∃ source ∈ group.sources, sourcePicks search leaderRoles member source = true) ∧
        entry = (primary, group.sources.any (sourceLeads search leaderRoles member)) := by
  unfold memberEntry
  split
  · next picked =>
      simp only [List.any_eq_true] at picked
      simp only [List.mem_map, Option.mem_toList]
      constructor
      · rintro ⟨primary, isPrimary, rfl⟩
        exact ⟨primary, isPrimary, picked, rfl⟩
      · rintro ⟨primary, isPrimary, _, rfl⟩
        exact ⟨primary, isPrimary, rfl⟩
  · next unpicked =>
      simp only [List.any_eq_true] at unpicked
      simp [unpicked]

/-- Every selector's type is known. -/
def Accepts (search : Text → Text → Bool) (leaderRoles : List Text) (group : GroupSync)
    (members : List Member) : Prop :=
  ∀ member ∈ members, ∀ selector ∈ group.selectors,
    (selectorMatchesMember search leaderRoles member selector).isSome = true

theorem Merged.addMember
    [LawfulUnicode] {group : GroupSync} {entries : List (Text × Bool)}
    {found next : List (Text × DesiredMember)} {member : Member}
    (merged : Merged googleMailDomains entries found)
    (added : addMember search leaderRoles googleMailDomains group found member =
      some next) :
    Merged googleMailDomains (entries ++ memberEntry search leaderRoles group member) next := by
  unfold GoogleGroup.addMember at added
  rw [memberMatchesGroup_eq] at added
  split at added
  · have implied : group.sources.any (sourceLeads search leaderRoles member) = true →
        group.sources.any (sourcePicks search leaderRoles member) = true := by
      simp only [List.any_eq_true]
      rintro ⟨source, isSource, leads⟩
      exact ⟨source, isSource, picks_of_leads leads⟩
    unfold memberEntry
    cases picked : group.sources.any (sourcePicks search leaderRoles member) with
    | false =>
        have plain : group.sources.any (sourceLeads search leaderRoles member) = false := by
          by_contra leads
          have both := implied (by simpa using leads)
          rw [picked] at both
          cases both
        simp only [picked, plain] at added
        obtain rfl : found = next := by simpa using added
        simpa using merged
    | true =>
        simp only [picked] at added
        cases addresses : member.emails with
        | nil =>
            obtain rfl : found = next := by simpa [addresses] using added
            simpa using merged
        | cons primary rest =>
            obtain rfl := by simpa [addresses] using added
            simpa using merged.add primary _ member.shownName
  · cases added

theorem Merged.addMembers
    [LawfulUnicode] {group : GroupSync} {members : List Member}
    {entries : List (Text × Bool)} {found last : List (Text × DesiredMember)}
    (merged : Merged googleMailDomains entries found)
    (added : members.foldlM (GoogleGroup.addMember search leaderRoles googleMailDomains group)
      found = some last) :
    Merged googleMailDomains
      (entries ++ members.flatMap (memberEntry search leaderRoles group)) last := by
  induction members generalizing entries found with
  | nil =>
      obtain rfl : found = last := by simpa using added
      simpa using merged
  | cons member members inductionHypothesis =>
      rw [List.foldlM_cons] at added
      obtain ⟨next, first, others⟩ := Option.bind_eq_some_iff.mp added
      have both := inductionHypothesis (merged.addMember first) others
      rwa [List.append_assoc, ← List.flatMap_cons] at both

theorem Merged.addStatics
    [LawfulUnicode] {entries : List (Text × Bool)} {found : List (Text × DesiredMember)}
    (merged : Merged googleMailDomains entries found) (statics : List StaticMember) :
    Merged googleMailDomains
      (entries ++ statics.map fun static => (static.email, static.leader))
      (statics.foldl (fun found static => addDesiredMember googleMailDomains found
        static.email static.leader none) found) := by
  induction statics generalizing entries found with
  | nil => simpa using merged
  | cons static statics inductionHypothesis =>
      have both := inductionHypothesis (merged.add static.email static.leader none)
      rwa [List.append_assoc] at both

/-- The desired members: each desired normal form once, with whether it leads. -/
structure DesiredSet (search : Text → Text → Bool) (leaderRoles googleMailDomains : List Text)
    (group : GroupSync) (members : List Member) (desired : List DesiredMember) : Prop where
  distinct : (desired.map fun one => normalizeEmail googleMailDomains one.email).Nodup
  lowered : ∀ one ∈ desired, Unicode.lower one.email = one.email
  desires : ∀ key, (∃ one ∈ desired, normalizeEmail googleMailDomains one.email = key) ↔
    Desires search leaderRoles googleMailDomains group members key
  leads : ∀ one ∈ desired, one.leader = true ↔
    MakesLeader search leaderRoles googleMailDomains group members
      (normalizeEmail googleMailDomains one.email)

theorem desiredMembers_set
    [LawfulUnicode] {group : GroupSync} {members : List Member} {desired : List DesiredMember}
    (accepted : desiredMembers search leaderRoles googleMailDomains group members =
      some desired) :
    DesiredSet search leaderRoles googleMailDomains group members desired := by
  unfold desiredMembers at accepted
  obtain ⟨found, loop, rest⟩ := Option.bind_eq_some_iff.mp accepted
  obtain rfl := Option.some.inj rest
  have merged := (merged_nil.addMembers loop).addStatics group.staticMembers
  rw [List.nil_append] at merged
  generalize group.staticMembers.foldl _ found = final at merged ⊢
  have keys : final.map Prod.fst =
      final.map fun entry => normalizeEmail googleMailDomains entry.2.email :=
    List.map_congr_left fun entry isEntry => (merged.addressed entry isEntry).1
  have desires : ∀ key, key ∈ final.map Prod.fst ↔
      Desires search leaderRoles googleMailDomains group members key := by
    intro key
    rw [merged.desired key]
    simp only [List.mem_append, List.mem_flatMap, List.mem_map, Desires, mem_memberEntry]
    constructor
    · rintro ⟨_, ⟨member, isMember, primary, isPrimary, picked, rfl⟩ |
        ⟨static, isStatic, rfl⟩, same⟩
      · exact Or.inl ⟨member, isMember, primary, isPrimary, same, picked⟩
      · exact Or.inr ⟨static, isStatic, same⟩
    · rintro (⟨member, isMember, primary, isPrimary, same, picked⟩ | ⟨static, isStatic, same⟩)
      · exact ⟨_, Or.inl ⟨member, isMember, primary, isPrimary, picked, rfl⟩, same⟩
      · exact ⟨_, Or.inr ⟨static, isStatic, rfl⟩, same⟩
  constructor
  · rw [List.map_map]
    exact keys ▸ merged.distinct
  · intro one isOne
    obtain ⟨entry, isEntry, rfl⟩ := List.mem_map.mp isOne
    exact (merged.addressed entry isEntry).2
  · intro key
    rw [← desires key, keys]
    simp only [List.mem_map, exists_exists_and_eq_and]
  · intro one isOne
    obtain ⟨entry, isEntry, rfl⟩ := List.mem_map.mp isOne
    rw [merged.leads entry isEntry, (merged.addressed entry isEntry).1]
    simp only [List.mem_append, List.mem_flatMap, List.mem_map, MakesLeader, mem_memberEntry]
    constructor
    · rintro ⟨_, ⟨member, isMember, primary, isPrimary, _, rfl⟩ |
        ⟨static, isStatic, rfl⟩, same, leads⟩
      · exact Or.inl ⟨member, isMember, primary, isPrimary, same, by simpa using leads⟩
      · exact Or.inr ⟨static, isStatic, same, leads⟩
    · rintro (⟨member, isMember, primary, isPrimary, same, source, isSource, leads⟩ |
        ⟨static, isStatic, same, leads⟩)
      · exact ⟨_, Or.inl ⟨member, isMember, primary, isPrimary,
          ⟨source, isSource, picks_of_leads leads⟩, rfl⟩, same,
          List.any_eq_true.mpr ⟨source, isSource, leads⟩⟩
      · exact ⟨_, Or.inr ⟨static, isStatic, rfl⟩, same, leads⟩

/-! ## Order -/

theorem addMember_isSome
    (googleMailDomains : List Text) (group : GroupSync) (found : List (Text × DesiredMember))
    (member : Member) :
    (addMember search leaderRoles googleMailDomains group found member).isSome = true ↔
      ∀ selector ∈ group.selectors,
        (selectorMatchesMember search leaderRoles member selector).isSome = true := by
  unfold addMember
  rw [memberMatchesGroup_eq]
  split
  · next known =>
      simp only [Option.bind_eq_bind, Option.bind_some]
      have isKnown := List.all_eq_true.mp known
      split
      · simpa using isKnown
      · split <;> simpa using isKnown
  · next unknown =>
      simpa using unknown

theorem desiredMembers_isSome
    (googleMailDomains : List Text) (group : GroupSync) (members : List Member) :
    (desiredMembers search leaderRoles googleMailDomains group members).isSome = true ↔
      Accepts search leaderRoles group members := by
  suffices loop : ∀ found : List (Text × DesiredMember),
      (members.foldlM (addMember search leaderRoles googleMailDomains group) found).isSome =
          true ↔
        Accepts search leaderRoles group members by
    rw [← loop []]
    unfold desiredMembers
    cases members.foldlM (addMember search leaderRoles googleMailDomains group) [] <;> simp
  unfold Accepts
  induction members with
  | nil => simp
  | cons member members inductionHypothesis =>
      intro found
      rw [List.foldlM_cons, List.forall_mem_cons,
        ← addMember_isSome googleMailDomains group found member]
      cases addMember search leaderRoles googleMailDomains group found member with
      | none => simp
      | some next => simpa using inductionHypothesis next

/-- The same sources and static members, in another order. -/
structure SameSources (group other : GroupSync) : Prop where
  ministries : group.ministries.Perm other.ministries
  workgroups : group.workgroups.Perm other.workgroups
  selectors : group.selectors.Perm other.selectors
  statics : group.staticMembers.Perm other.staticMembers

omit [Unicode] in
theorem SameSources.mem_sources
    {group other : GroupSync} (same : SameSources group other) (source : Source) :
    source ∈ group.sources ↔ source ∈ other.sources := by
  simp [GroupSync.sources, same.ministries.mem_iff, same.workgroups.mem_iff,
    same.selectors.mem_iff]

theorem desires_order
    {group other : GroupSync} (same : SameSources group other) {members others : List Member}
    (permuted : members.Perm others) (key : Text) :
    Desires search leaderRoles googleMailDomains group members key ↔
      Desires search leaderRoles googleMailDomains other others key := by
  simp only [Desires, permuted.mem_iff, same.mem_sources, same.statics.mem_iff]

theorem makesLeader_order
    {group other : GroupSync} (same : SameSources group other) {members others : List Member}
    (permuted : members.Perm others) (key : Text) :
    MakesLeader search leaderRoles googleMailDomains group members key ↔
      MakesLeader search leaderRoles googleMailDomains other others key := by
  simp only [MakesLeader, permuted.mem_iff, same.mem_sources, same.statics.mem_iff]

/-- A desired normal form with a leader flag, said of the sources alone. -/
theorem DesiredSet.mem_iff
    {group : GroupSync} {members : List Member} {desired : List DesiredMember}
    (isSet : DesiredSet search leaderRoles googleMailDomains group members desired)
    (key : Text) (leader : Bool) :
    (∃ one ∈ desired, normalizeEmail googleMailDomains one.email = key ∧
        one.leader = leader) ↔
      Desires search leaderRoles googleMailDomains group members key ∧
        (leader = true ↔ MakesLeader search leaderRoles googleMailDomains group members key) := by
  rw [← isSet.desires key]
  constructor
  · rintro ⟨one, isOne, rfl, rfl⟩
    exact ⟨⟨one, isOne, rfl⟩, isSet.leads one isOne⟩
  · rintro ⟨⟨one, isOne, rfl⟩, leads⟩
    refine ⟨one, isOne, rfl, ?_⟩
    rw [Bool.eq_iff_iff, isSet.leads one isOne, leads]

theorem desired_in_any_order
    [LawfulUnicode] {group other : GroupSync} (same : SameSources group other)
    {members others : List Member} (permuted : members.Perm others)
    {desired : List DesiredMember}
    (accepted : desiredMembers search leaderRoles googleMailDomains group members =
      some desired) :
    ∃ again, desiredMembers search leaderRoles googleMailDomains other others = some again ∧
      ∀ key leader,
        (∃ one ∈ desired, normalizeEmail googleMailDomains one.email = key ∧
          one.leader = leader) ↔
        ∃ one ∈ again, normalizeEmail googleMailDomains one.email = key ∧
          one.leader = leader := by
  have known : Accepts search leaderRoles group members := by
    rw [← desiredMembers_isSome googleMailDomains, accepted]
    rfl
  have knownToo : Accepts search leaderRoles other others := by
    intro member isMember selector isSelector
    exact known member (permuted.mem_iff.mpr isMember) selector
      (same.selectors.mem_iff.mpr isSelector)
  rw [← desiredMembers_isSome googleMailDomains] at knownToo
  obtain ⟨again, isAgain⟩ := Option.isSome_iff_exists.mp knownToo
  refine ⟨again, isAgain, fun key leader => ?_⟩
  rw [(desiredMembers_set accepted).mem_iff, (desiredMembers_set isAgain).mem_iff,
    desires_order same permuted, makesLeader_order same permuted]

end ParishKit.GoogleGroup
