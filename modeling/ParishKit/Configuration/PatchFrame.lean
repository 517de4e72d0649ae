import ParishKit.Configuration.PatchOrder

/-!
# What a patch changes

The candidate's document is the base's, apart from its identity, its predecessor and
the records that the patch names. An update replaces the values it names and removes
those it clears.
-/

namespace ParishKit.Configuration

open ParishKit.Lib

/-! ## Values -/

theorem findEntry_eraseEntry (key other : Text) (fields : Fields) :
    findEntry key (eraseEntry other fields) =
      if key = other then none else findEntry key fields := by
  unfold eraseEntry
  by_cases same : key = other
  · rw [if_pos same, findEntry_eq_none]
    intro entry member isKey
    exact of_decide_eq_true (List.mem_filter.mp member).2 (isKey.trans same)
  · rw [if_neg same]
    induction fields with
    | nil => rfl
    | cons entry rest inductionHypothesis =>
        by_cases isOther : entry.1 = other
        · rw [List.filter_cons_of_neg (by simpa using isOther), inductionHypothesis,
            findEntry, if_neg fun isKey => same (isKey.symm.trans isOther)]
        · rw [List.filter_cons_of_pos (by simpa using isOther), findEntry, findEntry,
            inductionHypothesis]

theorem findEntry_eraseEntries (key : Text) (cleared : List Text) (fields : Fields) :
    findEntry key (cleared.foldl (fun fields key => eraseEntry key fields) fields) =
      if key ∈ cleared then none else findEntry key fields := by
  induction cleared generalizing fields with
  | nil => rw [List.foldl_nil, if_neg List.not_mem_nil]
  | cons first rest inductionHypothesis =>
      rw [List.foldl_cons, inductionHypothesis, findEntry_eraseEntry]
      by_cases later : key ∈ rest
      · rw [if_pos later, if_pos (List.mem_cons_of_mem _ later)]
      · by_cases same : key = first
        · rw [if_neg later, if_pos same, if_pos (same ▸ List.mem_cons_self)]
        · rw [if_neg later, if_neg same, if_neg]
          rw [List.mem_cons, not_or]
          exact ⟨same, later⟩

theorem findEntry_updateFields (key : Text) (fields values : Fields) :
    findEntry key (updateFields fields values) =
      (findEntry key values).or (findEntry key fields) := by
  unfold updateFields
  induction values with
  | nil => rfl
  | cons entry rest inductionHypothesis =>
      rw [List.foldr_cons, findEntry]
      by_cases same : entry.1 = key
      · rw [if_pos same, same, findEntry_setEntry_self]
        rfl
      · rw [if_neg same, findEntry_setEntry_of_ne _ _ same, inductionHypothesis]

/-- A value is cleared, named, or as it was. -/
theorem findEntry_updatedValues (name key : Text) (values old : Fields) :
    findEntry key (updatedValues name values old) =
      if key ∈ clearedBy name values then none
      else (findEntry key values).or (findEntry key old) := by
  unfold updatedValues
  rw [findEntry_eraseEntries, findEntry_updateFields]

/-! ## Documents -/

/-- A record with the values that an operation names, less those it clears. -/
structure Operation.Updates (operation : Operation) (old new : Record) : Prop where
  id : new.id = old.id
  values : ∀ key, findEntry key new.values =
    if key ∈ clearedBy operation.section_ operation.values then none
    else (findEntry key operation.values).or (findEntry key old.values)

/-- Only what the operations name is changed. -/
structure PatchedFrom [Sha256] (operations : List Operation) (base : ConfigurationVersion)
    (candidateId : Text) (candidate : Document) : Prop where
  schemaVersion : candidate.schemaVersion = base.document.schemaVersion
  versionId : candidate.versionId = candidateId
  predecessorDigest : candidate.predecessorDigest = some base.digest
  distinct : candidate.identities.Nodup
  sorted : candidate.sorted = candidate
  sections : ∀ name, (candidate.sections.get name).isSome = true ↔
    (base.document.sections.get name).isSome = true ∨
      ∃ operation ∈ operations, name = operation.section_
  unnamedSections : ∀ name, (∀ operation ∈ operations, name ≠ operation.section_) →
    candidate.sections.get name = base.document.sections.get name
  unnamed : ∀ name identifier,
    (∀ operation ∈ operations, (name, identifier) ≠ operation.key) →
      candidate.record? name identifier = base.document.record? name identifier
  added : ∀ operation ∈ operations, operation.action = .add →
    base.document.record? operation.section_ operation.id = none ∧
      candidate.record? operation.section_ operation.id =
        some ⟨operation.id, operation.values⟩
  updated : ∀ operation ∈ operations, operation.action = .update →
    ∃ old new, base.document.record? operation.section_ operation.id = some old ∧
      candidate.record? operation.section_ operation.id = some new ∧
      operation.Updates old new
  removed : ∀ operation ∈ operations, operation.action = .remove →
    (base.document.record? operation.section_ operation.id).isSome = true ∧
      candidate.record? operation.section_ operation.id = none

/-! ## Sorted documents -/

variable {document next : Document}

/-- Sorting keeps what is found. -/
theorem record?_sorted (distinct : document.Distinct) (name identifier : Text) :
    document.sorted.record? name identifier = document.record? name identifier := by
  have sectionDistinct := distinct name
  unfold Document.record?
  rw [get_sorted]
  cases isRecords : document.sections.get name with
  | none => rfl
  | some records =>
      rw [isRecords] at sectionDistinct
      exact (findRecord_perm (sortedRecords_perm records).symm sectionDistinct
        identifier).symm

theorem sorted_alike (document : Document) : Alike document.sorted document := by
  refine ⟨rfl, fun name => ?_⟩
  rw [get_sorted]
  cases document.sections.get name with
  | none => exact Option.Rel.none
  | some records => exact Option.Rel.some (sortedRecords_perm records)

theorem sorted_distinct (distinct : document.Distinct) : document.sorted.Distinct := by
  intro name
  have sectionDistinct := distinct name
  rw [get_sorted]
  cases isRecords : document.sections.get name with
  | none => exact List.nodup_nil
  | some records =>
      rw [isRecords] at sectionDistinct
      exact ((sortedRecords_perm records).map Record.id).nodup_iff.mpr sectionDistinct

theorem sorted_sorted (distinct : document.Distinct) :
    document.sorted.sorted = document.sorted :=
  (sorted_alike document).sorted (sorted_distinct distinct)

/-! ## The candidate -/

variable [rules : ConfigurationRules] {plan : Plan} {base : ConfigurationVersion}
  {patch : List Json} {candidateId : Text} {result : PatchedConfiguration}
  {operations : List Operation}

theorem Built.patchedFrom
    (built : Built plan base patch candidateId operations document result) :
    PatchedFrom operations base candidateId result.candidate.document := by
  obtain ⟨_, applicable, effects⟩ :=
    applyOperations_effects built.baseDistinct built.applied
  obtain ⟨enveloped, _, isCandidate⟩ := parseVersion_eq_some built.parsed
  obtain ⟨_, _, isBase⟩ := parseVersion_eq_some built.revalidated
  have baseSorted : base.document = base.document.sorted :=
    congrArg ConfigurationVersion.document isBase
  have isDocument : result.candidate.document = document.sorted :=
    congrArg ConfigurationVersion.document isCandidate
  obtain ⟨isSchema, isRest⟩ := Prod.ext_iff.mp effects.envelope
  obtain ⟨isVersion, isPredecessor⟩ := Prod.ext_iff.mp isRest
  have found := record?_sorted effects.distinct
  have present : ∀ name, (document.sorted.sections.get name).isSome = true ↔
      (document.sections.get name).isSome = true := by
    intro name
    rw [get_sorted, Option.isSome_map]
  rw [isDocument]
  refine ⟨isSchema, isVersion, isPredecessor,
    ((sorted_alike document).enveloped.mpr enveloped).2.2.2.2.2.2,
    sorted_sorted effects.distinct, fun name => (present name).trans (effects.sections name),
    fun name others => ?_, fun name identifier others => ?_, fun operation member isAdd => ?_,
    fun operation member isUpdate => ?_, fun operation member isRemove => ?_⟩
  · rw [baseSorted, get_sorted, get_sorted]
    refine sorted_of_rel (rel_of_findRecord ?_ (effects.distinct name)
      (built.baseDistinct name) fun identifier => ?_) (effects.distinct name)
    · rw [effects.sections]
      refine ⟨fun either => either.resolve_right ?_, Or.inl⟩
      rintro ⟨operation, member, isSection⟩
      exact others operation member isSection
    · refine effects.others name identifier fun operation member isKey => ?_
      exact others operation member (congrArg Prod.fst isKey)
  · rw [found]
    exact effects.others name identifier others
  · have isNamed := effects.named operation member
    unfold Operation.effect at isNamed
    rw [isAdd] at isNamed
    rw [found]
    exact ⟨(applicable.applies operation member).mp isAdd, isNamed⟩
  · have isNamed := effects.named operation member
    have applies := applicable.applies operation member
    unfold Operation.effect at isNamed
    rw [isUpdate] at isNamed
    unfold Operation.Applies at applies
    rw [isUpdate] at applies
    cases isOld : base.document.record? operation.section_ operation.id with
    | none => cases applies.mpr isOld
    | some old =>
        have isSuccessor : (successor base candidateId).record? operation.section_
            operation.id = some old := isOld
        rw [isSuccessor] at isNamed
        refine ⟨old, _, rfl, (found _ _).trans isNamed, rfl, fun key => ?_⟩
        exact findEntry_updatedValues _ _ _ _
  · have isNamed := effects.named operation member
    have applies := applicable.applies operation member
    unfold Operation.effect at isNamed
    rw [isRemove] at isNamed
    unfold Operation.Applies at applies
    rw [isRemove] at applies
    rw [found]
    refine ⟨?_, isNamed⟩
    rw [← Option.ne_none_iff_isSome]
    intro missing
    cases applies.mpr missing

end ParishKit.Configuration
