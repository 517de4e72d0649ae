import ParishKit.Configuration.RequestPatch

/-!
# The effect of a patch

An operation changes the record it names and no other. A list of operations is
applied exactly when each is about another record and adds only records that are
missing, and then each of them has had its effect on the base.
-/

namespace ParishKit.Configuration

open ParishKit.Lib

/-! ## Records -/

/-- The record of an identity. -/
def findRecord (identifier : Text) (records : List Record) : Option Record :=
  records.find? fun record => record.id == identifier

theorem findRecord_cons (identifier : Text) (record : Record) (rest : List Record) :
    findRecord identifier (record :: rest) =
      if record.id = identifier then some record else findRecord identifier rest := by
  unfold findRecord
  rw [List.find?_cons]
  by_cases same : record.id = identifier
  · rw [beq_iff_eq.mpr same, if_pos same]
  · rw [beq_eq_false_iff_ne.mpr same, if_neg same]

theorem findRecord_eq_none {identifier : Text} {records : List Record} :
    findRecord identifier records = none ↔ identifier ∉ records.map Record.id := by
  unfold findRecord
  rw [List.find?_eq_none, List.mem_map]
  constructor
  · rintro others ⟨record, member, same⟩
    exact others record member (beq_iff_eq.mpr same)
  · intro others record member same
    exact others ⟨record, member, eq_of_beq same⟩

theorem findRecord_append (identifier : Text) (records : List Record) (record : Record) :
    findRecord identifier (records ++ [record]) =
      (findRecord identifier records).or
        (if record.id = identifier then some record else none) := by
  unfold findRecord
  rw [List.find?_append, List.find?_cons]
  by_cases same : record.id = identifier
  · rw [beq_iff_eq.mpr same, if_pos same]
  · rw [beq_eq_false_iff_ne.mpr same, if_neg same]
    rfl

/-- Of distinct identities, each record is found by its own. -/
theorem findRecord_eq_some
    {records : List Record} (distinct : (records.map Record.id).Nodup) {record : Record} :
    findRecord record.id records = some record ↔ record ∈ records := by
  induction records with
  | nil =>
      constructor
      · intro isSome
        cases isSome
      · intro member
        cases member
  | cons head tail inductionHypothesis =>
      rw [List.map_cons, List.nodup_cons] at distinct
      obtain ⟨headOnce, tailDistinct⟩ := distinct
      rw [findRecord_cons, List.mem_cons]
      by_cases same : head.id = record.id
      · rw [if_pos same]
        constructor
        · intro isHead
          exact Or.inl (Option.some.inj isHead).symm
        · rintro (rfl | later)
          · rfl
          · exact absurd (same ▸ List.mem_map_of_mem later) headOnce
      · rw [if_neg same, inductionHypothesis tailDistinct]
        constructor
        · exact Or.inr
        · rintro (rfl | later)
          · exact absurd rfl same
          · exact later

theorem findRecord_id {identifier : Text} {records : List Record} {record : Record}
    (found : findRecord identifier records = some record) :
    record.id = identifier ∧ record ∈ records := by
  have isMatch := List.find?_some found
  exact ⟨eq_of_beq isMatch, List.mem_of_find?_eq_some found⟩

/-- The order of records of distinct identities is not seen. -/
theorem findRecord_perm
    {records others : List Record} (perm : records.Perm others)
    (distinct : (records.map Record.id).Nodup) (identifier : Text) :
    findRecord identifier records = findRecord identifier others := by
  have othersDistinct : (others.map Record.id).Nodup :=
    (perm.map Record.id).nodup_iff.mp distinct
  refine Option.ext fun record => ⟨fun found => ?_, fun found => ?_⟩
  · obtain ⟨isRecord, member⟩ := findRecord_id found
    rw [← isRecord]
    exact (findRecord_eq_some othersDistinct).mpr (perm.mem_iff.mp member)
  · obtain ⟨isRecord, member⟩ := findRecord_id found
    rw [← isRecord]
    exact (findRecord_eq_some distinct).mpr (perm.mem_iff.mpr member)

variable {identifier : Text} {change : Record → Option Record}

theorem ids_changeRecord_sublist
    (keepsId : ∀ record changed, change record = some changed → changed.id = record.id)
    (records : List Record) :
    ((changeRecord identifier change records).map Record.id).Sublist
      (records.map Record.id) := by
  induction records with
  | nil => exact List.Sublist.refl _
  | cons record rest inductionHypothesis =>
      rw [changeRecord]
      split
      · cases isChange : change record with
        | none => exact List.sublist_cons_self _ _
        | some changed =>
            rw [List.map_cons, List.map_cons, keepsId record changed isChange]
      · exact inductionHypothesis.cons_cons _

/-- The record of the identity is changed, and no other. -/
theorem findRecord_changeRecord
    (keepsId : ∀ record changed, change record = some changed → changed.id = record.id)
    {records : List Record} (distinct : (records.map Record.id).Nodup) (other : Text) :
    findRecord other (changeRecord identifier change records) =
      if other = identifier then (findRecord identifier records).bind change
      else findRecord other records := by
  induction records with
  | nil =>
      split
      · rfl
      · rfl
  | cons record rest inductionHypothesis =>
      rw [List.map_cons, List.nodup_cons] at distinct
      obtain ⟨once, restDistinct⟩ := distinct
      rw [changeRecord, findRecord_cons identifier, findRecord_cons other record]
      by_cases isRecord : record.id = identifier
      · rw [if_pos isRecord, if_pos isRecord, Option.bind_some]
        have absent : findRecord identifier rest = none := by
          rw [findRecord_eq_none, ← isRecord]
          exact once
        cases isChange : change record with
        | none =>
            by_cases same : other = identifier
            · rw [if_pos same, same, absent]
            · rw [if_neg same, if_neg fun equal => same (equal.symm.trans isRecord)]
        | some changed =>
            dsimp only
            rw [findRecord_cons, keepsId record changed isChange]
            by_cases same : other = identifier
            · rw [if_pos (isRecord.trans same.symm), if_pos same]
            · rw [if_neg fun equal => same (equal.symm.trans isRecord), if_neg same,
                if_neg fun equal => same (equal.symm.trans isRecord)]
      · rw [if_neg isRecord, if_neg isRecord, findRecord_cons,
          inductionHypothesis restDistinct]
        by_cases same : other = identifier
        · rw [if_pos same, if_pos same, same, if_neg isRecord]
        · rw [if_neg same, if_neg same]

/-! ## One operation -/

/-- What an operation makes of the record it names. -/
def Operation.effect (operation : Operation) (record : Option Record) : Option Record :=
  match operation.action with
  | .add => some ⟨operation.id, operation.values⟩
  | .update => record.map fun record => { record with
      values := updatedValues operation.section_ operation.values record.values }
  | .remove => none

/-- It adds only a missing record, and changes or removes only one that is there. -/
def Operation.Applies (operation : Operation) (document : Document) : Prop :=
  operation.action = .add ↔
    document.record? operation.section_ operation.id = none

/-- No section has two records of one identity. -/
def Document.Distinct (document : Document) : Prop :=
  ∀ name, (((document.sections.get name).getD []).map Record.id).Nodup

/-- The document apart from its sections. -/
def Document.envelope (document : Document) : Int × Text × Option Text :=
  (document.schemaVersion, document.versionId, document.predecessorDigest)

/-- What one operation leaves of a document. -/
structure Operation.Changes (operation : Operation) (document next : Document) : Prop where
  envelope : next.envelope = document.envelope
  distinct : next.Distinct
  named : next.record? operation.section_ operation.id =
    operation.effect (document.record? operation.section_ operation.id)
  others : ∀ name identifier, (name, identifier) ≠ operation.key →
    next.record? name identifier = document.record? name identifier
  sections : ∀ name, (next.sections.get name).isSome = true ↔
    (document.sections.get name).isSome = true ∨ name = operation.section_

variable {document next : Document} {operation : Operation}

/-- A section of changed records. -/
theorem changes_of_records
    {records : List Record}
    (distinct : document.Distinct) (recordsDistinct : (records.map Record.id).Nodup)
    (isNext : next = { document with
      sections := document.sections.set operation.section_ records })
    (found : ∀ identifier, findRecord identifier records =
      if identifier = operation.id then
        operation.effect (document.record? operation.section_ operation.id)
      else document.record? operation.section_ identifier) :
    operation.Changes document next := by
  subst isNext
  have named : (document.sections.set operation.section_ records).get operation.section_ =
      some records := document.sections.get_set_self _ _
  have others : ∀ name, operation.section_ ≠ name →
      (document.sections.set operation.section_ records).get name =
        document.sections.get name :=
    fun name different => document.sections.get_set_of_ne _ different
  refine ⟨rfl, fun name => ?_, ?_, fun name identifier other => ?_, fun name => ?_⟩
  · dsimp only
    by_cases same : operation.section_ = name
    · rw [← same, named]
      exact recordsDistinct
    · rw [others name same]
      exact distinct name
  · unfold Document.record?
    dsimp only
    rw [named]
    have isNamed := found operation.id
    rw [if_pos rfl] at isNamed
    exact isNamed
  · unfold Document.record?
    dsimp only
    by_cases same : operation.section_ = name
    · rw [← same, named]
      have isOther := found identifier
      rw [if_neg fun equal => other (by rw [equal, ← same]; rfl)] at isOther
      exact isOther
    · rw [others name same]
  · dsimp only
    by_cases same : operation.section_ = name
    · rw [← same, named]
      exact ⟨fun _ => Or.inr rfl, fun _ => rfl⟩
    · rw [others name same]
      exact ⟨Or.inl, fun either => either.resolve_right fun equal => same equal.symm⟩

theorem applyOperation_changes
    (distinct : document.Distinct) (applied : applyOperation document operation = some next) :
    operation.Applies document ∧ operation.Changes document next := by
  have recordsDistinct := distinct operation.section_
  unfold applyOperation at applied
  dsimp only at applied
  split at applied
  · rename_i isAdd missing
    have absent : document.record? operation.section_ operation.id = none := missing
    refine ⟨⟨fun _ => absent, fun _ => isAdd⟩, changes_of_records distinct ?_
      (Option.some.inj applied).symm fun identifier => ?_⟩
    · rw [List.map_append, List.nodup_append]
      refine ⟨recordsDistinct, List.nodup_singleton _, ?_⟩
      intro first isFirst second isSecond same
      rw [List.mem_singleton.mp isSecond] at same
      rw [same] at isFirst
      exact findRecord_eq_none.mp missing isFirst
    · rw [findRecord_append]
      dsimp only
      by_cases same : identifier = operation.id
      · rw [if_pos same, if_pos same.symm, same]
        have notThere : findRecord operation.id
          ((document.sections.get operation.section_).getD []) = none := missing
        rw [notThere]
        unfold Operation.effect
        rw [isAdd]
        rfl
      · rw [if_neg same, if_neg fun equal => same equal.symm, Option.or_none]
        rfl
  · rename_i record isUpdate found
    have present : document.record? operation.section_ operation.id = some record := found
    refine ⟨⟨fun isAdd => ?_, fun missing => ?_⟩, changes_of_records distinct ?_
      (Option.some.inj applied).symm fun identifier => ?_⟩
    · rw [isUpdate] at isAdd
      cases isAdd
    · rw [present] at missing
      cases missing
    · refine (ids_changeRecord_sublist (fun record changed isChanged => ?_) _).nodup
        recordsDistinct
      cases isChanged
      rfl
    · rw [findRecord_changeRecord (fun record changed isChanged => by cases isChanged; rfl)
        recordsDistinct]
      unfold Operation.effect
      rw [isUpdate]
      split
      · exact Option.map_eq_bind.symm
      · rfl
  · rename_i record isRemove found
    have present : document.record? operation.section_ operation.id = some record := found
    refine ⟨⟨fun isAdd => ?_, fun missing => ?_⟩, changes_of_records distinct ?_
      (Option.some.inj applied).symm fun identifier => ?_⟩
    · rw [isRemove] at isAdd
      cases isAdd
    · rw [present] at missing
      cases missing
    · refine (ids_changeRecord_sublist (fun record changed isChanged => ?_) _).nodup
        recordsDistinct
      cases isChanged
    · rw [findRecord_changeRecord (fun record changed isChanged => by cases isChanged)
        recordsDistinct]
      unfold Operation.effect
      rw [isRemove]
      split
      · exact Option.bind_fun_none _
      · rfl
  · cases applied

theorem applyOperation_of_applies (applies : operation.Applies document) :
    ∃ next, applyOperation document operation = some next := by
  unfold applyOperation
  dsimp only
  cases found : ((document.sections.get operation.section_).getD []).find? fun record =>
      record.id == operation.id with
  | none =>
      have isAdd : operation.action = .add := applies.mpr found
      rw [isAdd]
      exact ⟨_, rfl⟩
  | some record =>
      cases isAction : operation.action with
      | add =>
          have missing : document.record? operation.section_ operation.id = none :=
            applies.mp isAction
          have present : document.record? operation.section_ operation.id = some record :=
            found
          rw [present] at missing
          cases missing
      | update => exact ⟨_, rfl⟩
      | remove => exact ⟨_, rfl⟩

/-! ## A list of operations -/

/-- What a list of operations leaves of a document. -/
structure Effects (operations : List Operation) (document next : Document) : Prop where
  envelope : next.envelope = document.envelope
  distinct : next.Distinct
  named : ∀ operation ∈ operations,
    next.record? operation.section_ operation.id =
      operation.effect (document.record? operation.section_ operation.id)
  others : ∀ name identifier,
    (∀ operation ∈ operations, (name, identifier) ≠ operation.key) →
      next.record? name identifier = document.record? name identifier
  sections : ∀ name, (next.sections.get name).isSome = true ↔
    (document.sections.get name).isSome = true ∨
      ∃ operation ∈ operations, name = operation.section_

/-- Each operation is about another record, and applies to the document. -/
structure Applicable (operations : List Operation) (document : Document) : Prop where
  apart : (operations.map Operation.key).Nodup
  applies : ∀ operation ∈ operations, operation.Applies document

/-- An operation on another record still applies. -/
theorem Operation.Changes.applies_iff
    (changes : operation.Changes document next) {other : Operation}
    (different : other.key ≠ operation.key) :
    other.Applies next ↔ other.Applies document := by
  unfold Operation.Applies
  rw [changes.others other.section_ other.id different]

theorem applyOperations_effects
    {operations : List Operation} {seen : List (Text × Text)}
    (distinct : document.Distinct)
    (applied : applyOperations seen document operations = some next) :
    (∀ operation ∈ operations, operation.key ∉ seen) ∧ Applicable operations document ∧
      Effects operations document next := by
  induction operations generalizing seen document with
  | nil =>
      cases applied
      refine ⟨fun operation member => (by cases member),
        ⟨List.nodup_nil, fun operation member => (by cases member)⟩,
        rfl, distinct, fun operation member => (by cases member), fun _ _ _ => rfl,
        fun name => ⟨Or.inl, fun either => either.resolve_right ?_⟩⟩
      rintro ⟨operation, member, _⟩
      cases member
  | cons operation rest inductionHypothesis =>
      rw [applyOperations] at applied
      split at applied
      · cases applied
      rename_i unseen
      obtain ⟨middle, isMiddle, restApplied⟩ := Option.bind_eq_some_iff.mp applied
      obtain ⟨applies, changes⟩ := applyOperation_changes distinct isMiddle
      obtain ⟨restUnseen, applicable, effects⟩ :=
        inductionHypothesis changes.distinct restApplied
      have different : ∀ other ∈ rest, other.key ≠ operation.key :=
        fun other member same => restUnseen other member (same ▸ List.mem_cons_self)
      refine ⟨?_, ⟨?_, ?_⟩, ?_⟩
      · rw [List.forall_mem_cons]
        exact ⟨unseen, fun other member isSeen =>
          restUnseen other member (List.mem_cons_of_mem _ isSeen)⟩
      · rw [List.map_cons, List.nodup_cons]
        refine ⟨fun member => ?_, applicable.apart⟩
        obtain ⟨other, isOther, same⟩ := List.mem_map.mp member
        exact different other isOther same
      · rw [List.forall_mem_cons]
        exact ⟨applies, fun other member =>
          (changes.applies_iff (different other member)).mp
            (applicable.applies other member)⟩
      · refine ⟨effects.envelope.trans changes.envelope, effects.distinct, ?_, ?_, ?_⟩
        · rw [List.forall_mem_cons]
          constructor
          · rw [effects.others operation.section_ operation.id
              fun other member same => different other member same.symm]
            exact changes.named
          · intro other member
            rw [effects.named other member,
              changes.others other.section_ other.id (different other member)]
        · intro name identifier others
          rw [effects.others name identifier fun other member =>
              others other (List.mem_cons_of_mem _ member),
            changes.others name identifier (others operation List.mem_cons_self)]
        · intro name
          rw [effects.sections, changes.sections, or_assoc]
          simp only [List.mem_cons, exists_eq_or_imp]

theorem applyOperations_of_applicable
    {operations : List Operation} {seen : List (Text × Text)}
    (distinct : document.Distinct)
    (unseen : ∀ operation ∈ operations, operation.key ∉ seen)
    (applicable : Applicable operations document) :
    ∃ next, applyOperations seen document operations = some next := by
  induction operations generalizing seen document with
  | nil => exact ⟨document, rfl⟩
  | cons operation rest inductionHypothesis =>
      obtain ⟨middle, isMiddle⟩ := applyOperation_of_applies
        (applicable.applies operation List.mem_cons_self)
      have changes := (applyOperation_changes distinct isMiddle).2
      have apart := applicable.apart
      rw [List.map_cons, List.nodup_cons] at apart
      have different : ∀ other ∈ rest, other.key ≠ operation.key :=
        fun other member same => apart.1 (same ▸ List.mem_map_of_mem member)
      have restUnseen : ∀ other ∈ rest, other.key ∉ operation.key :: seen := by
        intro other member isSeen
        rcases List.mem_cons.mp isSeen with same | earlier
        · exact different other member same
        · exact unseen other (List.mem_cons_of_mem _ member) earlier
      obtain ⟨next, isNext⟩ := inductionHypothesis changes.distinct restUnseen
        ⟨apart.2, fun other member =>
          (changes.applies_iff (different other member)).mpr
            (applicable.applies other (List.mem_cons_of_mem _ member))⟩
      refine ⟨next, ?_⟩
      rw [applyOperations, if_neg (unseen operation List.mem_cons_self)]
      exact Option.bind_eq_some_iff.mpr ⟨middle, isMiddle, isNext⟩

end ParishKit.Configuration
