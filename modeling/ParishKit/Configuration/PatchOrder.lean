import Mathlib.Data.List.Dedup
import ParishKit.Configuration.DocumentOrder
import ParishKit.Lib.Except

/-!
# The order of a patch

A patch builds the same candidate whatever the order of its operations, and so does
its canonical text.
-/

namespace ParishKit.Configuration

open ParishKit.Lib

/-! ## Reading -/

theorem Action.text_word_of_read {value : Json} {action : Action}
    (isRead : Action.read value = some action) : value = .text action.word := by
  unfold Action.read at isRead
  have isWord := List.find?_some isRead
  exact of_decide_eq_true isWord

/-- An operation is read from its normalized form. -/
theorem Operation.item_of_read
    {sections : List Text} {credentialReference : Bool} {raw : Json} {operation : Operation}
    (isRead : Operation.read sections credentialReference raw = some operation) :
    operation.item = raw := by
  unfold Operation.read at isRead
  split at isRead
  case h_2 => cases isRead
  rename_i fields
  obtain ⟨action, isAction, rest⟩ := Option.bind_eq_some_iff.mp isRead
  obtain ⟨word, isWord, isActionRead⟩ := Option.bind_eq_some_iff.mp isAction
  have isText := Action.text_word_of_read isActionRead
  subst isText
  dsimp only at rest
  by_cases keys : fields.map Prod.fst = ["id".toList, "operation".toList, "section".toList] ++
      if action = .remove then [] else ["values".toList]
  case neg =>
    rw [if_pos keys] at rest
    cases rest
  rw [if_neg (not_not.mpr keys)] at rest
  split at rest
  case h_2 => cases rest
  rename_i name identifier isSection isId
  split_ifs at rest with _ _ _ isRemove
  · cases rest
    have isFields := entries_of_keys Json.null keys (by rw [if_pos isRemove]; decide)
    unfold Operation.item
    rw [if_pos isRemove] at isFields ⊢
    rw [← isFields]
    simp only [List.append_nil, List.map_cons, List.map_nil, isSection, isId, isWord,
      Option.getD_some]
  · split at rest
    case h_2 => cases rest
    rename_i values isValues
    split_ifs at rest
    cases rest
    have isFields := entries_of_keys Json.null keys (by rw [if_neg isRemove]; decide)
    unfold Operation.item
    rw [if_neg isRemove] at isFields ⊢
    rw [← isFields]
    simp only [List.cons_append, List.nil_append, List.map_cons, List.map_nil, isSection,
      isId, isWord, isValues, Option.getD_some]

theorem items_of_read
    {sections : List Text} {credentialReference : Bool} {patch : List Json}
    {operations : List Operation}
    (isRead : patch.mapM (Operation.read sections credentialReference) = some operations) :
    operations.map Operation.item = patch := by
  have each := option_mapM_eq_some isRead
  clear isRead
  induction each with
  | nil => rfl
  | cons isFirst _ inductionHypothesis =>
      rw [List.map_cons, Operation.item_of_read isFirst, inductionHypothesis]

/-! ## Applying -/

/-- Records of distinct identities are a permutation of those found alike. -/
theorem perm_of_findRecord
    {records others : List Record} (distinct : (records.map Record.id).Nodup)
    (othersDistinct : (others.map Record.id).Nodup)
    (same : ∀ identifier, findRecord identifier records = findRecord identifier others) :
    records.Perm others := by
  rw [List.perm_ext_iff_of_nodup (distinct.of_map _) (othersDistinct.of_map _)]
  intro record
  rw [← findRecord_eq_some distinct, ← findRecord_eq_some othersDistinct, same]

variable {document next other : Document} {operations others : List Operation}

theorem Applicable.perm
    (applicable : Applicable operations document) (perm : operations.Perm others) :
    Applicable others document :=
  ⟨(perm.map Operation.key).nodup_iff.mp applicable.apart, fun operation member =>
    applicable.applies operation (perm.mem_iff.mpr member)⟩

/-- A permutation of the operations has the same effects. -/
theorem Effects.record?_eq
    (effects : Effects operations document next) (otherEffects : Effects others document other)
    (perm : operations.Perm others) (name identifier : Text) :
    next.record? name identifier = other.record? name identifier := by
  by_cases named : ∃ operation ∈ operations, (name, identifier) = operation.key
  · obtain ⟨operation, member, isKey⟩ := named
    have isNamed := effects.named operation member
    have isOther := otherEffects.named operation (perm.mem_iff.mp member)
    obtain ⟨isName, isIdentifier⟩ := Prod.ext_iff.mp isKey
    have isSection : name = operation.section_ := isName
    have isId : identifier = operation.id := isIdentifier
    rw [isSection, isId, isNamed, isOther]
  · rw [effects.others name identifier fun operation member isKey =>
        named ⟨operation, member, isKey⟩,
      otherEffects.others name identifier fun operation member isKey =>
        named ⟨operation, perm.mem_iff.mpr member, isKey⟩]

/-- Sections in which the same is found have the same records, in any order. -/
theorem rel_of_findRecord
    {section_ another : Option (List Record)}
    (present : section_.isSome = true ↔ another.isSome = true)
    (distinct : ((section_.getD []).map Record.id).Nodup)
    (anotherDistinct : ((another.getD []).map Record.id).Nodup)
    (same : ∀ identifier, findRecord identifier (section_.getD []) =
      findRecord identifier (another.getD [])) :
    Option.Rel List.Perm section_ another := by
  cases section_ with
  | none =>
      cases another with
      | none => exact Option.Rel.none
      | some records => cases present.mpr rfl
  | some records =>
      cases another with
      | none => cases present.mp rfl
      | some listed => exact Option.Rel.some (perm_of_findRecord distinct anotherDistinct same)

theorem Effects.alike
    (effects : Effects operations document next) (otherEffects : Effects others document other)
    (perm : operations.Perm others) : Alike next other := by
  refine ⟨effects.envelope.trans otherEffects.envelope.symm, fun name =>
    rel_of_findRecord ?_ (effects.distinct name) (otherEffects.distinct name)
      (effects.record?_eq otherEffects perm name)⟩
  rw [effects.sections, otherEffects.sections]
  simp only [perm.mem_iff]

/-- The same document, apart from the order of records, is made of permuted operations. -/
theorem applyOperations_perm
    (distinct : document.Distinct) (perm : operations.Perm others)
    (applied : applyOperations [] document operations = some next) :
    ∃ other, applyOperations [] document others = some other ∧ Alike next other := by
  obtain ⟨_, applicable, effects⟩ := applyOperations_effects distinct applied
  obtain ⟨other, isOther⟩ := applyOperations_of_applicable distinct
    (fun operation _ => List.not_mem_nil) (applicable.perm perm)
  obtain ⟨_, _, otherEffects⟩ := applyOperations_effects distinct isOther
  exact ⟨other, isOther, effects.alike otherEffects perm⟩

/-! ## Distinct identities -/

theorem Document.Enveloped.distinct (enveloped : document.Enveloped) : document.Distinct := by
  intro name
  have identities : document.identities.Nodup := enveloped.2.2.2.2.2.2
  cases isRecords : document.sections.get name with
  | none => exact List.nodup_nil
  | some records =>
      have member : (name, records) ∈ document.sections.entries :=
        mem_of_findEntry isRecords
      exact (List.nodup_flatMap.mp identities).1 (name, records) member

theorem parseVersion_eq_some
    {validateSections : Document → Bool} {version : ConfigurationVersion}
    (parsed : parseVersion validateSections document = some version) :
    document.Enveloped ∧ validateSections document.sorted = true ∧
      version = ⟨document.versionId, document.predecessorDigest, document.sorted⟩ := by
  unfold parseVersion at parsed
  split at parsed
  · rename_i enveloped
    dsimp only at parsed
    split at parsed
    · rename_i valid
      exact ⟨enveloped, valid.2, (Option.some.inj parsed).symm⟩
    · cases parsed
  · cases parsed

/-! ## The canonical order -/

instance : Std.Total itemOrder where
  total left right := by
    unfold itemOrder
    rcases lt_trichotomy left.section_ right.section_ with less | same | greater
    · exact Or.inl (Or.inl less)
    · rcases le_total left.id right.id with below | above
      · exact Or.inl (Or.inr ⟨same, below⟩)
      · exact Or.inr (Or.inr ⟨same.symm, above⟩)
    · exact Or.inr (Or.inl greater)

instance : IsTrans Operation itemOrder where
  trans first second third before after := by
    unfold itemOrder at before after ⊢
    rcases before with less | ⟨same, below⟩
    · rcases after with further | ⟨same, _⟩
      · exact Or.inl (less.trans further)
      · exact Or.inl (same ▸ less)
    · rcases after with further | ⟨again, belowAgain⟩
      · exact Or.inl (same ▸ further)
      · exact Or.inr ⟨same.trans again, below.trans belowAgain⟩

theorem key_eq_of_itemOrder {left right : Operation} (before : itemOrder left right)
    (after : itemOrder right left) : left.key = right.key := by
  rcases before with less | ⟨same, below⟩
  · rcases after with greater | ⟨same, _⟩
    · exact absurd greater (lt_asymm less)
    · exact absurd less (same ▸ lt_irrefl _)
  · rcases after with greater | ⟨_, above⟩
    · exact absurd greater (same ▸ lt_irrefl _)
    · exact Prod.ext same (le_antisymm below above)

/-- Operations on different records have one canonical order. -/
theorem insertionSort_itemOrder_perm
    (apart : (operations.map Operation.key).Nodup) (perm : operations.Perm others) :
    operations.insertionSort itemOrder = others.insertionSort itemOrder :=
  insertionSort_perm apart (fun _ _ => key_eq_of_itemOrder) perm

/-! ## Single operations -/

variable {patch permuted : List Json}

/-- Permuted lists are equal, or both have two elements at least. -/
theorem eq_or_two_of_perm {α : Type} {list other : List α} (perm : list.Perm other) :
    list = other ∨ 2 ≤ list.length ∧ 2 ≤ other.length := by
  match list, perm with
  | [], perm => exact Or.inl (List.nil_perm.mp perm).symm
  | [_], perm => exact Or.inl (List.singleton_perm.mp perm)
  | _ :: _ :: _, perm =>
      refine Or.inr ⟨by simp, ?_⟩
      rw [← perm.length_eq]
      simp

theorem credentialShape_of_two (two : 2 ≤ patch.length) : credentialShape patch = false := by
  match patch, two with
  | _ :: _ :: _, _ => rfl

theorem credentialShape_perm (perm : patch.Perm permuted) :
    credentialShape patch = credentialShape permuted := by
  rcases eq_or_two_of_perm perm with rfl | ⟨two, otherTwo⟩
  · rfl
  · rw [credentialShape_of_two two, credentialShape_of_two otherTwo]

theorem usersSchema_perm (document : Document) (perm : patch.Perm permuted) :
    usersSchema document patch = usersSchema document permuted := by
  unfold usersSchema
  rw [perm.any_eq, perm.any_eq]

theorem candidateOperation_perm (perm : patch.Perm permuted) :
    candidateOperation patch = candidateOperation permuted := by
  unfold candidateOperation
  have isPerm := (perm.filterMap assignmentOperation).dedup
  rcases eq_or_two_of_perm isPerm with same | ⟨two, otherTwo⟩
  · rw [same]
  · split
    · rename_i isOne
      rw [isOne] at two
      simp at two
    · split
      · rename_i isOne
        rw [isOne] at otherTwo
        simp at otherTwo
      · rfl

/-! ## Building -/

variable [rules : ConfigurationRules] {plan : Plan} {base : ConfigurationVersion}
  {candidateId : Text} {result : PatchedConfiguration}

/-- The base's document as the candidate's successor of it. -/
def successor (base : ConfigurationVersion) (candidateId : Text) : Document :=
  { base.document with
    versionId := candidateId
    predecessorDigest := some base.digest }

/-- What a candidate was built from. -/
structure Built (plan : Plan) (base : ConfigurationVersion) (patch : List Json)
    (candidateId : Text) (operations : List Operation) (document : Document)
    (result : PatchedConfiguration) : Prop where
  fresh : candidateId ≠ base.versionId
  bounded : ¬ (patch.length = 0 ∨ plan.limit < patch.length)
  revalidated : parseVersion (rules.validSections plan.baseSchema .all) base.document =
    some base
  read : patch.mapM (Operation.read plan.sections plan.credentialReference) =
    some operations
  applied : applyOperations [] (successor base candidateId) operations = some document
  parsed : parseVersion (rules.validSections plan.schema (recordsOf base.document))
    document = some result.candidate
  canonicalPatch : result.canonicalPatch =
    (operations.insertionSort itemOrder).map Operation.item
  payloadFingerprint : result.payloadFingerprint =
    rules.sha256 (base.digest ++ dumps (.list result.canonicalPatch))

theorem buildRecords_eq_some :
    buildRecords plan base patch candidateId = some result ↔
      ∃ (operations : List Operation) (document : Document),
        Built plan base patch candidateId operations document result := by
  unfold buildRecords
  constructor
  · intro built
    split_ifs at built with same unbounded invalid
    rw [ne_eq, not_not] at invalid
    obtain ⟨operations, isRead, rest⟩ := Option.bind_eq_some_iff.mp built
    obtain ⟨document, isApplied, remaining⟩ := Option.bind_eq_some_iff.mp rest
    obtain ⟨candidate, isParsed, isResult⟩ := Option.bind_eq_some_iff.mp remaining
    cases isResult
    exact ⟨operations, document, same, unbounded, invalid, isRead, isApplied, isParsed,
      rfl, rfl⟩
  · rintro ⟨operations, document, built⟩
    rw [if_neg built.fresh, if_neg built.bounded, if_neg (not_not.mpr built.revalidated),
      built.read]
    refine Option.bind_eq_some_iff.mpr ⟨operations, rfl,
      Option.bind_eq_some_iff.mpr ⟨document, built.applied, ?_⟩⟩
    rw [built.parsed]
    obtain ⟨candidate, canonicalPatch, payloadFingerprint⟩ := result
    have isCanonical := built.canonicalPatch
    have isFingerprint := built.payloadFingerprint
    dsimp only at isCanonical isFingerprint
    rw [isFingerprint, isCanonical]
    rfl

theorem Built.baseDistinct {operations : List Operation} {document : Document}
    (built : Built plan base patch candidateId operations document result) :
    (successor base candidateId).Distinct :=
  (parseVersion_eq_some built.revalidated).1.distinct

theorem buildRecords_of_perm
    (perm : patch.Perm permuted)
    (isBuilt : buildRecords plan base patch candidateId = some result) :
    buildRecords plan base permuted candidateId = some result := by
  obtain ⟨operations, document, built⟩ := buildRecords_eq_some.mp isBuilt
  obtain ⟨others, isRead, operationsPerm⟩ := option_mapM_perm perm built.read
  have apart := (applyOperations_effects built.baseDistinct built.applied).2.1.apart
  have distinct := (applyOperations_effects built.baseDistinct built.applied).2.2.distinct
  obtain ⟨other, isApplied, alike⟩ :=
    applyOperations_perm built.baseDistinct operationsPerm built.applied
  refine buildRecords_eq_some.mpr ⟨others, other, built.fresh, ?_, built.revalidated, isRead,
    isApplied, ?_, ?_, built.payloadFingerprint⟩
  · rw [← perm.length_eq]
    exact built.bounded
  · rw [← alike.parseVersion distinct]
    exact built.parsed
  · rw [built.canonicalPatch, insertionSort_itemOrder_perm apart operationsPerm]

theorem buildRecords_perm (perm : patch.Perm permuted) :
    buildRecords plan base patch candidateId =
      buildRecords plan base permuted candidateId :=
  Option.ext fun _ => ⟨buildRecords_of_perm perm, buildRecords_of_perm perm.symm⟩

/-- The canonical patch is the patch in another order. -/
theorem canonicalPatch_perm
    (isBuilt : buildRecords plan base patch candidateId = some result) :
    patch.Perm result.canonicalPatch := by
  obtain ⟨operations, document, built⟩ := buildRecords_eq_some.mp isBuilt
  rw [built.canonicalPatch, ← items_of_read built.read]
  exact (List.perm_insertionSort itemOrder operations).symm.map Operation.item

/-! ## The formats -/

theorem plan_perm (format : RequestFormat) (document : Document)
    (perm : patch.Perm permuted) :
    format.plan document patch = format.plan document permuted := by
  unfold RequestFormat.plan
  rw [credentialShape_perm perm, usersSchema_perm document perm]

/-- A credential format has one operation; the others' checks take any order. -/
theorem accepts_perm
    {format : RequestFormat} {document candidate : Document} (perm : patch.Perm permuted)
    (isPlan : format.plan document patch = some plan) :
    format.accepts document patch candidate =
      format.accepts document permuted candidate := by
  rcases eq_or_two_of_perm perm with rfl | ⟨two, otherTwo⟩
  · rfl
  · cases format
    case credential | cadenceCredential | usersCredential =>
      unfold RequestFormat.plan at isPlan
      simp only [credentialShape_of_two two, Bool.false_eq_true, if_false] at isPlan
      cases isPlan
    case chairSeed =>
      unfold RequestFormat.accepts
      rw [candidateOperation_perm perm]
    case recovery | campaignRecovery | bootstrapRecovery | ministryRecovery
        | contentRecovery | cadenceRecovery | usersRecovery =>
      match patch, permuted, two, otherTwo with
      | _ :: _ :: _, _ :: _ :: _, _, _ => rfl
    all_goals rfl

theorem buildCandidate_perm (format : RequestFormat) (perm : patch.Perm permuted) :
    buildCandidate format base patch candidateId =
      buildCandidate format base permuted candidateId := by
  unfold buildCandidate
  rw [← plan_perm format base.document perm]
  cases isPlan : format.plan base.document patch with
  | none => rfl
  | some plan =>
      rw [Option.bind_eq_bind, Option.bind_eq_bind, Option.bind_some, Option.bind_some,
        buildRecords_perm perm]
      refine congrArg _ (funext fun result => ?_)
      rw [accepts_perm perm isPlan]

end ParishKit.Configuration
