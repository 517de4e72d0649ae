import ParishKit.Configuration.PatchEffect
import ParishKit.Lib.Records

/-!
# The order of records

A document is parsed alike whatever the order of the records of a section: the
bounds count them, and the canonical document has them sorted.
-/

namespace ParishKit.Configuration

open ParishKit.Lib

/-! ## The bounds -/

mutual

/-- The values of a document, itself and within. -/
def nodes : Json → Nat
  | .list items => nodesItems items + 1
  | .object fields => nodesFields fields + 1
  | _ => 1

def nodesItems : List Json → Nat
  | [] => 0
  | item :: rest => nodes item + nodesItems rest

def nodesFields : List (Text × Json) → Nat
  | [] => 0
  | (_, item) :: rest => nodes item + nodesFields rest

end

mutual

/-- A value of JSON that is not nested too deep. -/
def plain (depth : Nat) : Json → Bool
  | .list items => decide (depth ≤ 32) && plainItems (depth + 1) items
  | .object fields => decide (depth ≤ 32) && plainFields (depth + 1) fields
  | .other _ => false
  | _ => decide (depth ≤ 32)

def plainItems (depth : Nat) : List Json → Bool
  | [] => true
  | item :: rest => plain depth item && plainItems depth rest

def plainFields (depth : Nat) : List (Text × Json) → Bool
  | [] => true
  | (_, item) :: rest => plain depth item && plainFields depth rest

end

theorem nodes_pos (value : Json) : 0 < nodes value := by
  cases value <;> simp [nodes]

/-- The rest of a budget, of a value and what follows it. -/
theorem bind_budget
    {first : Bool} {count rest budget : Nat} {later : Bool} {next : Nat → Option Nat}
    (isNext : ∀ left, next left =
      if later = true ∧ rest ≤ left then some (left - rest) else none) :
    ((if first = true ∧ count ≤ budget then some (budget - count) else none).bind next) =
      if (first && later) = true ∧ count + rest ≤ budget then
        some (budget - (count + rest))
      else none := by
  by_cases fits : first = true ∧ count ≤ budget
  · rw [if_pos fits, Option.bind_some, isNext]
    by_cases restFits : later = true ∧ rest ≤ budget - count
    · rw [if_pos restFits, if_pos ⟨by rw [fits.1, restFits.1]; rfl, by omega⟩]
      congr 1
      omega
    · rw [if_neg restFits, if_neg]
      rintro ⟨both, enough⟩
      rw [Bool.and_eq_true] at both
      exact restFits ⟨both.2, by omega⟩
  · rw [if_neg fits, Option.bind_none, if_neg]
    rintro ⟨both, enough⟩
    rw [Bool.and_eq_true] at both
    exact fits ⟨both.1, by omega⟩

theorem leaf_budget (depth budget : Nat) :
    (if budget = 0 ∨ 32 < depth then none else some (budget - 1)) =
      if decide (depth ≤ 32) = true ∧ 1 ≤ budget then some (budget - 1) else none := by
  by_cases spent : budget = 0 ∨ 32 < depth
  · rw [if_pos spent, if_neg]
    rintro ⟨shallow, enough⟩
    have le := of_decide_eq_true shallow
    omega
  · rw [if_neg spent, if_pos ⟨decide_eq_true (by omega), by omega⟩]

/-- Of a value with others in it. -/
theorem branch_budget
    {depth budget count : Nat} {inner : Bool} {result : Option Nat}
    (isResult : result =
      if inner = true ∧ count ≤ budget - 1 then some (budget - 1 - count) else none) :
    (if budget = 0 ∨ 32 < depth then none else result) =
      if (decide (depth ≤ 32) && inner) = true ∧ count + 1 ≤ budget then
        some (budget - (count + 1))
      else none := by
  rw [isResult]
  by_cases spent : budget = 0 ∨ 32 < depth
  · rw [if_pos spent, if_neg]
    rintro ⟨both, enough⟩
    have le := of_decide_eq_true (Bool.and_eq_true_iff.mp both).1
    omega
  · rw [if_neg spent]
    by_cases fits : inner = true ∧ count ≤ budget - 1
    · rw [if_pos fits, if_pos ⟨Bool.and_eq_true_iff.mpr
        ⟨decide_eq_true (by omega), fits.1⟩, by omega⟩]
      congr 1
      omega
    · rw [if_neg fits, if_neg]
      rintro ⟨both, enough⟩
      exact fits ⟨(Bool.and_eq_true_iff.mp both).2, by omega⟩

mutual

/-- What is left of a budget, and when anything is. -/
theorem jsonValue_eq (depth : Nat) : ∀ (value : Json) (budget : Nat),
    jsonValue depth value budget =
      if plain depth value = true ∧ nodes value ≤ budget then
        some (budget - nodes value)
      else none
  | .null, budget => by
      simp only [jsonValue, plain, nodes]
      exact leaf_budget depth budget
  | .bool value, budget => by
      simp only [jsonValue, plain, nodes]
      exact leaf_budget depth budget
  | .int value, budget => by
      simp only [jsonValue, plain, nodes]
      exact leaf_budget depth budget
  | .text value, budget => by
      simp only [jsonValue, plain, nodes]
      exact leaf_budget depth budget
  | .list items, budget => by
      simp only [jsonValue, plain, nodes]
      exact branch_budget (jsonItems_eq (depth + 1) items (budget - 1))
  | .object fields, budget => by
      simp only [jsonValue, plain, nodes]
      exact branch_budget (jsonFields_eq (depth + 1) fields (budget - 1))
  | .other kind, budget => by
      simp only [jsonValue, plain, ite_self, Bool.false_eq_true, false_and, if_false]

theorem jsonItems_eq (depth : Nat) : ∀ (items : List Json) (budget : Nat),
    jsonItems depth items budget =
      if plainItems depth items = true ∧ nodesItems items ≤ budget then
        some (budget - nodesItems items)
      else none
  | [], budget => by
      rw [jsonItems, if_pos ⟨rfl, Nat.zero_le _⟩]
      rfl
  | item :: rest, budget => by
      rw [jsonItems, jsonValue_eq depth item budget, plainItems, nodesItems]
      exact bind_budget fun left => jsonItems_eq depth rest left

theorem jsonFields_eq (depth : Nat) : ∀ (fields : List (Text × Json)) (budget : Nat),
    jsonFields depth fields budget =
      if plainFields depth fields = true ∧ nodesFields fields ≤ budget then
        some (budget - nodesFields fields)
      else none
  | [], budget => by
      rw [jsonFields, if_pos ⟨rfl, Nat.zero_le _⟩]
      rfl
  | (key, item) :: rest, budget => by
      rw [jsonFields, jsonValue_eq depth item budget, plainFields, nodesFields]
      exact bind_budget fun left => jsonFields_eq depth rest left

end

theorem nodesItems_eq (items : List Json) : nodesItems items = (items.map nodes).sum := by
  induction items with
  | nil => rfl
  | cons item rest inductionHypothesis =>
      rw [nodesItems, inductionHypothesis, List.map_cons, List.sum_cons]

theorem plainItems_eq (depth : Nat) (items : List Json) :
    plainItems depth items = items.all (plain depth) := by
  induction items with
  | nil => rfl
  | cons item rest inductionHypothesis =>
      rw [plainItems, inductionHypothesis, List.all_cons]

theorem bounds_list_perm (depth : Nat) {items others : List Json} (perm : items.Perm others) :
    nodes (.list items) = nodes (.list others) ∧
      plain depth (.list items) = plain depth (.list others) := by
  rw [nodes, nodes, plain, plain, nodesItems_eq, nodesItems_eq, plainItems_eq,
    plainItems_eq, (perm.map nodes).sum_nat]
  refine ⟨rfl, ?_⟩
  congr 1
  rw [Bool.eq_iff_iff, List.all_eq_true, List.all_eq_true]
  exact ⟨fun each item member => each item (perm.mem_iff.mpr member),
    fun each item member => each item (perm.mem_iff.mp member)⟩

/-! ## Documents alike -/

/-- The same envelope, and the same records in each section in any order. -/
structure Alike (document other : Document) : Prop where
  envelope : document.envelope = other.envelope
  records : ∀ name, Option.Rel List.Perm (document.sections.get name)
    (other.sections.get name)

variable {document other : Document}

theorem Alike.entries (alike : Alike document other) :
    List.Forall₂ (fun entry another => entry.1 = another.1 ∧ entry.2.Perm another.2)
      document.sections.entries other.sections.entries :=
  Dict.entries_related alike.records

theorem forall₂_keys
    {left right : List (Text × List Record)}
    (each : List.Forall₂ (fun entry another => entry.1 = another.1 ∧
      entry.2.Perm another.2) left right) :
    left.map Prod.fst = right.map Prod.fst := by
  induction each with
  | nil => rfl
  | cons isEntry _ inductionHypothesis =>
      rw [List.map_cons, List.map_cons, isEntry.1, inductionHypothesis]

theorem forall₂_identities
    {left right : List (Text × List Record)}
    (each : List.Forall₂ (fun entry another => entry.1 = another.1 ∧
      entry.2.Perm another.2) left right) :
    (left.flatMap fun entry => entry.2.map Record.id).Perm
      (right.flatMap fun entry => entry.2.map Record.id) := by
  induction each with
  | nil => exact List.Perm.refl _
  | cons isEntry _ inductionHypothesis =>
      rw [List.flatMap_cons, List.flatMap_cons]
      exact (isEntry.2.map Record.id).append inductionHypothesis

def sectionFields (entries : List (Text × List Record)) : Fields :=
  entries.map fun entry => (entry.1, .list (entry.2.map Record.json))

theorem forall₂_bounds
    (depth : Nat) {left right : List (Text × List Record)}
    (each : List.Forall₂ (fun entry another => entry.1 = another.1 ∧
      entry.2.Perm another.2) left right) :
    nodesFields (sectionFields left) = nodesFields (sectionFields right) ∧
      plainFields depth (sectionFields left) = plainFields depth (sectionFields right) := by
  induction each with
  | nil => exact ⟨rfl, rfl⟩
  | cons isEntry _ inductionHypothesis =>
      obtain ⟨sameNodes, samePlain⟩ :=
        bounds_list_perm depth (isEntry.2.map Record.json)
      obtain ⟨restNodes, restPlain⟩ := inductionHypothesis
      unfold sectionFields at restNodes restPlain ⊢
      rw [List.map_cons, List.map_cons, nodesFields, nodesFields, plainFields,
        plainFields, sameNodes, samePlain, restNodes, restPlain]
      exact ⟨rfl, rfl⟩

theorem Alike.bounded (alike : Alike document other) :
    (jsonValue 0 document.json 100000).isSome =
      (jsonValue 0 other.json 100000).isSome := by
  obtain ⟨sameNodes, samePlain⟩ := forall₂_bounds (0 + 1 + 1) alike.entries
  obtain ⟨sameSchema, sameRest⟩ := Prod.ext_iff.mp alike.envelope
  obtain ⟨sameVersion, samePredecessor⟩ := Prod.ext_iff.mp sameRest
  have isSchema : document.schemaVersion = other.schemaVersion := sameSchema
  have isVersion : document.versionId = other.versionId := sameVersion
  have isPredecessor : document.predecessorDigest = other.predecessorDigest :=
    samePredecessor
  have isNodes : nodes document.json = nodes other.json := by
    unfold sectionFields at sameNodes
    unfold Document.json
    rw [isSchema, isVersion, isPredecessor]
    simp only [nodes, nodesFields, sameNodes]
  have isPlain : plain 0 document.json = plain 0 other.json := by
    unfold sectionFields at samePlain
    unfold Document.json
    rw [isSchema, isVersion, isPredecessor]
    simp only [plain, plainFields, samePlain]
  rw [jsonValue_eq, jsonValue_eq, isNodes, isPlain]

theorem sortedRecords_perm (records : List Record) :
    (records.insertionSort fun left right => left.id ≤ right.id).Perm records :=
  List.perm_insertionSort _ records

/-- Permuted records of distinct identities are sorted alike. -/
theorem sorted_of_rel
    {section_ other : Option (List Record)} (related : Option.Rel List.Perm section_ other)
    (distinct : ((section_.getD []).map Record.id).Nodup) :
    (section_.map fun records =>
        records.insertionSort fun left right => left.id ≤ right.id) =
      other.map fun records =>
        records.insertionSort fun left right => left.id ≤ right.id := by
  cases related with
  | none => rfl
  | some perm =>
      apply congrArg some
      exact insertionSort_perm distinct (fun _ _ => le_antisymm) perm

theorem get_sorted (document : Document) (name : Text) :
    document.sorted.sections.get name = (document.sections.get name).map fun records =>
      records.insertionSort fun left right => left.id ≤ right.id :=
  Dict.get_mapValues _ _ _

theorem Alike.sorted
    (alike : Alike document other) (distinct : document.Distinct) :
    document.sorted = other.sorted := by
  obtain ⟨sameSchema, sameRest⟩ := Prod.ext_iff.mp alike.envelope
  obtain ⟨sameVersion, samePredecessor⟩ := Prod.ext_iff.mp sameRest
  have sections : document.sorted.sections = other.sorted.sections := by
    refine Dict.ext_get fun name => ?_
    rw [get_sorted, get_sorted]
    exact sorted_of_rel (alike.records name) (distinct name)
  unfold Document.sorted at sections ⊢
  dsimp only at sections
  rw [sections]
  obtain ⟨_, _, _, _⟩ := document
  obtain ⟨_, _, _, _⟩ := other
  cases sameSchema
  cases sameVersion
  cases samePredecessor
  rfl

theorem Alike.enveloped (alike : Alike document other) :
    document.Enveloped ↔ other.Enveloped := by
  obtain ⟨sameSchema, sameRest⟩ := Prod.ext_iff.mp alike.envelope
  obtain ⟨sameVersion, samePredecessor⟩ := Prod.ext_iff.mp sameRest
  have isSchema : document.schemaVersion = other.schemaVersion := sameSchema
  have isVersion : document.versionId = other.versionId := sameVersion
  have isPredecessor : document.predecessorDigest = other.predecessorDigest :=
    samePredecessor
  have isNames : document.sections.keys = other.sections.keys :=
    forall₂_keys alike.entries
  have identities : document.identities.Perm other.identities :=
    forall₂_identities alike.entries
  unfold Document.Enveloped
  rw [isSchema, isVersion, isPredecessor, isNames, alike.bounded, identities.nodup_iff]
  have isUuids : (∀ identifier ∈ document.identities, isUuid identifier = true) ↔
      ∀ identifier ∈ other.identities, isUuid identifier = true :=
    ⟨fun each identifier member => each identifier (identities.mem_iff.mpr member),
      fun each identifier member => each identifier (identities.mem_iff.mp member)⟩
  rw [isUuids]

/-- Documents that differ in the order of records are parsed alike. -/
theorem Alike.parseVersion
    (alike : Alike document other) (distinct : document.Distinct)
    (validateSections : Document → Bool) :
    Configuration.parseVersion validateSections document =
      Configuration.parseVersion validateSections other := by
  obtain ⟨_, sameRest⟩ := Prod.ext_iff.mp alike.envelope
  obtain ⟨sameVersion, samePredecessor⟩ := Prod.ext_iff.mp sameRest
  have isVersion : document.versionId = other.versionId := sameVersion
  have isPredecessor : document.predecessorDigest = other.predecessorDigest :=
    samePredecessor
  unfold Configuration.parseVersion
  rw [alike.sorted distinct, isVersion, isPredecessor]
  by_cases isEnveloped : document.Enveloped
  · rw [if_pos isEnveloped, if_pos (alike.enveloped.mp isEnveloped)]
  · rw [if_neg isEnveloped, if_neg fun otherEnveloped =>
      isEnveloped (alike.enveloped.mpr otherEnveloped)]

end ParishKit.Configuration
