import Mathlib.Data.List.Nodup

/-!
# Rows found by a unique key
-/

namespace ParishKit.Lib

universe u v

/-- Texts are keys. -/
instance textLawful : LawfulBEq (List Char) :=
  inferInstance

variable {Row : Type u} {Key : Type v} {rows : List Row} {key : Row → Key}

section

variable [BEq Key] [LawfulBEq Key]

theorem mem_of_find?_key
    {wanted : Key} {row : Row}
    (found : rows.find? (fun other => key other == wanted) = some row) :
    row ∈ rows ∧ key row = wanted := by
  refine ⟨List.mem_of_find?_eq_some found, ?_⟩
  simpa using List.find?_some found

theorem find?_key_of_mem
    (distinct : (rows.map key).Nodup) {row : Row} (member : row ∈ rows) :
    rows.find? (fun other => key other == key row) = some row := by
  cases found : rows.find? (fun other => key other == key row) with
  | none =>
      have absent := List.find?_eq_none.mp found row member
      simp at absent
  | some other =>
      obtain ⟨otherMember, sameKey⟩ := mem_of_find?_key found
      rw [List.inj_on_of_nodup_map distinct otherMember member sameKey]

end

/-! ## Replacing a row -/

section Replace

variable [DecidableEq Key] {saved : Row}

theorem find?_replace_self
    {row : Row}
    (found : rows.find? (fun other => key other == key saved) = some row) :
    (rows.map fun other => if key other = key saved then saved else other).find?
      (fun other => key other == key saved) = some saved := by
  induction rows with
  | nil => cases found
  | cons head tail inductionHypothesis =>
      rw [List.map_cons]
      by_cases same : key head = key saved
      · rw [if_pos same, List.find?_cons_of_pos (by simp)]
      · rw [if_neg same, List.find?_cons_of_neg (by simpa using same)]
        rw [List.find?_cons_of_neg (by simpa using same)] at found
        exact inductionHypothesis found

theorem find?_replace_other
    {wanted : Key} (different : wanted ≠ key saved) :
    (rows.map fun other => if key other = key saved then saved else other).find?
      (fun other => key other == wanted) =
    rows.find? fun other => key other == wanted := by
  induction rows with
  | nil => rfl
  | cons head tail inductionHypothesis =>
      rw [List.map_cons]
      by_cases same : key head = key saved
      · rw [if_pos same,
          List.find?_cons_of_neg (by simpa using different.symm),
          List.find?_cons_of_neg (by simpa [same] using different.symm)]
        exact inductionHypothesis
      · rw [if_neg same, List.find?_cons, List.find?_cons, inductionHypothesis]

theorem map_replace
    {Value : Type*} {value : Row → Value}
    (kept : ∀ other ∈ rows, key other = key saved → value other = value saved) :
    (rows.map fun other => if key other = key saved then saved else other).map
      value = rows.map value := by
  rw [List.map_map]
  refine List.map_congr_left fun other member => ?_
  by_cases same : key other = key saved
  · simp [same, kept other member same]
  · simp [same]

theorem mem_replace_iff
    {row : Row} (member : row ∈ rows) (same : key row = key saved)
    {other : Row} :
    other ∈ (rows.map fun other =>
        if key other = key saved then saved else other) ↔
      other = saved ∨ (other ∈ rows ∧ key other ≠ key saved) := by
  rw [List.mem_map]
  constructor
  · rintro ⟨first, firstMember, rfl⟩
    by_cases equal : key first = key saved
    · exact Or.inl (if_pos equal)
    · rw [if_neg equal]
      exact Or.inr ⟨firstMember, equal⟩
  · rintro (rfl | ⟨otherMember, different⟩)
    · exact ⟨row, member, if_pos same⟩
    · exact ⟨other, otherMember, if_neg different⟩

end Replace

end ParishKit.Lib
