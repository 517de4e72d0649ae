import Mathlib.Data.List.Dedup
import Mathlib.Data.List.Sort

/-!
# Distinct values in order

The values of a list, each once and in increasing order.
-/

namespace ParishKit.Lib

variable {Value : Type} [LinearOrder Value]

/-- `sorted(set(values))`. -/
def sortedDistinct (values : List Value) : List Value :=
  values.dedup.insertionSort (· ≤ ·)

@[simp] theorem mem_sortedDistinct {value : Value} {values : List Value} :
    value ∈ sortedDistinct values ↔ value ∈ values := by
  unfold sortedDistinct
  rw [List.mem_insertionSort, List.mem_dedup]

theorem sortedDistinct_nodup (values : List Value) : (sortedDistinct values).Nodup :=
  (List.perm_insertionSort _ _).nodup_iff.mpr (List.nodup_dedup values)

theorem sortedDistinct_increasing (values : List Value) :
    (sortedDistinct values).Pairwise (· < ·) := by
  have ordered : (sortedDistinct values).Pairwise (· ≤ ·) :=
    List.pairwise_insertionSort (· ≤ ·) values.dedup
  have distinct := sortedDistinct_nodup values
  exact (ordered.and distinct).imp fun both => lt_of_le_of_ne both.1 both.2

/-- Increasing lists of the same values are the same. -/
theorem eq_of_increasing {first second : List Value} (firstIncreases : first.Pairwise (· < ·))
    (secondIncreases : second.Pairwise (· < ·))
    (same : ∀ value, value ∈ first ↔ value ∈ second) : first = second := by
  have perm : first.Perm second :=
    (List.perm_ext_iff_of_nodup (firstIncreases.imp ne_of_lt)
      (secondIncreases.imp ne_of_lt)).mpr same
  exact perm.eq_of_pairwise (fun _ _ _ _ less more => absurd more less.asymm) firstIncreases
    secondIncreases

theorem sortedDistinct_eq_self {values : List Value} :
    sortedDistinct values = values ↔ values.Pairwise (· < ·) := by
  constructor
  · intro isSorted
    rw [← isSorted]
    exact sortedDistinct_increasing values
  · intro increasing
    exact eq_of_increasing (sortedDistinct_increasing values) increasing
      fun _ => mem_sortedDistinct

@[simp] theorem sortedDistinct_sortedDistinct (values : List Value) :
    sortedDistinct (sortedDistinct values) = sortedDistinct values :=
  sortedDistinct_eq_self.mpr (sortedDistinct_increasing values)

@[simp] theorem sortedDistinct_eq_nil {values : List Value} :
    sortedDistinct values = [] ↔ values = [] := by
  rw [List.eq_nil_iff_forall_not_mem, List.eq_nil_iff_forall_not_mem]
  simp only [mem_sortedDistinct]

end ParishKit.Lib
