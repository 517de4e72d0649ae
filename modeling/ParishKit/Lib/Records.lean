import Mathlib.Data.List.Induction
import Mathlib.Data.List.Nodup
import Mathlib.Data.List.Sort

/-!
# Records by their own key

A dictionary of records, in the order of first insertion, each under a key it carries.
-/

namespace ParishKit.Lib

variable {Row Key : Type} [DecidableEq Key] (key : Row → Key)

/-- A record under its key: in place of the one there, or last. -/
def putRecord (rows : List Row) (row : Row) : List Row :=
  match rows with
  | [] => [row]
  | head :: rest => if key head = key row then row :: rest else head :: putRecord rest row

/-- `{key(row): row for row in rows}`. -/
def recordsByKey (rows : List Row) : List Row :=
  rows.foldl (putRecord key) []

variable {key}

theorem keys_putRecord (rows : List Row) (row : Row) :
    (putRecord key rows row).map key =
      if key row ∈ rows.map key then rows.map key else rows.map key ++ [key row] := by
  induction rows with
  | nil => simp [putRecord]
  | cons head rest inductionHypothesis =>
      by_cases same : key head = key row
      · simp [putRecord, same]
      · have others : ¬key row = key head := fun equal => same equal.symm
        simp only [putRecord, if_neg same, List.map_cons, inductionHypothesis,
          List.mem_cons, others, false_or]
        split <;> simp

theorem putRecord_nodup {rows : List Row} (distinct : (rows.map key).Nodup) (row : Row) :
    ((putRecord key rows row).map key).Nodup := by
  rw [keys_putRecord]
  split
  · exact distinct
  · next absent =>
      rw [List.nodup_append]
      refine ⟨distinct, by simp, fun other member last isLast => ?_⟩
      rw [List.mem_singleton.mp isLast]
      exact fun equal => absent (equal ▸ member)

theorem recordsByKey_nodup
    (key : Row → Key) (rows : List Row) :
    ((recordsByKey key rows).map key).Nodup := by
  suffices general : ∀ start : List Row, (start.map key).Nodup →
      ((rows.foldl (putRecord key) start).map key).Nodup from
    general [] List.nodup_nil
  induction rows with
  | nil => exact fun start distinct => distinct
  | cons row rest inductionHypothesis =>
      intro start distinct
      exact inductionHypothesis _ (putRecord_nodup distinct row)

theorem putRecord_absent {rows : List Row} {row : Row} (absent : key row ∉ rows.map key) :
    putRecord key rows row = rows ++ [row] := by
  induction rows with
  | nil => rfl
  | cons head rest inductionHypothesis =>
      rw [List.map_cons, List.mem_cons, not_or] at absent
      rw [putRecord, if_neg fun same => absent.1 same.symm, inductionHypothesis absent.2]
      rfl

theorem mem_putRecord {rows : List Row} {row other : Row}
    (member : other ∈ putRecord key rows row) : other ∈ rows ∨ other = row := by
  induction rows with
  | nil => exact Or.inr (List.mem_singleton.mp member)
  | cons head rest inductionHypothesis =>
      rw [putRecord] at member
      split at member
      · cases List.mem_cons.mp member with
        | inl isRow => exact Or.inr isRow
        | inr inRest => exact Or.inl (List.mem_cons_of_mem _ inRest)
      · cases List.mem_cons.mp member with
        | inl isHead => exact Or.inl (isHead ▸ List.mem_cons_self)
        | inr inRest =>
            exact (inductionHypothesis inRest).imp_left (List.mem_cons_of_mem _)

/-- A change that keeps every key changes the records in place. -/
theorem putRecord_map {change : Row → Row} {rows : List Row} {row : Row}
    (keeps : ∀ one ∈ rows, key (change one) = key one) (same : key (change row) = key row) :
    putRecord key (rows.map change) (change row) = (putRecord key rows row).map change := by
  induction rows with
  | nil => rfl
  | cons head rest inductionHypothesis =>
      rw [List.forall_mem_cons] at keeps
      simp only [List.map_cons, putRecord, keeps.1, same, inductionHypothesis keeps.2]
      split <;> simp

theorem recordsByKey_concat (rows : List Row) (row : Row) :
    recordsByKey key (rows ++ [row]) = putRecord key (recordsByKey key rows) row := by
  simp [recordsByKey]

theorem mem_of_mem_recordsByKey {rows : List Row} {row : Row}
    (member : row ∈ recordsByKey key rows) : row ∈ rows := by
  induction rows using List.reverseRecOn with
  | nil => exact member
  | append_singleton rows last inductionHypothesis =>
      rw [recordsByKey_concat] at member
      cases mem_putRecord member with
      | inl earlier => exact List.mem_append_left _ (inductionHypothesis earlier)
      | inr isLast => simp [isLast]

theorem mem_keys_recordsByKey {rows : List Row} {one : Key} :
    one ∈ (recordsByKey key rows).map key ↔ one ∈ rows.map key := by
  induction rows using List.reverseRecOn with
  | nil => rfl
  | append_singleton rows last inductionHypothesis =>
      rw [recordsByKey_concat, keys_putRecord, List.map_append, List.mem_append,
        ← inductionHypothesis]
      split
      · next present =>
          constructor
          · exact Or.inl
          · intro either
            cases either with
            | inl earlier => exact earlier
            | inr isLast => simpa [List.mem_singleton.mp isLast] using present
      · rw [List.mem_append]
        rfl

theorem recordsByKey_map {change : Row → Row} {rows : List Row}
    (keeps : ∀ row ∈ rows, key (change row) = key row) :
    recordsByKey key (rows.map change) = (recordsByKey key rows).map change := by
  induction rows using List.reverseRecOn with
  | nil => rfl
  | append_singleton rows last inductionHypothesis =>
      rw [List.forall_mem_append, List.forall_mem_singleton] at keeps
      rw [List.map_append, List.map_singleton, recordsByKey_concat, recordsByKey_concat,
        inductionHypothesis keeps.1, putRecord_map
          (fun one member => keeps.1 one (mem_of_mem_recordsByKey member)) keeps.2]

/-- Rows of keys that are new, each once, come after the others. -/
theorem recordsByKey_append {rows others : List Row}
    (distinct : (others.map key).Nodup)
    (new : ∀ other ∈ others, key other ∉ rows.map key) :
    recordsByKey key (rows ++ others) = recordsByKey key rows ++ others := by
  induction others using List.reverseRecOn with
  | nil => simp
  | append_singleton others last inductionHypothesis =>
      rw [List.map_append, List.map_singleton, List.nodup_append] at distinct
      rw [← List.append_assoc, recordsByKey_concat, inductionHypothesis distinct.1
        fun other member => new other (List.mem_append_left _ member), putRecord_absent,
        List.append_assoc]
      rw [List.map_append, List.mem_append, not_or, mem_keys_recordsByKey]
      refine ⟨new last (by simp), fun member => ?_⟩
      exact distinct.2.2 _ member _ (by simp) rfl

theorem recordsByKey_of_nodup {rows : List Row} (distinct : (rows.map key).Nodup) :
    recordsByKey key rows = rows := by
  have appended : recordsByKey key ([] ++ rows) = recordsByKey key [] ++ rows :=
    recordsByKey_append distinct fun _ _ => by simp
  exact appended

/-! ## Looking up -/

/-- `records.get(key)`. -/
def findRecord (key : Row → Key) (records : List Row) (one : Key) : Option Row :=
  records.find? fun row => key row = one

theorem findRecord_some {records : List Row} {one : Key} {row : Row}
    (found : findRecord key records one = some row) : row ∈ records ∧ key row = one := by
  rw [findRecord] at found
  exact ⟨List.mem_of_find?_eq_some found, by simpa using List.find?_some found⟩

theorem findRecord_eq_none {records : List Row} {one : Key} :
    findRecord key records one = none ↔ one ∉ records.map key := by
  simp [findRecord]

theorem findRecord_isSome {records : List Row} {one : Key} (present : one ∈ records.map key) :
    ∃ row, findRecord key records one = some row := by
  rw [← Option.isSome_iff_exists, ← Option.ne_none_iff_isSome, Ne, findRecord_eq_none]
  exact not_not_intro present

theorem findRecord_of_mem {records : List Row} (distinct : (records.map key).Nodup)
    {row : Row} (member : row ∈ records) : findRecord key records (key row) = some row := by
  obtain ⟨other, found⟩ := findRecord_isSome (List.mem_map_of_mem (f := key) member)
  have same := findRecord_some found
  rw [found, List.inj_on_of_nodup_map distinct same.1 member same.2]

/-! ## Removing -/

/-- Removing the rows of one key after another removes those of any of them. -/
theorem foldl_filter_key
    (key : Row → Key) (rows : List Row) (removed : List Key) :
    (removed.foldl (fun rows one => rows.filter fun row => key row ≠ one) rows) =
      rows.filter fun row => key row ∉ removed := by
  induction removed generalizing rows with
  | nil => simp
  | cons one others inductionHypothesis =>
      rw [List.foldl_cons, inductionHypothesis, List.filter_filter]
      apply List.filter_congr
      intro row _
      simp [Bool.and_comm]

/-! ## Sorting -/

omit [DecidableEq Key] in
/-- Rows of distinct keys are sorted alike whatever their order, when rows that stand
before each other have one key. -/
theorem insertionSort_perm
    {before : Row → Row → Prop} [DecidableRel before] [Std.Total before] [IsTrans Row before]
    {rows others : List Row} (distinct : (rows.map key).Nodup)
    (both : ∀ left right, before left right → before right left → key left = key right)
    (perm : rows.Perm others) : rows.insertionSort before = others.insertionSort before := by
  have sortedPerm : (rows.insertionSort before).Perm (others.insertionSort before) :=
    (List.perm_insertionSort _ _).trans (perm.trans (List.perm_insertionSort _ _).symm)
  apply List.Perm.eq_of_pairwise _ (List.pairwise_insertionSort before rows)
    (List.pairwise_insertionSort before others) sortedPerm
  intro left right isLeft isRight le ge
  apply List.inj_on_of_nodup_map distinct ((List.mem_insertionSort _).mp isLeft)
    (perm.mem_iff.mpr ((List.mem_insertionSort _).mp isRight))
  exact both left right le ge

/-! ## New keys -/

/-- A key longer than every other is new. -/
theorem longer_not_mem {Item Letter : Type} (letter : Letter) (key : Item → List Letter)
    (items : List Item) : letter :: items.flatMap key ∉ items.map key := by
  intro isKey
  have inAll : (letter :: items.flatMap key).Sublist (items.map key).flatten :=
    List.sublist_flatten_of_mem isKey
  have shorter := inAll.length_le
  rw [← List.flatMap_def, List.length_cons] at shorter
  omega

end ParishKit.Lib
