import ParishKit.Lib.Records

/-!
# Edits of keyed records

A list of edits adds, updates and removes records, each of another key. It is
refused whole when an edit adds a record that is there or changes one that is not.
What it leaves under a key is said by the one edit of that key.
-/

namespace ParishKit.Lib

variable {Key Values Change : Type}

structure Entry (Key Values : Type) where
  key : Key
  values : Values

/-- An update carries only the change. -/
inductive Edit (Key Values Change : Type) where
  | add (key : Key) (values : Values)
  | update (key : Key) (change : Change)
  | remove (key : Key)

namespace Edit

def key : Edit Key Values Change → Key
  | .add key _ => key
  | .update key _ => key
  | .remove key => key

def adds : Edit Key Values Change → Bool
  | .add _ _ => true
  | _ => false

/-- What the edit leaves of what was there. -/
def effect (merge : Change → Values → Values) :
    Edit Key Values Change → Option Values → Option Values
  | .add _ values, _ => some values
  | .update _ change, old => old.map (merge change)
  | .remove _, _ => none

end Edit

variable [DecidableEq Key] (merge : Change → Values → Values)

/-- The values under a key. -/
def valuesOf (entries : List (Entry Key Values)) (key : Key) : Option Values :=
  (findRecord Entry.key entries key).map Entry.values

def mergeAt (key : Key) (change : Change) (entry : Entry Key Values) : Entry Key Values :=
  if entry.key = key then { entry with values := merge change entry.values } else entry

/-- An addition of a new key, or a change of one that is there. -/
def Edit.Fits (edit : Edit Key Values Change) (entries : List (Entry Key Values)) : Prop :=
  edit.adds = true ↔ edit.key ∉ entries.map Entry.key

instance (edit : Edit Key Values Change) (entries : List (Entry Key Values)) :
    Decidable (edit.Fits entries) :=
  inferInstanceAs (Decidable (_ ↔ _))

def applyEdit (entries : List (Entry Key Values)) (edit : Edit Key Values Change) :
    Option (List (Entry Key Values)) :=
  if edit.Fits entries then
    match edit with
    | .add key values => some (entries ++ [⟨key, values⟩])
    | .update key change => some (entries.map (mergeAt merge key change))
    | .remove key => some (entries.filter fun entry => entry.key ≠ key)
  else
    none

/-- The edits in turn, each of another key. -/
def applyEdits (seen : List Key) (entries : List (Entry Key Values)) :
    List (Edit Key Values Change) → Option (List (Entry Key Values))
  | [] => some entries
  | edit :: rest =>
      if edit.key ∈ seen then none
      else (applyEdit merge entries edit).bind fun next =>
        applyEdits (edit.key :: seen) next rest

/-- What edits leave under a key. -/
def edited (edits : List (Edit Key Values Change)) (key : Key) (old : Option Values) :
    Option Values :=
  match findRecord Edit.key edits key with
  | none => old
  | some edit => edit.effect merge old

variable {merge}

/-! ## Records made of records -/

section Made

variable {Row Made : Type} {label : Made → Key} {key : Row → Key} {make : Row → Option Made}

omit [DecidableEq Key] in
theorem filterMap_keys_nodup (labels : ∀ row made, make row = some made → label made = key row)
    {rows : List Row} (distinct : (rows.map key).Nodup) :
    ((rows.filterMap make).map label).Nodup := by
  induction rows with
  | nil => exact List.nodup_nil
  | cons row rest inductionHypothesis =>
      rw [List.map_cons, List.nodup_cons] at distinct
      have others := inductionHypothesis distinct.2
      cases isMade : make row with
      | none =>
          rw [List.filterMap_cons_none isMade]
          exact others
      | some made =>
          rw [List.filterMap_cons_some isMade, List.map_cons, List.nodup_cons]
          refine ⟨fun member => distinct.1 ?_, others⟩
          obtain ⟨other, isOther, same⟩ := List.mem_map.mp member
          obtain ⟨later, isLater, isLaterMade⟩ := List.mem_filterMap.mp isOther
          rw [← labels row made isMade, ← same, labels later other isLaterMade]
          exact List.mem_map_of_mem isLater

/-- Under the key of a row is what is made of that row. -/
theorem findRecord_filterMap (labels : ∀ row made, make row = some made → label made = key row)
    {rows : List Row} (distinct : (rows.map key).Nodup) {row : Row} (member : row ∈ rows) :
    findRecord label (rows.filterMap make) (key row) = make row := by
  cases isMade : make row with
  | none =>
      rw [findRecord_eq_none]
      intro isKey
      obtain ⟨other, isIn, same⟩ := List.mem_map.mp isKey
      obtain ⟨maker, isMaker, isOther⟩ := List.mem_filterMap.mp isIn
      have sameKey : key maker = key row := by rw [← labels maker other isOther, same]
      rw [List.inj_on_of_nodup_map distinct isMaker member sameKey, isMade] at isOther
      cases isOther
  | some made =>
      rw [← labels row made isMade]
      exact findRecord_of_mem (filterMap_keys_nodup labels distinct)
        (List.mem_filterMap.mpr ⟨row, member, isMade⟩)

theorem findRecord_filterMap_of_not_mem
    (labels : ∀ row made, make row = some made → label made = key row)
    {rows : List Row} {one : Key} (absent : one ∉ rows.map key) :
    findRecord label (rows.filterMap make) one = none := by
  rw [findRecord_eq_none]
  intro isKey
  obtain ⟨made, isIn, same⟩ := List.mem_map.mp isKey
  obtain ⟨row, isRow, isMade⟩ := List.mem_filterMap.mp isIn
  rw [← same, labels row made isMade] at absent
  exact absent (List.mem_map_of_mem isRow)

end Made

/-! ## One edit -/

theorem valuesOf_eq_some {entries : List (Entry Key Values)}
    (distinct : (entries.map Entry.key).Nodup) {key : Key} {values : Values} :
    valuesOf entries key = some values ↔ (⟨key, values⟩ : Entry Key Values) ∈ entries := by
  unfold valuesOf
  rw [Option.map_eq_some_iff]
  constructor
  · rintro ⟨entry, isFound, rfl⟩
    obtain ⟨member, rfl⟩ := findRecord_some isFound
    exact member
  · intro member
    exact ⟨_, findRecord_of_mem distinct member, rfl⟩

theorem valuesOf_eq_none {entries : List (Entry Key Values)} {key : Key} :
    valuesOf entries key = none ↔ key ∉ entries.map Entry.key := by
  unfold valuesOf
  rw [Option.map_eq_none_iff, findRecord_eq_none]

theorem valuesOf_concat {entries : List (Entry Key Values)} {added : Entry Key Values}
    (absent : added.key ∉ entries.map Entry.key) (key : Key) :
    valuesOf (entries ++ [added]) key =
      if key = added.key then some added.values else valuesOf entries key := by
  unfold valuesOf findRecord
  rw [List.find?_append]
  by_cases same : key = added.key
  · have noEntry := findRecord_eq_none.mpr (same ▸ absent)
    unfold findRecord at noEntry
    rw [noEntry, if_pos same]
    simp [same]
  · have others : added.key ≠ key := fun equal => same equal.symm
    rw [if_neg same]
    simp [others]

theorem key_mergeAt (key : Key) (change : Change) (entry : Entry Key Values) :
    (mergeAt merge key change entry).key = entry.key := by
  unfold mergeAt
  split <;> rfl

theorem valuesOf_mergeAt (entries : List (Entry Key Values)) (changed : Key)
    (change : Change) (key : Key) :
    valuesOf (entries.map (mergeAt merge changed change)) key =
      if key = changed then (valuesOf entries key).map (merge change)
      else valuesOf entries key := by
  unfold valuesOf findRecord
  rw [List.find?_map]
  have sameTest : ((fun entry : Entry Key Values => decide (entry.key = key)) ∘
      mergeAt merge changed change) = fun entry => decide (entry.key = key) := by
    funext entry
    rw [Function.comp_apply, key_mergeAt]
  rw [sameTest]
  cases isFound : entries.find? fun entry => decide (entry.key = key) with
  | none => split <;> rfl
  | some entry =>
      have isKey : entry.key = key := by simpa using List.find?_some isFound
      unfold mergeAt
      by_cases same : key = changed
      · simp [isKey, same]
      · simp [isKey, same]

theorem valuesOf_filter (entries : List (Entry Key Values)) (removed key : Key) :
    valuesOf (entries.filter fun entry => entry.key ≠ removed) key =
      if key = removed then none else valuesOf entries key := by
  by_cases same : key = removed
  · rw [if_pos same, valuesOf_eq_none]
    simp [same]
  · rw [if_neg same]
    unfold valuesOf findRecord
    rw [List.find?_filter]
    congr 2
    funext entry
    by_cases isKey : entry.key = key
    · simp [isKey, same]
    · simp [isKey]

theorem applyEdit_some {entries next : List (Entry Key Values)} {edit : Edit Key Values Change}
    (applied : applyEdit merge entries edit = some next) :
    edit.Fits entries ∧
      ((entries.map Entry.key).Nodup → (next.map Entry.key).Nodup) ∧
      ∀ key, valuesOf next key =
        if key = edit.key then edit.effect merge (valuesOf entries key)
        else valuesOf entries key := by
  unfold applyEdit at applied
  split at applied
  · next fits =>
      refine ⟨fits, ?_⟩
      cases edit with
      | add key values =>
          cases applied
          have absent : key ∉ entries.map Entry.key := fits.mp rfl
          refine ⟨fun distinct => ?_, fun other => valuesOf_concat absent other⟩
          rw [List.map_append, List.nodup_append]
          refine ⟨distinct, List.nodup_singleton _, fun other member last isLast => ?_⟩
          rw [List.mem_singleton.mp isLast]
          rintro rfl
          exact absent member
      | update key change =>
          cases applied
          refine ⟨fun distinct => ?_, fun other => valuesOf_mergeAt entries key change other⟩
          rw [List.map_map]
          have sameKeys : Entry.key ∘ mergeAt merge key change = Entry.key := by
            funext entry
            exact key_mergeAt key change entry
          rw [sameKeys]
          exact distinct
      | remove key =>
          cases applied
          exact ⟨fun distinct => distinct.sublist (List.filter_sublist.map _),
            fun other => valuesOf_filter entries key other⟩
  · cases applied

omit [DecidableEq Key] in
theorem Edit.fits_of_mem {edit : Edit Key Values Change} {entries : List (Entry Key Values)}
    (changes : edit.adds = false) (present : edit.key ∈ entries.map Entry.key) :
    edit.Fits entries := by
  unfold Edit.Fits
  rw [changes]
  exact ⟨nofun, fun absent => absurd present absent⟩

omit [DecidableEq Key] in
theorem Edit.fits_of_not_mem {edit : Edit Key Values Change}
    {entries : List (Entry Key Values)} (adds : edit.adds = true)
    (absent : edit.key ∉ entries.map Entry.key) : edit.Fits entries :=
  ⟨fun _ => absent, fun _ => adds⟩

/-! ## Edits in turn -/

theorem edited_cons_self {edit : Edit Key Values Change} {rest : List (Edit Key Values Change)}
    (old : Option Values) : edited merge (edit :: rest) edit.key old = edit.effect merge old := by
  unfold edited findRecord
  rw [List.find?_cons, decide_eq_true rfl]

theorem edited_cons_of_ne {edit : Edit Key Values Change}
    {rest : List (Edit Key Values Change)} {key : Key} (apart : key ≠ edit.key)
    (old : Option Values) : edited merge (edit :: rest) key old = edited merge rest key old := by
  unfold edited findRecord
  rw [List.find?_cons, decide_eq_false fun same => apart same.symm]

theorem edited_of_not_mem {edits : List (Edit Key Values Change)} {key : Key}
    (absent : key ∉ edits.map Edit.key) (old : Option Values) :
    edited merge edits key old = old := by
  unfold edited
  rw [findRecord_eq_none.mpr absent]

theorem edited_of_mem {edits : List (Edit Key Values Change)}
    (distinct : (edits.map Edit.key).Nodup) {edit : Edit Key Values Change}
    (member : edit ∈ edits) (old : Option Values) :
    edited merge edits edit.key old = edit.effect merge old := by
  unfold edited
  rw [findRecord_of_mem distinct member]

/-- What applied edits are and what they leave. -/
theorem applyEdits_some {seen : List Key} {entries result : List (Entry Key Values)}
    {edits : List (Edit Key Values Change)}
    (applied : applyEdits merge seen entries edits = some result) :
    (edits.map Edit.key).Nodup ∧ (∀ edit ∈ edits, edit.key ∉ seen ∧ edit.Fits entries) ∧
      ((entries.map Entry.key).Nodup → (result.map Entry.key).Nodup) ∧
      ∀ key, valuesOf result key = edited merge edits key (valuesOf entries key) := by
  induction edits generalizing seen entries with
  | nil =>
      cases applied
      exact ⟨List.nodup_nil, nofun, id, fun _ => rfl⟩
  | cons edit rest inductionHypothesis =>
      rw [applyEdits] at applied
      split at applied
      · cases applied
      · next unseen =>
          obtain ⟨next, one, others⟩ := Option.bind_eq_some_iff.mp applied
          obtain ⟨fits, keepsDistinct, leaves⟩ := applyEdit_some one
          obtain ⟨distinct, fitsRest, keepsRest, leavesRest⟩ := inductionHypothesis others
          have notRest : edit.key ∉ rest.map Edit.key := by
            intro member
            obtain ⟨other, isRest, same⟩ := List.mem_map.mp member
            exact (fitsRest other isRest).1 (same ▸ List.mem_cons_self)
          refine ⟨List.nodup_cons.mpr ⟨notRest, distinct⟩, ?_, ?_, ?_⟩
          · intro other member
            rcases List.mem_cons.mp member with rfl | member
            · exact ⟨unseen, fits⟩
            · obtain ⟨unseenOther, fitsOther⟩ := fitsRest other member
              refine ⟨fun isSeen => unseenOther (List.mem_cons_of_mem _ isSeen), ?_⟩
              have apart : other.key ≠ edit.key := fun same =>
                notRest (same ▸ List.mem_map_of_mem member)
              unfold Edit.Fits at fitsOther ⊢
              rw [fitsOther, ← valuesOf_eq_none, ← valuesOf_eq_none, leaves, if_neg apart]
          · exact fun unique => keepsRest (keepsDistinct unique)
          · intro key
            rw [leavesRest, leaves]
            by_cases same : key = edit.key
            · subst same
              rw [if_pos rfl, edited_cons_self, edited_of_not_mem notRest]
            · rw [if_neg same, edited_cons_of_ne same]

/-- Edits of distinct keys apply, when each fits what is there. -/
theorem applyEdits_of_fits {seen : List Key} {entries : List (Entry Key Values)}
    {edits : List (Edit Key Values Change)} (distinct : (edits.map Edit.key).Nodup)
    (unseen : ∀ edit ∈ edits, edit.key ∉ seen)
    (fits : ∀ edit ∈ edits, edit.Fits entries) :
    ∃ result, applyEdits merge seen entries edits = some result := by
  induction edits generalizing seen entries with
  | nil => exact ⟨entries, rfl⟩
  | cons edit rest inductionHypothesis =>
      rw [List.map_cons, List.nodup_cons] at distinct
      rw [List.forall_mem_cons] at unseen fits
      have applies : ∃ next, applyEdit merge entries edit = some next := by
        unfold applyEdit
        rw [if_pos fits.1]
        cases edit with
        | add key values => exact ⟨_, rfl⟩
        | update key change => exact ⟨_, rfl⟩
        | remove key => exact ⟨_, rfl⟩
      obtain ⟨next, one⟩ := applies
      obtain ⟨_, _, leaves⟩ := applyEdit_some one
      have others := @inductionHypothesis (edit.key :: seen) next distinct.2 ?_ ?_
      · obtain ⟨result, isResult⟩ := others
        refine ⟨result, ?_⟩
        rw [applyEdits, if_neg unseen.1, one]
        exact isResult
      · intro other member isSeen
        rcases List.mem_cons.mp isSeen with same | isSeen
        · exact distinct.1 (same ▸ List.mem_map_of_mem member)
        · exact unseen.2 other member isSeen
      · intro other member
        have apart : other.key ≠ edit.key := fun same =>
          distinct.1 (same ▸ List.mem_map_of_mem member)
        have isFit := fits.2 other member
        unfold Edit.Fits at isFit ⊢
        rw [isFit, ← valuesOf_eq_none, ← valuesOf_eq_none, leaves, if_neg apart]

/-- Edits one after another, without a key of the first among the others. -/
theorem edited_append {edits others : List (Edit Key Values Change)} (key : Key)
    (old : Option Values) :
    edited merge (edits ++ others) key old =
      if key ∈ edits.map Edit.key then edited merge edits key old
      else edited merge others key old := by
  unfold edited findRecord
  rw [List.find?_append]
  by_cases member : key ∈ edits.map Edit.key
  · obtain ⟨edit, isFound⟩ := findRecord_isSome member
    unfold findRecord at isFound
    rw [if_pos member, isFound]
    rfl
  · have noEdit := findRecord_eq_none.mpr member
    unfold findRecord at noEdit
    rw [if_neg member, noEdit]
    rfl

end ParishKit.Lib
