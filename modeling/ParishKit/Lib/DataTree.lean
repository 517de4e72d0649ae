import Mathlib.Data.Char
import Mathlib.Data.List.Lex
import Mathlib.Data.List.Sort
import ParishKit.Lib.DateText
import ParishKit.Lib.Records

/-!
# Trees of lists and mappings

Values whose leaves are of any type. Two are the same when they differ only in the
order of the entries of their mappings, and sorting the entries decides that.
-/

namespace ParishKit.Lib

inductive DataTree (Leaf : Type) where
  | leaf (value : Leaf)
  | list (items : List (DataTree Leaf))
  | mapping (entries : List (Text × DataTree Leaf))

variable {Leaf Other : Type}

/-! ## Distinct keys -/

mutual

/-- No mapping has a key twice, at any depth. -/
def DataTree.Keyed : DataTree Leaf → Prop
  | .leaf _ => True
  | .list items => KeyedItems items
  | .mapping entries => (entries.map Prod.fst).Nodup ∧ KeyedEntries entries

def KeyedItems : List (DataTree Leaf) → Prop
  | [] => True
  | item :: rest => item.Keyed ∧ KeyedItems rest

def KeyedEntries : List (Text × DataTree Leaf) → Prop
  | [] => True
  | (_, item) :: rest => item.Keyed ∧ KeyedEntries rest

end

theorem keyedEntries_iff {entries : List (Text × DataTree Leaf)} :
    KeyedEntries entries ↔ ∀ entry ∈ entries, entry.2.Keyed := by
  induction entries with
  | nil => exact ⟨fun _ entry member => (by cases member), fun _ => trivial⟩
  | cons entry rest inductionHypothesis =>
      rw [KeyedEntries, inductionHypothesis, List.forall_mem_cons]

/-! ## Sorted entries -/

def byKey (left right : Text × DataTree Leaf) : Prop :=
  left.1 ≤ right.1

instance : DecidableRel (@byKey Leaf) := fun left right =>
  inferInstanceAs (Decidable (left.1 ≤ right.1))

instance : Std.Total (@byKey Leaf) where
  total left right := le_total left.1 right.1

instance : IsTrans (Text × DataTree Leaf) byKey where
  trans _ _ _ first second := le_trans (α := Text) first second

mutual

/-- The entries of every mapping in the order of their keys. -/
def DataTree.sorted : DataTree Leaf → DataTree Leaf
  | .leaf value => .leaf value
  | .list items => .list (sortedItems items)
  | .mapping entries => .mapping ((sortedEach entries).insertionSort byKey)

def sortedItems : List (DataTree Leaf) → List (DataTree Leaf)
  | [] => []
  | item :: rest => item.sorted :: sortedItems rest

def sortedEach : List (Text × DataTree Leaf) → List (Text × DataTree Leaf)
  | [] => []
  | (key, item) :: rest => (key, item.sorted) :: sortedEach rest

end

theorem sortedEach_eq (entries : List (Text × DataTree Leaf)) :
    sortedEach entries = entries.map fun entry => (entry.1, entry.2.sorted) := by
  induction entries with
  | nil => rfl
  | cons entry rest inductionHypothesis =>
      rw [sortedEach, inductionHypothesis, List.map_cons]

theorem keys_sortedEach (entries : List (Text × DataTree Leaf)) :
    (sortedEach entries).map Prod.fst = entries.map Prod.fst := by
  rw [sortedEach_eq, List.map_map]
  rfl

/-- Entries of distinct keys are sorted alike whatever their order. -/
theorem insertionSort_byKey_perm
    {entries others : List (Text × DataTree Leaf)} (distinct : (entries.map Prod.fst).Nodup)
    (perm : entries.Perm others) :
    entries.insertionSort byKey = others.insertionSort byKey := by
  apply insertionSort_perm distinct _ perm
  intro left right before after
  exact le_antisymm (α := Text) before after

mutual

theorem DataTree.Keyed.sorted : ∀ {tree : DataTree Leaf}, tree.Keyed → tree.sorted.Keyed
  | .leaf _, keyed => keyed
  | .list _, keyed => by
      rw [DataTree.sorted, DataTree.Keyed]
      exact keyedItems_sorted keyed
  | .mapping entries, keyed => by
      have perm := List.perm_insertionSort byKey (sortedEach entries)
      rw [DataTree.sorted, DataTree.Keyed]
      constructor
      · rw [(perm.map Prod.fst).nodup_iff, keys_sortedEach]
        exact keyed.1
      · rw [keyedEntries_iff]
        intro entry member
        exact keyedEntries_iff.mp (keyedEntries_sorted keyed.2) entry (perm.mem_iff.mp member)

theorem keyedItems_sorted :
    ∀ {items : List (DataTree Leaf)}, KeyedItems items → KeyedItems (sortedItems items)
  | [], keyed => keyed
  | _ :: _, keyed => ⟨keyed.1.sorted, keyedItems_sorted keyed.2⟩

theorem keyedEntries_sorted :
    ∀ {entries : List (Text × DataTree Leaf)}, KeyedEntries entries →
      KeyedEntries (sortedEach entries)
  | [], keyed => keyed
  | (_, _) :: _, keyed => ⟨keyed.1.sorted, keyedEntries_sorted keyed.2⟩

end

/-! ## The same but for the order of entries -/

mutual

inductive DataTree.Same : DataTree Leaf → DataTree Leaf → Prop
  | leaf (value : Leaf) : DataTree.Same (.leaf value) (.leaf value)
  | list {items others : List (DataTree Leaf)} (each : SameItems items others) :
      DataTree.Same (.list items) (.list others)
  | mapping {entries others : List (Text × DataTree Leaf)} (each : SameEntries entries others) :
      DataTree.Same (.mapping entries) (.mapping others)

inductive SameItems : List (DataTree Leaf) → List (DataTree Leaf) → Prop
  | nil : SameItems [] []
  | cons {item other : DataTree Leaf} {rest others : List (DataTree Leaf)}
      (first : DataTree.Same item other) (each : SameItems rest others) :
      SameItems (item :: rest) (other :: others)

/-- Each entry has its own of the same key, anywhere. -/
inductive SameEntries : List (Text × DataTree Leaf) → List (Text × DataTree Leaf) → Prop
  | nil : SameEntries [] []
  | cons (key : Text) {item other : DataTree Leaf} {rest before after : List (Text × DataTree Leaf)}
      (first : DataTree.Same item other) (each : SameEntries rest (before ++ after)) :
      SameEntries ((key, item) :: rest) (before ++ (key, other) :: after)

end

theorem sameItems_length : ∀ {items others : List (DataTree Leaf)},
    SameItems items others → items.length = others.length
  | _, _, .nil => rfl
  | _, _, .cons _ each => by
      rw [List.length_cons, List.length_cons, sameItems_length each]

theorem sameEntries_length : ∀ {entries others : List (Text × DataTree Leaf)},
    SameEntries entries others → entries.length = others.length
  | _, _, .nil => rfl
  | _, _, .cons _ _ each => by
      have rest := sameEntries_length each
      rw [List.length_append] at rest
      rw [List.length_cons, List.length_append, List.length_cons]
      omega

mutual

/-- The same trees are sorted alike. -/
theorem DataTree.Same.sorted_eq : ∀ {tree other : DataTree Leaf}, tree.Same other →
    tree.Keyed → tree.sorted = other.sorted
  | _, _, .leaf _, _ => rfl
  | _, _, .list each, keyed => by
      rw [DataTree.sorted, DataTree.sorted, sortedItems_eq_of_same each keyed]
  | .mapping entries, _, .mapping each, keyed => by
      have distinct : ((sortedEach entries).map Prod.fst).Nodup := by
        rw [keys_sortedEach]
        exact keyed.1
      rw [DataTree.sorted, DataTree.sorted,
        insertionSort_byKey_perm distinct (sortedEach_perm_of_same each keyed.2)]

theorem sortedItems_eq_of_same : ∀ {items others : List (DataTree Leaf)},
    SameItems items others → KeyedItems items → sortedItems items = sortedItems others
  | _, _, .nil, _ => rfl
  | _, _, .cons first each, keyed => by
      rw [sortedItems, sortedItems, first.sorted_eq keyed.1,
        sortedItems_eq_of_same each keyed.2]

theorem sortedEach_perm_of_same : ∀ {entries others : List (Text × DataTree Leaf)},
    SameEntries entries others → KeyedEntries entries →
      (sortedEach entries).Perm (sortedEach others)
  | _, _, .nil, _ => List.Perm.refl _
  | _, _, .cons key first each, keyed => by
      have rest := sortedEach_perm_of_same each keyed.2
      rw [sortedEach_eq (_ ++ _), List.map_append] at rest
      rw [sortedEach, first.sorted_eq keyed.1, sortedEach_eq (_ ++ _), List.map_append,
        List.map_cons]
      exact (rest.cons _).trans List.perm_middle.symm

end

/-- Both lists without an entry they share. -/
theorem exists_entry
    {key : Text} {item : DataTree Leaf} {rest others : List (Text × DataTree Leaf)}
    (perm : ((key, item.sorted) :: sortedEach rest).Perm (sortedEach others)) :
    ∃ other before after, others = before ++ (key, other) :: after ∧
      item.sorted = other.sorted ∧
      (sortedEach rest).Perm (sortedEach (before ++ after)) := by
  have member := perm.mem_iff.mp List.mem_cons_self
  rw [sortedEach_eq others] at member
  obtain ⟨⟨otherKey, other⟩, isEntry, isSorted⟩ := List.mem_map.mp member
  obtain ⟨sameKey, sameItem⟩ := Prod.ext_iff.mp isSorted
  dsimp only at sameKey sameItem
  subst sameKey
  obtain ⟨before, after, rfl⟩ := List.append_of_mem isEntry
  refine ⟨other, before, after, rfl, sameItem.symm, ?_⟩
  rw [← sameItem, sortedEach_eq (_ ++ _), List.map_append, List.map_cons] at perm
  have without := (perm.trans List.perm_middle).cons_inv
  rw [sortedEach_eq (_ ++ _), List.map_append]
  exact without

mutual

/-- Trees that are sorted alike are the same. -/
theorem same_of_sorted_eq : ∀ {tree other : DataTree Leaf},
    tree.sorted = other.sorted → tree.Same other
  | .leaf value, other, sorted => by
      cases other with
      | leaf another =>
          cases sorted
          exact DataTree.Same.leaf value
      | list others => cases sorted
      | mapping others => cases sorted
  | .list items, other, sorted => by
      cases other with
      | leaf another => cases sorted
      | list others =>
          rw [DataTree.sorted, DataTree.sorted, DataTree.list.injEq] at sorted
          exact DataTree.Same.list (sameItems_of_sorted_eq sorted)
      | mapping others => cases sorted
  | .mapping entries, other, sorted => by
      cases other with
      | leaf another => cases sorted
      | list others => cases sorted
      | mapping others =>
          rw [DataTree.sorted, DataTree.sorted, DataTree.mapping.injEq] at sorted
          have perm := (List.perm_insertionSort byKey (sortedEach entries)).symm
          rw [sorted] at perm
          exact DataTree.Same.mapping (sameEntries_of_perm
            (perm.trans (List.perm_insertionSort byKey (sortedEach others))))

theorem sameItems_of_sorted_eq : ∀ {items others : List (DataTree Leaf)},
    sortedItems items = sortedItems others → SameItems items others
  | [], others, sorted => by
      cases others with
      | nil => exact SameItems.nil
      | cons other rest => cases sorted
  | item :: rest, others, sorted => by
      cases others with
      | nil => cases sorted
      | cons other others =>
          rw [sortedItems, sortedItems, List.cons.injEq] at sorted
          exact SameItems.cons (same_of_sorted_eq sorted.1)
            (sameItems_of_sorted_eq sorted.2)

theorem sameEntries_of_perm : ∀ {entries others : List (Text × DataTree Leaf)},
    (sortedEach entries).Perm (sortedEach others) → SameEntries entries others
  | [], others, perm => by
      cases others with
      | nil => exact SameEntries.nil
      | cons other rest => cases List.nil_perm.mp perm
  | (key, item) :: rest, others, perm => by
      obtain ⟨other, before, after, isOthers, isSorted, without⟩ := exists_entry perm
      rw [isOthers]
      exact SameEntries.cons key (same_of_sorted_eq isSorted) (sameEntries_of_perm without)

end

/-- Sorting decides whether trees are the same. -/
theorem same_iff_sorted_eq {tree other : DataTree Leaf} (keyed : tree.Keyed) :
    tree.Same other ↔ tree.sorted = other.sorted :=
  ⟨fun same => same.sorted_eq keyed, same_of_sorted_eq⟩

mutual

theorem sorted_sorted : ∀ tree : DataTree Leaf, tree.sorted.sorted = tree.sorted
  | .leaf _ => rfl
  | .list items => by
      rw [DataTree.sorted, DataTree.sorted, sortedItems_sorted items]
  | .mapping entries => by
      have perm := List.perm_insertionSort byKey (sortedEach entries)
      have each : sortedEach ((sortedEach entries).insertionSort byKey) =
          (sortedEach entries).insertionSort byKey := by
        rw [sortedEach_eq]
        refine (List.map_congr_left fun entry member => ?_).trans (List.map_id _)
        exact Prod.ext rfl (sortedEach_sorted entries entry (perm.mem_iff.mp member))
      rw [DataTree.sorted, DataTree.sorted, each,
        (List.pairwise_insertionSort byKey (sortedEach entries)).insertionSort_eq]

theorem sortedItems_sorted : ∀ items : List (DataTree Leaf),
    sortedItems (sortedItems items) = sortedItems items
  | [] => rfl
  | item :: rest => by
      rw [sortedItems, sortedItems, sorted_sorted item, sortedItems_sorted rest]

theorem sortedEach_sorted : ∀ (entries : List (Text × DataTree Leaf)),
    ∀ entry ∈ sortedEach entries, entry.2.sorted = entry.2
  | [], _, member => by
      cases member
  | (key, item) :: rest, entry, member => by
      rw [sortedEach] at member
      rcases List.mem_cons.mp member with rfl | later
      · exact sorted_sorted item
      · exact sortedEach_sorted rest entry later

end

theorem same_sorted (tree : DataTree Leaf) : tree.Same tree.sorted :=
  same_of_sorted_eq (sorted_sorted tree).symm

/-! ## Other leaves -/

mutual

def DataTree.map (change : Leaf → Other) : DataTree Leaf → DataTree Other
  | .leaf value => .leaf (change value)
  | .list items => .list (mapItems change items)
  | .mapping entries => .mapping (mapEntries change entries)

def mapItems (change : Leaf → Other) : List (DataTree Leaf) → List (DataTree Other)
  | [] => []
  | item :: rest => item.map change :: mapItems change rest

def mapEntries (change : Leaf → Other) :
    List (Text × DataTree Leaf) → List (Text × DataTree Other)
  | [] => []
  | (key, item) :: rest => (key, item.map change) :: mapEntries change rest

end

theorem mapEntries_eq (change : Leaf → Other) (entries : List (Text × DataTree Leaf)) :
    mapEntries change entries = entries.map fun entry => (entry.1, entry.2.map change) := by
  induction entries with
  | nil => rfl
  | cons entry rest inductionHypothesis =>
      rw [mapEntries, inductionHypothesis, List.map_cons]

mutual

theorem DataTree.Same.map (change : Leaf → Other) : ∀ {tree other : DataTree Leaf},
    tree.Same other → (tree.map change).Same (other.map change)
  | _, _, .leaf value => DataTree.Same.leaf (change value)
  | _, _, .list each => by
      rw [DataTree.map, DataTree.map]
      exact DataTree.Same.list (sameItems_map change each)
  | _, _, .mapping each => by
      rw [DataTree.map, DataTree.map]
      exact DataTree.Same.mapping (sameEntries_map change each)

theorem sameItems_map (change : Leaf → Other) : ∀ {items others : List (DataTree Leaf)},
    SameItems items others → SameItems (mapItems change items) (mapItems change others)
  | _, _, .nil => SameItems.nil
  | _, _, .cons first each => SameItems.cons (first.map change) (sameItems_map change each)

theorem sameEntries_map (change : Leaf → Other) :
    ∀ {entries others : List (Text × DataTree Leaf)}, SameEntries entries others →
      SameEntries (mapEntries change entries) (mapEntries change others)
  | _, _, .nil => SameEntries.nil
  | _, _, .cons key first each => by
      have rest := sameEntries_map change each
      rw [mapEntries_eq change (_ ++ _), List.map_append] at rest
      rw [mapEntries, mapEntries_eq change (_ ++ _), List.map_append, List.map_cons]
      exact SameEntries.cons key (first.map change) rest

end

end ParishKit.Lib
