import Mathlib.Data.List.Forall2
import Mathlib.Order.Lattice

/-!
# Dictionaries

Entries in the order of their keys, each key once. Two dictionaries are the same
when they hold the same under every key.
-/

namespace ParishKit.Lib

variable {Key Value : Type}

/-! ## Entries -/

variable [LinearOrder Key]

/-- What is held under a key. -/
def findEntry (key : Key) : List (Key × Value) → Option Value
  | [] => none
  | entry :: rest => if entry.1 = key then some entry.2 else findEntry key rest

theorem findEntry_eq_none
    {key : Key} {entries : List (Key × Value)} :
    findEntry key entries = none ↔ ∀ entry ∈ entries, entry.1 ≠ key := by
  induction entries with
  | nil => exact ⟨fun _ entry member => (by cases member), fun _ => rfl⟩
  | cons head tail inductionHypothesis =>
      rw [findEntry, List.forall_mem_cons]
      by_cases same : head.1 = key
      · rw [if_pos same]
        exact ⟨fun isNone => (by cases isNone), fun others => absurd same others.1⟩
      · rw [if_neg same, inductionHypothesis]
        exact ⟨fun others => ⟨same, others⟩, fun others => others.2⟩

theorem mem_of_findEntry
    {key : Key} {entries : List (Key × Value)} {value : Value}
    (found : findEntry key entries = some value) : (key, value) ∈ entries := by
  induction entries with
  | nil => cases found
  | cons head tail inductionHypothesis =>
      rw [findEntry] at found
      split at found
      · rename_i same
        cases found
        rw [← same]
        exact List.mem_cons_self
      · exact List.mem_cons_of_mem _ (inductionHypothesis found)

/-- Entries of distinct keys are what is held under each. -/
theorem entries_of_keys
    {keys : List Key} {entries : List (Key × Value)} (missing : Value)
    (isKeys : entries.map Prod.fst = keys) (distinct : keys.Nodup) :
    (keys.map fun key => (key, (findEntry key entries).getD missing)) = entries := by
  subst isKeys
  induction entries with
  | nil => rfl
  | cons entry rest inductionHypothesis =>
      rw [List.map_cons, List.nodup_cons] at distinct
      rw [List.map_cons, List.map_cons, findEntry, if_pos rfl, Option.getD_some]
      refine congrArg _ (Eq.trans (List.map_congr_left fun key member => ?_)
        (inductionHypothesis distinct.2))
      rw [findEntry, if_neg fun same : entry.1 = key => distinct.1 (same ▸ member)]

/-- Replaces what is held under a key, or places it in order. -/
def setEntry (key : Key) (value : Value) : List (Key × Value) → List (Key × Value)
  | [] => [(key, value)]
  | entry :: rest =>
      if entry.1 = key then (key, value) :: rest
      else if key < entry.1 then (key, value) :: entry :: rest
      else entry :: setEntry key value rest

theorem findEntry_setEntry_self (key : Key) (value : Value) (entries : List (Key × Value)) :
    findEntry key (setEntry key value entries) = some value := by
  induction entries with
  | nil => exact if_pos rfl
  | cons head tail inductionHypothesis =>
      rw [setEntry]
      by_cases same : head.1 = key
      · rw [if_pos same]
        exact if_pos rfl
      · rw [if_neg same]
        by_cases before : key < head.1
        · rw [if_pos before]
          exact if_pos rfl
        · rw [if_neg before, findEntry, if_neg same, inductionHypothesis]

theorem findEntry_setEntry_of_ne
    {key other : Key} (value : Value) (entries : List (Key × Value))
    (different : key ≠ other) :
    findEntry other (setEntry key value entries) = findEntry other entries := by
  induction entries with
  | nil => exact if_neg different
  | cons head tail inductionHypothesis =>
      rw [setEntry]
      by_cases same : head.1 = key
      · rw [if_pos same, findEntry, findEntry, if_neg different,
          if_neg fun equal => different (same.symm.trans equal)]
      · rw [if_neg same]
        by_cases before : key < head.1
        · rw [if_pos before, findEntry, if_neg different]
        · rw [if_neg before, findEntry, findEntry, inductionHypothesis]

theorem mem_keys_setEntry
    {key other : Key} {value : Value} {entries : List (Key × Value)} :
    other ∈ (setEntry key value entries).map Prod.fst ↔
      other = key ∨ other ∈ entries.map Prod.fst := by
  induction entries with
  | nil => simp [setEntry]
  | cons head tail inductionHypothesis =>
      rw [setEntry]
      by_cases same : head.1 = key
      · rw [if_pos same]
        simp [same]
      · rw [if_neg same]
        by_cases before : key < head.1
        · rw [if_pos before]
          simp
        · rw [if_neg before, List.map_cons, List.mem_cons, inductionHypothesis,
            List.map_cons, List.mem_cons]
          exact or_left_comm

theorem setEntry_ascending
    {entries : List (Key × Value)} (ascending : (entries.map Prod.fst).Pairwise (· < ·))
    (key : Key) (value : Value) :
    ((setEntry key value entries).map Prod.fst).Pairwise (· < ·) := by
  induction entries with
  | nil => exact List.pairwise_singleton _ _
  | cons head tail inductionHypothesis =>
      rw [List.map_cons, List.pairwise_cons] at ascending
      obtain ⟨first, rest⟩ := ascending
      rw [setEntry]
      by_cases same : head.1 = key
      · rw [if_pos same, List.map_cons, List.pairwise_cons]
        rw [same] at first
        exact ⟨first, rest⟩
      · rw [if_neg same]
        by_cases before : key < head.1
        · rw [if_pos before, List.map_cons, List.pairwise_cons]
          refine ⟨fun other member => ?_, List.pairwise_cons.mpr ⟨first, rest⟩⟩
          rcases List.mem_cons.mp member with rfl | later
          · exact before
          · exact lt_trans before (first other later)
        · rw [if_neg before, List.map_cons, List.pairwise_cons]
          refine ⟨fun other member => ?_, inductionHypothesis rest⟩
          rcases mem_keys_setEntry.mp member with rfl | isOld
          · exact lt_of_le_of_ne (not_lt.mp before) same
          · exact first other isOld

/-- Entries in order are related one by one when what is held under each key is. -/
theorem forall₂_of_findEntry
    {Other : Type} {related : Value → Other → Prop}
    {left : List (Key × Value)} {right : List (Key × Other)}
    (leftAscending : (left.map Prod.fst).Pairwise (· < ·))
    (rightAscending : (right.map Prod.fst).Pairwise (· < ·))
    (each : ∀ key, Option.Rel related (findEntry key left) (findEntry key right)) :
    List.Forall₂ (fun entry other => entry.1 = other.1 ∧ related entry.2 other.2)
      left right := by
  induction left generalizing right with
  | nil =>
      cases right with
      | nil => exact List.Forall₂.nil
      | cons head tail =>
          have missing := each head.1
          rw [findEntry, findEntry, if_pos rfl] at missing
          cases missing
  | cons head tail inductionHypothesis =>
      cases right with
      | nil =>
          have missing := each head.1
          rw [findEntry, findEntry, if_pos rfl] at missing
          cases missing
      | cons other rest =>
          obtain ⟨first, tailAscending⟩ := List.pairwise_cons.mp leftAscending
          obtain ⟨otherFirst, restAscending⟩ := List.pairwise_cons.mp rightAscending
          -- Neither head is below the other, as each is held by both.
          have sameKey : head.1 = other.1 := by
            rcases lt_trichotomy head.1 other.1 with less | equal | greater
            · have held := each head.1
              rw [findEntry, if_pos rfl] at held
              cases found : findEntry head.1 (other :: rest) with
              | none =>
                  rw [found] at held
                  cases held
              | some value =>
                  rcases List.mem_cons.mp (mem_of_findEntry found) with isHead | later
                  · exact congrArg Prod.fst isHead
                  · exact absurd (otherFirst _ (List.mem_map_of_mem later))
                      (lt_asymm less)
            · exact equal
            · have held := each other.1
              rw [findEntry.eq_2 other.1 other rest, if_pos rfl] at held
              cases found : findEntry other.1 (head :: tail) with
              | none =>
                  rw [found] at held
                  cases held
              | some value =>
                  rcases List.mem_cons.mp (mem_of_findEntry found) with isHead | later
                  · exact (congrArg Prod.fst isHead).symm
                  · exact absurd (first _ (List.mem_map_of_mem later)) (lt_asymm greater)
          have sameValue : related head.2 other.2 := by
            have held := each head.1
            rw [findEntry, if_pos rfl, findEntry, if_pos sameKey.symm] at held
            cases held
            assumption
          refine List.Forall₂.cons ⟨sameKey, sameValue⟩
            (inductionHypothesis tailAscending restAscending fun key => ?_)
          by_cases isHead : head.1 = key
          · have notLeft : findEntry key tail = none :=
              findEntry_eq_none.mpr fun entry member equal =>
                absurd (first _ (List.mem_map_of_mem member))
                  (by rw [equal, isHead]; exact lt_irrefl key)
            have notRight : findEntry key rest = none :=
              findEntry_eq_none.mpr fun entry member equal =>
                absurd (otherFirst _ (List.mem_map_of_mem member))
                  (by rw [equal, ← sameKey, isHead]; exact lt_irrefl key)
            rw [notLeft, notRight]
            exact Option.Rel.none
          · have held := each key
            rw [findEntry, if_neg isHead, findEntry,
              if_neg fun equal => isHead (sameKey.trans equal)] at held
            exact held

/-! ## Dictionaries -/

/-- A dictionary, its entries in the order of the keys. -/
structure Dict (Key Value : Type) [LinearOrder Key] where
  entries : List (Key × Value)
  ascending : (entries.map Prod.fst).Pairwise (· < ·)

namespace Dict

def get (dict : Dict Key Value) (key : Key) : Option Value :=
  findEntry key dict.entries

def set (dict : Dict Key Value) (key : Key) (value : Value) : Dict Key Value where
  entries := setEntry key value dict.entries
  ascending := setEntry_ascending dict.ascending key value

def keys (dict : Dict Key Value) : List Key :=
  dict.entries.map Prod.fst

theorem get_set_self (dict : Dict Key Value) (key : Key) (value : Value) :
    (dict.set key value).get key = some value :=
  findEntry_setEntry_self key value dict.entries

theorem get_set_of_ne
    (dict : Dict Key Value) {key other : Key} (value : Value) (different : key ≠ other) :
    (dict.set key value).get other = dict.get other :=
  findEntry_setEntry_of_ne value dict.entries different

/-- What is held under each key, changed. -/
def mapValues {Other : Type} (change : Value → Other) (dict : Dict Key Value) :
    Dict Key Other where
  entries := dict.entries.map fun entry => (entry.1, change entry.2)
  ascending := by
    rw [List.map_map]
    exact dict.ascending

theorem get_mapValues {Other : Type} (change : Value → Other) (dict : Dict Key Value)
    (key : Key) : (dict.mapValues change).get key = (dict.get key).map change := by
  obtain ⟨entries, ascending⟩ := dict
  unfold get mapValues
  dsimp only
  clear ascending
  induction entries with
  | nil => rfl
  | cons head tail inductionHypothesis =>
      rw [List.map_cons, findEntry, findEntry, inductionHypothesis]
      split
      · rfl
      · rfl

theorem entries_related
    {Other : Type} {related : Value → Other → Prop} {left : Dict Key Value}
    {right : Dict Key Other}
    (each : ∀ key, Option.Rel related (left.get key) (right.get key)) :
    List.Forall₂ (fun entry other => entry.1 = other.1 ∧ related entry.2 other.2)
      left.entries right.entries :=
  forall₂_of_findEntry left.ascending right.ascending each

theorem ext_get {left right : Dict Key Value}
    (same : ∀ key, left.get key = right.get key) : left = right := by
  have related : List.Forall₂ (fun entry other => entry.1 = other.1 ∧ entry.2 = other.2)
      left.entries right.entries := entries_related fun key => by
    rw [same key]
    cases right.get key with
    | none => exact Option.Rel.none
    | some value => exact Option.Rel.some rfl
  obtain ⟨entries, ascending⟩ := left
  obtain ⟨others, othersAscending⟩ := right
  have sameEntries : entries = others := by
    rw [← List.forall₂_eq_eq_eq]
    exact related.imp fun entry other equal => Prod.ext equal.1 equal.2
  subst sameEntries
  rfl

end Dict

end ParishKit.Lib
