import Mathlib.Data.List.DropRight
import Mathlib.Data.List.Infix

/-!
# Separated lists

Items joined by a separator and one blank, and what splitting them again gives.
-/

namespace ParishKit.Lib

universe u

variable {α : Type u}

/-! ## Trimming -/

/-- A list without the blanks at its two ends. -/
def trim (blank : α → Bool) (items : List α) : List α :=
  (items.dropWhile blank).rdropWhile blank

variable {blank : α → Bool}

theorem trim_isInfix (items : List α) : trim blank items <:+: items := by
  have front : trim blank items <+: items.dropWhile blank :=
    List.rdropWhile_prefix blank _
  have back : items.dropWhile blank <:+ items := List.dropWhile_suffix blank
  exact front.isInfix.trans back.isInfix

theorem length_trim_le (items : List α) :
    (trim blank items).length ≤ items.length :=
  (trim_isInfix items).length_le

theorem trim_cons_blank {head : α} (isBlank : blank head = true) (items : List α) :
    trim blank (head :: items) = trim blank items := by
  rw [trim, List.dropWhile_cons_of_pos isBlank, trim]

/-- What begins a list without leading blanks has none either. -/
theorem dropWhile_of_prefix
    {front items : List α} (begins : front <+: items)
    (kept : items.dropWhile blank = items) : front.dropWhile blank = front := by
  cases front with
  | nil => rfl
  | cons head tail =>
      obtain ⟨rest, rfl⟩ := begins
      by_cases isBlank : blank head = true
      · rw [List.cons_append, List.dropWhile_cons_of_pos isBlank] at kept
        have shorter := (List.dropWhile_suffix (l := tail ++ rest) blank).length_le
        rw [kept, List.length_cons] at shorter
        omega
      · exact List.dropWhile_cons_of_neg isBlank

@[simp]
theorem trim_trim (items : List α) :
    trim blank (trim blank items) = trim blank items := by
  have inFront : trim blank items <+: items.dropWhile blank :=
    List.rdropWhile_prefix blank _
  have front : (trim blank items).dropWhile blank = trim blank items :=
    dropWhile_of_prefix inFront (List.dropWhile_idempotent _ _)
  rw [trim, front, trim, List.rdropWhile_idempotent]

/-! ## Splitting -/

variable {separator pad : α}

theorem infix_intercalate
    {between piece : List α} {pieces : List (List α)} (member : piece ∈ pieces) :
    piece <:+: between.intercalate pieces := by
  induction pieces with
  | nil => cases member
  | cons first rest inductionHypothesis =>
      cases rest with
      | nil =>
          rw [List.mem_singleton.mp member, List.intercalate_singleton]
      | cons second others =>
          rw [List.intercalate_cons_cons]
          rcases List.mem_cons.mp member with rfl | later
          · exact List.infix_append_of_infix_left
              (List.infix_append_of_infix_left List.infix_rfl)
          · exact List.infix_append_of_infix_right (inductionHypothesis later)

/-- Every element of joined items is one of an item or of what is between. -/
theorem mem_intercalate
    {between : List α} {pieces : List (List α)} {element : α}
    (member : element ∈ between.intercalate pieces) :
    element ∈ between ∨ ∃ piece ∈ pieces, element ∈ piece := by
  induction pieces with
  | nil => cases member
  | cons first rest inductionHypothesis =>
      cases rest with
      | nil =>
          rw [List.intercalate_singleton] at member
          exact Or.inr ⟨first, List.mem_cons_self, member⟩
      | cons second others =>
          rw [List.intercalate_cons_cons, List.mem_append, List.mem_append] at member
          rcases member with (inFirst | isBetween) | later
          · exact Or.inr ⟨first, List.mem_cons_self, inFirst⟩
          · exact Or.inl isBetween
          · rcases inductionHypothesis later with isBetween | ⟨piece, isPiece, inPiece⟩
            · exact Or.inl isBetween
            · exact Or.inr ⟨piece, List.mem_cons_of_mem _ isPiece, inPiece⟩

/-- Items that do not grow make no longer text when they are joined. -/
theorem length_intercalate_le
    {between : List α} {change : List α → List α} {parts : List (List α)}
    (shorter : ∀ part ∈ parts, (change part).length ≤ part.length) :
    (between.intercalate (parts.map change)).length ≤
      (between.intercalate parts).length := by
  induction parts with
  | nil => exact Nat.le_refl _
  | cons first rest inductionHypothesis =>
      have head := shorter first List.mem_cons_self
      have tail := inductionHypothesis fun part member =>
        shorter part (List.mem_cons_of_mem _ member)
      cases rest with
      | nil => simpa using head
      | cons second others =>
          simp only [List.map_cons, List.intercalate_cons_cons,
            List.length_append] at tail ⊢
          omega

/-- The blank after each separator goes to the item that follows. -/
theorem intercalate_pair (first : List α) (rest : List (List α)) :
    [separator, pad].intercalate (first :: rest) =
      [separator].intercalate (first :: rest.map (pad :: ·)) := by
  induction rest generalizing first with
  | nil => rfl
  | cons second others inductionHypothesis =>
      rw [List.map_cons, List.intercalate_cons_cons, List.intercalate_cons_cons,
        inductionHypothesis]
      cases others with
      | nil => simp
      | cons third others => simp

variable [DecidableEq α]

/-- A piece of a split list stands in the list and holds no separator. -/
theorem piece_of_splitOn
    {items piece : List α} (member : piece ∈ items.splitOn separator) :
    piece <:+: items ∧ separator ∉ piece := by
  refine ⟨?_, ?_⟩
  · have inJoined : piece <:+: [separator].intercalate (items.splitOn separator) :=
      infix_intercalate member
    rwa [List.intercalate_splitOn] at inJoined
  · induction items generalizing piece with
    | nil =>
        rw [List.splitOn_nil, List.mem_singleton] at member
        rw [member]
        exact List.not_mem_nil
    | cons head tail inductionHypothesis =>
        rw [List.splitOn_cons_eq_if_modifyHead] at member
        split at member
        · rcases List.mem_cons.mp member with rfl | later
          · exact List.not_mem_nil
          · exact inductionHypothesis later
        · rename_i different
          rw [beq_iff_eq] at different
          cases split : tail.splitOn separator with
          | nil => exact absurd split (List.splitOn_ne_nil _ _)
          | cons first rest =>
              rw [split, List.modifyHead_cons] at member
              rcases List.mem_cons.mp member with rfl | later
              · intro inPiece
                rcases List.mem_cons.mp inPiece with same | inFirst
                · exact different same.symm
                · refine inductionHypothesis ?_ inFirst
                  rw [split]
                  exact List.mem_cons_self
              · refine inductionHypothesis ?_
                rw [split]
                exact List.mem_cons_of_mem _ later

/-- Splitting joined items and trimming the pieces gives the items back. -/
theorem split_joined
    {items : List (List α)} (isBlank : blank pad = true)
    (different : pad ≠ separator) (apart : ∀ item ∈ items, separator ∉ item)
    (trimmed : ∀ item ∈ items, trim blank item = item) (nonempty : items ≠ []) :
    (([separator, pad].intercalate items).splitOn separator).map (trim blank) =
      items := by
  cases items with
  | nil => exact absurd rfl nonempty
  | cons first rest =>
      have noSeparator : ∀ piece ∈ first :: rest.map (pad :: ·),
          separator ∉ piece := by
        intro piece member inPiece
        rcases List.mem_cons.mp member with rfl | padded
        · exact apart _ List.mem_cons_self inPiece
        · obtain ⟨item, isItem, rfl⟩ := List.mem_map.mp padded
          rcases List.mem_cons.mp inPiece with same | inItem
          · exact different same.symm
          · exact apart item (List.mem_cons_of_mem _ isItem) inItem
      rw [intercalate_pair, List.splitOn_intercalate separator noSeparator
        (List.cons_ne_nil _ _), List.map_cons, List.map_map,
        trimmed first List.mem_cons_self]
      congr 1
      refine (List.map_congr_left fun item isItem => ?_).trans (List.map_id _)
      exact (trim_cons_blank isBlank item).trans
        (trimmed item (List.mem_cons_of_mem _ isItem))

end ParishKit.Lib
