import Mathlib.Algebra.Order.Ring.Int
import Mathlib.Data.Finset.Card
import Mathlib.Data.List.Nodup

/-!
# Sorted sets

Members with scores, each member once, in the order of the scores. What a bounded
sorted set has kept is compared with all members seen after an instant: the most
recent ones up to a number.
-/

namespace ParishKit.Lib

universe u

structure Scored (Member : Type u) where
  score : Int
  member : Member
deriving DecidableEq, Repr

/-- Each member has one score, and the scores ascend. -/
structure SortedSet (Member : Type u) where
  entries : List (Scored Member)
  distinct : (entries.map Scored.member).Nodup
  ascending : entries.Pairwise fun first second => first.score ≤ second.score

variable {Member : Type u}

/-! ## Placing an entry -/

section

variable [LE Member] [DecidableLE Member]

/-- Before the first entry with a higher score, or as high and a later member. -/
def place (added : Scored Member) : List (Scored Member) → List (Scored Member)
  | [] => [added]
  | head :: tail =>
      if added.score < head.score ∨
          added.score = head.score ∧ added.member ≤ head.member then
        added :: head :: tail
      else
        head :: place added tail

theorem place_perm (added : Scored Member) (entries : List (Scored Member)) :
    (place added entries).Perm (added :: entries) := by
  induction entries with
  | nil => exact List.Perm.refl _
  | cons head tail inductionHypothesis =>
      rw [place]
      split
      · exact List.Perm.refl _
      · exact (inductionHypothesis.cons head).trans (List.Perm.swap added head tail)

theorem place_ascending
    (added : Scored Member) {entries : List (Scored Member)}
    (ascending : entries.Pairwise fun first second => first.score ≤ second.score) :
    (place added entries).Pairwise fun first second =>
      first.score ≤ second.score := by
  induction entries with
  | nil => exact List.pairwise_singleton _ _
  | cons head tail inductionHypothesis =>
      obtain ⟨isFirst, tailAscending⟩ := List.pairwise_cons.mp ascending
      rw [place]
      split
      · rename_i isBefore
        refine List.pairwise_cons.mpr ⟨fun other member => ?_, ascending⟩
        rcases List.mem_cons.mp member with rfl | later
        · omega
        · have above := isFirst other later
          omega
      · rename_i isAfter
        refine List.pairwise_cons.mpr
          ⟨fun other member => ?_, inductionHypothesis tailAscending⟩
        rcases List.mem_cons.mp ((place_perm added tail).mem_iff.mp member) with
          rfl | later
        · omega
        · exact isFirst other later

end

/-- How many of the entries left by a drop are above a score. -/
theorem length_filter_drop
    {entries : List (Scored Member)}
    (ascending : entries.Pairwise fun first second => first.score ≤ second.score)
    (bound : Int) (dropped : Nat) :
    ((entries.drop dropped).filter fun entry => decide (bound < entry.score)).length =
      min (entries.length - dropped)
        (entries.filter fun entry => decide (bound < entry.score)).length := by
  induction entries generalizing dropped with
  | nil => simp
  | cons head tail inductionHypothesis =>
      obtain ⟨isFirst, tailAscending⟩ := List.pairwise_cons.mp ascending
      have notLonger := List.length_filter_le
        (fun entry : Scored Member => decide (bound < entry.score)) tail
      cases dropped with
      | zero =>
          have allNotLonger := List.length_filter_le
            (fun entry : Scored Member => decide (bound < entry.score)) (head :: tail)
          rw [List.drop_zero, Nat.sub_zero, Nat.min_eq_right allNotLonger]
      | succ dropped =>
          rw [List.drop_succ_cons, inductionHypothesis tailAscending, List.length_cons]
          by_cases above : bound < head.score
          · have all : (tail.filter fun entry => decide (bound < entry.score)) =
                tail := by
              refine List.filter_eq_self.mpr fun entry member => decide_eq_true ?_
              have higher := isFirst entry member
              omega
            rw [List.filter_cons_of_pos (by simpa using above), List.length_cons, all]
            omega
          · rw [List.filter_cons_of_neg (by simpa using above)]
            omega

namespace SortedSet

theorem noEntries_distinct :
    (([] : List (Scored Member)).map Scored.member).Nodup :=
  List.nodup_nil

theorem noEntries_ascending :
    ([] : List (Scored Member)).Pairwise fun first second =>
      first.score ≤ second.score :=
  List.Pairwise.nil

/-- A missing key. -/
def empty : SortedSet Member :=
  ⟨[], noEntries_distinct, noEntries_ascending⟩

theorem distinct_of_sublist
    (set : SortedSet Member) {entries : List (Scored Member)}
    (kept : entries.Sublist set.entries) : (entries.map Scored.member).Nodup :=
  (kept.map Scored.member).nodup set.distinct

theorem ascending_of_sublist
    (set : SortedSet Member) {entries : List (Scored Member)}
    (kept : entries.Sublist set.entries) :
    entries.Pairwise fun first second => first.score ≤ second.score :=
  set.ascending.sublist kept

/-- `ZREMRANGEBYSCORE`, from the lowest score up to a bound. -/
def removeUpTo (set : SortedSet Member) (bound : Int) : SortedSet Member where
  entries := set.entries.filter fun entry => decide (bound < entry.score)
  distinct := set.distinct_of_sublist List.filter_sublist
  ascending := set.ascending_of_sublist List.filter_sublist

/-- `ZREMRANGEBYRANK`, from the first entry to the one `last` from the end. -/
def removeRanks (set : SortedSet Member) (last : Nat) : SortedSet Member where
  entries := set.entries.drop (set.entries.length + 1 - last)
  distinct := set.distinct_of_sublist (List.drop_sublist _ _)
  ascending := set.ascending_of_sublist (List.drop_sublist _ _)

/-- `ZCARD`. -/
def card (set : SortedSet Member) : Nat :=
  set.entries.length

section

variable [DecidableEq Member] [LE Member] [DecidableLE Member]

theorem place_distinct
    (set : SortedSet Member) (score : Int) (member : Member) :
    ((place ⟨score, member⟩ (set.entries.filter fun entry =>
      decide (entry.member ≠ member))).map Scored.member).Nodup := by
  rw [((place_perm _ _).map Scored.member).nodup_iff, List.map_cons, List.nodup_cons]
  refine ⟨fun isOther => ?_, set.distinct_of_sublist List.filter_sublist⟩
  obtain ⟨entry, isEntry, same⟩ := List.mem_map.mp isOther
  have different := of_decide_eq_true (List.mem_filter.mp isEntry).2
  exact different same

/-- `ZADD`: a member that is there gets the new score. -/
def add (set : SortedSet Member) (score : Int) (member : Member) :
    SortedSet Member where
  entries := place ⟨score, member⟩ (set.entries.filter fun entry =>
    decide (entry.member ≠ member))
  distinct := set.place_distinct score member
  ascending := place_ascending _ (set.ascending_of_sublist List.filter_sublist)

end

/-! ## The members above a score -/

section

variable [DecidableEq Member]

/-- The members above a score. -/
def above (set : SortedSet Member) (bound : Int) : Finset Member :=
  ((set.entries.filter fun entry => decide (bound < entry.score)).map
    Scored.member).toFinset

theorem mem_above {set : SortedSet Member} {bound : Int} {member : Member} :
    member ∈ set.above bound ↔
      ∃ score, bound < score ∧ ⟨score, member⟩ ∈ set.entries := by
  unfold above
  simp only [List.mem_toFinset, List.mem_map, List.mem_filter, decide_eq_true_eq]
  constructor
  · rintro ⟨⟨score, _⟩, ⟨isEntry, higher⟩, rfl⟩
    exact ⟨score, higher, isEntry⟩
  · rintro ⟨score, higher, isEntry⟩
    exact ⟨⟨score, member⟩, ⟨isEntry, higher⟩, rfl⟩

theorem card_above (set : SortedSet Member) (bound : Int) :
    (set.above bound).card =
      (set.entries.filter fun entry => decide (bound < entry.score)).length := by
  unfold above
  rw [List.toFinset_card_of_nodup (set.distinct_of_sublist List.filter_sublist),
    List.length_map]

/-- When all entries are above a score, they are counted. -/
theorem card_eq_card_above
    {set : SortedSet Member} {bound : Int}
    (higher : ∀ entry ∈ set.entries, bound < entry.score) :
    set.card = (set.above bound).card := by
  rw [card_above, List.filter_eq_self.mpr fun entry member =>
    decide_eq_true (higher entry member), card]

theorem above_removeUpTo
    {set : SortedSet Member} {removed bound : Int} (le : removed ≤ bound) :
    (set.removeUpTo removed).above bound = set.above bound := by
  ext member
  rw [mem_above, mem_above]
  constructor
  · rintro ⟨score, higher, isEntry⟩
    exact ⟨score, higher, (List.mem_filter.mp isEntry).1⟩
  · rintro ⟨score, higher, isEntry⟩
    exact ⟨score, higher, List.mem_filter.mpr
      ⟨isEntry, decide_eq_true (Int.lt_of_le_of_lt le higher)⟩⟩

omit [DecidableEq Member] in
theorem mem_entries_removeRanks {set : SortedSet Member} {last : Nat}
    {entry : Scored Member} (member : entry ∈ (set.removeRanks last).entries) :
    entry ∈ set.entries :=
  List.mem_of_mem_drop member

theorem above_removeRanks_subset (set : SortedSet Member) (last : Nat) (bound : Int) :
    (set.removeRanks last).above bound ⊆ set.above bound := by
  intro member isAbove
  obtain ⟨score, higher, isEntry⟩ := mem_above.mp isAbove
  exact mem_above.mpr ⟨score, higher, mem_entries_removeRanks isEntry⟩

/-- The most recent members stay. -/
theorem card_above_removeRanks (set : SortedSet Member) (last : Nat) (bound : Int) :
    ((set.removeRanks last).above bound).card =
      min (set.entries.length - (set.entries.length + 1 - last))
        (set.above bound).card := by
  rw [card_above, card_above]
  exact length_filter_drop set.ascending bound _

theorem mem_entries_add [LE Member] [DecidableLE Member]
    {set : SortedSet Member} {score : Int} {member : Member}
    {entry : Scored Member} :
    entry ∈ (set.add score member).entries ↔
      entry = ⟨score, member⟩ ∨ entry ∈ set.entries ∧ entry.member ≠ member := by
  change entry ∈ place _ _ ↔ _
  rw [(place_perm _ _).mem_iff, List.mem_cons, List.mem_filter, decide_eq_true_eq]

theorem above_add [LE Member] [DecidableLE Member]
    (set : SortedSet Member) (score : Int) (member : Member) (bound : Int) :
    (set.add score member).above bound =
      if bound < score then insert member (set.above bound)
      else (set.above bound).erase member := by
  ext other
  rw [mem_above]
  by_cases same : other = member
  · subst same
    have onlyNew : ∀ otherScore, ⟨otherScore, other⟩ ∈ (set.add score other).entries ↔
        otherScore = score := by
      intro otherScore
      rw [mem_entries_add]
      constructor
      · rintro (isNew | ⟨_, different⟩)
        · exact congrArg Scored.score isNew
        · exact absurd rfl different
      · rintro rfl
        exact Or.inl rfl
    split
    · rename_i higher
      exact ⟨fun _ => Finset.mem_insert_self _ _,
        fun _ => ⟨score, higher, (onlyNew score).mpr rfl⟩⟩
    · rename_i notHigher
      constructor
      · rintro ⟨otherScore, higher, isThere⟩
        rw [(onlyNew otherScore).mp isThere] at higher
        exact absurd higher notHigher
      · intro isErased
        exact absurd rfl (Finset.mem_erase.mp isErased).1
  · have asBefore : (∃ otherScore, bound < otherScore ∧
          ⟨otherScore, other⟩ ∈ (set.add score member).entries) ↔
        other ∈ set.above bound := by
      rw [mem_above]
      constructor
      · rintro ⟨otherScore, higher, isThere⟩
        rcases mem_entries_add.mp isThere with isNew | ⟨isOld, _⟩
        · exact absurd (congrArg Scored.member isNew) same
        · exact ⟨otherScore, higher, isOld⟩
      · rintro ⟨otherScore, higher, isOld⟩
        exact ⟨otherScore, higher, mem_entries_add.mpr (Or.inr ⟨isOld, same⟩)⟩
    rw [asBefore]
    split
    · rw [Finset.mem_insert]
      exact ⟨Or.inr, fun isThere => isThere.resolve_left same⟩
    · rw [Finset.mem_erase]
      exact ⟨fun isThere => ⟨same, isThere⟩, fun isThere => isThere.2⟩

/-! ## What a bounded set has kept -/

/-- Above every score from a bound on, the set has only members that were seen,
and all of them or as many as it keeps. -/
def Covers (keep : Nat) (seen : Int → Finset Member) (set : SortedSet Member)
    (since : Int) : Prop :=
  ∀ bound, since ≤ bound → set.above bound ⊆ seen bound ∧
    min keep (seen bound).card ≤ (set.above bound).card

/-- The members seen, with one more. -/
def seenWith (seen : Int → Finset Member) (score : Int) (member : Member)
    (bound : Int) : Finset Member :=
  if bound < score then insert member (seen bound) else seen bound

section

variable {keep : Nat} {seen : Int → Finset Member} {set : SortedSet Member}
  {since later : Int}

theorem Covers.mono (covers : Covers keep seen set since) (le : since ≤ later) :
    Covers keep seen set later :=
  fun bound isAfter => covers bound (Int.le_trans le isAfter)

/-- Nothing was seen, so nothing is missing. -/
theorem covers_empty (nothing : ∀ bound, since ≤ bound → seen bound = ∅) :
    Covers keep seen empty since := by
  intro bound isAfter
  rw [nothing bound isAfter]
  refine ⟨fun member isAbove => ?_, by simp⟩
  obtain ⟨_, _, isEntry⟩ := mem_above.mp isAbove
  cases isEntry

theorem Covers.removeUpTo
    (covers : Covers keep seen set since) (le : since ≤ later) :
    Covers keep seen (set.removeUpTo later) later := by
  intro bound isAfter
  rw [above_removeUpTo isAfter]
  exact covers bound (Int.le_trans le isAfter)

theorem Covers.removeRanks
    (covers : Covers keep seen set since) {last : Nat} (enough : keep < last) :
    Covers keep seen (set.removeRanks last) since := by
  intro bound isAfter
  obtain ⟨subset, atLeast⟩ := covers bound isAfter
  refine ⟨(set.above_removeRanks_subset last bound).trans subset, ?_⟩
  rw [card_above_removeRanks]
  have notMore : (set.above bound).card ≤ set.entries.length := by
    rw [card_above]
    exact List.length_filter_le _ _
  omega

/-- A new member is seen, and the set has it. -/
theorem Covers.add [LE Member] [DecidableLE Member]
    (covers : Covers keep seen set since) {score : Int}
    (latest : ∀ entry ∈ set.entries, entry.score ≤ score) (member : Member) :
    Covers keep (seenWith seen score member) (set.add score member) since := by
  intro bound isAfter
  obtain ⟨subset, atLeast⟩ := covers bound isAfter
  rw [above_add, seenWith]
  split
  · refine ⟨Finset.insert_subset_insert member subset, ?_⟩
    by_cases wasThere : member ∈ set.above bound
    · rw [Finset.insert_eq_self.mpr wasThere,
        Finset.insert_eq_self.mpr (subset wasThere)]
      exact atLeast
    · rw [Finset.card_insert_of_notMem wasThere]
      have oneMore := Finset.card_insert_le member (seen bound)
      omega
  · rename_i notHigher
    have noneAbove : set.above bound = ∅ := by
      refine Finset.eq_empty_of_forall_notMem fun other isAbove => ?_
      obtain ⟨otherScore, higher, isEntry⟩ := mem_above.mp isAbove
      have notLater : otherScore ≤ score := latest _ isEntry
      omega
    rw [noneAbove] at atLeast ⊢
    exact ⟨by simp, by simpa using atLeast⟩

/-- Seeing the latest member again is seeing nothing new. -/
theorem seenWith_seenWith (seen : Int → Finset Member) (score : Int)
    (member : Member) :
    seenWith (seenWith seen score member) score member = seenWith seen score member := by
  funext bound
  unfold seenWith
  split
  · rw [Finset.insert_eq_self.mpr (Finset.mem_insert_self _ _)]
  · rfl

/-- A bounded count decides what the count of all decides: both are the same, or
both reach what is kept. -/
theorem Covers.card
    (covers : Covers keep seen set since)
    (higher : ∀ entry ∈ set.entries, since < entry.score) :
    set.card = (seen since).card ∨
      keep ≤ set.card ∧ keep ≤ (seen since).card := by
  obtain ⟨subset, atLeast⟩ := covers since (Int.le_refl _)
  have notMore := Finset.card_le_card subset
  rw [card_eq_card_above higher]
  omega

end

end

end SortedSet

end ParishKit.Lib
