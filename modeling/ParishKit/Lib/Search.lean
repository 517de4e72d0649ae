import Mathlib.Algebra.Order.Ring.Int
import Mathlib.Data.Finset.Card
import Mathlib.Order.Defs.LinearOrder

/-!
# The first candidate after a number

What it is, and a bounded search that finds it when candidates are never further
apart than the search looks. Then the greatest item of a list.
-/

namespace ParishKit.Lib

/-- `result` is the least candidate after a number, or none when there is none. -/
def FirstAfter {Number : Type} [LT Number] (candidate : Number → Prop)
    (after : Number) : Option Number → Prop
  | none => ∀ number, after < number → ¬ candidate number
  | some first => after < first ∧ candidate first ∧
      ∀ number, after < number → number < first → ¬ candidate number

theorem FirstAfter.unique {Number : Type} [LinearOrder Number]
    {candidate : Number → Prop} {after : Number} {first second : Option Number}
    (isFirst : FirstAfter candidate after first)
    (isSecond : FirstAfter candidate after second) : first = second := by
  cases first with
  | none =>
      cases second with
      | none => rfl
      | some number => exact absurd isSecond.2.1 (isFirst number isSecond.1)
  | some number =>
      cases second with
      | none => exact absurd isFirst.2.1 (isSecond number isFirst.1)
      | some other =>
          rcases lt_trichotomy number other with less | same | more
          · exact absurd isFirst.2.1 (isSecond.2.2 number isFirst.1 less)
          · rw [same]
          · exact absurd isSecond.2.1 (isFirst.2.2 other isSecond.1 more)

theorem FirstAfter.congr {candidate other : Int → Prop} {after : Int}
    {result : Option Int}
    (same : ∀ number, after < number → (candidate number ↔ other number))
    (isFirst : FirstAfter candidate after result) :
    FirstAfter other after result := by
  cases result with
  | none =>
      intro number later holds
      exact isFirst number later ((same number later).mpr holds)
  | some first =>
      obtain ⟨later, holds, least⟩ := isFirst
      exact ⟨later, (same first later).mp holds, fun number above below isOther =>
        least number above below ((same number above).mpr isOther)⟩

theorem FirstAfter.of_base {candidate : Int → Prop} {after base : Int}
    {result : Option Int} (le : after ≤ base)
    (none : ∀ day, after < day → day ≤ base → ¬ candidate day)
    (isFirst : FirstAfter candidate base result) :
    FirstAfter candidate after result := by
  cases result with
  | none =>
      intro day isAfter holds
      by_cases before : day ≤ base
      · exact none day isAfter before holds
      · exact isFirst day (by omega) holds
  | some first =>
      obtain ⟨isAfter, holds, least⟩ := isFirst
      refine ⟨by omega, holds, fun day later earlier isCandidate => ?_⟩
      by_cases before : day ≤ base
      · exact none day later before isCandidate
      · exact least day (by omega) earlier isCandidate

/-- Where no candidate comes first does not matter. -/
theorem FirstAfter.of_none {candidate : Int → Prop} {after other : Int}
    {result : Option Int} (none : ∀ day ≤ after, ¬ candidate day)
    (noneThere : ∀ day ≤ other, ¬ candidate day)
    (isFirst : FirstAfter candidate after result) :
    FirstAfter candidate other result := by
  cases result with
  | none =>
      intro day _ holds
      exact isFirst day (Int.not_le.mp fun le => none day le holds) holds
  | some first =>
      obtain ⟨_, holds, least⟩ := isFirst
      refine ⟨Int.not_le.mp fun le => noneThere first le holds, holds,
        fun day _ earlier isCandidate => ?_⟩
      exact least day (Int.not_le.mp fun le => none day le isCandidate) earlier
        isCandidate

/-- Looks at `count` numbers from `start` on, up to the first that stops. -/
def search (stop accept : Int → Bool) : Nat → Int → Option Int
  | 0, _ => none
  | count + 1, start =>
      if stop start then none
      else if accept start then some start
      else search stop accept count (start + 1)

variable {stop accept : Int → Bool}

theorem search_eq_some {count : Nat} {start found : Int}
    (isFound : search stop accept count start = some found) :
    start ≤ found ∧ found < start + count ∧ accept found = true ∧
      stop found = false ∧
      ∀ number, start ≤ number → number < found → accept number = false := by
  induction count generalizing start with
  | zero => cases isFound
  | succ count inductionHypothesis =>
      rw [search] at isFound
      by_cases stops : stop start = true
      · rw [if_pos stops] at isFound
        cases isFound
      · rw [if_neg stops] at isFound
        by_cases accepts : accept start = true
        · rw [if_pos accepts] at isFound
          cases isFound
          exact ⟨by omega, by omega, accepts, Bool.eq_false_iff.mpr stops,
            fun number lower upper => by omega⟩
        · rw [if_neg accepts] at isFound
          obtain ⟨lower, upper, isAccepted, goesOn, none⟩ :=
            inductionHypothesis isFound
          refine ⟨by omega, by omega, isAccepted, goesOn, fun number above below => ?_⟩
          by_cases isStart : number = start
          · rw [isStart]
            exact Bool.eq_false_iff.mpr accepts
          · exact none number (by omega) below

theorem search_eq_none {count : Nat} {start : Int}
    (isNone : search stop accept count start = none) {number : Int}
    (lower : start ≤ number) (upper : number < start + count)
    (isAccepted : accept number = true) :
    ∃ earlier, start ≤ earlier ∧ earlier ≤ number ∧ stop earlier = true := by
  induction count generalizing start with
  | zero => omega
  | succ count inductionHypothesis =>
      rw [search] at isNone
      by_cases stops : stop start = true
      · exact ⟨start, by omega, lower, stops⟩
      · rw [if_neg stops] at isNone
        by_cases accepts : accept start = true
        · rw [if_pos accepts] at isNone
          cases isNone
        · rw [if_neg accepts] at isNone
          have isLater : start ≠ number := by
            rintro rfl
            exact accepts isAccepted
          obtain ⟨earlier, above, below, stopsThere⟩ :=
            inductionHypothesis isNone (by omega) (by omega)
          exact ⟨earlier, by omega, below, stopsThere⟩

/-- A search over every distance that two candidates can have finds the first
one, when what stops it stops it for good. -/
theorem search_firstAfter {candidate : Int → Prop} {count : Nat} {after : Int}
    (forGood : ∀ number later, number ≤ later → stop number = true →
      stop later = true)
    (isCandidate : ∀ number, after < number →
      (candidate number ↔ accept number = true ∧ stop number = false))
    (close : ∀ number, after < number → candidate number →
      ∃ earlier, after < earlier ∧ earlier ≤ number ∧
        earlier < after + 1 + count ∧ accept earlier = true) :
    FirstAfter candidate after (search stop accept count (after + 1)) := by
  cases found : search stop accept count (after + 1) with
  | none =>
      intro number isAfter holds
      obtain ⟨earlier, lower, upper, near, isAccepted⟩ :=
        close number isAfter holds
      obtain ⟨stopped, _, before, stops⟩ :=
        search_eq_none found (by omega) near isAccepted
      have goesOn := ((isCandidate number isAfter).mp holds).2
      rw [forGood stopped number (by omega) stops] at goesOn
      cases goesOn
  | some first =>
      obtain ⟨lower, _, isAccepted, goesOn, none⟩ := search_eq_some found
      refine ⟨by omega, (isCandidate first (by omega)).mpr ⟨isAccepted, goesOn⟩,
        fun number isAfter before holds => ?_⟩
      have accepts := ((isCandidate number isAfter).mp holds).1
      rw [none number (by omega) before] at accepts
      cases accepts

/-! ## Passing some by -/

/-- From one candidate to the next, until one is not passed by. The outer `none`
is a search that is still going on. -/
def skipping (next : Int → Option Int) (skipped : Finset Int) :
    Nat → Option Int → Option (Option Int)
  | _, none => some none
  | 0, some found => if found ∈ skipped then none else some (some found)
  | fuel + 1, some found =>
      if found ∈ skipped then skipping next skipped fuel (next found)
      else some (some found)

/-- It ends within the number of candidates to pass by, at the first other one. -/
theorem skipping_firstAfter
    {candidate : Int → Prop} {next : Int → Option Int} {skipped : Finset Int}
    (isNext : ∀ after, FirstAfter candidate after (next after))
    {fuel : Nat} {after : Int}
    (enough : (skipped.filter (after < ·)).card ≤ fuel) :
    ∃ result, skipping next skipped fuel (next after) = some result ∧
      FirstAfter (fun number => candidate number ∧ number ∉ skipped) after
        result := by
  induction fuel generalizing after with
  | zero =>
      have first := isNext after
      cases found : next after with
      | none =>
          rw [found] at first
          exact ⟨none, rfl, fun number later holds => first number later holds.1⟩
      | some number =>
          rw [found] at first
          obtain ⟨later, holds, least⟩ := first
          have goesOn : number ∉ skipped := by
            intro isSkipped
            have member : number ∈ skipped.filter (after < ·) :=
              Finset.mem_filter.mpr ⟨isSkipped, later⟩
            have nonempty := Finset.card_pos.mpr ⟨number, member⟩
            omega
          exact ⟨some number, if_neg goesOn, later, ⟨holds, goesOn⟩,
            fun other above below isCandidate =>
              least other above below isCandidate.1⟩
  | succ fuel inductionHypothesis =>
      have first := isNext after
      cases found : next after with
      | none =>
          rw [found] at first
          exact ⟨none, rfl, fun number later holds => first number later holds.1⟩
      | some number =>
          rw [found] at first
          obtain ⟨later, holds, least⟩ := first
          by_cases isSkipped : number ∈ skipped
          · have fewer : (skipped.filter (number < ·)).card <
                (skipped.filter (after < ·)).card := by
              refine Finset.card_lt_card (Finset.ssubset_iff_of_subset ?_ |>.mpr
                ⟨number, Finset.mem_filter.mpr ⟨isSkipped, later⟩, ?_⟩)
              · intro other member
                obtain ⟨isOther, above⟩ := Finset.mem_filter.mp member
                exact Finset.mem_filter.mpr ⟨isOther, Int.lt_trans later above⟩
              · intro member
                exact Int.lt_irrefl _ (Finset.mem_filter.mp member).2
            obtain ⟨result, isResult, isFirst⟩ :=
              inductionHypothesis
                (show (skipped.filter (number < ·)).card ≤ fuel by omega)
            refine ⟨result, (if_pos isSkipped).trans isResult,
              isFirst.of_base (Int.le_of_lt later) ?_⟩
            intro other above notLater isCandidate
            by_cases same : other = number
            · rw [same] at isCandidate
              exact isCandidate.2 isSkipped
            · exact least other above (by omega) isCandidate.1
          · exact ⟨some number, if_neg isSkipped, later, ⟨holds, isSkipped⟩,
              fun other above below isCandidate =>
                least other above below isCandidate.1⟩

/-! ## Halving -/

/-- Halves the distance between a number before a threshold and one that is not.
The distance is fuel enough. -/
def bisect (before : Int → Bool) : Nat → Int → Int → Int
  | 0, _, high => high
  | fuel + 1, low, high =>
      if 1 < high - low then
        if before (low + (high - low) / 2) then
          bisect before fuel (low + (high - low) / 2) high
        else
          bisect before fuel low (low + (high - low) / 2)
      else
        high

theorem bisect_eq
    {before : Int → Bool} {threshold : Int}
    (isThreshold : ∀ number, before number = true ↔ number < threshold)
    {fuel : Nat} {low high : Int} (enough : high - low ≤ fuel)
    (lower : low < threshold) (upper : threshold ≤ high) :
    bisect before fuel low high = threshold := by
  induction fuel generalizing low high with
  | zero => omega
  | succ fuel inductionHypothesis =>
      rw [bisect]
      by_cases apart : 1 < high - low
      · rw [if_pos apart]
        by_cases isBefore : before (low + (high - low) / 2) = true
        · rw [if_pos isBefore]
          have less := (isThreshold _).mp isBefore
          exact inductionHypothesis (by omega) less upper
        · rw [if_neg isBefore]
          have reached := mt (isThreshold _).mpr isBefore
          exact inductionHypothesis (by omega) lower (by omega)
      · rw [if_neg apart]
        omega

/-- `bisect` of a test that may raise. -/
def bisectM {Raised : Type} (before : Int → Except Raised Bool) :
    Nat → Int → Int → Except Raised Int
  | 0, _, high => pure high
  | fuel + 1, low, high =>
      if 1 < high - low then do
        let isBefore ← before (low + (high - low) / 2)
        if isBefore then
          bisectM before fuel (low + (high - low) / 2) high
        else
          bisectM before fuel low (low + (high - low) / 2)
      else
        pure high

section

variable {Raised : Type} {test : Int → Except Raised Bool} {before : Int → Bool}

theorem bisectM_ok
    (agrees : ∀ number result, test number = .ok result → result = before number)
    {fuel : Nat} {low high found : Int}
    (isFound : bisectM test fuel low high = .ok found) :
    found = bisect before fuel low high := by
  induction fuel generalizing low high with
  | zero =>
      cases isFound
      rfl
  | succ fuel inductionHypothesis =>
      rw [bisectM] at isFound
      rw [bisect]
      by_cases apart : 1 < high - low
      · rw [if_pos apart] at isFound ⊢
        cases result : test (low + (high - low) / 2) with
        | error raised =>
            rw [result] at isFound
            cases isFound
        | ok isBefore =>
            rw [result] at isFound
            rw [← agrees _ _ result]
            cases isBefore with
            | true => exact inductionHypothesis isFound
            | false => exact inductionHypothesis isFound
      · rw [if_neg apart] at isFound ⊢
        cases isFound
        rfl

theorem bisectM_error
    {fuel : Nat} {low high : Int} {raised : Raised}
    (raises : bisectM test fuel low high = .error raised) :
    ∃ number, test number = .error raised := by
  induction fuel generalizing low high with
  | zero => cases raises
  | succ fuel inductionHypothesis =>
      rw [bisectM] at raises
      by_cases apart : 1 < high - low
      · rw [if_pos apart] at raises
        cases result : test (low + (high - low) / 2) with
        | error other =>
            rw [result] at raises
            cases raises
            exact ⟨_, result⟩
        | ok isBefore =>
            rw [result] at raises
            cases isBefore with
            | true => exact inductionHypothesis raises
            | false => exact inductionHypothesis raises
      · rw [if_neg apart] at raises
        cases raises

theorem bisectM_of_ok
    {fuel : Nat} {low high : Int} (le : low ≤ high)
    (agrees : ∀ number, low ≤ number → number ≤ high →
      test number = .ok (before number)) :
    bisectM test fuel low high = .ok (bisect before fuel low high) := by
  induction fuel generalizing low high with
  | zero => rfl
  | succ fuel inductionHypothesis =>
      rw [bisectM, bisect]
      by_cases apart : 1 < high - low
      · rw [if_pos apart, if_pos apart, agrees _ (by omega) (by omega)]
        by_cases isBefore : before (low + (high - low) / 2) = true
        · rw [if_pos isBefore, isBefore]
          exact inductionHypothesis (by omega)
            fun number lower upper => agrees number (by omega) upper
        · rw [if_neg isBefore, Bool.eq_false_iff.mpr isBefore]
          exact inductionHypothesis (by omega)
            fun number lower upper => agrees number lower (by omega)
      · rw [if_neg apart, if_neg apart]
        rfl

end

/-! ## The greatest item of a list -/

/-- The first of the items that no item of the list is above. -/
def greatest? {Item : Type} (below : Item → Item → Bool) : List Item → Option Item
  | [] => none
  | first :: rest => some (rest.foldl (fun best other =>
      if below best other then other else best) first)

section

variable {Item : Type} {key : Item → Int} {below : Item → Item → Bool}

theorem foldl_greatest
    (isAbove : ∀ left right, below left right = true → key left ≤ key right)
    (isBelow : ∀ left right, below left right = false → key right ≤ key left)
    (items : List Item) (first : Item) :
    let best := items.foldl (fun best other =>
      if below best other then other else best) first
    best ∈ first :: items ∧ ∀ item ∈ first :: items, key item ≤ key best := by
  induction items generalizing first with
  | nil =>
      refine ⟨List.mem_cons_self, fun item member => ?_⟩
      rw [List.mem_singleton.mp member]
      exact Int.le_refl _
  | cons head tail inductionHypothesis =>
      rw [List.foldl_cons]
      by_cases above : below first head = true
      · rw [if_pos above]
        obtain ⟨member, greatest⟩ := inductionHypothesis head
        refine ⟨List.mem_cons_of_mem _ member, fun item isItem => ?_⟩
        rcases List.mem_cons.mp isItem with rfl | later
        · have reached := greatest head List.mem_cons_self
          have passed := isAbove _ _ above
          omega
        · exact greatest item later
      · rw [if_neg above]
        obtain ⟨member, greatest⟩ := inductionHypothesis first
        refine ⟨?_, fun item isItem => ?_⟩
        · rcases List.mem_cons.mp member with isFirst | later
          · rw [isFirst]
            exact List.mem_cons_self
          · exact List.mem_cons_of_mem _ (List.mem_cons_of_mem _ later)
        · rcases List.mem_cons.mp isItem with rfl | isRest
          · exact greatest _ List.mem_cons_self
          · rcases List.mem_cons.mp isRest with rfl | later
            · have reached := greatest first List.mem_cons_self
              have passed := isBelow _ _ (Bool.eq_false_iff.mpr above)
              omega
            · exact greatest item (List.mem_cons_of_mem _ later)

/-- In an order that a number decides up to ties, it is in the list and no item's
number is greater. -/
theorem greatest?_eq_some_of
    (key : Item → Int)
    (isAbove : ∀ left right, below left right = true → key left ≤ key right)
    (isBelow : ∀ left right, below left right = false → key right ≤ key left)
    {items : List Item} {best : Item}
    (found : greatest? below items = some best) :
    best ∈ items ∧ ∀ item ∈ items, key item ≤ key best := by
  cases items with
  | nil => cases found
  | cons first rest =>
      cases found
      exact foldl_greatest isAbove isBelow rest first

theorem greatest?_eq_some
    {items : List Item} {best : Item}
    (found : greatest? (fun left right => decide (key left < key right)) items =
      some best) :
    best ∈ items ∧ ∀ item ∈ items, key item ≤ key best :=
  greatest?_eq_some_of key
    (fun _ _ above => Int.le_of_lt (of_decide_eq_true above))
    (fun _ _ above => Int.not_lt.mp (of_decide_eq_false above)) found

theorem greatest?_isSome
    (below : Item → Item → Bool) {items : List Item} {item : Item} (member : item ∈ items) :
    ∃ best, greatest? below items = some best := by
  cases items with
  | nil => cases member
  | cons first rest => exact ⟨_, rfl⟩

/-- One more item is the greatest if the greatest so far is below it. -/
theorem greatest?_append_singleton
    (below : Item → Item → Bool) (items : List Item) (item : Item) :
    greatest? below (items ++ [item]) =
      match greatest? below items with
      | some best => if below best item then some item else some best
      | none => some item := by
  cases items with
  | nil => rfl
  | cons first rest =>
      rw [List.cons_append, greatest?, greatest?, List.foldl_append]
      exact apply_ite some _ _ _

/-- Where the numbers are distinct the order of the items does not matter. -/
theorem greatest?_perm
    (key : Item → Int)
    (isAbove : ∀ left right, below left right = true → key left ≤ key right)
    (isBelow : ∀ left right, below left right = false → key right ≤ key left)
    {items others : List Item} (perm : items.Perm others)
    (distinct : ∀ left ∈ items, ∀ right ∈ items, key left = key right → left = right) :
    greatest? below items = greatest? below others := by
  cases found : greatest? below items with
  | none =>
      cases items with
      | nil =>
          rw [← perm.nil_eq]
          rfl
      | cons first rest => cases found
  | some best =>
      obtain ⟨member, greatest⟩ := greatest?_eq_some_of key isAbove isBelow found
      obtain ⟨other, otherFound⟩ := greatest?_isSome below (perm.mem_iff.mp member)
      obtain ⟨otherMember, otherGreatest⟩ :=
        greatest?_eq_some_of key isAbove isBelow otherFound
      have isItem := perm.mem_iff.mpr otherMember
      have upper := greatest other isItem
      have lower := otherGreatest best (perm.mem_iff.mp member)
      rw [otherFound, distinct best member other isItem (by omega)]

end

end ParishKit.Lib
