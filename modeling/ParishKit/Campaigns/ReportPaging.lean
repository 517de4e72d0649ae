import ParishKit.Campaigns.Intervals
import ParishKit.Campaigns.ReportSlots

/-!
# Paging a report

A sequence of pages with growing cutoffs, each from the cursor of the one before.
Due instants grow with the send date, so a page that stops at a candidate due
after its cutoff has not passed one over.
-/

namespace ParishKit.Campaigns

open ParishKit.Lib

/-- The pages of a sequence of calls, each a cutoff and a limit. -/
def ReportPlan.pages (plan : ReportPlan) (resolve : Int → Int) :
    Option Int → List (Int × Nat) → Option (List SchedulePage)
  | _, [] => some []
  | cursor, (through, limit) :: calls => do
      let page ← plan.page resolve through cursor limit
      let rest ← plan.pages resolve page.cursor calls
      return page :: rest

/-- The slots of a complete paging: its cutoffs never decrease, its limits are
those a page takes, and its last page is exhausted at the last cutoff. -/
def CompletePaging (plan : ReportPlan) (resolve : Int → Int) (through : Int)
    (slots : List ScheduleSlot) : Prop :=
  ∃ calls pages, plan.pages resolve none calls = some pages ∧
    (calls.map (·.1)).Pairwise (· ≤ ·) ∧
    (∀ call ∈ calls, 1 ≤ call.2 ∧ call.2 ≤ 1000) ∧
    (calls.getLast?).map (·.1) = some through ∧
    (pages.getLast?).map (·.exhausted) = some true ∧
    slots = pages.flatMap (·.slots)

/-- A candidate send that is due by a cutoff and neither skipped, paused nor, for
an every-day rule, on a civil day without moments. -/
structure ReportPlan.Sent (plan : ReportPlan) (resolve : Int → Int)
    (through send : Int) : Prop where
  isDate : dateMin ≤ send ∧ send ≤ dateMax
  candidate : plan.candidate send = true
  due : plan.due resolve send ≤ through
  notSkipped : send - plan.offset ∉ plan.skipped
  notPaused : paused plan.pauses (plan.due resolve send) = false
  hasMoments : plan.daily = true →
    resolve (wall (send - plan.offset) 0) <
      resolve (wall (send - plan.offset + 1) 0)

section

variable {values : ReportValues} {start stop : Int} {plan : ReportPlan}
  {resolve : Int → Int}

/-! ## One page -/

/-- The slots of a page are in order of their dates, after those before it. -/
theorem pageLoop_ordered
    (accepted : scheduleFields values = true)
    (isPlan : ReportPlan.fromValues values start stop = some plan)
    {through : Int} {left : Nat} {base : Int} {slots : List ScheduleSlot}
    {cursor : Option Int} {page : SchedulePage}
    (isPage : plan.pageLoop resolve through left (plan.next base) slots cursor =
      some page)
    (ordered : slots.Pairwise fun first second =>
      first.localDate < second.localDate)
    (before : ∀ slot ∈ slots, slot.localDate ≤ base - plan.offset) :
    page.slots.Pairwise fun first second =>
      first.localDate < second.localDate := by
  induction left generalizing base slots cursor with
  | zero =>
      cases isPage
      exact ordered
  | succ left inductionHypothesis =>
      have isFirst := next_firstAfter accepted isPlan base
      cases isNext : plan.next base with
      | none =>
          rw [isNext, ReportPlan.pageLoop] at isPage
          cases isPage
          exact ordered
      | some send =>
          rw [isNext] at isFirst isPage
          have later := isFirst.1
          rw [ReportPlan.pageLoop] at isPage
          by_cases tooLate : through < plan.due resolve send
          · rw [if_pos tooLate] at isPage
            cases isPage
            exact ordered
          · rw [if_neg tooLate] at isPage
            obtain ⟨isSend, _, rest⟩ := Option.bind_eq_some_iff.mp isPage
            refine inductionHypothesis rest ?_ ?_
            · cases isSend with
              | false => exact ordered
              | true =>
                  refine List.pairwise_append.mpr
                    ⟨ordered, List.pairwise_singleton _ _, ?_⟩
                  intro slot member next isSlot
                  rw [List.mem_singleton.mp isSlot]
                  have earlier := before slot member
                  change slot.localDate < send - plan.offset
                  omega
            · intro slot member
              cases isSend with
              | false =>
                  have earlier := before slot member
                  omega
              | true =>
                  rcases List.mem_append.mp member with old | new
                  · have earlier := before slot old
                    omega
                  · rw [List.mem_singleton.mp new]
                    exact Int.le_refl _

/-- Where the next page starts is where the last one stopped. -/
theorem Examined.start_eq
    {through : Int} {left : Nat} {after : Option Int}
    {slots : List ScheduleSlot} {page : SchedulePage} {reached : Int}
    (examined : Examined plan resolve through left (plan.start after) slots after
      page reached) : plan.start page.cursor = reached := by
  rcases examined.cursor with ⟨same, isCursor⟩ | ⟨_, _, _, isCursor⟩
  · rw [isCursor, same]
  · rw [isCursor]
    exact Int.sub_add_cancel reached plan.offset

/-! ## A sequence of pages -/

/-- What a sequence of pages has done from the candidates after `base`. -/
structure Walked (plan : ReportPlan) (resolve : Int → Int) (base : Int)
    (pages : List SchedulePage) (through reached : Int) : Prop where
  base_le : base ≤ reached
  isDate : reached = base ∨ reached ≤ dateMax
  dues : ∀ send, base < send → send ≤ reached → plan.candidate send = true →
    plan.due resolve send ≤ through ∧
      ∃ isSend, plan.sends resolve send (plan.due resolve send) = some isSend
  slots : ∀ slot, slot ∈ pages.flatMap (·.slots) ↔
    ∃ send, base < send ∧ send ≤ reached ∧ plan.candidate send = true ∧
      plan.sends resolve send (plan.due resolve send) = some true ∧
      slot = plan.slot send (plan.due resolve send)
  ordered : (pages.flatMap (·.slots)).Pairwise fun first second =>
    first.localDate < second.localDate
  exhausted : (pages.getLast?).map (·.exhausted) = some true →
    ∀ send, plan.next reached = some send → through < plan.due resolve send

theorem pages_walked
    (accepted : scheduleFields values = true)
    (isPlan : ReportPlan.fromValues values start stop = some plan)
    {after : Option Int} {calls : List (Int × Nat)} {pages : List SchedulePage}
    {through : Int} (ran : plan.pages resolve after calls = some pages)
    (cutoffs : (calls.map (·.1)).Pairwise (· ≤ ·))
    (last : (calls.getLast?).map (·.1) = some through) :
    ∃ reached, Walked plan resolve (plan.start after) pages through reached := by
  induction calls generalizing after pages with
  | nil => cases last
  | cons call calls inductionHypothesis =>
      obtain ⟨page, isPage, rest⟩ := Option.bind_eq_some_iff.mp ran
      obtain ⟨others, ranOthers, assembled⟩ := Option.bind_eq_some_iff.mp rest
      cases assembled
      obtain ⟨middle, examined⟩ := page_examined accepted isPlan isPage
      have ordered := pageLoop_ordered accepted isPlan isPage
        List.Pairwise.nil nofun
      have middleDate : middle = plan.start after ∨ middle ≤ dateMax := by
        rcases examined.cursor with ⟨same, _⟩ | ⟨_, isDate, _⟩
        · exact Or.inl same
        · exact Or.inr isDate
      have isSlot : ∀ slot, slot ∈ page.slots ↔
          ∃ send, plan.start after < send ∧ send ≤ middle ∧
            plan.candidate send = true ∧
            plan.sends resolve send (plan.due resolve send) = some true ∧
            slot = plan.slot send (plan.due resolve send) := by
        intro slot
        rw [examined.slots slot]
        exact or_iff_right List.not_mem_nil
      cases calls with
      | nil =>
          cases ranOthers
          cases last
          refine ⟨middle, examined.base_le, middleDate, examined.dues, ?_, ?_, ?_⟩
          · intro slot
            rw [List.flatMap_cons, List.flatMap_nil, List.append_nil]
            exact isSlot slot
          · rw [List.flatMap_cons, List.flatMap_nil, List.append_nil]
            exact ordered
          · intro isDone
            exact examined.exhausted (Option.some.inj isDone)
      | cons next calls =>
          have grows := List.pairwise_cons.mp cutoffs
          have lastRest : ((next :: calls).getLast?).map (·.1) =
              some through := by
            rw [List.getLast?_cons_cons] at last
            exact last
          obtain ⟨reached, walked⟩ :=
            inductionHypothesis ranOthers grows.2 lastRest
          rw [examined.start_eq] at walked
          have le := walked.base_le
          have below : call.1 ≤ through := by
            obtain ⟨final, isFinal, isThrough⟩ :=
              Option.map_eq_some_iff.mp lastRest
            rw [← isThrough]
            exact grows.1 _ (List.mem_map_of_mem (List.mem_of_getLast? isFinal))
          have nonempty : others ≠ [] := by
            obtain ⟨first, _, restRan⟩ := Option.bind_eq_some_iff.mp ranOthers
            obtain ⟨tail, _, made⟩ := Option.bind_eq_some_iff.mp restRan
            cases made
            exact List.cons_ne_nil _ _
          have baseLe := examined.base_le
          have reachedDate := walked.isDate
          refine ⟨reached, by omega, by omega,
            fun send later isReached holds => ?_, fun slot => ?_, ?_,
            fun isDone => ?_⟩
          · by_cases here : send ≤ middle
            · obtain ⟨isDue, sends⟩ := examined.dues send later here holds
              exact ⟨by omega, sends⟩
            · exact walked.dues send (by omega) isReached holds
          · rw [List.flatMap_cons, List.mem_append, isSlot, walked.slots]
            constructor
            · rintro (⟨send, later, isReached, rest⟩ |
                ⟨send, later, isReached, rest⟩)
              · exact ⟨send, later, by omega, rest⟩
              · exact ⟨send, by omega, isReached, rest⟩
            · rintro ⟨send, later, isReached, rest⟩
              by_cases here : send ≤ middle
              · exact Or.inl ⟨send, later, here, rest⟩
              · exact Or.inr ⟨send, by omega, isReached, rest⟩
          · rw [List.flatMap_cons]
            refine List.pairwise_append.mpr ⟨ordered, walked.ordered, ?_⟩
            intro first isFirst second isSecond
            obtain ⟨send, _, early, _, _, rfl⟩ := (isSlot first).mp isFirst
            obtain ⟨other, late, _, _, _, rfl⟩ :=
              (walked.slots second).mp isSecond
            change send - plan.offset < other - plan.offset
            omega
          · obtain ⟨only, others', rfl⟩ := List.exists_cons_of_ne_nil nonempty
            rw [List.getLast?_cons_cons] at isDone
            exact walked.exhausted isDone

/-- What `_sends` says of a candidate, when it does not raise. -/
theorem sends_iff
    {send due : Int} {isSend : Bool}
    (sends : plan.sends resolve send due = some isSend) :
    isSend = true ↔ send - plan.offset ∉ plan.skipped ∧
      paused plan.pauses due = false ∧
      (plan.daily = true → resolve (wall (send - plan.offset) 0) <
        resolve (wall (send - plan.offset + 1) 0)) := by
  unfold ReportPlan.sends at sends
  dsimp only at sends
  split at sends
  · rename_i excluded
    cases sends
    rw [Bool.or_eq_true, List.contains_iff_mem] at excluded
    refine ⟨nofun, fun ⟨notSkipped, notPaused, _⟩ => ?_⟩
    rcases excluded with skipped | isPaused
    · exact absurd skipped notSkipped
    · rw [notPaused] at isPaused
      cases isPaused
  · rename_i included
    rw [Bool.or_eq_true, List.contains_iff_mem, not_or,
      Bool.not_eq_true] at included
    split at sends
    · rename_i isDaily
      split at sends
      · cases sends
      · cases sends
        rw [decide_eq_true_eq]
        exact ⟨fun moments => ⟨included.1, included.2, fun _ => moments⟩,
          fun ⟨_, _, moments⟩ => moments isDaily⟩
    · rename_i ordinary
      cases sends
      exact ⟨fun _ => ⟨included.1, included.2, fun isDaily =>
        absurd isDaily ordinary⟩, fun _ => rfl⟩

/-- Due instants never decrease with the send date. -/
theorem due_mono
    (zone : Zone) {send later : Int} (le : send ≤ later) :
    plan.due (resolveLocal zone) send ≤ plan.due (resolveLocal zone) later := by
  refine resolveLocal_mono zone ?_
  unfold wall
  omega

/-- The slots of a complete paging are those of the sends after the first
date. -/
theorem completePaging_spec
    (accepted : scheduleFields values = true)
    (isPlan : ReportPlan.fromValues values start stop = some plan) {zone : Zone}
    {through : Int} {slots : List ScheduleSlot}
    (complete : CompletePaging plan (resolveLocal zone) through slots) :
    (slots.Pairwise fun first second => first.localDate < second.localDate) ∧
      ∀ slot, slot ∈ slots ↔ ∃ send, dateMin < send ∧
        plan.Sent (resolveLocal zone) through send ∧
        slot = plan.slot send (plan.due (resolveLocal zone) send) := by
  obtain ⟨calls, pages, ran, cutoffs, _, last, isDone, rfl⟩ := complete
  obtain ⟨reached, walked⟩ := pages_walked accepted isPlan ran cutoffs last
  have notYet := walked.exhausted isDone
  refine ⟨walked.ordered, fun slot => ?_⟩
  rw [walked.slots]
  constructor
  · rintro ⟨send, later, isReached, holds, sends, isSlot⟩
    obtain ⟨notSkipped, notPaused, moments⟩ := (sends_iff sends).mp rfl
    have isDate : send ≤ dateMax := by
      have reachedDate := walked.isDate
      change dateMin < send at later
      change reached = dateMin ∨ reached ≤ dateMax at reachedDate
      omega
    exact ⟨send, later, ⟨⟨Int.le_of_lt later, isDate⟩, holds,
      (walked.dues send later isReached holds).1, notSkipped, notPaused,
      moments⟩, isSlot⟩
  · rintro ⟨send, later, sent, isSlot⟩
    have isReached : send ≤ reached := by
      by_contra beyond
      have isFirst := next_firstAfter accepted isPlan reached
      cases isNext : plan.next reached with
      | none =>
          rw [isNext] at isFirst
          exact isFirst send (Int.not_le.mp beyond)
            ⟨sent.candidate, sent.isDate.2⟩
      | some next =>
          rw [isNext] at isFirst
          have le : next ≤ send := by
            by_contra before
            exact isFirst.2.2 send (Int.not_le.mp beyond) (Int.not_le.mp before)
              ⟨sent.candidate, sent.isDate.2⟩
          have tooLate := notYet next isNext
          have grows : plan.due (resolveLocal zone) next ≤
              plan.due (resolveLocal zone) send := due_mono zone le
          have isDue := sent.due
          omega
    obtain ⟨_, isSend, sends⟩ :=
      walked.dues send later isReached sent.candidate
    have isTrue := (sends_iff sends).mpr
      ⟨sent.notSkipped, sent.notPaused, sent.hasMoments⟩
    rw [isTrue] at sends
    exact ⟨send, later, isReached, sent.candidate, sends, isSlot⟩

/-- Slots in order of their dates are determined by which they are. -/
theorem ordered_unique
    {first second : List ScheduleSlot}
    (firstOrdered : first.Pairwise fun left right =>
      left.localDate < right.localDate)
    (secondOrdered : second.Pairwise fun left right =>
      left.localDate < right.localDate)
    (same : ∀ slot, slot ∈ first ↔ slot ∈ second) : first = second := by
  have distinct : ∀ {slots : List ScheduleSlot},
      (slots.Pairwise fun left right => left.localDate < right.localDate) →
      slots.Nodup := by
    intro slots ordered
    refine ordered.imp ?_
    rintro left right less rfl
    exact Int.lt_irrefl _ less
  have permuted : first.Perm second :=
    (List.perm_ext_iff_of_nodup (distinct firstOrdered)
      (distinct secondOrdered)).mpr same
  refine permuted.eq_of_pairwise ?_ firstOrdered secondOrdered
  intro left right _ _ less more
  omega

/-- A complete paging gives the same slots whatever its limits and the cutoffs
before its last. They are exactly those of the sends due by the last cutoff, in
order, unless one of these is on the first date there is. -/
theorem complete_paging_iff
    (accepted : scheduleFields values = true)
    (isPlan : ReportPlan.fromValues values start stop = some plan) (zone : Zone)
    {through : Int} {slots : List ScheduleSlot}
    (complete : CompletePaging plan (resolveLocal zone) through slots) :
    (∀ others, CompletePaging plan (resolveLocal zone) through others →
        others = slots) ∧
      (((slots.Pairwise fun first second =>
            first.localDate < second.localDate) ∧
          ∀ slot, slot ∈ slots ↔ ∃ send,
            plan.Sent (resolveLocal zone) through send ∧
            slot = plan.slot send (plan.due (resolveLocal zone) send)) ↔
        ¬ plan.Sent (resolveLocal zone) through dateMin) := by
  obtain ⟨ordered, isSlot⟩ := completePaging_spec accepted isPlan complete
  refine ⟨fun others otherComplete => ?_, fun ⟨_, exactly⟩ first => ?_,
    fun notFirst => ⟨ordered, fun slot => ?_⟩⟩
  · obtain ⟨othersOrdered, isOther⟩ :=
      completePaging_spec accepted isPlan otherComplete
    exact ordered_unique othersOrdered ordered fun slot =>
      (isOther slot).trans (isSlot slot).symm
  · obtain ⟨send, later, _, same⟩ := (isSlot _).mp
      ((exactly _).mpr ⟨dateMin, first, rfl⟩)
    have sameDate : dateMin - plan.offset = send - plan.offset :=
      congrArg ScheduleSlot.localDate same
    omega
  · rw [isSlot]
    constructor
    · rintro ⟨send, _, rest⟩
      exact ⟨send, rest⟩
    · rintro ⟨send, sent, isSlot⟩
      refine ⟨send, ?_, sent, isSlot⟩
      rcases Int.lt_or_eq_of_le sent.isDate.1 with later | same
      · exact later
      · exact absurd (same ▸ sent) notFirst

end

/-- The zone whose clock shows the instants. -/
def utc : Zone where
  initial := 0
  changes := []
  ordered := trivial

/-- A send each day at 08:00, while the campaign runs. -/
def dailyReport : ReportValues where
  rule := .repeats .daily .campaignStart .campaignEnd
  time := 28800000000
  slotBasis := .sendDate
  skipDates := []
  pausedRanges := []

/-- A campaign of October 5 and 6, 2026, paged first up to the sixth. -/
theorem october_paging_is_exact :
    (⟨"2026-10-06".toList, 739895, wall 739895 28800000000⟩ : ScheduleSlot) ∈
      [⟨"2026-10-05".toList, 739894, wall 739894 28800000000⟩,
        ⟨"2026-10-06".toList, 739895, wall 739895 28800000000⟩] := by
  have plan : ReportPlan.fromValues dailyReport 739894 739895 = some
      ⟨28800000000, .repeats .daily 739894 (some 739895), 0, [], []⟩ := rfl
  have paging : CompletePaging
      ⟨28800000000, .repeats .daily 739894 (some 739895), 0, [], []⟩
      (resolveLocal utc) (wall 739897 0)
      [⟨"2026-10-05".toList, 739894, wall 739894 28800000000⟩,
        ⟨"2026-10-06".toList, 739895, wall 739895 28800000000⟩] :=
    ⟨[(wall 739895 0, 1), (wall 739897 0, 100)],
      [⟨[⟨"2026-10-05".toList, 739894, wall 739894 28800000000⟩],
          some 739894, false⟩,
        ⟨[⟨"2026-10-06".toList, 739895, wall 739895 28800000000⟩],
          some 739895, true⟩],
      rfl, by decide, by decide, rfl, rfl, rfl⟩
  have exact' := (complete_paging_iff (by decide) plan utc paging).2.mpr
    fun first => absurd first.candidate (by decide)
  exact (exact'.2 _).mpr ⟨739895, ⟨by decide, by decide, by decide, by decide,
    by decide, fun _ => by decide⟩, rfl⟩

/-- A campaign that starts on the first date there is: paging passes over its
first send. -/
theorem first_date_is_passed_over :
    ¬ ∀ (values : ReportValues) (start stop : Int) (plan : ReportPlan)
        (zone : Zone) (through : Int) (slots : List ScheduleSlot),
        scheduleFields values = true →
        ReportPlan.fromValues values start stop = some plan →
        CompletePaging plan (resolveLocal zone) through slots →
        ∀ slot, slot ∈ slots ↔ ∃ send,
          plan.Sent (resolveLocal zone) through send ∧
          slot = plan.slot send (plan.due (resolveLocal zone) send) := by
  intro exactly
  have plan : ReportPlan.fromValues dailyReport dateMin (dateMin + 1) = some
      ⟨28800000000, .repeats .daily dateMin (some (dateMin + 1)), 0, [], []⟩ :=
    rfl
  have paging : CompletePaging
      ⟨28800000000, .repeats .daily dateMin (some (dateMin + 1)), 0, [], []⟩
      (resolveLocal utc) (wall (dateMin + 3) 0)
      [⟨"0001-01-02".toList, dateMin + 1, wall (dateMin + 1) 28800000000⟩] :=
    ⟨[(wall (dateMin + 3) 0, 100)],
      [⟨[⟨"0001-01-02".toList, dateMin + 1, wall (dateMin + 1) 28800000000⟩],
        some (dateMin + 1), true⟩],
      rfl, List.pairwise_singleton _ _, by decide, rfl, rfl, rfl⟩
  have first := (exactly dailyReport dateMin (dateMin + 1) _ utc _ _
    (by decide) plan paging _).mpr
    ⟨dateMin, ⟨by decide, by decide, by decide, by decide, by decide,
      fun _ => by decide⟩, rfl⟩
  have sameDate := congrArg ScheduleSlot.localDate (List.mem_singleton.mp first)
  exact absurd sameDate (by decide)

end ParishKit.Campaigns
