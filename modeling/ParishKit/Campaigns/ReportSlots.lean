import ParishKit.Campaigns.ReportCandidates

/-!
# Report slots

What a page examines, and the slots that the database and exhaustive paging give.
-/

namespace ParishKit.Campaigns

open ParishKit.Lib

/-! ## Pages -/

/-- What the loop of a page has done from the candidates after `base`, up to the
last one it has examined. -/
structure Examined (plan : ReportPlan) (resolve : Int → Int) (through : Int)
    (left : Nat) (base : Int) (slots : List ScheduleSlot) (cursor : Option Int)
    (page : SchedulePage) (reached : Int) : Prop where
  base_le : base ≤ reached
  dues : ∀ send, base < send → send ≤ reached → plan.candidate send = true →
    plan.due resolve send ≤ through ∧
      ∃ isSend, plan.sends resolve send (plan.due resolve send) = some isSend
  slots : ∀ slot, slot ∈ page.slots ↔ slot ∈ slots ∨
    ∃ send, base < send ∧ send ≤ reached ∧ plan.candidate send = true ∧
      plan.sends resolve send (plan.due resolve send) = some true ∧
      slot = plan.slot send (plan.due resolve send)
  cursor : reached = base ∧ page.cursor = cursor ∨
    base < reached ∧ reached ≤ dateMax ∧ plan.candidate reached = true ∧
      page.cursor = some (reached - plan.offset)
  exhausted : page.exhausted = true → ∀ send, plan.next reached = some send →
    through < plan.due resolve send
  goesOn : page.exhausted = false → ∃ send, plan.next reached = some send
  near : reached = base ∨ ∃ first, plan.next base = some first ∧
    reached + 7 ≤ first + 7 * left

section

variable {values : ReportValues} {start stop : Int} {plan : ReportPlan}
  {resolve : Int → Int} {through : Int}

/-- After a candidate the next one is at most a week away. -/
theorem next_le {send next : Int} (isCandidate : plan.candidate send = true)
    (isNext : plan.next send = some next) : next ≤ send + 7 := by
  unfold ReportPlan.next at isNext
  cases isRule : plan.rule with
  | once date =>
      rw [isRule] at isNext
      have isDate := (candidate_once isRule send).mp isCandidate
      dsimp only at isNext
      rw [if_neg (by omega)] at isNext
      cases isNext
  | repeats frequency first last =>
      rw [isRule] at isNext
      have started := ((candidate_repeats isRule send).mp isCandidate).1
      dsimp only at isNext
      rw [if_neg (by omega)] at isNext
      have found := search_eq_some isNext
      omega

theorem pageLoop_examined (accepted : scheduleFields values = true)
    (isPlan : ReportPlan.fromValues values start stop = some plan) {left : Nat}
    {base : Int} {slots : List ScheduleSlot} {cursor : Option Int}
    {page : SchedulePage}
    (isPage : plan.pageLoop resolve through left (plan.next base) slots cursor =
      some page) :
    ∃ reached, Examined plan resolve through left base slots cursor page
      reached := by
  induction left generalizing base slots cursor with
  | zero =>
      cases isPage
      refine ⟨base, Int.le_refl base, fun _ _ _ => by omega, fun slot => ?_,
        Or.inl ⟨rfl, rfl⟩, fun isDone => ?_, fun isOpen => ?_, Or.inl rfl⟩
      · constructor
        · exact Or.inl
        · rintro (member | ⟨send, _, _, _⟩)
          · exact member
          · omega
      · intro send isNext
        rw [isNext] at isDone
        cases isDone
      · cases isNext : plan.next base with
        | none =>
            rw [isNext] at isOpen
            cases isOpen
        | some send => exact ⟨send, rfl⟩
  | succ left inductionHypothesis =>
      have nothing (isDone : ∀ send, plan.next base = some send →
          through < plan.due resolve send) :
          Examined plan resolve through (left + 1) base slots cursor
            ⟨slots, cursor, true⟩ base := by
        refine ⟨Int.le_refl base, fun _ _ _ => by omega, fun slot => ?_,
          Or.inl ⟨rfl, rfl⟩, fun _ => isDone, nofun, Or.inl rfl⟩
        constructor
        · exact Or.inl
        · rintro (member | ⟨send, _, _, _⟩)
          · exact member
          · omega
      have isFirst := next_firstAfter accepted isPlan base
      cases isNext : plan.next base with
      | none =>
          rw [isNext, ReportPlan.pageLoop] at isPage
          cases isPage
          refine ⟨base, nothing fun send isSome => ?_⟩
          rw [isNext] at isSome
          cases isSome
      | some send =>
          rw [isNext] at isFirst isPage
          obtain ⟨later, ⟨isCandidate, isDate⟩, least⟩ := isFirst
          rw [ReportPlan.pageLoop] at isPage
          by_cases tooLate : through < plan.due resolve send
          · rw [if_pos tooLate] at isPage
            cases isPage
            refine ⟨base, nothing fun other isOther => ?_⟩
            rw [isNext] at isOther
            cases isOther
            exact tooLate
          · rw [if_neg tooLate] at isPage
            obtain ⟨isSend, sends, isPage⟩ := Option.bind_eq_some_iff.mp isPage
            obtain ⟨reached, examined⟩ := inductionHypothesis isPage
            have onlySend (other : Int) (after : base < other) (le : other ≤ send)
                (holds : plan.candidate other = true) : other = send := by
              by_contra different
              exact least other after (by omega) ⟨holds, by omega⟩
            have reachedLe := examined.base_le
            refine ⟨reached, by omega, fun other after le holds => ?_,
              fun slot => ?_, Or.inr ?_, examined.exhausted, examined.goesOn,
              Or.inr ⟨send, isNext, ?_⟩⟩
            · by_cases here : other ≤ send
              · rw [onlySend other after here holds]
                exact ⟨by omega, isSend, sends⟩
              · exact examined.dues other (by omega) le holds
            · rw [examined.slots slot]
              constructor
              · rintro (member | ⟨other, after, le, holds, sendsOther, isSlot⟩)
                · cases isSend with
                  | false => exact Or.inl member
                  | true =>
                      rcases List.mem_append.mp member with old | new
                      · exact Or.inl old
                      · exact Or.inr ⟨send, later, reachedLe, isCandidate, sends,
                          List.mem_singleton.mp new⟩
                · exact Or.inr ⟨other, by omega, le, holds, sendsOther, isSlot⟩
              · rintro (member | ⟨other, after, le, holds, sendsOther, isSlot⟩)
                · left
                  cases isSend with
                  | false => exact member
                  | true => exact List.mem_append_left _ member
                · by_cases here : other ≤ send
                  · left
                    have same := onlySend other after here holds
                    rw [same] at sendsOther isSlot
                    rw [sends] at sendsOther
                    cases sendsOther
                    rw [if_pos rfl]
                    exact List.mem_append_right _ (List.mem_singleton.mpr isSlot)
                  · exact Or.inr ⟨other, by omega, le, holds, sendsOther, isSlot⟩
            · rcases examined.cursor with ⟨same, isCursor⟩ |
                ⟨further, reachedDate, reachedCandidate, isCursor⟩
              · rw [same]
                exact ⟨later, isDate, isCandidate, isCursor⟩
              · exact ⟨by omega, reachedDate, reachedCandidate, isCursor⟩
            · rcases examined.near with same | ⟨next, isAfter, near⟩
              · omega
              · have close := next_le isCandidate isAfter
                omega

theorem page_examined (accepted : scheduleFields values = true)
    (isPlan : ReportPlan.fromValues values start stop = some plan)
    {after : Option Int} {limit : Nat} {page : SchedulePage}
    (isPage : plan.page resolve through after limit = some page) :
    ∃ reached, Examined plan resolve through limit (plan.start after) [] after page
      reached :=
  pageLoop_examined accepted isPlan isPage

end

/-! ## Exhaustive paging -/

/-- The cursors of exhaustive paging: each page starts from the one before, until
one is exhausted. -/
inductive Paged (plan : ReportPlan) (resolve : Int → Int) (through : Int)
    (limit : Nat) : Option Int → Prop where
  | start : Paged plan resolve through limit none
  | more {cursor : Option Int} {page : SchedulePage}
      (paged : Paged plan resolve through limit cursor)
      (isPage : plan.page resolve through cursor limit = some page)
      (isOpen : page.exhausted = false) :
      Paged plan resolve through limit page.cursor

/-- One of the pages has the slot. -/
def Produces (plan : ReportPlan) (resolve : Int → Int) (through : Int)
    (limit : Nat) (slot : ScheduleSlot) : Prop :=
  ∃ cursor page, Paged plan resolve through limit cursor ∧
    plan.page resolve through cursor limit = some page ∧ slot ∈ page.slots

/-! ## Slots of the database -/

section

variable {values : ReportValues} {start stop : Int} {plan : ReportPlan}
  {resolve : Int → Int} {through : Int}

theorem scheduleFields_skipDates (accepted : scheduleFields values = true) :
    ∀ day ∈ values.skipDates, dateMin ≤ day ∧ day < dateMax := by
  intro day member
  unfold scheduleFields at accepted
  simp only [Bool.and_eq_true, List.all_eq_true, decide_eq_true_eq] at accepted
  exact accepted.1.1.1.2 day member

theorem offset_cases (isPlan : ReportPlan.fromValues values start stop = some plan) :
    plan.offset = 0 ∨ plan.offset = 1 := by
  rw [(fromValues_eq_some isPlan).2.1]
  cases values.slotBasis with
  | sendDate => exact Or.inl rfl
  | reportDate => exact Or.inr rfl

theorem isoDate_civil_injective {first second : Int}
    (firstLower : dateMin ≤ first) (firstUpper : first ≤ dateMax)
    (secondLower : dateMin ≤ second) (secondUpper : second ≤ dateMax)
    (same : isoDate (civil first) = isoDate (civil second)) : first = second := by
  have firstYear := year_of_range firstLower firstUpper
  have secondYear := year_of_range secondLower secondUpper
  have dates := isoDate_injective
    ((civil_valid first).short (by omega) (by omega))
    ((civil_valid second).short (by omega) (by omega)) same
  have ordinals := congrArg CivilDate.ordinal dates
  rwa [ordinal_civil, ordinal_civil] at ordinals

/-- The candidate sends that the database gives a due instant, by the text of
their slot. -/
theorem slotDue_eq_some (accepted : scheduleFields values = true)
    (isPlan : ReportPlan.fromValues values start stop = some plan)
    {text : Text} {due : Int} :
    slotDue resolve values start stop text = some due ↔
      ∃ send, plan.candidate send = true ∧ dateMin ≤ send - plan.offset ∧
        send - plan.offset ≤ dateMax ∧
        text = isoDate (civil (send - plan.offset)) ∧
        send - plan.offset ∉ plan.skipped ∧
        ¬ (plan.daily = true ∧ resolve (wall (send - plan.offset) 0) =
          resolve (wall (send - plan.offset + 1) 0)) ∧
        paused plan.pauses due = false ∧ due = plan.due resolve send := by
  obtain ⟨isTime, isOffset, isSkipped, isPauses, isRule⟩ :=
    fromValues_eq_some isPlan
  have isDaily : values.everyDay = plan.daily := by
    unfold ReportValues.everyDay ReportPlan.daily
    cases rule : values.rule with
    | once date =>
        rw [rule] at isRule
        rw [isRule]
    | repeats frequency fromBound untilBound =>
        rw [rule] at isRule
        obtain ⟨bounds, _, isRepeat⟩ := isRule
        rw [isRepeat]
        cases frequency <;> rfl
  have isCandidate (send : Int) :
      nextSend values start stop (some (send - 1)) = some send ↔
        plan.candidate send = true := by
    have isFirst := nextSend_firstAfter accepted isPlan (send - 1)
    constructor
    · intro isNext
      rw [isNext] at isFirst
      exact isFirst.2.1
    · intro holds
      refine FirstAfter.unique isFirst ⟨by omega, holds, fun day later earlier => ?_⟩
      omega
  unfold slotDue
  cases read : dateParts text with
  | none =>
      refine ⟨nofun, ?_⟩
      rintro ⟨send, _, lower, upper, isText, _⟩
      have years := year_of_range lower upper
      rw [isText, dateParts_isoDate ((civil_valid _).short (by omega) (by omega))]
        at read
      cases read
  | some date =>
      obtain ⟨isText, short⟩ := isoDate_of_dateParts read
      dsimp only
      by_cases isDate : date.year < 1 ∨ ¬ date.Valid
      · rw [if_pos isDate]
        refine ⟨nofun, ?_⟩
        rintro ⟨send, _, lower, upper, isSlot, _⟩
        have years := year_of_range lower upper
        have valid := civil_valid (send - plan.offset)
        rw [isText] at isSlot
        have same := isoDate_injective short (valid.short (by omega) (by omega))
          isSlot
        rw [same] at isDate
        rcases isDate with early | invalid
        · omega
        · exact absurd valid invalid
      · rw [if_neg isDate]
        have valid : date.Valid := by
          by_contra invalid
          exact isDate (Or.inr invalid)
        have early : 1 ≤ date.year := by
          by_contra before
          exact isDate (Or.inl (by omega))
        have lower : dateMin ≤ date.ordinal := by
          have bounds := valid.ordinal_bounds.1
          have years := daysBeforeYear_mono early
          have isZero : daysBeforeYear 1 = 0 := rfl
          unfold dateMin
          omega
        have yearLt := short.year_lt
        have upper := ordinal_le_dateMax valid (by omega)
        have isCivil := civil_ordinal valid
        have skips : (values.skipDates.any fun skipped =>
            isoDate (civil skipped) == text) = true ↔
            date.ordinal ∈ plan.skipped := by
          rw [List.any_eq_true, isSkipped]
          constructor
          · rintro ⟨skipped, member, same⟩
            obtain ⟨skipLower, skipUpper⟩ :=
              scheduleFields_skipDates accepted skipped member
            rw [beq_iff_eq, isText, ← isCivil] at same
            have isSame := isoDate_civil_injective skipLower (by omega) lower upper
              same
            rw [← isSame]
            exact member
          · intro member
            refine ⟨date.ordinal, member, ?_⟩
            rw [beq_iff_eq, isCivil, isText]
        rw [isDaily, ← isOffset, ← isTime, ← isPauses]
        constructor
        · intro isDue
          by_cases isSkip : (values.skipDates.any fun skipped =>
              isoDate (civil skipped) == text) = true
          · rw [if_pos isSkip] at isDue
            cases isDue
          · rw [if_neg isSkip] at isDue
            by_cases other : nextSend values start stop
                (some (date.ordinal + plan.offset - 1)) ≠
                some (date.ordinal + plan.offset)
            · rw [if_pos other] at isDue
              cases isDue
            · rw [if_neg other] at isDue
              by_cases missing : plan.daily = true ∧
                  resolve (wall date.ordinal 0) =
                    resolve (wall (date.ordinal + 1) 0)
              · rw [if_pos missing] at isDue
                cases isDue
              · rw [if_neg missing] at isDue
                by_cases isPaused : paused plan.pauses
                    (resolve (wall (date.ordinal + plan.offset) plan.time)) = true
                · rw [if_pos isPaused] at isDue
                  cases isDue
                · rw [if_neg isPaused] at isDue
                  cases isDue
                  have back : date.ordinal + plan.offset - plan.offset =
                      date.ordinal := by omega
                  refine ⟨date.ordinal + plan.offset,
                    (isCandidate _).mp (not_ne_iff.mp other), ?_⟩
                  rw [back, isCivil]
                  exact ⟨lower, upper, isText, fun member =>
                    isSkip (skips.mpr member), missing,
                    Bool.eq_false_iff.mpr isPaused, rfl⟩
        · rintro ⟨send, holds, sendLower, sendUpper, isSlot, notSkipped, notMissing,
            notPaused, isDue⟩
          have isDay : date.ordinal = send - plan.offset := by
            refine isoDate_civil_injective lower upper sendLower sendUpper ?_
            rw [isCivil, ← isText, isSlot]
          have isSend : date.ordinal + plan.offset = send := by omega
          rw [if_neg fun isSkip => notSkipped (isDay ▸ skips.mp isSkip), isSend,
            if_neg (not_ne_iff.mpr ((isCandidate send).mpr holds)), isDay,
            if_neg notMissing]
          unfold ReportPlan.due at isDue
          rw [← isDue, notPaused]
          rfl

/-- What a page has, the database gives too. -/
theorem slotDue_of_sends (accepted : scheduleFields values = true)
    (isPlan : ReportPlan.fromValues values start stop = some plan) {send : Int}
    (holds : plan.candidate send = true) (lower : dateMin ≤ send - plan.offset)
    (upper : send - plan.offset ≤ dateMax)
    (sends : plan.sends resolve send (plan.due resolve send) = some true) :
    slotDue resolve values start stop (isoDate (civil (send - plan.offset))) =
      some (plan.due resolve send) := by
  refine (slotDue_eq_some accepted isPlan).mpr
    ⟨send, holds, lower, upper, rfl, ?_⟩
  unfold ReportPlan.sends at sends
  dsimp only at sends
  by_cases isOut : (plan.skipped.contains (send - plan.offset) ||
      paused plan.pauses (plan.due resolve send)) = true
  · rw [if_pos isOut] at sends
    cases sends
  · rw [if_neg isOut] at sends
    rw [Bool.or_eq_true, not_or, Bool.not_eq_true, Bool.not_eq_true] at isOut
    refine ⟨fun member => ?_, ?_, isOut.2, rfl⟩
    · rw [List.contains_iff_mem.mpr member] at isOut
      cases isOut.1
    · rintro ⟨isDaily, same⟩
      rw [if_pos isDaily] at sends
      split at sends
      · cases sends
      · rw [same] at sends
        simp at sends

theorem sends_of_slotDue (accepted : scheduleFields values = true)
    (isPlan : ReportPlan.fromValues values start stop = some plan)
    (send : Int) (inside : send - plan.offset < dateMax)
    (ordered : resolve (wall (send - plan.offset) 0) ≤
      resolve (wall (send - plan.offset + 1) 0)) :
    ∃ isSend, plan.sends resolve send (plan.due resolve send) = some isSend ∧
      ∀ text due, slotDue resolve values start stop text = some due →
        text = isoDate (civil (send - plan.offset)) →
        dateMin ≤ send - plan.offset →
        isSend = true ∧ due = plan.due resolve send := by
  unfold ReportPlan.sends
  dsimp only
  have isSame {text : Text} {due : Int}
      (isDue : slotDue resolve values start stop text = some due)
      (isText : text = isoDate (civil (send - plan.offset)))
      (lower : dateMin ≤ send - plan.offset) :
      send - plan.offset ∉ plan.skipped ∧
        ¬ (plan.daily = true ∧ resolve (wall (send - plan.offset) 0) =
          resolve (wall (send - plan.offset + 1) 0)) ∧
        paused plan.pauses due = false ∧ due = plan.due resolve send := by
    obtain ⟨other, _, otherLower, otherUpper, isOther, rest⟩ :=
      (slotDue_eq_some accepted isPlan).mp isDue
    rw [isText] at isOther
    have same := isoDate_civil_injective lower (by omega) otherLower otherUpper
      isOther
    have sameSend : other = send := by omega
    rw [sameSend] at rest
    exact rest
  by_cases isOut : (plan.skipped.contains (send - plan.offset) ||
      paused plan.pauses (plan.due resolve send)) = true
  · rw [if_pos isOut]
    refine ⟨false, rfl, fun text due isDue isText lower => ?_⟩
    obtain ⟨notSkipped, _, notPaused, same⟩ := isSame isDue isText lower
    rw [same] at notPaused
    rw [notPaused, Bool.or_false, List.contains_iff_mem] at isOut
    exact absurd isOut notSkipped
  · rw [if_neg isOut]
    by_cases isDaily : plan.daily = true
    · rw [if_pos isDaily, if_neg (by omega)]
      refine ⟨_, rfl, fun text due isDue isText lower => ?_⟩
      obtain ⟨_, notMissing, _, same⟩ := isSame isDue isText lower
      have notEqual : resolve (wall (send - plan.offset) 0) ≠
          resolve (wall (send - plan.offset + 1) 0) :=
        fun equal => notMissing ⟨isDaily, equal⟩
      exact ⟨decide_eq_true (by omega), same⟩
    · rw [if_neg isDaily]
      refine ⟨true, rfl, fun text due isDue isText lower => ⟨rfl, ?_⟩⟩
      exact (isSame isDue isText lower).2.2.2

/-! ## Paging one candidate at a time -/

theorem start_offset (day : Int) :
    plan.start (some (day - plan.offset)) = day :=
  Int.sub_add_cancel day plan.offset

theorem page_one {after : Option Int} {send : Int} {isSend : Bool}
    (isNext : plan.next (plan.start after) = some send)
    (due : plan.due resolve send ≤ through)
    (sends : plan.sends resolve send (plan.due resolve send) = some isSend) :
    plan.page resolve through after 1 = some
      ⟨if isSend then [plan.slot send (plan.due resolve send)] else [],
        some (send - plan.offset), (plan.next send).isNone⟩ := by
  unfold ReportPlan.page
  rw [isNext, ReportPlan.pageLoop, if_neg (by omega), sends]
  rfl

/-- Paging reaches every candidate that no earlier one holds up. -/
theorem paged_reaches (accepted : scheduleFields values = true)
    (isPlan : ReportPlan.fromValues values start stop = some plan) {target : Int}
    (holds : plan.candidate target = true) (isDate : target ≤ dateMax)
    (goesOn : ∀ send, dateMin < send → send < target →
      plan.candidate send = true → plan.due resolve send ≤ through ∧
        ∃ isSend, plan.sends resolve send (plan.due resolve send) = some isSend)
    {cursor : Option Int} (paged : Paged plan resolve through 1 cursor)
    (lower : dateMin ≤ plan.start cursor) (upper : plan.start cursor < target) :
    ∃ reached, Paged plan resolve through 1 reached ∧
      plan.next (plan.start reached) = some target := by
  obtain ⟨distance, isDistance⟩ : ∃ distance : Nat,
      distance = (target - plan.start cursor).toNat := ⟨_, rfl⟩
  induction distance using Nat.strong_induction_on generalizing cursor with
  | _ distance inductionHypothesis =>
      have isFirst := next_firstAfter accepted isPlan (plan.start cursor)
      cases isNext : plan.next (plan.start cursor) with
      | none =>
          rw [isNext] at isFirst
          exact absurd ⟨holds, isDate⟩ (isFirst target upper)
      | some send =>
          rw [isNext] at isFirst
          obtain ⟨later, ⟨isCandidate, sendDate⟩, least⟩ := isFirst
          have le : send ≤ target := by
            by_contra after
            exact least target upper (by omega) ⟨holds, isDate⟩
          by_cases here : send = target
          · exact ⟨cursor, paged, by rw [isNext, here]⟩
          · obtain ⟨due, isSend, sends⟩ :=
              goesOn send (by omega) (by omega) isCandidate
            have isPage := page_one isNext due sends
            have isAfter := next_firstAfter accepted isPlan send
            have isOpen : (plan.next send).isNone = false := by
              cases isNone : plan.next send with
              | none =>
                  rw [isNone] at isAfter
                  exact absurd ⟨holds, isDate⟩ (isAfter target (by omega))
              | some other => rfl
            refine inductionHypothesis (target - send).toNat (by omega)
              (Paged.more paged isPage isOpen) ?_ ?_ ?_
            · rw [start_offset]
              omega
            · rw [start_offset]
              omega
            · rw [start_offset]

theorem bounded_on (value : Int → Int) (start : Int) (count : Nat) :
    ∃ bound, ∀ number, start < number → number ≤ start + count →
      value number ≤ bound := by
  induction count with
  | zero => exact ⟨0, fun number above below => by omega⟩
  | succ count inductionHypothesis =>
      obtain ⟨bound, isBound⟩ := inductionHypothesis
      refine ⟨max bound (value (start + count + 1)), fun number above below => ?_⟩
      by_cases isLast : number = start + count + 1
      · rw [isLast]
        exact le_max_right _ _
      · have le := isBound number above (by omega)
        exact le_trans le (le_max_left _ _)

/-- Every page's slots are candidates, due by its cutoff. -/
theorem produces_spec (accepted : scheduleFields values = true)
    (isPlan : ReportPlan.fromValues values start stop = some plan) {limit : Nat}
    {slot : ScheduleSlot} (produced : Produces plan resolve through limit slot) :
    ∃ send, dateMin < send ∧ send ≤ dateMax ∧ plan.candidate send = true ∧
      plan.due resolve send ≤ through ∧
      plan.sends resolve send (plan.due resolve send) = some true ∧
      slot = plan.slot send (plan.due resolve send) := by
  obtain ⟨cursor, page, paged, isPage, member⟩ := produced
  have started : dateMin ≤ plan.start cursor := by
    clear isPage member
    induction paged with
    | start => exact Int.le_refl dateMin
    | @more before other paged isOther isOpen inductionHypothesis =>
        obtain ⟨reached, examined⟩ := page_examined accepted isPlan isOther
        have le := examined.base_le
        rcases examined.cursor with ⟨_, isCursor⟩ | ⟨_, _, _, isCursor⟩
        · rw [isCursor]
          exact inductionHypothesis
        · rw [isCursor, start_offset]
          omega
  obtain ⟨reached, examined⟩ := page_examined accepted isPlan isPage
  rcases (examined.slots slot).mp member with old | ⟨send, later, le, holds, sends,
    isSlot⟩
  · cases old
  · have isDate : reached ≤ dateMax := by
      rcases examined.cursor with ⟨same, _⟩ | ⟨_, isDate, _⟩
      · omega
      · exact isDate
    exact ⟨send, by omega, by omega, holds, (examined.dues send later le holds).1,
      sends, isSlot⟩

end

/-! ## Agreement -/

/-- At least eight days inside the dates there are. -/
def Inside (day : Int) : Prop :=
  dateMin + 8 ≤ day ∧ day ≤ dateMax - 8

instance (day : Int) : Decidable (Inside day) :=
  inferInstanceAs (Decidable (_ ∧ _))

/-- The dates that a rule names. -/
def ReportRule.DatesInside : ReportRule → Prop
  | .once date => Inside date
  | .repeats _ start stop =>
      (∀ day, start = .date day → Inside day) ∧
        ∀ day, stop = .date day → Inside day

theorem fromValues_exists {values : ReportValues} {start stop : Int}
    (accepted : scheduleFields values = true) (startInside : Inside start)
    (stopInside : Inside stop) :
    ∃ plan, ReportPlan.fromValues values start stop = some plan := by
  have added {day days : Int} (inside : Inside day) (few : days ≤ 7) :
      addDays day days = some (day + days) := by
    unfold addDays
    rw [if_pos]
    unfold Inside at inside
    omega
  have allowed := scheduleFields_rule accepted
  unfold ReportPlan.fromValues
  have isRule : ∃ rule, planRule values.rule start stop = some rule := by
    cases rule : values.rule with
    | once date => exact ⟨_, rfl⟩
    | repeats frequency fromBound untilBound =>
        unfold planRule repeatBounds
        rw [added startInside (by decide)]
        cases untilBound with
        | campaignEnd => exact ⟨_, rfl⟩
        | archive => exact ⟨_, rfl⟩
        | date day => exact ⟨_, rfl⟩
        | dayAfterCampaignEnd =>
            rw [added stopInside (by decide)]
            exact ⟨_, rfl⟩
        | firstSendAfterCampaignEnd =>
            cases frequency with
            | daily =>
                rw [added stopInside (by decide)]
                exact ⟨_, rfl⟩
            | weekly weekdays =>
                rw [rule] at allowed
                have weekly := allowed_frequency allowed
                have bounds := Frequency.weekdays_bounds weekly
                cases least : (weekdays.map (weekdayDistance stop)).min? with
                | none =>
                    unfold Frequency.allowed at weekly
                    rw [List.min?_eq_none_iff, List.map_eq_nil_iff] at least
                    rw [least] at weekly
                    cases weekly
                | some distance =>
                    obtain ⟨isMember, _⟩ := List.min?_eq_some_iff.mp least
                    obtain ⟨chosen, member, isDistance⟩ := List.mem_map.mp isMember
                    obtain ⟨lower, upper⟩ := bounds chosen member
                    have few := (weekdayDistance_iff lower upper).mp isDistance
                    dsimp only
                    rw [least]
                    have last := added stopInside (by omega : distance ≤ 7)
                    simp only [Option.bind_eq_bind, Option.bind_some, last]
                    exact ⟨_, rfl⟩
  obtain ⟨rule, isRule⟩ := isRule
  rw [isRule]
  exact ⟨_, rfl⟩

/-- The first bound leaves room for a week after it. -/
theorem databaseBounds_first {frequency : Frequency} {fromBound : FromBound}
    {untilBound : UntilBound} {start : Int} (stop : Int)
    (startInside : Inside start)
    (datesInside : ∀ day, fromBound = .date day → Inside day) :
    (databaseBounds frequency fromBound untilBound start stop).1 ≤
      dateMax - 7 := by
  unfold databaseBounds
  unfold Inside at startInside
  cases fromBound with
  | campaignStart =>
      dsimp only
      omega
  | dayAfterCampaignStart =>
      dsimp only
      omega
  | date day =>
      have inside := datesInside day rfl
      unfold Inside at inside
      dsimp only
      omega

theorem nextSend_repeats {values : ReportValues} {start stop day : Int}
    {frequency : Frequency} {fromBound : FromBound} {untilBound : UntilBound}
    (rule : values.rule = .repeats frequency fromBound untilBound) :
    nextSend values start stop (some day) =
      search (fun day =>
          (databaseBounds frequency fromBound untilBound start stop).2.any
            fun last => decide (last < day))
        frequency.sends 7
        ((if day < (databaseBounds frequency fromBound untilBound start stop).1 then
          (databaseBounds frequency fromBound untilBound start stop).1 - 1
        else day) + 1) := by
  unfold nextSend
  rw [rule]
  rfl

/-- A send that the database finds is at most seven days away. -/
theorem nextSend_isDate {values : ReportValues} {start stop day send : Int}
    (datesInside : values.rule.DatesInside) (startInside : Inside start)
    (dayInside : Inside day)
    (isNext : nextSend values start stop (some day) = some send) :
    send ≤ dateMax := by
  cases rule : values.rule with
  | once date =>
      unfold nextSend at isNext
      rw [rule] at isNext datesInside
      dsimp only at isNext
      split at isNext
      · cases isNext
        unfold ReportRule.DatesInside Inside at datesInside
        omega
      · cases isNext
  | repeats frequency fromBound untilBound =>
      rw [rule] at datesInside
      rw [nextSend_repeats rule] at isNext
      have found := (search_eq_some isNext).2.1
      have first : (databaseBounds frequency fromBound untilBound start stop).1 ≤
          dateMax - 7 := databaseBounds_first stop startInside datesInside.1
      unfold Inside at dayInside
      split at found <;> omega

/-- A send each Monday at 08:00, to the first one after the campaign; the second
one is skipped. -/
def mondayReport : ReportValues where
  rule := .repeats (.weekly [0]) .campaignStart .firstSendAfterCampaignEnd
  time := 28800000000
  slotBasis := .sendDate
  skipDates := [739901]
  pausedRanges := []

/-- The resolver of a zone on UTC. -/
def resolveUTC (wall : Int) : Int :=
  wall

end ParishKit.Campaigns
