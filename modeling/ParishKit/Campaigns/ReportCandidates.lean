import ParishKit.Campaigns.ReportSchedule

/-!
# Candidate sends

The worker and the database read the same bounds from a report's values and find
the first candidate send after a date, the worker up to the last date there is.
-/

namespace ParishKit.Campaigns

open ParishKit.Lib

/-! ## Bounds -/

/-- The distance to the next chosen weekday is the one of its date. -/
theorem weekdayDistance_iff {stop chosen distance : Int}
    (lower : 0 ≤ chosen) (upper : chosen ≤ 6) :
    weekdayDistance stop chosen = distance ↔
      1 ≤ distance ∧ distance ≤ 7 ∧ weekday (stop + distance) = chosen := by
  unfold weekdayDistance weekday
  split <;> omega

theorem Frequency.weekdays_bounds {weekdays : List Int}
    (allowed : (Frequency.weekly weekdays).allowed = true) :
    ∀ day ∈ weekdays, 0 ≤ day ∧ day ≤ 6 := by
  intro day member
  unfold Frequency.allowed at allowed
  simp only [Bool.and_eq_true, List.all_eq_true, decide_eq_true_eq] at allowed
  exact allowed.1.2 day member

/-- The first chosen weekday after the campaign, by distances and by dates. -/
theorem firstWeekday_eq {weekdays : List Int} {stop distance : Int}
    (bounds : ∀ day ∈ weekdays, 0 ≤ day ∧ day ≤ 6)
    (least : (weekdays.map (weekdayDistance stop)).min? = some distance) :
    (((List.range 7).map fun index : Nat => stop + (index + 1)).filter
      fun day => weekdays.contains (weekday day)).min? = some (stop + distance) := by
  obtain ⟨isMember, isLeast⟩ := List.min?_eq_some_iff.mp least
  obtain ⟨chosen, chosenMember, isDistance⟩ := List.mem_map.mp isMember
  obtain ⟨lower, upper⟩ := bounds chosen chosenMember
  obtain ⟨distancePos, distanceLe, isWeekday⟩ :=
    (weekdayDistance_iff lower upper).mp isDistance
  refine List.min?_eq_some_iff.mpr ⟨?_, fun day member => ?_⟩
  · refine List.mem_filter.mpr ⟨List.mem_map.mpr
      ⟨(distance - 1).toNat, List.mem_range.mpr (by omega), by omega⟩, ?_⟩
    rw [isWeekday]
    exact List.contains_iff_mem.mpr chosenMember
  · obtain ⟨inRange, isChosen⟩ := List.mem_filter.mp member
    obtain ⟨index, indexMember, isDay⟩ := List.mem_map.mp inRange
    have indexLt := List.mem_range.mp indexMember
    have otherMember := List.contains_iff_mem.mp isChosen
    obtain ⟨otherLower, otherUpper⟩ := bounds _ otherMember
    have isOther : weekdayDistance stop (weekday day) = index + 1 := by
      refine (weekdayDistance_iff otherLower otherUpper).mpr ⟨by omega, by omega, ?_⟩
      rw [isDay]
    have atLeast := isLeast (index + 1)
      (List.mem_map.mpr ⟨_, otherMember, isOther⟩)
    omega

/-- The bounds of the database. -/
def databaseBounds (frequency : Frequency) (fromBound : FromBound)
    (untilBound : UntilBound) (start stop : Int) : Int × Option Int :=
  (match fromBound with
    | .campaignStart => start
    | .dayAfterCampaignStart => start + 1
    | .date day => day,
  match untilBound with
    | .campaignEnd => some stop
    | .dayAfterCampaignEnd => some (stop + 1)
    | .firstSendAfterCampaignEnd =>
        match frequency with
        | .daily => some (stop + 1)
        | .weekly weekdays =>
            (((List.range 7).map fun index : Nat => stop + (index + 1)).filter
              fun day => weekdays.contains (weekday day)).min?
    | .archive => none
    | .date day => some day)

theorem addDays_eq_some {day days later : Int}
    (added : addDays day days = some later) : later = day + days := by
  unfold addDays at added
  split at added
  · exact (Option.some.inj added).symm
  · cases added

/-- `repeat_bounds` gives the bounds of the database. -/
theorem repeatBounds_eq {frequency : Frequency} {fromBound : FromBound}
    {untilBound : UntilBound} {start stop : Int} {bounds : Int × Option Int}
    (allowed : frequency.allowed = true)
    (isBounds : repeatBounds frequency fromBound untilBound start stop =
      some bounds) :
    databaseBounds frequency fromBound untilBound start stop = bounds := by
  unfold repeatBounds at isBounds
  obtain ⟨after, isAfter, isBounds⟩ := Option.bind_eq_some_iff.mp isBounds
  have afterEq := addDays_eq_some isAfter
  subst afterEq
  unfold databaseBounds
  cases untilBound with
  | archive =>
      cases isBounds
      rfl
  | campaignEnd =>
      cases isBounds
      rfl
  | date day =>
      cases isBounds
      rfl
  | dayAfterCampaignEnd =>
      obtain ⟨last, isLast, rfl⟩ := Option.map_eq_some_iff.mp isBounds
      have lastEq := addDays_eq_some isLast
      subst lastEq
      rfl
  | firstSendAfterCampaignEnd =>
      cases frequency with
      | daily =>
          obtain ⟨last, isLast, rfl⟩ := Option.map_eq_some_iff.mp isBounds
          have lastEq := addDays_eq_some isLast
          subst lastEq
          rfl
      | weekly weekdays =>
          obtain ⟨distance, least, isBounds⟩ := Option.bind_eq_some_iff.mp isBounds
          obtain ⟨last, isLast, rfl⟩ := Option.map_eq_some_iff.mp isBounds
          have lastEq := addDays_eq_some isLast
          subst lastEq
          exact congrArg (Prod.mk _)
            (firstWeekday_eq (Frequency.weekdays_bounds allowed) least)

/-! ## The first candidate after a date -/

/-- A send is at most seven days after any date before it, or another is
between. -/
theorem sends_close {frequency : Frequency} {after send : Int} (later : after < send)
    (isSend : frequency.sends send = true) :
    ∃ earlier, after < earlier ∧ earlier ≤ send ∧ earlier < after + 1 + 7 ∧
      frequency.sends earlier = true := by
  cases frequency with
  | daily => exact ⟨after + 1, by omega, by omega, by omega, rfl⟩
  | weekly weekdays =>
      refine ⟨after + 1 + (send - after - 1) % 7, by omega, by omega, by omega, ?_⟩
      have sameDay : weekday (after + 1 + (send - after - 1) % 7) =
          weekday send := by
        unfold weekday
        omega
      unfold Frequency.sends at isSend ⊢
      rw [sameDay]
      exact isSend

theorem all_le_iff {last : Option Int} {day : Int} :
    (last.all fun last => decide (day ≤ last)) = true ↔
      (last.any fun last => decide (last < day)) = false := by
  cases last with
  | none => exact ⟨fun _ => rfl, fun _ => rfl⟩
  | some last => simp

theorem any_lt_mono {last : Option Int} {day later : Int} (le : day ≤ later)
    (isOver : (last.any fun last => decide (last < day)) = true) :
    (last.any fun last => decide (last < later)) = true := by
  cases last with
  | none => cases isOver
  | some last =>
      simp only [Option.any_some, decide_eq_true_eq] at isOver ⊢
      omega

/-- The parts of a plan and of the values it comes from. -/
theorem fromValues_eq_some {values : ReportValues} {start stop : Int}
    {plan : ReportPlan}
    (isPlan : ReportPlan.fromValues values start stop = some plan) :
    plan.time = values.time ∧ plan.offset = values.slotBasis.offset ∧
      plan.skipped = values.skipDates ∧ plan.pauses = values.pausedRanges ∧
      match values.rule with
      | .once date => plan.rule = .once date
      | .repeats frequency fromBound untilBound =>
          ∃ bounds, repeatBounds frequency fromBound untilBound start stop =
            some bounds ∧ plan.rule = .repeats frequency bounds.1 bounds.2 := by
  obtain ⟨rule, isRule, isPlan⟩ := Option.map_eq_some_iff.mp isPlan
  rw [← isPlan]
  refine ⟨rfl, rfl, rfl, rfl, ?_⟩
  cases given : values.rule with
  | once date =>
      rw [given] at isRule
      cases isRule
      rfl
  | repeats frequency fromBound untilBound =>
      rw [given] at isRule
      obtain ⟨bounds, isBounds, rfl⟩ := Option.map_eq_some_iff.mp isRule
      exact ⟨bounds, isBounds, rfl⟩

theorem scheduleFields_rule {values : ReportValues}
    (accepted : scheduleFields values = true) : values.rule.allowed = true := by
  unfold scheduleFields at accepted
  simp only [Bool.and_eq_true] at accepted
  exact accepted.1.1.1.1.1.1

theorem allowed_frequency {frequency : Frequency} {fromBound : FromBound}
    {untilBound : UntilBound}
    (allowed : (ReportRule.repeats frequency fromBound untilBound).allowed = true) :
    frequency.allowed = true := by
  unfold ReportRule.allowed at allowed
  rw [Bool.and_eq_true] at allowed
  exact allowed.1

/-- The date of a one-time report is neither the first nor the last one. -/
theorem once_isDate {values : ReportValues} {start stop : Int}
    {plan : ReportPlan} (accepted : scheduleFields values = true)
    (isPlan : ReportPlan.fromValues values start stop = some plan) {date : Int}
    (isOnce : plan.rule = .once date) : dateMin < date ∧ date < dateMax := by
  obtain ⟨_, _, _, _, isRule⟩ := fromValues_eq_some isPlan
  have allowed := scheduleFields_rule accepted
  cases rule : values.rule with
  | once given =>
      rw [rule] at isRule allowed
      rw [isOnce] at isRule
      cases isRule
      unfold ReportRule.allowed dateAllowed at allowed
      simpa using allowed
  | repeats frequency fromBound untilBound =>
      rw [rule] at isRule
      obtain ⟨_, _, isRepeat⟩ := isRule
      rw [isOnce] at isRepeat
      cases isRepeat

theorem candidate_once {plan : ReportPlan} {date : Int}
    (isRule : plan.rule = .once date) (day : Int) :
    plan.candidate day = true ↔ day = date := by
  unfold ReportPlan.candidate
  rw [isRule]
  exact beq_iff_eq

theorem candidate_repeats {plan : ReportPlan} {frequency : Frequency} {first : Int}
    {last : Option Int} (isRule : plan.rule = .repeats frequency first last)
    (day : Int) :
    plan.candidate day = true ↔
      first ≤ day ∧ (last.any fun last => decide (last < day)) = false ∧
        frequency.sends day = true := by
  unfold ReportPlan.candidate
  rw [isRule]
  dsimp only
  rw [Bool.and_eq_true, Bool.and_eq_true, decide_eq_true_eq, all_le_iff,
    and_assoc]

/-- `_next` finds the first candidate that is a date. -/
theorem next_firstAfter {values : ReportValues} {start stop : Int}
    {plan : ReportPlan} (accepted : scheduleFields values = true)
    (isPlan : ReportPlan.fromValues values start stop = some plan) (send : Int) :
    FirstAfter (fun day => plan.candidate day = true ∧ day ≤ dateMax) send
      (plan.next send) := by
  unfold ReportPlan.next
  cases isRule : plan.rule with
  | once date =>
      dsimp only
      have isCandidate := candidate_once isRule
      have isDate := once_isDate accepted isPlan isRule
      by_cases before : send < date
      · rw [if_pos before]
        refine ⟨before, ⟨(isCandidate date).mpr rfl, by omega⟩, ?_⟩
        rintro day _ earlier ⟨holds, _⟩
        have same := (isCandidate day).mp holds
        omega
      · rw [if_neg before]
        rintro day later ⟨holds, _⟩
        have same := (isCandidate day).mp holds
        omega
  | repeats frequency first last =>
      dsimp only
      have isCandidate := candidate_repeats isRule
      have base : send ≤ (if send < first then first - 1 else send) ∧
          first - 1 ≤ (if send < first then first - 1 else send) := by
        split <;> omega
      refine FirstAfter.of_base base.1 ?_ (search_firstAfter ?_ ?_ ?_)
      · rintro day later before ⟨holds, _⟩
        have started := ((isCandidate day).mp holds).1
        split at before <;> omega
      · intro day later le stops
        rw [Bool.or_eq_true, decide_eq_true_eq] at stops ⊢
        exact stops.imp (fun beyond => by omega) (any_lt_mono le)
      · intro day later
        rw [Bool.or_eq_false_iff, decide_eq_false_iff_not]
        constructor
        · exact fun ⟨holds, isDate⟩ =>
            ⟨holds, by omega, ((isCandidate day).mp holds).2.1⟩
        · exact fun ⟨holds, isDate, _⟩ => ⟨holds, by omega⟩
      · rintro day later ⟨holds, _⟩
        obtain ⟨_, notOver, isSend⟩ := (isCandidate day).mp holds
        obtain ⟨earlier, after, before, near, sendsThere⟩ :=
          sends_close later isSend
        refine ⟨earlier, after, before, near, (isCandidate earlier).mpr
          ⟨by omega, ?_, sendsThere⟩⟩
        rw [Bool.eq_false_iff]
        intro beyond
        rw [any_lt_mono before beyond] at notOver
        cases notOver

/-- What the database searches for. -/
theorem nextSend_eq {values : ReportValues} {start stop : Int}
    {plan : ReportPlan} (accepted : scheduleFields values = true)
    (isPlan : ReportPlan.fromValues values start stop = some plan)
    (after : Option Int) :
    nextSend values start stop after =
      match plan.rule with
      | .once date =>
          if after.all fun after => decide (after < date) then some date else none
      | .repeats frequency first last =>
          search (fun day => last.any fun last => decide (last < day))
            frequency.sends 7
            ((match after with
              | none => first - 1
              | some after => if after < first then first - 1 else after) + 1) := by
  obtain ⟨_, _, _, _, isRule⟩ := fromValues_eq_some isPlan
  have allowed := scheduleFields_rule accepted
  unfold nextSend
  cases rule : values.rule with
  | once date =>
      rw [rule] at isRule
      rw [isRule]
  | repeats frequency fromBound untilBound =>
      rw [rule] at isRule allowed
      obtain ⟨bounds, isBounds, isRepeat⟩ := isRule
      have same := repeatBounds_eq (allowed_frequency allowed) isBounds
      rw [isRepeat, ← same]
      rfl

/-- The database finds the first candidate. -/
theorem nextSend_firstAfter {values : ReportValues} {start stop : Int}
    {plan : ReportPlan} (accepted : scheduleFields values = true)
    (isPlan : ReportPlan.fromValues values start stop = some plan) (send : Int) :
    FirstAfter (fun day => plan.candidate day = true) send
      (nextSend values start stop (some send)) := by
  rw [nextSend_eq accepted isPlan]
  cases isRule : plan.rule with
  | once date =>
      dsimp only
      have isCandidate := candidate_once isRule
      rw [Option.all_some]
      by_cases before : send < date
      · rw [if_pos (decide_eq_true before)]
        refine ⟨before, (isCandidate date).mpr rfl, fun day _ earlier holds => ?_⟩
        have same := (isCandidate day).mp holds
        omega
      · rw [if_neg (by simpa using before)]
        intro day later holds
        have same := (isCandidate day).mp holds
        omega
  | repeats frequency first last =>
      dsimp only
      have isCandidate := candidate_repeats isRule
      have base : send ≤ (if send < first then first - 1 else send) ∧
          first - 1 ≤ (if send < first then first - 1 else send) := by
        split <;> omega
      refine FirstAfter.of_base base.1 ?_ (search_firstAfter ?_ ?_ ?_)
      · intro day later before holds
        have started := ((isCandidate day).mp holds).1
        split at before <;> omega
      · exact fun day later le stops => any_lt_mono le stops
      · intro day later
        rw [isCandidate day]
        constructor
        · exact fun ⟨_, notOver, isSend⟩ => ⟨isSend, notOver⟩
        · exact fun ⟨isSend, notOver⟩ => ⟨by omega, notOver, isSend⟩
      · intro day later holds
        exact sends_close later ((isCandidate day).mp holds).2.2

/-- From the beginning is from any date before the candidates. -/
theorem nextSend_beginning {values : ReportValues} {start stop : Int}
    {plan : ReportPlan} (accepted : scheduleFields values = true)
    (isPlan : ReportPlan.fromValues values start stop = some plan) {before : Int}
    (noneYet : ∀ send ≤ before, plan.candidate send = false) :
    nextSend values start stop none = nextSend values start stop (some before) := by
  have noCandidate (send : Int) (le : send ≤ before) : ¬ plan.candidate send = true :=
    Bool.eq_false_iff.mp (noneYet send le)
  refine FirstAfter.unique ?_ (nextSend_firstAfter accepted isPlan before)
  cases isRule : plan.rule with
  | once date =>
      have isCandidate := candidate_once isRule
      have isBeginning : nextSend values start stop none =
          nextSend values start stop (some (date - 1)) := by
        rw [nextSend_eq accepted isPlan, nextSend_eq accepted isPlan, isRule]
        dsimp only
        rw [Option.all_none, Option.all_some, decide_eq_true (by omega)]
      rw [isBeginning]
      refine FirstAfter.of_none (fun send le holds => ?_) noCandidate
        (nextSend_firstAfter accepted isPlan (date - 1))
      have same := (isCandidate send).mp holds
      omega
  | repeats frequency first last =>
      have isCandidate := candidate_repeats isRule
      have isBeginning : nextSend values start stop none =
          nextSend values start stop (some (first - 1)) := by
        rw [nextSend_eq accepted isPlan, nextSend_eq accepted isPlan, isRule]
        dsimp only
        rw [if_pos (by omega)]
      rw [isBeginning]
      refine FirstAfter.of_none (fun send le holds => ?_) noCandidate
        (nextSend_firstAfter accepted isPlan (first - 1))
      have started := ((isCandidate send).mp holds).1
      omega

end ParishKit.Campaigns
