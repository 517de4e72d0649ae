import ParishKit.Source.RefreshWindow

/-!
# The overdue refresh

The first full refresh due after an instant, under one schedule and under the
schedules in effect one after another.
-/

namespace ParishKit.Source

open ParishKit.Lib

section

variable [TimeZones]

/-! ## The first due time of a schedule -/

/-- The loop of `full_due_after`: the earliest due time of the first day that has
one. -/
def firstDayDue (timezone : Text) (times : List Text) (after last : Int) :
    Nat → Int → Option Int
  | 0, _ => none
  | count + 1, day =>
      match ((times.map fun value => localInstant day value timezone).filter
          fun due => decide (after < due ∧ due ≤ last)).min? with
      | some due => some due
      | none => firstDayDue timezone times after last count (day + 1)

def stepOf (schedule : RefreshSchedule) : Int :=
  if schedule.frequency = "hourly".toList then hourMicroseconds
  else quarterHourMicroseconds

/-- `full_due_after`. -/
def fullDueAfter (schedule : RefreshSchedule) (timezone : Text) (after last : Int) :
    Option Int :=
  if last ≤ after then
    none
  else if schedule.frequency ≠ "daily".toList then
    let due := floorTo after (stepOf schedule) + stepOf schedule
    if due ≤ last then some due else none
  else
    let first := localDay after timezone - 1
    firstDayDue timezone schedule.fullRefreshTimes after last
      (localDay last timezone + 1 + 1 - first).toNat first

/-- A full refresh of the schedule falls due at the instant. -/
def IsDue (timezone : Text) (schedule : RefreshSchedule) (due : Int) : Prop :=
  if schedule.frequency = "daily".toList then
    Occurs timezone schedule.fullRefreshTimes due
  else
    due % stepOf schedule = 0

/-! ## Schedules in effect -/

/-- A schedule in effect from its start; none schedules nothing. -/
structure ScheduleRun where
  start : Int
  settings : Option RefreshSchedule

/-- Where the runs end that start before the rest. -/
def endOf (now : Int) : List ScheduleRun → Int
  | [] => now
  | next :: _ => next.start

/-- `first_overdue`, with a bound on the skipped slots in a row. The outer `none`
is a search that is still going on. -/
def firstOverdue (timezone : Text) (after now : Int) (skipped : Finset Int)
    (fuel : Nat) : List ScheduleRun → Option (Option Int)
  | [] => some none
  | run :: rest =>
      let lower := max run.start after
      match run.settings with
      | none => firstOverdue timezone after now skipped fuel rest
      | some settings =>
          if endOf now rest ≤ lower then
            firstOverdue timezone after now skipped fuel rest
          else
            let last := min (endOf now rest) now
            (skipping (fun due => fullDueAfter settings timezone due last) skipped fuel
              (fullDueAfter settings timezone lower last)).bind fun due =>
                match due with
                | some due => some (some due)
                | none => firstOverdue timezone after now skipped fuel rest

/-- It is due under a schedule that was in effect then. -/
def DueUnder (timezone : Text) (runs : List ScheduleRun) (due : Int) : Prop :=
  ∃ index run settings, runs[index]? = some run ∧ run.settings = some settings ∧
    run.start < due ∧ (∀ next, runs[index + 1]? = some next → due ≤ next.start) ∧
    IsDue timezone settings due

/-! ## One schedule -/

variable {timezone : Text} {times : List Text} {after last now : Int}
  {schedule : RefreshSchedule}

/-- What falls due on a later day falls due no earlier. -/
theorem localInstant_le_of_day_lt
    (timezone otherValue : Text) {day other : Int} {value : Text}
    (canonical : isHhmm value = true) (less : day < other) :
    localInstant day value timezone ≤ localInstant other otherValue timezone := by
  have within := minutesOf_lt canonical
  refine ParishKit.Campaigns.resolveLocal_mono _ ?_
  unfold dayMicroseconds
  omega

theorem firstDayDue_firstAfter
    (canonical : ∀ value ∈ times, isHhmm value = true) {count : Nat} {day : Int}
    (inside : ∀ value ∈ times, ∀ other, after < localInstant other value timezone →
      localInstant other value timezone ≤ last → day ≤ other ∧ other < day + count) :
    FirstAfter (fun due => Occurs timezone times due ∧ due ≤ last) after
      (firstDayDue timezone times after last count day) := by
  induction count generalizing day with
  | zero =>
      rintro due later ⟨⟨other, value, member, rfl⟩, notLater⟩
      have bounds := inside value member other later notLater
      omega
  | succ count inductionHypothesis =>
      rw [firstDayDue]
      cases found : ((times.map fun value => localInstant day value timezone).filter
          fun due => decide (after < due ∧ due ≤ last)).min? with
      | none =>
          refine inductionHypothesis fun value member other later notLater => ?_
          have bounds := inside value member other later notLater
          have isOther : other ≠ day := by
            rintro rfl
            have missing := List.filter_eq_nil_iff.mp (List.min?_eq_none_iff.mp found)
              _ (List.mem_map_of_mem member)
            exact missing (decide_eq_true ⟨later, notLater⟩)
          omega
      | some due =>
          obtain ⟨member, least⟩ := List.min?_eq_some_iff.mp found
          obtain ⟨isInstant, isInside⟩ := List.mem_filter.mp member
          obtain ⟨value, isValue, rfl⟩ := List.mem_map.mp isInstant
          obtain ⟨later, notLater⟩ := of_decide_eq_true isInside
          refine ⟨later, ⟨⟨day, value, isValue, rfl⟩, notLater⟩, ?_⟩
          rintro _ isLater earlier ⟨⟨other, otherValue, isOther, rfl⟩, passed⟩
          have bounds := inside otherValue isOther other isLater passed
          by_cases sameDay : other = day
          · rw [sameDay] at isLater earlier passed
            have notEarlier := least _ (List.mem_filter.mpr
              ⟨List.mem_map_of_mem isOther, decide_eq_true ⟨isLater, passed⟩⟩)
            omega
          · have notEarlier := localInstant_le_of_day_lt timezone otherValue
              (canonical value isValue)
              (show day < other by omega)
            omega

omit [TimeZones] in
theorem stepOf_pos (schedule : RefreshSchedule) : 0 < stepOf schedule := by
  unfold stepOf
  split
  · decide
  · decide

omit [TimeZones] in
/-- The multiples of a step on the two sides of an instant. -/
theorem floorTo_neighbors {step : Int} (positive : 0 < step) (now : Int) :
    floorTo now step % step = 0 ∧ floorTo now step ≤ now ∧
      now < floorTo now step + step ∧
      ∀ due, due % step = 0 →
        due ≤ floorTo now step ∨ floorTo now step + step ≤ due := by
  have lower := Int.emod_nonneg now (Int.ne_of_gt positive)
  have upper := Int.emod_lt_of_pos now positive
  refine ⟨Int.emod_eq_zero_of_dvd Int.dvd_self_sub_emod, by unfold floorTo; omega,
    by unfold floorTo; omega, fun due isMultiple => ?_⟩
  have parts := Int.emod_add_mul_ediv now step
  obtain ⟨multiple, rfl⟩ := Int.dvd_of_emod_eq_zero isMultiple
  unfold floorTo
  by_cases le : multiple ≤ now / step
  · left
    have product := Int.mul_le_mul_of_nonneg_left le (Int.le_of_lt positive)
    omega
  · right
    have product := Int.mul_le_mul_of_nonneg_left
      (show now / step + 1 ≤ multiple by omega) (Int.le_of_lt positive)
    rw [Int.mul_add, Int.mul_one] at product
    omega

/-- The first due time after an instant, up to the last one looked at. -/
theorem fullDueAfter_firstAfter
    (forward : DateForward timezone) (valid : validate schedule = some times)
    (after last : Int) :
    FirstAfter (fun due => IsDue timezone schedule due ∧ due ≤ last) after
      (fullDueAfter schedule timezone after last) := by
  obtain ⟨_, _, canonical⟩ := validate_times valid
  unfold fullDueAfter
  by_cases none' : last ≤ after
  · rw [if_pos none']
    rintro due later ⟨_, notLater⟩
    omega
  rw [if_neg none']
  unfold IsDue
  by_cases daily : schedule.frequency = "daily".toList
  · simp only [if_neg (not_not.mpr daily), if_pos daily]
    rw [← (validate_times valid).1]
    refine firstDayDue_firstAfter canonical fun value member other later notLater => ?_
    have notEarly : localDay after timezone ≤ other := by
      by_contra earlier
      have passed := localInstant_le (canonical value member) (Int.not_le.mp earlier)
      omega
    have notLate : other ≤ localDay last timezone := by
      by_contra isLater
      have ahead := lt_localInstant value forward (Int.not_le.mp isLater)
      omega
    omega
  · simp only [if_pos daily, if_neg daily]
    obtain ⟨isMultiple, _, isAfter, apart⟩ :=
      floorTo_neighbors (stepOf_pos schedule) after
    have isNextMultiple : (floorTo after (stepOf schedule) + stepOf schedule) %
        stepOf schedule = 0 := by
      rw [Int.add_emod_right]
      exact isMultiple
    split
    · rename_i fits
      refine ⟨isAfter, ⟨isNextMultiple, fits⟩, ?_⟩
      rintro due later earlier ⟨isDue, _⟩
      have sides := apart due isDue
      omega
    · rename_i tooLate
      rintro due later ⟨isDue, notLater⟩
      have sides := apart due isDue
      omega

/-! ## The schedules one after another -/

variable {run : ScheduleRun} {runs rest : List ScheduleRun} {due : Int}

theorem dueUnder_cons :
    DueUnder timezone (run :: rest) due ↔
      (∃ settings, run.settings = some settings ∧ run.start < due ∧
        (∀ next ∈ rest.head?, due ≤ next.start) ∧ IsDue timezone settings due) ∨
      DueUnder timezone rest due := by
  constructor
  · rintro ⟨index, found, settings, isRun, isSettings, begun, goesOn, isDue⟩
    cases index with
    | zero =>
        cases isRun
        refine Or.inl ⟨settings, isSettings, begun, fun next isNext => ?_, isDue⟩
        cases rest with
        | nil => cases isNext
        | cons head tail =>
            cases isNext
            exact goesOn next rfl
    | succ index =>
        exact Or.inr ⟨index, found, settings, isRun, isSettings, begun, goesOn, isDue⟩
  · rintro (⟨settings, isSettings, begun, goesOn, isDue⟩ |
      ⟨index, found, settings, isRun, isSettings, begun, goesOn, isDue⟩)
    · refine ⟨0, run, settings, rfl, isSettings, begun, fun next isNext => ?_, isDue⟩
      cases rest with
      | nil => cases isNext
      | cons head tail =>
          cases isNext
          exact goesOn next rfl
    · exact ⟨index + 1, found, settings, isRun, isSettings, begun, goesOn, isDue⟩

theorem start_lt_of_dueUnder
    (ordered : ∀ other ∈ runs, last ≤ other.start)
    (isDue : DueUnder timezone runs due) : last < due := by
  obtain ⟨index, found, settings, isRun, _, begun, _⟩ := isDue
  have notEarlier := ordered found (List.mem_of_getElem? isRun)
  omega

omit [TimeZones] in
theorem le_endOf {next : Int} (notLater : due ≤ next) :
    due ≤ endOf next rest ↔ ∀ run ∈ rest.head?, due ≤ run.start := by
  cases rest with
  | nil => exact ⟨fun _ run member => (by cases member), fun _ => notLater⟩
  | cons head tail =>
      constructor
      · intro before run member
        cases member
        exact before
      · intro before
        exact before head rfl

/-- A due time that the overdue slot can be. -/
def Counts (timezone : Text) (now : Int) (skipped : Finset Int)
    (runs : List ScheduleRun) (due : Int) : Prop :=
  due ≤ now ∧ due ∉ skipped ∧ DueUnder timezone runs due

theorem firstOverdue_firstAfter
    (forward : DateForward timezone)
    (canonical : ∀ run ∈ runs, ∀ settings, run.settings = some settings →
      ∃ times, validate settings = some times)
    (ordered : runs.Pairwise fun first second => first.start ≤ second.start)
    (skipped : Finset Int) (after now : Int) {fuel : Nat}
    (enough : skipped.card ≤ fuel) :
    ∃ result, firstOverdue timezone after now skipped fuel runs = some result ∧
      FirstAfter (Counts timezone now skipped runs) after result := by
  induction runs with
  | nil =>
      refine ⟨none, rfl, ?_⟩
      rintro due _ ⟨_, _, index, run, settings, isRun, _⟩
      cases isRun
  | cons run rest inductionHypothesis =>
      obtain ⟨startsFirst, restOrdered⟩ := List.pairwise_cons.mp ordered
      obtain ⟨later, isLater, isFirst⟩ := inductionHypothesis
        (fun other member => canonical other (List.mem_cons_of_mem run member))
        restOrdered
      -- What the first run schedules is all that the other runs do not.
      have passOn : (∀ due, after < due → due ≤ now → due ∉ skipped →
          ∀ settings, run.settings = some settings → run.start < due →
          due ≤ endOf now rest → ¬ IsDue timezone settings due) →
          FirstAfter (Counts timezone now skipped (run :: rest)) after later := by
        intro nothing
        refine isFirst.congr fun due isAfter => ?_
        constructor
        · rintro ⟨passed, counts, under⟩
          exact ⟨passed, counts, dueUnder_cons.mpr (Or.inr under)⟩
        · rintro ⟨passed, counts, under⟩
          refine ⟨passed, counts, (dueUnder_cons.mp under).resolve_left ?_⟩
          rintro ⟨settings, isSettings, begun, goesOn, isDue⟩
          exact nothing due isAfter passed counts settings isSettings begun
            ((le_endOf passed).mpr goesOn) isDue
      rw [firstOverdue]
      cases hasSettings : run.settings with
      | none =>
          refine ⟨later, isLater, passOn fun due _ _ _ settings isSettings => ?_⟩
          rw [hasSettings] at isSettings
          cases isSettings
      | some settings =>
          dsimp only
          by_cases ended : endOf now rest ≤ max run.start after
          · rw [if_pos ended]
            refine ⟨later, isLater, passOn fun due isAfter _ _ _ _ begun goesOn => ?_⟩
            omega
          rw [if_neg ended]
          obtain ⟨times, valid⟩ := canonical run List.mem_cons_self settings hasSettings
          have enoughHere : (skipped.filter (max run.start after < ·)).card ≤ fuel :=
            Nat.le_trans (Finset.card_filter_le skipped _) enough
          obtain ⟨found, isFound, isLeast⟩ := skipping_firstAfter
            (fun base => fullDueAfter_firstAfter forward valid base
              (min (endOf now rest) now)) enoughHere
          rw [isFound]
          cases found with
          | none =>
              refine ⟨later, isLater, passOn ?_⟩
              intro due isAfter passed counts other isOther begun goesOn isDue
              rw [hasSettings] at isOther
              cases isOther
              exact isLeast due (by omega) ⟨⟨isDue, by omega⟩, counts⟩
          | some due =>
              obtain ⟨isAfter, ⟨⟨isDue, passed⟩, counts⟩, least⟩ := isLeast
              refine ⟨some due, rfl, by omega, ⟨by omega, counts, ?_⟩, ?_⟩
              · exact dueUnder_cons.mpr (Or.inl ⟨settings, hasSettings, by omega,
                  (le_endOf (show due ≤ now by omega)).mp (by omega), isDue⟩)
              · rintro other otherAfter earlier ⟨otherPassed, otherCounts, under⟩
                rcases dueUnder_cons.mp under with
                  ⟨sameSettings, isSame, begun, goesOn, otherDue⟩ | underLater
                · rw [hasSettings] at isSame
                  cases isSame
                  have within := (le_endOf otherPassed).mpr goesOn
                  exact least other (by omega) earlier
                    ⟨⟨otherDue, by omega⟩, otherCounts⟩
                · -- A later run starts where this one ends.
                  cases rest with
                  | nil =>
                      obtain ⟨index, found, settings', isRun, _⟩ := underLater
                      cases isRun
                  | cons next others =>
                      have notEarlier : ∀ run ∈ next :: others,
                          next.start ≤ run.start := by
                        intro run member
                        rcases List.mem_cons.mp member with rfl | isOther
                        · exact Int.le_refl _
                        · exact (List.pairwise_cons.mp restOrdered).1 run isOther
                      have begins := start_lt_of_dueUnder notEarlier underLater
                      have isEnd : endOf now (next :: others) = next.start := rfl
                      omega

/-! ## The scheduler's slot -/

variable [SlotDigests]

/-- The scheduler's slot is the last due time up to now. -/
theorem dueSlots_isGreatest
    (forward : DateForward timezone) (valid : validate schedule = some times)
    (scopeFingerprint : Text) (now : Int) :
    ∃ slot, dueSlots now timezone scopeFingerprint schedule = some [slot] ∧
      IsGreatest {due | IsDue timezone schedule due ∧ due ≤ now} slot.dueAt := by
  by_cases daily : schedule.frequency = "daily".toList
  · obtain ⟨slot, isLatest⟩ := exists_latestSlot forward valid daily
      scopeFingerprint now
    refine ⟨slot, isLatest.isDue, ?_⟩
    unfold IsDue
    simp only [if_pos daily]
    exact isLatest.isGreatest
  · have isFull : ∃ value, fullDue now timezone times schedule =
        some (floorTo now (stepOf schedule), value) := by
      unfold fullDue stepOf
      rw [if_neg daily]
      split
      · exact ⟨_, rfl⟩
      · exact ⟨_, rfl⟩
    obtain ⟨value, isFloor⟩ := isFull
    refine ⟨makeSlot .nightly (floorTo now (stepOf schedule)) (some value) timezone
      scopeFingerprint, ?_, ?_⟩
    · unfold dueSlots
      rw [valid]
      change (fullDue now timezone _ _ >>= _) = _
      rw [isFloor]
      rfl
    · unfold IsDue
      simp only [if_neg daily]
      obtain ⟨isMultiple, passed, isAfter, apart⟩ :=
        floorTo_neighbors (stepOf_pos schedule) now
      refine ⟨⟨isMultiple, passed⟩, ?_⟩
      rintro due ⟨isDue, notLater⟩
      have sides := apart due isDue
      change due ≤ floorTo now (stepOf schedule)
      omega

/-- The overdue slot is the first due time after an instant that counts, found in
at most as many steps as slots were skipped. Under one schedule there is none up
to now exactly when the scheduler's slot is due no later than that instant. -/
theorem overdue_slot_is_first
    (forward : DateForward timezone) :
    (∀ schedule times, validate schedule = some times → ∀ after last,
      FirstAfter (fun due => IsDue timezone schedule due ∧ due ≤ last) after
        (fullDueAfter schedule timezone after last)) ∧
    (∀ runs : List ScheduleRun,
      (∀ run ∈ runs, ∀ settings, run.settings = some settings →
        ∃ times, validate settings = some times) →
      (runs.Pairwise fun first second => first.start ≤ second.start) →
      ∀ skipped after now fuel, skipped.card ≤ fuel →
        ∃ result, firstOverdue timezone after now skipped fuel runs = some result ∧
          FirstAfter (Counts timezone now skipped runs) after result) ∧
    ∀ schedule times, validate schedule = some times →
      ∀ scopeFingerprint after now, ∃ slot,
        dueSlots now timezone scopeFingerprint schedule = some [slot] ∧
        (fullDueAfter schedule timezone after now = none ↔ slot.dueAt ≤ after) := by
  refine ⟨fun schedule times valid after last =>
      fullDueAfter_firstAfter forward valid after last,
    fun runs canonical ordered skipped after now fuel enough =>
      firstOverdue_firstAfter forward canonical ordered skipped after now enough,
    fun schedule times valid scopeFingerprint after now => ?_⟩
  obtain ⟨slot, isSlot, ⟨isDue, passed⟩, greatest⟩ :=
    dueSlots_isGreatest forward valid scopeFingerprint now
  have isFirst := fullDueAfter_firstAfter forward valid after now
  refine ⟨slot, isSlot, ?_⟩
  constructor
  · intro none'
    rw [none'] at isFirst
    by_contra later
    exact isFirst slot.dueAt (Int.not_le.mp later) ⟨isDue, passed⟩
  · intro before
    cases found : fullDueAfter schedule timezone after now with
    | none => rfl
    | some due =>
        rw [found] at isFirst
        obtain ⟨later, ⟨isOwed, notLater⟩, _⟩ := isFirst
        have notAfter : due ≤ slot.dueAt := greatest ⟨isOwed, notLater⟩
        omega

end

/-- In the zone of the clock change, a run of the schedule has its first overdue
slot at the change, and the next one when that is skipped. -/
theorem spring_overdue_slot_is_first :
    letI := springForward
    firstOverdue [] (100 * 86400000000) (101 * 86400000000) ∅ 0
        [⟨0, some twoTimes⟩] = some (some (100 * 86400000000 + 7200000000)) ∧
      Counts [] (101 * 86400000000) ∅ [⟨0, some twoTimes⟩]
        (100 * 86400000000 + 7200000000) := by
  let := springForward
  let := minuteKeys
  have canonical : ∀ run ∈ [(⟨0, some twoTimes⟩ : ScheduleRun)], ∀ settings,
      run.settings = some settings → ∃ times, validate settings = some times := by
    intro run member settings isSettings
    rw [List.mem_singleton.mp member] at isSettings
    cases isSettings
    exact ⟨_, rfl⟩
  have computed : firstOverdue [] (100 * 86400000000) (101 * 86400000000) ∅ 0
      [⟨0, some twoTimes⟩] = some (some (100 * 86400000000 + 7200000000)) := by
    decide +kernel
  obtain ⟨result, isResult, isFirst⟩ :=
    (overdue_slot_is_first (springForward_dateForward [])).2.1 [⟨0, some twoTimes⟩]
      canonical (List.pairwise_singleton _ _) ∅ (100 * 86400000000)
      (101 * 86400000000) 0 (Nat.le_refl _)
  rw [computed] at isResult
  cases isResult
  exact ⟨computed, isFirst.2.1⟩

end ParishKit.Source
