import Mathlib.Order.Bounds.Defs
import ParishKit.Source.RefreshCadence

/-!
# The refresh schedule's window

The schedule looks at the days next to the local one. Where the local date does
not go back, those days hold the last occurrence of a time up to now and the
first one after it.
-/

namespace ParishKit.Source

open ParishKit.Lib
open ParishKit.Campaigns (resolveLocal resolveLocal_firstShown resolveLocal_le
  resolveLocal_mono)

section

variable [TimeZones]

/-- `next_full_at`. -/
def nextFullAt (now : Int) (timezone : Text) (schedule : RefreshSchedule) :
    Option Int := do
  let times ← validate schedule
  if schedule.frequency = "daily".toList then
    (times.flatMap fun value =>
      [localInstant (localDay now timezone) value timezone,
        localInstant (localDay now timezone + 1) value timezone].filter
          (now < ·)).min?
  else
    let step := if schedule.frequency = "hourly".toList then hourMicroseconds
      else quarterHourMicroseconds
    some (floorTo now step + step)

/-- One of the times falls due at the instant, on some day. -/
def Occurs (timezone : Text) (times : List Text) (due : Int) : Prop :=
  ∃ day, ∃ value ∈ times, localInstant day value timezone = due

/-- The local date does not go back. -/
def DateForward (timezone : Text) : Prop :=
  ∀ first second, first ≤ second → localDay first timezone ≤ localDay second timezone

/-! ## One occurrence -/

omit [TimeZones] in
theorem digitValue_le_of_contains
    {digits : List Char} {char : Char} {bound : Nat}
    (member : digits.contains char = true)
    (bounded : (digits.all fun digit => decide (digitValue digit ≤ bound)) = true) :
    digitValue char ≤ bound :=
  of_decide_eq_true
    (List.all_eq_true.mp bounded char (List.contains_iff_mem.mp member))

omit [TimeZones] in
theorem minutesOf_lt {value : Text} (canonical : isHhmm value = true) :
    minutesOf value < 1440 := by
  unfold isHhmm at canonical
  split at canonical
  · rename_i hour hours colon minute minutes
    simp only [Bool.and_eq_true, Bool.or_eq_true] at canonical
    obtain ⟨⟨⟨isHour, _⟩, isMinute⟩, isDigit⟩ := canonical
    have minuteValue : digitValue minute ≤ 5 :=
      digitValue_le_of_contains isMinute rfl
    have minutesValue := (digitChar_digitValue isDigit).2
    change (digitValue hour * 10 + digitValue hours) * 60 +
      (digitValue minute * 10 + digitValue minutes) < 1440
    rcases isHour with ⟨early, digit⟩ | ⟨isTwo, late⟩
    · have hourValue : digitValue hour ≤ 1 :=
        digitValue_le_of_contains early rfl
      have hoursValue := (digitChar_digitValue digit).2
      omega
    · have hourValue : digitValue hour = 2 := by
        rw [eq_of_beq isTwo]
        decide
      have hoursValue : digitValue hours ≤ 3 :=
        digitValue_le_of_contains late rfl
      omega
  · cases canonical

variable {timezone value : Text} {day now : Int}

theorem localInstant_mono {other : Int} (le : day ≤ other) :
    localInstant day value timezone ≤ localInstant other value timezone :=
  resolveLocal_mono _ (by unfold dayMicroseconds; omega)

/-- A time of an earlier date has passed. -/
theorem localInstant_le
    (canonical : isHhmm value = true) (earlier : day < localDay now timezone) :
    localInstant day value timezone ≤ now := by
  have within := minutesOf_lt canonical
  refine resolveLocal_le ?_
  unfold localDay dayMicroseconds at earlier
  unfold dayMicroseconds
  omega

/-- A time of a later date has not. -/
theorem lt_localInstant
    (value : Text) (forward : DateForward timezone) (later : localDay now timezone < day) :
    now < localInstant day value timezone := by
  by_contra passed
  have shown := (resolveLocal_firstShown (TimeZones.zone timezone)
    (day * dayMicroseconds + minutesOf value * 60000000)).1
  have inOrder := forward _ _ (Int.not_lt.mp passed)
  unfold localInstant at inOrder
  unfold localDay dayMicroseconds at *
  omega

/-! ## The two days -/

omit [TimeZones] in
theorem validate_times
    {schedule : RefreshSchedule} {times : List Text}
    (valid : validate schedule = some times) :
    times = schedule.fullRefreshTimes ∧ times ≠ [] ∧
      ∀ value ∈ times, isHhmm value = true := by
  unfold validate at valid
  split at valid
  · rename_i accepted
    cases valid
    simp only [Bool.and_eq_true, canonicalTimes, canonicalList,
      decide_eq_true_eq, List.all_eq_true] at accepted
    refine ⟨rfl, fun isEmpty => ?_, accepted.1.1.2.1.1.2⟩
    have long := accepted.1.1.2.1.1.1.1
    rw [isEmpty] at long
    cases long
  · cases valid

omit [TimeZones] in
theorem precedence_le {nightlyTime : Text} {left right : Int × Text}
    (below : precedence nightlyTime left right = true) : left.1 ≤ right.1 := by
  unfold precedence at below
  split at below
  · omega
  · have less := of_decide_eq_true below
    omega

omit [TimeZones] in
theorem le_of_not_precedence {nightlyTime : Text} {left right : Int × Text}
    (notBelow : precedence nightlyTime left right = false) : right.1 ≤ left.1 := by
  unfold precedence at notBelow
  split at notBelow
  · omega
  · have notLess := of_decide_eq_false notBelow
    omega

theorem mem_occurrences {due : Int} :
    due ∈ occurrences day value timezone ↔
      due = localInstant (day - 1) value timezone ∨
        due = localInstant day value timezone := by
  simp [occurrences]

variable {times : List Text}

/-- Up to now, every occurrence has one of the two days that is no earlier. -/
theorem exists_occurrence
    (forward : DateForward timezone) (canonical : ∀ value ∈ times, isHhmm value = true)
    {due : Int} (occurs : Occurs timezone times due) (passed : due ≤ now) :
    ∃ value ∈ times, ∃ later ∈ occurrences (localDay now timezone) value timezone,
      later ≤ now ∧ due ≤ later := by
  obtain ⟨day, value, member, rfl⟩ := occurs
  refine ⟨value, member, ?_⟩
  have notLater : day ≤ localDay now timezone := by
    by_contra later
    have ahead := lt_localInstant value forward (Int.not_le.mp later)
    omega
  by_cases today : day = localDay now timezone
  · rw [today] at passed ⊢
    exact ⟨_, mem_occurrences.mpr (Or.inr rfl), passed, Int.le_refl _⟩
  · exact ⟨_, mem_occurrences.mpr (Or.inl rfl),
      localInstant_le (canonical value member) (by omega),
      localInstant_mono (by omega)⟩

/-- The last occurrence up to now. -/
theorem latestDue_isGreatest
    (now : Int) (forward : DateForward timezone) (canonical : ∀ value ∈ times, isHhmm value = true)
    (nonempty : times ≠ []) (nightlyTime : Text) :
    ∃ due value, latestDue now timezone times nightlyTime = some (due, value) ∧
      value ∈ times ∧ due ∈ occurrences (localDay now timezone) value timezone ∧
      IsGreatest {due | Occurs timezone times due ∧ due ≤ now} due := by
  obtain ⟨first, isFirst⟩ := List.exists_mem_of_ne_nil times nonempty
  have mem_candidates : ∀ candidate : Int × Text,
      candidate ∈ (times.flatMap fun value =>
        ((occurrences (localDay now timezone) value timezone).filter (· ≤ now)).map
          fun due => (due, value)) ↔
        candidate.2 ∈ times ∧ candidate.1 ≤ now ∧
          candidate.1 ∈ occurrences (localDay now timezone) candidate.2 timezone := by
    intro candidate
    simp only [List.mem_flatMap, List.mem_map, List.mem_filter, decide_eq_true_eq]
    constructor
    · rintro ⟨value, member, due, ⟨occurs, passed⟩, rfl⟩
      exact ⟨member, passed, occurs⟩
    · rintro ⟨member, passed, occurs⟩
      exact ⟨_, member, _, ⟨occurs, passed⟩, rfl⟩
  have yesterday : localInstant (localDay now timezone - 1) first timezone ≤ now :=
    localInstant_le (canonical first isFirst) (by omega)
  obtain ⟨best, isBest⟩ := greatest?_isSome (precedence nightlyTime)
    ((mem_candidates (_, first)).mpr
      ⟨isFirst, yesterday, mem_occurrences.mpr (Or.inl rfl)⟩)
  obtain ⟨member, greatest⟩ := greatest?_eq_some_of Prod.fst
    (fun _ _ => precedence_le) (fun _ _ => le_of_not_precedence) isBest
  obtain ⟨isTime, passed, occurs⟩ := (mem_candidates best).mp member
  refine ⟨best.1, best.2, isBest, isTime, occurs, ⟨?_, passed⟩, ?_⟩
  · rcases mem_occurrences.mp occurs with isDue | isDue
    · exact ⟨_, best.2, isTime, isDue.symm⟩
    · exact ⟨_, best.2, isTime, isDue.symm⟩
  · rintro due ⟨isOccurrence, isPassed⟩
    obtain ⟨value, isValue, later, isLater, laterPassed, le⟩ :=
      exists_occurrence forward canonical isOccurrence isPassed
    exact Int.le_trans le
      (greatest (later, value) ((mem_candidates _).mpr ⟨isValue, laterPassed, isLater⟩))

/-- The first occurrence after now. -/
theorem nextFullAt_isLeast
    (now : Int) (forward : DateForward timezone) {schedule : RefreshSchedule}
    (valid : validate schedule = some times)
    (daily : schedule.frequency = "daily".toList) :
    ∃ next, nextFullAt now timezone schedule = some next ∧
      IsLeast {due | Occurs timezone times due ∧ now < due} next := by
  obtain ⟨_, nonempty, canonical⟩ := validate_times valid
  obtain ⟨first, isFirst⟩ := List.exists_mem_of_ne_nil times nonempty
  have mem_candidates : ∀ due,
      due ∈ (times.flatMap fun value =>
        [localInstant (localDay now timezone) value timezone,
          localInstant (localDay now timezone + 1) value timezone].filter
            (now < ·)) ↔
        now < due ∧ ∃ value ∈ times,
          due = localInstant (localDay now timezone) value timezone ∨
            due = localInstant (localDay now timezone + 1) value timezone := by
    intro due
    simp only [List.mem_flatMap, List.mem_filter, List.mem_cons, List.not_mem_nil,
      or_false, decide_eq_true_eq]
    constructor
    · rintro ⟨value, member, isDue, later⟩
      exact ⟨later, value, member, isDue⟩
    · rintro ⟨later, value, member, isDue⟩
      exact ⟨value, member, isDue, later⟩
  have tomorrow : now < localInstant (localDay now timezone + 1) first timezone :=
    lt_localInstant first forward (by omega)
  have isSome : ∃ next, (times.flatMap fun value =>
      [localInstant (localDay now timezone) value timezone,
        localInstant (localDay now timezone + 1) value timezone].filter
          (now < ·)).min? = some next := by
    refine Option.isSome_iff_exists.mp (List.isSome_min?_of_mem
      ((mem_candidates _).mpr ⟨tomorrow, first, isFirst, Or.inr rfl⟩))
  obtain ⟨next, isNext⟩ := isSome
  obtain ⟨member, least⟩ := List.min?_eq_some_iff.mp isNext
  refine ⟨next, ?_, ?_, ?_⟩
  · unfold nextFullAt
    rw [valid]
    change (if _ then _ else _) = _
    rw [if_pos daily]
    exact isNext
  · obtain ⟨later, value, isValue, isDue⟩ := (mem_candidates next).mp member
    rcases isDue with isDue | isDue
    · exact ⟨⟨_, value, isValue, isDue.symm⟩, later⟩
    · exact ⟨⟨_, value, isValue, isDue.symm⟩, later⟩
  · rintro _ ⟨⟨day, value, isValue, rfl⟩, later⟩
    have notEarlier : localDay now timezone ≤ day := by
      by_contra earlier
      have passed := localInstant_le (canonical value isValue) (Int.not_le.mp earlier)
      omega
    by_cases today : day = localDay now timezone
    · rw [today] at later ⊢
      exact least _ ((mem_candidates _).mpr ⟨later, value, isValue, Or.inl rfl⟩)
    · have ahead := lt_localInstant value forward
        (show localDay now timezone < localDay now timezone + 1 by omega)
      have isLeast := least _
        ((mem_candidates _).mpr ⟨ahead, value, isValue, Or.inr rfl⟩)
      exact Int.le_trans isLeast (localInstant_mono (by omega))

/-! ## The slots -/

variable [SlotDigests] {scopeFingerprint : Text} {schedule : RefreshSchedule}

/-- What `listed_due_slots` keeps by their keys. -/
def foundSlots (now : Int) (timezone scopeFingerprint : Text) (times : List Text) :
    List RefreshSlot :=
  times.flatMap fun value =>
    ((occurrences (localDay now timezone) value timezone).filter (· ≤ now)).map
      fun due => makeSlot .nightly due (some value) timezone scopeFingerprint

/-- No two of them have the same key unless they are the same. -/
def KeysApart (now : Int) (timezone scopeFingerprint : Text) (times : List Text) :
    Prop :=
  ∀ first ∈ foundSlots now timezone scopeFingerprint times,
    ∀ second ∈ foundSlots now timezone scopeFingerprint times,
      first.slotKey = second.slotKey → first = second

omit [TimeZones] [SlotDigests] in
theorem mem_keepSlot_self (kept : List RefreshSlot) (slot : RefreshSlot) :
    slot ∈ keepSlot kept slot := by
  unfold keepSlot
  split
  · rename_i isKey
    obtain ⟨other, isOther, sameKey⟩ := List.mem_map.mp isKey
    exact List.mem_map.mpr ⟨other, isOther, if_pos sameKey⟩
  · exact List.mem_append_right kept List.mem_cons_self

omit [TimeZones] [SlotDigests] in
theorem mem_keepSlot_of_mem
    {kept : List RefreshSlot} {slot added : RefreshSlot}
    (apart : slot.slotKey = added.slotKey → slot = added) (member : slot ∈ kept) :
    slot ∈ keepSlot kept added := by
  unfold keepSlot
  split
  · refine List.mem_map.mpr ⟨slot, member, ?_⟩
    by_cases sameKey : slot.slotKey = added.slotKey
    · rw [if_pos sameKey, apart sameKey]
    · rw [if_neg sameKey]
  · exact List.mem_append_left _ member

omit [TimeZones] [SlotDigests] in
/-- Where keys tell the added slots apart, all of them stay. -/
theorem mem_foldl_keepSlot_of_mem
    {added kept : List RefreshSlot} {slot : RefreshSlot}
    (apart : ∀ other ∈ added, slot.slotKey = other.slotKey → slot = other)
    (member : slot ∈ kept ∨ slot ∈ added) : slot ∈ added.foldl keepSlot kept := by
  induction added generalizing kept with
  | nil => exact member.resolve_right List.not_mem_nil
  | cons head tail inductionHypothesis =>
      refine inductionHypothesis
        (fun other isOther => apart other (List.mem_cons_of_mem _ isOther)) ?_
      rcases member with isKept | isAdded
      · exact Or.inl (mem_keepSlot_of_mem (apart head List.mem_cons_self) isKept)
      · rcases List.mem_cons.mp isAdded with rfl | later
        · exact Or.inl (mem_keepSlot_self kept slot)
        · exact Or.inr later

theorem listedDueSlots_of_valid
    (valid : validate schedule = some times) :
    listedDueSlots now timezone scopeFingerprint schedule =
      some (((foundSlots now timezone scopeFingerprint times).foldl keepSlot
        []).insertionSort fun left right => left.dueAt ≤ right.dueAt) := by
  have validDaily : validate { schedule with
      frequency := "daily".toList
      rules := true } = some times := by
    unfold validate at valid ⊢
    split at valid
    · rename_i accepted
      cases valid
      simp only [Bool.and_eq_true] at accepted
      rw [if_pos]
      simp only [Bool.and_eq_true]
      exact ⟨⟨accepted.1.1, rfl⟩, by decide⟩
    · cases valid
  unfold listedDueSlots
  rw [validDaily]
  rfl

/-- A slot is due at an instant, the latest occurrence up to now, and is listed. -/
structure LatestSlot (now : Int) (timezone scopeFingerprint : Text)
    (schedule : RefreshSchedule) (slot : RefreshSlot) : Prop where
  isDue : dueSlots now timezone scopeFingerprint schedule = some [slot]
  isGreatest : IsGreatest
    {due | Occurs timezone schedule.fullRefreshTimes due ∧ due ≤ now} slot.dueAt
  isListed : KeysApart now timezone scopeFingerprint schedule.fullRefreshTimes →
    ∃ listed, listedDueSlots now timezone scopeFingerprint schedule = some listed ∧
      slot ∈ listed ∧ ∀ other ∈ listed, other.dueAt ≤ slot.dueAt

theorem exists_latestSlot
    (forward : DateForward timezone) (valid : validate schedule = some times)
    (daily : schedule.frequency = "daily".toList) (scopeFingerprint : Text)
    (now : Int) :
    ∃ slot, LatestSlot now timezone scopeFingerprint schedule slot := by
  obtain ⟨rfl, nonempty, canonical⟩ := validate_times valid
  obtain ⟨due, value, isLatest, member, occurs, isGreatest⟩ :=
    latestDue_isGreatest now forward canonical nonempty schedule.nightlyTime
  refine ⟨makeSlot .nightly due (some value) timezone scopeFingerprint, ?_,
    isGreatest, fun apart => ⟨_, listedDueSlots_of_valid valid, ?_, ?_⟩⟩
  · have isFull : fullDue now timezone schedule.fullRefreshTimes schedule =
        some (due, value) := by
      unfold fullDue
      rw [if_pos daily]
      exact isLatest
    unfold dueSlots
    rw [valid]
    change (fullDue now timezone _ _ >>= _) = _
    rw [isFull]
    rfl
  · have isFound : makeSlot .nightly due (some value) timezone scopeFingerprint ∈
        foundSlots now timezone scopeFingerprint schedule.fullRefreshTimes := by
      refine List.mem_flatMap.mpr ⟨value, member, List.mem_map.mpr ⟨due, ?_, rfl⟩⟩
      exact List.mem_filter.mpr ⟨occurs, decide_eq_true isGreatest.1.2⟩
    rw [List.mem_insertionSort]
    exact mem_foldl_keepSlot_of_mem (fun other isOther => apart _ isFound _ isOther)
      (Or.inr isFound)
  · intro other isListed
    rw [List.mem_insertionSort] at isListed
    rcases mem_foldl_keepSlot isListed with isNone | isFound
    · cases isNone
    · obtain ⟨time, isTime, isSlot⟩ := List.mem_flatMap.mp isFound
      obtain ⟨instant, isInstant, rfl⟩ := List.mem_map.mp isSlot
      obtain ⟨isOccurrence, passed⟩ := List.mem_filter.mp isInstant
      refine isGreatest.2 ⟨?_, of_decide_eq_true passed⟩
      rcases mem_occurrences.mp isOccurrence with isDue | isDue
      · exact ⟨_, time, isTime, isDue.symm⟩
      · exact ⟨_, time, isTime, isDue.symm⟩

/-- The schedule neither skips an occurrence nor invents one: its slot is the last
one up to now, it is listed, the next one is the first after now, and none lies
between the two. Later slots are due no earlier. -/
theorem refresh_cadence_skips_nothing
    (forward : DateForward timezone) (valid : validate schedule = some times)
    (daily : schedule.frequency = "daily".toList) (scopeFingerprint : Text) :
    (∀ now, ∃ slot next,
      LatestSlot now timezone scopeFingerprint schedule slot ∧
      nextFullAt now timezone schedule = some next ∧
      IsLeast {due | Occurs timezone schedule.fullRefreshTimes due ∧ now < due} next ∧
      ∀ due, slot.dueAt < due → due < next →
        ¬ Occurs timezone schedule.fullRefreshTimes due) ∧
    ∀ now later, now ≤ later → ∃ slot laterSlot,
      dueSlots now timezone scopeFingerprint schedule = some [slot] ∧
      dueSlots later timezone scopeFingerprint schedule = some [laterSlot] ∧
      slot.dueAt ≤ laterSlot.dueAt ∧ laterSlot.dueAt ≤ later := by
  constructor
  · intro now
    obtain ⟨slot, isLatest⟩ := exists_latestSlot forward valid daily
      scopeFingerprint now
    obtain ⟨next, isNext, isLeast⟩ := nextFullAt_isLeast now forward valid daily
    rw [(validate_times valid).1] at isLeast
    refine ⟨slot, next, isLatest, isNext, isLeast, fun due after before occurs => ?_⟩
    by_cases passed : due ≤ now
    · have notLater : due ≤ slot.dueAt := isLatest.isGreatest.2 ⟨occurs, passed⟩
      omega
    · have notEarlier : next ≤ due := isLeast.2 ⟨occurs, Int.not_le.mp passed⟩
      omega
  · intro now later le
    obtain ⟨slot, isLatest⟩ := exists_latestSlot forward valid daily
      scopeFingerprint now
    obtain ⟨laterSlot, isLater⟩ := exists_latestSlot forward valid daily
      scopeFingerprint later
    obtain ⟨occurs, passed⟩ := isLatest.isGreatest.1
    exact ⟨slot, laterSlot, isLatest.isDue, isLater.isDue,
      isLater.isGreatest.2 ⟨occurs, Int.le_trans passed le⟩, isLater.isGreatest.1.2⟩

end

/-- The clock goes forward an hour on day 100, at two in the morning. -/
abbrev springForward : TimeZones where
  zone _ := ⟨0, [⟨100 * 86400000000 + 7200000000, 3600000000⟩],
    fun _ member => absurd member (by simp), trivial⟩

/-- Keys that are the time and the minute. -/
abbrev minuteKeys : SlotDigests where
  slotKey identity := identity.nightlyTime.getD [] ++
    Nat.toDigits 10 (identity.dueAt / 60000000).toNat
  scopeFingerprint _ _ := []

def twoTimes : RefreshSchedule where
  nightlyTime := "02:30".toList
  frequency := "daily".toList
  fullRefreshTimes := ["02:30".toList, "14:00".toList]
  rules := true

theorem springForward_dateForward (timezone : Text) :
    letI := springForward
    DateForward timezone := by
  let := springForward
  intro first second le
  change (first + if first < _ then 0 else 3600000000) / dayMicroseconds ≤
    (second + if second < _ then 0 else 3600000000) / dayMicroseconds
  unfold dayMicroseconds
  split <;> split <;> omega

/-- The night's time is skipped, and falls due at the change. -/
theorem spring_refresh_skips_nothing :
    letI := springForward
    letI := minuteKeys
    ∃ slot next,
      dueSlots (100 * 86400000000 + 10800000000) [] [] twoTimes = some [slot] ∧
      slot.dueAt = 100 * 86400000000 + 7200000000 ∧
      nextFullAt (100 * 86400000000 + 10800000000) [] twoTimes = some next ∧
      next = 100 * 86400000000 + 46800000000 ∧
      ∀ due, slot.dueAt < due → due < next →
        ¬ Occurs [] twoTimes.fullRefreshTimes due := by
  let := springForward
  let := minuteKeys
  have valid : validate twoTimes = some twoTimes.fullRefreshTimes := rfl
  obtain ⟨slot, next, isLatest, isNext, _, between⟩ :=
    (refresh_cadence_skips_nothing (springForward_dateForward []) valid rfl []).1
      (100 * 86400000000 + 10800000000)
  have isSlot : slot.dueAt = 100 * 86400000000 + 7200000000 := by
    have isDue := isLatest.isDue
    have computed : dueSlots (100 * 86400000000 + 10800000000) [] [] twoTimes =
        some [makeSlot .nightly (100 * 86400000000 + 7200000000)
          (some "02:30".toList) [] []] := by
      decide +kernel
    rw [computed] at isDue
    cases isDue
    rfl
  have isNextDue : next = 100 * 86400000000 + 46800000000 := by
    have computed : nextFullAt (100 * 86400000000 + 10800000000) [] twoTimes =
        some (100 * 86400000000 + 46800000000) := by
      decide +kernel
    rw [computed] at isNext
    cases isNext
    rfl
  exact ⟨slot, next, isLatest.isDue, isSlot, isNext, isNextDue, between⟩

end ParishKit.Source
