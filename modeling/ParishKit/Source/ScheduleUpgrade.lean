import ParishKit.Source.RefreshRules

/-!
# Upgrading a schedule

The full rules of a stored schedule give its daily times as long as it has one, and
a schedule without rules is converted to rules that give its own times.
-/

namespace ParishKit.Source

open ParishKit.Lib

/-! ## Applying skips -/

theorem applySkips_kept (generated : List Nat) (index : Nat) (skips : List RefreshSkip)
    (full : List Nat) :
    (applySkips generated index skips full).1 =
      full.filter fun value => !skips.any fun skip =>
        generated.contains value && skipped skip value := by
  induction skips generalizing index full with
  | nil =>
      rw [applySkips]
      simp
  | cons skip skips inductionHypothesis =>
      rw [applySkips, inductionHypothesis, List.filter_filter]
      refine List.filter_congr fun value _ => ?_
      have removed : (generated.filter (skipped skip)).contains value =
          (generated.contains value && skipped skip value) := by
        rw [Bool.eq_iff_iff, Bool.and_eq_true, List.contains_iff_mem, List.mem_filter,
          List.contains_iff_mem]
      rw [removed, List.any_cons, Bool.not_or, Bool.and_comm]

/-- Each skip is matched against the generated times, wherever it stands. -/
theorem applySkips_kept_self
    (generated : List Nat) (index : Nat) (skips : List RefreshSkip) :
    (applySkips generated index skips generated).1 =
      generated.filter fun value => !skips.any fun skip => skipped skip value := by
  rw [applySkips_kept]
  refine List.filter_congr fun value member => ?_
  simp only [List.contains_iff_mem.mpr member, Bool.true_and]

theorem mem_applySkips_unmatched
    {generated : List Nat} {index : Nat} {skips : List RefreshSkip} {full : List Nat}
    {unmatched : Nat} (member : unmatched ∈ (applySkips generated index skips full).2) :
    ∃ offset skip, unmatched = index + offset ∧ skips[offset]? = some skip ∧
      ∀ value ∈ generated, skipped skip value = false := by
  induction skips generalizing index full with
  | nil =>
      rw [applySkips] at member
      cases member
  | cons skip skips inductionHypothesis =>
      have later : unmatched ∈ (applySkips generated (index + 1) skips
          (full.filter fun value =>
            !(generated.filter (skipped skip)).contains value)).2 →
          ∃ offset other, unmatched = index + offset ∧
            (skip :: skips)[offset]? = some other ∧
            ∀ value ∈ generated, skipped other value = false := by
        intro isLater
        obtain ⟨offset, other, isIndex, isSkip, matchesNone⟩ :=
          inductionHypothesis isLater
        exact ⟨offset + 1, other, by omega, isSkip, matchesNone⟩
      rw [applySkips] at member
      dsimp only at member
      split at member
      · rename_i nothing
        rcases List.mem_cons.mp member with rfl | isLater
        · refine ⟨0, skip, rfl, rfl, fun value isGenerated => ?_⟩
          rw [List.isEmpty_iff, List.filter_eq_nil_iff] at nothing
          exact Bool.eq_false_iff.mpr (nothing value isGenerated)
        · exact later isLater
      · exact later member

/-! ## The full rules -/

/-- What the page shows of a stored schedule has its times and reports no skip that
matched, and shows the same again. -/
def KeepsMeaning (refreshRules : RefreshRules) : Prop :=
  (∃ shown stored, dailyTimes (fullRules refreshRules) = some shown ∧
      dailyTimes refreshRules = some stored ∧ shown.full = stored.full ∧
      ∀ index ∈ shown.unmatchedSkips,
        ∃ skip, (fullRules refreshRules).skips[index]? = some skip ∧
          ∀ kind, ∀ value ∈ times refreshRules.rules kind, skipped skip value = false) ∧
    fullRules (fullRules refreshRules) = fullRules refreshRules

variable {refreshRules : RefreshRules}

theorem times_quick_of_full
    (allFull : ∀ rule ∈ refreshRules.rules, rule.kind = .full) :
    times refreshRules.rules .quick = [] := by
  unfold times
  rw [List.filter_eq_nil_iff.mpr]
  · rfl
  · intro rule member isQuick
    rw [allFull rule member] at isQuick
    cases isQuick

/-- Without the quick rules the full times are the same. -/
theorem times_filter_full (rules : List RefreshRule) :
    times (rules.filter fun rule => rule.kind == .full) .full = times rules .full := by
  unfold times
  rw [List.filter_filter]
  simp only [Bool.and_self]

theorem fullRules_of_full
    (allFull : ∀ rule ∈ refreshRules.rules, rule.kind = .full) :
    fullRules refreshRules = refreshRules := by
  unfold fullRules
  rw [if_pos (List.all_eq_true.mpr fun rule member => by rw [allFull rule member]; rfl)]

theorem fullRules_full (rule : RefreshRule) (member : rule ∈ (fullRules refreshRules).rules) :
    rule.kind = .full := by
  unfold fullRules at member
  split at member
  · rename_i allFull
    exact eq_of_beq (List.all_eq_true.mp allFull rule member)
  · exact eq_of_beq (List.mem_filter.mp member).2

theorem fullRules_fullRules (refreshRules : RefreshRules) :
    fullRules (fullRules refreshRules) = fullRules refreshRules :=
  fullRules_of_full fullRules_full

theorem times_fullRules (refreshRules : RefreshRules) :
    times (fullRules refreshRules).rules .full = times refreshRules.rules .full := by
  unfold fullRules
  split
  · rfl
  · exact times_filter_full refreshRules.rules

/-- A skip that stays and matches no full time matched no quick time either. -/
theorem quick_of_mem_fullRules
    {skip : RefreshSkip} (member : skip ∈ (fullRules refreshRules).skips)
    (noFull : ∀ value ∈ times refreshRules.rules .full, skipped skip value = false) :
    ∀ value ∈ times refreshRules.rules .quick, skipped skip value = false := by
  intro value isQuick
  unfold fullRules at member
  split at member
  · rename_i allFull
    rw [times_quick_of_full fun rule isRule =>
      eq_of_beq (List.all_eq_true.mp allFull rule isRule)] at isQuick
    cases isQuick
  · have stays := (List.mem_filter.mp member).2
    rw [Bool.or_eq_true, List.any_eq_true] at stays
    rcases stays with ⟨other, isFull, removes⟩ | notQuick
    · rw [noFull other isFull] at removes
      cases removes
    · rw [Bool.not_eq_true', List.any_eq_false] at notQuick
      exact Bool.eq_false_iff.mpr (notQuick value isQuick)

/-- The skips that stay remove the same full times. -/
theorem any_skips_fullRules
    {value : Nat} (isFull : value ∈ times refreshRules.rules .full) :
    ((fullRules refreshRules).skips.any fun skip => skipped skip value) =
      refreshRules.skips.any fun skip => skipped skip value := by
  unfold fullRules
  split
  · rfl
  · dsimp only
    rw [List.any_filter, Bool.eq_iff_iff, List.any_eq_true, List.any_eq_true]
    constructor
    · rintro ⟨skip, member, removes⟩
      exact ⟨skip, member, (Bool.and_eq_true_iff.mp removes).2⟩
    · rintro ⟨skip, member, removes⟩
      refine ⟨skip, member, Bool.and_eq_true_iff.mpr ⟨?_, removes⟩⟩
      rw [Bool.or_eq_true]
      exact Or.inl (List.any_eq_true.mpr ⟨value, isFull, removes⟩)

/-- The document shown has the closed shape exactly when a full rule is left. -/
theorem validShape_fullRules
    (valid : validShape refreshRules true = true) :
    validShape (fullRules refreshRules) true = true ↔
      ∃ rule ∈ refreshRules.rules, rule.kind = .full := by
  unfold fullRules
  split
  · rename_i allFull
    refine ⟨fun _ => ?_, fun _ => valid⟩
    unfold validShape at valid
    simp only [Bool.and_eq_true, decide_eq_true_eq] at valid
    obtain ⟨rule, member⟩ := List.exists_mem_of_length_pos valid.1.1.1.1
    exact ⟨rule, member, eq_of_beq (List.all_eq_true.mp allFull rule member)⟩
  · unfold validShape at valid ⊢
    simp only [Bool.and_eq_true, decide_eq_true_eq, List.all_eq_true] at valid ⊢
    obtain ⟨⟨⟨⟨_, mostRules⟩, eachRule⟩, mostSkips⟩, eachSkip⟩ := valid
    constructor
    · rintro ⟨⟨⟨⟨some, _⟩, _⟩, _⟩, _⟩
      obtain ⟨rule, member⟩ := List.exists_mem_of_length_pos some
      obtain ⟨isRule, isFull⟩ := List.mem_filter.mp member
      exact ⟨rule, isRule, eq_of_beq isFull⟩
    · rintro ⟨rule, isRule, isFull⟩
      refine ⟨⟨⟨⟨?_, ?_⟩, ?_⟩, ?_⟩, ?_⟩
      · exact List.length_pos_of_mem
          (List.mem_filter.mpr ⟨isRule, beq_iff_eq.mpr isFull⟩)
      · exact Nat.le_trans (List.length_filter_le _ _) mostRules
      · exact fun other member => eachRule other (List.mem_filter.mp member).1
      · exact Nat.le_trans (List.length_filter_le _ _) mostSkips
      · exact fun other member => eachSkip other (List.mem_filter.mp member).1

theorem dailyTimes_of_valid (valid : validShape refreshRules true = true) :
    dailyTimes refreshRules =
      some ⟨(sortedTimes (applySkips (times refreshRules.rules .full) 0
          refreshRules.skips (times refreshRules.rules .full)).1).map clock,
        (applySkips (times refreshRules.rules .full) 0 refreshRules.skips
          (times refreshRules.rules .full)).2⟩ :=
  if_pos valid

/-- A stored schedule keeps its meaning exactly when it has a full rule. -/
theorem keepsMeaning_iff (valid : validShape refreshRules true = true) :
    KeepsMeaning refreshRules ↔ ∃ rule ∈ refreshRules.rules, rule.kind = .full := by
  rw [← validShape_fullRules valid]
  constructor
  · rintro ⟨⟨shown, _, isShown, _⟩, _⟩
    by_contra notValid
    unfold dailyTimes at isShown
    rw [if_neg notValid] at isShown
    cases isShown
  · intro shownValid
    refine ⟨⟨_, _, dailyTimes_of_valid shownValid, dailyTimes_of_valid valid, ?_, ?_⟩,
      fullRules_fullRules refreshRules⟩
    · dsimp only
      rw [applySkips_kept_self, applySkips_kept_self, times_fullRules]
      have alike : ∀ value ∈ times refreshRules.rules .full,
          (!(fullRules refreshRules).skips.any fun skip => skipped skip value) =
            !refreshRules.skips.any fun skip => skipped skip value :=
        fun value isFull => by rw [any_skips_fullRules isFull]
      rw [List.filter_congr alike]
    · intro index member
      obtain ⟨offset, skip, isIndex, isSkip, matchesNone⟩ :=
        mem_applySkips_unmatched member
      rw [Nat.zero_add] at isIndex
      rw [times_fullRules] at matchesNone
      rw [isIndex]
      refine ⟨skip, isSkip, fun kind => ?_⟩
      cases kind with
      | full => exact matchesNone
      | quick =>
          exact quick_of_mem_fullRules (List.mem_of_getElem? isSkip) matchesNone

/-! ## Canonical times in order -/

theorem digitChar_lt {digit other : Nat} (lt : digit < other) (small : other < 10) :
    Nat.digitChar digit < Nat.digitChar other := by
  interval_cases other <;> interval_cases digit <;> decide

/-- A canonical time is the clock's of its minutes. -/
theorem clock_minutesOf {value : Text} (canonical : isHhmm value = true) :
    clock (minutesOf value) = value := by
  unfold isHhmm at canonical
  split at canonical
  · rename_i hour hours colon minute minutes
    simp only [Bool.and_eq_true, Bool.or_eq_true, beq_iff_eq] at canonical
    obtain ⟨⟨⟨isHour, rfl⟩, isMinute⟩, isDigit⟩ := canonical
    have minuteValue : digitValue minute ≤ 5 := digitValue_le_of_contains isMinute rfl
    have minuteDigit : minute.isDigit = true :=
      List.all_eq_true.mp (show (['0', '1', '2', '3', '4', '5'].all Char.isDigit) = true
        from rfl) minute (List.contains_iff_mem.mp isMinute)
    have hourDigits : hour.isDigit = true ∧ hours.isDigit = true := by
      rcases isHour with ⟨early, digit⟩ | ⟨rfl, late⟩
      · exact ⟨List.all_eq_true.mp (show (['0', '1'].all Char.isDigit) = true from rfl)
          hour (List.contains_iff_mem.mp early), digit⟩
      · exact ⟨rfl, List.all_eq_true.mp
          (show (['0', '1', '2', '3'].all Char.isDigit) = true from rfl)
          hours (List.contains_iff_mem.mp late)⟩
    obtain ⟨hourChar, hourLt⟩ := digitChar_digitValue hourDigits.1
    obtain ⟨hoursChar, hoursLt⟩ := digitChar_digitValue hourDigits.2
    obtain ⟨minuteChar, _⟩ := digitChar_digitValue minuteDigit
    obtain ⟨minutesChar, minutesLt⟩ := digitChar_digitValue isDigit
    have isMinutes : minutesOf [hour, hours, ':', minute, minutes] =
        (digitValue hour * 10 + digitValue hours) * 60 +
          (digitValue minute * 10 + digitValue minutes) := rfl
    unfold clock twoDigits
    rw [isMinutes]
    generalize digitValue hour = first at *
    generalize digitValue hours = second at *
    generalize digitValue minute = third at *
    generalize digitValue minutes = fourth at *
    have hourIs : ((first * 10 + second) * 60 + (third * 10 + fourth)) / 60 =
        first * 10 + second := by omega
    have minuteIs : ((first * 10 + second) * 60 + (third * 10 + fourth)) % 60 =
        third * 10 + fourth := by omega
    have firstIs : (first * 10 + second) / 10 % 10 = first := by omega
    have secondIs : (first * 10 + second) % 10 = second := by omega
    have thirdIs : (third * 10 + fourth) / 10 % 10 = third := by omega
    have fourthIs : (third * 10 + fourth) % 10 = fourth := by omega
    rw [hourIs, minuteIs, firstIs, secondIs, thirdIs, fourthIs, hourChar, hoursChar,
      minuteChar, minutesChar]
    rfl
  · cases canonical

theorem twoDigits_append_lt
    {number other : Nat} {rest more : Text} (lt : number < other) (small : other < 100) :
    twoDigits number ++ rest < twoDigits other ++ more := by
  unfold twoDigits
  rw [List.cons_append, List.cons_append, List.cons_append, List.cons_append,
    List.cons_lt_cons_iff]
  by_cases tens : number / 10 = other / 10
  · right
    rw [tens]
    refine ⟨rfl, List.cons_lt_cons_iff.mpr (Or.inl ?_)⟩
    exact digitChar_lt (by omega) (by omega)
  · left
    exact digitChar_lt (by omega) (by omega)

/-- Later minutes have the later text. -/
theorem clock_lt {value later : Nat} (lt : value < later) (inDay : later < 1440) :
    clock value < clock later := by
  unfold clock
  by_cases sameHour : value / 60 = later / 60
  · have minutes : twoDigits (value % 60) ++ [] < twoDigits (later % 60) ++ [] :=
      twoDigits_append_lt (by omega) (by omega)
    rw [List.append_nil, List.append_nil] at minutes
    rw [sameHour]
    exact List.append_left_lt (List.cons_lt_cons_iff.mpr (Or.inr ⟨rfl, minutes⟩))
  · exact twoDigits_append_lt (by omega) (by omega)

theorem minutesOf_lt_of_lt
    {value later : Text} (canonical : isHhmm value = true) (isLater : isHhmm later = true)
    (lt : value < later) : minutesOf value < minutesOf later := by
  by_contra notBefore
  have inDay := minutesOf_lt canonical
  rw [← clock_minutesOf canonical, ← clock_minutesOf isLater] at lt
  rcases Nat.lt_or_eq_of_le (Nat.not_lt.mp notBefore) with after | same
  · exact lt_asymm lt (clock_lt after inDay)
  · rw [same] at lt
    exact lt_irrefl _ lt

/-- A canonical list's minutes ascend. -/
theorem minutes_ascend {values : List Text} (canonical : canonicalList values = true) :
    (values.map minutesOf).Pairwise (· < ·) := by
  unfold canonicalList at canonical
  simp only [Bool.and_eq_true, List.all_eq_true, beq_iff_eq] at canonical
  obtain ⟨⟨_, each⟩, inOrder⟩ := canonical
  have sorted : values.Pairwise (· ≤ ·) := by
    rw [inOrder]
    exact List.pairwise_insertionSort _ _
  have distinct : values.Nodup := by
    rw [inOrder]
    exact (List.perm_insertionSort _ _).nodup_iff.mpr (List.nodup_dedup _)
  rw [List.pairwise_map]
  have strict := sorted.and distinct
  refine strict.imp_of_mem fun first second order => ?_
  exact minutesOf_lt_of_lt (each _ first) (each _ second)
    (lt_of_le_of_ne order.1 order.2)

theorem sortedTimes_of_ascending {values : List Nat} (ascending : values.Pairwise (· < ·)) :
    sortedTimes values = values := by
  unfold sortedTimes
  have distinct : values.Nodup := ascending.imp fun lt => Nat.ne_of_lt lt
  rw [distinct.dedup]
  exact (ascending.imp fun lt => Nat.le_of_lt lt).insertionSort_eq

/-! ## A schedule without rules -/

/-- The rows a daily schedule is converted to. -/
def listedRules (values : List Text) : RefreshRules :=
  ⟨values.map (.single .full), [], false⟩

theorem times_listedRules (values : List Text) :
    times (listedRules values).rules .full = values.map minutesOf := by
  unfold times listedRules
  dsimp only
  induction values with
  | nil => rfl
  | cons value values inductionHypothesis =>
      rw [List.map_cons, List.filter_cons_of_pos rfl, List.flatMap_cons,
        inductionHypothesis]
      rfl

theorem validShape_listedRules {values : List Text} (canonical : canonicalList values = true) :
    validShape (listedRules values) true = true := by
  unfold canonicalList at canonical
  simp only [Bool.and_eq_true, decide_eq_true_eq, List.all_eq_true] at canonical
  obtain ⟨⟨⟨some, most⟩, each⟩, _⟩ := canonical
  unfold validShape listedRules
  simp only [Bool.and_eq_true, decide_eq_true_eq, List.all_eq_true, List.length_map]
  refine ⟨⟨⟨⟨some, most⟩, ?_⟩, by simp⟩, by simp⟩
  intro rule member
  obtain ⟨value, isValue, rfl⟩ := List.mem_map.mp member
  exact each value isValue

/-- Its rules give the times they list. -/
theorem dailyTimes_listedRules {values : List Text} (canonical : canonicalList values = true) :
    dailyTimes (listedRules values) = some ⟨values, []⟩ := by
  have ascending := minutes_ascend canonical
  have each : ∀ value ∈ values, isHhmm value = true := by
    unfold canonicalList at canonical
    simp only [Bool.and_eq_true, List.all_eq_true] at canonical
    exact canonical.1.2
  have isClock : (values.map minutesOf).map clock = values := by
    rw [List.map_map]
    calc values.map (clock ∘ minutesOf) = values.map id :=
          List.map_congr_left fun value member => clock_minutesOf (each value member)
      _ = values := List.map_id values
  have allKept : ((values.map minutesOf).filter fun value =>
      !(listedRules values).skips.any fun skip => skipped skip value) =
      values.map minutesOf :=
    List.filter_eq_self.mpr fun _ _ => rfl
  rw [dailyTimes_of_valid (validShape_listedRules canonical), applySkips_kept_self,
    times_listedRules, allKept, sortedTimes_of_ascending ascending, isClock]
  rfl

theorem canonical_of_validate
    {schedule : RefreshSchedule} {values : List Text}
    (valid : validate schedule = some values) :
    schedule.fullRefreshTimes = values ∧ canonicalList values = true ∧
      values.head? = some schedule.nightlyTime := by
  unfold validate at valid
  split at valid
  · rename_i checked
    cases valid
    simp only [Bool.and_eq_true] at checked
    have canonical := checked.1.1.2
    unfold canonicalTimes at canonical
    rw [Bool.and_eq_true, beq_iff_eq] at canonical
    exact ⟨rfl, canonical⟩
  · cases valid

/-- A valid daily schedule without rules is converted to rules with its times. -/
theorem storedSettings_convertedRules
    {settings : ScheduleSettings} {values : List Text}
    (noRules : settings.refreshRules = none)
    (daily : (refreshSettings settings.cadence).frequency = "daily".toList)
    (valid : validate (refreshSettings settings.cadence) = some values) :
    ∃ rules stored, convertedRules settings = some rules ∧
      storedSettings rules = some stored ∧ stored.fullRefreshTimes = some values ∧
      stored.nightlyTime = some (refreshSettings settings.cadence).nightlyTime := by
  obtain ⟨isTimes, canonical, isFirst⟩ := canonical_of_validate valid
  have converted : convertedRules settings = some (listedRules values) := by
    unfold convertedRules
    rw [noRules]
    dsimp only
    rw [if_pos daily, isTimes]
    rfl
  cases values with
  | nil => cases isFirst
  | cons nightly rest =>
      have isNightly : nightly = (refreshSettings settings.cadence).nightlyTime :=
        Option.some.inj isFirst
      have isStored : storedSettings (listedRules (nightly :: rest)) =
          some
            { fullRefresh := some "daily".toList
              nightlyTime := some nightly
              fullRefreshTimes := some (nightly :: rest)
              deltaRefresh := some "off".toList
              quickRefreshTimes := none
              refreshRules := some (listedRules (nightly :: rest)) } := by
        unfold storedSettings
        rw [dailyTimes_listedRules canonical]
      exact ⟨_, _, converted, isStored, rfl, congrArg some isNightly⟩

/-! ## Stored settings are what the rules produce -/

theorem of_storedSettings
    {settings : ScheduleSettings} (stored : storedSettings refreshRules = some settings) :
    settings.refreshRules = some refreshRules ∧
      ∃ result, dailyTimes refreshRules = some result := by
  unfold storedSettings at stored
  split at stored
  · rename_i isResult
    cases stored
    exact ⟨rfl, _, isResult⟩
  · cases stored

/-- The validator never finds that they are not. -/
theorem checkSchedule_storedSettings
    {settings : ScheduleSettings} (stored : storedSettings refreshRules = some settings)
    (kept : List Text) :
    ∃ problems, checkSchedule settings kept = some problems ∧
      ∀ problem ∈ problems, problem.code ≠ .rulesMismatch := by
  obtain ⟨isRules, result, isResult⟩ := of_storedSettings stored
  unfold checkSchedule
  rw [isRules, Option.bind_eq_bind, Option.bind_some, isResult, Option.bind_eq_bind,
    Option.bind_some, stored]
  refine ⟨_, rfl, fun problem member => ?_⟩
  dsimp only [Option.map_some] at member
  rw [if_pos rfl, ite_self, List.append_nil] at member
  simp only [List.mem_append, List.mem_map] at member
  rcases member with (((member | member) | ⟨_, _, rfl⟩) | ⟨_, _, rfl⟩) | ⟨_, _, rfl⟩
  · split at member
    · rw [List.mem_singleton.mp member]
      decide
    · cases member
  · split at member
    · rw [List.mem_singleton.mp member]
      decide
    · cases member
  · intro mismatch
    cases mismatch
  · intro mismatch
    cases mismatch
  · intro mismatch
    cases mismatch

/-- A stored schedule keeps its meaning exactly when it has a full rule. One without
rules is converted to its own times, and what the rules produce never mismatches. -/
theorem schedule_upgrade_keeps_meaning
    (refreshRules : RefreshRules) (settings : ScheduleSettings) (values kept : List Text) :
    (validShape refreshRules true = true →
      (KeepsMeaning refreshRules ↔ ∃ rule ∈ refreshRules.rules, rule.kind = .full)) ∧
    (settings.refreshRules = none →
      (refreshSettings settings.cadence).frequency = "daily".toList →
      validate (refreshSettings settings.cadence) = some values →
      ∃ rules stored, convertedRules settings = some rules ∧
        storedSettings rules = some stored ∧
        stored.fullRefreshTimes =
          some (refreshSettings settings.cadence).fullRefreshTimes ∧
        stored.nightlyTime = some (refreshSettings settings.cadence).nightlyTime) ∧
    (storedSettings refreshRules = some settings →
      ∃ problems, checkSchedule settings kept = some problems ∧
        ∀ problem ∈ problems, problem.code ≠ .rulesMismatch) := by
  refine ⟨fun valid => keepsMeaning_iff valid, ?_,
    fun stored => checkSchedule_storedSettings stored kept⟩
  intro noRules daily valid
  rw [(canonical_of_validate valid).1]
  exact storedSettings_convertedRules noRules daily valid

/-- A stored schedule of quick rules alone. -/
def quickOnly : RefreshRules :=
  ⟨[.every .quick 60 "00:00".toList "23:00".toList], [], false⟩

/-- It has the closed shape and no daily time, and what the page shows of it is
refused. -/
theorem quick_rules_alone_lose_meaning :
    validShape quickOnly true = true ∧ dailyTimes quickOnly = some ⟨[], []⟩ ∧
      dailyTimes (fullRules quickOnly) = none ∧ ¬ KeepsMeaning quickOnly := by
  refine ⟨by decide, by decide, by decide, ?_⟩
  rintro ⟨⟨shown, _, isShown, _⟩, _⟩
  have refused : dailyTimes (fullRules quickOnly) = none := by decide
  rw [refused] at isShown
  cases isShown

end ParishKit.Source
