import ParishKit.Campaigns.CanonicalRule

/-!
# Cutting a repeat rule

A rule with another start or another end. From one of its dates a rule gives its
dates from there on, and up to the day before it gives the earlier ones.
-/

namespace ParishKit.Campaigns

open ParishKit.Lib

/-! ## Members replaced -/

/-- `rule | {key: value}`. -/
def withMember (rule : Members) (key : String) (value : Json) : Members :=
  putRecord Prod.fst rule (key, value)

@[simp] theorem member?_withMember_self (rule : Members) (key : String) (value : Json) :
    member? (withMember rule key value) key = some value := by
  unfold withMember member?
  induction rule with
  | nil => simp [putRecord]
  | cons entry rest inductionHypothesis =>
      rw [putRecord]
      by_cases same : entry.1 = key
      · simp [same]
      · have apart : (entry.1 == key) = false := beq_eq_false_iff_ne.mpr same
        rw [if_neg same, List.find?_cons, apart]
        exact inductionHypothesis

theorem member?_withMember_of_ne {rule : Members} {key other : String} (value : Json)
    (apart : other ≠ key) : member? (withMember rule key value) other = member? rule other := by
  have notKey : (key == other) = false := beq_eq_false_iff_ne.mpr apart.symm
  unfold withMember member?
  induction rule with
  | nil => simp [putRecord, notKey]
  | cons entry rest inductionHypothesis =>
      rw [putRecord]
      by_cases same : entry.1 = key
      · rw [if_pos same, List.find?_cons, List.find?_cons, same, notKey]
      · rw [if_neg same, List.find?_cons, List.find?_cons]
        cases entry.1 == other with
        | true => rfl
        | false => exact inductionHypothesis

/-- A rule is read by three of its members. -/
theorem ReadAs.congr {rule other : Members} {meaning : Repeat} (read : ReadAs rule meaning)
    (frequency : member? other "frequency" = member? rule "frequency")
    (weekdays : member? other "weekdays" = member? rule "weekdays")
    (monthly : member? other "monthly" = member? rule "monthly") : ReadAs other meaning := by
  have sameWeekdays : weekdaysGiven other = weekdaysGiven rule := by
    unfold weekdaysGiven
    rw [weekdays]
  have sameMonthly : serverMonthly other = serverMonthly rule := by
    unfold serverMonthly
    rw [monthly]
  cases read with
  | daily isFrequency => exact .daily (frequency.trans isFrequency)
  | weekly chosen isFrequency given some bounded =>
      exact .weekly chosen (frequency.trans isFrequency) (sameWeekdays.trans given) some bounded
  | dayOfMonth day isFrequency isDay noOrdinal noWeekday bounded =>
      rw [← sameMonthly] at isDay noOrdinal noWeekday
      exact .dayOfMonth day (frequency.trans isFrequency) isDay noOrdinal noWeekday bounded
  | weekdayOfMonth ordinal weekday isFrequency noDay isOrdinal isWeekday allowed bounded =>
      rw [← sameMonthly] at noDay isOrdinal isWeekday
      exact .weekdayOfMonth ordinal weekday (frequency.trans isFrequency) noDay isOrdinal
        isWeekday allowed bounded

/-! ## The dates of a rule -/

theorem ruleDates_stored {rule stored : Members}
    (isStored : canonicalRule rule = some (some stored)) : ruleDates stored = ruleDates rule := by
  unfold ruleDates
  rw [expand_stored isStored]

theorem accepted_of_ruleDates {rule : Members} {dates : List Text}
    (isDates : ruleDates rule = some dates) :
    ∃ first last, Accepted rule first last (meaningOf rule) := by
  unfold ruleDates at isDates
  cases isExpanded : expand rule with
  | none =>
      rw [isExpanded] at isDates
      cases isDates
  | some outcome =>
      cases outcome with
      | error code =>
          rw [isExpanded] at isDates
          cases isDates
      | expanded expansion => exact accepted_of_expand isExpanded

theorem ruleDates_exists {rule stored : Members}
    (isStored : canonicalRule rule = some (some stored)) :
    ∃ dates, ruleDates rule = some dates := by
  obtain ⟨first, last, accepted, _⟩ := accepted_of_canonicalRule isStored
  unfold ruleDates
  rw [accepted.expand_eq]
  exact ⟨_, rfl⟩

section

variable {rule : Members} {first last : CivilDate} {meaning : Repeat}

/-- The numbers of the dates, in order. -/
theorem Accepted.ruleDates_eq (accepted : Accepted rule first last meaning) :
    ruleDates rule = some (((days first.ordinal
      (last.ordinal - first.ordinal + 1).toNat).filter meaning.picks).map
        fun number => isoDate (civil number)) := by
  unfold ruleDates
  rw [accepted.expand_eq, Option.bind_eq_bind, Option.bind_some]
  dsimp only
  unfold found
  rw [visitAll_repeat]
  rfl

theorem Accepted.mem_ruleDates (accepted : Accepted rule first last meaning)
    {dates : List Text} (isDates : ruleDates rule = some dates) (day : Text) :
    day ∈ dates ↔ ∃ number, first.ordinal ≤ number ∧ number ≤ last.ordinal ∧
      meaning.picks number = true ∧ isoDate (civil number) = day := by
  have ordered := accepted.ordered
  rw [accepted.ruleDates_eq, Option.some_inj] at isDates
  rw [← isDates, List.mem_map]
  refine exists_congr fun number => ?_
  rw [List.mem_filter, mem_days]
  have upper : first.ordinal + ((last.ordinal - first.ordinal + 1).toNat : Int) =
      last.ordinal + 1 := by omega
  rw [upper, Int.lt_add_one_iff, and_assoc, and_assoc]

/-- The days of a rule are the days of the years 1 to 9999. -/
theorem Accepted.inYears (accepted : Accepted rule first last meaning) {number : Int}
    (lower : first.ordinal ≤ number) (upper : number ≤ last.ordinal) :
    dateMin ≤ number ∧ number ≤ dateMax := by
  have early := accepted.early
  have start := (date_of_serverDay accepted.start).2.2.2.1
  omega

end

theorem isoDate_civil_lt_iff {first second : Int} (firstLower : dateMin ≤ first)
    (firstUpper : first ≤ dateMax) (secondLower : dateMin ≤ second)
    (secondUpper : second ≤ dateMax) :
    isoDate (civil first) < isoDate (civil second) ↔ first < second := by
  have firstYears := year_of_range firstLower firstUpper
  have secondYears := year_of_range secondLower secondUpper
  have firstValid := civil_valid first
  have secondValid := civil_valid second
  rw [isoDate_lt_iff firstValid secondValid (firstValid.short (by omega) firstYears.2)
    (secondValid.short (by omega) secondYears.2), ordinal_civil, ordinal_civil]

theorem serverDay_civil {number : Int} (lower : dateMin ≤ number) (upper : number ≤ dateMax) :
    serverDay (some (.string (isoDate (civil number)))) = some (civil number) := by
  have years := year_of_range lower upper
  exact serverDay_isoDate (civil_valid number) years.1 years.2

/-- A rule gives each of its dates once. -/
theorem ruleDates_nodup {rule : Members} {dates : List Text}
    (isDates : ruleDates rule = some dates) : dates.Nodup := by
  obtain ⟨first, last, accepted⟩ := accepted_of_ruleDates isDates
  have ordered := accepted.ordered
  rw [accepted.ruleDates_eq, Option.some_inj] at isDates
  rw [← isDates]
  refine List.Nodup.map_on ?_ ((days_increasing _ _).imp ne_of_lt |>.filter _)
  intro number member other otherMember same
  have inside := mem_days.mp (List.mem_filter.mp member).1
  have otherInside := mem_days.mp (List.mem_filter.mp otherMember).1
  obtain ⟨lower, upper⟩ := accepted.inYears inside.1 (by omega)
  obtain ⟨otherLower, otherUpper⟩ := accepted.inYears otherInside.1 (by omega)
  have less := isoDate_civil_lt_iff lower upper otherLower otherUpper
  have more := isoDate_civil_lt_iff otherLower otherUpper lower upper
  rw [same] at less more
  have irrefl : ¬ isoDate (civil other) < isoDate (civil other) := List.lt_irrefl _
  rw [iff_false_left irrefl] at less more
  omega

/-! ## Another start -/

/-- The rule from one of its dates on. -/
theorem Accepted.cutStart {rule : Members} {first last : CivilDate} {meaning : Repeat}
    (accepted : Accepted rule first last meaning) {number : Int}
    (lower : first.ordinal ≤ number) (upper : number ≤ last.ordinal) :
    Accepted (withMember rule "start" (.string (isoDate (civil number)))) (civil number) last
      meaning := by
  obtain ⟨inLower, inUpper⟩ := accepted.inYears lower upper
  have within := accepted.within
  refine ⟨?_, ?_, ?_, ?_, accepted.early, accepted.read.congr ?_ ?_ ?_⟩
  · rw [member?_withMember_self]
    exact serverDay_civil inLower inUpper
  · rw [member?_withMember_of_ne _ (by decide)]
    exact accepted.stop
  · rw [ordinal_civil]
    exact upper
  · rw [ordinal_civil]
    omega
  · exact member?_withMember_of_ne _ (by decide)
  · exact member?_withMember_of_ne _ (by decide)
  · exact member?_withMember_of_ne _ (by decide)

/-- The rule up to a day. -/
theorem Accepted.cutEnd {rule : Members} {first last : CivilDate} {meaning : Repeat}
    (accepted : Accepted rule first last meaning) {number : Int}
    (lower : first.ordinal ≤ number) (upper : number ≤ last.ordinal) :
    Accepted (withMember rule "end" (.string (isoDate (civil number)))) first (civil number)
      meaning := by
  obtain ⟨inLower, inUpper⟩ := accepted.inYears lower upper
  have within := accepted.within
  have early := accepted.early
  refine ⟨?_, ?_, ?_, ?_, ?_, accepted.read.congr ?_ ?_ ?_⟩
  · rw [member?_withMember_of_ne _ (by decide)]
    exact accepted.start
  · rw [member?_withMember_self]
    exact serverDay_civil inLower inUpper
  · rw [ordinal_civil]
    exact lower
  · rw [ordinal_civil]
    omega
  · rw [ordinal_civil]
    omega
  · exact member?_withMember_of_ne _ (by decide)
  · exact member?_withMember_of_ne _ (by decide)
  · exact member?_withMember_of_ne _ (by decide)

/-- From one of its dates, a rule is stored, and gives its dates from there on. -/
theorem canonicalRule_from {rule : Members} {dates : List Text}
    (isDates : ruleDates rule = some dates) {cut : Text} (isCut : cut ∈ dates) :
    ∃ stored later, canonicalRule (withMember rule "start" (.string cut)) = some (some stored) ∧
      ruleDates stored = some later ∧ ∀ day, day ∈ later ↔ day ∈ dates ∧ ¬ day < cut := by
  obtain ⟨first, last, accepted⟩ := accepted_of_ruleDates isDates
  obtain ⟨number, lower, upper, picked, rfl⟩ := (accepted.mem_ruleDates isDates cut).mp isCut
  obtain ⟨inLower, inUpper⟩ := accepted.inYears lower upper
  have moved := accepted.cutStart lower upper
  obtain ⟨later, isLater⟩ := ruleDates_exists moved.canonicalRule_eq
  refine ⟨_, later, moved.canonicalRule_eq, ?_, ?_⟩
  · rw [ruleDates_stored moved.canonicalRule_eq, isLater]
  · intro day
    rw [moved.mem_ruleDates isLater, accepted.mem_ruleDates isDates, ordinal_civil]
    constructor
    · rintro ⟨other, isLate, isEarly, isPicked, rfl⟩
      obtain ⟨otherLower, otherUpper⟩ := accepted.inYears (le_trans lower isLate) isEarly
      refine ⟨⟨other, by omega, isEarly, isPicked, rfl⟩, ?_⟩
      rw [isoDate_civil_lt_iff otherLower otherUpper inLower inUpper]
      omega
    · rintro ⟨⟨other, isLate, isEarly, isPicked, rfl⟩, notBefore⟩
      obtain ⟨otherLower, otherUpper⟩ := accepted.inYears isLate isEarly
      rw [isoDate_civil_lt_iff otherLower otherUpper inLower inUpper] at notBefore
      exact ⟨other, by omega, isEarly, isPicked, rfl⟩

/-! ## Another end -/

/-- The day before a date. The other texts that Python reads as a date are not
canonical; the first date there is has no day before. -/
def dayBefore (day : Text) : Option Text := do
  let date ← serverDay (some (.string day))
  if date.ordinal = dateMin then none
  else some (isoDate (civil (date.ordinal - 1)))

/-- Up to the day before one of its dates, a rule with an earlier date is stored,
and gives its earlier dates. -/
theorem canonicalRule_until {rule : Members} {dates : List Text}
    (isDates : ruleDates rule = some dates) {cut earlier : Text} (isCut : cut ∈ dates)
    (isEarlier : earlier ∈ dates) (before : earlier < cut) :
    ∃ last stored kept, dayBefore cut = some last ∧
      canonicalRule (withMember rule "end" (.string last)) = some (some stored) ∧
      ruleDates stored = some kept ∧ ∀ day, day ∈ kept ↔ day ∈ dates ∧ day < cut := by
  obtain ⟨first, last, accepted⟩ := accepted_of_ruleDates isDates
  obtain ⟨number, lower, upper, picked, rfl⟩ := (accepted.mem_ruleDates isDates cut).mp isCut
  obtain ⟨start, startLower, startUpper, startPicked, rfl⟩ :=
    (accepted.mem_ruleDates isDates earlier).mp isEarlier
  obtain ⟨inLower, inUpper⟩ := accepted.inYears lower upper
  obtain ⟨startInLower, startInUpper⟩ := accepted.inYears startLower startUpper
  rw [isoDate_civil_lt_iff startInLower startInUpper inLower inUpper] at before
  have isBefore : dayBefore (isoDate (civil number)) = some (isoDate (civil (number - 1))) := by
    unfold dayBefore
    rw [serverDay_civil inLower inUpper, Option.bind_eq_bind, Option.bind_some, ordinal_civil,
      if_neg (by omega)]
  have moved := accepted.cutEnd (show first.ordinal ≤ number - 1 by omega)
    (show number - 1 ≤ last.ordinal by omega)
  obtain ⟨kept, isKept⟩ := ruleDates_exists moved.canonicalRule_eq
  refine ⟨_, _, kept, isBefore, moved.canonicalRule_eq, ?_, ?_⟩
  · rw [ruleDates_stored moved.canonicalRule_eq, isKept]
  · intro day
    rw [moved.mem_ruleDates isKept, accepted.mem_ruleDates isDates, ordinal_civil]
    constructor
    · rintro ⟨other, isLate, isEarly, isPicked, rfl⟩
      obtain ⟨otherLower, otherUpper⟩ := accepted.inYears isLate (by omega)
      refine ⟨⟨other, isLate, by omega, isPicked, rfl⟩, ?_⟩
      rw [isoDate_civil_lt_iff otherLower otherUpper inLower inUpper]
      omega
    · rintro ⟨⟨other, isLate, isEarly, isPicked, rfl⟩, isBefore⟩
      obtain ⟨otherLower, otherUpper⟩ := accepted.inYears isLate isEarly
      rw [isoDate_civil_lt_iff otherLower otherUpper inLower inUpper] at isBefore
      exact ⟨other, isLate, by omega, isPicked, rfl⟩

end ParishKit.Campaigns
