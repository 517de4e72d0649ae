import ParishKit.Campaigns.RepeatDays

/-!
# The two expanders of a repeat rule

When they agree: the dates have to be read alike, the numbers that count have to
be integers, and the last date there is must not be reached.
-/

namespace ParishKit.Campaigns

open ParishKit.Lib

/-! ## Numbers -/

theorem isNumber_int (number other : Int) :
    isNumber (some (.int number)) other = (number == other) := by
  unfold isNumber number?
  rw [Bool.eq_iff_iff, beq_iff_eq, beq_iff_eq, Option.some_inj, Int.cast_inj]

theorem inRange_int (number low high : Int) :
    inRange (some (.int number)) low high = index (some (.int number)) low high := by
  unfold inRange number? index
  have isInteger : (number : Rat).isInt = true := by simp [Rat.isInt]
  simp [isInteger]

theorem isInt_eq_true {value : Option Json} :
    isInt value = true ↔ ∃ number, value = some (.int number) := by
  unfold isInt
  split
  · rename_i number
    exact ⟨fun _ => ⟨number, rfl⟩, fun _ => rfl⟩
  · rename_i other
    refine ⟨nofun, ?_⟩
    rintro ⟨number, isNumber⟩
    exact absurd isNumber (other number)

/-- The server counts the integers of the range. -/
theorem index_eq (value : Option Json) (low high : Int) :
    index value low high = (isInt value && inRange value low high) := by
  cases isInteger : isInt value with
  | true =>
      obtain ⟨number, rfl⟩ := isInt_eq_true.mp isInteger
      rw [inRange_int]
      rfl
  | false =>
      unfold index
      split
      · cases isInteger
      · rfl

theorem serverByDay_eq (rule : Members) :
    serverByDay rule =
      (isInt (member? (serverMonthly rule) "day") && scriptByDay rule) :=
  index_eq _ 1 31

theorem serverByWeekday_eq (rule : Members) :
    serverByWeekday rule =
      (isInt (member? (serverMonthly rule) "ordinal") &&
        isInt (member? (serverMonthly rule) "weekday") &&
        scriptByWeekday rule) := by
  unfold serverByWeekday scriptByWeekday
  have same : scriptMonthly rule = serverMonthly rule := rfl
  rw [index_eq, same]
  cases isOrdinal : isInt (member? (serverMonthly rule) "ordinal") with
  | false => rfl
  | true =>
      obtain ⟨number, isNumber⟩ := isInt_eq_true.mp isOrdinal
      have ordinals : (number? (member? (serverMonthly rule) "ordinal")).any
          (fun given => [1, 2, 3, 4, -1].contains given) =
          [1, 2, 3, 4, -1].contains
            (integer (member? (serverMonthly rule) "ordinal")) := by
        rw [isNumber, Bool.eq_iff_iff]
        simp only [number?, integer, Option.any_some, List.contains_iff_mem,
          List.mem_cons, List.not_mem_nil, or_false]
        norm_cast
      rw [ordinals]
      cases [1, 2, 3, 4, -1].contains
          (integer (member? (serverMonthly rule) "ordinal")) <;>
        cases isInt (member? (serverMonthly rule) "weekday") <;> rfl

/-! ## The tests of the members -/

/-- The error of a rule whose members are refused. -/
def refusal (frequency : Option Json) : RuleError :=
  if isText frequency "weekly" then .weekdays
  else if isText frequency "monthly" then .monthly
  else .frequency

theorem isText_unique {value : Option Json} {first : String} (second : String)
    (isFirst : isText value first = true) (different : first.toList ≠ second.toList) :
    isText value second = false := by
  unfold isText at isFirst ⊢
  split at isFirst
  · rw [beq_iff_eq] at isFirst
    rw [isFirst]
    exact beq_eq_false_iff_ne.mpr different
  · cases isFirst

/-- The order of the tests does not matter, only one frequency is given. -/
theorem checked_eq {Result : Type} (frequency : Option Json)
    (weekly mixed monthly : Bool) (accepted : Result)
    (refused : RuleError → Result) :
    (if (isText frequency "weekly" && !weekly) = true then
      refused .weekdays
    else if (isText frequency "monthly" && (mixed || !monthly)) = true then
      refused .monthly
    else if (!(["daily", "weekly", "monthly"].any (isText frequency))) = true then
      refused .frequency
    else
      accepted) =
    if (isText frequency "daily" || isText frequency "weekly" && weekly ||
        isText frequency "monthly" && (!mixed && monthly)) = true then
      accepted
    else
      refused (refusal frequency) := by
  unfold refusal
  simp only [List.any_cons, List.any_nil, Bool.or_false]
  cases isDaily : isText frequency "daily" with
  | true =>
      rw [isText_unique "weekly" isDaily (by decide),
        isText_unique "monthly" isDaily (by decide)]
      rfl
  | false =>
      cases isWeekly : isText frequency "weekly" with
      | true =>
          rw [isText_unique "monthly" isWeekly (by decide)]
          cases weekly <;> rfl
      | false =>
          cases isText frequency "monthly" <;> cases mixed <;> cases monthly <;>
            rfl

def serverTakes (rule : Members) : Bool :=
  isText (member? rule "frequency") "daily" ||
    isText (member? rule "frequency") "weekly" &&
      (!(weekdaysGiven rule).isEmpty &&
        (weekdaysGiven rule).all fun value => index (some value) 0 6) ||
    isText (member? rule "frequency") "monthly" &&
      (!mixed (serverMonthly rule) && (serverByDay rule || serverByWeekday rule))

def scriptTakes (rule : Members) : Bool :=
  isText (member? rule "frequency") "daily" ||
    isText (member? rule "frequency") "weekly" &&
      (!(weekdaysGiven rule).isEmpty &&
        (weekdaysGiven rule).all fun value => inRange (some value) 0 6) ||
    isText (member? rule "frequency") "monthly" &&
      (!mixed (scriptMonthly rule) && (scriptByDay rule || scriptByWeekday rule))

/-- The numbers that the frequency uses are integers. -/
structure UsesIntegers (rule : Members) : Prop where
  weekdays : isText (member? rule "frequency") "weekly" = true →
    ∀ value ∈ weekdaysGiven rule, isInt (some value) = true
  byDay : isText (member? rule "frequency") "monthly" = true →
    scriptByDay rule = true →
    isInt (member? (scriptMonthly rule) "day") = true
  byWeekday : isText (member? rule "frequency") "monthly" = true →
    scriptByWeekday rule = true →
    isInt (member? (scriptMonthly rule) "ordinal") = true ∧
      isInt (member? (scriptMonthly rule) "weekday") = true

theorem inRange_isSome {value : Option Json} {low high : Int}
    (inside : inRange value low high = true) : value.isSome = true := by
  cases value with
  | none => cases inside
  | some given => rfl

theorem isInt_isSome {value : Option Json} (isInteger : isInt value = true) :
    value.isSome = true := by
  obtain ⟨number, rfl⟩ := isInt_eq_true.mp isInteger
  rfl

/-- A rule for a day of the month is not one for a weekday of it. -/
theorem mixed_of_both {monthly : Members}
    (day : (member? monthly "day").isSome = true)
    (weekday : (member? monthly "weekday").isSome = true) :
    mixed monthly = true := by
  unfold mixed
  rw [day, weekday, Bool.or_true]
  rfl

/-- What the server takes is what the script takes with integers for numbers. -/
theorem serverTakes_iff {rule : Members} :
    serverTakes rule = true ↔ scriptTakes rule = true ∧ UsesIntegers rule := by
  have sameMonthly : scriptMonthly rule = serverMonthly rule := rfl
  unfold serverTakes scriptTakes
  rw [sameMonthly]
  cases isDaily : isText (member? rule "frequency") "daily" with
  | true =>
      have notWeekly := isText_unique "weekly" isDaily (by decide)
      have notMonthly := isText_unique "monthly" isDaily (by decide)
      simp only [Bool.true_or, true_and, true_iff]
      refine ⟨?_, ?_, ?_⟩
      · rw [notWeekly]
        nofun
      · rw [notMonthly]
        nofun
      · rw [notMonthly]
        nofun
  | false =>
      cases isWeekly : isText (member? rule "frequency") "weekly" with
      | true =>
          have notMonthly := isText_unique "monthly" isWeekly (by decide)
          simp only [notMonthly, Bool.false_or, Bool.true_and, Bool.false_and,
            Bool.or_false, Bool.and_eq_true, List.all_eq_true, index_eq]
          constructor
          · rintro ⟨given, all⟩
            refine ⟨⟨given, fun value member => (all value member).2⟩,
              fun _ value member => (all value member).1, ?_, ?_⟩
            · rw [notMonthly]
              nofun
            · rw [notMonthly]
              nofun
          · rintro ⟨⟨given, all⟩, integers⟩
            exact ⟨given, fun value member =>
              ⟨integers.weekdays isWeekly value member, all value member⟩⟩
      | false =>
          cases isMonthly : isText (member? rule "frequency") "monthly" with
          | false =>
              simp
          | true =>
              simp only [Bool.false_or, Bool.true_and, Bool.false_and,
                Bool.and_eq_true, Bool.or_eq_true, serverByDay_eq,
                serverByWeekday_eq, Bool.not_eq_true']
              have unmixed (notMixed : mixed (serverMonthly rule) = false)
                  (byDay : scriptByDay rule = true) :
                  scriptByWeekday rule = false := by
                rw [Bool.eq_false_iff]
                intro byWeekday
                unfold scriptByWeekday at byWeekday
                rw [Bool.and_eq_true] at byWeekday
                have both := mixed_of_both (inRange_isSome byDay)
                  (inRange_isSome byWeekday.2)
                rw [sameMonthly, notMixed] at both
                cases both
              constructor
              · rintro ⟨notMixed, ⟨isDay, byDay⟩ | ⟨⟨isOrdinal, isWeekday⟩, byWeekday⟩⟩
                · refine ⟨⟨notMixed, Or.inl byDay⟩, ?_, fun _ _ => isDay, ?_⟩
                  · rw [isWeekly]
                    nofun
                  · rw [unmixed notMixed byDay]
                    nofun
                · refine ⟨⟨notMixed, Or.inr byWeekday⟩, ?_, fun _ byDay => ?_,
                    fun _ _ => ⟨isOrdinal, isWeekday⟩⟩
                  · rw [isWeekly]
                    nofun
                  · rw [unmixed notMixed byDay] at byWeekday
                    cases byWeekday
              · rintro ⟨⟨notMixed, byDay | byWeekday⟩, integers⟩
                · exact ⟨notMixed, Or.inl ⟨integers.byDay isMonthly byDay, byDay⟩⟩
                · exact ⟨notMixed, Or.inr ⟨integers.byWeekday isMonthly byWeekday,
                    byWeekday⟩⟩

/-! ## One day -/

def meaningOf (rule : Members) : Repeat :=
  if isText (member? rule "frequency") "daily" then
    .daily
  else if isText (member? rule "frequency") "weekly" then
    .weekly ((weekdaysGiven rule).map fun value => integer (some value))
  else if isInt (member? (serverMonthly rule) "day") then
    .dayOfMonth (integer (member? (serverMonthly rule) "day"))
  else
    .weekdayOfMonth (integer (member? (serverMonthly rule) "ordinal"))
      (integer (member? (serverMonthly rule) "weekday"))

/-- How a rule that is taken is read. -/
inductive TakenAs (rule : Members) : Prop where
  | daily (isDaily : isText (member? rule "frequency") "daily" = true)
  | weekly (notDaily : isText (member? rule "frequency") "daily" = false)
      (isWeekly : isText (member? rule "frequency") "weekly" = true)
      (weekdays : ∀ value ∈ weekdaysGiven rule,
        ∃ number, value = .int number)
  | byDay (notDaily : isText (member? rule "frequency") "daily" = false)
      (notWeekly : isText (member? rule "frequency") "weekly" = false)
      (day : Int) (isDay : member? (serverMonthly rule) "day" = some (.int day))
      (server : serverByDay rule = true) (script : scriptByDay rule = true)
  | byWeekday (notDaily : isText (member? rule "frequency") "daily" = false)
      (notWeekly : isText (member? rule "frequency") "weekly" = false)
      (notDay : isInt (member? (serverMonthly rule) "day") = false)
      (server : serverByDay rule = false) (script : scriptByDay rule = false)
      (ordinal weekday : Int)
      (isOrdinal : member? (serverMonthly rule) "ordinal" = some (.int ordinal))
      (isWeekday : member? (serverMonthly rule) "weekday" = some (.int weekday))

theorem takenAs {rule : Members} (takes : serverTakes rule = true) :
    TakenAs rule := by
  unfold serverTakes at takes
  cases isDaily : isText (member? rule "frequency") "daily" with
  | true => exact .daily isDaily
  | false =>
      cases isWeekly : isText (member? rule "frequency") "weekly" with
      | true =>
          rw [isDaily, isWeekly, isText_unique "monthly" isWeekly (by decide)]
            at takes
          simp only [Bool.false_or, Bool.true_and, Bool.false_and, Bool.or_false,
            Bool.and_eq_true, List.all_eq_true, index_eq] at takes
          refine .weekly isDaily isWeekly fun value member => ?_
          obtain ⟨number, isNumber⟩ := isInt_eq_true.mp (takes.2 value member).1
          exact ⟨number, Option.some.inj isNumber⟩
      | false =>
          rw [isDaily, isWeekly, serverByDay_eq, serverByWeekday_eq] at takes
          simp only [Bool.false_or, Bool.false_and, Bool.and_eq_true,
            Bool.or_eq_true, Bool.not_eq_true'] at takes
          obtain ⟨_, notMixed, ⟨dayInt, byDay⟩ |
            ⟨⟨ordinalInt, weekdayInt⟩, byWeekday⟩⟩ := takes
          · obtain ⟨day, isDay⟩ := isInt_eq_true.mp dayInt
            refine .byDay isDaily isWeekly day isDay ?_ byDay
            rw [serverByDay_eq, dayInt, byDay]
            rfl
          · have noDay : (member? (serverMonthly rule) "day").isSome ≠ true := by
              intro given
              rw [mixed_of_both given (isInt_isSome weekdayInt)] at notMixed
              cases notMixed
            obtain ⟨ordinal, isOrdinal⟩ := isInt_eq_true.mp ordinalInt
            obtain ⟨weekday, isWeekday⟩ := isInt_eq_true.mp weekdayInt
            have notDay := Bool.eq_false_iff.mpr fun isDay =>
              noDay (isInt_isSome isDay)
            refine .byWeekday isDaily isWeekly notDay ?_ ?_ ordinal weekday
              isOrdinal isWeekday
            · rw [serverByDay_eq, notDay]
              rfl
            · exact Bool.eq_false_iff.mpr fun byDay => noDay (inRange_isSome byDay)

/-- A round of the server does what the rule means. -/
theorem serverVisit_eq {rule : Members} (taken : TakenAs rule) (number : Int)
    (found : Expansion) :
    serverVisit rule number found = (meaningOf rule).visit number found := by
  unfold serverVisit meaningOf Repeat.visit
  dsimp only
  cases taken with
  | daily isDaily =>
      rw [if_pos isDaily, if_pos isDaily]
      rfl
  | weekly notDaily isWeekly weekdays =>
      rw [notDaily, isWeekly]
      simp only [Bool.false_eq_true, if_false, if_true]
      have same : ((weekdaysGiven rule).any fun value =>
          integer (some value) == weekday number) =
          (Repeat.weekly ((weekdaysGiven rule).map fun value =>
            integer (some value))).picks number := by
        rw [Bool.eq_iff_iff]
        unfold Repeat.picks
        rw [List.any_eq_true, List.contains_iff_mem, List.mem_map]
        simp only [beq_iff_eq]
      rw [same]
      rfl
  | byDay notDaily notWeekly day isDay server script =>
      rw [notDaily, notWeekly, server, isDay]
      simp only [Bool.false_eq_true, if_false, if_true, isInt, integer,
        Repeat.picks, Repeat.lacks, decide_eq_true_eq]
      rfl
  | byWeekday notDaily notWeekly notDay server script ordinal chosen isOrdinal
      isWeekday =>
      rw [notDaily, notWeekly, server, notDay]
      simp only [Bool.false_eq_true, if_false, Repeat.picks, Repeat.lacks,
        Bool.and_eq_true, decide_eq_true_eq]
      by_cases isLast : integer (member? (serverMonthly rule) "ordinal") = -1
      · simp only [if_pos isLast, decide_eq_true_eq]
      · simp only [if_neg isLast, decide_eq_true_eq]

/-! ### The calendar of the script -/

theorem monthDays_eq {number : Int} (late : 100 ≤ (civil number).year) :
    monthDays (number - epoch) =
      daysInMonth (civil number).year (civil number).month := by
  have valid := civil_valid number
  have monthPos := valid.month_pos
  have monthLe := valid.month_le
  have back : number - epoch + epoch = number := by omega
  have isEnd := civil_monthEnd (civil number).year monthPos monthLe
  have isDay : dateUTC (civil number).year (civil number).month 0 + epoch =
      monthEnd (civil number).year (civil number).month := by
    unfold dateUTC monthEnd CivilDate.ordinal CivilDate.yearDay daysInMonth
    rw [if_neg (by omega)]
    dsimp only
    rcases Nat.lt_or_ge (civil number).month 12 with inside | atEnd
    · have month : (((civil number).month : Int) % 12).toNat + 1 - 1 =
          (civil number).month := by omega
      have years : ((civil number).month : Int) / 12 = 0 := by omega
      simp only [month, years, Int.add_zero]
      omega
    · have december : (civil number).month = 12 := by omega
      rw [december]
      have month : (((12 : Nat) : Int) % 12).toNat + 1 - 1 = 0 := by decide
      have years : ((12 : Nat) : Int) / 12 = 1 := by decide
      rw [month, years, daysThrough_zero, daysBeforeYear_succ]
      omega
  unfold monthDays
  dsimp only
  rw [back, isDay, isEnd]

theorem mondayFirst_eq (number : Int) :
    mondayFirst (getUTCDay (number - epoch)) = weekday number := by
  unfold mondayFirst getUTCDay weekday epoch
  omega

theorem ceil_week (day : Int) : ⌈(day : Rat) / 7⌉ = (day + 6) / 7 := by
  have quotient := Rat.ceil_intCast_div_natCast day 7
  have seven : ((7 : Nat) : Rat) = 7 := rfl
  rw [seven] at quotient
  rw [quotient]
  omega

/-- So does a round of the script, in the years with four digits that it reads. -/
theorem scriptVisit_eq {rule : Members} (taken : TakenAs rule) {number : Int}
    (late : 100 ≤ (civil number).year) (early : (civil number).year ≤ 9999)
    (found : Expansion) :
    scriptVisit rule (number - epoch) found =
      (meaningOf rule).visit number found := by
  have back : number - epoch + epoch = number := by omega
  have isDate : isoDay (number - epoch) = isoDate (civil number) := by
    have text := @isoDay_eq (number - epoch)
    rw [back] at text
    exact text (by omega) early
  have sameMonthly : scriptMonthly rule = serverMonthly rule := rfl
  unfold scriptVisit meaningOf Repeat.visit
  dsimp only
  rw [back, isDate, mondayFirst_eq, monthDays_eq late, ceil_week, sameMonthly]
  cases taken with
  | daily isDaily =>
      rw [if_pos isDaily, if_pos isDaily]
      rfl
  | weekly notDaily isWeekly weekdays =>
      rw [notDaily, isWeekly]
      simp only [Bool.false_eq_true, if_false, if_true]
      have same : ((weekdaysGiven rule).any fun value =>
          isNumber (some value) (weekday number)) =
          (Repeat.weekly ((weekdaysGiven rule).map fun value =>
            integer (some value))).picks number := by
        rw [Bool.eq_iff_iff]
        unfold Repeat.picks
        rw [List.any_eq_true, List.contains_iff_mem, List.mem_map]
        refine exists_congr fun value => and_congr_right fun member => ?_
        obtain ⟨given, rfl⟩ := weekdays value member
        rw [isNumber_int, beq_iff_eq]
        rfl
      rw [same]
      rfl
  | byDay notDaily notWeekly day isDay server script =>
      have greater : ((number? (some (.int day))).any fun chosen =>
          decide (((civil number).day : Rat) < chosen)) =
          decide ((civil number).day < day) := by
        unfold number?
        rw [Option.any_some, decide_eq_decide, Int.cast_lt]
      rw [notDaily, notWeekly, script, isDay, isNumber_int, greater]
      simp only [Bool.false_eq_true, if_false, if_true, isInt, integer,
        Repeat.picks, Repeat.lacks, decide_eq_true_eq, beq_iff_eq]
      refine if_congr eq_comm rfl (if_congr ?_ rfl rfl)
      refine and_congr_right fun isLast => ?_
      rw [isLast]
  | byWeekday notDaily notWeekly notDay server script ordinal chosen isOrdinal
      isWeekday =>
      rw [notDaily, notWeekly, script, notDay, isOrdinal, isWeekday, isNumber_int,
        isNumber_int, isNumber_int]
      simp only [Bool.false_eq_true, if_false, integer, Repeat.picks,
        Repeat.lacks, Bool.and_eq_true, decide_eq_true_eq, beq_iff_eq]
      refine if_congr (and_congr eq_comm ?_) rfl rfl
      by_cases isLast : ordinal = -1
      · rw [if_pos isLast, if_pos isLast, decide_eq_true_eq]
      · rw [if_neg isLast, if_neg isLast, decide_eq_true_eq]
        exact eq_comm

/-! ## The expanders -/

theorem expand_of_days {rule : Members} {first last : CivilDate}
    (start : serverDay (member? rule "start") = some first)
    (stop : serverDay (member? rule "end") = some last) :
    expand rule =
      if last.ordinal < first.ordinal then
        some (.error .order)
      else if spanDays ≤ last.ordinal - first.ordinal then
        some (.error .span)
      else if serverTakes rule = true then
        (serverWalk (serverVisit rule)
          (last.ordinal - first.ordinal + 1).toNat first.ordinal ⟨[], []⟩).map
          .expanded
      else
        some (.error (refusal (member? rule "frequency"))) := by
  unfold expand
  rw [start, stop]
  dsimp only
  refine if_congr Iff.rfl rfl (if_congr Iff.rfl rfl ?_)
  exact checked_eq (member? rule "frequency") _ _ _ _
    fun code => some (Expanded.error code)

theorem expand_of_no_days {rule : Members}
    (noDays : ∀ first last, serverDay (member? rule "start") = some first →
      serverDay (member? rule "end") ≠ some last) :
    expand rule = some (.error .dates) := by
  unfold expand
  dsimp only
  split
  · rename_i first last start stop
    exact absurd stop (noDays first last start)
  · rfl

theorem expandRecurrence_of_days {rule : Members} {first last : Int}
    (start : civilDay (member? rule "start") = some (some first))
    (stop : civilDay (member? rule "end") = some (some last)) :
    expandRecurrence rule = some (
      if last < first then
        .error .order
      else if spanDays ≤ last - first then
        .error .span
      else if scriptTakes rule = true then
        .expanded (scriptWalk (scriptVisit rule) (last - first + 1).toNat first
          ⟨[], []⟩)
      else
        .error (refusal (member? rule "frequency"))) := by
  unfold expandRecurrence
  rw [start, stop]
  dsimp only [Option.bind_some, Option.map_some]
  refine congrArg some (if_congr Iff.rfl rfl (if_congr Iff.rfl rfl ?_))
  exact checked_eq (member? rule "frequency") _ _ _ _ Expanded.error

/-- Without both days the script's error is `dates`, unless it raises. -/
theorem expandRecurrence_of_no_days {rule : Members} {start stop : Option Int}
    (isStart : civilDay (member? rule "start") = some start)
    (isStop : civilDay (member? rule "end") = some stop)
    (noDays : ∀ first last, start = some first → stop ≠ some last) :
    expandRecurrence rule = some (.error .dates) := by
  unfold expandRecurrence
  rw [isStart, isStop]
  dsimp only [Option.bind_some, Option.map_some]
  split
  · rename_i first last
    exact absurd rfl (noDays first last rfl)
  · rfl

/-- Both days are read, when the error is not `dates`. -/
theorem days_of_expandRecurrence {rule : Members} {outcome : Expanded}
    (isOutcome : expandRecurrence rule = some outcome)
    (notDates : outcome ≠ .error .dates) :
    ∃ first last, civilDay (member? rule "start") = some (some first) ∧
      civilDay (member? rule "end") = some (some last) := by
  cases isStart : civilDay (member? rule "start") with
  | none =>
      unfold expandRecurrence at isOutcome
      rw [isStart] at isOutcome
      cases isOutcome
  | some start =>
      cases isStop : civilDay (member? rule "end") with
      | none =>
          unfold expandRecurrence at isOutcome
          rw [isStart, isStop] at isOutcome
          cases isOutcome
      | some stop =>
          cases start with
          | none =>
              rw [expandRecurrence_of_no_days isStart isStop nofun] at isOutcome
              cases isOutcome
              exact absurd rfl notDates
          | some first =>
              cases stop with
              | none =>
                  rw [expandRecurrence_of_no_days isStart isStop
                    fun _ _ _ => nofun] at isOutcome
                  cases isOutcome
                  exact absurd rfl notDates
              | some last => exact ⟨first, last, rfl, rfl⟩

/-! ## Agreement -/

/-- The days that the meaning selects from `first` to `last`, in order, and the
months that end there and have none. -/
structure Expansion.Meets (expansion : Expansion) (first last : Int)
    (meaning : Repeat) : Prop where
  dates : ∃ selected : List Int,
    expansion.dates = selected.map (fun number => isoDate (civil number)) ∧
      selected.Pairwise (· < ·) ∧
      ∀ number, number ∈ selected ↔
        first ≤ number ∧ number ≤ last ∧ meaning.Selects number
  missing : ∃ months : List (Int × Nat),
    expansion.missing = months.map (fun month => isoMonth month.1 month.2) ∧
      months.Pairwise (fun before after =>
        monthEnd before.1 before.2 < monthEnd after.1 after.2) ∧
      ∀ year month, (year, month) ∈ months ↔
        (1 ≤ month ∧ month ≤ 12) ∧ first ≤ monthEnd year month ∧
          monthEnd year month ≤ last ∧ meaning.Misses year month

/-- The expanders give the same error or the same expansion, none raises, and an
expansion is what the rule means. -/
def Agrees (rule : Members) : Prop :=
  ∃ outcome, expand rule = some outcome ∧
    expandRecurrence rule = some outcome ∧
    ∀ expansion, outcome = .expanded expansion →
      ∃ first last, serverDay (member? rule "start") = some first ∧
        serverDay (member? rule "end") = some last ∧
        expansion.Meets first.ordinal last.ordinal (meaningOf rule)

/-- No `toString` member in the start or the end, and if both are dates, plain
texts of the year 100 or later. -/
structure ReadAlike (rule : Members) : Prop where
  unnamed : ∀ key ∈ ["start", "end"], ∀ given,
    member? rule key = some given → namesToString given = false
  late : ∀ first last, serverDay (member? rule "start") = some first →
    serverDay (member? rule "end") = some last →
    100 ≤ first.year ∧ 100 ≤ last.year
  plain : ∀ first last,
    serverDay ((member? rule "start").map bare) = some first →
    serverDay ((member? rule "end").map bare) = some last →
    100 ≤ first.year → 100 ≤ last.year →
    (member? rule "start").map bare = member? rule "start" ∧
      (member? rule "end").map bare = member? rule "end"

/-- A rule that the script expands gives integers and ends before `date.max`. -/
def CountedAlike (rule : Members) : Prop :=
  ∀ first last, serverDay (member? rule "start") = some first →
    serverDay (member? rule "end") = some last →
    first.ordinal ≤ last.ordinal → last.ordinal - first.ordinal < spanDays →
    scriptTakes rule = true →
    UsesIntegers rule ∧ last ≠ ⟨9999, 12, 31⟩

theorem visitAll_meets (meaning : Repeat) {first last : Int}
    (le : first ≤ last) :
    (visitAll meaning.visit (days first (last - first + 1).toNat)
      ⟨[], []⟩).Meets first last meaning := by
  rw [visitAll_repeat]
  have inside (number : Int) : number ∈ days first (last - first + 1).toNat ↔
      first ≤ number ∧ number ≤ last := by
    rw [mem_days]
    omega
  refine ⟨⟨_, List.nil_append _, (days_increasing _ _).filter _,
    fun number => ?_⟩, ?_⟩
  · rw [List.mem_filter, inside, meaning.picks_iff]
    exact and_assoc
  · refine ⟨((days first (last - first + 1).toNat).filter meaning.lacks).map
      fun number => ((civil number).year, (civil number).month), ?_, ?_, ?_⟩
    · rw [List.map_map]
      rfl
    · refine List.pairwise_map.mpr (List.pairwise_iff_forall_sublist.mpr ?_)
      intro before after sublist
      have ordered := (days_increasing first (last - first + 1).toNat).filter
        meaning.lacks
      have less := List.pairwise_iff_forall_sublist.mp ordered sublist
      have beforeLacks := (List.mem_filter.mp
        (sublist.subset List.mem_cons_self)).2
      have afterLacks := (List.mem_filter.mp
        (sublist.subset (List.mem_cons_of_mem _ List.mem_cons_self))).2
      dsimp only
      rw [monthEnd_civil ((meaning.lacks_iff before).mp beforeLacks).1,
        monthEnd_civil ((meaning.lacks_iff after).mp afterLacks).1]
      exact less
    · intro year month
      rw [List.mem_map]
      constructor
      · rintro ⟨number, member, same⟩
        obtain ⟨inRange, isLacking⟩ := List.mem_filter.mp member
        obtain ⟨isEnd, misses⟩ := (meaning.lacks_iff number).mp isLacking
        obtain ⟨isYear, isMonth⟩ := Prod.mk.inj same
        have valid := civil_valid number
        have isNumber := monthEnd_civil isEnd
        obtain ⟨lower, upper⟩ := (inside number).mp inRange
        rw [isYear, isMonth] at isNumber misses
        rw [isNumber]
        refine ⟨⟨?_, ?_⟩, lower, upper, misses⟩
        · rw [← isMonth]
          exact valid.month_pos
        · rw [← isMonth]
          exact valid.month_le
      · rintro ⟨⟨monthPos, monthLe⟩, lower, upper, misses⟩
        have isEnd := civil_monthEnd year monthPos monthLe
        refine ⟨monthEnd year month, List.mem_filter.mpr ⟨(inside _).mpr
          ⟨lower, upper⟩, (meaning.lacks_iff _).mpr ?_⟩, ?_⟩
        · rw [isEnd]
          exact ⟨rfl, misses⟩
        · rw [isEnd]

/-- The days between two dates have their years between them. -/
theorem year_between {first last : CivilDate} {number : Int}
    (firstValid : first.Valid) (lastValid : last.Valid)
    (lower : first.ordinal ≤ number) (upper : number ≤ last.ordinal) :
    first.year ≤ (civil number).year ∧ (civil number).year ≤ last.year := by
  have isNumber := ordinal_civil number
  have valid := civil_valid number
  constructor
  · by_contra before
    have less := CivilDate.ordinal_lt_of_before valid firstValid
      (Or.inl (Int.not_le.mp before))
    omega
  · by_contra after
    have less := CivilDate.ordinal_lt_of_before lastValid valid
      (Or.inl (Int.not_le.mp after))
    omega

theorem bare_of_serverDay {value : Option Json} {date : CivilDate}
    (isDay : serverDay value = some date) : value.map bare = value := by
  obtain ⟨text, rfl, _⟩ := serverDay_eq_some.mp isDay
  rfl

theorem Agrees.of_alike {rule : Members} (read : ReadAlike rule)
    (counted : CountedAlike rule) : Agrees rule := by
  have raises (key : String) (member : key ∈ ["start", "end"]) :
      ∃ day, civilDay (member? rule key) = some day := by
    refine Option.ne_none_iff_exists'.mp fun isNone => ?_
    obtain ⟨given, isGiven, named⟩ := civilDay_eq_none.mp isNone
    rw [read.unnamed key member given isGiven] at named
    cases named
  by_cases both : ∃ first last, serverDay (member? rule "start") = some first ∧
      serverDay (member? rule "end") = some last
  · obtain ⟨first, last, start, stop⟩ := both
    obtain ⟨firstLate, lastLate⟩ := read.late first last start stop
    obtain ⟨firstText, _, firstRead, _, firstValid⟩ := serverDay_eq_some.mp start
    obtain ⟨lastText, _, lastRead, _, lastValid⟩ := serverDay_eq_some.mp stop
    have lastShort := (isoDate_of_dateParts lastRead).2.year_lt
    have lastMax := ordinal_le_dateMax lastValid (by omega)
    have scriptStart : civilDay (member? rule "start") =
        some (some (first.ordinal - epoch)) :=
      civilDay_eq_some.mpr ⟨first, by rw [bare_of_serverDay start, start],
        firstLate, rfl⟩
    have scriptStop : civilDay (member? rule "end") =
        some (some (last.ordinal - epoch)) :=
      civilDay_eq_some.mpr ⟨last, by rw [bare_of_serverDay stop, stop], lastLate,
        rfl⟩
    have apart : last.ordinal - epoch - (first.ordinal - epoch) =
        last.ordinal - first.ordinal := by omega
    unfold Agrees
    rw [expand_of_days start stop, expandRecurrence_of_days scriptStart scriptStop,
      apart]
    have sameOrder : last.ordinal - epoch < first.ordinal - epoch ↔
        last.ordinal < first.ordinal := by omega
    by_cases order : last.ordinal < first.ordinal
    · rw [if_pos order, if_pos (sameOrder.mpr order)]
      exact ⟨_, rfl, rfl, nofun⟩
    · rw [if_neg order, if_neg fun before => order (sameOrder.mp before)]
      by_cases span : spanDays ≤ last.ordinal - first.ordinal
      · rw [if_pos span, if_pos span]
        exact ⟨_, rfl, rfl, nofun⟩
      · rw [if_neg span, if_neg span]
        by_cases takes : scriptTakes rule = true
        · obtain ⟨integers, notMax⟩ := counted first last start stop (by omega)
            (by omega) takes
          have serverToo := serverTakes_iff.mpr ⟨takes, integers⟩
          have taken := takenAs serverToo
          have beforeMax : last.ordinal ≠ dateMax := by
            intro isMax
            refine notMax (CivilDate.ordinal_injective lastValid ?_ ?_)
            · decide
            · rw [isMax, ordinal_dateMax]
          rw [if_pos serverToo, if_pos takes, scriptWalk_eq,
            serverWalk_eq _ (by omega)]
          have back : first.ordinal - epoch + epoch = first.ordinal := by omega
          have server : visitAll (serverVisit rule) (days first.ordinal
              (last.ordinal - first.ordinal + 1).toNat) ⟨[], []⟩ =
              visitAll (meaningOf rule).visit (days first.ordinal
                (last.ordinal - first.ordinal + 1).toNat) ⟨[], []⟩ :=
            visitAll_congr
              (fun number _ found => serverVisit_eq taken number found) _
          have script : visitAll (fun number =>
                scriptVisit rule (number - epoch)) (days first.ordinal
              (last.ordinal - first.ordinal + 1).toNat) ⟨[], []⟩ =
              visitAll (meaningOf rule).visit (days first.ordinal
                (last.ordinal - first.ordinal + 1).toNat) ⟨[], []⟩ := by
            refine visitAll_congr (fun number member found => ?_) _
            have inside := mem_days.mp member
            have years := year_between firstValid lastValid inside.1
              (show number ≤ last.ordinal by omega)
            exact scriptVisit_eq taken (by omega) (by omega) found
          rw [back, server, script]
          refine ⟨_, rfl, rfl, fun expansion isExpansion => ?_⟩
          cases isExpansion
          exact ⟨first, last, start, stop, visitAll_meets _ (by omega)⟩
        · rw [if_neg takes, if_neg fun serverToo =>
            takes (serverTakes_iff.mp serverToo).1]
          exact ⟨_, rfl, rfl, nofun⟩
  · have noDays (first last : CivilDate)
        (start : serverDay (member? rule "start") = some first) :
        serverDay (member? rule "end") ≠ some last :=
      fun stop => both ⟨first, last, start, stop⟩
    obtain ⟨start, isStart⟩ := raises "start" (by simp)
    obtain ⟨stop, isStop⟩ := raises "end" (by simp)
    refine ⟨.error .dates, expand_of_no_days noDays,
      expandRecurrence_of_no_days isStart isStop ?_, nofun⟩
    rintro first last rfl rfl
    obtain ⟨firstDate, firstRead, firstLate, _⟩ := civilDay_eq_some.mp isStart
    obtain ⟨lastDate, lastRead, lastLate, _⟩ := civilDay_eq_some.mp isStop
    obtain ⟨plainStart, plainStop⟩ := read.plain firstDate lastDate firstRead
      lastRead firstLate lastLate
    rw [plainStart] at firstRead
    rw [plainStop] at lastRead
    exact both ⟨firstDate, lastDate, firstRead, lastRead⟩

theorem Agrees.readAlike {rule : Members} (agrees : Agrees rule) :
    ReadAlike rule := by
  obtain ⟨outcome, server, script, _⟩ := agrees
  constructor
  · intro key member given isGiven
    rw [Bool.eq_false_iff]
    intro named
    have isNone : civilDay (member? rule key) = none :=
      civilDay_eq_none.mpr ⟨given, isGiven, named⟩
    simp only [List.mem_cons, List.not_mem_nil, or_false] at member
    obtain ⟨start, isStart, isOutcome⟩ := Option.bind_eq_some_iff.mp script
    obtain ⟨stop, isStop, _⟩ := Option.map_eq_some_iff.mp isOutcome
    rcases member with rfl | rfl
    · rw [isNone] at isStart
      cases isStart
    · rw [isNone] at isStop
      cases isStop
  · intro first last start stop
    have notDates : outcome ≠ .error .dates := by
      rintro rfl
      rw [expand_of_days start stop] at server
      split at server
      · cases server
      · split at server
        · cases server
        · split at server
          · obtain ⟨_, _, isError⟩ := Option.map_eq_some_iff.mp server
            cases isError
          · unfold refusal at server
            split at server
            · cases server
            · split at server <;> cases server
    obtain ⟨firstDay, lastDay, isFirst, isLast⟩ :=
      days_of_expandRecurrence script notDates
    obtain ⟨firstDate, firstRead, firstLate, _⟩ := civilDay_eq_some.mp isFirst
    obtain ⟨lastDate, lastRead, lastLate, _⟩ := civilDay_eq_some.mp isLast
    rw [bare_of_serverDay start, start] at firstRead
    rw [bare_of_serverDay stop, stop] at lastRead
    cases firstRead
    cases lastRead
    exact ⟨firstLate, lastLate⟩
  · intro first last start stop firstLate lastLate
    have isFirst := civilDay_eq_some.mpr ⟨first, start, firstLate, rfl⟩
    have isLast := civilDay_eq_some.mpr ⟨last, stop, lastLate, rfl⟩
    have notDates : expandRecurrence rule ≠ some (.error .dates) := by
      rw [expandRecurrence_of_days isFirst isLast]
      unfold refusal
      split
      · nofun
      · split
        · nofun
        · split
          · nofun
          · split
            · nofun
            · split <;> nofun
    by_cases both : ∃ first last,
        serverDay (member? rule "start") = some first ∧
        serverDay (member? rule "end") = some last
    · obtain ⟨_, _, plainStart, plainStop⟩ := both
      exact ⟨bare_of_serverDay plainStart, bare_of_serverDay plainStop⟩
    · rw [expand_of_no_days fun first last isStart isStop =>
        both ⟨first, last, isStart, isStop⟩] at server
      rw [← server] at script
      exact absurd script notDates

theorem Agrees.countedAlike {rule : Members} (agrees : Agrees rule) :
    CountedAlike rule := by
  intro first last start stop order span takes
  obtain ⟨firstLate, lastLate⟩ := agrees.readAlike.late first last start stop
  obtain ⟨outcome, server, script, _⟩ := agrees
  have isFirst : civilDay (member? rule "start") =
      some (some (first.ordinal - epoch)) :=
    civilDay_eq_some.mpr ⟨first, by rw [bare_of_serverDay start, start],
      firstLate, rfl⟩
  have isLast : civilDay (member? rule "end") =
      some (some (last.ordinal - epoch)) :=
    civilDay_eq_some.mpr ⟨last, by rw [bare_of_serverDay stop, stop], lastLate,
      rfl⟩
  rw [expandRecurrence_of_days isFirst isLast, if_neg (by omega),
    if_neg (by omega), if_pos takes] at script
  cases script
  rw [expand_of_days start stop, if_neg (by omega), if_neg (by omega)] at server
  by_cases serverToo : serverTakes rule = true
  · refine ⟨(serverTakes_iff.mp serverToo).2, ?_⟩
    rintro rfl
    rw [if_pos serverToo, serverWalk_raises] at server
    · cases server
    · rw [← ordinal_dateMax]
      exact order
    · rw [ordinal_dateMax]
      omega
  · rw [if_neg serverToo] at server
    cases server

/-- The page script and the server expand a rule identically exactly when they
read its dates alike and count with integers before the last date. -/
theorem expanders_agree_iff (rule : Members) :
    Agrees rule ↔ ReadAlike rule ∧ CountedAlike rule :=
  ⟨fun agrees => ⟨agrees.readAlike, agrees.countedAlike⟩,
    fun ⟨read, counted⟩ => Agrees.of_alike read counted⟩

/-- The server raises on a rule that ends on the last date there is, and the
script expands it. -/
theorem daily_to_the_last_date_raises :
    ¬ Agrees [("frequency", .string "daily".toList),
      ("start", .string "9999-12-30".toList),
      ("end", .string "9999-12-31".toList)] := by
  rintro ⟨outcome, server, _⟩
  have raised : expand [("frequency", .string "daily".toList),
      ("start", .string "9999-12-30".toList),
      ("end", .string "9999-12-31".toList)] = none := rfl
  rw [raised] at server
  cases server

end ParishKit.Campaigns
