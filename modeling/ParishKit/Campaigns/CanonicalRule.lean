import ParishKit.Campaigns.RepeatAgreement
import ParishKit.Lib.DateOrder
import ParishKit.Lib.Distinct
import ParishKit.Lib.Records

/-!
# The stored form of a repeat rule

A rule that the server expands is stored as the members that its frequency uses,
its weekdays in order. The stored form expands to the same dates, is stored as
itself, and two rules are stored alike just when they have the same dates to
repeat between and choose alike.
-/

namespace ParishKit.Campaigns

open ParishKit.Lib

/-! ## The form -/

/-- The distinct weekdays of a weekly rule, in order. -/
def canonicalWeekdays (rule : Members) : List Json :=
  (sortedDistinct ((weekdaysGiven rule).map fun value => integer (some value))).map .int

def canonicalMonthly (monthly : Members) : Option Members :=
  match member? monthly "day" with
  | some day => some [("day", day)]
  | none => do
      let ordinal ← member? monthly "ordinal"
      let weekday ← member? monthly "weekday"
      some [("ordinal", ordinal), ("weekday", weekday)]

/-- The members that the frequency uses. -/
def canonicalMembers (rule : Members) : Option Members := do
  let frequency ← member? rule "frequency"
  let start ← member? rule "start"
  let stop ← member? rule "end"
  let shared := [("frequency", frequency), ("start", start), ("end", stop)]
  if isText (some frequency) "weekly" then
    some (shared ++ [("weekdays", .array (canonicalWeekdays rule))])
  else if isText (some frequency) "monthly" then do
    let monthly ← canonicalMonthly (serverMonthly rule)
    some (shared ++ [("monthly", .object monthly)])
  else
    some shared

/-- `canonical_rule`: no form for a rule with an error. -/
def canonicalRule (rule : Members) : Option (Option Members) := do
  match ← expand rule with
  | .error _ => some none
  | .expanded _ => (canonicalMembers rule).map some

/-- The dates of a rule that has no error. -/
def ruleDates (rule : Members) : Option (List Text) := do
  match ← expand rule with
  | .error _ => none
  | .expanded expansion => some expansion.dates

/-! ## What a rule says -/

/-- A rule read member by member. -/
inductive ReadAs (rule : Members) : Repeat → Prop where
  | daily (frequency : member? rule "frequency" = some (.string "daily".toList)) :
      ReadAs rule .daily
  | weekly (weekdays : List Int)
      (frequency : member? rule "frequency" = some (.string "weekly".toList))
      (given : weekdaysGiven rule = weekdays.map .int) (some : weekdays ≠ [])
      (bounded : ∀ weekday ∈ weekdays, 0 ≤ weekday ∧ weekday ≤ 6) :
      ReadAs rule (.weekly weekdays)
  | dayOfMonth (day : Int)
      (frequency : member? rule "frequency" = some (.string "monthly".toList))
      (isDay : member? (serverMonthly rule) "day" = some (.int day))
      (noOrdinal : member? (serverMonthly rule) "ordinal" = none)
      (noWeekday : member? (serverMonthly rule) "weekday" = none)
      (bounded : 1 ≤ day ∧ day ≤ 31) : ReadAs rule (.dayOfMonth day)
  | weekdayOfMonth (ordinal weekday : Int)
      (frequency : member? rule "frequency" = some (.string "monthly".toList))
      (noDay : member? (serverMonthly rule) "day" = none)
      (isOrdinal : member? (serverMonthly rule) "ordinal" = some (.int ordinal))
      (isWeekday : member? (serverMonthly rule) "weekday" = some (.int weekday))
      (allowed : ordinal ∈ [1, 2, 3, 4, -1]) (bounded : 0 ≤ weekday ∧ weekday ≤ 6) :
      ReadAs rule (.weekdayOfMonth ordinal weekday)

theorem isText_eq_true {value : Option Json} {text : String} :
    isText value text = true ↔ value = some (.string text.toList) := by
  unfold isText
  split
  · rw [beq_iff_eq]
    constructor
    · rintro rfl
      rfl
    · intro same
      cases same
      rfl
  · next other =>
      constructor
      · nofun
      · exact fun same => absurd same (other _)

theorem index_eq_true {value : Option Json} {low high : Int} :
    index value low high = true ↔
      ∃ number, value = some (.int number) ∧ low ≤ number ∧ number ≤ high := by
  unfold index
  split
  · rename_i number
    rw [Bool.and_eq_true, decide_eq_true_eq, decide_eq_true_eq]
    constructor
    · exact fun bounded => ⟨number, rfl, bounded⟩
    · rintro ⟨other, same, bounded⟩
      cases same
      exact bounded
  · next other =>
      constructor
      · nofun
      · rintro ⟨number, same, _⟩
        exact absurd same (other number)

theorem exists_weekdays {items : List Json}
    (all : ∀ item ∈ items, index (some item) 0 6 = true) :
    ∃ weekdays : List Int, items = weekdays.map .int ∧
      ∀ weekday ∈ weekdays, 0 ≤ weekday ∧ weekday ≤ 6 := by
  induction items with
  | nil => exact ⟨[], rfl, nofun⟩
  | cons item rest inductionHypothesis =>
      obtain ⟨weekday, isWeekday, bounded⟩ :=
        index_eq_true.mp (all item List.mem_cons_self)
      obtain ⟨weekdays, isRest, others⟩ := inductionHypothesis
        fun other member => all other (List.mem_cons_of_mem item member)
      refine ⟨weekday :: weekdays, ?_, ?_⟩
      · rw [isRest, Option.some.inj isWeekday]
        rfl
      · intro other member
        rcases List.mem_cons.mp member with rfl | member
        · exact bounded
        · exact others other member

theorem isText_frequency {rule : Members} {word : String}
    (frequency : member? rule "frequency" = some (.string word.toList)) (other : String) :
    isText (member? rule "frequency") other = (word.toList == other.toList) := by
  rw [frequency]
  rfl

theorem ReadAs.takes {rule : Members} {meaning : Repeat} (read : ReadAs rule meaning) :
    serverTakes rule = true := by
  unfold serverTakes
  cases read with
  | daily frequency =>
      rw [isText_eq_true.mpr frequency]
      rfl
  | weekly weekdays frequency given some bounded =>
      have all : (weekdays.map Json.int).all (fun value => index (Option.some value) 0 6) = true := by
        rw [List.all_map, List.all_eq_true]
        intro weekday member
        exact index_eq_true.mpr ⟨weekday, rfl, bounded weekday member⟩
      have given' : (!(weekdays.map Json.int).isEmpty) = true := by simpa using some
      rw [isText_eq_true.mpr frequency, given, all, given', Bool.true_and, Bool.true_and,
        Bool.or_true, Bool.true_or]
  | dayOfMonth day frequency isDay noOrdinal noWeekday bounded =>
      have byDay : serverByDay rule = true := index_eq_true.mpr ⟨day, isDay, bounded⟩
      have notMixed : mixed (serverMonthly rule) = false := by
        unfold mixed
        rw [noOrdinal, noWeekday]
        simp
      rw [isText_eq_true.mpr frequency, byDay, notMixed]
      simp
  | weekdayOfMonth ordinal weekday frequency noDay isOrdinal isWeekday allowed bounded =>
      have byWeekday : serverByWeekday rule = true := by
        unfold serverByWeekday
        rw [index_eq_true.mpr ⟨weekday, isWeekday, bounded⟩, isOrdinal, Bool.and_true,
          Bool.and_eq_true]
        exact ⟨rfl, List.contains_iff_mem.mpr allowed⟩
      have notMixed : mixed (serverMonthly rule) = false := by
        unfold mixed
        rw [noDay]
        rfl
      rw [isText_eq_true.mpr frequency, byWeekday, notMixed]
      simp

/-- A rule that the server takes is read, and as it means. -/
theorem readAs_of_takes {rule : Members} (takes : serverTakes rule = true) :
    ReadAs rule (meaningOf rule) := by
  unfold serverTakes at takes
  unfold meaningOf
  cases isDaily : isText (member? rule "frequency") "daily" with
  | true =>
      rw [if_pos rfl]
      exact .daily (isText_eq_true.mp isDaily)
  | false =>
      rw [if_neg Bool.false_ne_true]
      cases isWeekly : isText (member? rule "frequency") "weekly" with
      | true =>
          rw [if_pos rfl]
          rw [isDaily, isWeekly, isText_unique "monthly" isWeekly (by decide)] at takes
          simp only [Bool.false_or, Bool.true_and, Bool.false_and, Bool.or_false,
            Bool.and_eq_true, List.all_eq_true, Bool.not_eq_true', List.isEmpty_eq_false_iff]
            at takes
          obtain ⟨some, all⟩ := takes
          obtain ⟨weekdays, isGiven, bounded⟩ := exists_weekdays all
          have same : ((weekdaysGiven rule).map fun value => integer (Option.some value)) =
              weekdays := by
            rw [isGiven, List.map_map]
            exact List.map_id weekdays
          rw [same]
          refine .weekly weekdays (isText_eq_true.mp isWeekly) isGiven ?_ bounded
          rintro rfl
          exact some isGiven
      | false =>
          rw [if_neg Bool.false_ne_true]
          rw [isDaily, isWeekly] at takes
          simp only [Bool.false_or, Bool.false_and, Bool.and_eq_true, Bool.or_eq_true,
            Bool.not_eq_true'] at takes
          obtain ⟨isMonthly, notMixed, byDay | byWeekday⟩ := takes
          · obtain ⟨day, isDay, bounded⟩ := index_eq_true.mp byDay
            unfold mixed at notMixed
            rw [isDay, Option.isSome_some, Bool.true_and, Bool.or_eq_false_iff] at notMixed
            rw [isDay, if_pos (show isInt (some (Json.int day)) = true from rfl)]
            exact .dayOfMonth day (isText_eq_true.mp isMonthly) isDay
              (Option.not_isSome_iff_eq_none.mp (by rw [notMixed.1]; exact Bool.false_ne_true))
              (Option.not_isSome_iff_eq_none.mp (by rw [notMixed.2]; exact Bool.false_ne_true))
              bounded
          · unfold serverByWeekday at byWeekday
            rw [Bool.and_eq_true, Bool.and_eq_true] at byWeekday
            obtain ⟨⟨isInteger, allowed⟩, inWeek⟩ := byWeekday
            obtain ⟨ordinal, isOrdinal⟩ := isInt_eq_true.mp isInteger
            obtain ⟨weekday, isWeekday, bounded⟩ := index_eq_true.mp inWeek
            unfold mixed at notMixed
            rw [isOrdinal, Option.isSome_some, Bool.true_or, Bool.and_true] at notMixed
            have noDay : member? (serverMonthly rule) "day" = none :=
              Option.not_isSome_iff_eq_none.mp (by rw [notMixed]; exact Bool.false_ne_true)
            rw [isOrdinal] at allowed
            rw [noDay, isOrdinal, isWeekday, if_neg (by exact Bool.false_ne_true)]
            exact .weekdayOfMonth ordinal weekday (isText_eq_true.mp isMonthly) noDay isOrdinal
              isWeekday (List.contains_iff_mem.mp allowed) bounded

/-- A rule is read in one way. -/
theorem ReadAs.meaningOf_eq {rule : Members} {meaning : Repeat} (read : ReadAs rule meaning) :
    meaningOf rule = meaning := by
  unfold meaningOf
  cases read with
  | daily frequency => rw [if_pos (isText_eq_true.mpr frequency)]
  | weekly weekdays frequency given some bounded =>
      rw [isText_frequency frequency, isText_frequency frequency, given, List.map_map]
      exact congrArg Repeat.weekly (List.map_id weekdays)
  | dayOfMonth day frequency isDay noOrdinal noWeekday bounded =>
      rw [isText_frequency frequency, isText_frequency frequency, isDay]
      rfl
  | weekdayOfMonth ordinal weekday frequency noDay isOrdinal isWeekday allowed bounded =>
      rw [isText_frequency frequency, isText_frequency frequency, noDay, isOrdinal, isWeekday]
      rfl

/-! ## Rules that expand -/

/-- A rule without an error, whose last date is not the last there is: its dates
and what the server takes. -/
structure Accepted (rule : Members) (first last : CivilDate) (meaning : Repeat) : Prop where
  start : serverDay (member? rule "start") = some first
  stop : serverDay (member? rule "end") = some last
  ordered : first.ordinal ≤ last.ordinal
  within : last.ordinal - first.ordinal < spanDays
  early : last.ordinal < dateMax
  read : ReadAs rule meaning

/-- What a rule for these days finds. -/
def found (meaning : Repeat) (first last : CivilDate) : Expansion :=
  visitAll meaning.visit
    (days first.ordinal (last.ordinal - first.ordinal + 1).toNat) ⟨[], []⟩

theorem Accepted.expand_eq {rule : Members} {first last : CivilDate} {meaning : Repeat}
    (accepted : Accepted rule first last meaning) :
    expand rule = some (.expanded (found meaning first last)) := by
  have ordered := accepted.ordered
  have within := accepted.within
  have early := accepted.early
  have takes := accepted.read.takes
  have visits : visitAll (serverVisit rule)
      (days first.ordinal (last.ordinal - first.ordinal + 1).toNat) ⟨[], []⟩ =
      found meaning first last := by
    unfold found
    rw [← accepted.read.meaningOf_eq]
    exact visitAll_congr (fun number _ found => serverVisit_eq (takenAs takes) number found) _
  rw [expand_of_days accepted.start accepted.stop, if_neg (by omega), if_neg (by omega),
    if_pos takes, serverWalk_eq _ (by omega), visits]
  rfl

theorem accepted_of_expand {rule : Members} {expansion : Expansion}
    (isExpanded : expand rule = some (.expanded expansion)) :
    ∃ first last, Accepted rule first last (meaningOf rule) := by
  cases start : serverDay (member? rule "start") with
  | none =>
      rw [expand_of_no_days (by rw [start]; nofun)] at isExpanded
      cases isExpanded
  | some first =>
      cases stop : serverDay (member? rule "end") with
      | none =>
          rw [expand_of_no_days (by rw [stop]; nofun)] at isExpanded
          cases isExpanded
      | some last =>
          obtain ⟨_, _, read, _, valid⟩ := serverDay_eq_some.mp stop
          have short := (isoDate_of_dateParts read).2
          have yearLt := short.year_lt
          have upper := ordinal_le_dateMax valid (by omega)
          rw [expand_of_days start stop] at isExpanded
          split at isExpanded
          · cases isExpanded
          · next ordered =>
              split at isExpanded
              · cases isExpanded
              · next within =>
                  split at isExpanded
                  · next takes =>
                      have early : last.ordinal < dateMax := by
                        by_contra late
                        rw [serverWalk_raises _ (by omega) (by omega)] at isExpanded
                        cases isExpanded
                      exact ⟨first, last, start, stop, by omega, by omega, early,
                        readAs_of_takes takes⟩
                  · cases isExpanded

/-! ## The stored members -/

namespace Repeat

/-- The chosen weekdays in order. -/
def sorted : Repeat → Repeat
  | .weekly weekdays => .weekly (sortedDistinct weekdays)
  | meaning => meaning

def frequency : Repeat → Text
  | .daily => "daily".toList
  | .weekly _ => "weekly".toList
  | _ => "monthly".toList

/-- The member that the frequency uses. -/
def choice : Repeat → Members
  | .daily => []
  | .weekly weekdays => [("weekdays", .array (weekdays.map .int))]
  | .dayOfMonth day => [("monthly", .object [("day", .int day)])]
  | .weekdayOfMonth ordinal weekday =>
      [("monthly", .object [("ordinal", .int ordinal), ("weekday", .int weekday)])]

theorem picks_sorted (meaning : Repeat) (number : Int) :
    meaning.sorted.picks number = meaning.picks number := by
  cases meaning with
  | weekly weekdays =>
      unfold sorted picks
      rw [Bool.eq_iff_iff, List.contains_iff_mem, List.contains_iff_mem, mem_sortedDistinct]
  | _ => rfl

theorem visit_sorted (meaning : Repeat) : meaning.sorted.visit = meaning.visit := by
  funext number found
  unfold visit
  rw [picks_sorted]
  cases meaning <;> rfl

@[simp] theorem sorted_sorted (meaning : Repeat) : meaning.sorted.sorted = meaning.sorted := by
  cases meaning with
  | weekly weekdays => exact congrArg weekly (sortedDistinct_sortedDistinct weekdays)
  | _ => rfl

end Repeat

/-- A rule in its stored form. -/
def ruleOf (start stop : Text) (meaning : Repeat) : Members :=
  [("frequency", .string meaning.frequency), ("start", .string start),
    ("end", .string stop)] ++ meaning.choice

theorem member?_ruleOf_start (start stop : Text) (meaning : Repeat) :
    member? (ruleOf start stop meaning) "start" = some (.string start) :=
  rfl

theorem member?_ruleOf_end (start stop : Text) (meaning : Repeat) :
    member? (ruleOf start stop meaning) "end" = some (.string stop) :=
  rfl

/-- A stored form is read as the choice it is made of. -/
theorem ReadAs.ruleOf {rule : Members} {meaning : Repeat} (read : ReadAs rule meaning)
    (start stop : Text) :
    ReadAs (Campaigns.ruleOf start stop meaning.sorted) meaning.sorted := by
  cases read with
  | daily frequency => exact .daily rfl
  | weekly weekdays frequency given some bounded =>
      refine .weekly (sortedDistinct weekdays) rfl rfl ?_ ?_
      · exact fun isNil => some (sortedDistinct_eq_nil.mp isNil)
      · exact fun weekday member => bounded weekday (mem_sortedDistinct.mp member)
  | dayOfMonth day frequency isDay noOrdinal noWeekday bounded =>
      exact .dayOfMonth day rfl rfl rfl rfl bounded
  | weekdayOfMonth ordinal weekday frequency noDay isOrdinal isWeekday allowed bounded =>
      exact .weekdayOfMonth ordinal weekday rfl rfl rfl rfl allowed bounded

/-- The members that are kept are the ones of the stored form. -/
theorem ReadAs.canonicalMembers_eq {rule : Members} {meaning : Repeat}
    (read : ReadAs rule meaning) {start stop : Text}
    (isStart : member? rule "start" = some (.string start))
    (isStop : member? rule "end" = some (.string stop)) :
    canonicalMembers rule = some (Campaigns.ruleOf start stop meaning.sorted) := by
  unfold canonicalMembers
  rw [isStart, isStop]
  cases read with
  | daily frequency =>
      rw [frequency]
      rfl
  | weekly weekdays frequency given some bounded =>
      have same : canonicalWeekdays rule = (sortedDistinct weekdays).map .int := by
        unfold canonicalWeekdays
        rw [given, List.map_map]
        exact congrArg (fun values => (sortedDistinct values).map Json.int) (List.map_id weekdays)
      rw [frequency, same]
      rfl
  | dayOfMonth day frequency isDay noOrdinal noWeekday bounded =>
      unfold canonicalMonthly
      rw [frequency, isDay]
      rfl
  | weekdayOfMonth ordinal weekday frequency noDay isOrdinal isWeekday allowed bounded =>
      unfold canonicalMonthly
      rw [frequency, noDay, isOrdinal, isWeekday]
      rfl

/-! ## The stored form of an accepted rule -/

theorem date_of_serverDay {value : Option Json} {date : CivilDate}
    (isDate : serverDay value = some date) :
    value = some (.string (isoDate date)) ∧ date.Valid ∧ date.Short ∧
      dateMin ≤ date.ordinal ∧ date.ordinal ≤ dateMax := by
  obtain ⟨text, isGiven, read, positive, valid⟩ := serverDay_eq_some.mp isDate
  obtain ⟨rfl, short⟩ := isoDate_of_dateParts read
  have yearLt := short.year_lt
  have lower := valid.ordinal_bounds.1
  have years := daysBeforeYear_mono positive
  have isMin : daysBeforeYear 1 = 0 := by decide
  refine ⟨isGiven, valid, short, ?_, ordinal_le_dateMax valid (by omega)⟩
  unfold dateMin
  omega

theorem serverDay_isoDate {date : CivilDate} (valid : date.Valid) (positive : 1 ≤ date.year)
    (upper : date.year ≤ 9999) : serverDay (some (.string (isoDate date))) = some date :=
  serverDay_eq_some.mpr
    ⟨_, rfl, dateParts_isoDate (valid.short (by omega) upper), positive, valid⟩

theorem Accepted.stored {rule : Members} {first last : CivilDate} {meaning : Repeat}
    (accepted : Accepted rule first last meaning) :
    Accepted (ruleOf (isoDate first) (isoDate last) meaning.sorted) first last
      meaning.sorted := by
  have start := date_of_serverDay accepted.start
  have stop := date_of_serverDay accepted.stop
  refine ⟨?_, ?_, accepted.ordered, accepted.within, accepted.early, accepted.read.ruleOf _ _⟩
  · rw [member?_ruleOf_start, ← start.1]
    exact accepted.start
  · rw [member?_ruleOf_end, ← stop.1]
    exact accepted.stop

theorem Accepted.canonicalRule_eq {rule : Members} {first last : CivilDate} {meaning : Repeat}
    (accepted : Accepted rule first last meaning) :
    canonicalRule rule = some (some (ruleOf (isoDate first) (isoDate last) meaning.sorted)) := by
  have start := date_of_serverDay accepted.start
  have stop := date_of_serverDay accepted.stop
  unfold canonicalRule
  rw [accepted.expand_eq, Option.bind_eq_bind, Option.bind_some]
  dsimp only
  rw [accepted.read.canonicalMembers_eq start.1 stop.1]
  rfl

theorem accepted_of_canonicalRule {rule stored : Members}
    (isStored : canonicalRule rule = some (some stored)) :
    ∃ first last, Accepted rule first last (meaningOf rule) ∧
      stored = ruleOf (isoDate first) (isoDate last) (meaningOf rule).sorted := by
  cases isExpanded : expand rule with
  | none =>
      unfold canonicalRule at isStored
      rw [isExpanded] at isStored
      cases isStored
  | some outcome =>
      cases outcome with
      | error code =>
          unfold canonicalRule at isStored
          rw [isExpanded] at isStored
          cases isStored
      | expanded expansion =>
          obtain ⟨first, last, accepted⟩ := accepted_of_expand isExpanded
          rw [accepted.canonicalRule_eq] at isStored
          exact ⟨first, last, accepted, (Option.some.inj (Option.some.inj isStored)).symm⟩

/-- The stored form of a stored form. -/
theorem canonicalRule_stored {rule stored : Members}
    (isStored : canonicalRule rule = some (some stored)) :
    canonicalRule stored = some (some stored) := by
  obtain ⟨first, last, accepted, rfl⟩ := accepted_of_canonicalRule isStored
  rw [accepted.stored.canonicalRule_eq, Repeat.sorted_sorted]

theorem expand_stored {rule stored : Members}
    (isStored : canonicalRule rule = some (some stored)) : expand stored = expand rule := by
  obtain ⟨first, last, accepted, rfl⟩ := accepted_of_canonicalRule isStored
  rw [accepted.stored.expand_eq, accepted.expand_eq]
  unfold found
  rw [Repeat.visit_sorted]

theorem ruleOf_inj {start stop otherStart otherStop : Text} {meaning other : Repeat} :
    ruleOf start stop meaning = ruleOf otherStart otherStop other ↔
      start = otherStart ∧ stop = otherStop ∧ meaning = other := by
  constructor
  · intro same
    unfold ruleOf at same
    simp only [List.cons_append, List.nil_append, List.cons.injEq, Prod.mk.injEq, true_and,
      Json.string.injEq] at same
    obtain ⟨_, sameStart, sameStop, sameChoice⟩ := same
    refine ⟨sameStart, sameStop, ?_⟩
    cases meaning <;> cases other <;> simp_all [Repeat.choice]
    exact List.map_injective_iff.mpr (fun _ _ => Json.int.inj) sameChoice
  · rintro ⟨rfl, rfl, rfl⟩
    rfl

/-- A rule that expands has a stored form, which expands to the same dates and
missing months and is its own stored form. Two such rules are stored alike just
when they have the same start, the same end and the same choice of days. -/
theorem canonicalRule_normalizes {rule : Members} {expansion : Expansion}
    (isExpanded : expand rule = some (.expanded expansion)) :
    ∃ stored, canonicalRule rule = some (some stored) ∧
      expand stored = some (.expanded expansion) ∧
      canonicalRule stored = some (some stored) ∧
      ∀ other otherExpansion, expand other = some (.expanded otherExpansion) →
        (canonicalRule other = canonicalRule rule ↔
          serverDay (member? other "start") = serverDay (member? rule "start") ∧
          serverDay (member? other "end") = serverDay (member? rule "end") ∧
          (meaningOf other).sorted = (meaningOf rule).sorted) := by
  obtain ⟨first, last, accepted⟩ := accepted_of_expand isExpanded
  refine ⟨_, accepted.canonicalRule_eq, ?_, canonicalRule_stored accepted.canonicalRule_eq, ?_⟩
  · rw [expand_stored accepted.canonicalRule_eq, isExpanded]
  · intro other otherExpansion otherExpanded
    obtain ⟨otherFirst, otherLast, others⟩ := accepted_of_expand otherExpanded
    obtain ⟨_, _, firstShort, _⟩ := date_of_serverDay accepted.start
    obtain ⟨_, _, lastShort, _⟩ := date_of_serverDay accepted.stop
    obtain ⟨_, _, otherFirstShort, _⟩ := date_of_serverDay others.start
    obtain ⟨_, _, otherLastShort, _⟩ := date_of_serverDay others.stop
    rw [others.canonicalRule_eq, accepted.canonicalRule_eq, Option.some_inj, Option.some_inj,
      ruleOf_inj, others.start, accepted.start, others.stop, accepted.stop, Option.some_inj,
      Option.some_inj]
    constructor
    · rintro ⟨sameFirst, sameLast, sameChoice⟩
      exact ⟨isoDate_injective otherFirstShort firstShort sameFirst,
        isoDate_injective otherLastShort lastShort sameLast, sameChoice⟩
    · rintro ⟨rfl, rfl, sameChoice⟩
      exact ⟨rfl, rfl, sameChoice⟩

/-- Mondays and Thursdays of two weeks, with the Thursday named first and again last. -/
def twoWeeks : Members :=
  [("start", .string "2054-10-05".toList), ("end", .string "2054-10-18".toList),
    ("weekdays", .array [.int 3, .int 0, .int 3]), ("frequency", .string "weekly".toList),
    ("monthly", .null)]

theorem twoWeeks_normalizes :
    ∃ stored, canonicalRule twoWeeks = some (some stored) ∧
      expand stored = some (.expanded ⟨["2054-10-05".toList, "2054-10-08".toList,
        "2054-10-12".toList, "2054-10-15".toList], []⟩) ∧
      canonicalRule stored = some (some stored) ∧
      ∀ other otherExpansion, expand other = some (.expanded otherExpansion) →
        (canonicalRule other = canonicalRule twoWeeks ↔
          serverDay (member? other "start") = serverDay (member? twoWeeks "start") ∧
          serverDay (member? other "end") = serverDay (member? twoWeeks "end") ∧
          (meaningOf other).sorted = (meaningOf twoWeeks).sorted) :=
  canonicalRule_normalizes rfl

end ParishKit.Campaigns
