import ParishKit.Campaigns.RepeatReading

/-!
# The days of a repeat rule

What the members of a rule mean, the days that it selects and the months that it
misses. Each loop visits a day as the meaning says, when the numbers that the
rule gives are integers.
-/

namespace ParishKit.Campaigns

open ParishKit.Lib

/-- The meaning of the members that the frequency uses. -/
inductive Repeat where
  | daily
  | weekly (weekdays : List Int)
  | dayOfMonth (day : Int)
  | weekdayOfMonth (ordinal weekday : Int)

namespace Repeat

/-- Every day, the chosen weekdays, the day of the month, or the last or the
`ordinal`-th of a weekday in its month: weeks after the first, which is one of
the first seven days. -/
def Selects : Repeat → Int → Prop
  | .daily, _ => True
  | .weekly weekdays, number => weekday number ∈ weekdays
  | .dayOfMonth day, number => (civil number).day = day
  | .weekdayOfMonth ordinal chosen, number =>
      weekday number = chosen ∧
        if ordinal = -1 then
          ∀ later, SameMonth later number → weekday later = chosen →
            later ≤ number
        else
          ∃ first, SameMonth first number ∧ (civil first).day ≤ 7 ∧
            number = first + 7 * (ordinal - 1)

/-- A month that has no such day. -/
def Misses (meaning : Repeat) (year : Int) (month : Nat) : Prop :=
  ∃ day, meaning = .dayOfMonth day ∧ daysInMonth year month < day

/-- The test of the loops. -/
def picks : Repeat → Int → Bool
  | .daily, _ => true
  | .weekly weekdays, number => weekdays.contains (weekday number)
  | .dayOfMonth day, number => decide ((civil number).day = day)
  | .weekdayOfMonth ordinal chosen, number =>
      decide (weekday number = chosen) &&
        if ordinal = -1 then
          decide (daysInMonth (civil number).year (civil number).month <
            (civil number).day + 7)
        else
          decide (((civil number).day + 6) / 7 = ordinal)

/-- The last day of a month that has no such day. -/
def lacks : Repeat → Int → Bool
  | .dayOfMonth day, number =>
      decide ((civil number).day =
          daysInMonth (civil number).year (civil number).month ∧
        daysInMonth (civil number).year (civil number).month < day)
  | _, _ => false

def visit (meaning : Repeat) (number : Int) (found : Expansion) : Expansion :=
  if meaning.picks number then
    found.addDate (isoDate (civil number))
  else if meaning.lacks number then
    found.addMissing (isoMonth (civil number).year (civil number).month)
  else
    found

theorem picks_iff (meaning : Repeat) (number : Int) :
    meaning.picks number = true ↔ meaning.Selects number := by
  cases meaning with
  | daily => exact ⟨fun _ => trivial, fun _ => rfl⟩
  | weekly weekdays => exact List.contains_iff_mem
  | dayOfMonth day => exact decide_eq_true_iff
  | weekdayOfMonth ordinal chosen =>
      have valid := civil_valid number
      have dayPos := valid.day_pos
      have dayLe := valid.day_le
      unfold picks Selects
      rw [Bool.and_eq_true, decide_eq_true_eq]
      refine and_congr_right fun isChosen => ?_
      by_cases isLast : ordinal = -1
      · rw [if_pos isLast, if_pos isLast, decide_eq_true_eq]
        constructor
        · intro noLater later same isWeekday
          have apart := same.sub
          have laterLe := (civil_valid later).day_le
          rw [same.1, same.2] at laterLe
          unfold weekday at isChosen isWeekday
          omega
        · intro last
          by_contra hasLater
          obtain ⟨same, _⟩ := @sameMonth_add number 7 (by omega) (by omega)
          have notLater := last (number + 7) same (by
            unfold weekday at isChosen ⊢
            omega)
          omega
      · rw [if_neg isLast, if_neg isLast, decide_eq_true_eq]
        constructor
        · intro isOrdinal
          obtain ⟨same, isDay⟩ := @sameMonth_add number (-(7 * (ordinal - 1)))
            (by omega) (by omega)
          exact ⟨_, same, by omega, by omega⟩
        · rintro ⟨first, same, early, isNumber⟩
          have apart := same.sub
          have firstPos := (civil_valid first).day_pos
          omega

theorem lacks_iff (meaning : Repeat) (number : Int) :
    meaning.lacks number = true ↔
      (civil number).day =
          daysInMonth (civil number).year (civil number).month ∧
        meaning.Misses (civil number).year (civil number).month := by
  cases meaning with
  | dayOfMonth day =>
      unfold lacks Misses
      rw [decide_eq_true_eq]
      refine and_congr_right fun _ => ?_
      constructor
      · exact fun short => ⟨day, rfl, short⟩
      · rintro ⟨other, isOther, short⟩
        cases isOther
        exact short
  | _ =>
      refine ⟨nofun, ?_⟩
      rintro ⟨_, _, isOther, _⟩
      cases isOther

theorem lacks_not_picks {meaning : Repeat} {number : Int}
    (isLacking : meaning.lacks number = true) :
    meaning.picks number = false := by
  cases meaning with
  | dayOfMonth day =>
      unfold lacks at isLacking
      unfold picks
      rw [decide_eq_true_eq] at isLacking
      rw [decide_eq_false_iff_not]
      omega
  | _ => cases isLacking

end Repeat

/-! ## A loop over days -/

def days (first : Int) (count : Nat) : List Int :=
  (List.range count).map fun index : Nat => first + index

theorem mem_days {first number : Int} {count : Nat} :
    number ∈ days first count ↔ first ≤ number ∧ number < first + count := by
  unfold days
  rw [List.mem_map]
  constructor
  · rintro ⟨index, member, rfl⟩
    have below := List.mem_range.mp member
    omega
  · rintro ⟨lower, upper⟩
    exact ⟨(number - first).toNat, List.mem_range.mpr (by omega), by omega⟩

theorem days_increasing (first : Int) (count : Nat) :
    (days first count).Pairwise (· < ·) := by
  refine List.pairwise_map.mpr (List.pairwise_lt_range.imp ?_)
  intro before after less
  omega

theorem days_succ (first : Int) (count : Nat) :
    days first (count + 1) = first :: days (first + 1) count := by
  unfold days
  rw [List.range_succ_eq_map, List.map_cons, List.map_map]
  have isFirst : first + ((0 : Nat) : Int) = first := by omega
  rw [isFirst]
  refine congrArg (first :: ·) (List.map_congr_left fun index _ => ?_)
  rw [Function.comp_apply]
  omega

/-- The rounds of the loop, day by day. -/
def visitAll (visit : Int → Expansion → Expansion) (numbers : List Int)
    (found : Expansion) : Expansion :=
  numbers.foldl (fun found number => visit number found) found

theorem visitAll_congr {first second : Int → Expansion → Expansion}
    {numbers : List Int} (same : ∀ number ∈ numbers, ∀ found,
      first number found = second number found) (found : Expansion) :
    visitAll first numbers found = visitAll second numbers found := by
  induction numbers generalizing found with
  | nil => rfl
  | cons number rest inductionHypothesis =>
      have here := same number List.mem_cons_self found
      unfold visitAll at inductionHypothesis ⊢
      rw [List.foldl_cons, List.foldl_cons, here]
      exact inductionHypothesis (fun later member =>
        same later (List.mem_cons_of_mem number member)) _

theorem serverWalk_eq {visit : Int → Expansion → Expansion} {left : Nat}
    {number : Int} (found : Expansion) (before : number + left ≤ dateMax) :
    serverWalk visit left number found =
      some (visitAll visit (days number left) found) := by
  induction left generalizing number found with
  | zero => rfl
  | succ left inductionHypothesis =>
      rw [serverWalk, if_neg (by omega), days_succ]
      exact inductionHypothesis (visit number found) (by omega)

/-- The loop raises when it reaches the last date there is. -/
theorem serverWalk_raises {visit : Int → Expansion → Expansion} {left : Nat}
    {number : Int} (found : Expansion) (before : number ≤ dateMax)
    (reached : dateMax < number + left) :
    serverWalk visit left number found = none := by
  induction left generalizing number found with
  | zero => omega
  | succ left inductionHypothesis =>
      rw [serverWalk]
      by_cases here : number = dateMax
      · rw [if_pos here]
      · rw [if_neg here]
        exact inductionHypothesis (visit number found) (by omega) (by omega)

theorem scriptWalk_eq (visit : Int → Expansion → Expansion) (left : Nat)
    (day : Int) (found : Expansion) :
    scriptWalk visit left day found =
      visitAll (fun number => visit (number - epoch)) (days (day + epoch) left)
        found := by
  induction left generalizing day found with
  | zero => rfl
  | succ left inductionHypothesis =>
      rw [scriptWalk, days_succ, inductionHypothesis]
      have next : day + 1 + epoch = day + epoch + 1 := by omega
      have back : day + epoch - epoch = day := by omega
      unfold visitAll
      rw [List.foldl_cons, next]
      dsimp only
      rw [back]

/-- What a loop that visits each day as a rule means has found. -/
theorem visitAll_repeat (meaning : Repeat) (numbers : List Int)
    (found : Expansion) :
    visitAll meaning.visit numbers found =
      ⟨found.dates ++
          (numbers.filter meaning.picks).map fun number => isoDate (civil number),
        found.missing ++ (numbers.filter meaning.lacks).map fun number =>
          isoMonth (civil number).year (civil number).month⟩ := by
  induction numbers generalizing found with
  | nil => simp [visitAll]
  | cons number rest inductionHypothesis =>
      unfold visitAll at inductionHypothesis ⊢
      rw [List.foldl_cons, inductionHypothesis, List.filter_cons,
        List.filter_cons]
      unfold Repeat.visit
      by_cases isPicked : meaning.picks number = true
      · have isKept : meaning.lacks number = false := by
          rw [Bool.eq_false_iff]
          intro isLacking
          rw [Repeat.lacks_not_picks isLacking] at isPicked
          cases isPicked
        simp [isPicked, isKept, Expansion.addDate]
      · by_cases isLacking : meaning.lacks number = true
        · simp [isPicked, isLacking, Expansion.addMissing]
        · simp [isPicked, isLacking]

end ParishKit.Campaigns
