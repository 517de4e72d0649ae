import ParishKit.ReminderSeries.Plan
import ParishKit.ReminderSeries.Upkeep

/-!
# The steps of a plan

What a plan that is made has gone through: the members of the series in order, the
cut, the dates of the result, and the reminders kept and added on them.
-/

namespace ParishKit.ReminderSeries

open ParishKit.Lib ParishKit.Campaigns ParishKit.Configuration

variable {Time : Type} {clock : Clock Time}

theorem orRaise_eq_ok {Value : Type} {value : Option Value} {result : Value} :
    orRaise value = .ok result ↔ value = some result := by
  cases value with
  | none => exact ⟨nofun, nofun⟩
  | some given =>
      constructor
      · rintro isResult
        cases isResult
        rfl
      · rintro isResult
        cases isResult
        rfl

/-! ## The members in order -/

theorem rowOf_eq_some {schedules : List (Entry Text Schedule)} {member : Text} {row : Row}
    (isRow : rowOf schedules member = some row) :
    row.member = member ∧ ∃ schedule, valuesOf schedules member = some schedule ∧
      schedule.date = some row.date ∧ schedule.time = row.time ∧
      schedule.templateVersion = row.templateVersion := by
  unfold rowOf at isRow
  obtain ⟨schedule, isSchedule, dated⟩ := Option.bind_eq_some_iff.mp isRow
  obtain ⟨date, isDate, made⟩ := Option.bind_eq_some_iff.mp dated
  cases made
  exact ⟨rfl, schedule, isSchedule, isDate, rfl, rfl⟩

/-- The rows are the members, each with its own values. -/
theorem orderedRows_eq_ok {schedules : List (Entry Text Schedule)} {members : List Text}
    {rows : List Row} (isOrdered : orderedRows clock schedules members = .ok rows) :
    (rows.map Row.member).Perm members ∧
      ∀ row ∈ rows, rowOf schedules row.member = some row := by
  unfold orderedRows at isOrdered
  obtain ⟨read, isRead, inOrder⟩ := except_bind_eq_ok isOrdered
  cases inOrder
  have each := option_mapM_eq_some (orRaise_eq_ok.mp isRead)
  have perm := List.perm_insertionSort (rowLe clock) read
  have sameMembers : read.map Row.member = members := by
    clear isRead isOrdered perm
    induction each with
    | nil => rfl
    | cons isRow _ inductionHypothesis =>
        rw [List.map_cons, inductionHypothesis, (rowOf_eq_some isRow).1]
  refine ⟨sameMembers ▸ perm.map Row.member, ?_⟩
  intro row isIn
  obtain ⟨member, _, isRow⟩ := exists_input_of_forall₂ each (perm.mem_iff.mp isIn)
  rw [(rowOf_eq_some isRow).1]
  exact isRow

/-! ## The cut -/

theorem cut_mem {rows : List Row} {readOnly : List Text} {scope : Scope}
    {start : Option Text} {anchor : Row}
    (isCut : cut rows readOnly scope start = .ok anchor) : anchor ∈ rows := by
  unfold cut at isCut
  split at isCut
  · split at isCut
    · next isFound =>
        cases isCut
        exact List.mem_of_find?_eq_some isFound
    · cases isCut
  · split at isCut
    · next isFound =>
        cases isCut
        exact List.mem_of_find?_eq_some isFound
    · cases isCut

/-- This and following is cut at the given reminder. -/
theorem cut_following {rows : List Row} {readOnly : List Text} {start : Option Text}
    {anchor : Row} (isCut : cut rows readOnly .following start = .ok anchor) :
    start = some anchor.member := by
  unfold cut at isCut
  rw [if_pos rfl] at isCut
  split at isCut
  · next isFound =>
      cases isCut
      have isStart := List.find?_some isFound
      rw [beq_iff_eq] at isStart
      exact isStart.symm
  · cases isCut

/-! ## The reminders placed -/

/-- What the loop has kept and added for the dates so far: each date once, on a kept
member that has it or on an added reminder. -/
structure Placed (after : List Row) (days : List Text) (placed : List Text × List Wanted) :
    Prop where
  rows : ∃ kept : List Row, placed.1 = kept.map Row.member ∧ (∀ row ∈ kept, row ∈ after) ∧
    (kept.map Row.date ++ placed.2.map Wanted.date).Perm days
  distinct : placed.1.Nodup

theorem wantedOn_date (values : NewValues) (anchor : Row) (target : Text × Option Row) :
    (wantedOn values anchor target).date = target.1 :=
  rfl

theorem Placed.add {after : List Row} {days : List Text} {placed : List Text × List Wanted}
    (sofar : Placed after days placed) (wanted : Wanted) :
    Placed after (days ++ [wanted.date]) (placed.1, placed.2 ++ [wanted]) := by
  obtain ⟨⟨kept, isKept, within, perm⟩, distinct⟩ := sofar
  refine ⟨⟨kept, isKept, within, ?_⟩, distinct⟩
  rw [List.map_append, ← List.append_assoc]
  exact perm.append_right _

theorem Placed.place {after : List Row} {days : List Text}
    {placed : List Text × List Wanted} (sofar : Placed after days placed)
    (values : NewValues) (anchor : Row) (target : Text × Option Row)
    (dated : ∀ row, target.2 = some row → row ∈ after ∧ row.date = target.1) :
    Placed after (days ++ [target.1]) (placeTarget clock values anchor placed target) := by
  have added := sofar.add (wantedOn values anchor target)
  rw [wantedOn_date] at added
  unfold placeTarget
  dsimp only
  cases isRow : target.2 with
  | none => exact added
  | some row =>
      dsimp only
      split_ifs with keeps
      · obtain ⟨isIn, isDate⟩ := dated row isRow
        obtain ⟨⟨kept, isKept, within, perm⟩, distinct⟩ := sofar
        refine ⟨⟨kept ++ [row], ?_, ?_, ?_⟩, ?_⟩
        · rw [isKept, List.map_append]
          rfl
        · intro other member
          rcases List.mem_append.mp member with member | last
          · exact within other member
          · rw [List.mem_singleton.mp last]
            exact isIn
        · have moved : (kept.map Row.date ++ [row.date] ++ placed.2.map Wanted.date).Perm
              (kept.map Row.date ++ placed.2.map Wanted.date ++ [row.date]) := by
            rw [List.append_assoc, List.append_assoc]
            exact (List.perm_append_comm).append_left _
          rw [List.map_append, ← isDate]
          exact moved.trans (perm.append_right _)
        · rw [List.nodup_append]
          refine ⟨distinct, List.nodup_singleton _, ?_⟩
          rintro other member last isLast rfl
          rw [List.mem_singleton.mp isLast] at member
          exact keeps.1 member
      · exact added

theorem placed_foldl {after : List Row} (values : NewValues) (anchor : Row)
    {wanted : List (Text × Option Row)}
    (dated : ∀ target ∈ wanted, ∀ row, target.2 = some row →
      row ∈ after ∧ row.date = target.1) :
    Placed after (wanted.map Prod.fst)
      (wanted.foldl (placeTarget clock values anchor) ([], [])) := by
  induction wanted using List.reverseRecOn with
  | nil => exact ⟨⟨[], rfl, nofun, List.Perm.refl _⟩, List.nodup_nil⟩
  | append_singleton wanted last inductionHypothesis =>
      rw [List.foldl_append, List.map_append]
      refine (inductionHypothesis fun target member => ?_).place values anchor last ?_
      · exact dated target (List.mem_append_left _ member)
      · exact dated last (List.mem_append_right _ List.mem_cons_self)

/-! ## The dates of the result -/

theorem storedRule_eq_ok {rule stored : Members} (isStored : storedRule rule = .ok stored) :
    canonicalRule rule = some (some stored) := by
  unfold storedRule at isStored
  split at isStored
  · next given isGiven =>
      cases isStored
      exact isGiven
  · cases isStored

/-- Each date comes with a member that has it, or none. -/
theorem targets_dated {oldRule newRule : Members} {cutDate : Text} {after : List Row}
    {rule : Option Members} {wanted : List (Text × Option Row)}
    (isTargets : targets oldRule cutDate after rule = .ok (wanted, newRule)) :
    ∀ target ∈ wanted, ∀ row, target.2 = some row → row ∈ after ∧ row.date = target.1 := by
  unfold targets at isTargets
  intro target member row isRow
  cases rule with
  | none =>
      obtain ⟨_, _, made⟩ := except_bind_eq_ok isTargets
      cases made
      obtain ⟨one, isOne, rfl⟩ := List.mem_map.mp member
      cases isRow
      exact ⟨isOne, rfl⟩
  | some given =>
      obtain ⟨days, _, made⟩ := except_bind_eq_ok isTargets
      cases made
      obtain ⟨day, _, rfl⟩ := List.mem_map.mp member
      have isDate := List.find?_some isRow
      exact ⟨List.mem_of_find?_eq_some isRow, beq_iff_eq.mp isDate⟩

/-- The rule of the result is a stored form, and gives the dates of the result. -/
theorem targets_rule {oldRule newRule : Members} {dates : List Text} {cutDate : Text}
    {after : List Row} {rule : Option Members} {wanted : List (Text × Option Row)}
    (isDates : ruleDates oldRule = some dates) (isCut : cutDate ∈ dates)
    (late : ∀ row ∈ after, row.date ∈ dates ∧ ¬ row.date < cutDate)
    (ruleStored : ∀ given ∈ rule, canonicalRule given = some (some given))
    (isTargets : targets oldRule cutDate after rule = .ok (wanted, newRule)) :
    canonicalRule newRule = some (some newRule) ∧
      ∃ newDates, ruleDates newRule = some newDates ∧
        (∀ day ∈ wanted.map Prod.fst, day ∈ newDates) ∧
        ∀ given ∈ rule, newRule = given ∧ wanted.map Prod.fst = newDates := by
  unfold targets at isTargets
  cases rule with
  | none =>
      obtain ⟨stored, isStored, made⟩ := except_bind_eq_ok isTargets
      cases made
      obtain ⟨other, later, isOther, isLater, gives⟩ := canonicalRule_from isDates isCut
      rw [storedRule_eq_ok isStored] at isOther
      cases isOther
      refine ⟨canonicalRule_stored (storedRule_eq_ok isStored), later, isLater, ?_, nofun⟩
      intro day member
      rw [List.map_map] at member
      obtain ⟨row, isRow, rfl⟩ := List.mem_map.mp member
      exact (gives _).mpr (late row isRow)
  | some given =>
      obtain ⟨days, isDays, made⟩ := except_bind_eq_ok isTargets
      cases made
      have same : (days.map fun day =>
          (day, after.find? fun row => row.date == day)).map Prod.fst = days := by
        rw [List.map_map]
        exact List.map_id days
      refine ⟨ruleStored newRule rfl, days, orRaise_eq_ok.mp isDays, ?_, ?_⟩
      · rw [same]
        exact fun day member => member
      · intro other isOther
        cases isOther
        exact ⟨rfl, same⟩

/-! ## The outcome -/

/-- The rows of the earlier dates. -/
def beforeCut (rows : List Row) (anchor : Row) : List Row :=
  rows.filter fun row => row.date < anchor.date

/-- The rows from the cut date on. -/
def afterCut (rows : List Row) (anchor : Row) : List Row :=
  rows.filter fun row => ¬ row.date < anchor.date

/-- The members from the cut date on that are not kept. -/
def replacedMembers (after : List Row) (keep : List Text) : List Text :=
  (after.map Row.member).filter fun member => member ∉ keep

def inOrder (members : List Text) : List Text :=
  members.insertionSort fun left right => left ≤ right

/-- The change of a series that keeps its earlier reminders. -/
theorem endBefore_eq_ok {series : Entry Text Series} {cutDate : Text} {before : List Text}
    {shortened : SeriesEdit} (isShortened : endBefore series cutDate before = .ok shortened) :
    ∃ last rule, dayBefore cutDate = some last ∧
      canonicalRule (withMember series.values.rule "end" (.string last)) = some (some rule) ∧
      shortened = .update series.key ⟨none, some rule, some (inOrder before)⟩ := by
  unfold endBefore at isShortened
  obtain ⟨last, isLast, shorten⟩ := except_bind_eq_ok isShortened
  obtain ⟨rule, isRule, made⟩ := except_bind_eq_ok shorten
  cases made
  exact ⟨last, rule, orRaise_eq_ok.mp isLast, storedRule_eq_ok isRule, rfl⟩

/-- A plan that is made and does not delete: the cut, the dates of the result, and
the outcome. -/
structure Replaces (clock : Clock Time) (series : Entry Text Series) (rows : List Row)
    (readOnly : List Text) (scope : Scope) (start : Option Text) (rule : Option Members)
    (values : NewValues) (anchor : Row) (wanted : List (Text × Option Row))
    (newRule : Members) (outcome : Outcome) : Prop where
  isCut : cut rows readOnly scope start = .ok anchor
  unsent : ∀ row ∈ afterCut rows anchor, row.member ∉ readOnly
  targets : targets series.values.rule anchor.date (afterCut rows anchor) rule =
    .ok (wanted, newRule)
  someWanted : wanted ≠ []
  outcome :
    let placed := wanted.foldl (placeTarget clock values anchor) ([], [])
    let remove := replacedMembers (afterCut rows anchor) placed.1
    outcome = .nothing ∨
    (beforeCut rows anchor = [] ∧ outcome =
      ⟨remove, placed.2, some ⟨some series.key, newRule, inOrder placed.1⟩, []⟩) ∨
    beforeCut rows anchor ≠ [] ∧ ∃ shortened,
      endBefore series anchor.date ((beforeCut rows anchor).map Row.member) = .ok shortened ∧
      outcome =
        ⟨remove, placed.2, some ⟨none, newRule, inOrder placed.1⟩, [shortened]⟩

theorem plan_eq_ok {series : Entry Text Series} {schedules : List (Entry Text Schedule)}
    {readOnly : List Text} {scope : Scope} {start : Option Text} {rule : Option Members}
    {values : NewValues} {outcome : Outcome}
    (planned : plan clock series schedules readOnly scope start rule values = .ok outcome) :
    ∃ rows, orderedRows clock schedules series.values.schedules = .ok rows ∧
      (scope = .delete ∧
          outcome = ⟨(rows.map Row.member).filter fun member => member ∉ readOnly, [], none,
            [.remove series.key]⟩ ∨
        ∃ anchor wanted newRule, Replaces clock series rows readOnly scope start rule values
          anchor wanted newRule outcome) := by
  unfold plan at planned
  obtain ⟨rows, isOrdered, planned⟩ := except_bind_eq_ok planned
  refine ⟨rows, isOrdered, ?_⟩
  split at planned
  · next deletes =>
      cases planned
      exact Or.inl ⟨deletes, rfl⟩
  · obtain ⟨anchor, isCut, planned⟩ := except_bind_eq_ok planned
    dsimp only at planned
    split at planned
    · cases planned
    · next unsent =>
        obtain ⟨early, _, planned⟩ := except_bind_eq_ok planned
        split at planned
        · cases planned
        · obtain ⟨⟨wanted, newRule⟩, isTargets, planned⟩ := except_bind_eq_ok planned
          dsimp only at planned
          split at planned
          · cases planned
          · next some =>
              obtain ⟨unchanged, _, planned⟩ := except_bind_eq_ok planned
              refine Or.inr ⟨anchor, wanted, newRule, isCut, ?_, isTargets, some, ?_⟩
              · intro row isAfter sent
                apply unsent
                rw [List.any_eq_true]
                exact ⟨row, isAfter, decide_eq_true sent⟩
              · dsimp only
                split at planned
                · cases planned
                  exact Or.inl rfl
                · split at planned
                  · next noBefore =>
                      cases planned
                      exact Or.inr (Or.inl ⟨noBefore, rfl⟩)
                  · next isBefore =>
                      obtain ⟨shortened, isShortened, planned⟩ := except_bind_eq_ok planned
                      cases planned
                      exact Or.inr (Or.inr ⟨isBefore, shortened, isShortened, rfl⟩)

end ParishKit.ReminderSeries
