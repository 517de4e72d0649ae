import ParishKit.Campaigns.ScheduleRecovery
import ParishKit.Lib.Except

/-!
# Missed mail over whole runs

A decision sends an owed invitation before any reminder and covers only what is
due, not held and still open. So over any run no invitation is covered by another
message, and deciding again changes nothing.
-/

namespace ParishKit.Campaigns

open ParishKit.Lib

/-- A row that a decision may consume. -/
def RecoverySlot.isCandidate (cutoff : Int) (row : RecoverySlot) : Bool :=
  row.isDue cutoff && row.state.isOpen

/-- What a decision on some rows of a Family's mail may do. -/
structure SafeDecision (mail : FamilyMail) (chosen : List Nat) (cutoff : Int)
    (flags : RecoveryFlags) (plan : RecoveryPlan) : Prop where
  initialKept : ∀ row ∈ mail.group chosen, row.kind = .initial →
    row.occurrenceId ∉ plan.coalesced
  reminderSelected : ∀ row ∈ mail.group chosen, row.kind = .reminder →
    plan.selected = some row.occurrenceId →
    ∀ initial ∈ mail.group chosen, initial.kind = .initial →
      initial.isDue cutoff = true →
      initial.state ≠ .pending ∧
        ((initial.state = .failed ∨ initial.state = .skipped ∨
          initial.state = .coalesced) → flags.initialDelivered = true)
  untouched : ∀ row ∈ mail.group chosen,
    row.held = true ∨ cutoff < row.dueAt ∨ row.state.isTerminal = true →
    plan.selected ≠ some row.occurrenceId ∧
      row.occurrenceId ∉ plan.coalesced ∧ row.occurrenceId ∉ plan.skipped
  unresolved : ∀ row ∈ mail.group chosen, row.isDue cutoff = true →
    row.isUnresolved = true → mail.persistDecision plan = mail
  partition : plan.blocked = false →
    (∃ row ∈ mail.group chosen, row.isCandidate cutoff = true) →
    (∃ selected, plan.selected = some selected ∧ plan.skipped = [] ∧
        (selected :: plan.coalesced).Perm
          (((mail.group chosen).filter (·.isCandidate cutoff)).map
            (·.occurrenceId))) ∨
      (plan.selected = none ∧ plan.coalesced = [] ∧
        plan.skipped.Perm
          (((mail.group chosen).filter (·.isCandidate cutoff)).map
            (·.occurrenceId)))
  again : ∃ repeated, planRecovery ((mail.persistDecision plan).group chosen)
      cutoff flags = .ok repeated ∧
    repeated.selected = plan.selected ∧ repeated.coalesced = []

/-! ## The overdue rows -/

theorem mem_overdue {slots : List RecoverySlot} {cutoff : Int}
    {row : RecoverySlot} :
    row ∈ overdue slots cutoff ↔ row ∈ slots ∧ row.isDue cutoff = true := by
  unfold overdue
  rw [List.mem_insertionSort, List.mem_filter]

theorem candidates_perm (slots : List RecoverySlot) (cutoff : Int) :
    ((overdue slots cutoff).filter (·.state.isOpen)).Perm
      (slots.filter (·.isCandidate cutoff)) := by
  have sorted := (List.perm_insertionSort (fun first second =>
    RecoverySlot.before first second = true) (slots.filter (·.isDue cutoff)))
  refine (sorted.filter _).trans ?_
  rw [List.filter_filter]
  refine List.Perm.of_eq (List.filter_congr fun row _ => ?_)
  exact Bool.and_comm _ _

/-! ## One decision -/

/-- What a decision on a group's overdue rows comes to. -/
inductive Planned (isFamily : Bool) (flags : RecoveryFlags)
    (overdue : List RecoverySlot) : RecoveryPlan → Prop where
  | unresolved {reason : Option RecoveryReason} :
      Planned isFamily flags overdue { blocked := true, reason := reason }
  | idle (settled : ∀ row ∈ overdue, row.isUnresolved = false)
      (closed : ∀ row ∈ overdue, row.state.isOpen = false) :
      Planned isFamily flags overdue {}
  | skips {reason : RecoveryReason}
      (settled : ∀ row ∈ overdue, row.isUnresolved = false) :
      Planned isFamily flags overdue {
        skipped := (overdue.filter (·.state.isOpen)).map (·.occurrenceId)
        reason := some reason }
  | recovers {selected : RecoverySlot} {reason : RecoveryReason}
      (settled : ∀ row ∈ overdue, row.isUnresolved = false)
      (member : selected ∈ overdue.filter (·.state.isOpen))
      (sends : isFamily = true → skipReason flags = none)
      (fulfilled : isFamily = true → flags.initialDelivered = false →
        ∀ row ∈ overdue, row.isUnfulfilled = false)
      (owed : isFamily = true → flags.initialDelivered = true →
        selected.kind ≠ .initial)
      (first : isFamily = true → (∃ row ∈ overdue.filter (·.state.isOpen),
        row.kind = .initial) → selected.kind = .initial) :
      Planned isFamily flags overdue
        (recoverInto selected (overdue.filter (·.state.isOpen)) reason)

theorem fulfilled_of_any
    {delivered : Bool} {rows : List RecoverySlot}
    (held : ¬ (!delivered && rows.any (·.isUnfulfilled)) = true)
    (notDelivered : delivered = false) :
    ∀ row ∈ rows, row.isUnfulfilled = false := by
  intro row member
  by_contra unfulfilled
  refine held ?_
  rw [notDelivered, Bool.not_false, Bool.true_and]
  exact List.any_eq_true.mpr ⟨row, member, Bool.not_eq_false _ ▸ unfulfilled⟩

theorem planOverdue_planned
    {isFamily : Bool} {flags : RecoveryFlags} {overdue : List RecoverySlot}
    {plan : RecoveryPlan} (planned : planOverdue isFamily flags overdue = .ok plan) :
    Planned isFamily flags overdue plan := by
  rw [planOverdue] at planned
  by_cases open' : overdue.any (·.isUnresolved) = true
  · rw [if_pos open'] at planned
    cases planned
    exact .unresolved
  · rw [if_neg open'] at planned
    have settled : ∀ row ∈ overdue, row.isUnresolved = false := by
      intro row member
      by_contra unresolved
      exact open' (List.any_eq_true.mpr
        ⟨row, member, Bool.not_eq_false _ ▸ unresolved⟩)
    dsimp only at planned
    cases isLast : (overdue.filter (·.state.isOpen)).getLast? with
    | none =>
        rw [isLast] at planned
        cases planned
        rw [List.getLast?_eq_none_iff] at isLast
        refine .idle settled fun row member => ?_
        exact Bool.not_eq_true _ ▸ List.filter_eq_nil_iff.mp isLast row member
    | some last =>
        rw [isLast] at planned
        have isMember := List.mem_of_getLast? isLast
        cases isFamily with
        | false =>
            cases planned
            exact .recovers settled isMember nofun nofun nofun nofun
        | true =>
            simp only [if_true] at planned
            cases isReason : skipReason flags with
            | some reason =>
                rw [isReason] at planned
                cases planned
                exact .skips settled
            | none =>
                rw [isReason] at planned
                dsimp only at planned
                split at planned
                · cases planned
                  exact .unresolved
                · rename_i held
                  have fulfilled := fulfilled_of_any held
                  split at planned
                  · rename_i initial isFirst
                    have found := List.find?_some isFirst
                    have isInitial : initial.kind = .initial :=
                      of_decide_eq_true found
                    split at planned
                    · cases planned
                    · rename_i delivered
                      cases planned
                      exact .recovers settled (List.mem_of_find?_eq_some isFirst)
                        (fun _ => isReason) (fun _ => fulfilled)
                        (fun _ isDelivered => absurd isDelivered delivered)
                        fun _ _ => isInitial
                  · rename_i noInitial
                    have noneInitial : ∀ row ∈ overdue.filter (·.state.isOpen),
                        row.kind ≠ .initial := by
                      intro row member isInitial
                      exact List.find?_eq_none.mp noInitial row member
                        (decide_eq_true isInitial)
                    cases planned
                    exact .recovers settled isMember (fun _ => isReason)
                      (fun _ => fulfilled) (fun _ _ => noneInitial last isMember)
                      fun _ ⟨row, member, isInitial⟩ =>
                        absurd isInitial (noneInitial row member)

/-! ## Valid groups -/

/-- What `_validate_group` lets through. -/
structure ValidGroup (isFamily : Bool) (slots : List RecoverySlot) : Prop where
  distinct : (slots.map (·.occurrenceId)).Nodup
  kinds : ∀ row ∈ slots, row.kind.isFamily = isFamily
  oneInitial : ∀ row ∈ slots, row.kind = .initial → ∀ other ∈ slots,
    other.kind = .initial → row = other

theorem validateGroup_valid
    {first : RecoverySlot} {slots : List RecoverySlot}
    (valid : validateGroup first slots = true) :
    ValidGroup first.kind.isFamily slots := by
  unfold validateGroup at valid
  simp only [Bool.and_eq_true, List.all_eq_true, decide_eq_true_eq] at valid
  obtain ⟨⟨⟨⟨same, distinct⟩, _⟩, _⟩, initials⟩ := valid
  refine ⟨distinct, fun row member => ?_, ?_⟩
  · have isKind := (same row member).2
    cases isFamily : first.kind.isFamily with
    | true => rwa [isFamily] at isKind
    | false =>
        rw [isFamily, if_neg Bool.false_ne_true, decide_eq_true_eq] at isKind
        rw [isKind, isFamily]
  · intro row member isInitial other isOther otherInitial
    have inRows : row ∈ slots.filter fun row => row.kind = .initial :=
      List.mem_filter.mpr ⟨member, decide_eq_true isInitial⟩
    have inOthers : other ∈ slots.filter fun row => row.kind = .initial :=
      List.mem_filter.mpr ⟨isOther, decide_eq_true otherInitial⟩
    generalize slots.filter (fun row => row.kind = .initial) = found at *
    match found, initials with
    | [], _ => cases inRows
    | [only], _ =>
        rw [List.mem_singleton.mp inRows, List.mem_singleton.mp inOthers]

/-- What a decision comes to, when it does not raise. -/
theorem planRecovery_planned
    {slots : List RecoverySlot} {cutoff : Int} {flags : RecoveryFlags}
    {plan : RecoveryPlan} (planned : planRecovery slots cutoff flags = .ok plan) :
    ∃ isFamily, ValidGroup isFamily slots ∧
      Planned isFamily flags (overdue slots cutoff) plan := by
  unfold planRecovery at planned
  split at planned
  · cases planned
  · cases slots with
    | nil =>
        cases planned
        exact ⟨false, ⟨List.nodup_nil, nofun, nofun⟩, .idle nofun nofun⟩
    | cons first rest =>
        dsimp only at planned
        split at planned
        · rename_i valid
          exact ⟨_, validateGroup_valid valid, planOverdue_planned planned⟩
        · cases planned

/-! ## What a decision leaves -/

/-- What a plan leaves of a row's state. -/
def RecoverySlot.decided (plan : RecoveryPlan) (row : RecoverySlot) : RecoverySlot :=
  { row with
    state := if plan.coalesced.contains row.occurrenceId then .coalesced
      else if plan.skipped.contains row.occurrenceId then .skipped
      else row.state }

theorem GroupRow.decided_slot (plan : RecoveryPlan) (row : GroupRow) :
    (row.decided plan).slot = row.slot.decided plan := by
  unfold GroupRow.decided RecoverySlot.decided
  split
  · rfl
  · split <;> rfl

theorem group_persistDecision
    (mail : FamilyMail) (chosen : List Nat) {plan : RecoveryPlan}
    (unblocked : plan.blocked = false) :
    (mail.persistDecision plan).group chosen =
      (mail.group chosen).map (·.decided plan) := by
  rw [FamilyMail.persistDecision, unblocked, if_neg Bool.false_ne_true]
  change ((mail.rows.map (·.decided plan)).map (·.slot)).filter _ = _
  have same : (fun row : GroupRow => row.slot) ∘ (·.decided plan) =
      (·.decided plan) ∘ fun row : GroupRow => row.slot :=
    funext fun row => row.decided_slot plan
  rw [List.map_map, same, ← List.map_map, List.filter_map]
  rfl

theorem validateGroup_decided
    (plan : RecoveryPlan) (first : RecoverySlot) (slots : List RecoverySlot) :
    validateGroup (first.decided plan) (slots.map (·.decided plan)) =
      validateGroup first slots := by
  unfold validateGroup
  rw [List.all_map, List.all_map, List.map_map, List.map_map, List.filter_map,
    List.length_map]
  rfl

theorem overdue_decided
    (plan : RecoveryPlan) (slots : List RecoverySlot) (cutoff : Int) :
    overdue (slots.map (·.decided plan)) cutoff =
      (overdue slots cutoff).map (·.decided plan) := by
  unfold overdue
  rw [List.filter_map]
  symm
  refine List.map_insertionSort _ _ _ _ fun first _ second _ => ?_
  exact Iff.rfl

/-- Deciding again of what a plan leaves. -/
theorem planRecovery_decided
    {slots : List RecoverySlot} {cutoff : Int} {flags : RecoveryFlags}
    {plan repeated : RecoveryPlan} {isFamily : Bool}
    (planned : planRecovery slots cutoff flags = .ok plan)
    (valid : ValidGroup isFamily slots) (nonempty : slots ≠ [])
    (again : planOverdue isFamily flags
      ((overdue slots cutoff).map (·.decided plan)) = .ok repeated) :
    planRecovery (slots.map (·.decided plan)) cutoff flags = .ok repeated := by
  cases slots with
  | nil => exact absurd rfl nonempty
  | cons first rest =>
      have isKind := valid.kinds first List.mem_cons_self
      unfold planRecovery at planned ⊢
      rw [List.length_map]
      split at planned
      · cases planned
      · rename_i bounded
        rw [if_neg bounded]
        dsimp only at planned
        split at planned
        · rename_i isValid
          rw [← validateGroup_decided plan] at isValid
          change (if validateGroup (first.decided plan)
              ((first :: rest).map (·.decided plan)) = true then
              planOverdue first.kind.isFamily flags
                (overdue ((first :: rest).map (·.decided plan)) cutoff)
            else _) = _
          rw [if_pos isValid, overdue_decided, isKind]
          exact again
        · cases planned

theorem any_isUnresolved
    {rows : List RecoverySlot}
    (settled : ∀ row ∈ rows, row.isUnresolved = false) :
    rows.any (·.isUnresolved) = false := by
  rw [List.any_eq_false]
  intro row member
  rw [settled row member]
  exact Bool.false_ne_true

theorem planOverdue_closed
    {isFamily : Bool} {flags : RecoveryFlags} {rows : List RecoverySlot}
    (settled : ∀ row ∈ rows, row.isUnresolved = false)
    (closed : ∀ row ∈ rows, row.state.isOpen = false) :
    planOverdue isFamily flags rows = .ok {} := by
  have noneOpen : rows.filter (·.state.isOpen) = [] := by
    refine List.filter_eq_nil_iff.mpr fun row member => ?_
    rw [closed row member]
    exact Bool.false_ne_true
  rw [planOverdue, any_isUnresolved settled, if_neg Bool.false_ne_true, noneOpen]
  rfl

theorem planOverdue_single
    {isFamily : Bool} {flags : RecoveryFlags} {rows : List RecoverySlot}
    {only : RecoverySlot}
    (settled : ∀ row ∈ rows, row.isUnresolved = false)
    (single : rows.filter (·.state.isOpen) = [only])
    (sends : isFamily = true → skipReason flags = none)
    (fulfilled : isFamily = true → flags.initialDelivered = false →
      ∀ row ∈ rows, row.isUnfulfilled = false)
    (owed : isFamily = true → flags.initialDelivered = true →
      only.kind ≠ .initial) :
    ∃ reason, planOverdue isFamily flags rows =
      .ok (recoverInto only [only] reason) := by
  rw [planOverdue, any_isUnresolved settled, if_neg Bool.false_ne_true, single]
  cases isFamily with
  | false => exact ⟨_, rfl⟩
  | true =>
      have noneUnfulfilled : (!flags.initialDelivered &&
          rows.any (·.isUnfulfilled)) = false := by
        cases isDelivered : flags.initialDelivered with
        | true => rfl
        | false =>
            rw [Bool.not_false, Bool.true_and, List.any_eq_false]
            intro row member
            rw [fulfilled rfl isDelivered row member]
            exact Bool.false_ne_true
      refine ⟨.missedFamilyRecovery, ?_⟩
      simp only [List.getLast?_singleton, if_true, sends rfl, noneUnfulfilled,
        Bool.false_eq_true, if_false]
      by_cases isInitial : only.kind = .initial
      · have notDelivered : flags.initialDelivered = false := by
          by_contra delivered
          exact owed rfl (Bool.not_eq_false _ ▸ delivered) isInitial
        have found : [only].find? (fun row => row.kind = .initial) =
            some only := by simp [isInitial]
        simp only [found, notDelivered, Bool.false_eq_true, if_false]
      · have found : [only].find? (fun row => row.kind = .initial) = none := by
          simp [isInitial]
        simp only [found]

theorem decided_of_not_mem
    {plan : RecoveryPlan} {row : RecoverySlot}
    (notCoalesced : row.occurrenceId ∉ plan.coalesced)
    (notSkipped : row.occurrenceId ∉ plan.skipped) : row.decided plan = row := by
  unfold RecoverySlot.decided
  rw [if_neg (by simpa using notCoalesced), if_neg (by simpa using notSkipped)]

/-- A row that a plan names is closed by it. -/
theorem decided_of_mem
    {plan : RecoveryPlan} {row : RecoverySlot}
    (named : row.occurrenceId ∈ plan.coalesced ∨
      row.occurrenceId ∈ plan.skipped) :
    (row.decided plan).state = .coalesced ∨
      (row.decided plan).state = .skipped := by
  unfold RecoverySlot.decided
  by_cases coalesced : plan.coalesced.contains row.occurrenceId = true
  · exact Or.inl (if_pos coalesced)
  · right
    have skipped : plan.skipped.contains row.occurrenceId = true := by
      simpa using named.resolve_left (by simpa using coalesced)
    change (if _ then _ else _) = _
    rw [if_neg coalesced, if_pos skipped]

/-- A row stays open unless a plan names it. -/
theorem isOpen_decided
    {plan : RecoveryPlan} {row : RecoverySlot} :
    (row.decided plan).state.isOpen = true ↔
      row.state.isOpen = true ∧ row.occurrenceId ∉ plan.coalesced ∧
        row.occurrenceId ∉ plan.skipped := by
  by_cases named : row.occurrenceId ∈ plan.coalesced ∨
      row.occurrenceId ∈ plan.skipped
  · constructor
    · intro isOpen
      rcases decided_of_mem named with state | state <;>
        rw [state] at isOpen <;> cases isOpen
    · rintro ⟨_, notCoalesced, notSkipped⟩
      exact absurd named (not_or.mpr ⟨notCoalesced, notSkipped⟩)
  · rw [not_or] at named
    rw [decided_of_not_mem named.1 named.2]
    exact (and_iff_left named).symm

theorem overdue_distinct
    {isFamily : Bool} {slots : List RecoverySlot} {cutoff : Int}
    (valid : ValidGroup isFamily slots) :
    ((overdue slots cutoff).map (·.occurrenceId)).Nodup := by
  have sorted : (overdue slots cutoff).Perm (slots.filter (·.isDue cutoff)) :=
    List.perm_insertionSort _ _
  rw [(sorted.map _).nodup_iff]
  exact valid.distinct.sublist (List.filter_sublist.map _)

/-- A recovered group's invitation is the row it sends. -/
theorem coalesced_not_initial
    {isFamily : Bool} {slots : List RecoverySlot} {cutoff : Int}
    {selected row : RecoverySlot} {reason : RecoveryReason}
    (valid : ValidGroup isFamily slots)
    (isSelected : selected ∈ (overdue slots cutoff).filter (·.state.isOpen))
    (first : (∃ row ∈ (overdue slots cutoff).filter (·.state.isOpen),
      row.kind = .initial) → selected.kind = .initial)
    (member : row ∈ overdue slots cutoff)
    (coalesced : row.occurrenceId ∈ (recoverInto selected
      ((overdue slots cutoff).filter (·.state.isOpen)) reason).coalesced) :
    row.kind ≠ .initial := by
  intro isInitial
  obtain ⟨named, different⟩ := List.mem_filter.mp coalesced
  obtain ⟨other, isOther, same⟩ := List.mem_map.mp named
  have distinct : ((overdue slots cutoff).map (·.occurrenceId)).Nodup :=
    overdue_distinct valid
  have isRow : other = row := List.inj_on_of_nodup_map distinct
    (List.mem_filter.mp isOther).1 member same
  subst isRow
  have sentInitial := first ⟨other, isOther, isInitial⟩
  have inSlots := (mem_overdue.mp (List.mem_filter.mp isSelected).1).1
  have isSent := valid.oneInitial other (mem_overdue.mp member).1 isInitial selected
    inSlots sentInitial
  rw [isSent] at different
  exact of_decide_eq_true different rfl

/-- What a recovered group keeps open is the row it sends. -/
theorem recovers_single
    {isFamily : Bool} {slots : List RecoverySlot} {cutoff : Int}
    {selected : RecoverySlot} (reason : RecoveryReason)
    (valid : ValidGroup isFamily slots)
    (isSelected : selected ∈ (overdue slots cutoff).filter (·.state.isOpen)) :
    ((overdue slots cutoff).map (·.decided (recoverInto selected
      ((overdue slots cutoff).filter (·.state.isOpen)) reason))).filter
        (·.state.isOpen) = [selected] := by
  have distinct : ((overdue slots cutoff).map (·.occurrenceId)).Nodup :=
    overdue_distinct valid
  obtain ⟨inOverdue, isOpen⟩ := List.mem_filter.mp isSelected
  have notCoalesced : selected.occurrenceId ∉ (recoverInto selected
      ((overdue slots cutoff).filter (·.state.isOpen)) reason).coalesced := by
    intro coalesced
    exact of_decide_eq_true (List.mem_filter.mp coalesced).2 rfl
  have onlySelected : ∀ row ∈ overdue slots cutoff,
      ((row.decided (recoverInto selected
        ((overdue slots cutoff).filter (·.state.isOpen)) reason)).state.isOpen) =
        decide (row = selected) := by
    intro row member
    rw [Bool.eq_iff_iff, isOpen_decided, decide_eq_true_eq]
    constructor
    · rintro ⟨rowOpen, kept, _⟩
      by_contra different
      refine kept (List.mem_filter.mpr ⟨List.mem_map.mpr
        ⟨row, List.mem_filter.mpr ⟨member, rowOpen⟩, rfl⟩, decide_eq_true ?_⟩)
      intro same
      exact different (List.inj_on_of_nodup_map distinct member inOverdue same)
    · rintro rfl
      exact ⟨isOpen, notCoalesced, List.not_mem_nil⟩
  have unchanged : selected.decided (recoverInto selected
      ((overdue slots cutoff).filter (·.state.isOpen)) reason) = selected :=
    decided_of_not_mem notCoalesced List.not_mem_nil
  have filtered : (overdue slots cutoff).filter (fun row => (row.decided
      (recoverInto selected ((overdue slots cutoff).filter (·.state.isOpen))
        reason)).state.isOpen) = [selected] := by
    rw [List.filter_congr onlySelected, List.filter_eq,
      List.count_eq_one_of_mem distinct.of_map inOverdue, List.replicate_one]
  rw [List.filter_map]
  refine (congrArg _ filtered).trans ?_
  rw [List.map_singleton, unchanged]

/-- Deciding again selects the same row and covers nothing more. -/
theorem planOverdue_again
    {isFamily : Bool} {flags : RecoveryFlags} {slots : List RecoverySlot}
    {cutoff : Int} {plan : RecoveryPlan} (valid : ValidGroup isFamily slots)
    (unblocked : plan.blocked = false)
    (planned : Planned isFamily flags (overdue slots cutoff) plan) :
    ∃ repeated, planOverdue isFamily flags
        ((overdue slots cutoff).map (·.decided plan)) = .ok repeated ∧
      repeated.selected = plan.selected ∧ repeated.coalesced = [] := by
  have settledAfter : (∀ row ∈ overdue slots cutoff, row.isUnresolved = false) →
      ∀ row ∈ (overdue slots cutoff).map (·.decided plan),
        row.isUnresolved = false := by
    intro settled row member
    obtain ⟨before, isBefore, rfl⟩ := List.mem_map.mp member
    by_cases named : before.occurrenceId ∈ plan.coalesced ∨
        before.occurrenceId ∈ plan.skipped
    · unfold RecoverySlot.isUnresolved
      rcases decided_of_mem named with state | state <;> rw [state] <;> rfl
    · rw [not_or] at named
      rw [decided_of_not_mem named.1 named.2]
      exact settled before isBefore
  cases planned with
  | unresolved => cases unblocked
  | idle settled closed =>
      refine ⟨{}, planOverdue_closed (settledAfter settled) ?_, rfl, rfl⟩
      intro row member
      obtain ⟨before, isBefore, rfl⟩ := List.mem_map.mp member
      rw [decided_of_not_mem List.not_mem_nil List.not_mem_nil]
      exact closed before isBefore
  | skips settled =>
      refine ⟨{}, planOverdue_closed (settledAfter settled) ?_, rfl, rfl⟩
      intro row member
      obtain ⟨before, isBefore, rfl⟩ := List.mem_map.mp member
      by_contra stillOpen
      rw [Bool.not_eq_false, isOpen_decided] at stillOpen
      obtain ⟨isOpen, _, notSkipped⟩ := stillOpen
      exact notSkipped (List.mem_map.mpr
        ⟨before, List.mem_filter.mpr ⟨isBefore, isOpen⟩, rfl⟩)
  | @recovers selected reason settled isSelected sends fulfilled owed first =>
      have fulfilledAfter : isFamily = true → flags.initialDelivered = false →
          ∀ row ∈ (overdue slots cutoff).map (·.decided (recoverInto selected
            ((overdue slots cutoff).filter (·.state.isOpen)) reason)),
            row.isUnfulfilled = false := by
        intro family notDelivered row member
        obtain ⟨before, isBefore, rfl⟩ := List.mem_map.mp member
        by_cases coalesced : before.occurrenceId ∈ (recoverInto selected
            ((overdue slots cutoff).filter (·.state.isOpen)) reason).coalesced
        · -- A covered row is not the invitation: that one would be sent.
          have notInitial := coalesced_not_initial valid isSelected
            (first family) isBefore coalesced
          unfold RecoverySlot.isUnfulfilled
          rw [Bool.and_eq_false_iff]
          exact Or.inl (decide_eq_false notInitial)
        · rw [decided_of_not_mem coalesced List.not_mem_nil]
          exact fulfilled family notDelivered before isBefore
      obtain ⟨reason', again⟩ := planOverdue_single (settledAfter settled)
        (recovers_single reason valid isSelected) sends fulfilledAfter owed
      refine ⟨_, again, rfl, ?_⟩
      simp [recoverInto]

/-! ## Safety -/

section

variable {mail : FamilyMail} {chosen : List Nat} {cutoff : Int}
  {flags : RecoveryFlags} {plan : RecoveryPlan}

theorem isOpen_of_isTerminal {state : SlotState} (terminal : state.isTerminal = true) :
    state.isOpen = false := by
  cases state <;> first | rfl | cases terminal

/-- A plan names only candidates. -/
theorem named_is_candidate
    {isFamily : Bool} {slots : List RecoverySlot}
    (planned : Planned isFamily flags (overdue slots cutoff) plan)
    {occurrence : Nat}
    (named : plan.selected = some occurrence ∨ occurrence ∈ plan.coalesced ∨
      occurrence ∈ plan.skipped) :
    ∃ row ∈ slots, row.isCandidate cutoff = true ∧
      row.occurrenceId = occurrence := by
  have candidate : ∀ row ∈ (overdue slots cutoff).filter (·.state.isOpen),
      row ∈ slots ∧ row.isCandidate cutoff = true := by
    intro row member
    have isMember := (candidates_perm slots cutoff).mem_iff.mp member
    exact List.mem_filter.mp isMember
  cases planned with
  | unresolved => simp at named
  | idle => simp at named
  | skips =>
      simp only [reduceCtorEq, List.not_mem_nil, false_or] at named
      obtain ⟨row, member, isRow⟩ := List.mem_map.mp named
      exact ⟨row, (candidate row member).1, (candidate row member).2, isRow⟩
  | @recovers selected reason settled isSelected =>
      rcases named with isSent | coalesced | skipped
      · exact ⟨selected, (candidate selected isSelected).1,
          (candidate selected isSelected).2, Option.some.inj isSent⟩
      · obtain ⟨row, member, isRow⟩ :=
          List.mem_map.mp (List.mem_filter.mp coalesced).1
        exact ⟨row, (candidate row member).1, (candidate row member).2, isRow⟩
      · cases skipped

theorem decision_partition
    {isFamily : Bool} {slots : List RecoverySlot}
    (valid : ValidGroup isFamily slots)
    (planned : Planned isFamily flags (overdue slots cutoff) plan)
    (unblocked : plan.blocked = false)
    (some' : ∃ row ∈ slots, row.isCandidate cutoff = true) :
    (∃ selected, plan.selected = some selected ∧ plan.skipped = [] ∧
        (selected :: plan.coalesced).Perm
          ((slots.filter (·.isCandidate cutoff)).map (·.occurrenceId))) ∨
      (plan.selected = none ∧ plan.coalesced = [] ∧
        plan.skipped.Perm
          ((slots.filter (·.isCandidate cutoff)).map (·.occurrenceId))) := by
  have ids := (candidates_perm slots cutoff).map (·.occurrenceId)
  cases planned with
  | unresolved => cases unblocked
  | idle settled closed =>
      obtain ⟨row, member, isCandidate⟩ := some'
      obtain ⟨isDue, isOpen⟩ := Bool.and_eq_true_iff.mp isCandidate
      rw [closed row (mem_overdue.mpr ⟨member, isDue⟩)] at isOpen
      cases isOpen
  | skips => exact Or.inr ⟨rfl, rfl, ids⟩
  | @recovers selected reason settled isSelected =>
      refine Or.inl ⟨selected.occurrenceId, rfl, rfl, ?_⟩
      have distinct : (((overdue slots cutoff).filter (·.state.isOpen)).map
          (·.occurrenceId)).Nodup :=
        (overdue_distinct valid).sublist (List.filter_sublist.map _)
      have isMember : selected.occurrenceId ∈
          ((overdue slots cutoff).filter (·.state.isOpen)).map
            (·.occurrenceId) := List.mem_map.mpr ⟨selected, isSelected, rfl⟩
      have erased := distinct.erase_eq_filter selected.occurrenceId
      have covered : (recoverInto selected ((overdue slots cutoff).filter
          (·.state.isOpen)) reason).coalesced =
          (((overdue slots cutoff).filter (·.state.isOpen)).map
            (·.occurrenceId)).erase selected.occurrenceId := by
        rw [erased]
        refine List.filter_congr fun occurrence _ => ?_
        rw [Bool.eq_iff_iff, decide_eq_true_eq, bne_iff_ne]
      rw [covered]
      exact (List.perm_cons_erase isMember).symm.trans ids

/-- Every decision is safe. -/
theorem planRecovery_safe
    (planned : planRecovery (mail.group chosen) cutoff flags = .ok plan) :
    SafeDecision mail chosen cutoff flags plan := by
  obtain ⟨isFamily, valid, isPlan⟩ := planRecovery_planned planned
  have sameRow : ∀ row ∈ mail.group chosen, ∀ other ∈ mail.group chosen,
      row.occurrenceId = other.occurrenceId → row = other :=
    fun row member other isOther =>
      List.inj_on_of_nodup_map valid.distinct member isOther
  have named : ∀ row ∈ mail.group chosen,
      plan.selected = some row.occurrenceId ∨ row.occurrenceId ∈ plan.coalesced ∨
        row.occurrenceId ∈ plan.skipped → row.isCandidate cutoff = true := by
    intro row member isNamed
    obtain ⟨other, isOther, candidate, same⟩ := named_is_candidate isPlan isNamed
    rwa [sameRow other isOther row member same] at candidate
  refine ⟨?_, ?_, ?_, ?_, decision_partition valid isPlan, ?_⟩
  · intro row member isInitial coalesced
    have candidate := named row member (Or.inr (Or.inl coalesced))
    have isDue := (Bool.and_eq_true_iff.mp candidate).1
    have family := valid.kinds row member
    rw [isInitial] at family
    cases isPlan with
    | recovers settled isSelected sends fulfilled owed first =>
        exact coalesced_not_initial valid isSelected (first family.symm)
          (mem_overdue.mpr ⟨member, isDue⟩) coalesced isInitial
    | _ => cases coalesced
  · intro row member isReminder isSent initial isMember isInitial isDue
    have family := valid.kinds row member
    rw [isReminder] at family
    have inOverdue := mem_overdue.mpr ⟨isMember, isDue⟩
    cases isPlan with
    | @recovers selected reason settled isSelected sends fulfilled owed first =>
        have inGroup := (mem_overdue.mp (List.mem_filter.mp isSelected).1).1
        have isRow : selected = row :=
          sameRow selected inGroup row member (Option.some.inj isSent)
        subst isRow
        constructor
        · intro isPending
          have isOpen : initial.state.isOpen = true := by rw [isPending]; rfl
          have sent := first family.symm
            ⟨initial, List.mem_filter.mpr ⟨inOverdue, isOpen⟩, isInitial⟩
          rw [isReminder] at sent
          cases sent
        · intro ended
          by_contra notDelivered
          have kept := fulfilled family.symm (Bool.not_eq_true _ ▸ notDelivered)
            initial inOverdue
          unfold RecoverySlot.isUnfulfilled at kept
          rw [decide_eq_true isInitial, decide_eq_true ended] at kept
          cases kept
    | _ => cases isSent
  · intro row member untouchable
    have notNamed : ¬ (plan.selected = some row.occurrenceId ∨
        row.occurrenceId ∈ plan.coalesced ∨
        row.occurrenceId ∈ plan.skipped) := by
      intro isNamed
      have candidate := named row member isNamed
      unfold RecoverySlot.isCandidate RecoverySlot.isDue at candidate
      simp only [Bool.and_eq_true, decide_eq_true_eq, Bool.not_eq_true'] at candidate
      obtain ⟨⟨isDue, free⟩, isOpen⟩ := candidate
      rcases untouchable with isHeld | future | terminal
      · rw [isHeld] at free
        cases free
      · omega
      · rw [isOpen_of_isTerminal terminal] at isOpen
        cases isOpen
    rw [not_or, not_or] at notNamed
    exact notNamed
  · intro row member isDue isUnresolved
    have contradiction : (∀ row ∈ overdue (mail.group chosen) cutoff,
        row.isUnresolved = false) → False := by
      intro settled
      have isSettled := settled row (mem_overdue.mpr ⟨member, isDue⟩)
      rw [isUnresolved] at isSettled
      cases isSettled
    cases isPlan with
    | unresolved => rfl
    | idle settled => exact (contradiction settled).elim
    | skips settled => exact (contradiction settled).elim
    | recovers settled => exact (contradiction settled).elim
  · cases isBlocked : plan.blocked with
    | true =>
        refine ⟨plan, ?_, rfl, ?_⟩
        · rw [FamilyMail.persistDecision, isBlocked, if_pos rfl]
          exact planned
        · cases isPlan with
          | unresolved => rfl
          | _ => cases isBlocked
    | false =>
        rw [group_persistDecision mail chosen isBlocked]
        by_cases isEmpty : mail.group chosen = []
        · rw [isEmpty] at planned ⊢
          cases planned
          exact ⟨{}, rfl, rfl, rfl⟩
        · obtain ⟨repeated, again, same, none'⟩ :=
            planOverdue_again valid isBlocked isPlan
          exact ⟨repeated, planRecovery_decided planned valid isEmpty again, same,
            none'⟩

/-! ## Whole runs -/

/-- An invitation that has been covered by another message. -/
def CoveredInitial (mail : FamilyMail) (occurrence : Nat) : Prop :=
  ∃ row ∈ mail.rows, row.slot.occurrenceId = occurrence ∧
    row.slot.kind = .initial ∧ row.slot.state = .coalesced

theorem persistDecision_covers
    (planned : planRecovery (mail.group chosen) cutoff flags = .ok plan)
    {occurrence : Nat}
    (covered : CoveredInitial (mail.persistDecision plan) occurrence) :
    CoveredInitial mail occurrence := by
  unfold FamilyMail.persistDecision at covered
  split at covered
  · exact covered
  · obtain ⟨row, member, rfl, isInitial, coalesced⟩ := covered
    obtain ⟨before, isBefore, rfl⟩ := List.mem_map.mp member
    rw [GroupRow.decided_slot] at isInitial coalesced
    rw [GroupRow.decided_occurrenceId]
    change before.slot.kind = .initial at isInitial
    have notCovered : before.slot.occurrenceId ∉ plan.coalesced := by
      intro isCovered
      obtain ⟨isFamily, _, isPlan⟩ := planRecovery_planned planned
      obtain ⟨other, isOther, _, same⟩ :=
        named_is_candidate isPlan (Or.inr (Or.inl isCovered))
      have isChosen := (List.mem_filter.mp isOther).2
      rw [same] at isChosen
      have inGroup : before.slot ∈ mail.group chosen :=
        List.mem_filter.mpr ⟨List.mem_map.mpr ⟨before, isBefore, rfl⟩, isChosen⟩
      exact (planRecovery_safe planned).initialKept before.slot inGroup isInitial
        isCovered
    by_cases skipped : before.slot.occurrenceId ∈ plan.skipped
    · unfold RecoverySlot.decided at coalesced
      rw [if_neg (by simpa using notCovered), if_pos (by simpa using skipped)]
        at coalesced
      cases coalesced
    · rw [decided_of_not_mem notCovered skipped] at coalesced
      exact ⟨before, isBefore, rfl, isInitial, coalesced⟩

theorem changeRow_covers
    {occurrence changed : Nat} {change : RecoverySlot → RecoverySlot}
    {same : ∀ row, (change row).occurrenceId = row.occurrenceId}
    (covered : CoveredInitial (mail.changeRow changed change same) occurrence)
    (kept : ∀ row : RecoverySlot, row.state.isTerminal = false →
      (change row).state ≠ .coalesced) :
    CoveredInitial mail occurrence := by
  obtain ⟨row, member, rfl, isInitial, coalesced⟩ := covered
  obtain ⟨before, isBefore, rfl⟩ := List.mem_map.mp member
  by_cases changes : before.slot.occurrenceId = changed ∧
      before.slot.state.isTerminal = false
  · rw [if_pos changes] at coalesced
    exact absurd coalesced (kept before.slot changes.2)
  · rw [if_neg changes] at isInitial coalesced ⊢
    exact ⟨before, isBefore, rfl, isInitial, coalesced⟩

/-- No event covers an invitation. -/
theorem apply_covers
    {event : RecoveryEvent} {next : FamilyMail}
    (applied : FamilyMail.apply event mail = some next) {occurrence : Nat}
    (covered : CoveredInitial next occurrence) :
    CoveredInitial mail occurrence := by
  have notCoalesced : ∀ row : RecoverySlot, row.state.isTerminal = false →
      row.state ≠ .coalesced := by
    intro row isOpen isCoalesced
    rw [isCoalesced] at isOpen
    cases isOpen
  cases event with
  | decide chosen cutoff flags =>
      rw [FamilyMail.apply] at applied
      split at applied <;> cases applied
      rename_i planned
      exact persistDecision_covers planned covered
  | outcome changed state =>
      rw [FamilyMail.apply] at applied
      split at applied <;> cases applied
      rename_i allowed
      exact changeRow_covers covered fun _ _ => allowed
  | hold changed held =>
      cases applied
      exact changeRow_covers covered notCoalesced
  | cancellable changed safely =>
      cases applied
      exact changeRow_covers covered notCoalesced
  | created slot =>
      rw [FamilyMail.apply] at applied
      split at applied <;> cases applied
      rename_i fresh
      obtain ⟨row, member, isRow, isInitial, coalesced⟩ := covered
      rcases List.mem_append.mp member with isOld | isNew
      · exact ⟨row, isOld, isRow, isInitial, coalesced⟩
      · rw [List.mem_singleton.mp isNew] at coalesced
        rw [fresh.1] at coalesced
        cases coalesced

/-! ## A planning pass -/

theorem group_sameRow
    {row other : RecoverySlot} (member : row ∈ mail.group chosen)
    (isOther : other ∈ mail.group chosen)
    (same : row.occurrenceId = other.occurrenceId) : row = other := by
  have distinct : ((mail.rows.map (·.slot)).map (·.occurrenceId)).Nodup := by
    rw [List.map_map]
    exact mail.distinct
  exact List.inj_on_of_nodup_map distinct (List.mem_filter.mp member).1
    (List.mem_filter.mp isOther).1 same

/-- Some rows of a group are a group. -/
theorem group_filter
    (mail : FamilyMail) (chosen : List Nat) (keeps : RecoverySlot → Bool) :
    (mail.group chosen).filter keeps =
      mail.group (((mail.group chosen).filter keeps).map (·.occurrenceId)) := by
  have distinct : ((mail.rows.map (·.slot)).map (·.occurrenceId)).Nodup := by
    rw [List.map_map]
    exact mail.distinct
  change ((mail.rows.map (·.slot)).filter _).filter keeps =
    (mail.rows.map (·.slot)).filter _
  rw [List.filter_filter]
  refine List.filter_congr fun row member => ?_
  rw [Bool.eq_iff_iff, Bool.and_eq_true]
  refine Iff.trans ?_ List.contains_iff_mem.symm
  rw [List.mem_map]
  constructor
  · rintro ⟨kept, isChosen⟩
    exact ⟨row, List.mem_filter.mpr ⟨List.mem_filter.mpr ⟨member, isChosen⟩, kept⟩,
      rfl⟩
  · rintro ⟨other, isOther, same⟩
    obtain ⟨inGroup, kept⟩ := List.mem_filter.mp isOther
    obtain ⟨isMember, isChosen⟩ := List.mem_filter.mp inGroup
    have isRow : other = row :=
      List.inj_on_of_nodup_map distinct isMember member same
    rw [isRow] at kept isChosen
    exact ⟨kept, isChosen⟩

/-- A decision leaves the rows of every other group. -/
theorem group_apart
    {apart : List Nat}
    (planned : planRecovery (mail.group chosen) cutoff flags = .ok plan)
    (disjoint : ∀ row ∈ mail.group chosen, row.occurrenceId ∉ apart) :
    (mail.persistDecision plan).group apart = mail.group apart := by
  cases isBlocked : plan.blocked with
  | true => rw [FamilyMail.persistDecision, isBlocked, if_pos rfl]
  | false =>
      rw [group_persistDecision mail apart isBlocked]
      refine (List.map_congr_left fun row member => ?_).trans (List.map_id _)
      obtain ⟨isFamily, _, isPlan⟩ := planRecovery_planned planned
      have isApart : row.occurrenceId ∈ apart :=
        List.contains_iff_mem.mp (List.mem_filter.mp member).2
      have notNamed : ¬ (plan.selected = some row.occurrenceId ∨
          row.occurrenceId ∈ plan.coalesced ∨
          row.occurrenceId ∈ plan.skipped) := by
        intro named
        obtain ⟨other, isOther, _, same⟩ := named_is_candidate isPlan named
        exact disjoint other isOther (same ▸ isApart)
      rw [not_or, not_or] at notNamed
      exact decided_of_not_mem notNamed.2.1 notNamed.2.2

/-- A planning pass of a Family is a run of decisions. -/
theorem planFamily_reaches
    {workgroup : Bool} {next : FamilyMail}
    (passed : mail.planFamily chosen workgroup cutoff flags = .ok next) :
    Reaches FamilyMail.apply anyOp mail next := by
  have decides : ∀ {before : FamilyMail} {group : List Nat}
      {given : RecoveryFlags} {decided : RecoveryPlan},
      planRecovery (before.group group) cutoff given = .ok decided →
      FamilyMail.apply (.decide group cutoff given) before =
        some (before.persistDecision decided) := by
    intro before group given decided planned
    rw [FamilyMail.apply, planned]
  unfold FamilyMail.planFamily at passed
  cases workgroup with
  | false =>
      obtain ⟨decided, planned, rest⟩ := except_bind_eq_ok passed
      cases rest
      exact (Reaches.refl mail).tail trivial (decides planned)
  | true =>
      obtain ⟨first, firstPlanned, rest⟩ := except_bind_eq_ok passed
      obtain ⟨second, secondPlanned, rest⟩ := except_bind_eq_ok rest
      cases rest
      rw [group_filter] at firstPlanned secondPlanned
      rw [← group_apart firstPlanned] at secondPlanned
      · exact ((Reaches.refl mail).tail trivial (decides firstPlanned)).tail trivial
          (decides secondPlanned)
      · intro row member isReminder
        rw [← group_filter] at member
        obtain ⟨other, isOther, same⟩ := List.mem_map.mp isReminder
        obtain ⟨inGroup, isKind⟩ := List.mem_filter.mp isOther
        obtain ⟨rowInGroup, notKind⟩ := List.mem_filter.mp member
        have isRow : other = row := group_sameRow inGroup rowInGroup same
        rw [isRow] at isKind
        exact of_decide_eq_true notKind (of_decide_eq_true isKind)

/-- No invitation is covered that was not at the start. -/
def KeepsInitials (start mail : FamilyMail) : Prop :=
  ∀ occurrence, CoveredInitial mail occurrence → CoveredInitial start occurrence

/-- Over every run no invitation is covered by another message, and every
decision in every state reached is safe. -/
theorem missed_mail_is_safe
    {start : FamilyMail}
    (reached : Reaches FamilyMail.apply anyOp start mail) :
    KeepsInitials start mail ∧
      ∀ chosen cutoff flags plan,
        planRecovery (mail.group chosen) cutoff flags = .ok plan →
        SafeDecision mail chosen cutoff flags plan := by
  refine ⟨reached.invariant (fun _ covered => covered) ?_, fun _ _ _ _ planned =>
    planRecovery_safe planned⟩
  intro source event target kept _ applied occurrence covered
  exact kept occurrence (apply_covers applied covered)

end

/-- A message of one Family that is due, and that no one has begun to send. -/
def dueSlot (occurrence : Nat) (kind : MailKind) (dueAt : Int) : RecoverySlot where
  occurrenceId := occurrence
  definitionId := occurrence
  kind := kind
  mode := .production
  target := "family:1".toList
  slot := "once".toList
  dueAt := dueAt
  state := .pending
  safelyCancellable := true
  held := false
  targetBounded := by decide
  slotBounded := by decide

/-- An invitation and a reminder, both missed. -/
def missedInvitation : FamilyMail where
  rows := [⟨dueSlot 1 .initial 1, none, none⟩, ⟨dueSlot 2 .reminder 2, none, none⟩]
  fulfillments := []
  distinct := by decide

/-- The invitation covers the reminder, and is what is sent when asked again. -/
theorem invitation_is_sent_again : ∃ mail plan,
    FamilyMail.apply (.decide [1, 2] 5 {}) missedInvitation = some mail ∧
      planRecovery (mail.group [1, 2]) 5 {} = .ok plan ∧
      plan.selected = some 1 ∧ 1 ∉ plan.coalesced := by
  have decided : FamilyMail.apply (.decide [1, 2] 5 {}) missedInvitation =
      some (missedInvitation.persistDecision ⟨some 1, [2], [],
        some .missedFamilyRecovery, false⟩) := rfl
  have planned : planRecovery ((missedInvitation.persistDecision ⟨some 1, [2], [],
      some .missedFamilyRecovery, false⟩).group [1, 2]) 5 {} =
      .ok ⟨some 1, [], [], none, false⟩ := rfl
  have safe := (missed_mail_is_safe ((Reaches.refl _).tail trivial decided)).2
    _ _ _ _ planned
  exact ⟨_, _, decided, planned, rfl,
    safe.initialKept (dueSlot 1 .initial 1) (by decide) rfl⟩

/-- A reminder whose outcome is open, held since a restore, before two others. -/
def heldReminder : FamilyMail where
  rows := [⟨{ dueSlot 1 .reminder 1 with
        state := .deliveryUnknown, held := true }, none, none⟩,
    ⟨dueSlot 2 .reminder 2, none, none⟩, ⟨dueSlot 3 .reminder 3, none, none⟩]
  fulfillments := []
  distinct := by decide

/-- An outcome that is open on a held row holds nothing else up. -/
theorem held_outcome_blocks_nothing :
    ¬ ∀ start mail : FamilyMail, Reaches FamilyMail.apply anyOp start mail →
      ∀ chosen cutoff flags plan,
        planRecovery (mail.group chosen) cutoff flags = .ok plan →
        (∃ row ∈ mail.group chosen, row.state = .deliveryUnknown) →
        mail.persistDecision plan = mail := by
  intro blocks
  have planned : planRecovery (heldReminder.group [1, 2, 3]) 5 {} =
      .ok ⟨some 3, [2], [], some .missedFamilyRecovery, false⟩ := rfl
  have unchanged := blocks heldReminder heldReminder (Reaches.refl _) _ _ _ _ planned
    ⟨_, List.mem_cons_self, rfl⟩
  have sameRows := congrArg FamilyMail.rows unchanged
  exact absurd sameRows (by decide)

end ParishKit.Campaigns
