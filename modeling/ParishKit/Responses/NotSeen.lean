import ParishKit.Responses.RefreshChecks

/-!
# Not seen in ParishSoft

The checks a sequence of refreshes stores, and the flag read back from them. The
write rule stops at the threshold, so what is read is the number of full
refreshes that found the item unchanged, cut off there.
-/

namespace ParishKit.Responses

/-- What one refresh finds of a marked item: the check it would store, and
whether ParishSoft moved to yet another value. -/
structure Finding (Item Observed : Type) extends CheckRow Item Observed where
  moved : Bool
deriving DecidableEq, Repr

variable {Item Observed : Type}

/-- A full refresh that found the item unchanged, later than the start row and
the mark. -/
def seenUnchanged (started : CheckStart) (mark : Option Int)
    (check : CheckRow Item Observed) : Prop :=
  check.outcome = .unchanged ∧ check.full = true ∧
    started.startedAt < check.createdAt ∧
    ∀ marked, mark = some marked → marked < check.createdAt

instance (started : CheckStart) (mark : Option Int)
    (check : CheckRow Item Observed) :
    Decidable (seenUnchanged started mark check) :=
  inferInstanceAs (Decidable (_ ∧ _ ∧ _ ∧ _))

theorem counted_iff
    (started : CheckStart) (marks : Item → Option Int)
    (check : CheckRow Item Observed) :
    check.counted (some started) marks = true ↔
      seenUnchanged started (marks check.item) check := by
  unfold CheckRow.counted afterMark seenUnchanged
  cases marks check.item with
  | none => simp [and_assoc]
  | some mark => simp [and_assoc]

theorem counted_toNat
    (started : CheckStart) (marks : Item → Option Int)
    (check : CheckRow Item Observed) :
    (check.counted (some started) marks).toNat =
      if seenUnchanged started (marks check.item) check then 1 else 0 := by
  by_cases seen : seenUnchanged started (marks check.item) check
  · rw [(counted_iff started marks check).mpr seen, if_pos seen]
    rfl
  · rw [Bool.eq_false_iff.mpr (mt (counted_iff started marks check).mp seen),
      if_neg seen]
    rfl

/-- A full refresh that counts owes its check below the threshold. -/
theorem owed_of_counted
    {started : CheckStart} {mark : Option Int}
    {state : CheckState Observed} {finding : Finding Item Observed}
    (threshold : state.notSeenAfter = some started.notSeenAfter)
    (seen : seenUnchanged started mark finding.toCheckRow) :
    owed finding.outcome state finding.full true finding.moved =
      (decide (state.outcome ≠ .unchanged) ||
        decide (state.unseen < started.notSeenAfter)) := by
  obtain ⟨unchanged, full, _, _⟩ := seen
  have outcome : finding.outcome = .unchanged := unchanged
  have isFull : finding.full = true := full
  rw [owed, outcome, isFull, threshold]
  by_cases same : state.outcome = .unchanged
  · simp [same]
  · simp [same, Ne.symm same]

section Findings

variable [DecidableEq Item]

/-- What the refreshes found of one item. -/
def findingsOf (item : Item) (findings : List (Finding Item Observed)) :
    List (Finding Item Observed) :=
  findings.filter fun finding => finding.item = item

/-- The outcome of the latest refresh: an item never checked is unchanged. -/
def latestOutcome (item : Item) (findings : List (Finding Item Observed)) :
    CheckedOutcome :=
  ((findingsOf item findings).getLast?.map fun finding => finding.outcome).getD
    .unchanged

/-- The refreshes since the item's last outcome other than unchanged. -/
def unchangedRun (item : Item) (findings : List (Finding Item Observed)) :
    List (Finding Item Observed) :=
  (findingsOf item findings).rtakeWhile fun finding =>
    finding.outcome = .unchanged

/-- How many refreshes of the current run count towards Not seen. -/
def unseenRefreshes (started : CheckStart) (mark : Option Int) (item : Item)
    (findings : List (Finding Item Observed)) : Nat :=
  (unchangedRun item findings).countP fun finding =>
    seenUnchanged started mark finding.toCheckRow

theorem findingsOf_concat_of_ne
    {item : Item} (findings : List (Finding Item Observed))
    {finding : Finding Item Observed} (different : finding.item ≠ item) :
    findingsOf item (findings ++ [finding]) = findingsOf item findings := by
  simp [findingsOf, different]

theorem findingsOf_concat
    (findings : List (Finding Item Observed))
    (finding : Finding Item Observed) :
    findingsOf finding.item (findings ++ [finding]) =
      findingsOf finding.item findings ++ [finding] := by
  simp [findingsOf]

theorem latestOutcome_concat
    (findings : List (Finding Item Observed))
    (finding : Finding Item Observed) :
    latestOutcome finding.item (findings ++ [finding]) = finding.outcome := by
  rw [latestOutcome, findingsOf_concat, List.getLast?_concat]
  rfl

theorem unseenRefreshes_concat
    (started : CheckStart) (mark : Option Int)
    (findings : List (Finding Item Observed))
    (finding : Finding Item Observed) :
    unseenRefreshes started mark finding.item (findings ++ [finding]) =
      if finding.outcome = .unchanged then
        unseenRefreshes started mark finding.item findings +
          if seenUnchanged started mark finding.toCheckRow then 1 else 0
      else 0 := by
  rw [unseenRefreshes, unchangedRun, findingsOf_concat,
    List.rtakeWhile_concat]
  by_cases same : finding.outcome = .unchanged
  · rw [if_pos (decide_eq_true same), if_pos same, List.countP_append]
    simp [List.countP_cons, unseenRefreshes, unchangedRun]
  · rw [if_neg (by simpa using same), if_neg same]
    rfl

/-- Nothing is counted of an item last found otherwise. -/
theorem unseenRefreshes_of_latest
    (started : CheckStart) (mark : Option Int) {item : Item}
    {findings : List (Finding Item Observed)}
    (otherwise : latestOutcome item findings ≠ .unchanged) :
    unseenRefreshes started mark item findings = 0 := by
  have empty : unchangedRun item findings = [] := by
    refine List.rtakeWhile_eq_nil_iff.mpr ?_
    intro nonempty
    have last : latestOutcome item findings =
        ((findingsOf item findings).getLast nonempty).outcome := by
      rw [latestOutcome, List.getLast?_eq_getLast_of_ne_nil nonempty]
      rfl
    rw [last] at otherwise
    simpa using otherwise
  rw [unseenRefreshes, empty]
  rfl

/-! ## The stored checks -/

/-- One refresh stores its check exactly when it is owed. -/
def storeCheck (start : Option CheckStart) (marks : Item → Option Int)
    (checks : List (CheckRow Item Observed))
    (finding : Finding Item Observed) : List (CheckRow Item Observed) :=
  if owed finding.outcome (checkState checks start marks finding.item)
      finding.full true finding.moved then
    checks ++ [finding.toCheckRow]
  else
    checks

/-- The checks stored by a sequence of refreshes, oldest first. -/
def storedChecks (start : Option CheckStart) (marks : Item → Option Int)
    (findings : List (Finding Item Observed)) :
    List (CheckRow Item Observed) :=
  findings.foldl (storeCheck start marks) []

theorem storedChecks_concat
    (start : Option CheckStart) (marks : Item → Option Int)
    (findings : List (Finding Item Observed))
    (finding : Finding Item Observed) :
    storedChecks start marks (findings ++ [finding]) =
      storeCheck start marks (storedChecks start marks findings) finding := by
  rw [storedChecks, List.foldl_append]
  rfl

/-- The state read back after one refresh, whether or not its check was
stored. -/
theorem checkState_storeCheck
    (start : Option CheckStart) (marks : Item → Option Int)
    (checks : List (CheckRow Item Observed))
    (finding : Finding Item Observed) :
    (checkState (storeCheck start marks checks finding) start marks
        finding.item).outcome = finding.outcome ∧
      (checkState (storeCheck start marks checks finding) start marks
        finding.item).unseen =
        if owed finding.outcome (checkState checks start marks finding.item)
            finding.full true finding.moved then
          (if finding.outcome =
              (checkState checks start marks finding.item).outcome then
            (checkState checks start marks finding.item).unseen
          else 0) + (finding.toCheckRow.counted start marks).toNat
        else
          (checkState checks start marks finding.item).unseen := by
  by_cases due : owed finding.outcome
      (checkState checks start marks finding.item) finding.full true
      finding.moved = true
  · rw [storeCheck, if_pos due, if_pos due]
    have read := checkState_concat checks start marks finding.toCheckRow
    exact ⟨congrArg (fun state => state.outcome) read,
      congrArg (fun state => state.unseen) read⟩
  · rw [storeCheck, if_neg due, if_neg due]
    refine ⟨?_, rfl⟩
    by_contra different
    refine due ?_
    rw [owed, if_pos (Ne.symm different)]

theorem checkState_storeCheck_of_ne
    (start : Option CheckStart) (marks : Item → Option Int)
    (checks : List (CheckRow Item Observed))
    {finding : Finding Item Observed} {item : Item}
    (different : finding.item ≠ item) :
    checkState (storeCheck start marks checks finding) start marks item =
      checkState checks start marks item := by
  rw [storeCheck]
  split
  · exact checkState_concat_of_ne checks start marks different
  · rfl

/-- One refresh moves the count as its finding says, up to the threshold. -/
theorem unseen_storeCheck
    (started : CheckStart) (marks : Item → Option Int)
    (checks : List (CheckRow Item Observed))
    (finding : Finding Item Observed) {count : Nat}
    (cutOff : (checkState checks (some started) marks finding.item).unseen =
      min started.notSeenAfter count)
    (reset : (checkState checks (some started) marks finding.item).outcome ≠
      .unchanged → count = 0) :
    (checkState (storeCheck (some started) marks checks finding)
        (some started) marks finding.item).unseen =
      min started.notSeenAfter
        (if finding.outcome = .unchanged then
          count + if seenUnchanged started (marks finding.item)
            finding.toCheckRow then 1 else 0
        else 0) := by
  have positive := started.atLeastOne
  have threshold := checkState_threshold checks (some started) marks
    finding.item
  rw [(checkState_storeCheck (some started) marks checks finding).2,
    counted_toNat]
  generalize checkState checks (some started) marks finding.item = state at *
  by_cases seen : seenUnchanged started (marks finding.item) finding.toCheckRow
  · have outcome : finding.outcome = .unchanged := seen.1
    rw [owed_of_counted threshold seen, if_pos seen, if_pos outcome, outcome]
    by_cases same : state.outcome = .unchanged
    · simp only [same, ne_eq, not_true_eq_false, decide_false, Bool.false_or,
        decide_eq_true_eq, if_true]
      split <;> omega
    · have none := reset same
      simp only [same, Ne.symm same, ne_eq, not_false_eq_true, decide_true,
        Bool.true_or, if_true, if_false]
      omega
  · rw [if_neg seen]
    by_cases outcome : finding.outcome = .unchanged
    · rw [if_pos outcome, outcome]
      by_cases same : state.outcome = .unchanged
      · simp only [same, if_true]
        split <;> omega
      · have none := reset same
        simp only [Ne.symm same, if_false]
        split <;> omega
    · rw [if_neg outcome]
      by_cases same : finding.outcome = state.outcome
      · have none := reset (same ▸ outcome)
        simp only [same, if_true]
        split <;> omega
      · have due : owed finding.outcome state finding.full true
            finding.moved = true := by
          rw [owed, if_pos same]
        rw [if_pos due, if_neg same]
        omega

/-- What is read back after a sequence of refreshes: the latest outcome, and the
number of refreshes that count, cut off at the threshold. -/
theorem checkState_storedChecks
    (started : CheckStart) (marks : Item → Option Int) (item : Item)
    (findings : List (Finding Item Observed)) :
    (checkState (storedChecks (some started) marks findings) (some started)
        marks item).outcome = latestOutcome item findings ∧
      (checkState (storedChecks (some started) marks findings) (some started)
        marks item).unseen =
        min started.notSeenAfter
          (unseenRefreshes started (marks item) item findings) := by
  induction findings using List.reverseRecOn with
  | nil => exact ⟨rfl, (Nat.min_zero _).symm⟩
  | append_singleton findings finding hypothesis =>
      rw [storedChecks_concat]
      by_cases same : finding.item = item
      · subst same
        obtain ⟨latest, count⟩ := hypothesis
        constructor
        · rw [latestOutcome_concat]
          exact (checkState_storeCheck (some started) marks _ finding).1
        · rw [unseenRefreshes_concat]
          refine unseen_storeCheck started marks _ finding count ?_
          intro otherwise
          exact unseenRefreshes_of_latest started _ (latest ▸ otherwise)
      · rw [checkState_storeCheck_of_ne (some started) marks _ same]
        have unchanged := findingsOf_concat_of_ne findings same
        rw [latestOutcome, unseenRefreshes, unchangedRun, unchanged]
        exact hypothesis

/-! ## One run of unchanged outcomes -/

/-- A run of unchanged outcomes stores no more counted checks than the count
read back after it. -/
theorem run_stores
    (started : CheckStart) (marks : Item → Option Int) (item : Item)
    (before run : List (Finding Item Observed))
    (quiet : ∀ finding ∈ run, finding.item = item →
      finding.outcome = .unchanged) :
    ∃ added, storedChecks (some started) marks (before ++ run) =
        storedChecks (some started) marks before ++ added ∧
      (added.countP fun check =>
        check.item = item ∧ seenUnchanged started (marks item) check) ≤
        (checkState (storedChecks (some started) marks (before ++ run))
          (some started) marks item).unseen ∧
      ((checkState (storedChecks (some started) marks (before ++ run))
          (some started) marks item).outcome ≠ .unchanged →
        (added.countP fun check =>
          check.item = item ∧ seenUnchanged started (marks item) check) = 0) := by
  induction run using List.reverseRecOn with
  | nil =>
      refine ⟨[], by rw [List.append_nil, List.append_nil], ?_, fun _ => rfl⟩
      exact Nat.zero_le _
  | append_singleton run finding hypothesis =>
      obtain ⟨added, stored, bounded, reset⟩ := hypothesis
        (fun earlier member =>
          quiet earlier (List.mem_append_left _ member))
      rw [← List.append_assoc, storedChecks_concat]
      generalize storedChecks (some started) marks (before ++ run) = checks at *
      by_cases same : finding.item = item
      · have outcome := quiet finding
          (List.mem_append_right _ List.mem_cons_self) same
        subst same
        obtain ⟨latest, unseen⟩ :=
          checkState_storeCheck (some started) marks checks finding
        have settled : (checkState (storeCheck (some started) marks checks
            finding) (some started) marks finding.item).outcome =
            .unchanged := latest.trans outcome
        by_cases due : owed finding.outcome
            (checkState checks (some started) marks finding.item)
            finding.full true finding.moved = true
        · refine ⟨added ++ [finding.toCheckRow], ?_, ?_,
            fun otherwise => absurd settled otherwise⟩
          · rw [storeCheck, if_pos due, stored, List.append_assoc]
          · rw [unseen, if_pos due, counted_toNat, List.countP_append]
            by_cases alike : finding.outcome =
                (checkState checks (some started) marks finding.item).outcome
            · rw [if_pos alike]
              simp only [List.countP_cons, List.countP_nil, true_and,
                decide_eq_true_eq]
              omega
            · have none := reset (fun unchanged =>
                alike (outcome.trans unchanged.symm))
              rw [if_neg alike, none]
              simp
        · refine ⟨added, ?_, ?_, fun otherwise => absurd settled otherwise⟩
          · rw [storeCheck, if_neg due, stored]
          · rw [unseen, if_neg due]
            exact bounded
      · rw [checkState_storeCheck_of_ne (some started) marks checks same]
        rw [storeCheck]
        split
        · refine ⟨added ++ [finding.toCheckRow], ?_, ?_, ?_⟩
          · rw [stored, List.append_assoc]
          · simpa [List.countP_append, List.countP_cons, same] using bounded
          · simpa [List.countP_append, List.countP_cons, same] using reset
        · exact ⟨added, stored, bounded, reset⟩

/-! ## The flag -/

/-- Not seen is exactly the threshold: the latest outcome is unchanged, and that
many full refreshes found it so after the mark, after the start row and since
its last other outcome. One run of unchanged outcomes stores no more checks that
count than the threshold. -/
theorem not_seen_at_threshold
    (start : Option CheckStart) (marks : Item → Option Int)
    (findings : List (Finding Item Observed)) (item : Item) :
    ((checkState (storedChecks start marks findings) start marks item).notSeen
        true = true ↔
      ∃ started, start = some started ∧
        latestOutcome item findings = .unchanged ∧
        started.notSeenAfter ≤
          unseenRefreshes started (marks item) item findings) ∧
    ∀ started before run after, start = some started →
      findings = before ++ run ++ after →
      (∀ finding ∈ run, finding.item = item → finding.outcome = .unchanged) →
      ∃ added, storedChecks start marks (before ++ run) =
          storedChecks start marks before ++ added ∧
        (added.countP fun check =>
          check.item = item ∧ seenUnchanged started (marks item) check) ≤
          started.notSeenAfter := by
  have threshold := checkState_threshold (storedChecks start marks findings)
    start marks item
  constructor
  · cases start with
    | none =>
        rw [CheckState.notSeen, threshold]
        simp
    | some started =>
        obtain ⟨latest, unseen⟩ :=
          checkState_storedChecks started marks item findings
        rw [CheckState.notSeen, threshold, latest, unseen]
        simp [Nat.le_min]
  · rintro started before run after rfl rfl quiet
    obtain ⟨added, stored, bounded, _⟩ :=
      run_stores started marks item before run quiet
    refine ⟨added, stored, bounded.trans ?_⟩
    rw [(checkState_storedChecks started marks item (before ++ run)).2]
    exact Nat.min_le_left _ _

end Findings

/-- A full refresh that finds the only item unchanged. -/
def quietRefresh (createdAt : Int) : Finding Unit Unit :=
  ⟨⟨(), createdAt, .unchanged, true, none⟩, false⟩

/-- Marked at 5 and found unchanged by two full refreshes, an item is Not
seen. -/
theorem second_quiet_refresh_is_not_seen :
    (checkState (storedChecks (some ⟨0, 2, by decide, by decide⟩)
        (fun _ => some 5) [quietRefresh 10, quietRefresh 20])
      (some ⟨0, 2, by decide, by decide⟩) (fun _ => some 5) ()).notSeen true =
      true :=
  (not_seen_at_threshold (some ⟨0, 2, by decide, by decide⟩)
    (fun _ => some 5) [quietRefresh 10, quietRefresh 20] ()).1.mpr
    ⟨_, rfl, by decide, by decide⟩

/-- An item marked again after its first checks counts from the new mark: one
run of unchanged outcomes then stores more full checks than the threshold. -/
theorem marking_again_counts_again :
    ¬ ∀ (started : CheckStart) (marks : Unit → Option Int)
        (before run : List (Finding Unit Unit)),
        (∀ finding ∈ run, finding.outcome = .unchanged) →
        ∃ added, storedChecks (some started) marks (before ++ run) =
            storedChecks (some started) marks before ++ added ∧
          (added.countP fun check =>
            check.outcome = .unchanged ∧ check.full = true) ≤
            started.notSeenAfter := by
  intro bounded
  obtain ⟨added, stored, few⟩ := bounded ⟨0, 2, by decide, by decide⟩
    (fun _ => some 25) []
    [quietRefresh 10, quietRefresh 20, quietRefresh 30, quietRefresh 40]
    (by decide)
  have four : added = [(quietRefresh 10).toCheckRow, (quietRefresh 20).toCheckRow,
      (quietRefresh 30).toCheckRow, (quietRefresh 40).toCheckRow] :=
    stored.symm.trans (by decide)
  subst four
  exact absurd few (by decide)

end ParishKit.Responses
