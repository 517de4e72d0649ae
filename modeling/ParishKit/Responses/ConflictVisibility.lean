import ParishKit.Responses.CensusReview

/-!
# No hidden conflict

An open change nobody approved whose ParishSoft value is a third one, neither
the baseline nor the value carried forward, should be at execution conflict. The
executions are recomputed only by a refresh, so a run keeps this exactly as long
as no other operation makes a third value behind its back.
-/

namespace ParishKit.Responses

open ParishKit.Lib

section Visibility

variable [Unicode]

/-- ParishSoft's stored value is available and differs canonically from the
baseline and from `carried`. -/
def thirdValue (row : ProposedChange) (carried : Value) : Bool :=
  let kind := row.item.field.kind
  match row.current with
  | none => false
  | some value =>
      match canonicalValue kind value with
      | none => false
      | some key =>
          canonicalValue kind carried != some key &&
            knownKey kind row.baseline != some (some key)

/-- An open change, not approved, at a third value and not in conflict. -/
def HiddenConflict (row : ProposedChange) : Prop :=
  (row.execution = .pending ∨ row.execution = .failed) ∧
    row.decision ≠ .approved ∧ thirdValue row row.carried = true

instance (row : ProposedChange) : Decidable (HiddenConflict row) :=
  inferInstanceAs (Decidable (_ ∧ _))

/-! ## The operations that keep conflicts visible -/

/-- The Family answered with the very baseline it saw. -/
def answersBaseline (row : ProposedChange) : Bool :=
  match knownKey row.item.field.kind row.baseline with
  | some (some key) =>
      canonicalValue row.item.field.kind row.submittedValue == some key
  | _ => false

/-- The corpus supplies `value` for the change. -/
def SuppliesValue (corpus : Corpus) (familyDuid : Nat) (item : Item)
    (value : Value) : Prop :=
  ∃ definition, item.field.definition? = some definition ∧
    readProposal corpus familyDuid item definition = .ok (.read (some value))

/-- A refresh brings no new value to an unedited change that answers its own
baseline. An edit that leaves a decision other than approved, and a decision
away from approved without an active accepted base, leave no third value on a
change out of conflict. An `ignored` resolution is not recorded over the third
value of an approved change. -/
def ChangeStep.KeepsConflictVisible (change : Change) : ChangeStep → Prop
  | .refresh corpus familyDuid =>
      change.row.adminValue = none → answersBaseline change.row = true →
        ∀ value, SuppliesValue corpus familyDuid change.row.item value →
          canonicalValue change.row.item.field.kind value =
            canonicalValue change.row.item.field.kind change.row.submittedValue
  | .record _ intent =>
      change.row.execution ≠ .conflict → intent.resolve = false →
        (∀ adminValue, intent.edit = some adminValue →
          intent.decided change.row ≠ .approved →
          thirdValue change.row
            (adminValue.getD change.row.submittedValue) = false) ∧
        (intent.decided change.row ≠ .approved →
          change.row.decision = .approved → change.hasActiveBase = false →
          thirdValue change.row change.row.carried = false)
  | .resolution _ intent =>
      intent.action = .ignored → change.row.decision = .approved →
        change.row.execution = .pending →
        thirdValue change.row change.row.carried = false

def ChangeOp.KeepsConflictVisible (change : Change) (op : ChangeOp) : Prop :=
  ∀ step, op.step change.row = some step → step.KeepsConflictVisible change

/-! ## One step -/

/-- What every state of a run keeps. Publication is no part of such a run, so a
change is open or was entered by hand. -/
structure ConflictVisible (change : Change) : Prop where
  visible : ¬ HiddenConflict change.row
  entered : change.row.execution = .pending ∨
    change.row.execution = .conflict ∨
    change.row.execution = .resolvedExternal

/-- A value equal to the baseline is no third value. -/
theorem thirdValue_of_baseline
    {row : ProposedChange} {carried : Value}
    (same : row.current = row.baseline) :
    thirdValue row carried = false := by
  unfold thirdValue
  rw [same]
  cases base : row.baseline with
  | none => rfl
  | some value =>
      cases found : canonicalValue row.item.field.kind value with
      | none => simp [found]
      | some key => simp [found, knownKey]

/-- A merge that leaves the change pending at an available value found the
carried value or the baseline there, or ran on the Family's unedited baseline
answer. -/
theorem thirdValue_of_remerge
    {conflictAccepted unusable : Bool} {row : ProposedChange} {value : Value}
    {update : ProposalUpdate} (snapshot : Nat)
    (merged : remerge row.item.field.kind conflictAccepted row (some value)
      unusable = some update)
    (isPending : update.execution = .pending)
    (supplied : row.adminValue = none → answersBaseline row = true →
      canonicalValue row.item.field.kind value =
        canonicalValue row.item.field.kind row.submittedValue) :
    thirdValue (row.reconciled snapshot update) row.carried = false := by
  have stored := remerge_current merged
  simp only [remerge, Option.bind_eq_bind, Option.bind_eq_some_iff] at merged
  obtain ⟨result, found, assembled⟩ := merged
  obtain ⟨current, submitted, baseline, currentKey, carriedKey, baselineKey,
    outcome⟩ := mergeValue_cases found
  have sameRow : thirdValue (row.reconciled snapshot update) row.carried =
      (some submitted != some current && some baseline != some (some current)) := by
    simp [thirdValue, ProposedChange.reconciled, stored, currentKey, carriedKey,
      baselineKey]
  rw [sameRow]
  cases outcome with
  | unchanged answered holds state agreed => simp [holds]
  | caughtUp changed holds state agreed => simp [holds]
  | familyChanged changed differs kept state agreed => simp [kept]
  | conflict changed differs moved state disagreed =>
      cases assembled
      simp [state, disagreed] at isPending
  | sourceChanged answered differs state agreed =>
      cases edited : row.adminValue with
      | some adminValue =>
          cases assembled
          simp [state, edited] at isPending
      | none =>
          have sameCarried : row.carried = row.submittedValue := by
            simp [ProposedChange.carried, edited]
          rw [sameCarried] at carriedKey
          have answersOwn : answersBaseline row = true := by
            simp [answersBaseline, baselineKey, answered, carriedKey]
          have sameKey := supplied edited answersOwn
          rw [currentKey, carriedKey] at sameKey
          exact absurd (Option.some.inj sameKey) differs

/-- Only what a change is about and its source values make a third value. -/
theorem thirdValue_of_same_source
    {row other : ProposedChange} (sameItem : other.item = row.item)
    (sameBaseline : other.baseline = row.baseline)
    (sameCurrent : other.current = row.current) (carried : Value) :
    thirdValue other carried = thirdValue row carried := by
  simp only [thirdValue, sameItem, sameBaseline, sameCurrent]

/-- A refresh that leaves the change pending leaves no third value on it. -/
theorem thirdValue_of_proposalUpdate
    {corpus : Corpus} {familyDuid : Nat} {conflictAccepted : Bool}
    {row : ProposedChange} {update : ProposalUpdate} (snapshot : Nat)
    (yielded : proposalUpdate corpus familyDuid conflictAccepted row =
      .ok (some update))
    (isPending : update.execution = .pending)
    (supplied : row.adminValue = none → answersBaseline row = true →
      ∀ value, SuppliesValue corpus familyDuid row.item value →
        canonicalValue row.item.field.kind value =
          canonicalValue row.item.field.kind row.submittedValue) :
    thirdValue (row.reconciled snapshot update) row.carried = false := by
  obtain ⟨definition, found, ⟨_, merged⟩ | ⟨current, reading, merged⟩⟩ :=
    proposalUpdate_cases yielded
  · have noValue := remerge_current merged
    simp [thirdValue, ProposedChange.reconciled, noValue]
  · cases current with
    | none =>
        have noValue := remerge_current merged
        simp [thirdValue, ProposedChange.reconciled, noValue]
    | some value =>
        exact thirdValue_of_remerge snapshot merged isPending
          fun edited answersOwn =>
            supplied edited answersOwn value ⟨definition, found, reading⟩

theorem conflictVisible_of_refresh
    {change next : Change} {corpus : Corpus} {familyDuid : Nat}
    (kept : ConflictVisible change)
    (permitted :
      (ChangeStep.refresh corpus familyDuid).KeepsConflictVisible change)
    (applied : change.refresh corpus familyDuid = some next) :
    ConflictVisible next := by
  rcases refresh_cases applied with
    ⟨sameRow, _⟩ | ⟨update, _, yielded, rfl⟩
  · exact ⟨sameRow ▸ kept.visible, sameRow ▸ kept.entered⟩
  · have notQueued : change.row.execution ≠ .queued := by
      rcases kept.entered with state | state | state <;> simp [state]
    have execution : update.execution = .pending ∨
        update.execution = .conflict :=
      proposalUpdate_execution_of_not_queued notQueued yielded
    refine ⟨?_, ?_⟩
    · rintro ⟨hiddenExecution, _, third⟩
      have isPending : update.execution = .pending := by
        rcases execution with state | state
        · exact state
        · simp [ProposedChange.reconciled, state] at hiddenExecution
      have notThird := thirdValue_of_proposalUpdate (change.generation + 1)
        yielded isPending permitted
      exact Bool.false_ne_true (notThird.symm.trans third)
    · rcases execution with state | state
      · exact Or.inl state
      · exact Or.inr (Or.inl state)

theorem conflictVisible_of_record
    {change next : Change} {facts : ChangeFacts} {intent : ReviewIntent}
    (kept : ConflictVisible change)
    (permitted :
      (ChangeStep.record facts intent).KeepsConflictVisible change)
    (applied : change.record facts intent = some next) :
    ConflictVisible next := by
  obtain ⟨_, rfl⟩ := record_eq_some applied
  refine ⟨?_, ?_⟩
  · rintro ⟨hiddenExecution, notApproved, third⟩
    simp only [ReviewIntent.recorded] at hiddenExecution notApproved third
    by_cases resolving : intent.resolve = true
    · simp [ReviewIntent.decided, resolving] at notApproved
    · have plain : intent.resolve = false := by simpa using resolving
      by_cases undoing : intent.undoes change = true
      · simp [plain, undoing] at hiddenExecution
      · simp only [plain, undoing, Bool.false_eq_true, if_false]
          at hiddenExecution
        have notConflict : change.row.execution ≠ .conflict := by
          rcases hiddenExecution with state | state <;> simp [state]
        obtain ⟨editKeeps, decisionKeeps⟩ := permitted notConflict plain
        cases edited : intent.edit with
        | some adminValue =>
            have notThird := editKeeps adminValue edited notApproved
            simp only [ProposedChange.carried, edited, Option.getD_some]
              at third
            rw [thirdValue_of_same_source rfl rfl rfl] at third
            exact Bool.false_ne_true (notThird.symm.trans third)
        | none =>
            have sameThird :
                thirdValue change.row change.row.carried = true := by
              simp only [ProposedChange.carried, edited, Option.getD_none]
                at third ⊢
              rwa [thirdValue_of_same_source rfl rfl rfl] at third
            by_cases approvedBefore : change.row.decision = .approved
            · have noBase : change.hasActiveBase = false := by
                by_contra base
                have away : (intent.decision.any fun decision =>
                    decision != .approved) = true := by
                  cases chosen : intent.decision with
                  | none =>
                      simp [ReviewIntent.decided, plain, chosen,
                        approvedBefore] at notApproved
                  | some decision =>
                      simpa [ReviewIntent.decided, plain, chosen]
                        using notApproved
                exact undoing (by
                  simp [ReviewIntent.undoes, away, plain, base])
              have notThird :=
                decisionKeeps notApproved approvedBefore noBase
              simp [notThird] at sameThird
            · exact kept.visible
                ⟨hiddenExecution, approvedBefore, sameThird⟩
  · simp only [ReviewIntent.recorded]
    split
    · exact Or.inl rfl
    · split
      · exact Or.inr (Or.inl rfl)
      · exact kept.entered

theorem conflictVisible_of_resolution
    {change next : Change} {facts : ChangeFacts} {intent : ResolutionIntent}
    (kept : ConflictVisible change)
    (permitted :
      (ChangeStep.resolution facts intent).KeepsConflictVisible change)
    (applied : change.recordResolution facts intent = some next) :
    ConflictVisible next := by
  obtain ⟨admitted, rfl⟩ := recordResolution_eq_some applied
  cases action : intent.action with
  | entered =>
      refine ⟨?_, ?_⟩
      · rintro ⟨hiddenExecution, _, _⟩
        simp [ResolutionIntent.resolved, action] at hiddenExecution
      · simp [ResolutionIntent.resolved, action]
  | ignored =>
      refine ⟨?_, ?_⟩
      · rintro ⟨hiddenExecution, _, third⟩
        simp only [ResolutionIntent.resolved, action] at hiddenExecution third
        have sameThird :
            thirdValue change.row change.row.carried = true := by
          rwa [thirdValue_of_same_source rfl rfl rfl] at third
        by_cases approvedBefore : change.row.decision = .approved
        · have isPending : change.row.execution = .pending := by
            rcases kept.entered with state | state | state
            · exact state
            · simp [state] at hiddenExecution
            · simp [state] at hiddenExecution
          have notThird := permitted action approvedBefore isPending
          exact Bool.false_ne_true (notThird.symm.trans sameThird)
        · exact kept.visible ⟨hiddenExecution, approvedBefore, sameThird⟩
      · simpa [ResolutionIntent.resolved, action] using kept.entered
  | reopened =>
      cases undoing : intent.undoes facts change.row with
      | true =>
          have terminal : change.row.execution.isTerminal = true := by
            simp only [ResolutionIntent.undoes, Bool.and_eq_true] at undoing
            exact undoing.1.2
          have enteredBefore : change.row.execution = .resolvedExternal := by
            rcases kept.entered with state | state | state
            · simp [state, Execution.isTerminal] at terminal
            · simp [state, Execution.isTerminal] at terminal
            · exact state
          obtain ⟨decision, undone⟩ : ∃ decision,
              undoDecision change.row = some decision :=
            undoDecision_of_admitted admitted undoing
          have keptApproval := undoDecision_of_entered enteredBefore undone
          refine ⟨?_, ?_⟩
          · rintro ⟨_, notApproved, _⟩
            simp [ResolutionIntent.resolved, action, undoing, undone,
              keptApproval] at notApproved
          · simp [ResolutionIntent.resolved, action, undoing]
      | false =>
          have ignoredBefore := ignored_of_reopened admitted action undoing
          refine ⟨?_, ?_⟩
          · rintro ⟨hiddenExecution, _, third⟩
            simp only [ResolutionIntent.resolved, action, undoing,
              Bool.false_eq_true, if_false] at hiddenExecution third
            rw [thirdValue_of_same_source rfl rfl rfl] at third
            exact kept.visible ⟨hiddenExecution, by simp [ignoredBefore], third⟩
          · simpa [ResolutionIntent.resolved, action, undoing]
              using kept.entered

/-! ## Whole runs -/

theorem conflictVisible_of_created
    {change : Change} (created : change.Created) : ConflictVisible change := by
  cases created with
  | fresh made _ =>
      simp only [freshChange, Option.bind_eq_bind, Option.bind_eq_some_iff]
        at made
      obtain ⟨merge, _, handling, _, assembled⟩ := made
      cases assembled
      refine ⟨?_, ?_⟩
      · rintro ⟨_, _, third⟩
        exact Bool.false_ne_true ((thirdValue_of_baseline rfl).symm.trans third)
      · exact (createdExecution_cases merge).imp_right Or.inl
  | @carried _ _ _ _ _ _ source submitted _ changed made _ =>
      simp only [carriedChange, Option.bind_eq_bind, Option.bind_eq_some_iff]
        at made
      obtain ⟨merge, merged, handling, _, submittedKey, submittedRead,
        baselineKey, baselineRead, assembled⟩ := made
      split at assembled
      · cases assembled
      · rename_i newAnswer
        cases assembled
        refine ⟨?_, (createdExecution_cases merge).imp_right Or.inl⟩
        rintro ⟨hiddenExecution, _, third⟩
        have isPending : merge.state ≠ .conflict := by
          intro state
          simp [createdExecution, state] at hiddenExecution
        cases source with
        | none => simp [thirdValue] at third
        | some value =>
            obtain ⟨current, answer, baseline, currentRead, answerRead,
              baseRead, outcome⟩ := mergeValue_cases merged
            rw [submittedRead] at answerRead
            rw [baselineRead] at baseRead
            cases answerRead
            cases baseRead
            have notHeld : current ≠ submittedKey := by
              intro holds
              simp [unchangedAnswer, currentRead, submittedRead, holds]
                at changed
            cases outcome with
            | unchanged answered _ _ _ => exact newAnswer answered
            | sourceChanged answered _ _ _ => exact newAnswer answered
            | caughtUp _ holds _ _ => exact notHeld holds
            | familyChanged _ _ kept _ _ =>
                simp [thirdValue, currentRead, baselineRead, kept] at third
            | conflict _ _ _ state _ => exact isPending state

/-- In every run whose operations keep conflicts visible, an open change nobody
approved at a third value is a conflict, and a plain Approve of it is refused. -/
theorem no_hidden_conflict
    {start change : Change} (created : start.Created)
    (reached : Reaches ChangeOp.apply ChangeOp.KeepsConflictVisible
      start change) :
    ¬ HiddenConflict change.row ∧
      (change.row.reviewOpen = true → change.row.decision ≠ .approved →
        thirdValue change.row change.row.carried = true →
        change.row.execution = .conflict ∧
          ∀ facts version,
            (ChangeOp.review facts version .approved).apply change = none) := by
  have kept : ConflictVisible change := by
    refine reached.invariant (conflictVisible_of_created created) ?_
    intro source op target keptSource permitted applied
    obtain ⟨step, taken, stepApplied⟩ := Option.bind_eq_some_iff.mp applied
    have stepPermitted := permitted step taken
    cases step with
    | refresh corpus familyDuid =>
        exact conflictVisible_of_refresh keptSource stepPermitted stepApplied
    | record facts intent =>
        exact conflictVisible_of_record keptSource stepPermitted stepApplied
    | resolution facts intent =>
        exact conflictVisible_of_resolution keptSource stepPermitted
          stepApplied
  refine ⟨kept.visible, fun isOpen notApproved third => ?_⟩
  have inConflict : change.row.execution = .conflict := by
    rcases kept.entered with state | state | state
    · exact absurd ⟨Or.inl state, notApproved, third⟩ kept.visible
    · exact state
    · simp [ProposedChange.reviewOpen, state] at isOpen
  refine ⟨inConflict, fun facts version => ?_⟩
  simp [ChangeOp.apply, ChangeOp.step, ChangeStep.apply, Change.record,
    ReviewIntent.refused, reviewable, inConflict]

end Visibility

/-- ParishSoft moved to `c`: the change is a conflict. -/
theorem no_hidden_conflict_after_refresh :
    letI := asciiUnicode
    ∃ change,
      Reaches ChangeOp.apply ChangeOp.KeepsConflictVisible
        firstNameStart change ∧
      thirdValue change.row change.row.carried = true ∧
      ¬ HiddenConflict change.row ∧
      (change.row.reviewOpen = true → change.row.decision ≠ .approved →
        thirdValue change.row change.row.carried = true →
        change.row.execution = .conflict ∧
          ∀ facts version,
            (ChangeOp.review facts version .approved).apply change = none) := by
  let := asciiUnicode
  have permitted : ChangeOp.KeepsConflictVisible firstNameStart
      (.refresh (firstNameCorpus ['c']) 7) := by
    rintro step ⟨⟩
    intro _ answersOwn
    exact absurd answersOwn (by decide)
  have reached := (Reaches.refl firstNameStart).tail permitted
    (show ChangeOp.apply (.refresh (firstNameCorpus ['c']) 7) firstNameStart =
      some _ from rfl)
  exact ⟨_, reached, by decide, no_hidden_conflict firstNameStart_created reached⟩

/-- ParishSoft moved to the Family's `b` and a reviewer edited the change to
`c`: the stored `b` is a third value now, and a plain Approve is admitted. -/
theorem hidden_conflict_after_edit :
    letI := asciiUnicode
    ∃ start change, start.Created ∧
      Reaches ChangeOp.apply anyOp start change ∧
      HiddenConflict change.row ∧
      ((ChangeOp.review quietFacts change.row.version .approved).apply
        change).isSome = true := by
  let := asciiUnicode
  have refreshed : Reaches ChangeOp.apply anyOp firstNameStart _ :=
    (Reaches.refl firstNameStart).tail trivial
      (show ChangeOp.apply (.refresh (firstNameCorpus ['b']) 7)
        firstNameStart = some _ from rfl)
  have edited := refreshed.tail trivial
    (show ChangeOp.apply (.edit quietFacts 2 (some (.text ['c']))) _ =
      some _ from rfl)
  exact ⟨firstNameStart, _, firstNameStart_created, edited, by decide, by decide⟩

end ParishKit.Responses
