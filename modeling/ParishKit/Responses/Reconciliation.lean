import Mathlib.Algebra.GroupWithZero.Nat
import ParishKit.Lib.Except
import ParishKit.Responses.Change

/-!
# Reconciliation with a promoted snapshot

`reconcile_proposals` compares every open change of a campaign with the values
of one promoted corpus. `proposals_current` makes the same decision without a
write.
-/

namespace ParishKit.Responses

open ParishKit.Lib

/-- What one reconciliation writes to a change, beside its new source. -/
structure ProposalUpdate where
  current : KnownValue
  execution : Execution
  decision : Decision
deriving DecidableEq

/-- Whether reconciliation sends an approval resting on a stale accepted base
back to review. -/
def resetsApproval (row : ProposedChange) (conflictAccepted : Bool)
    (execution : Execution) (caughtUp : Bool) : Bool :=
  if caughtUp && execution == .pending then
    false
  else if !(row.execution == .pending || row.execution == .failed) ||
      !(execution == .pending || execution == .conflict) then
    false
  else
    row.decision == .approved && conflictAccepted

/-- What the promoted corpus says about one change. A Member outside the Family
is not read at all. -/
inductive SourceReading where
  | notRead
  | unusable
  | read (current : KnownValue)
deriving DecidableEq

section Reconciliation

variable [Unicode]

def readProposal (corpus : Corpus) (familyDuid : Nat) (item : Item)
    (field : CensusField) : Except ResponseError SourceReading :=
  match corpus.member item.entityKey with
  | none => .ok .notRead
  | some member =>
      if member.familyKey != toString familyDuid ||
          (field.name != .request .deathDate &&
            (!member.active || member.deceased)) then
        .ok .notRead
      else
        match memberFieldValue member
            (corpus.contact ("member:" ++ item.entityKey)) field with
        | .ok current => .ok (.read current)
        | .error .memberSourceUnavailable => .ok .unusable
        | .error raised => .error raised

/-- The refresh rules: where the change goes once its source value is
`current`. -/
def remerge (kind : ValueKind) (conflictAccepted : Bool)
    (row : ProposedChange) (current : KnownValue) (unusable : Bool) :
    Option ProposalUpdate := do
  let result ← mergeValue kind current (some ⟨row.baseline, row.carried, none⟩)
  let edited := row.adminValue.isSome
  let caughtUp := result.state == .upstreamCaughtUp ||
    (edited && result.state == .current)
  let third := result.conflict || (edited && result.state == .sourceChanged)
  let execution :=
    if caughtUp && row.execution == .queued then Execution.resolvedUpstream
    else if unusable || (third && !caughtUp) then Execution.conflict
    else Execution.pending
  let reset := resetsApproval row conflictAccepted execution caughtUp
  some ⟨current, execution, if reset then .unreviewed else row.decision⟩

/-- Whether a change waits for a value ParishSoft could not supply. -/
def ProposedChange.blocked (row : ProposedChange) : Bool :=
  row.current.isNone && row.execution == .conflict

def updateFromReading (kind : ValueKind) (conflictAccepted : Bool)
    (row : ProposedChange) :
    SourceReading → Except ResponseError (Option ProposalUpdate)
  | .notRead => .ok none
  | .unusable =>
      if row.blocked then
        .ok none
      else do
        let _ ← orRaise .comparisonValue (knownKey kind row.current)
        some <$> orRaise .comparisonValue
          (remerge kind conflictAccepted row none true)
  | .read current => do
      let oldKey ← orRaise .comparisonValue (knownKey kind row.current)
      let newKey ← orRaise .comparisonValue (knownKey kind current)
      if !row.blocked && oldKey = newKey then
        .ok none
      else
        some <$> orRaise .comparisonValue
          (remerge kind conflictAccepted row current false)

/-- The body of the loop of `_proposal_updates`: nothing, one yielded update, or
an exception. -/
def proposalUpdate (corpus : Corpus) (familyDuid : Nat)
    (conflictAccepted : Bool) (row : ProposedChange) :
    Except ResponseError (Option ProposalUpdate) :=
  match row.item.entityKind, row.item.field with
  | .proposedMember, .newMember => .ok none
  | .member, .request .movedHousehold => .ok none
  | .member, .request .deceasedStatus => .ok none
  | .family, .family field =>
      if row.current = familyFieldValue field then
        .ok none
      else
        .error .storageInvariant
  | .member, field =>
      match field.definition? with
      | none => .error .storageInvariant
      | some definition => do
          let reading ← readProposal corpus familyDuid row.item definition
          updateFromReading definition.kind conflictAccepted row reading
  | _, _ => .error .storageInvariant

/-- The one inversion of a yielded update: the reading behind it and the merge
that made it. -/
theorem proposalUpdate_cases
    {corpus : Corpus} {familyDuid : Nat} {conflictAccepted : Bool}
    {row : ProposedChange} {update : ProposalUpdate}
    (yielded : proposalUpdate corpus familyDuid conflictAccepted row =
      .ok (some update)) :
    ∃ definition, row.item.field.definition? = some definition ∧
      ((readProposal corpus familyDuid row.item definition = .ok .unusable ∧
          remerge row.item.field.kind conflictAccepted row none true =
            some update) ∨
        ∃ current,
          readProposal corpus familyDuid row.item definition =
            .ok (.read current) ∧
          remerge row.item.field.kind conflictAccepted row current false =
            some update) := by
  unfold proposalUpdate at yielded
  split at yielded
  · cases yielded
  · cases yielded
  · cases yielded
  · split at yielded <;> cases yielded
  · split at yielded
    · cases yielded
    · rename_i definition found
      obtain ⟨reading, supplied, remaining⟩ := except_bind_eq_ok yielded
      refine ⟨definition, found, ?_⟩
      rw [← definition_kind found]
      cases reading with
      | notRead => cases remaining
      | unusable =>
          simp only [updateFromReading] at remaining
          split at remaining
          · cases remaining
          · obtain ⟨oldKey, _, remaining⟩ := except_bind_eq_ok remaining
            obtain ⟨written, raised, same⟩ := except_map_eq_ok remaining
            cases same
            exact Or.inl ⟨supplied, orRaise_eq_ok raised⟩
      | read current =>
          simp only [updateFromReading] at remaining
          obtain ⟨oldKey, _, remaining⟩ := except_bind_eq_ok remaining
          obtain ⟨newKey, _, remaining⟩ := except_bind_eq_ok remaining
          split at remaining
          · cases remaining
          · obtain ⟨written, raised, same⟩ := except_map_eq_ok remaining
            cases same
            exact Or.inr ⟨current, supplied, orRaise_eq_ok raised⟩
  · cases yielded

/-! ## Whole passes -/

/-- What reconciliation reads of the response a change belongs to. -/
structure SubmissionScope where
  campaign : Nat
  familyDuid : Nat

structure ResponseStore where
  submission : Nat → SubmissionScope
  changes : List ProposedChange
  reviews : List ProposalReview

def ResponseStore.rowUpdate (store : ResponseStore) (corpus : Corpus)
    (campaign : Nat) (row : ProposedChange) :
    Except ResponseError (Option ProposalUpdate) :=
  let scope := store.submission row.submission
  if scope.campaign == campaign && row.execution.isOpen then
    proposalUpdate corpus scope.familyDuid (hasActiveBase store.reviews row) row
  else
    .ok none

/-- The row written for a yielded update. -/
def ProposedChange.reconciled (row : ProposedChange) (snapshot : Nat)
    (update : ProposalUpdate) : ProposedChange :=
  { row with
    current := update.current
    currentSource := snapshot
    execution := update.execution
    decision := update.decision
    version := row.version + 1 }

/-- One row after the pass, and how many writes it took. -/
def ResponseStore.reconcileRow (store : ResponseStore) (snapshot : Nat)
    (corpus : Corpus) (campaign : Nat) (row : ProposedChange) :
    Except ResponseError (ProposedChange × Nat) := do
  match ← store.rowUpdate corpus campaign row with
  | none => .ok (row, 0)
  | some update => .ok (row.reconciled snapshot update, 1)

def reconcileProposals (snapshot : Nat) (corpus : Corpus) (campaign : Nat)
    (store : ResponseStore) : Except ResponseError (ResponseStore × Nat) := do
  let rows ← store.changes.mapM (store.reconcileRow snapshot corpus campaign)
  .ok ({ store with changes := rows.map Prod.fst }, (rows.map Prod.snd).sum)

/-- Whether the generator of updates ends without a yield. A household
comparison it would refuse also answers false. -/
def ResponseStore.noUpdate (store : ResponseStore) (corpus : Corpus)
    (campaign : Nat) : List ProposedChange → Except ResponseError Bool
  | [] => .ok true
  | row :: rest =>
      match store.rowUpdate corpus campaign row with
      | .error .storageInvariant => .ok false
      | .error raised => .error raised
      | .ok (some _) => .ok false
      | .ok none => store.noUpdate corpus campaign rest

def proposalsCurrent (corpus : Corpus) (campaign : Nat)
    (store : ResponseStore) : Except ResponseError Bool :=
  store.noUpdate corpus campaign store.changes

/-! ## One pass is enough -/

/-- A merge without a source value never calls it current or a conflict. -/
theorem mergeValue_unavailable
    {kind : ValueKind} {prior : PriorChange} {result : EffectiveValue}
    (merged : mergeValue kind none (some prior) = some result) :
    result.state = .unavailable ∧ result.conflict = false := by
  simp only [mergeValue, Option.bind_eq_bind, Option.bind_eq_some_iff]
    at merged
  obtain ⟨submitted, _, baseline, _, merged⟩ := merged
  split at merged
  · cases merged
    exact ⟨rfl, rfl⟩
  · cases merged
    exact ⟨rfl, rfl⟩

theorem remerge_current
    {kind : ValueKind} {conflictAccepted unusable : Bool}
    {row : ProposedChange} {current : KnownValue} {update : ProposalUpdate}
    (merged : remerge kind conflictAccepted row current unusable =
      some update) :
    update.current = current := by
  simp only [remerge, Option.bind_eq_bind, Option.bind_eq_some_iff] at merged
  obtain ⟨result, _, assembled⟩ := merged
  cases assembled
  rfl

/-- Without a source value the change is blocked exactly when the source was
unusable. -/
theorem remerge_unavailable
    {kind : ValueKind} {conflictAccepted unusable : Bool}
    {row : ProposedChange} {update : ProposalUpdate}
    (merged : remerge kind conflictAccepted row none unusable = some update) :
    update.execution = if unusable then .conflict else .pending := by
  simp only [remerge, Option.bind_eq_bind, Option.bind_eq_some_iff] at merged
  obtain ⟨result, found, assembled⟩ := merged
  obtain ⟨state, noConflict⟩ := mergeValue_unavailable found
  cases assembled
  simp [state, noConflict]

/-- Only a queued change is resolved upstream. -/
theorem remerge_execution_of_not_queued
    {kind : ValueKind} {conflictAccepted unusable : Bool}
    {row : ProposedChange} {current : KnownValue} {update : ProposalUpdate}
    (notQueued : row.execution ≠ .queued)
    (merged : remerge kind conflictAccepted row current unusable =
      some update) :
    update.execution = .pending ∨ update.execution = .conflict := by
  simp only [remerge, Option.bind_eq_bind, Option.bind_eq_some_iff] at merged
  obtain ⟨result, _, assembled⟩ := merged
  cases assembled
  have different : (row.execution == Execution.queued) = false := by
    simpa using notQueued
  simp only [different, Bool.and_false, Bool.false_eq_true, if_false]
  split
  · exact Or.inr rfl
  · exact Or.inl rfl

theorem proposalUpdate_execution_of_not_queued
    {corpus : Corpus} {familyDuid : Nat} {conflictAccepted : Bool}
    {row : ProposedChange} {update : ProposalUpdate}
    (notQueued : row.execution ≠ .queued)
    (yielded : proposalUpdate corpus familyDuid conflictAccepted row =
      .ok (some update)) :
    update.execution = .pending ∨ update.execution = .conflict := by
  obtain ⟨_, _, ⟨_, merged⟩ | ⟨_, _, merged⟩⟩ := proposalUpdate_cases yielded
  · exact remerge_execution_of_not_queued notQueued merged
  · exact remerge_execution_of_not_queued notQueued merged

/-- Reconciliation never queues a change. -/
theorem proposalUpdate_execution_ne_queued
    {corpus : Corpus} {familyDuid : Nat} {conflictAccepted : Bool}
    {row : ProposedChange} {update : ProposalUpdate}
    (yielded : proposalUpdate corpus familyDuid conflictAccepted row =
      .ok (some update)) :
    update.execution ≠ .queued := by
  have neverQueued {current : KnownValue} {unusable : Bool}
      (merged : remerge row.item.field.kind conflictAccepted row current
        unusable = some update) : update.execution ≠ .queued := by
    simp only [remerge, Option.bind_eq_bind, Option.bind_eq_some_iff] at merged
    obtain ⟨result, _, assembled⟩ := merged
    cases assembled
    dsimp only
    split
    · simp
    · split <;> simp
  obtain ⟨_, _, ⟨_, merged⟩ | ⟨_, _, merged⟩⟩ := proposalUpdate_cases yielded
  · exact neverQueued merged
  · exact neverQueued merged

/-- A change that took an update has nothing left to take from the same
reading. -/
theorem updateFromReading_reconciled
    {kind : ValueKind} {conflictAccepted after : Bool} {row : ProposedChange}
    {reading : SourceReading} {update : ProposalUpdate} (snapshot : Nat)
    (yielded : updateFromReading kind conflictAccepted row reading =
      .ok (some update)) :
    updateFromReading kind after (row.reconciled snapshot update) reading =
      .ok none := by
  cases reading with
  | notRead => rfl
  | unusable =>
      simp only [updateFromReading] at yielded
      split at yielded
      · cases yielded
      · obtain ⟨oldKey, _, remaining⟩ := except_bind_eq_ok yielded
        obtain ⟨written, raised, same⟩ := except_map_eq_ok remaining
        cases same
        have merged := orRaise_eq_ok raised
        have noValue := remerge_current merged
        have inConflict := remerge_unavailable merged
        simp only [if_true] at inConflict
        simp [updateFromReading, ProposedChange.blocked,
          ProposedChange.reconciled, noValue, inConflict]
  | read current =>
      simp only [updateFromReading] at yielded
      obtain ⟨oldKey, _, remaining⟩ := except_bind_eq_ok yielded
      obtain ⟨newKey, newRead, remaining⟩ := except_bind_eq_ok remaining
      split at remaining
      · cases remaining
      · obtain ⟨written, raised, same⟩ := except_map_eq_ok remaining
        cases same
        have merged := orRaise_eq_ok raised
        have taken := remerge_current merged
        have unblocked :
            (row.reconciled snapshot update).blocked = false := by
          cases current with
          | none =>
              have isPending := remerge_unavailable merged
              simp [ProposedChange.blocked, ProposedChange.reconciled,
                isPending]
          | some value =>
              simp [ProposedChange.blocked, ProposedChange.reconciled, taken]
        have sameCurrent :
            (row.reconciled snapshot update).current = current := taken
        simp [updateFromReading, unblocked, sameCurrent, newRead, except_ok_bind]

theorem proposalUpdate_reconciled
    {corpus : Corpus} {familyDuid : Nat} {conflictAccepted after : Bool}
    {row : ProposedChange} {update : ProposalUpdate} (snapshot : Nat)
    (yielded : proposalUpdate corpus familyDuid conflictAccepted row =
      .ok (some update)) :
    proposalUpdate corpus familyDuid after (row.reconciled snapshot update) =
      .ok none := by
  have sameItem : (row.reconciled snapshot update).item = row.item := rfl
  unfold proposalUpdate at yielded ⊢
  rw [sameItem]
  split at yielded
  · cases yielded
  · cases yielded
  · cases yielded
  · split at yielded
    · cases yielded
    · cases yielded
  · rename_i notMoved notDeceased kindEq
    split at yielded
    · cases yielded
    · rename_i definition found
      obtain ⟨reading, readSource, remaining⟩ := except_bind_eq_ok yielded
      simp only [readSource, except_ok_bind]
      exact updateFromReading_reconciled snapshot remaining
  · cases yielded

theorem execution_isOpen_of_rowUpdate
    {store : ResponseStore} {corpus : Corpus} {campaign : Nat}
    {row : ProposedChange} {update : ProposalUpdate}
    (yielded : store.rowUpdate corpus campaign row = .ok (some update)) :
    (store.submission row.submission).campaign = campaign ∧
      row.execution.isOpen = true := by
  simp only [ResponseStore.rowUpdate] at yielded
  split at yielded
  · rename_i inScope
    simpa only [Bool.and_eq_true, beq_iff_eq] using inScope
  · cases yielded

/-- A row of a finished pass yields nothing for the same corpus, in any store
with the same responses. -/
theorem rowUpdate_of_reconcileRow
    {store next : ResponseStore} {corpus : Corpus} {snapshot campaign : Nat}
    {row written : ProposedChange} {writes : Nat}
    (sameSubmission : next.submission = store.submission)
    (sameReviews : next.reviews = store.reviews)
    (reconciledRow : store.reconcileRow snapshot corpus campaign row =
      .ok (written, writes)) :
    next.rowUpdate corpus campaign written = .ok none := by
  obtain ⟨found, yielded, result⟩ := except_bind_eq_ok reconciledRow
  cases found with
  | none =>
      cases result
      simpa only [ResponseStore.rowUpdate, sameSubmission, sameReviews]
        using yielded
  | some update =>
      cases result
      have inScope := execution_isOpen_of_rowUpdate yielded
      simp only [ResponseStore.rowUpdate, inScope.1, inScope.2, beq_self_eq_true,
        Bool.and_self, if_true] at yielded
      simp only [ResponseStore.rowUpdate, sameSubmission]
      split
      · exact proposalUpdate_reconciled snapshot yielded
      · rfl

theorem noUpdate_of_settled
    {store : ResponseStore} {corpus : Corpus} {campaign : Nat}
    {rows : List ProposedChange}
    (settled : ∀ row ∈ rows, store.rowUpdate corpus campaign row = .ok none) :
    store.noUpdate corpus campaign rows = .ok true := by
  induction rows with
  | nil => rfl
  | cons head tail inductionHypothesis =>
      simp only [ResponseStore.noUpdate, settled head List.mem_cons_self]
      exact inductionHypothesis fun row member =>
        settled row (List.mem_cons_of_mem head member)

theorem reconcileProposals_of_settled
    {store : ResponseStore} {corpus : Corpus} {campaign : Nat}
    (snapshot : Nat)
    (settled : ∀ row ∈ store.changes,
      store.rowUpdate corpus campaign row = .ok none) :
    reconcileProposals snapshot corpus campaign store = .ok (store, 0) := by
  have unchanged : store.changes.mapM
      (store.reconcileRow snapshot corpus campaign) =
        .ok (store.changes.map fun row => (row, 0)) :=
    except_mapM_ok_of_forall fun row member => by
      simp only [ResponseStore.reconcileRow, settled row member, except_ok_bind]
  simp [reconcileProposals, unchanged, except_ok_bind, Function.comp_def]

/-- A pass that completes leaves every row settled for its corpus. -/
theorem settled_of_reconcileProposals
    {store next : ResponseStore} {corpus : Corpus}
    {snapshot campaign writes : Nat}
    (completed : reconcileProposals snapshot corpus campaign store =
      .ok (next, writes)) :
    ∀ row ∈ next.changes, next.rowUpdate corpus campaign row = .ok none := by
  obtain ⟨rows, traversed, assembled⟩ := except_bind_eq_ok completed
  cases assembled
  intro written member
  obtain ⟨pair, pairMember, rfl⟩ := List.mem_map.mp member
  have each := except_mapM_eq_ok traversed
  obtain ⟨row, _, reconciledRow⟩ :=
    exists_input_of_forall₂ each pairMember
  exact rowUpdate_of_reconcileRow rfl rfl reconciledRow

/-- Reconciliation reaches its fixpoint in one pass. -/
theorem reconcileProposals_fixpoint
    {store next : ResponseStore} {corpus : Corpus}
    {snapshot campaign writes : Nat}
    (completed : reconcileProposals snapshot corpus campaign store =
      .ok (next, writes)) :
    proposalsCurrent corpus campaign next = .ok true ∧
      ∀ again, reconcileProposals again corpus campaign next =
        .ok (next, 0) := by
  have settled := settled_of_reconcileProposals completed
  exact ⟨noUpdate_of_settled settled, fun again =>
    reconcileProposals_of_settled again settled⟩

end Reconciliation

/-! A Family of one Member whose first name the Family changed from `a` to `b`
and ParishSoft from `a` to `c`. -/

def firstNameChange : ProposedChange where
  pk := 1
  submission := 1
  item := ⟨.member, "8", .member .firstName⟩
  baseline := some (.text ['a'])
  submittedValue := .text ['b']
  current := some (.text ['a'])
  currentSource := 1
  adminValue := none
  handling := .api
  decision := .unreviewed
  execution := .pending
  supersededBy := none
  version := 1

/-- A corpus in which Member 8 of Family 7 has the given first name. -/
def firstNameCorpus (name : Text) : Corpus where
  member key :=
    if key = "8" then
      some ⟨8, "7", true, false, fun source =>
        if source = "firstName" then some (.text name) else none⟩
    else
      none
  contact _ := none

def firstNameStore : ResponseStore :=
  ⟨fun _ => ⟨1, 7⟩, [firstNameChange], []⟩

theorem reconcileProposals_fixpoint_third_value :
    letI := asciiUnicode
    ∃ next, reconcileProposals 2 (firstNameCorpus ['c']) 1 firstNameStore =
        .ok (next, 1) ∧
      next.changes.map (·.execution) = [.conflict] ∧
      proposalsCurrent (firstNameCorpus ['c']) 1 next = .ok true ∧
      ∀ again, reconcileProposals again (firstNameCorpus ['c']) 1 next =
        .ok (next, 0) :=
  letI := asciiUnicode
  ⟨_, rfl, rfl, reconcileProposals_fixpoint
    (show reconcileProposals 2 (firstNameCorpus ['c']) 1 firstNameStore =
      .ok (_, 1) from rfl)⟩

end ParishKit.Responses
