import ParishKit.Responses.CensusReview

/-!
# The accepted base over whole histories

An active accepted base is a derived fact over the review rows and the change's
source reference. For a change the API carries it goes back to one conflict
resolution of the run, since which the change stayed approved and its stored
ParishSoft value stayed the accepted one.
-/

namespace ParishKit.Responses

open ParishKit.Lib

/-- A reference to a snapshot not promoted yet carries no base. -/
theorem hasActiveBase_of_new_source
    {reviews : List ProposalReview} {row : ProposedChange} {generation : Nat}
    (sources : ∀ review ∈ reviews, ∀ source,
      review.acceptedSource = some source → source ≤ generation)
    (newer : generation < row.currentSource) :
    hasActiveBase reviews row = false := by
  by_contra active
  have active : hasActiveBase reviews row = true := by simpa using active
  obtain ⟨review, member, _, _, source, _⟩ := hasActiveBase_iff.mp active
  have bounded := sources review member _ source
  omega

/-- A review that resolves nothing keeps a base active only by keeping the
change approved. -/
theorem hasActiveBase_of_recorded
    {change : Change} {facts : ChangeFacts} {intent : ReviewIntent}
    (reviewed : ∀ review ∈ change.reviews,
      review.proposal = change.row.pk ∧
        review.expectedVersion < change.row.version)
    (admitted : intent.refused facts change.row = false)
    (plain : intent.resolve = false)
    (active : (intent.recorded change).hasActiveBase = true) :
    intent.decided change.row = .approved ∧ change.hasActiveBase = true := by
  obtain ⟨review, member, same, base, source, standing⟩ :=
    hasActiveBase_iff.mp active
  have version := (reviewOpen_of_admitted admitted).1
  simp only [ReviewIntent.recorded, List.mem_append, List.mem_singleton]
    at member
  rcases member with oldReview | newReview
  · simp only [ReviewIntent.recorded, ProposalReview.undone, List.any_append,
      Bool.or_eq_false_iff] at standing
    obtain ⟨oldStanding, newStanding⟩ := standing
    have bounds := reviewed review oldReview
    refine ⟨?_, hasActiveBase_iff.mpr
      ⟨review, oldReview, same, base, source, oldStanding⟩⟩
    simpa [ReviewIntent.review, bounds.1, bounds.2, ← version]
      using newStanding
  · simp [newReview, ReviewIntent.review, plain] at base

section AcceptedBase

variable [Unicode]

/-- Through every state of these operations the change is approved and its
stored ParishSoft value is `value`. -/
def StandsThrough (source : Change) (ops : List ChangeOp) (value : Value) :
    Prop :=
  ∀ before after state, ops = before ++ after →
    run ChangeOp.apply source before = some state →
    state.row.decision = .approved ∧ state.row.current = some value

/-- The operation resolves a conflict on the row. -/
def ChangeOp.Resolves (row : ProposedChange) (op : ChangeOp) : Prop :=
  ∃ facts intent, op.step row = some (.record facts intent) ∧
    intent.resolve = true

/-- A reviewer accepted `value` in a conflict resolution of the run, after which
no other decision and no other ParishSoft value was recorded. -/
def AcceptedSince (start : Change) (ops : List ChangeOp) (value : Value) :
    Prop :=
  ∃ before op after source resolved,
    ops = before ++ op :: after ∧
    run ChangeOp.apply start before = some source ∧
    source.row.execution = .conflict ∧ source.row.current = some value ∧
    op.Resolves source.row ∧ op.apply source = some resolved ∧
    StandsThrough resolved after value

theorem standsThrough_nil
    {source : Change} {value : Value}
    (approved : source.row.decision = .approved)
    (stored : source.row.current = some value) :
    StandsThrough source [] value := by
  intro before after state split reached
  obtain ⟨rfl, rfl⟩ := List.append_eq_nil_iff.mp split.symm
  cases reached
  exact ⟨approved, stored⟩

theorem StandsThrough.concat
    {source target : Change} {ops : List ChangeOp} {op : ChangeOp}
    {value : Value} (stands : StandsThrough source ops value)
    (reached : run ChangeOp.apply source (ops ++ [op]) = some target)
    (approved : target.row.decision = .approved)
    (stored : target.row.current = some value) :
    StandsThrough source (ops ++ [op]) value := by
  intro before after state split stateReached
  cases after using List.reverseRecOn with
  | nil =>
      rw [List.append_nil] at split
      rw [← split, reached] at stateReached
      cases stateReached
      exact ⟨approved, stored⟩
  | append_singleton after last =>
      rw [← List.append_assoc] at split
      obtain ⟨shorter, _⟩ := List.append_inj' split rfl
      exact stands before after state shorter stateReached

theorem AcceptedSince.concat
    {start source target : Change} {ops : List ChangeOp} {op : ChangeOp}
    {value : Value} (accepted : AcceptedSince start ops value)
    (finished : run ChangeOp.apply start ops = some source)
    (applied : op.apply source = some target)
    (approved : target.row.decision = .approved)
    (stored : target.row.current = some value) :
    AcceptedSince start (ops ++ [op]) value := by
  obtain ⟨before, first, after, conflicting, resolved, rfl, reached,
    inConflict, atValue, resolves, firstApplied, stands⟩ := accepted
  have afterFirst : run ChangeOp.apply resolved after = some source := by
    rwa [run_append, reached, Option.bind_some, run_cons, firstApplied,
      Option.bind_some] at finished
  have targetReached :
      run ChangeOp.apply resolved (after ++ [op]) = some target := by
    rw [run_concat, afterFirst, Option.bind_some, applied]
  exact ⟨before, first, after ++ [op], conflicting, resolved, by simp,
    reached, inConflict, atValue, resolves, firstApplied,
    stands.concat targetReached approved stored⟩

/-! ## The invariant of one change -/

/-- What every state of a run keeps about its reviews and its base. -/
structure BaseAccounted (start : Change) (ops : List ChangeOp)
    (change : Change) : Prop where
  registered : (capability change.row.item.entityKind
    change.row.item.field).isSome = true
  reviewed : ∀ review ∈ change.reviews,
    review.proposal = change.row.pk ∧
      review.expectedVersion < change.row.version
  sources : ∀ review ∈ change.reviews, ∀ source,
    review.acceptedSource = some source → source ≤ change.generation
  current : change.row.currentSource ≤ change.generation
  automatic : byHand change.row = false →
    change.row.execution = .pending ∨ change.row.execution = .conflict
  accepted : byHand change.row = false → change.hasActiveBase = true →
    change.row.decision = .approved ∧
      ∃ value, change.row.current = some value ∧
        AcceptedSince start ops value

theorem baseAccounted_of_created
    {start : Change} (created : start.Created) :
    BaseAccounted start [] start := by
  cases created with
  | fresh made promoted =>
      simp only [freshChange, Option.bind_eq_bind, Option.bind_eq_some_iff]
        at made
      obtain ⟨merge, _, handling, handled, assembled⟩ := made
      cases assembled
      exact ⟨capability_of_proposalHandling handled, by simp, by simp, promoted,
        fun _ => createdExecution_cases merge, fun _ active => by cases active⟩
  | carried changed made promoted =>
      simp only [carriedChange, Option.bind_eq_bind, Option.bind_eq_some_iff]
        at made
      obtain ⟨merge, _, handling, handled, _, _, _, _, assembled⟩ := made
      split at assembled
      · cases assembled
      · cases assembled
        exact ⟨capability_of_proposalHandling handled, by simp, by simp, promoted,
          fun _ => createdExecution_cases merge,
          fun _ active => by cases active⟩

theorem baseAccounted_of_record
    {start change next : Change} {ops : List ChangeOp} {op : ChangeOp}
    {facts : ChangeFacts} {intent : ReviewIntent}
    (kept : BaseAccounted start ops change)
    (finished : run ChangeOp.apply start ops = some change)
    (taken : op.step change.row = some (.record facts intent))
    (applied : op.apply change = some next)
    (recorded : change.record facts intent = some next) :
    BaseAccounted start (ops ++ [op]) next := by
  obtain ⟨admitted, rfl⟩ := record_eq_some recorded
  obtain ⟨version, resolves⟩ := reviewOpen_of_admitted admitted
  refine ⟨kept.registered, ?_, ?_, kept.current, ?_, ?_⟩
  · intro review member
    simp only [ReviewIntent.recorded, List.mem_append, List.mem_singleton]
      at member ⊢
    rcases member with oldReview | rfl
    · have bounds := kept.reviewed review oldReview
      exact ⟨bounds.1, by omega⟩
    · simp [ReviewIntent.review, version]
  · intro review member source accepted
    simp only [ReviewIntent.recorded, List.mem_append, List.mem_singleton]
      at member ⊢
    rcases member with oldReview | rfl
    · exact kept.sources review oldReview source accepted
    · simp only [ReviewIntent.review, Option.ite_none_right_eq_some,
        Option.some.injEq] at accepted
      rw [← accepted.2]
      exact kept.current
  · intro automatic
    simp only [ReviewIntent.recorded]
    split
    · exact Or.inl rfl
    · split
      · exact Or.inr rfl
      · exact kept.automatic automatic
  · intro automatic active
    cases resolving : intent.resolve with
    | true =>
        have admissible := resolves resolving
        simp only [resolvable, Bool.and_eq_true, beq_iff_eq] at admissible
        obtain ⟨value, stored⟩ := Option.isSome_iff_exists.mp admissible.2
        have approved : (intent.recorded change).row.decision = .approved := by
          simp [ReviewIntent.recorded, ReviewIntent.decided, resolving]
        have sameValue : (intent.recorded change).row.current = some value :=
          stored
        exact ⟨approved, value, sameValue, ops, op, [], change, _, rfl,
          finished, admissible.1.2, stored, ⟨facts, intent, taken, resolving⟩,
          applied, standsThrough_nil approved sameValue⟩
    | false =>
        obtain ⟨approved, before⟩ := hasActiveBase_of_recorded kept.reviewed
          admitted resolving active
        obtain ⟨_, value, stored, accepted⟩ := kept.accepted automatic before
        exact ⟨approved, value, stored,
          accepted.concat finished applied approved stored⟩

theorem baseAccounted_of_refresh
    {start change next : Change} {ops : List ChangeOp} {op : ChangeOp}
    {corpus : Corpus} {familyDuid : Nat}
    (kept : BaseAccounted start ops change)
    (finished : run ChangeOp.apply start ops = some change)
    (applied : op.apply change = some next)
    (refreshed : change.refresh corpus familyDuid = some next) :
    BaseAccounted start (ops ++ [op]) next := by
  rcases refresh_cases refreshed with
    ⟨_, rfl⟩ | ⟨update, _, yielded, rfl⟩
  · refine ⟨kept.registered, kept.reviewed, ?_, ?_, kept.automatic, ?_⟩
    · intro review member source accepted
      exact le_trans (kept.sources review member source accepted)
        (Nat.le_succ _)
    · exact le_trans kept.current (Nat.le_succ _)
    · intro automatic active
      obtain ⟨approved, value, stored, accepted⟩ :=
        kept.accepted automatic active
      exact ⟨approved, value, stored,
        accepted.concat finished applied approved stored⟩
  · refine ⟨kept.registered, ?_, ?_, le_refl _, ?_, ?_⟩
    · intro review member
      have bounds := kept.reviewed review member
      exact ⟨bounds.1, lt_trans bounds.2 (Nat.lt_succ_self _)⟩
    · intro review member source accepted
      exact le_trans (kept.sources review member source accepted)
        (Nat.le_succ _)
    · intro automatic
      have notQueued : change.row.execution ≠ .queued := by
        rcases kept.automatic automatic with state | state <;> simp [state]
      exact proposalUpdate_execution_of_not_queued notQueued yielded
    · intro _ active
      have stale := hasActiveBase_of_new_source kept.sources
        (show change.generation <
          (change.row.reconciled (change.generation + 1)
            update).currentSource from Nat.lt_succ_self _)
      exact absurd (stale.symm.trans active) Bool.false_ne_true

theorem baseAccounted_of_resolution
    {start change next : Change} {ops : List ChangeOp} {op : ChangeOp}
    {facts : ChangeFacts} {intent : ResolutionIntent}
    (kept : BaseAccounted start ops change)
    (resolved : change.recordResolution facts intent = some next) :
    BaseAccounted start (ops ++ [op]) next := by
  obtain ⟨admitted, rfl⟩ := recordResolution_eq_some resolved
  have frame := resolved_frame facts intent change.row
  obtain ⟨samePk, sameHandling, sameItem, sameCurrent, sameSource, version⟩ :=
    frame
  have sameByHand :
      byHand (intent.resolved facts change.row) = byHand change.row := by
    simp only [byHand, sameHandling, sameItem]
  refine ⟨?_, ?_, kept.sources, ?_, ?_, ?_⟩
  · simpa only [sameItem] using kept.registered
  · intro review member
    have bounds := kept.reviewed review member
    simp only [samePk, version]
    exact ⟨bounds.1, lt_trans bounds.2 (Nat.lt_succ_self _)⟩
  · simpa only [sameSource] using kept.current
  · intro automatic
    rw [sameByHand] at automatic
    have reopening := reopened_ignore_of_automatic automatic
      (kept.automatic automatic) admitted
    simpa only [reopening.2] using kept.automatic automatic
  · intro automatic active
    rw [sameByHand] at automatic
    have ignored := (reopened_ignore_of_automatic automatic
      (kept.automatic automatic) admitted).1
    have before : change.hasActiveBase = true := by
      obtain ⟨review, member, same, base, source, standing⟩ :=
        hasActiveBase_iff.mp active
      simp only [samePk, sameSource] at same source
      exact hasActiveBase_iff.mpr
        ⟨review, member, same, base, source, standing⟩
    have approved := (kept.accepted automatic before).1
    rw [ignored] at approved
    cases approved

/-- Every run keeps the account of its base. -/
theorem baseAccounted_of_run
    {start change : Change} {ops : List ChangeOp} (created : start.Created)
    (finished : run ChangeOp.apply start ops = some change) :
    BaseAccounted start ops change := by
  refine run_invariant finished (baseAccounted_of_created created) ?_
  intro done source op target reached kept applied
  obtain ⟨step, taken, stepApplied⟩ := Option.bind_eq_some_iff.mp applied
  cases step with
  | refresh corpus familyDuid =>
      exact baseAccounted_of_refresh kept reached applied stepApplied
  | record facts intent =>
      exact baseAccounted_of_record kept reached taken applied stepApplied
  | resolution facts intent =>
      exact baseAccounted_of_resolution kept stepApplied

end AcceptedBase

end ParishKit.Responses
