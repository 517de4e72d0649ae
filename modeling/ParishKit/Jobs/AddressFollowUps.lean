import ParishKit.Jobs.AddressRetryRuns

/-!
# Follow-ups never mail a settled address again

The invariant of every run, what a run makes of an earlier row, and the end of
a submission that nobody recorded.
-/

namespace ParishKit.Jobs

open ParishKit.Lib

section Steps

variable {positions : List Nat} {world next : FollowUp}

/-- What a step makes of the row and its history. -/
structure Onward (world next : FollowUp) : Prop where
  shrinks : ∀ position ∈ next.row.remaining, position ∈ world.row.remaining
  settled : world.row.state.active = false →
    next.row = world.row ∧ next.log = world.log

theorem Onward.same
    (row : next.row = world.row) (log : next.log = world.log) :
    Onward world next where
  shrinks := by
    rw [row]
    exact fun _ member => member
  settled := fun _ => ⟨row, log⟩

theorem Onward.trans
    {first second third : FollowUp} (left : Onward first second)
    (right : Onward second third) : Onward first third where
  shrinks position member := left.shrinks position (right.shrinks position member)
  settled ended := by
    obtain ⟨row, log⟩ := left.settled ended
    rw [← row] at ended
    obtain ⟨laterRow, laterLog⟩ := right.settled ended
    exact ⟨laterRow.trans row, laterLog.trans log⟩

theorem Onward.of_active
    (active : world.row.state.active = true)
    (shrinks : ∀ position ∈ next.row.remaining,
      position ∈ world.row.remaining) : Onward world next where
  shrinks := shrinks
  settled ended := by
    rw [active] at ended
    cases ended

theorem FollowUpInv.step
    (op : FollowUpOp) (kept : FollowUpInv positions world)
    (applied : op.apply world = some next) :
    FollowUpInv positions next ∧ Onward world next := by
  cases op with
  | task op =>
      obtain ⟨tasks, _, rfl⟩ := Option.map_eq_some_iff.mp applied
      refine ⟨?_, Onward.same rfl rfl⟩
      exact ⟨kept.opened, kept.distinct, kept.within, kept.places,
        kept.refusals, kept.history, kept.unrepeated, kept.budget, kept.waits,
        kept.scrubbed, kept.claims, kept.owner⟩
  | begin claim =>
      obtain ⟨inv, row, log⟩ := kept.begin applied
      exact ⟨inv, Onward.same row log⟩
  | check index seen =>
      obtain ⟨inv, row, log⟩ := kept.check applied
      exact ⟨inv, Onward.same row log⟩
  | answer index reply instant =>
      obtain ⟨inv, row, log⟩ := kept.answer applied
      exact ⟨inv, Onward.same row log⟩
  | endUnsent index seen =>
      obtain ⟨inv, ⟨row, log⟩ | ⟨waiting, _, remaining, _⟩⟩ :=
        kept.endUnsent applied
      · exact ⟨inv, Onward.same row log⟩
      · refine ⟨inv, Onward.of_active (by rw [waiting]; rfl) ?_⟩
        rw [remaining]
        exact fun _ member => member
  | submit index seen =>
      obtain ⟨inv, ⟨row, log⟩ | ⟨waiting, _, remaining, _⟩⟩ :=
        kept.submit applied
      · exact ⟨inv, Onward.same row log⟩
      · refine ⟨inv, Onward.of_active (by rw [waiting]; rfl) ?_⟩
        rw [remaining]
        exact fun _ member => member
  | settle index seen =>
      obtain ⟨claim, result, settlement, made⟩ := kept.settling applied
      refine ⟨kept.settle made,
        Onward.of_active (by rw [made.submitting]; rfl) ?_⟩
      rw [made.row]
      exact made.settles.shrinks
  | recover runId actor seen =>
      obtain ⟨inv, ⟨row, log⟩ | ⟨submitting, _, remaining, _⟩⟩ :=
        kept.recoverRetry applied
      · exact ⟨inv, Onward.same row log⟩
      · refine ⟨inv, Onward.of_active (by rw [submitting]; rfl) ?_⟩
        rw [remaining]
        exact fun _ member => member

end Steps

/-! ## Runs -/

variable {opening : RetryOpening} {tasks : TaskTable}

theorem followUpInv_of_run
    {ops : List FollowUpOp} {world : FollowUp}
    (finished : run FollowUpOp.apply (opening.followUp tasks) ops =
      some world) : FollowUpInv opening.transient world :=
  run_preserves finished (followUpInv_opened opening tasks)
    fun _ op _ kept applied => (kept.step op applied).1

theorem onward_of_run
    {before after : List FollowUpOp} {middle final : FollowUp}
    (reached : run FollowUpOp.apply (opening.followUp tasks) before =
      some middle)
    (continued : run FollowUpOp.apply middle after = some final) :
    Onward middle final := by
  induction after generalizing before middle with
  | nil =>
      cases continued
      exact Onward.same rfl rfl
  | cons op after inductionHypothesis =>
      rw [run_cons] at continued
      obtain ⟨next, applied, rest⟩ := Option.bind_eq_some_iff.mp continued
      have nextReached : run FollowUpOp.apply (opening.followUp tasks)
          (before ++ [op]) = some next := by
        rw [run_concat, reached]
        exact applied
      have step := ((followUpInv_of_run reached).step op applied).2
      exact step.trans (inductionHypothesis nextReached rest)

/-! ## Submissions without a record -/

/-- No submission of a settled history is its last event, and no outcome there
is uncertain. -/
theorem Certain.last
    {log earlier : List FollowUpEvent} {event : FollowUpEvent}
    (certain : Certain log) (isLog : log = earlier ++ [event]) :
    ∃ envelope result, event = .recorded envelope result ∧
      result.status ≠ .unknown := by
  cases certain with
  | nil => simp at isLog
  | @attempt before envelope result _ known =>
      have split : (before ++ [.submitted envelope]) ++
          [.recorded envelope result] = earlier ++ [event] := by
        rw [← isLog]
        simp
      obtain ⟨_, isLast⟩ := List.append_inj' split rfl
      exact ⟨envelope, result, (List.cons.inj isLast).1.symm, known⟩

/-- A submission that nobody recorded, or whose outcome is uncertain, leaves the
row to `unknown`. -/
theorem FollowUpInv.uncertain
    {positions : List Nat} {world : FollowUp}
    (kept : FollowUpInv positions world) {earlier : List FollowUpEvent}
    {event : FollowUpEvent} (isLog : world.log = earlier ++ [event]) :
    (∀ envelope, event = .submitted envelope →
      world.row.state = .submitting ∨ world.row.state = .unknown) ∧
    (∀ envelope result, event = .recorded envelope result →
      result.status = .unknown → world.row.state = .unknown) := by
  have history := kept.history
  have settledLog : Certain world.log →
      (∀ envelope, event = .submitted envelope →
        world.row.state = .submitting ∨ world.row.state = .unknown) ∧
      (∀ envelope result, event = .recorded envelope result →
        result.status = .unknown → world.row.state = .unknown) := by
    intro certain
    obtain ⟨sent, outcome, rfl, known⟩ := certain.last isLog
    refine ⟨fun _ isSubmitted => ?_, fun _ result isRecorded unknown => ?_⟩
    · cases isSubmitted
    · cases isRecorded
      exact absurd unknown known
  unfold History at history
  cases state : world.row.state with
  | waiting =>
      rw [state] at history settledLog
      exact settledLog history
  | finished =>
      rw [state] at history settledLog
      exact settledLog history
  | failed =>
      rw [state] at history settledLog
      exact settledLog history
  | cancelled =>
      rw [state] at history settledLog
      exact settledLog history
  | unknown => exact ⟨fun _ _ => Or.inr rfl, fun _ _ _ _ => rfl⟩
  | submitting =>
      rw [state] at history
      obtain ⟨done, _, isDone⟩ := history
      refine ⟨fun _ _ => Or.inl rfl, fun _ result isRecorded _ => ?_⟩
      rw [isDone, isRecorded] at isLog
      obtain ⟨_, isLast⟩ := List.append_inj' isLog rfl
      cases isLast

/-- Recovery ends a submission whose deadline has passed. -/
theorem recovered_unknown
    {world : FollowUp} {runId actor : Uuid} {seen : RetryFindings}
    {task : TaskRun} (submitting : world.row.state = .submitting)
    (found : world.tasks.run? runId = some task)
    (abandoned : task.state = .abandoned)
    (bound : boundRetry world.row task = true)
    (passed : ∀ deadline, world.row.providerDeadline = some deadline →
      deadline ≤ seen.instant)
    (guarded : seen.guarded = true) :
    ∃ next, world.recoverRetry runId actor seen = some next ∧
      next.row.state = .unknown ∧ next.log = world.log := by
  have plan : FollowUp.recoveryPlan world.row seen.instant ≠ none := by
    unfold FollowUp.recoveryPlan
    rw [submitting]
    cases isDeadline : world.row.providerDeadline with
    | none => simp
    | some deadline =>
        have late := passed deadline isDeadline
        have notBefore : ¬ seen.instant < deadline := by omega
        simp [notBefore]
  refine ⟨{ world with
    row := { world.row with
      state := .unknown, reason := "recovery_unknown" }.change actor runId
        seen.instant }, ?_, rfl, rfl⟩
  unfold FollowUp.recoverRetry
  simp [found, abandoned, bound, plan, submitting, guarded]

/-- Every run of a follow-up: its remaining positions only shrink, each position
it was opened for is in exactly one place, no envelope holds a settled one, a
submission that is unrecorded or uncertain ends the row as unknown with no
further envelope, and its counts, times and sealed reference follow its
state. -/
theorem follow_up_never_mails_settled_again
    {before after : List FollowUpOp} {middle final : FollowUp}
    (reached : run FollowUpOp.apply (opening.followUp tasks) before =
      some middle)
    (continued : run FollowUpOp.apply middle after = some final) :
    (∀ position ∈ final.row.remaining,
      position ∈ middle.row.remaining ∧ position ∈ opening.transient) ∧
    (∀ position ∈ opening.transient, OneOf (position ∈ final.row.remaining)
      (position ∈ final.row.refused) (position ∈ acceptedOf final.log)) ∧
    Unrepeated opening.transient final.log ∧
    (∀ earlier event, final.log = earlier ++ [event] →
      (∀ envelope, event = .submitted envelope →
        final.row.state = .submitting ∨ final.row.state = .unknown) ∧
      (∀ envelope result, event = .recorded envelope result →
        result.status = .unknown → final.row.state = .unknown)) ∧
    (∀ runId actor seen task, final.row.state = .submitting →
      final.tasks.run? runId = some task → task.state = .abandoned →
      boundRetry final.row task = true →
      (∀ deadline, final.row.providerDeadline = some deadline →
        deadline ≤ seen.instant) →
      seen.guarded = true →
      ∃ next, final.recoverRetry runId actor seen = some next ∧
        next.row.state = .unknown ∧ next.log = final.log) ∧
    (middle.row.state.active = false →
      final.row = middle.row ∧ final.log = middle.log) ∧
    (final.row.attempt : Int) - final.row.spared ≤ maxAttempts ∧
    (final.row.state = .waiting →
      final.row.notBefore < final.row.expiresAt) ∧
    (final.row.state.active = false →
      final.row.sealedSubstitutions = none ∧ final.row.sealedKeyId = none) := by
  have finished : run FollowUpOp.apply (opening.followUp tasks)
      (before ++ after) = some final := by
    rw [run_append, reached]
    exact continued
  have kept := followUpInv_of_run finished
  have onward := onward_of_run reached continued
  refine ⟨?_, kept.places, kept.unrepeated, ?_, ?_, onward.settled, kept.budget,
    fun waiting => (kept.waits waiting).2, kept.scrubbed⟩
  · intro position member
    exact ⟨onward.shrinks position member,
      kept.within position (Or.inl member)⟩
  · intro earlier event isLog
    exact kept.uncertain isLog
  · intro runId actor seen task submitting found abandoned bound passed guarded
    exact recovered_unknown submitting found abandoned bound passed guarded

/-! ## A first try -/

/-- Two of three addresses were refused for now. -/
def reminderOpening : RetryOpening where
  id := 1
  taskId := 2
  workerId := 3
  claimRun := 4
  routedRecipients := ["first", "second", "third"]
  transient := [0, 2]
  distinct := by decide
  acceptedAt := 0
  instant := 0
  prompt := by decide
  sealedSubstitutions := "sealed"
  sealedKeyId := "key"
  tokenGenerationId := 5
  credentialEpochId := 6

/-- The follow-up's task, claimed by worker 7. -/
def reminderTask : TaskRun where
  id := 2
  createdAt := 0
  updatedAt := 0
  actorId := some 7
  correlationId := 4
  version := 2
  taskType := "family_address_retry"
  idempotencyKey := some (.caller 1)
  rootId := 2
  parentId := none
  retrySequence := 0
  retryCommandId := none
  domainRequestId := some 1
  initiatedById := some 3
  state := .running
  action := .claim
  attempt := 1
  fence := 1
  workerId := some 7
  heartbeatAt := some (seconds 900)
  leaseExpiresAt := some (seconds 960)
  notBefore := seconds 900
  progressCurrent := 0
  progressTotal := 0
  phase := .starting

def reminderFindings (instant : Int) : RetryFindings where
  instant := instant
  scope :=
    { currentProduction := true
      restoreActivatedAt := none
      restoreReviewRequired := false
      campaignOpen := true
      sameCycle := true
      activeTokenGeneration := some 5
      familyLinkEpoch := 6
      generationActive := true
      laterAccepted := false
      unresolvedOther := false
      deliveryHeld := false
      familySourceCurrent := true
      familyDeliverable := true
      addresses := ["first", "second", "third"] }
  authorized := true
  deferred := false
  linkCurrent := true
  prepared := true
  guarded := true

theorem noneSorted : ([] : List Nat).Pairwise (· < ·) :=
  List.Pairwise.nil

theorem oneSorted (index : Nat) : [index].Pairwise (· < ·) :=
  List.pairwise_singleton _ _

theorem noneRefused (test : Nat → Prop) : ∀ index ∈ ([] : List Nat), test index :=
  fun _ member => absurd member List.not_mem_nil

theorem oneInside : ∀ index ∈ [1], index < 2 := by
  simp

/-- The second address of the envelope is refused for now again. -/
def partlyAccepted : FamilyDeliveryResult where
  status := .accepted
  recipientCount := 2
  permanent := []
  transient := [1]
  health := .healthy
  limit := none
  permanentSorted := noneSorted
  transientSorted := oneSorted 1
  permanentInside := noneRefused (· < 2)
  transientInside := oneInside
  disjoint := noneRefused (· ∉ [1])

def firstTry : List FollowUpOp :=
  [.begin ⟨2, 1, 7⟩, .check 0 (reminderFindings (seconds 901)),
    .submit 0 (reminderFindings (seconds 902)),
    .answer 0 (some partlyAccepted) (seconds 903),
    .settle 0 (reminderFindings (seconds 904))]

theorem first_try_waits_for_the_third :
    ∃ final, run FollowUpOp.apply (reminderOpening.followUp [reminderTask])
        firstTry = some final ∧
      final.row.state = .waiting ∧ final.row.remaining = [2] ∧
      final.row.notBefore < final.row.expiresAt := by
  refine ⟨_, rfl, rfl, rfl, ?_⟩
  have safe := follow_up_never_mails_settled_again
    (show run FollowUpOp.apply (reminderOpening.followUp [reminderTask]) [] =
      some _ from rfl)
    (show run FollowUpOp.apply _ firstTry = some _ from rfl)
  exact safe.2.2.2.2.2.2.2.1 rfl

end ParishKit.Jobs
