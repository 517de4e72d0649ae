import ParishKit.Jobs.TaskRun
import ParishKit.Lib.Except

/-!
# What an accepted change does

A change of a run is accepted exactly when its arguments are valid, it presents
the current version and ownership, and its edge is permitted in time. Each
trigger is read once here; later modules use only the resulting move.
-/

namespace ParishKit.Jobs

open ParishKit.Lib

@[simp]
theorem refuseWhen_eq_ok {ε : Type} (refused : Bool) (reason : ε) :
    refuseWhen refused reason = .ok () ↔ refused = false := by
  cases refused <;> simp [refuseWhen]

theorem mapError_eq_ok
    {ε δ α : Type} {function : ε → δ} {computation : Except ε α} {result : α} :
    computation.mapError function = .ok result ↔ computation = .ok result := by
  cases computation <;> simp [Except.mapError]

theorem except_bind_unit
    {ε α : Type} {first : Except ε Unit} {next : Unit → Except ε α}
    {result : α} :
    (first >>= next) = .ok result ↔ first = .ok () ∧ next () = .ok result := by
  constructor
  · intro succeeds
    obtain ⟨⟨⟩, passed, rest⟩ := except_bind_eq_ok succeeds
    exact ⟨passed, rest⟩
  · rintro ⟨passed, rest⟩
    rw [passed]
    exact rest

/-! ## Legal calls -/

/-- The edge of a call is permitted, in time, under a live lease where it needs
one, with progress that does not fall. -/
structure ChangeCall.Legal (call : ChangeCall) (target : TaskState)
    (run : TaskRun) : Prop where
  edge : permittedEdge call.action run.state target = true
  due : call.action = .claim → run.notBefore ≤ call.instant
  expired : call.action = .leaseExpired →
    ∀ lease, run.leaseExpiresAt = some lease → lease ≤ call.instant
  live : run.state = .running → call.action ≠ .leaseExpired →
    ∀ lease, run.leaseExpiresAt = some lease → call.instant < lease
  forward : call.action = .progress → ∀ current total,
    call.progress = some (current, total) →
    (run.progressCurrent : Int) ≤ current ∧ (run.progressTotal : Int) ≤ total

/-- The call presents the current version, and the current fence and worker
exactly where the run has an owner. -/
structure ChangeCall.Presents (call : ChangeCall) (run : TaskRun) : Prop where
  version : call.expectedVersion = run.version
  owned : run.state = .running → call.action ≠ .leaseExpired →
    call.fence = some (run.fence : Int) ∧ call.actorId = run.workerId
  unowned : (run.state ≠ .running ∨ call.action = .leaseExpired) →
    call.fence = none

theorem owns_eq_ok (call : ChangeCall) (run : TaskRun) :
    call.owns run = .ok () ↔ call.Presents run := by
  unfold ChangeCall.owns
  rw [except_bind_unit]
  by_cases owned : run.state = .running ∧ call.action ≠ .leaseExpired
  · rw [if_pos owned]
    simp only [refuseWhen_eq_ok, decide_eq_false_iff_not, not_not,
      Bool.or_eq_false_iff, bne_eq_false_iff_eq]
    constructor
    · rintro ⟨version, fence, worker⟩
      refine ⟨version.symm, fun _ _ => ⟨fence, worker⟩, fun unowned => ?_⟩
      exact (unowned.elim (fun idle => idle owned.1) owned.2).elim
    · intro presents
      exact ⟨presents.version.symm, presents.owned owned.1 owned.2⟩
  · rw [if_neg owned]
    have unowned : run.state ≠ .running ∨ call.action = .leaseExpired := by
      by_cases running : run.state = .running
      · exact Or.inr (not_not.mp fun other => owned ⟨running, other⟩)
      · exact Or.inl running
    simp only [refuseWhen_eq_ok, decide_eq_false_iff_not, not_not,
      bne_eq_false_iff_eq]
    constructor
    · rintro ⟨version, fence⟩
      refine ⟨version.symm, fun running other => ?_, fun _ => fence⟩
      exact (owned ⟨running, other⟩).elim
    · intro presents
      exact ⟨presents.version.symm, presents.unowned unowned⟩

/-- What the checks before the read promise of a valid call. -/
structure ChangeCall.Valid (call : ChangeCall) (target : TaskState) : Prop where
  target : actionTarget call.action = some target
  phase : ∀ phase, call.phase = some phase →
    phase ≠ .unspecified ∧ call.action = .progress
  claimed : call.action = .claim → call.actorId ≠ none
  noActor : call.action = .leaseExpired → call.actorId = none
  version : 1 ≤ call.expectedVersion
  lease : timingValid call.leaseSeconds call.needsLease 300 = true
  retry : timingValid call.retrySeconds call.needsRetry 86400 = true
  progress : progressValid call.action call.progress = true

theorem validate_eq_ok (call : ChangeCall) (target : TaskState) :
    call.validate = .ok target ↔ call.Valid target := by
  unfold ChangeCall.validate
  rw [except_bind_unit]
  cases known : actionTarget call.action with
  | none =>
      constructor
      · rintro ⟨_, ⟨⟩⟩
      · intro valid
        have same := valid.target
        rw [known] at same
        cases same
  | some reached =>
      simp only [except_bind_unit, refuseWhen_eq_ok, Bool.or_eq_false_iff,
        Bool.and_eq_false_iff, Bool.not_eq_false', beq_eq_false_iff_ne,
        bne_eq_false_iff_eq, decide_eq_false_iff_not, not_lt, ne_eq]
      constructor
      · rintro ⟨phase, claimed, noActor, version, ⟨lease, retry⟩, progress,
          sameTarget⟩
        cases sameTarget
        refine ⟨known, ?_, ?_, ?_, version, lease, retry, progress⟩
        · intro given isGiven
          simp [isGiven] at phase
          exact phase
        · intro isClaim
          exact claimed.resolve_left (fun other => other isClaim)
        · intro isExpiry
          exact noActor.resolve_left (fun other => other isExpiry)
      · intro valid
        refine ⟨?_, ?_, ?_, valid.version, ⟨valid.lease, valid.retry⟩,
          valid.progress, ?_⟩
        · cases given : call.phase with
          | none => rfl
          | some phase =>
              have known := valid.phase phase given
              simp [known.1, known.2]
        · exact (Classical.em _).elim (fun isClaim => Or.inr
            (valid.claimed isClaim)) Or.inl
        · exact (Classical.em _).elim (fun isExpiry => Or.inr
            (valid.noActor isExpiry)) Or.inl
        · have same := valid.target
          rw [known] at same
          cases same
          rfl

/-! ## The triggers on a saved row -/

/-- The row the triggers store for a call. -/
def ChangeCall.stored (call : ChangeCall) (target : TaskState) (run : TaskRun) :
    TaskRun :=
  { call.changed target run with updatedAt := call.instant }

section Triggers

variable {call : ChangeCall} {target : TaskState} {run : TaskRun}

theorem phaseGuard_changed (valid : call.Valid target) :
    taskPhaseGuard run (call.changed target run) = .ok () := by
  unfold taskPhaseGuard
  cases given : call.phase with
  | none =>
      by_cases isClaim : call.action = .claim
      · simp [ChangeCall.changed, isClaim, given]
      · simp [ChangeCall.changed, isClaim, given]
  | some phase =>
      obtain ⟨specified, isProgress⟩ := valid.phase phase given
      simp [ChangeCall.changed, isProgress, given, specified]

theorem mutable_changed :
    taskRunMutable run (call.changed target run) call.instant =
      .ok (call.stored target run) := by
  simp [taskRunMutable, ChangeCall.changed, TaskRun.bindings, refuseWhen,
    ChangeCall.stored]
  rfl

theorem fencingGuard_stored (valid : call.Valid target) :
    fencingGuard run (call.stored target run) = .ok () := by
  unfold fencingGuard
  by_cases isClaim : call.action = .claim
  · have claimed := Option.isSome_iff_ne_none.mpr (valid.claimed isClaim)
    simp [ChangeCall.stored, ChangeCall.changed, ChangeCall.advancesFence,
      isClaim, claimed]
  · by_cases isExpiry : call.action = .leaseExpired
    · simp [ChangeCall.stored, ChangeCall.changed, ChangeCall.advancesFence,
        isExpiry]
    · simp [ChangeCall.stored, ChangeCall.changed, ChangeCall.advancesFence,
        isClaim, isExpiry]

theorem ownershipGuard_stored
    (valid : call.Valid target) (presents : call.Presents run) :
    ownershipGuard run (call.stored target run) call.instant = .ok () ↔
      (run.state = .running → call.action ≠ .leaseExpired →
        ∀ lease, run.leaseExpiresAt = some lease → call.instant < lease) := by
  have action : (call.stored target run).action = call.action := rfl
  have actor : (call.stored target run).actorId = call.actorId := rfl
  unfold ownershipGuard
  rw [except_bind_unit, action, actor]
  by_cases isExpiry : call.action = .leaseExpired
  · simp [isExpiry, valid.noActor isExpiry]
  · by_cases running : run.state = .running
    · have worker := (presents.owned running isExpiry).2
      cases lease : run.leaseExpiresAt with
      | none => simp [isExpiry, running, worker]
      | some expires => simp [isExpiry, running, worker]
    · simp [isExpiry, running]

theorem leaseGuard_stored
    (valid : call.Valid target) (born : run.createdAt ≤ call.instant) :
    leaseGuard run (call.stored target run) call.instant =
      .ok (call.stored target run) := by
  have action : (call.stored target run).action = call.action := rfl
  have needs : call.needsLease = true ↔
      call.action = .claim ∨ call.action = .heartbeat := by
    simp [ChangeCall.needsLease]
  unfold leaseGuard
  rw [action]
  by_cases leased : call.action = .claim ∨ call.action = .heartbeat
  · have isNeeded := needs.mpr leased
    have duration := valid.lease
    rw [isNeeded] at duration
    cases given : call.leaseSeconds with
    | none => simp [timingValid, given] at duration
    | some length =>
        simp only [timingValid, given, Bool.true_and, Bool.and_eq_true,
          decide_eq_true_eq] at duration
        obtain ⟨positive, bounded⟩ := duration
        have later : call.instant < call.instant + seconds length := by
          unfold seconds
          omega
        have within :
            call.instant + seconds length ≤ call.instant + seconds 300 := by
          unfold seconds
          omega
        simp [leased, ChangeCall.stored, ChangeCall.changed, isNeeded, given,
          refuseWhen, born, later, within]
  · have isIdle : call.needsLease = false := by
      simpa using fun isNeeded => leased (needs.mp isNeeded)
    by_cases stays : target = .running
    · simp [leased, ChangeCall.stored, ChangeCall.changed, isIdle, stays,
        refuseWhen]
    · simp [leased, ChangeCall.stored, ChangeCall.changed, isIdle, stays,
        refuseWhen]

theorem retryTimeGuard_stored (valid : call.Valid target) :
    retryTimeGuard run (call.stored target run) call.instant = .ok () := by
  have action : (call.stored target run).action = call.action := rfl
  have needs : call.needsRetry = true ↔
      call.action = .retryableFailure ∨ call.action = .recoveryRetry := by
    simp [ChangeCall.needsRetry]
  have duration := valid.retry
  unfold retryTimeGuard
  rw [action]
  by_cases retries : call.action = .retryableFailure ∨
      call.action = .recoveryRetry
  · rw [needs.mpr retries] at duration
    cases given : call.retrySeconds with
    | none => simp [timingValid, given] at duration
    | some length =>
        simp only [timingValid, given, Bool.true_and, Bool.and_eq_true,
          decide_eq_true_eq] at duration
        obtain ⟨positive, bounded⟩ := duration
        have later : call.instant < call.instant + seconds length := by
          unfold seconds
          omega
        have within :
            call.instant + seconds length ≤ call.instant + seconds 86400 := by
          unfold seconds
          omega
        simp only [retries, ChangeCall.stored, ChangeCall.changed, given,
          if_true, refuseWhen_eq_ok, Bool.or_eq_false_iff,
          decide_eq_false_iff_not, not_le, not_lt]
        exact ⟨later, within⟩
  · have isIdle : call.needsRetry = false := by
      simpa using fun isNeeded => retries (needs.mp isNeeded)
    rw [isIdle] at duration
    cases given : call.retrySeconds with
    | none => simp [retries, ChangeCall.stored, ChangeCall.changed, given]
    | some length => simp [timingValid, given] at duration

theorem progressGuard_stored (valid : call.Valid target) :
    progressGuard run (call.stored target run) = .ok () ↔
      (call.action = .progress → ∀ current total,
        call.progress = some (current, total) →
        (run.progressCurrent : Int) ≤ current ∧
          (run.progressTotal : Int) ≤ total) := by
  have action : (call.stored target run).action = call.action := rfl
  have shape := valid.progress
  unfold progressGuard
  rw [action]
  cases given : call.progress with
  | none =>
      have other : call.action ≠ .progress := by
        simpa [progressValid, given] using shape
      by_cases isClaim : call.action = .claim
      · simp [isClaim, ChangeCall.stored, ChangeCall.changed, given]
      · simp [isClaim, other, ChangeCall.stored, ChangeCall.changed, given]
  | some pair =>
      obtain ⟨current, total⟩ := pair
      simp only [progressValid, given, Bool.and_eq_true, beq_iff_eq,
        decide_eq_true_eq] at shape
      obtain ⟨⟨⟨isProgress, nonnegative⟩, bounded⟩, ordered⟩ := shape
      simp only [isProgress, ChangeCall.stored, ChangeCall.changed, given]
      simp
      omega

/-- The triggers store the row of a legal call. -/
theorem taskUpdateGuard_of_legal
    (valid : call.Valid target) (presents : call.Presents run)
    (legal : call.Legal target run) (born : run.createdAt ≤ call.instant) :
    taskUpdateGuard run (call.changed target run) call.instant =
      .ok (call.stored target run) := by
  have open' : run.state.terminal = false := by
    have edge := legal.edge
    cases state : run.state <;> rw [state] at edge <;>
      cases call.action <;> simp [permittedEdge, TaskState.terminal] at edge ⊢
  have inTime : edgeInTime run call.action call.instant = true := by
    unfold edgeInTime
    split
    · rename_i isClaim
      exact decide_eq_true (legal.due isClaim)
    · rename_i isExpiry
      have expired := legal.expired isExpiry
      cases lease : run.leaseExpiresAt with
      | none => rfl
      | some expires => simpa using expired expires lease
    · rfl
  unfold taskUpdateGuard
  rw [phaseGuard_changed valid, except_ok_bind, mutable_changed, except_ok_bind]
  have action : (call.stored target run).action = call.action := rfl
  have state : (call.stored target run).state = target := rfl
  unfold taskStateUpdate
  rw [action, state, legal.edge, inTime, open', fencingGuard_stored valid,
    (ownershipGuard_stored valid presents).mpr legal.live,
    leaseGuard_stored valid born]
  simp only [except_ok_bind]
  rw [retryTimeGuard_stored valid,
    (progressGuard_stored valid).mpr legal.forward]
  rfl

theorem leaseGuard_keeps
    {saved : TaskRun}
    (passed : leaseGuard run (call.stored target run) call.instant =
      .ok saved) : saved = call.stored target run := by
  unfold leaseGuard at passed
  by_cases leased : (call.stored target run).action = .claim ∨
      (call.stored target run).action = .heartbeat
  · rw [if_pos leased, except_bind_unit] at passed
    have isNeeded : call.needsLease = true := by
      simpa [ChangeCall.needsLease, ChangeCall.stored,
        ChangeCall.changed] using leased
    have heartbeat : (call.stored target run).heartbeatAt =
        some call.instant := by
      simp [ChangeCall.stored, ChangeCall.changed, isNeeded]
    have same : { call.stored target run with
        heartbeatAt := some call.instant } = call.stored target run := by
      rw [← heartbeat]
    exact (Except.ok.inj passed.2).symm.trans same
  · rw [if_neg leased, except_bind_unit] at passed
    cases passed.2
    rfl

/-- What the triggers let through is a legal call, stored as it was saved. -/
theorem legal_of_taskUpdateGuard
    {saved : TaskRun} (valid : call.Valid target)
    (presents : call.Presents run)
    (passed : taskUpdateGuard run (call.changed target run) call.instant =
      .ok saved) :
    call.Legal target run ∧ saved = call.stored target run := by
  unfold taskUpdateGuard at passed
  rw [phaseGuard_changed valid, except_ok_bind, mutable_changed,
    except_ok_bind] at passed
  have action : (call.stored target run).action = call.action := rfl
  have state : (call.stored target run).state = target := rfl
  unfold taskStateUpdate at passed
  rw [action, state] at passed
  simp only [except_bind_unit, refuseWhen_eq_ok, Bool.not_eq_false',
    Bool.and_eq_true] at passed
  obtain ⟨_, ⟨edge, inTime⟩, _, owned, rest⟩ := passed
  obtain ⟨leased, leaseRun, rest⟩ := except_bind_eq_ok rest
  have kept := leaseGuard_keeps leaseRun
  subst kept
  rw [except_bind_unit, except_bind_unit] at rest
  obtain ⟨_, progress, returned⟩ := rest
  cases returned
  refine ⟨⟨edge, ?_, ?_, (ownershipGuard_stored valid presents).mp owned,
    (progressGuard_stored valid).mp progress⟩, rfl⟩
  · intro isClaim
    simpa [edgeInTime, isClaim] using inTime
  · intro isExpiry lease isLease
    simpa [edgeInTime, isExpiry, isLease] using inTime

end Triggers

/-! ## LawfulChange calls -/

/-- A valid call about `run`, legal for it, from whoever owns it. -/
structure LawfulChange (table : TaskTable) (call : ChangeCall) (target : TaskState)
    (run : TaskRun) : Prop where
  found : table.run? call.runId = some run
  valid : call.Valid target
  presents : call.Presents run
  legal : call.Legal target run
  admitted : call.admitted = true

theorem changeRun_eq_ok
    {table next : TaskTable} {call : ChangeCall}
    (accepted : changeRun table call = .ok next) :
    ∃ run target, LawfulChange table call target run ∧
      next = table.replace (call.stored target run) := by
  unfold changeRun at accepted
  obtain ⟨target, validated, accepted⟩ := except_bind_eq_ok accepted
  have valid := (validate_eq_ok call target).mp validated
  cases found : table.run? call.runId with
  | none =>
      rw [found] at accepted
      cases accepted
  | some run =>
      rw [found] at accepted
      simp only [except_bind_unit, refuseWhen_eq_ok,
        Bool.not_eq_false'] at accepted
      obtain ⟨owned, admitted, rest⟩ := accepted
      obtain ⟨saved, guarded, returned⟩ := except_bind_eq_ok rest
      have presents := (owns_eq_ok call run).mp owned
      obtain ⟨legal, isStored⟩ := legal_of_taskUpdateGuard valid presents
        (mapError_eq_ok.mp guarded)
      cases returned
      exact ⟨run, target, ⟨found, valid, presents, legal, admitted⟩,
        by rw [isStored]⟩

/-- Every legal call by the owner of the run passes both levels, at any instant
since the run was created. -/
theorem changeRun_of_lawful
    {table : TaskTable} {call : ChangeCall} {target : TaskState}
    {run : TaskRun} (lawful : LawfulChange table call target run)
    (born : run.createdAt ≤ call.instant) :
    changeRun table call = .ok (table.replace (call.stored target run)) := by
  have guarded := taskUpdateGuard_of_legal lawful.valid lawful.presents
    lawful.legal born
  unfold changeRun
  rw [(validate_eq_ok call target).mpr lawful.valid, except_ok_bind]
  simp only [lawful.found]
  rw [(owns_eq_ok call run).mpr lawful.presents, except_ok_bind,
    lawful.admitted, guarded]
  rfl

end ParishKit.Jobs
