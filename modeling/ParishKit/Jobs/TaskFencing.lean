import ParishKit.Jobs.TaskChains

/-!
# Fenced task ownership

Over any interleaving of calls on any roots, a chain has one run that is not
over, stale calls are refused and every lawful call is let through.
-/

namespace ParishKit.Jobs

open ParishKit.Lib

/-- A claim or an expiry moves the fence past every later call's reach. -/
theorem stale_refused
    {before rest : List TaskOp} {middle final : TaskTable}
    {fencing : ChangeCall} {row : TaskRun}
    (reached : run TaskOp.apply [] before = some middle)
    (continued : run TaskOp.apply middle (.change fencing :: rest) = some final)
    (fences : fencing.action = .claim ∨ fencing.action = .leaseExpired)
    (found : middle.run? fencing.runId = some row)
    {call : ChangeCall} {next : TaskTable} (about : call.runId = row.id)
    (accepted : changeRun final call = .ok next) :
    (row.version : Int) < call.expectedVersion ∧
      ∀ fence, call.fence = some fence → (row.fence : Int) < fence := by
  rw [run_cons] at continued
  obtain ⟨fenced, applied, continued⟩ := Option.bind_eq_some_iff.mp continued
  obtain ⟨run, target, lawful, rfl⟩ :=
    changeRun_eq_ok (toOption_eq_some.mp applied)
  have sameRun : run = row := by
    have both := lawful.found.symm.trans found
    exact Option.some.inj both
  subst sameRun
  obtain ⟨member, _⟩ := run?_eq_some found
  have inFenced : fencing.stored target run ∈
      TaskTable.replace middle (fencing.stored target run) :=
    (mem_replace member fencing target).mpr (Or.inl rfl)
  have fencedReached : Lib.run TaskOp.apply [] (before ++ [.change fencing]) =
      some (middle.replace (fencing.stored target run)) := by
    rw [run_concat, reached]
    exact applied
  obtain ⟨later, laterMember, grown⟩ :=
    later_of_run fencedReached continued _ inFenced
  have finalReached : Lib.run TaskOp.apply []
      ((before ++ [.change fencing]) ++ rest) = some final := by
    rw [run_append, fencedReached]
    exact continued
  have finalKept := tableInv_of_run finalReached
  have laterId : later.id = run.id := congrArg TaskBindings.id grown.bindings
  obtain ⟨current, _, now, -⟩ := changeRun_eq_ok accepted
  have isCurrent : current = later := by
    have byId := finalKept.run?_of_mem laterMember
    rw [laterId, ← about, now.found] at byId
    exact Option.some.inj byId
  subst isCurrent
  have advances : fencing.advancesFence = true := by
    simpa [ChangeCall.advancesFence] using fences
  have storedVersion : (fencing.stored target run).version = run.version + 1 :=
    rfl
  have storedFence : (fencing.stored target run).fence = run.fence + 1 := by
    simp [ChangeCall.stored, ChangeCall.changed, advances]
  have version := grown.version
  have fence := grown.fence
  have presented := now.presents.version
  refine ⟨by omega, fun given isGiven => ?_⟩
  have owned : current.state = .running ∧ call.action ≠ .leaseExpired := by
    by_contra unowned
    have absent := now.presents.unowned (by
      by_cases running : current.state = .running
      · exact Or.inr (not_not.mp fun other => unowned ⟨running, other⟩)
      · exact Or.inl running)
    rw [absent] at isGiven
    cases isGiven
  have current := (now.presents.owned owned.1 owned.2).1
  rw [isGiven] at current
  have equal := Option.some.inj current
  omega

/-- Whole chains: one run after another, each row a count of its accepted
changes; a run that is over stays; an accepted change presents the current
version and, of a running run, the fence and worker of its last claim; after a
claim or an expiry no earlier version or fence is accepted; and every lawful call
passes the triggers. -/
theorem task_ownership_is_fenced
    {before after : List TaskOp} {middle final : TaskTable}
    (reached : run TaskOp.apply [] before = some middle)
    (continued : run TaskOp.apply middle after = some final) :
    (∀ root, ChainShape (middle.chain root) ∧
      ((middle.chain root).filter fun row => !row.state.terminal).length ≤ 1) ∧
    (∀ row ∈ middle, Counted (changesOf row.id before) row) ∧
    (∀ row ∈ middle, row.state.terminal = true →
      final.run? row.id = some row) ∧
    (∀ call next, changeRun middle call = .ok next →
      ∃ row saved, middle.run? call.runId = some row ∧ call.Presents row ∧
        next.run? call.runId = some saved ∧ saved.version = row.version + 1 ∧
        row.fence ≤ saved.fence ∧
        (call.action = .claim ∨ call.action = .leaseExpired →
          row.fence < saved.fence) ∧
        ∀ other ∈ middle, other.id ≠ call.runId → other ∈ next) ∧
    (∀ fencing rest row, after = .change fencing :: rest →
      (fencing.action = .claim ∨ fencing.action = .leaseExpired) →
      middle.run? fencing.runId = some row →
      ∀ call next, call.runId = row.id → changeRun final call = .ok next →
        (row.version : Int) < call.expectedVersion ∧
        ∀ fence, call.fence = some fence → (row.fence : Int) < fence) ∧
    (∀ call target row, LawfulChange middle call target row →
      row.createdAt ≤ call.instant →
      changeRun middle call = .ok (middle.replace (call.stored target row))) := by
  have kept := tableInv_of_run reached
  refine ⟨fun root => ⟨kept.chains root, (kept.chains root).active_le_one⟩,
    kept.counted, ?_, ?_, ?_, fun call target row lawful born =>
      changeRun_of_lawful lawful born⟩
  · intro row member isOver
    obtain ⟨later, laterMember, grown⟩ := later_of_run reached continued row member
    have finalReached : run TaskOp.apply [] (before ++ after) = some final := by
      rw [run_append, reached]
      exact continued
    have same := grown.final isOver
    subst same
    exact (tableInv_of_run finalReached).run?_of_mem laterMember
  · intro call next accepted
    have applied : TaskOp.apply (.change call) middle = some next :=
      toOption_eq_some.mpr accepted
    have nextKept := kept.step (.change call) applied
    obtain ⟨row, target, lawful, rfl⟩ := changeRun_eq_ok accepted
    obtain ⟨member, isRow⟩ := run?_eq_some lawful.found
    have stored : call.stored target row ∈
        TaskTable.replace middle (call.stored target row) :=
      (mem_replace member call target).mpr (Or.inl rfl)
    have found := nextKept.run?_of_mem stored
    refine ⟨row, call.stored target row, lawful.found, lawful.presents, ?_, rfl,
      Nat.le_add_right _ _, ?_, ?_⟩
    · rw [← isRow]
      exact found
    · intro fences
      have advances : call.advancesFence = true := by
        simpa [ChangeCall.advancesFence] using fences
      simp [ChangeCall.stored, ChangeCall.changed, advances]
    · intro other otherMember different
      refine (mem_replace member call target).mpr (Or.inr ⟨otherMember, ?_⟩)
      rw [isRow]
      exact different
  · rintro fencing rest row rfl fences found call next about accepted
    exact stale_refused reached continued fences found about accepted

/-! ## An abandoned run -/

/-- A change of run 1 with the arguments an action without options takes. -/
def plainChange (action : TaskAction) (version : Int) (actor : Option Uuid)
    (instant : Int) : ChangeCall where
  runId := 1
  action := action
  expectedVersion := version
  actorId := actor
  correlationId := 0
  fence := none
  leaseSeconds := none
  retrySeconds := none
  progress := none
  phase := none
  admitted := true
  instant := instant

/-- Worker 7 claims a refresh for a minute. -/
def claimedRefresh : List TaskOp :=
  [.enqueue ⟨1, "source_refresh", none, none, 0, some 5, none, true, 0⟩,
    .change { plainChange .claim 1 (some 7) 10 with leaseSeconds := some 60 }]

/-- The lease passes, worker 8 recovers the run and claims it. -/
def recoveredRefresh : List TaskOp :=
  [.change (plainChange .leaseExpired 2 none (seconds 61)),
    .change { plainChange .recoveryRetry 3 (some 8) (seconds 61) with
      retrySeconds := some 1 },
    .change { plainChange .claim 4 (some 8) (seconds 62) with
      leaseSeconds := some 60 }]

/-- Worker 7 completes with the fence of its claim, but its lease has passed. -/
theorem lost_claim_refused :
    ∃ middle final, run TaskOp.apply [] claimedRefresh = some middle ∧
      run TaskOp.apply middle recoveredRefresh = some final ∧
      ∀ version next, changeRun final
        { plainChange .complete version (some 7) (seconds 63) with
          fence := some 1 } ≠ .ok next := by
  refine ⟨_, _, rfl, rfl, fun version next accepted => ?_⟩
  have fenced := task_ownership_is_fenced
    (show run TaskOp.apply [] claimedRefresh = some _ from rfl)
    (show run TaskOp.apply _ recoveredRefresh = some _ from rfl)
  obtain ⟨_, _, _, _, stale, _⟩ := fenced
  obtain ⟨_, fence⟩ :=
    stale _ _ _ rfl (Or.inr rfl) rfl _ _ rfl accepted
  have later := fence 1 rfl
  revert later
  decide

/-- The recovery of an abandoned run presents no fence and comes from another
worker than the one whose lease passed. -/
theorem recovery_by_another_worker :
    ∃ table next,
      run TaskOp.apply [] (claimedRefresh ++ recoveredRefresh.take 1) =
        some table ∧
      (table.run? 1).map (fun row => (row.action, row.workerId)) =
        some (.leaseExpired, some 7) ∧
      changeRun table { plainChange .recoveryRetry 3 (some 8) (seconds 61) with
        retrySeconds := some 1 } = .ok next :=
  ⟨_, _, rfl, rfl, rfl⟩

end ParishKit.Jobs
