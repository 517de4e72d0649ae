import ParishKit.Jobs.TaskMove
import ParishKit.Lib.Keyed
import ParishKit.Lib.Transition

/-!
# Retry chains

The runs of one root form a chain: numbered without gaps, each failed before the
next was made. A row's version, fence, attempt and worker are counts over the
changes accepted of it.
-/

namespace ParishKit.Jobs

open ParishKit.Lib

inductive TaskOp where
  | enqueue (call : EnqueueCall)
  | change (call : ChangeCall)
  | retry (call : RetryCall)

/-- A call that raises changes nothing. -/
def TaskOp.apply : TaskOp → TaskTable → Option TaskTable
  | .enqueue call, table => (Jobs.enqueue table call).toOption
  | .change call, table => (changeRun table call).toOption
  | .retry call, table => (retryFailed table call).toOption

theorem toOption_eq_some
    {ε α : Type} {computation : Except ε α} {result : α} :
    computation.toOption = some result ↔ computation = .ok result := by
  cases computation <;> simp [Except.toOption]

/-! ## The accepted changes of a run -/

def changesOf (id : Uuid) (ops : List TaskOp) : List ChangeCall :=
  ops.filterMap fun
    | .change call => if call.runId = id then some call else none
    | _ => none

def claimsOf (id : Uuid) (ops : List TaskOp) : List ChangeCall :=
  (changesOf id ops).filter fun call => call.action == .claim

def fencesOf (id : Uuid) (ops : List TaskOp) : List ChangeCall :=
  (changesOf id ops).filter (·.advancesFence)

theorem changesOf_concat_change (id : Uuid) (ops : List TaskOp)
    (call : ChangeCall) :
    changesOf id (ops ++ [.change call]) =
      changesOf id ops ++ if call.runId = id then [call] else [] := by
  by_cases same : call.runId = id <;> simp [changesOf, same]

theorem changesOf_concat_enqueue (id : Uuid) (ops : List TaskOp)
    (call : EnqueueCall) :
    changesOf id (ops ++ [.enqueue call]) = changesOf id ops := by
  simp [changesOf]

theorem changesOf_concat_retry (id : Uuid) (ops : List TaskOp)
    (call : RetryCall) :
    changesOf id (ops ++ [.retry call]) = changesOf id ops := by
  simp [changesOf]

/-- A row counts the changes accepted of it. -/
structure Counted (changes : List ChangeCall) (row : TaskRun) : Prop where
  version : row.version = 1 + changes.length
  attempt : row.attempt =
    (changes.filter fun call => call.action == .claim).length
  fence : row.fence = (changes.filter (·.advancesFence)).length
  worker : row.workerId =
    (changes.filter fun call => call.action == .claim).getLast?.bind (·.actorId)

theorem Counted.stored
    {changes : List ChangeCall} {row : TaskRun} {call : ChangeCall}
    (counted : Counted changes row) (target : TaskState) :
    Counted (changes ++ [call]) (call.stored target row) := by
  have version := counted.version
  have attempt := counted.attempt
  have fence := counted.fence
  have worker := counted.worker
  refine ⟨?_, ?_, ?_, ?_⟩
  · simp [ChangeCall.stored, ChangeCall.changed, version]
    omega
  · by_cases isClaim : call.action = .claim <;>
      simp [ChangeCall.stored, ChangeCall.changed, isClaim, attempt,
        List.filter_append]
  · by_cases advances : call.advancesFence = true <;>
      simp [ChangeCall.stored, ChangeCall.changed, advances, fence,
        List.filter_append]
  · by_cases isClaim : call.action = .claim <;>
      simp [ChangeCall.stored, ChangeCall.changed, isClaim, worker,
        List.filter_append]

/-! ## One chain -/

structure ChainShape (chain : List TaskRun) : Prop where
  sequences : chain.map (·.retrySequence) = List.range chain.length
  failed : ∀ row ∈ chain.dropLast, row.state = .failed

theorem ChainShape.nil : ChainShape [] where
  sequences := rfl
  failed := by simp

theorem ChainShape.concat
    {chain : List TaskRun} {row : TaskRun} (shape : ChainShape chain)
    (next : row.retrySequence = chain.length)
    (allFailed : ∀ run ∈ chain, run.state = .failed) :
    ChainShape (chain ++ [row]) where
  sequences := by
    rw [List.map_append, shape.sequences, List.length_append,
      List.length_singleton, List.range_succ, List.map_singleton, next]
  failed := by
    rw [List.dropLast_concat]
    exact allFailed

/-- Rewriting rows of a chain that are not failed keeps its shape. -/
theorem ChainShape.map
    {chain : List TaskRun} {rewrite : TaskRun → TaskRun}
    (shape : ChainShape chain)
    (numbered : ∀ run ∈ chain,
      (rewrite run).retrySequence = run.retrySequence)
    (kept : ∀ run ∈ chain, run.state = .failed → rewrite run = run) :
    ChainShape (chain.map rewrite) where
  sequences := by
    rw [List.map_map, List.length_map, ← shape.sequences]
    exact List.map_congr_left numbered
  failed := by
    rw [← List.map_dropLast]
    intro row member
    obtain ⟨run, inChain, rfl⟩ := List.mem_map.mp member
    have failed := shape.failed run inChain
    rw [kept run ((List.dropLast_sublist chain).subset inChain) failed]
    exact failed

theorem ChainShape.getLast_of_latest
    {chain : List TaskRun} {run : TaskRun} (shape : ChainShape chain)
    (isLatest : chain.argmax (·.retrySequence) = some run) :
    chain = chain.dropLast ++ [run] ∧ run.retrySequence + 1 = chain.length := by
  have member : run ∈ chain := List.argmax_mem isLatest
  have positive := List.length_pos_of_mem member
  have nonempty := List.ne_nil_of_mem member
  have below : run.retrySequence < chain.length := by
    have listed : run.retrySequence ∈ chain.map (·.retrySequence) :=
      List.mem_map_of_mem member
    rw [shape.sequences] at listed
    exact List.mem_range.mp listed
  have top : chain.length - 1 ∈ chain.map (·.retrySequence) := by
    rw [shape.sequences]
    exact List.mem_range.mpr (by omega)
  obtain ⟨last, lastMember, lastSequence⟩ := List.mem_map.mp top
  have atMost := List.le_of_mem_argmax lastMember isLatest
  have sequence : run.retrySequence + 1 = chain.length := by
    omega
  have distinct : (chain.map (·.retrySequence)).Nodup := by
    rw [shape.sequences]
    exact List.nodup_range
  have split := List.dropLast_append_getLast nonempty
  have finalSequence :
      (chain.getLast nonempty).retrySequence + 1 = chain.length := by
    have lastOfMap : (chain.map (·.retrySequence)).getLast? =
        some (chain.getLast nonempty).retrySequence := by
      rw [List.getLast?_map, List.getLast?_eq_some_getLast nonempty]
      rfl
    rw [shape.sequences, List.getLast?_range] at lastOfMap
    split at lastOfMap
    · cases lastOfMap
    · have same := Option.some.inj lastOfMap
      omega
  have same : chain.getLast nonempty = run :=
    List.inj_on_of_nodup_map distinct (List.getLast_mem nonempty) member
      (by omega)
  rw [same] at split
  exact ⟨split.symm, sequence⟩

/-- At most one run of a chain is not over. -/
theorem ChainShape.active_le_one
    {chain : List TaskRun} (shape : ChainShape chain) :
    (chain.filter fun run => !run.state.terminal).length ≤ 1 := by
  by_cases empty : chain = []
  · simp [empty]
  · have split := List.dropLast_append_getLast empty
    have none : chain.dropLast.filter (fun run => !run.state.terminal) = [] := by
      rw [List.filter_eq_nil_iff]
      intro run member
      simp [shape.failed run member, TaskState.terminal]
    rw [← split, List.filter_append, none, List.nil_append]
    exact List.length_filter_le _ _

/-! ## The table -/

theorem run?_eq_some
    {table : TaskTable} {id : Uuid} {run : TaskRun}
    (found : table.run? id = some run) : run ∈ table ∧ run.id = id :=
  mem_of_find?_key found

theorem fresh_of_run?_none
    {table : TaskTable} {id : Uuid} (absent : table.run? id = none) :
    ∀ run ∈ table, run.id ≠ id := by
  intro run member
  have other := List.find?_eq_none.mp absent run member
  simpa using other

structure TableInv (ops : List TaskOp) (table : TaskTable) : Prop where
  distinct : (table.map (·.id)).Nodup
  rooted : ∀ run ∈ table, ∃ root ∈ table, root.id = run.rootId
  chains : ∀ root, ChainShape (table.chain root)
  counted : ∀ run ∈ table, Counted (changesOf run.id ops) run
  unknown : ∀ id, (∀ run ∈ table, run.id ≠ id) → changesOf id ops = []

theorem tableInv_nil : TableInv [] [] where
  distinct := List.nodup_nil
  rooted := by simp
  chains := fun _ => ChainShape.nil
  counted := by simp
  unknown := fun _ _ => rfl

theorem TableInv.run?_of_mem
    {ops : List TaskOp} {table : TaskTable} {run : TaskRun}
    (kept : TableInv ops table) (member : run ∈ table) :
    table.run? run.id = some run :=
  find?_key_of_mem kept.distinct member

/-- Calls that are not changes leave the counts as they are. -/
theorem TableInv.relabel
    {ops more : List TaskOp} {table : TaskTable} (kept : TableInv ops table)
    (same : ∀ id, changesOf id more = changesOf id ops) :
    TableInv more table where
  distinct := kept.distinct
  rooted := kept.rooted
  chains := kept.chains
  counted run member := by
    rw [same]
    exact kept.counted run member
  unknown id fresh := (same id).trans (kept.unknown id fresh)

/-- A row that starts a count from nothing. -/
structure Initial (row : TaskRun) : Prop where
  version : row.version = 1
  attempt : row.attempt = 0
  fence : row.fence = 0
  worker : row.workerId = none

theorem TableInv.insert
    {ops : List TaskOp} {table : TaskTable} {row : TaskRun}
    (kept : TableInv ops table) (fresh : ∀ run ∈ table, run.id ≠ row.id)
    (initial : Initial row)
    (rooted : row.rootId = row.id ∨ ∃ root ∈ table, root.id = row.rootId)
    (next : row.retrySequence = (table.chain row.rootId).length)
    (failed : ∀ run ∈ table.chain row.rootId, run.state = .failed) :
    TableInv ops (table ++ [row]) where
  distinct := by
    rw [List.map_append, List.map_singleton, List.nodup_append]
    refine ⟨kept.distinct, List.nodup_singleton _, ?_⟩
    intro id member other isRow
    obtain ⟨run, inTable, rfl⟩ := List.mem_map.mp member
    rw [List.mem_singleton.mp isRow]
    exact fresh run inTable
  rooted := by
    intro run member
    rcases List.mem_append.mp member with old | new
    · obtain ⟨root, inTable, isRoot⟩ := kept.rooted run old
      exact ⟨root, List.mem_append_left _ inTable, isRoot⟩
    · cases List.mem_singleton.mp new
      rcases rooted with itself | ⟨root, inTable, isRoot⟩
      · exact ⟨row, List.mem_append_right _ List.mem_cons_self, itself.symm⟩
      · exact ⟨root, List.mem_append_left _ inTable, isRoot⟩
  chains := by
    intro root
    by_cases same : row.rootId = root
    · subst same
      have appended : (table ++ [row]).chain row.rootId =
          table.chain row.rootId ++ [row] := by
        simp [TaskTable.chain]
      rw [appended]
      exact (kept.chains row.rootId).concat next failed
    · have unchanged : (table ++ [row]).chain root = table.chain root := by
        simp [TaskTable.chain, same]
      rw [unchanged]
      exact kept.chains root
  counted := by
    intro run member
    rcases List.mem_append.mp member with old | new
    · exact kept.counted run old
    · cases List.mem_singleton.mp new
      rw [kept.unknown row.id fresh]
      exact ⟨initial.version, initial.attempt, initial.fence, initial.worker⟩
  unknown := by
    intro id absent
    exact kept.unknown id fun run member =>
      absent run (List.mem_append_left _ member)

/-! ### Changes -/

theorem LawfulChange.not_terminal
    {table : TaskTable} {call : ChangeCall} {target : TaskState}
    {run : TaskRun} (accepted : LawfulChange table call target run) :
    run.state.terminal = false := by
  have edge := accepted.legal.edge
  cases state : run.state <;> rw [state] at edge <;>
    cases call.action <;> simp [permittedEdge, TaskState.terminal] at edge ⊢

theorem stored_bindings (call : ChangeCall) (target : TaskState)
    (run : TaskRun) : (call.stored target run).bindings = run.bindings :=
  rfl

theorem mem_replace
    {table : TaskTable} {run row : TaskRun} (member : run ∈ table)
    (call : ChangeCall) (target : TaskState) :
    row ∈ table.replace (call.stored target run) ↔
      row = call.stored target run ∨ (row ∈ table ∧ row.id ≠ run.id) := by
  have same : (call.stored target run).id = run.id := rfl
  simp only [TaskTable.replace, List.mem_map]
  constructor
  · rintro ⟨old, inTable, rfl⟩
    by_cases isRun : old.id = (call.stored target run).id
    · simp [isRun]
    · rw [if_neg isRun, ← same]
      exact Or.inr ⟨inTable, isRun⟩
  · rintro (rfl | ⟨inTable, other⟩)
    · exact ⟨run, member, by simp [same]⟩
    · exact ⟨row, inTable, by rw [if_neg (by rwa [same])]⟩

theorem chain_replace
    {table : TaskTable} {run saved : TaskRun}
    (distinct : (table.map (·.id)).Nodup) (member : run ∈ table)
    (same : saved.bindings = run.bindings) (root : Uuid) :
    (table.replace saved).chain root =
      (table.chain root).map fun row => if row.id = saved.id then saved else row := by
  have sameId : saved.id = run.id := congrArg TaskBindings.id same
  have sameRoot : saved.rootId = run.rootId := congrArg TaskBindings.rootId same
  simp only [TaskTable.replace, TaskTable.chain, List.filter_map]
  congr 1
  refine List.filter_congr fun row inTable => ?_
  simp only [Function.comp_apply]
  by_cases isRun : row.id = saved.id
  · have equal : row = run :=
      List.inj_on_of_nodup_map distinct inTable member (isRun.trans sameId)
    rw [if_pos isRun, sameRoot, equal]
  · rw [if_neg isRun]

theorem TableInv.change
    {ops : List TaskOp} {table : TaskTable} {call : ChangeCall}
    {target : TaskState} {run : TaskRun} (kept : TableInv ops table)
    (accepted : LawfulChange table call target run) :
    TableInv (ops ++ [.change call]) (table.replace (call.stored target run)) := by
  obtain ⟨member, isRun⟩ := run?_eq_some accepted.found
  have sameId : (call.stored target run).id = run.id := rfl
  have ids : (table.replace (call.stored target run)).map (·.id) =
      table.map (·.id) := by
    simp only [TaskTable.replace, List.map_map]
    refine List.map_congr_left fun row _ => ?_
    simp only [Function.comp_apply]
    by_cases same : row.id = (call.stored target run).id
    · rw [if_pos same, same]
    · rw [if_neg same]
  have inNext : ∀ row, row ∈ table.replace (call.stored target run) ↔
      row = call.stored target run ∨ (row ∈ table ∧ row.id ≠ run.id) :=
    fun row => mem_replace member call target
  refine ⟨?_, ?_, ?_, ?_, ?_⟩
  · rw [ids]
    exact kept.distinct
  · intro row inTable
    have known : ∃ root ∈ table, root.id = row.rootId := by
      rcases (inNext row).mp inTable with rfl | ⟨old, _⟩
      · exact kept.rooted run member
      · exact kept.rooted row old
    obtain ⟨root, rootMember, rootId⟩ := known
    by_cases isRoot : root.id = run.id
    · refine ⟨_, (inNext _).mpr (Or.inl rfl), ?_⟩
      rw [sameId, ← isRoot, rootId]
    · exact ⟨root, (inNext root).mpr (Or.inr ⟨rootMember, isRoot⟩), rootId⟩
  · intro root
    rw [chain_replace kept.distinct member (stored_bindings call target run)]
    refine (kept.chains root).map ?_ ?_
    · intro row inChain
      by_cases same : row.id = (call.stored target run).id
      · have equal : row = run := List.inj_on_of_nodup_map kept.distinct
          (List.mem_of_mem_filter inChain) member same
        rw [if_pos same, equal]
        rfl
      · rw [if_neg same]
    · intro row inChain failed
      by_cases same : row.id = (call.stored target run).id
      · have equal : row = run := List.inj_on_of_nodup_map kept.distinct
          (List.mem_of_mem_filter inChain) member same
        have ongoing := accepted.not_terminal
        rw [← equal, failed] at ongoing
        cases ongoing
      · rw [if_neg same]
  · intro row inTable
    rw [changesOf_concat_change]
    rcases (inNext row).mp inTable with rfl | ⟨old, other⟩
    · rw [if_pos (isRun.symm.trans sameId.symm)]
      exact (kept.counted run member).stored target
    · rw [if_neg (fun same => other (same.symm.trans isRun.symm)),
        List.append_nil]
      exact kept.counted row old
  · intro id absent
    have notRun : call.runId ≠ id := by
      intro same
      exact absent _ ((inNext _).mpr (Or.inl rfl))
        (sameId.trans (isRun.trans same))
    rw [changesOf_concat_change, if_neg notRun, List.append_nil]
    refine kept.unknown id fun row inTable isRow => ?_
    by_cases same : row.id = run.id
    · exact notRun (isRun.symm.trans (same.symm.trans isRow))
    · exact absent row ((inNext row).mpr (Or.inr ⟨inTable, same⟩)) isRow

/-! ### Insertions -/

theorem initial_of_insertGuard
    {table : TaskTable} {row saved : TaskRun} {instant : Int}
    (passed : taskInsertGuard table row instant = .ok saved) :
    Initial row ∧ saved = { row with createdAt := instant, updatedAt := instant } ∧
      (if row.retrySequence = 0 then rootGuard row else retryGuard table row) =
        .ok () := by
  unfold taskInsertGuard at passed
  simp only [except_bind_unit, refuseWhen_eq_ok, Bool.or_eq_false_iff,
    bne_eq_false_iff_eq] at passed
  obtain ⟨_, initial, rest⟩ := passed
  obtain ⟨⟨⟨⟨⟨⟨⟨⟨⟨version, _⟩, attempt⟩, fence⟩, worker⟩, _⟩, _⟩, _⟩, _⟩, _⟩ :=
    initial
  refine ⟨⟨version, attempt, fence, worker⟩, ?_⟩
  by_cases isRoot : row.retrySequence = 0
  · rw [if_pos isRoot] at rest ⊢
    obtain ⟨identity, returned⟩ := except_bind_unit.mp rest
    exact ⟨(Except.ok.inj returned).symm, identity⟩
  · rw [if_neg isRoot] at rest ⊢
    obtain ⟨identity, returned⟩ := except_bind_unit.mp rest
    exact ⟨(Except.ok.inj returned).symm, identity⟩

theorem TableInv.insertRun
    {ops : List TaskOp} {table next : TaskTable} {row : TaskRun} {instant : Int}
    (kept : TableInv ops table)
    (inserted : insertRun table row instant = .ok next) :
    TableInv ops next ∧ ∃ saved, next = table ++ [saved] := by
  unfold Jobs.insertRun at inserted
  obtain ⟨saved, guarded, inserted⟩ := except_bind_eq_ok inserted
  rw [except_bind_unit, refuseWhen_eq_ok] at inserted
  obtain ⟨absent, returned⟩ := inserted
  cases returned
  obtain ⟨initial, rfl, identity⟩ :=
    initial_of_insertGuard (mapError_eq_ok.mp guarded)
  have fresh : ∀ run ∈ table, run.id ≠ row.id :=
    fresh_of_run?_none (by simpa using absent)
  refine ⟨?_, _, rfl⟩
  by_cases isRoot : row.retrySequence = 0
  · rw [if_pos isRoot] at identity
    simp only [rootGuard, refuseWhen_eq_ok, Bool.or_eq_false_iff,
      bne_eq_false_iff_eq] at identity
    have itself : row.rootId = row.id := identity.1.1.1.1
    have empty : table.chain row.rootId = [] := by
      refine List.filter_eq_nil_iff.mpr fun run member isRun => ?_
      obtain ⟨root, inTable, isRoot⟩ := kept.rooted run member
      exact fresh root inTable
        (isRoot.trans ((beq_iff_eq.mp isRun).trans itself))
    refine kept.insert fresh
      ⟨initial.version, initial.attempt, initial.fence, initial.worker⟩
      (Or.inl itself) ?_ ?_
    · change row.retrySequence = (table.chain row.rootId).length
      rw [isRoot, empty]
      rfl
    · change ∀ run ∈ table.chain row.rootId, run.state = .failed
      simp [empty]
  · rw [if_neg isRoot] at identity
    simp only [retryGuard, refuseWhen_eq_ok, Bool.not_eq_false'] at identity
    split at identity
    · rename_i root previous foundRoot foundLatest
      simp only [Bool.and_eq_true, beq_iff_eq] at identity
      obtain ⟨⟨⟨⟨⟨⟨⟨⟨⟨_, wasFailed⟩, _⟩, sequence⟩, _⟩, _⟩, _⟩, _⟩, _⟩, _⟩ :=
        identity
      obtain ⟨split, length⟩ :=
        (kept.chains row.rootId).getLast_of_latest foundLatest
      obtain ⟨rootMember, rootId⟩ := run?_eq_some foundRoot
      refine kept.insert fresh
        ⟨initial.version, initial.attempt, initial.fence, initial.worker⟩
        (Or.inr ⟨root, rootMember, rootId⟩) ?_ ?_
      · exact sequence.trans length
      · change ∀ run ∈ table.chain row.rootId, run.state = .failed
        intro run member
        rw [split] at member
        rcases List.mem_append.mp member with earlier | isLast
        · exact (kept.chains row.rootId).failed run earlier
        · rw [List.mem_singleton.mp isLast]
          exact wasFailed
    · cases identity

theorem TableInv.enqueue
    {ops : List TaskOp} {table next : TaskTable} {call : EnqueueCall}
    (kept : TableInv ops table)
    (accepted : Jobs.enqueue table call = .ok next) :
    TableInv ops next ∧ table <+: next := by
  unfold Jobs.enqueue at accepted
  obtain ⟨_, accepted⟩ := except_bind_unit.mp accepted
  split at accepted
  · simp only [except_bind_unit] at accepted
    obtain ⟨_, _, returned⟩ := accepted
    cases returned
    exact ⟨kept, List.prefix_rfl⟩
  · obtain ⟨_, inserted⟩ := except_bind_unit.mp accepted
    obtain ⟨inv, saved, rfl⟩ := kept.insertRun inserted
    exact ⟨inv, List.prefix_append _ _⟩

theorem TableInv.retry
    {ops : List TaskOp} {table next : TaskTable} {call : RetryCall}
    (kept : TableInv ops table) (accepted : retryFailed table call = .ok next) :
    TableInv ops next ∧ table <+: next := by
  unfold retryFailed at accepted
  split at accepted
  · cases accepted
  · split at accepted
    · simp only [except_bind_unit] at accepted
      obtain ⟨_, _, returned⟩ := accepted
      cases returned
      exact ⟨kept, List.prefix_rfl⟩
    · simp only [except_bind_unit] at accepted
      obtain ⟨_, _, inserted⟩ := accepted
      obtain ⟨inv, saved, rfl⟩ := kept.insertRun inserted
      exact ⟨inv, List.prefix_append _ _⟩

/-! ### Steps and runs -/

theorem TableInv.step
    {ops : List TaskOp} {table next : TaskTable} (op : TaskOp)
    (kept : TableInv ops table) (applied : op.apply table = some next) :
    TableInv (ops ++ [op]) next := by
  cases op with
  | enqueue call =>
      obtain ⟨inv, _⟩ := kept.enqueue (toOption_eq_some.mp applied)
      exact inv.relabel fun id => changesOf_concat_enqueue id ops call
  | change call =>
      obtain ⟨run, target, accepted, rfl⟩ :=
        changeRun_eq_ok (toOption_eq_some.mp applied)
      exact kept.change accepted
  | retry call =>
      obtain ⟨inv, _⟩ := kept.retry (toOption_eq_some.mp applied)
      exact inv.relabel fun id => changesOf_concat_retry id ops call

theorem tableInv_of_run
    {ops : List TaskOp} {table : TaskTable}
    (finished : run TaskOp.apply [] ops = some table) : TableInv ops table :=
  run_invariant finished tableInv_nil fun _ _ op _ _ kept applied =>
    kept.step op applied

/-- What later calls make of a row: its version and fence only grow, and a row
that is over stays as it is. -/
structure Later (row later : TaskRun) : Prop where
  bindings : later.bindings = row.bindings
  version : row.version ≤ later.version
  fence : row.fence ≤ later.fence
  final : row.state.terminal = true → later = row

theorem Later.refl (row : TaskRun) : Later row row :=
  ⟨rfl, le_rfl, le_rfl, fun _ => rfl⟩

theorem Later.trans
    {first second third : TaskRun} (left : Later first second)
    (right : Later second third) : Later first third where
  bindings := right.bindings.trans left.bindings
  version := left.version.trans right.version
  fence := left.fence.trans right.fence
  final isOver := by
    have same := left.final isOver
    rw [same] at right
    exact right.final isOver

theorem later_of_step
    {ops : List TaskOp} {table next : TaskTable} (op : TaskOp)
    (kept : TableInv ops table) (applied : op.apply table = some next) :
    ∀ row ∈ table, ∃ later ∈ next, Later row later := by
  intro row member
  cases op with
  | enqueue call =>
      obtain ⟨_, grown⟩ := kept.enqueue (toOption_eq_some.mp applied)
      exact ⟨row, grown.subset member, Later.refl row⟩
  | retry call =>
      obtain ⟨_, grown⟩ := kept.retry (toOption_eq_some.mp applied)
      exact ⟨row, grown.subset member, Later.refl row⟩
  | change call =>
      obtain ⟨run, target, accepted, rfl⟩ :=
        changeRun_eq_ok (toOption_eq_some.mp applied)
      obtain ⟨runMember, _⟩ := run?_eq_some accepted.found
      by_cases same : row.id = run.id
      · have equal : row = run :=
          List.inj_on_of_nodup_map kept.distinct member runMember same
        subst equal
        refine ⟨call.stored target row,
          (mem_replace runMember call target).mpr (Or.inl rfl), rfl, ?_, ?_, ?_⟩
        · exact Nat.le_succ row.version
        · exact Nat.le_add_right row.fence _
        · intro isOver
          rw [accepted.not_terminal] at isOver
          cases isOver
      · exact ⟨row, (mem_replace runMember call target).mpr
          (Or.inr ⟨member, same⟩), Later.refl row⟩

theorem later_of_run
    {before after : List TaskOp} {middle final : TaskTable}
    (reached : run TaskOp.apply [] before = some middle)
    (continued : run TaskOp.apply middle after = some final) :
    ∀ row ∈ middle, ∃ later ∈ final, Later row later := by
  induction after generalizing before middle with
  | nil =>
      cases continued
      exact fun row member => ⟨row, member, Later.refl row⟩
  | cons op after inductionHypothesis =>
      rw [run_cons] at continued
      obtain ⟨next, applied, rest⟩ := Option.bind_eq_some_iff.mp continued
      have nextReached : run TaskOp.apply [] (before ++ [op]) = some next := by
        rw [run_concat, reached]
        exact applied
      intro row member
      obtain ⟨moved, movedMember, first⟩ :=
        later_of_step op (tableInv_of_run reached) applied row member
      obtain ⟨last, lastMember, second⟩ :=
        inductionHypothesis nextReached rest moved movedMember
      exact ⟨last, lastMember, first.trans second⟩

end ParishKit.Jobs
