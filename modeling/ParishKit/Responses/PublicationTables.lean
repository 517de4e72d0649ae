import ParishKit.Responses.PublicationWorker

/-!
# What publication keeps in its tables

The worker matches rows by execution and version, not by a stored owner. These
invariants tie the queued proposals, the outcomes and the log together, under
the worker's own transactions and under every other writer.
-/

namespace ParishKit.Responses

/-! ## Other writers -/

theorem record_execution_ne_queued
    {facts : ChangeFacts} {intent : ReviewIntent} {change next : Change}
    (recorded : change.record facts intent = some next) :
    next.row.execution ≠ .queued := by
  obtain ⟨admitted, rfl⟩ := record_eq_some recorded
  have notQueued : change.row.execution ≠ .queued :=
    execution_ne_queued_of_admitted admitted
  simp only [ReviewIntent.recorded]
  split
  · simp
  · split
    · simp
    · exact notQueued

theorem resolution_execution_ne_queued
    {facts : ChangeFacts} {intent : ResolutionIntent} {change next : Change}
    (recorded : change.recordResolution facts intent = some next) :
    next.row.execution ≠ .queued := by
  obtain ⟨admitted, rfl⟩ := recordResolution_eq_some recorded
  have notQueued : change.row.execution ≠ .queued :=
    execution_ne_queued_of_resolution admitted
  simp only [ResolutionIntent.resolved]
  split
  · simp
  · exact notQueued
  · split
    · simp
    · exact notQueued

section Writers

variable [Unicode]

/-- An operation leaves the row alone, or advances its version by one and leaves
it out of the queue. -/
theorem ChangeOp.apply_advances
    {op : ChangeOp} {change next : Change}
    (applied : op.apply change = some next) :
    next.row = change.row ∨
      (next.row.version = change.row.version + 1 ∧
        next.row.execution ≠ .queued) := by
  obtain ⟨step, _, stepApplied⟩ := Option.bind_eq_some_iff.mp applied
  cases step with
  | refresh corpus familyDuid =>
      rcases refresh_cases stepApplied with
        ⟨sameRow, _⟩ | ⟨update, _, yielded, rfl⟩
      · exact Or.inl sameRow
      · exact Or.inr ⟨rfl, proposalUpdate_execution_ne_queued yielded⟩
  | record facts intent =>
      refine Or.inr ⟨?_, record_execution_ne_queued stepApplied⟩
      obtain ⟨_, rfl⟩ := record_eq_some stepApplied
      rfl
  | resolution facts intent =>
      refine Or.inr ⟨?_, resolution_execution_ne_queued stepApplied⟩
      obtain ⟨_, rfl⟩ := recordResolution_eq_some stepApplied
      exact (resolved_frame facts intent change.row).2.2.2.2.2

/-- Another writer never queues a proposal and never turns a version back. -/
theorem OtherWrite.advances
    {found : Option Change} {next : Change} (write : OtherWrite found next) :
    (∀ change, found = some change → next.row = change.row ∨
      (next.row.version = change.row.version + 1 ∧
        next.row.execution ≠ .queued)) ∧
      (found = none → next.row.execution ≠ .queued) := by
  cases write with
  | created made =>
      refine ⟨by simp, fun _ => ?_⟩
      rcases execution_of_created made with state | state <;> simp [state]
  | operation op applied =>
      refine ⟨?_, by simp⟩
      rintro change ⟨⟩
      exact op.apply_advances applied
  | replaced successor isOpen =>
      refine ⟨?_, by simp⟩
      rintro change ⟨⟩
      refine Or.inr ⟨rfl, ?_⟩
      dsimp only
      split <;> simp
  | marked isOpen decided =>
      refine ⟨?_, by simp⟩
      rintro change ⟨⟩
      exact Or.inr ⟨rfl, by simp [Change.move]⟩
  | refreshConflict updated =>
      refine ⟨?_, by simp⟩
      rintro change ⟨⟩
      exact Or.inr ⟨rfl, by simp⟩

end Writers

/-! ## The invariant -/

/-- The outcomes of one entity in the log, oldest first. -/
def loggedOutcomes (pk : Nat) (log : List PublicationEvent) :
    List AttemptResult :=
  (log.filterMap fun event =>
    match event with
    | .outcome entity result => if entity.pk = pk then some result else none
    | _ => none).reverse

/-- The event of a queue transaction accounts for the versions it made: a
proposal still queued at such a version waits for its unfinished entity. -/
def QueueAccounted (tables : PublicationTables) (entity : PublicationEntity)
    (found : Nat → Option Change) : Prop :=
  (entity ∈ tables.entities ∧ entity.plannedSha.isSome = true) ∧
    ∀ pk before, pk ∈ entity.writes → found pk = some before →
      before.row.execution ≠ .queued →
      ∃ now, tables.changes pk = some now ∧
        before.row.version < now.row.version ∧
        (now.row.execution = .queued →
          now.row.version = before.row.version + 1 →
          entity.queuedByPlan pk now.row = true ∧
            tables.finished entity.pk = false)

structure TablesInv (tables : PublicationTables)
    (log : List PublicationEvent) : Prop where
  logged : ∀ pk, tables.outcomes pk = loggedOutcomes pk log
  distinct : (tables.entities.map (·.pk)).Nodup
  owned : ∀ pk change, tables.changes pk = some change →
    change.row.execution = .queued →
    ∃ entity ∈ tables.entities, entity.plannedSha.isSome = true ∧
      tables.finished entity.pk = false ∧
      entity.queuedByPlan pk change.row = true
  oneFinal : ∀ pk, ((tables.outcomes pk).filter (·.isFinal)).length ≤ 1
  accounted : ∀ entity found, .queue entity found ∈ log →
    QueueAccounted tables entity found

theorem tablesInv_initial :
    TablesInv PublicationState.initial.tables [] where
  logged _ := rfl
  distinct := List.nodup_nil
  owned _ _ absent := by cases absent
  oneFinal _ := Nat.zero_le 1
  accounted _ _ absent := by cases absent

/-- Events that no table depends on. -/
def PublicationEvent.silent : PublicationEvent → Bool
  | .attempt _ => true
  | .read _ _ => true
  | .write _ _ => true
  | .queue _ _ => false
  | .outcome _ _ => false

theorem TablesInv.emit
    {tables : PublicationTables} {log : List PublicationEvent}
    {event : PublicationEvent} (kept : TablesInv tables log)
    (silent : event.silent = true) :
    TablesInv tables (event :: log) := by
  refine ⟨?_, kept.distinct, kept.owned, kept.oneFinal, ?_⟩
  · intro pk
    rw [kept.logged pk]
    cases event with
    | attempt entity => rfl
    | read entity digest => rfl
    | write entity payload => rfl
    | queue entity found => cases silent
    | outcome entity result => cases silent
  · intro entity found member
    rcases List.mem_cons.mp member with rfl | older
    · cases silent
    · exact kept.accounted entity found older

theorem mem_writes_of_queuedByPlan
    {entity : PublicationEntity} {pk : Nat} {row : ProposedChange}
    (queued : entity.queuedByPlan pk row = true) :
    pk ∈ entity.writes := by
  simp only [PublicationEntity.queuedByPlan, Bool.and_eq_true,
    List.any_eq_true, beq_iff_eq] at queued
  obtain ⟨_, field, member, ⟨sameProposal, isWrite⟩, _⟩ := queued
  refine List.mem_map.mpr ⟨field, List.mem_filter.mpr ⟨member, ?_⟩,
    sameProposal⟩
  simp [isWrite]

/-- A written proposal that the queue transaction queues was at the recorded
version. -/
theorem queuedByPlan_of_move
    {entity : PublicationEntity} {tables : PublicationTables} {pk : Nat}
    {change : Change} (queueable : entity.queueable tables = true)
    (written : pk ∈ entity.writes)
    (found : tables.changes pk = some change)
    (notQueued : change.row.execution ≠ .queued) :
    entity.queuedByPlan pk (change.move .queued).row = true := by
  obtain ⟨field, selected, rfl⟩ := List.mem_map.mp written
  obtain ⟨member, isWrite⟩ := List.mem_filter.mp selected
  have admitted := List.all_eq_true.mp queueable field member
  have notByPlan :
      entity.queuedByPlan field.proposal change.row = false := by
    simp [PublicationEntity.queuedByPlan, notQueued]
  have notMarked : field.marked change.row = false := by
    have outcome : field.outcome = .write := by simpa using isWrite
    simp [PlannedField.marked, outcome]
  simp only [found, Option.any_some, PublicationEntity.atPlan, notByPlan,
    notMarked, Bool.or_false, beq_iff_eq] at admitted
  simp only [PublicationEntity.queuedByPlan, Change.move, beq_self_eq_true,
    Bool.true_and, List.any_eq_true, Bool.and_eq_true, beq_iff_eq]
  exact ⟨field, member, ⟨rfl, by simpa using isWrite⟩, by rw [admitted]⟩

theorem TablesInv.queue
    {tables : PublicationTables} {log : List PublicationEvent}
    {item : PublicationEntity} (kept : TablesInv tables log)
    (confirmed : item ∈ tables.entities)
    (writing : item.plannedSha.isSome = true)
    (unfinished : tables.finished item.pk = false)
    (queueable : item.queueable tables = true) :
    TablesInv (item.queue tables) (.queue item tables.changes :: log) := by
  refine ⟨kept.logged, kept.distinct, ?_, kept.oneFinal, ?_⟩
  · intro pk change found isQueued
    obtain ⟨before, present, rfl⟩ := Option.map_eq_some_iff.mp found
    by_cases moved : pk ∈ item.writes ∧ before.row.execution ≠ .queued
    · rw [if_pos moved]
      exact ⟨item, confirmed, writing, unfinished,
        queuedByPlan_of_move queueable moved.1 present moved.2⟩
    · rw [if_neg moved] at isQueued ⊢
      exact kept.owned pk before present isQueued
  · intro entity found member
    rcases List.mem_cons.mp member with sameEvent | older
    · cases sameEvent
      refine ⟨⟨confirmed, writing⟩, ?_⟩
      intro pk before written present notQueued
      have now : (item.queue tables).changes pk = some (before.move .queued) := by
        simp [PublicationEntity.queue, present, written, notQueued]
      exact ⟨_, now, Nat.lt_succ_self _, fun _ _ =>
        ⟨queuedByPlan_of_move queueable written present notQueued,
          unfinished⟩⟩
    · obtain ⟨inEntities, accounts⟩ := kept.accounted entity found older
      refine ⟨inEntities, ?_⟩
      intro pk before written present notQueued
      obtain ⟨now, nowPresent, later, waits⟩ :=
        accounts pk before written present notQueued
      by_cases moved : pk ∈ item.writes ∧ now.row.execution ≠ .queued
      · have next : (item.queue tables).changes pk =
            some (now.move .queued) := by
          simp [PublicationEntity.queue, nowPresent, moved]
        refine ⟨_, next, Nat.lt_succ_of_lt later, fun _ sameVersion => ?_⟩
        have advanced : (now.move .queued).row.version =
            now.row.version + 1 := rfl
        omega
      · have next : (item.queue tables).changes pk = some now := by
          simp only [PublicationEntity.queue, nowPresent, Option.map_some,
            if_neg moved]
        exact ⟨now, next, later, waits⟩

theorem record_entities
    (item : PublicationEntity) (result : AttemptResult)
    (tables : PublicationTables) :
    (item.record result tables).entities = tables.entities := by
  cases result <;> rfl

theorem record_outcomes
    (item : PublicationEntity) (result : AttemptResult)
    (tables : PublicationTables) (pk : Nat) :
    (item.record result tables).outcomes pk =
      if pk = item.pk then tables.outcomes pk ++ [result]
      else tables.outcomes pk := by
  cases result <;> rfl

theorem record_finished
    (item : PublicationEntity) (result : AttemptResult)
    (tables : PublicationTables) (pk : Nat) :
    (item.record result tables).finished pk =
      (tables.finished pk || (pk == item.pk && result.isFinal)) := by
  unfold PublicationTables.finished
  rw [record_outcomes]
  by_cases same : pk = item.pk
  · simp [same]
  · simp [same]

theorem settle_changes
    {item : PublicationEntity} {target : Execution}
    {tables : PublicationTables} {pk : Nat} {before : Change}
    (present : tables.changes pk = some before) :
    (item.settle target tables).changes pk =
      some (if item.queuedByPlan pk before.row = true then
        before.move target else before) := by
  simp only [PublicationEntity.settle, present, Option.map_some]
  by_cases queued : item.queuedByPlan pk before.row = true
  · rw [if_pos queued, if_pos ⟨mem_writes_of_queuedByPlan queued, queued⟩]
  · rw [if_neg queued, if_neg fun both => queued both.2]

/-- What an outcome does to one proposal: a final one moves it exactly when this
plan queued it. -/
theorem record_changes
    (item : PublicationEntity) (result : AttemptResult)
    {tables : PublicationTables} {pk : Nat} {before : Change}
    (present : tables.changes pk = some before) :
    ∃ now, (item.record result tables).changes pk = some now ∧
      ((now = before ∧ (result.isFinal = true →
          item.queuedByPlan pk before.row = false)) ∨
        (now.row.version = before.row.version + 1 ∧
          now.row.execution ≠ .queued)) := by
  have moved {target : Execution} {recorded : PublicationTables}
      (sameChanges : recorded.changes = tables.changes)
      (elsewhere : target ≠ .queued) :
      ∃ now, (item.settle target recorded).changes pk = some now ∧
        ((now = before ∧ (result.isFinal = true →
            item.queuedByPlan pk before.row = false)) ∨
          (now.row.version = before.row.version + 1 ∧
            now.row.execution ≠ .queued)) := by
    refine ⟨_, settle_changes (by rw [sameChanges]; exact present), ?_⟩
    cases queued : item.queuedByPlan pk before.row with
    | true => exact Or.inr ⟨rfl, elsewhere⟩
    | false => exact Or.inl ⟨rfl, fun _ => rfl⟩
  cases result with
  | published => exact moved rfl (by simp)
  | invalidated =>
      refine moved rfl ?_
      split <;> simp
  | failed kind => exact ⟨before, present, Or.inl ⟨rfl, by simp [AttemptResult.isFinal]⟩⟩

theorem record_changes_none
    {item : PublicationEntity} {result : AttemptResult}
    {tables : PublicationTables} {pk : Nat}
    (absent : tables.changes pk = none) :
    (item.record result tables).changes pk = none := by
  cases result <;> simp [PublicationEntity.record, PublicationEntity.settle, absent]

theorem entity_eq_of_pk
    {tables : PublicationTables} {left right : PublicationEntity}
    (distinct : (tables.entities.map (·.pk)).Nodup)
    (leftMember : left ∈ tables.entities)
    (rightMember : right ∈ tables.entities) (samePk : left.pk = right.pk) :
    left = right :=
  List.inj_on_of_nodup_map distinct leftMember rightMember samePk

/-- An entity the outcome does not finish is as unfinished as before. -/
theorem record_keeps_unfinished
    {tables : PublicationTables} {item entity : PublicationEntity}
    {result : AttemptResult} {pk : Nat} {row : ProposedChange}
    (distinct : (tables.entities.map (·.pk)).Nodup)
    (confirmed : item ∈ tables.entities)
    (member : entity ∈ tables.entities)
    (unfinished : tables.finished entity.pk = false)
    (queued : entity.queuedByPlan pk row = true)
    (kept : result.isFinal = true → item.queuedByPlan pk row = false) :
    (item.record result tables).finished entity.pk = false := by
  rw [record_finished, unfinished, Bool.false_or, Bool.and_eq_false_iff]
  by_cases samePk : entity.pk = item.pk
  · right
    have sameEntity := entity_eq_of_pk distinct member confirmed samePk
    subst sameEntity
    by_contra final
    have stays := kept (by simpa using final)
    exact Bool.false_ne_true (stays.symm.trans queued)
  · left
    simpa using samePk

theorem TablesInv.record
    {tables : PublicationTables} {log : List PublicationEvent}
    {item : PublicationEntity} (result : AttemptResult)
    (kept : TablesInv tables log) (confirmed : item ∈ tables.entities)
    (unfinished : tables.finished item.pk = false) :
    TablesInv (item.record result tables) (.outcome item result :: log) := by
  refine ⟨?_, ?_, ?_, ?_, ?_⟩
  · intro pk
    rw [record_outcomes]
    by_cases same : pk = item.pk
    · subst same
      simp [loggedOutcomes, kept.logged]
    · have different : item.pk ≠ pk := Ne.symm same
      simp [loggedOutcomes, kept.logged, same, different]
  · rw [record_entities]
    exact kept.distinct
  · intro pk now present isQueued
    cases before : tables.changes pk with
    | none => simp [record_changes_none before] at present
    | some change =>
        obtain ⟨found, foundPresent, outcome⟩ :=
          record_changes item result before
        rw [foundPresent] at present
        cases present
        rcases outcome with ⟨unmoved, stays⟩ | ⟨_, notQueued⟩
        · rw [unmoved] at isQueued ⊢
          obtain ⟨entity, member, writing, waiting, owns⟩ :=
            kept.owned pk change before isQueued
          refine ⟨entity, ?_, writing, ?_, owns⟩
          · rw [record_entities]
            exact member
          · exact record_keeps_unfinished kept.distinct confirmed member
              waiting owns stays
        · exact absurd isQueued notQueued
  · intro pk
    rw [record_outcomes]
    by_cases same : pk = item.pk
    · subst same
      have noFinal : (tables.outcomes item.pk).filter (·.isFinal) = [] := by
        rw [List.filter_eq_nil_iff]
        intro earlier member final
        have found : tables.finished item.pk = true :=
          List.any_eq_true.mpr ⟨earlier, member, final⟩
        exact Bool.false_ne_true (unfinished.symm.trans found)
      rw [if_pos rfl, List.filter_append, noFinal, List.nil_append]
      exact List.length_filter_le _ _
    · rw [if_neg same]
      exact kept.oneFinal pk
  · intro entity found member
    rcases List.mem_cons.mp member with sameEvent | older
    · cases sameEvent
    · obtain ⟨⟨inEntities, writing⟩, accounts⟩ :=
        kept.accounted entity found older
      rw [← record_entities item result tables] at inEntities
      refine ⟨⟨inEntities, writing⟩, ?_⟩
      rw [record_entities] at inEntities
      intro pk before written present notQueued
      obtain ⟨now, nowPresent, later, waits⟩ :=
        accounts pk before written present notQueued
      obtain ⟨next, nextPresent, outcome⟩ :=
        record_changes item result nowPresent
      rcases outcome with ⟨rfl, stays⟩ | ⟨advanced, elsewhere⟩
      · refine ⟨next, nextPresent, later, fun isQueued sameVersion => ?_⟩
        obtain ⟨owns, waiting⟩ := waits isQueued sameVersion
        exact ⟨owns, record_keeps_unfinished kept.distinct confirmed
          inEntities waiting owns stays⟩
      · exact ⟨next, nextPresent, by omega, fun isQueued =>
          absurd isQueued elsewhere⟩

/-! ## The other writers keep it -/

theorem TablesInv.confirm
    {tables : PublicationTables} {log : List PublicationEvent}
    {entities : List PublicationEntity} (kept : TablesInv tables log)
    (newDistinct : (entities.map (·.pk)).Nodup)
    (separate : ∀ entity ∈ entities, ∀ earlier ∈ tables.entities,
      earlier.pk ≠ entity.pk) :
    TablesInv { tables with entities := tables.entities ++ entities } log := by
  refine ⟨kept.logged, ?_, ?_, kept.oneFinal, ?_⟩
  · rw [List.map_append, List.nodup_append]
    refine ⟨kept.distinct, newDistinct, ?_⟩
    intro left leftMember right rightMember
    obtain ⟨earlier, earlierMember, rfl⟩ := List.mem_map.mp leftMember
    obtain ⟨entity, entityMember, rfl⟩ := List.mem_map.mp rightMember
    exact separate entity entityMember earlier earlierMember
  · intro pk change present isQueued
    obtain ⟨entity, member, rest⟩ := kept.owned pk change present isQueued
    exact ⟨entity, List.mem_append_left entities member, rest⟩
  · intro entity found member
    obtain ⟨⟨inEntities, writing⟩, accounts⟩ :=
      kept.accounted entity found member
    exact ⟨⟨List.mem_append_left entities inEntities, writing⟩, accounts⟩

theorem TablesInv.otherWrite [Unicode]
    {tables : PublicationTables} {log : List PublicationEvent} {pk : Nat}
    {change : Change} (kept : TablesInv tables log)
    (write : OtherWrite (tables.changes pk) change) :
    TablesInv (tables.setChange pk change) log := by
  obtain ⟨advances, creates⟩ := write.advances
  refine ⟨kept.logged, kept.distinct, ?_, kept.oneFinal, ?_⟩
  · intro other now present isQueued
    by_cases same : other = pk
    · subst same
      simp only [PublicationTables.setChange, if_true] at present
      cases present
      cases before : tables.changes other with
      | none => exact absurd isQueued (creates before)
      | some earlier =>
          rcases advances earlier before with sameRow | ⟨_, notQueued⟩
          · have owned := kept.owned other earlier before (by
              rw [← sameRow]
              exact isQueued)
            rw [← sameRow] at owned
            exact owned
          · exact absurd isQueued notQueued
    · simp only [PublicationTables.setChange, if_neg same] at present
      exact kept.owned other now present isQueued
  · intro entity found member
    obtain ⟨inEntities, accounts⟩ := kept.accounted entity found member
    refine ⟨inEntities, ?_⟩
    intro other before written present notQueued
    obtain ⟨now, nowPresent, later, waits⟩ :=
      accounts other before written present notQueued
    by_cases same : other = pk
    · subst same
      have next : (tables.setChange other change).changes other =
          some change := by
        simp [PublicationTables.setChange]
      refine ⟨change, next, ?_⟩
      rcases advances now nowPresent with sameRow | ⟨advanced, elsewhere⟩
      · rw [sameRow]
        exact ⟨later, waits⟩
      · exact ⟨by omega, fun isQueued => absurd isQueued elsewhere⟩
    · have next : (tables.setChange pk change).changes other = some now := by
        simp [PublicationTables.setChange, same, nowPresent]
      exact ⟨now, next, later, waits⟩

end ParishKit.Responses
