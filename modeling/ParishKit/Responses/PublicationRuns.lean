import ParishKit.Lib.Transition
import ParishKit.Responses.PublicationTables

/-!
# Runs of the publication worker

A run may stop at any step and a later run resumes it; other writers move the
proposals between any two steps. At every point the worker still knows why the
step it is about to take is safe.
-/

namespace ParishKit.Responses

/-! ## What the log may say -/

/-- The outcome forbids another write. -/
def AttemptResult.forbidsWrite (result : AttemptResult) : Bool :=
  result.isFinal || result == .failed .verifyMismatch

/-- Why the worker may add `event` to `older`. A write follows its attempt's own
read of the record the plan read, and the queue transaction that found every
planned proposal at the plan; a published outcome follows a read of the planned
record. -/
def Justified (event : PublicationEvent) (older : List PublicationEvent) :
    Prop :=
  match event with
  | .write entity _ =>
      (∀ result ∈ loggedOutcomes entity.pk older,
        result.forbidsWrite = false) ∧
      ∃ found rest,
        older = .queue entity found :: .read entity entity.readSha ::
          .attempt entity :: rest ∧
        ∀ field ∈ entity.fields, ∃ change,
          found field.proposal = some change ∧
            entity.atPlan field change.row = true
  | .outcome entity .published =>
      entity.plannedSha.isSome = true ∧
        ∃ rest, older = .read entity entity.plannedSha :: rest
  | _ => True

def SoundLog : List PublicationEvent → Prop
  | [] => True
  | event :: older => Justified event older ∧ SoundLog older

theorem SoundLog.justified
    {newer older : List PublicationEvent} {event : PublicationEvent}
    (sound : SoundLog (newer ++ event :: older)) :
    Justified event older := by
  induction newer with
  | nil => exact sound.1
  | cons head tail inductionHypothesis => exact inductionHypothesis sound.2

/-! ## The work that is left -/

/-- Distinct confirmed entities with something to write and no final outcome. -/
structure Workable (tables : PublicationTables)
    (items : List PublicationEntity) : Prop where
  distinct : (items.map (·.pk)).Nodup
  confirmed : ∀ item ∈ items, item ∈ tables.entities
  writing : ∀ item ∈ items, item.plannedSha.isSome = true
  waiting : ∀ item ∈ items, tables.finished item.pk = false

/-- Nothing of the plan is unfinished but `items`. -/
def Covers (tables : PublicationTables) (plan : Nat)
    (items : List PublicationEntity) : Prop :=
  ∀ entity ∈ tables.entities, entity.plan = plan →
    entity.plannedSha.isSome = true → tables.finished entity.pk = false →
    entity ∈ items

theorem workable_unfinished
    {tables : PublicationTables}
    (distinct : (tables.entities.map (·.pk)).Nodup) (plans : List Nat) :
    Workable tables (tables.unfinished plans) := by
  have selected : ∀ item ∈ tables.unfinished plans,
      item ∈ tables.entities ∧ item.plannedSha.isSome = true ∧
        tables.finished item.pk = false := by
    intro item member
    obtain ⟨inEntities, admitted⟩ := List.mem_filter.mp member
    simp only [Bool.and_eq_true, Bool.not_eq_true'] at admitted
    exact ⟨inEntities, admitted.1.2, admitted.2⟩
  refine ⟨?_, fun item member => (selected item member).1,
    fun item member => (selected item member).2.1,
    fun item member => (selected item member).2.2⟩
  exact distinct.sublist (List.filter_sublist.map _)

theorem covers_unfinished (tables : PublicationTables) (plan : Nat) :
    Covers tables plan (tables.unfinished [plan]) := by
  intro entity member samePlan writing waiting
  refine List.mem_filter.mpr ⟨member, ?_⟩
  simp [samePlan, writing, waiting]

theorem Workable.tail
    {tables : PublicationTables} {item : PublicationEntity}
    {rest : List PublicationEntity} (work : Workable tables (item :: rest)) :
    Workable tables rest where
  distinct := (List.nodup_cons.mp work.distinct).2
  confirmed other member := work.confirmed other (List.mem_cons_of_mem item member)
  writing other member := work.writing other (List.mem_cons_of_mem item member)
  waiting other member := work.waiting other (List.mem_cons_of_mem item member)

theorem Workable.head_ne
    {tables : PublicationTables} {item other : PublicationEntity}
    {rest : List PublicationEntity} (work : Workable tables (item :: rest))
    (member : other ∈ rest) : other.pk ≠ item.pk := by
  intro same
  have distinct := (List.nodup_cons.mp work.distinct).1
  exact distinct (List.mem_map.mpr ⟨other, member, same⟩)

/-- An outcome of the head leaves the rest to do. -/
theorem Workable.record_tail
    {tables : PublicationTables} {item : PublicationEntity}
    {rest : List PublicationEntity} (work : Workable tables (item :: rest))
    (result : AttemptResult) :
    Workable (item.record result tables) rest := by
  refine ⟨work.tail.distinct, ?_, work.tail.writing, ?_⟩
  · rw [record_entities]
    exact work.tail.confirmed
  · intro other member
    have different : (other.pk == item.pk) = false := by
      simpa using work.head_ne member
    rw [record_finished, work.tail.waiting other member, different]
    rfl

/-- A failed attempt leaves the head to do as well. -/
theorem Workable.record_failed
    {tables : PublicationTables} {item : PublicationEntity}
    {rest : List PublicationEntity} (work : Workable tables (item :: rest))
    {result : AttemptResult} (notFinal : result.isFinal = false) :
    Workable (item.record result tables) (item :: rest) := by
  refine ⟨work.distinct, ?_, work.writing, ?_⟩
  · rw [record_entities]
    exact work.confirmed
  · intro other member
    rw [record_finished, work.waiting other member, notFinal]
    simp

theorem Covers.record
    {tables : PublicationTables} {plan : Nat} {item : PublicationEntity}
    {rest : List PublicationEntity}
    (covers : Covers tables plan (item :: rest)) {result : AttemptResult}
    (final : result.isFinal = true) :
    Covers (item.record result tables) plan rest := by
  intro entity member samePlan writing waiting
  rw [record_entities] at member
  rw [record_finished, final, Bool.and_true, Bool.or_eq_false_iff] at waiting
  rcases List.mem_cons.mp (covers entity member samePlan writing waiting.1)
    with same | inRest
  · have different := waiting.2
    simp [same] at different
  · exact inRest

theorem mismatched_record
    {tables : PublicationTables} {item : PublicationEntity}
    {result : AttemptResult} (clean : tables.mismatched item.pk = false)
    (other : result ≠ .failed .verifyMismatch) :
    (item.record result tables).mismatched item.pk = false := by
  unfold PublicationTables.mismatched at clean ⊢
  rw [record_outcomes, if_pos rfl]
  simp only [List.contains_eq_mem, List.mem_append, List.mem_singleton,
    decide_eq_false_iff_not, not_or] at clean ⊢
  exact ⟨clean, fun same => other same.symm⟩

theorem forbidsWrite_of_outcomes
    {tables : PublicationTables} {pk : Nat} {result : AttemptResult}
    (waiting : tables.finished pk = false)
    (clean : tables.mismatched pk = false)
    (member : result ∈ tables.outcomes pk) :
    result.forbidsWrite = false := by
  have notFinal : result.isFinal = false := by
    by_contra final
    have found : tables.finished pk = true :=
      List.any_eq_true.mpr ⟨result, member, by simpa using final⟩
    exact Bool.false_ne_true (waiting.symm.trans found)
  have notMismatch : result ≠ .failed .verifyMismatch := by
    rintro rfl
    simp [PublicationTables.mismatched, member] at clean
  simp [AttemptResult.forbidsWrite, notFinal, notMismatch]

/-! ## The invariant of a run -/

/-- The log ends in the attempt's read of the record the plan read. -/
def ReadAtPlan (item : PublicationEntity) (log : List PublicationEvent) :
    Prop :=
  ∃ older, log = .read item item.readSha :: .attempt item :: older

/-- The log ends in the queue transaction of the attempt. -/
def QueuedAtPlan (item : PublicationEntity) (log : List PublicationEvent) :
    Prop :=
  ∃ found older,
    log = .queue item found :: .read item item.readSha ::
      .attempt item :: older ∧
    ∀ field ∈ item.fields, ∃ change,
      found field.proposal = some change ∧
        item.atPlan field change.row = true

/-- What must hold for an outcome to be recorded: a published one was just read
back, a retry follows no mismatch, and a closing outcome is final. -/
structure Recordable (state : PublicationState) (item : PublicationEntity)
    (result : AttemptResult) (next : AfterRecord) : Prop where
  work : Workable state.tables (item :: next.rest)
  readBack : result = .published →
    ∃ older, state.log = .read item item.plannedSha :: older
  retried : ∀ left rest, next = .retry left rest →
    result.forbidsWrite = false ∧ state.tables.mismatched item.pk = false
  closed : ∀ rest after, next = .close rest after → result.isFinal = true ∧
    (after = .finish → Covers state.tables state.plan (item :: rest))

/-- What the worker knows where it stands. -/
def ControlInv (payloadDigest : ContactRecord → String)
    (state : PublicationState) : Prop :=
  match state.control with
  | .idle => True
  | .closing rest after =>
      Workable state.tables rest ∧
        (after = .finish → Covers state.tables state.plan rest)
  | .closeReading item _ rest after =>
      Workable state.tables (item :: rest) ∧
        (after = .finish → Covers state.tables state.plan (item :: rest))
  | .entities rest => Workable state.tables rest
  | .attempting item left rest =>
      Workable state.tables (item :: rest) ∧
        (left ≠ 0 → state.tables.mismatched item.pk = false)
  | .reading item _ rest =>
      Workable state.tables (item :: rest) ∧
        state.tables.mismatched item.pk = false ∧
        ∃ older, state.log = .attempt item :: older
  | .evaluating item fresh _ rest =>
      Workable state.tables (item :: rest) ∧
        state.tables.mismatched item.pk = false ∧
        ∃ older, state.log =
          .read item (fresh.map payloadDigest) :: .attempt item :: older
  | .queueing item _ _ rest =>
      Workable state.tables (item :: rest) ∧
        state.tables.mismatched item.pk = false ∧ ReadAtPlan item state.log
  | .writing item _ _ rest =>
      Workable state.tables (item :: rest) ∧
        state.tables.mismatched item.pk = false ∧ QueuedAtPlan item state.log
  | .verifying item _ rest =>
      Workable state.tables (item :: rest) ∧
        state.tables.mismatched item.pk = false
  | .recording item result next => Recordable state item result next
  | .finished => Covers state.tables state.plan []

/-- The invariant of every reachable state. -/
structure RunInv (payloadDigest : ContactRecord → String)
    (state : PublicationState) : Prop where
  tables : TablesInv state.tables state.log
  sound : SoundLog state.log
  planned : state.control = .idle ∨
    ∃ entity ∈ state.tables.entities, entity.plan = state.plan
  control : ControlInv payloadDigest state

section Steps

variable {payloadDigest : ContactRecord → String} {state : PublicationState}

theorem RunInv.idle (kept : RunInv payloadDigest state) :
    RunInv payloadDigest (state.goto .idle) where
  tables := kept.tables
  sound := kept.sound
  planned := Or.inl rfl
  control := trivial

theorem RunInv.running
    (kept : RunInv payloadDigest state) (running : state.control ≠ .idle) :
    ∃ entity ∈ state.tables.entities, entity.plan = state.plan :=
  kept.planned.resolve_left running

/-- A step that only moves the control, and may log something silent. -/
theorem RunInv.goto
    (kept : RunInv payloadDigest state) (running : state.control ≠ .idle)
    {next : Control}
    (control : ControlInv payloadDigest (state.goto next)) :
    RunInv payloadDigest (state.goto next) where
  tables := kept.tables
  sound := kept.sound
  planned := Or.inr (kept.running running)
  control := control

theorem RunInv.stop
    (kept : RunInv payloadDigest state) (running : state.control ≠ .idle)
    {rest : List PublicationEntity} (work : Workable state.tables rest) :
    RunInv payloadDigest (state.stop rest) where
  tables := kept.tables
  sound := kept.sound
  planned := Or.inr (kept.running running)
  control := work

theorem RunInv.emit
    (kept : RunInv payloadDigest state) (running : state.control ≠ .idle)
    {event : PublicationEvent} {next : Control}
    (silent : event.silent = true) (justified : Justified event state.log)
    (control : ControlInv payloadDigest ((state.emit event).goto next)) :
    RunInv payloadDigest ((state.emit event).goto next) where
  tables := kept.tables.emit silent
  sound := ⟨justified, kept.sound⟩
  planned := Or.inr (kept.running running)
  control := control

/-- An invalidation that goes on with the next entity can always be recorded. -/
theorem recordable_invalidated
    {item : PublicationEntity} {rest : List PublicationEntity}
    (work : Workable state.tables (item :: rest)) :
    Recordable state item .invalidated (.next rest) where
  work := work
  readBack impossible := by cases impossible
  retried _ _ impossible := by cases impossible
  closed _ _ impossible := by cases impossible

theorem recordable_published
    {item : PublicationEntity} {rest : List PublicationEntity}
    (work : Workable state.tables (item :: rest))
    (readBack : ∃ older, state.log = .read item item.plannedSha :: older) :
    Recordable state item .published (.next rest) where
  work := work
  readBack _ := readBack
  retried _ _ impossible := by cases impossible
  closed _ _ impossible := by cases impossible

theorem recordable_retry
    {item : PublicationEntity} {rest : List PublicationEntity} {left : Nat}
    {kind : FailureKind} (work : Workable state.tables (item :: rest))
    (clean : state.tables.mismatched item.pk = false)
    (other : kind ≠ .verifyMismatch) :
    Recordable state item (.failed kind) (.retry left rest) where
  work := work
  readBack impossible := by cases impossible
  retried _ _ _ :=
    ⟨by simp [AttemptResult.forbidsWrite, AttemptResult.isFinal, other], clean⟩
  closed _ _ impossible := by cases impossible

theorem recordable_mismatch
    {item : PublicationEntity} {rest : List PublicationEntity}
    (work : Workable state.tables (item :: rest)) :
    Recordable state item (.failed .verifyMismatch) (.next rest) where
  work := work
  readBack impossible := by cases impossible
  retried _ _ impossible := by cases impossible
  closed _ _ impossible := by cases impossible

theorem recordable_close
    {item : PublicationEntity} {rest : List PublicationEntity}
    {after : AfterClose} {result : AttemptResult}
    (work : Workable state.tables (item :: rest))
    (covers : after = .finish →
      Covers state.tables state.plan (item :: rest))
    (final : result.isFinal = true)
    (readBack : result = .published →
      ∃ older, state.log = .read item item.plannedSha :: older) :
    Recordable state item result (.close rest after) where
  work := work
  readBack := readBack
  retried _ _ impossible := by cases impossible
  closed _ _ same := by
    cases same
    exact ⟨final, covers⟩

/-- Recording an outcome keeps the invariant. -/
theorem RunInv.record
    (kept : RunInv payloadDigest state) {item : PublicationEntity}
    {result : AttemptResult} {next : AfterRecord}
    (running : state.control ≠ .idle)
    (ready : Recordable state item result next) :
    RunInv payloadDigest
      (({ state with tables := item.record result state.tables }.emit
        (.outcome item result)).goto (next.control item)) := by
  have confirmed := ready.work.confirmed item List.mem_cons_self
  have waiting := ready.work.waiting item List.mem_cons_self
  have writing := ready.work.writing item List.mem_cons_self
  refine ⟨kept.tables.record result confirmed waiting, ⟨?_, kept.sound⟩,
    Or.inr ?_, ?_⟩
  · cases result with
    | published => exact ⟨writing, ready.readBack rfl⟩
    | invalidated => trivial
    | failed kind => trivial
  · obtain ⟨entity, member, samePlan⟩ := kept.running running
    refine ⟨entity, ?_, samePlan⟩
    change entity ∈ (item.record result state.tables).entities
    rw [record_entities]
    exact member
  · cases next with
    | retry left rest =>
        obtain ⟨allowed, clean⟩ := ready.retried left rest rfl
        rw [AttemptResult.forbidsWrite, Bool.or_eq_false_iff] at allowed
        refine ⟨ready.work.record_failed allowed.1, fun _ => ?_⟩
        exact mismatched_record clean (by simpa using allowed.2)
    | next rest => exact ready.work.record_tail result
    | close rest after =>
        obtain ⟨final, covers⟩ := ready.closed rest after rfl
        exact ⟨ready.work.record_tail result,
          fun finishing => (covers finishing).record final⟩

/-- The queue transaction keeps the invariant. -/
theorem RunInv.queue
    (kept : RunInv payloadDigest state) {item : PublicationEntity}
    {payload : List (String × Text)} {left : Nat}
    {rest : List PublicationEntity} (running : state.control ≠ .idle)
    (work : Workable state.tables (item :: rest))
    (clean : state.tables.mismatched item.pk = false)
    (readAt : ReadAtPlan item state.log)
    (queueable : item.queueable state.tables = true) :
    RunInv payloadDigest
      (({ state with tables := item.queue state.tables }.emit
        (.queue item state.tables.changes)).goto
          (.writing item payload left rest)) := by
  have confirmed := work.confirmed item List.mem_cons_self
  have waiting := work.waiting item List.mem_cons_self
  have writing := work.writing item List.mem_cons_self
  refine ⟨kept.tables.queue confirmed writing waiting queueable,
    ⟨trivial, kept.sound⟩, Or.inr (kept.running running), ?_, clean, ?_⟩
  · exact ⟨work.distinct, work.confirmed, work.writing, work.waiting⟩
  · obtain ⟨older, logged⟩ := readAt
    refine ⟨state.tables.changes, older,
      congrArg (PublicationEvent.queue item _ :: ·) logged, ?_⟩
    intro field member
    have admitted := List.all_eq_true.mp queueable field member
    exact (Option.any_eq_true _ _).mp admitted

/-- The evaluation of an attempt keeps the invariant. -/
theorem RunInv.evaluate [Unicode] [IsoDates]
    (kept : RunInv payloadDigest state) {item : PublicationEntity}
    {fresh : Option ContactRecord} {left : Nat}
    {rest : List PublicationEntity} (seen : Observed)
    (here : state.control = .evaluating item fresh left rest) :
    RunInv payloadDigest
      (evaluateAttempt payloadDigest seen state item fresh left rest) := by
  have running : state.control ≠ .idle := by simp [here]
  have known := kept.control
  simp only [ControlInv, here] at known
  obtain ⟨work, clean, older, logged⟩ := known
  have invalidated : RunInv payloadDigest
      (state.goto (.recording item .invalidated (.next rest))) :=
    kept.goto running (recordable_invalidated work)
  unfold evaluateAttempt
  dsimp only
  split
  · rename_i landed
    simp only [Bool.and_eq_true, beq_iff_eq] at landed
    refine kept.goto running (recordable_published work
      ⟨.attempt item :: older, ?_⟩)
    rw [← landed.2]
    exact logged
  · split
    · exact invalidated
    · rename_i unread
      have sameRead : fresh.map payloadDigest = item.readSha := by
        simp only [Bool.or_eq_true, not_or, bne_iff_ne, ne_eq, not_not]
          at unread
        exact unread.2
      split
      · exact kept.idle
      · split
        · exact invalidated
        · split
          · exact invalidated
          · split
            · exact kept.stop running work.tail
            · refine kept.goto running ⟨work, clean, older, ?_⟩
              rw [← sameRead]
              exact logged

/-- A step of a closing loop. -/
theorem RunInv.advance_closing [Unicode] [IsoDates]
    (kept : RunInv payloadDigest state) {seen : Observed}
    {next : PublicationState} {rest : List PublicationEntity} {after : AfterClose}
    (here : state.control = .closing rest after)
    (advanced : advanceRun payloadDigest seen state = some next) :
    RunInv payloadDigest next := by
  have known := kept.control
  have distinct := kept.tables.distinct
  have running : state.control ≠ .idle := by simp [here]
  simp only [ControlInv, here] at known
  obtain ⟨work, covers⟩ := known
  cases rest with
  | nil =>
      cases after with
      | attempts =>
          simp only [advanceRun, here, Option.some.injEq] at advanced
          subst advanced
          exact kept.goto running (workable_unfinished distinct _)
      | finish =>
          simp only [advanceRun, here, Option.some.injEq] at advanced
          subst advanced
          exact kept.goto running (covers rfl)
  | cons item rest =>
      simp only [advanceRun, here] at advanced
      split at advanced
      · cases advanced
        exact kept.goto running ⟨work, covers⟩
      · cases advanced
        exact kept.goto running
          (recordable_close work covers rfl (by simp))

/-- The read back of an entity that is being closed. -/
theorem RunInv.advance_closeReading [Unicode] [IsoDates]
    (kept : RunInv payloadDigest state) {seen : Observed}
    {next : PublicationState} {item : PublicationEntity} {allQueued : Bool}
    {rest : List PublicationEntity} {after : AfterClose}
    (here : state.control = .closeReading item allQueued rest after)
    (advanced : advanceRun payloadDigest seen state = some next) :
    RunInv payloadDigest next := by
  have known := kept.control
  have running : state.control ≠ .idle := by simp [here]
  simp only [ControlInv, here] at known
  obtain ⟨work, covers⟩ := known
  simp only [advanceRun, here] at advanced
  cases answered : seen.gateway with
  | error failure =>
      simp only [answered, Option.some.injEq] at advanced
      subst advanced
      exact kept.goto running
        (recordable_close work covers rfl (by simp))
  | answer fresh =>
      simp only [answered] at advanced
      split at advanced
      · rename_i landed
        simp only [Bool.and_eq_true, beq_iff_eq] at landed
        cases advanced
        refine kept.emit running rfl trivial
          (recordable_close work covers rfl fun _ => ⟨state.log, ?_⟩)
        change PublicationEvent.read item (fresh.map payloadDigest) ::
          state.log = _
        rw [landed.2]
      · cases advanced
        exact kept.emit running rfl trivial
          (recordable_close work covers rfl (by simp))

theorem RunInv.advance_entities [Unicode] [IsoDates]
    (kept : RunInv payloadDigest state) {seen : Observed}
    {next : PublicationState} {rest : List PublicationEntity}
    (here : state.control = .entities rest)
    (advanced : advanceRun payloadDigest seen state = some next) :
    RunInv payloadDigest next := by
  have known := kept.control
  have distinct := kept.tables.distinct
  have running : state.control ≠ .idle := by simp [here]
  simp only [ControlInv, here] at known
  cases rest with
  | nil =>
      simp only [advanceRun, here, Option.some.injEq] at advanced
      subst advanced
      exact kept.goto running ⟨workable_unfinished distinct _,
        fun _ => covers_unfinished state.tables state.plan⟩
  | cons item rest =>
      simp only [advanceRun, here, Option.some.injEq] at advanced
      subst advanced
      refine kept.goto running ⟨known, fun someLeft => ?_⟩
      change state.tables.mismatched item.pk = false
      by_contra mismatched
      rw [Bool.not_eq_false] at mismatched
      exact someLeft (if_pos mismatched)

/-- The start of an attempt. -/
theorem RunInv.advance_attempting [Unicode] [IsoDates]
    (kept : RunInv payloadDigest state) {seen : Observed}
    {next : PublicationState} {item : PublicationEntity} {left : Nat}
    {rest : List PublicationEntity}
    (here : state.control = .attempting item left rest)
    (advanced : advanceRun payloadDigest seen state = some next) :
    RunInv payloadDigest next := by
  have known := kept.control
  have running : state.control ≠ .idle := by simp [here]
  simp only [ControlInv, here] at known
  obtain ⟨work, clean⟩ := known
  simp only [advanceRun, here] at advanced
  cases left with
  | zero =>
      cases advanced
      exact kept.goto running work.tail
  | succ left =>
      simp only at advanced
      split at advanced
      · cases advanced
        exact kept.goto running work.tail
      · split at advanced
        · cases advanced
          exact kept.stop running work.tail
        · split at advanced
          · cases advanced
            exact kept.emit running rfl trivial
              (recordable_invalidated work)
          · cases advanced
            exact kept.emit running rfl trivial
              ⟨work, clean (Nat.succ_ne_zero left), state.log, rfl⟩

theorem RunInv.advance_reading [Unicode] [IsoDates]
    (kept : RunInv payloadDigest state) {seen : Observed}
    {next : PublicationState} {item : PublicationEntity} {left : Nat}
    {rest : List PublicationEntity}
    (here : state.control = .reading item left rest)
    (advanced : advanceRun payloadDigest seen state = some next) :
    RunInv payloadDigest next := by
  have known := kept.control
  have running : state.control ≠ .idle := by simp [here]
  simp only [ControlInv, here] at known
  obtain ⟨work, clean, older, logged⟩ := known
  simp only [advanceRun, here] at advanced
  cases answered : seen.gateway with
  | error failure =>
      simp only [answered, Option.some.injEq] at advanced
      subst advanced
      exact kept.goto running (recordable_retry work clean (by simp))
  | answer fresh =>
      simp only [answered, Option.some.injEq] at advanced
      subst advanced
      refine kept.emit running rfl trivial ⟨work, clean, older, ?_⟩
      exact congrArg (PublicationEvent.read item _ :: ·) logged

theorem RunInv.advance_queueing [Unicode] [IsoDates]
    (kept : RunInv payloadDigest state) {seen : Observed}
    {next : PublicationState} {item : PublicationEntity}
    {payload : List (String × Text)} {left : Nat}
    {rest : List PublicationEntity}
    (here : state.control = .queueing item payload left rest)
    (advanced : advanceRun payloadDigest seen state = some next) :
    RunInv payloadDigest next := by
  have known := kept.control
  have running : state.control ≠ .idle := by simp [here]
  simp only [ControlInv, here] at known
  obtain ⟨work, clean, older, logged⟩ := known
  simp only [advanceRun, here] at advanced
  split at advanced
  · cases advanced
    exact kept.stop running work.tail
  · split at advanced
    · rename_i admitted
      have queueable := (Bool.and_eq_true_iff.mp admitted).1
      cases advanced
      exact kept.queue running work clean ⟨older, logged⟩ queueable
    · cases advanced
      exact kept.goto running (recordable_invalidated work)

/-- The write itself: nothing it must not follow has been recorded. -/
theorem RunInv.advance_writing [Unicode] [IsoDates]
    (kept : RunInv payloadDigest state) {seen : Observed}
    {next : PublicationState} {item : PublicationEntity}
    {payload : List (String × Text)} {left : Nat}
    {rest : List PublicationEntity}
    (here : state.control = .writing item payload left rest)
    (advanced : advanceRun payloadDigest seen state = some next) :
    RunInv payloadDigest next := by
  have known := kept.control
  have running : state.control ≠ .idle := by simp [here]
  simp only [ControlInv, here] at known
  obtain ⟨work, clean, queuedAt⟩ := known
  have justified : Justified (.write item payload) state.log := by
    refine ⟨?_, queuedAt⟩
    rw [← kept.tables.logged item.pk]
    intro result member
    exact forbidsWrite_of_outcomes
      (work.waiting item List.mem_cons_self) clean member
  simp only [advanceRun, here] at advanced
  cases answered : seen.gateway with
  | error failure =>
      simp only [answered, Option.some.injEq] at advanced
      subst advanced
      exact kept.emit running rfl justified
        (recordable_retry work clean (by simp))
  | answer fresh =>
      simp only [answered, Option.some.injEq] at advanced
      subst advanced
      exact kept.emit running rfl justified ⟨work, clean⟩

theorem RunInv.advance_verifying [Unicode] [IsoDates]
    (kept : RunInv payloadDigest state) {seen : Observed}
    {next : PublicationState} {item : PublicationEntity} {left : Nat}
    {rest : List PublicationEntity}
    (here : state.control = .verifying item left rest)
    (advanced : advanceRun payloadDigest seen state = some next) :
    RunInv payloadDigest next := by
  have known := kept.control
  have running : state.control ≠ .idle := by simp [here]
  simp only [ControlInv, here] at known
  obtain ⟨work, clean⟩ := known
  simp only [advanceRun, here] at advanced
  cases answered : seen.gateway with
  | error failure =>
      simp only [answered, Option.some.injEq] at advanced
      subst advanced
      exact kept.goto running (recordable_retry work clean (by simp))
  | answer fresh =>
      simp only [answered] at advanced
      split at advanced
      · rename_i landed
        simp only [Bool.and_eq_true, beq_iff_eq] at landed
        cases advanced
        refine kept.emit running rfl trivial
          (recordable_published work ⟨state.log, ?_⟩)
        change PublicationEvent.read item (fresh.map payloadDigest) ::
          state.log = _
        rw [landed.2]
      · cases advanced
        exact kept.emit running rfl trivial (recordable_mismatch work)

/-- Every step of the run keeps the invariant. -/
theorem RunInv.advance [Unicode] [IsoDates]
    (kept : RunInv payloadDigest state) {seen : Observed}
    {next : PublicationState}
    (advanced : advanceRun payloadDigest seen state = some next) :
    RunInv payloadDigest next := by
  cases here : state.control with
  | idle => simp [advanceRun, here] at advanced
  | finished => simp [advanceRun, here] at advanced
  | closing rest after => exact kept.advance_closing here advanced
  | closeReading item allQueued rest after => exact kept.advance_closeReading here advanced
  | entities rest => exact kept.advance_entities here advanced
  | attempting item left rest => exact kept.advance_attempting here advanced
  | reading item left rest => exact kept.advance_reading here advanced
  | evaluating item fresh left rest =>
      simp only [advanceRun, here, Option.some.injEq] at advanced
      subst advanced
      exact kept.evaluate seen here
  | queueing item payload left rest => exact kept.advance_queueing here advanced
  | writing item payload left rest => exact kept.advance_writing here advanced
  | verifying item left rest => exact kept.advance_verifying here advanced
  | recording item result next =>
      have running : state.control ≠ .idle := by simp [here]
      have known := kept.control
      simp only [ControlInv, here] at known
      simp only [advanceRun, here] at advanced
      split at advanced
      · cases advanced
        exact kept.idle
      · cases advanced
        exact kept.record running known

theorem RunInv.start
    (kept : RunInv payloadDigest state) {plan : Nat} {expired : List Nat}
    (confirmed : ∃ entity ∈ state.tables.entities, entity.plan = plan) :
    RunInv payloadDigest (startRun plan expired state) where
  tables := kept.tables
  sound := kept.sound
  planned := Or.inr confirmed
  control := ⟨workable_unfinished kept.tables.distinct _, by simp⟩

/-- What the worker knows survives any change of the tables that keeps the
outcomes, keeps the confirmed entities and adds nothing to its plan. -/
theorem ControlInv.mono
    {tables : PublicationTables} (known : ControlInv payloadDigest state)
    (sameOutcomes : tables.outcomes = state.tables.outcomes)
    (more : ∀ entity ∈ state.tables.entities, entity ∈ tables.entities)
    (samePlan : state.control ≠ .idle → ∀ entity ∈ tables.entities,
      entity.plan = state.plan → entity ∈ state.tables.entities) :
    ControlInv payloadDigest { state with tables } := by
  have finishedEq : ∀ pk, tables.finished pk = state.tables.finished pk := by
    simp [PublicationTables.finished, sameOutcomes]
  have mismatchedEq : ∀ pk,
      tables.mismatched pk = state.tables.mismatched pk := by
    simp [PublicationTables.mismatched, sameOutcomes]
  have workable {items : List PublicationEntity}
      (work : Workable state.tables items) : Workable tables items :=
    ⟨work.distinct,
      fun item member => more item (work.confirmed item member), work.writing,
      fun item member => (finishedEq _).trans (work.waiting item member)⟩
  have covered (running : state.control ≠ .idle)
      {items : List PublicationEntity}
      (covers : Covers state.tables state.plan items) :
      Covers tables state.plan items := by
    intro entity member ofPlan writing waiting
    rw [finishedEq] at waiting
    exact covers entity (samePlan running entity member ofPlan) ofPlan writing
      waiting
  unfold ControlInv at known ⊢
  cases here : state.control with
  | idle => trivial
  | closing rest after =>
      rw [here] at known
      exact ⟨workable known.1, fun finishing =>
        covered (by simp [here]) (known.2 finishing)⟩
  | closeReading item allQueued rest after =>
      rw [here] at known
      exact ⟨workable known.1, fun finishing =>
        covered (by simp [here]) (known.2 finishing)⟩
  | entities rest =>
      rw [here] at known
      exact workable known
  | attempting item left rest =>
      rw [here] at known
      exact ⟨workable known.1, fun some =>
        (mismatchedEq _).trans (known.2 some)⟩
  | reading item left rest =>
      rw [here] at known
      exact ⟨workable known.1, (mismatchedEq _).trans known.2.1, known.2.2⟩
  | evaluating item fresh left rest =>
      rw [here] at known
      exact ⟨workable known.1, (mismatchedEq _).trans known.2.1, known.2.2⟩
  | queueing item payload left rest =>
      rw [here] at known
      exact ⟨workable known.1, (mismatchedEq _).trans known.2.1, known.2.2⟩
  | writing item payload left rest =>
      rw [here] at known
      exact ⟨workable known.1, (mismatchedEq _).trans known.2.1, known.2.2⟩
  | verifying item left rest =>
      rw [here] at known
      exact ⟨workable known.1, (mismatchedEq _).trans known.2⟩
  | recording item result next =>
      rw [here] at known
      refine ⟨workable known.work, known.readBack, ?_, ?_⟩
      · intro left rest isRetry
        obtain ⟨allowed, clean⟩ := known.retried left rest isRetry
        exact ⟨allowed, (mismatchedEq _).trans clean⟩
      · intro rest after isClose
        obtain ⟨final, covers⟩ := known.closed rest after isClose
        exact ⟨final, fun finishing =>
          covered (by simp [here]) (covers finishing)⟩
  | finished =>
      rw [here] at known
      exact covered (by simp [here]) known

theorem RunInv.confirm
    (kept : RunInv payloadDigest state) {entities : List PublicationEntity}
    (newDistinct : (entities.map (·.pk)).Nodup)
    (separate : ∀ entity ∈ entities,
      state.tables.outcomes entity.pk = [] ∧
        ∀ earlier ∈ state.tables.entities,
          earlier.pk ≠ entity.pk ∧ earlier.plan ≠ entity.plan) :
    RunInv payloadDigest { state with
      tables := { state.tables with
        entities := state.tables.entities ++ entities } } := by
  refine ⟨kept.tables.confirm newDistinct ?_, kept.sound, ?_, ?_⟩
  · intro entity member earlier inEarlier
    exact ((separate entity member).2 earlier inEarlier).1
  · rcases kept.planned with isIdle | ⟨entity, member, samePlan⟩
    · exact Or.inl isIdle
    · exact Or.inr ⟨entity, List.mem_append_left entities member, samePlan⟩
  · refine kept.control.mono rfl ?_ ?_
    · intro entity member
      exact List.mem_append_left entities member
    · intro running entity member ofPlan
      obtain ⟨earlier, inEarlier, samePlan⟩ := kept.running running
      rcases List.mem_append.mp member with old | new
      · exact old
      · have different := ((separate entity new).2 earlier inEarlier).2
        exact absurd (samePlan.trans ofPlan.symm) different

theorem RunInv.otherWrite [Unicode]
    (kept : RunInv payloadDigest state) {pk : Nat} {change : Change}
    (write : OtherWrite (state.tables.changes pk) change) :
    RunInv payloadDigest { state with
      tables := state.tables.setChange pk change } where
  tables := kept.tables.otherWrite write
  sound := kept.sound
  planned := kept.planned
  control := kept.control.mono rfl (fun _ member => member)
    fun _ _ member _ => member

end Steps

end ParishKit.Responses
