import ParishKit.Responses.PublicationRuns

/-!
# What publication guarantees

For every run of the worker, every answer of the gateway and every interleaving
with the other writers: nothing is written again once it has landed or been
refused, and a finished run leaves no proposal queued.
-/

namespace ParishKit.Responses

open ParishKit.Lib

/-! ## Every reachable state -/

section Reachable

variable [Unicode] [IsoDates]

theorem RunInv.step
    {payloadDigest : ContactRecord → String} {state next : PublicationState}
    {op : PublicationOp} (kept : RunInv payloadDigest state)
    (permitted : op.Allowed state)
    (applied : op.apply payloadDigest state = some next) :
    RunInv payloadDigest next := by
  cases op with
  | start plan expired =>
      simp only [PublicationOp.apply] at applied
      split at applied
      · cases applied
        exact kept.start permitted
      · cases applied
        exact kept.start permitted
      · cases applied
  | advance seen => exact kept.advance applied
  | crash =>
      cases applied
      exact kept.idle
  | confirm entities =>
      cases applied
      exact kept.confirm permitted.1 permitted.2
  | otherWrite pk change =>
      cases applied
      exact kept.otherWrite permitted

theorem runInv_of_reaches
    {payloadDigest : ContactRecord → String} {state : PublicationState}
    (reached : Reaches (PublicationOp.apply payloadDigest)
      (fun state op => op.Allowed state) PublicationState.initial state) :
    RunInv payloadDigest state := by
  refine reached.invariant ?_ fun _ _ _ kept permitted applied =>
    kept.step permitted applied
  exact ⟨tablesInv_initial, trivial, Or.inl rfl, trivial⟩

/-- Whatever the gateway answers and whoever else writes, in any sequence of
crashed and resumed runs: a write follows no published, invalidated or
mismatched outcome of its entity, and comes after its own attempt's read at the
plan and queue transaction at the plan; a published outcome comes right after a
read of the planned record. -/
theorem write_is_last_resort
    {payloadDigest : ContactRecord → String} {state : PublicationState}
    (reached : Reaches (PublicationOp.apply payloadDigest)
      (fun state op => op.Allowed state) PublicationState.initial state) :
    (∀ pk, state.tables.outcomes pk = loggedOutcomes pk state.log) ∧
    (∀ newer entity payload older,
      state.log = newer ++ .write entity payload :: older →
      (∀ result ∈ loggedOutcomes entity.pk older,
        result ≠ .published ∧ result ≠ .invalidated ∧
          result ≠ .failed .verifyMismatch) ∧
      ∃ found rest,
        older = .queue entity found :: .read entity entity.readSha ::
          .attempt entity :: rest ∧
        ∀ field ∈ entity.fields, ∃ change,
          found field.proposal = some change ∧
            (change.row.version = field.version ∨
              entity.queuedByPlan field.proposal change.row = true ∨
              field.marked change.row = true)) ∧
    (∀ newer entity older,
      state.log = newer ++ .outcome entity .published :: older →
      entity.plannedSha.isSome = true ∧
        ∃ rest, older = .read entity entity.plannedSha :: rest) := by
  have kept := runInv_of_reaches reached
  have sound := kept.sound
  refine ⟨kept.tables.logged, ?_, ?_⟩
  · intro newer entity payload older split
    rw [split] at sound
    obtain ⟨allowed, found, rest, before, atPlan⟩ := sound.justified
    refine ⟨?_, found, rest, before, ?_⟩
    · intro result member
      have notForbidden := allowed result member
      refine ⟨?_, ?_, ?_⟩ <;> rintro rfl <;>
        simp [AttemptResult.forbidsWrite, AttemptResult.isFinal]
          at notForbidden
    · intro field member
      obtain ⟨change, present, admitted⟩ := atPlan field member
      refine ⟨change, present, ?_⟩
      simpa [PublicationEntity.atPlan, or_assoc] using admitted
  · intro newer entity older split
    rw [split] at sound
    exact sound.justified

end Reachable

/-! ### A run that writes, seen to its end -/

/-- A digest that tells the first names apart. -/
def firstNameDigest (record : ContactRecord) : String :=
  match record "firstName" with
  | some (.text name) => String.ofList name
  | _ => ""

/-- The change of the first name, approved. -/
def firstNameApproved : Change where
  row := { firstNameChange with decision := .approved, version := 2 }
  reviews := [⟨1, 1, .approved, none, false, none, none⟩]
  generation := 1

/-- A confirmed plan that writes the approved first name. -/
def firstNameEntity : PublicationEntity where
  pk := 1
  plan := 1
  entityKind := .member
  entityKey := "8"
  fields := [⟨1, 2, .write⟩]
  distinct := by decide
  readSha := some "a"
  plannedSha := some "b"

/-- Production mode, and ParishSoft holds this first name. -/
def firstNameSeen (name : Text) : Observed :=
  ⟨true, false, .answer (some (firstNameRecord name))⟩

/-- The change is made, approved, planned and published by one run. -/
def firstNamePublication : List PublicationOp :=
  [.otherWrite 1 firstNameStart, .otherWrite 1 firstNameApproved,
    .confirm [firstNameEntity], .start 1 []] ++
    List.replicate 7 (.advance (firstNameSeen ['a'])) ++
    List.replicate 4 (.advance (firstNameSeen ['b']))

theorem firstNamePublication_allowed :
    letI := asciiUnicode
    letI := plainDates
    AllowedRun (PublicationOp.apply firstNameDigest)
      (fun state op => op.Allowed state) PublicationState.initial
      firstNamePublication := by
  let := asciiUnicode
  let := plainDates
  refine ⟨.created firstNameStart_created, ?_⟩
  rintro _ ⟨⟩
  refine ⟨.operation (.review quietFacts 1 .approved) rfl, ?_⟩
  rintro _ ⟨⟩
  refine ⟨⟨by decide, by
    simp [PublicationState.initial, PublicationTables.setChange]⟩, ?_⟩
  rintro _ ⟨⟩
  refine ⟨⟨firstNameEntity, List.mem_singleton.mpr rfl, rfl⟩, ?_⟩
  rintro _ -
  simp [AllowedRun, PublicationOp.Allowed, List.replicate]

theorem write_is_last_resort_after_publication :
    letI := asciiUnicode
    letI := plainDates
    ∃ state newer older,
      run (PublicationOp.apply firstNameDigest) PublicationState.initial
        firstNamePublication = some state ∧
      state.tables.outcomes 1 = [.published] ∧
      state.log = newer ++
        .write firstNameEntity [("firstName", ['b'])] :: older ∧
      ∃ found rest,
        older = .queue firstNameEntity found ::
          .read firstNameEntity (some "a") ::
          .attempt firstNameEntity :: rest := by
  let := asciiUnicode
  let := plainDates
  have finished : run (PublicationOp.apply firstNameDigest)
      PublicationState.initial firstNamePublication = some _ := rfl
  have reached := reaches_of_run finished firstNamePublication_allowed
  obtain ⟨_, written, _⟩ := write_is_last_resort reached
  obtain ⟨_, found, rest, before, _⟩ :=
    written [_, _] firstNameEntity [("firstName", ['b'])] _ rfl
  exact ⟨_, [_, _], _, finished, rfl, rfl, found, rest, before⟩

section Finished

variable [Unicode] [IsoDates]

/-- A finished run has one final outcome for every entity of its plan with
something to write, and no proposal waits at a version the plan queued it at. In
every state a queued proposal is a planned write of an unfinished confirmed
entity, one version after the recorded one. -/
theorem finished_run_leaves_nothing_queued
    {payloadDigest : ContactRecord → String} {state : PublicationState}
    (reached : Reaches (PublicationOp.apply payloadDigest)
      (fun state op => op.Allowed state) PublicationState.initial state) :
    (state.control = .finished →
      (∀ entity ∈ state.tables.entities, entity.plan = state.plan →
        entity.plannedSha.isSome = true →
        ((state.tables.outcomes entity.pk).filter (·.isFinal)).length = 1) ∧
      ∀ entity found, .queue entity found ∈ state.log →
        entity.plan = state.plan →
        ∀ pk before now, pk ∈ entity.writes → found pk = some before →
          before.row.execution ≠ .queued →
          state.tables.changes pk = some now →
          ¬ (now.row.execution = .queued ∧
            now.row.version = before.row.version + 1)) ∧
    ∀ pk change, state.tables.changes pk = some change →
      change.row.execution = .queued →
      ∃ entity ∈ state.tables.entities,
        entity.plannedSha.isSome = true ∧
        state.tables.finished entity.pk = false ∧
        ∃ field ∈ entity.fields, field.proposal = pk ∧
          field.outcome = .write ∧
          change.row.version = field.version + 1 := by
  have kept := runInv_of_reaches reached
  refine ⟨fun done => ?_, ?_⟩
  · have covers : Covers state.tables state.plan [] := by
      have known := kept.control
      rw [ControlInv, done] at known
      exact known
    have finished : ∀ entity ∈ state.tables.entities,
        entity.plan = state.plan → entity.plannedSha.isSome = true →
        state.tables.finished entity.pk = true := by
      intro entity member ofPlan writing
      by_contra waiting
      have left := covers entity member ofPlan writing (by simpa using waiting)
      cases left
    refine ⟨?_, ?_⟩
    · intro entity member ofPlan writing
      have final := finished entity member ofPlan writing
      obtain ⟨result, inOutcomes, isFinal⟩ := List.any_eq_true.mp final
      have some := List.length_pos_of_mem
        (List.mem_filter.mpr ⟨inOutcomes, isFinal⟩)
      exact Nat.le_antisymm (kept.tables.oneFinal entity.pk) some
    · intro entity found member ofPlan pk before now written present
        notQueued nowPresent
      rintro ⟨isQueued, sameVersion⟩
      obtain ⟨⟨inEntities, writing⟩, accounts⟩ :=
        kept.tables.accounted entity found member
      obtain ⟨row, rowPresent, _, waits⟩ :=
        accounts pk before written present notQueued
      rw [nowPresent] at rowPresent
      cases rowPresent
      have waiting := (waits isQueued sameVersion).2
      have final := finished entity inEntities ofPlan writing
      exact Bool.false_ne_true (waiting.symm.trans final)
  · intro pk change present isQueued
    obtain ⟨entity, member, writing, waiting, owns⟩ :=
      kept.tables.owned pk change present isQueued
    simp only [PublicationEntity.queuedByPlan, Bool.and_eq_true,
      List.any_eq_true, beq_iff_eq] at owns
    obtain ⟨_, field, inFields, ⟨sameProposal, isWrite⟩, version⟩ := owns
    exact ⟨entity, member, writing, waiting, field, inFields, sameProposal,
      isWrite, version⟩

end Finished

theorem finished_run_after_publication :
    letI := asciiUnicode
    letI := plainDates
    ∃ state,
      run (PublicationOp.apply firstNameDigest) PublicationState.initial
        firstNamePublication = some state ∧
      state.control = .finished ∧
      (∃ change, state.tables.changes 1 = some change ∧
        change.row.execution = .published) ∧
      ((state.tables.outcomes 1).filter (·.isFinal)).length = 1 := by
  let := asciiUnicode
  let := plainDates
  have finished : run (PublicationOp.apply firstNameDigest)
      PublicationState.initial firstNamePublication = some _ := rfl
  have reached := reaches_of_run finished firstNamePublication_allowed
  obtain ⟨done, _⟩ := finished_run_leaves_nothing_queued reached
  exact ⟨_, finished, rfl, ⟨_, rfl, rfl⟩, (done rfl).1 firstNameEntity
    (List.mem_singleton.mpr rfl) rfl rfl⟩

end ParishKit.Responses
