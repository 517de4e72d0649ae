import ParishKit.Runner.LockFile

/-!
# Safety of the runners' lock

Recovery is serialized by the lock on the recovery file; release is not. While
no runner creates the file between another's two steps of its release, the file
each one unlinks is the stale one it judged or its own.
-/

namespace ParishKit.Runner

open ParishKit.Lib

/-- What a step may do to a lock: a release unlinks the runner's own file only,
and while the file holds the metadata of a lock that is not stale, no other
runner acquires and no other runner removes or changes it. -/
structure Protected (staleAfter : Option Int) (state : LockState)
    (event : LockEvent) (next : LockState) : Prop where
  release : ∀ runner fails, event = .acts runner (.unlink fails) →
    state.stage runner = .releasing → next.file ≠ state.file →
    state.metadata.map (·.token) = some runner
  acquire : ∀ metadata, state.metadata = some metadata →
    isLockStale staleAfter state.now metadata = false →
    ∀ runner, runner ≠ metadata.token → next.stage runner = .holding →
      state.stage runner = .holding
  remove : ∀ metadata, state.metadata = some metadata →
    isLockStale staleAfter state.now metadata = false →
    next.file ≠ state.file → ∃ step, event = .acts metadata.token step

/-- A runner creates the lock file only while no runner is between the two steps
of its release. -/
def NoneReleasing (state : LockState) (event : LockEvent) : Prop :=
  ∀ runner, event = .acts runner .openExclusive → state.file = none →
    ∀ other, state.stage other ≠ .releasing

/-- What is so while a runner is at a stage. -/
def Fits (staleAfter : Option Int) (now : Int) (file : Option DiskFile)
    (guard : Option Nat) (runner : Nat) : Stage → Prop
  | .idle | .waiting _ | .holding | .done | .crashed => True
  | .opening _ | .reading _ | .judging _ _ | .reopening _ => guard = some runner
  | .confirming _ seen =>
      guard = some runner ∧ isLockStale staleAfter now seen = true
  | .removing _ =>
      guard = some runner ∧ ∀ found ∈ file, ∀ metadata ∈ found.metadata,
        isLockStale staleAfter now metadata = true
  | .writing _ | .cleaning =>
      guard = some runner ∧ ∀ found ∈ file, found.creator = runner
  | .releasing =>
      ∀ found ∈ file, found.metadata.map (·.token) = some runner

structure LockInvariant (staleAfter : Option Int) (state : LockState) : Prop where
  creator : ∀ found ∈ state.file, ∀ metadata ∈ found.metadata,
    metadata.token = found.creator
  fits : ∀ runner, Fits staleAfter state.now state.file state.guard runner
    (state.stage runner)

section

variable {staleAfter : Option Int} {state next : LockState}

theorem initial_invariant (now : Int) :
    LockInvariant staleAfter (LockState.initial now) :=
  ⟨nofun, fun _ => trivial⟩

/-- What is stale stays stale. -/
theorem isLockStale_later
    {now later : Int} {metadata : LockMetadata} (le : now ≤ later)
    (stale : isLockStale staleAfter now metadata = true) :
    isLockStale staleAfter later metadata = true := by
  cases staleAfter with
  | none => cases stale
  | some limit =>
      have before : limit < now - metadata.startTime := of_decide_eq_true stale
      exact decide_eq_true (by omega)

/-- A runner's stage does not mind a later clock, a removed file or another
runner's guard. -/
theorem Fits.keep
    {now later : Int} {file file' : Option DiskFile} {guard guard' : Option Nat}
    {runner : Nat} {stage : Stage} (le : now ≤ later)
    (kept : ∀ found ∈ file', found ∈ file)
    (guarded : guard = some runner → guard' = some runner)
    (fits : Fits staleAfter now file guard runner stage) :
    Fits staleAfter later file' guard' runner stage := by
  cases stage with
  | idle | waiting | holding | done | crashed => trivial
  | opening | reading | judging | reopening => exact guarded fits
  | confirming startTime seen =>
      exact ⟨guarded fits.1, isLockStale_later le fits.2⟩
  | removing =>
      exact ⟨guarded fits.1, fun found isFound metadata isMetadata =>
        isLockStale_later le (fits.2 found (kept found isFound) metadata
          isMetadata)⟩
  | writing | cleaning =>
      exact ⟨guarded fits.1, fun found isFound => fits.2 found (kept found isFound)⟩
  | releasing => exact fun found isFound => fits found (kept found isFound)

/-- The other runners are where they were; the guard is a runner's own. -/
theorem fits_goTo
    (invariant : LockInvariant staleAfter state) {runner : Nat} {stage : Stage}
    {file : Option DiskFile} {guard : Option Nat}
    (kept : ∀ found ∈ file, found ∈ state.file)
    (guarded : ∀ other ≠ runner, state.guard = some other → guard = some other)
    (fits : Fits staleAfter state.now file guard runner stage) (other : Nat) :
    Fits staleAfter state.now file guard other
      (Function.update state.stage runner stage other) := by
  by_cases same : other = runner
  · subst same
    rw [Function.update_self]
    exact fits
  · rw [Function.update_of_ne same]
    exact (invariant.fits other).keep (Int.le_refl _) kept (guarded other same)

/-- A step that changes neither the file nor the guard. -/
theorem goTo_invariant
    (invariant : LockInvariant staleAfter state) {runner : Nat} {stage : Stage}
    (fits : Fits staleAfter state.now state.file state.guard runner stage) :
    LockInvariant staleAfter (state.goTo runner stage) :=
  ⟨invariant.creator, fits_goTo invariant (fun _ isFound => isFound)
    (fun _ _ isGuard => isGuard) fits⟩

/-- A step that may remove the file. -/
theorem remove_invariant
    (invariant : LockInvariant staleAfter state) {runner : Nat} {stage : Stage}
    {file : Option DiskFile} (kept : ∀ found ∈ file, found ∈ state.file)
    (fits : Fits staleAfter state.now file state.guard runner stage) :
    LockInvariant staleAfter ((state.setFile file).goTo runner stage) :=
  ⟨fun found isFound => invariant.creator found (kept found isFound),
    fits_goTo invariant kept (fun _ _ isGuard => isGuard) fits⟩

/-- While a runner has the guard, the others are at none of the stages that need
it. -/
theorem Fits.of_guarded
    {now : Int} {file file' : Option DiskFile} {guard : Option Nat}
    {runner other : Nat} {stage : Stage} (different : other ≠ runner)
    (notReleasing : stage = .releasing → ∀ found ∈ file',
      found.metadata.map (·.token) = some other)
    (fits : Fits staleAfter now file (some runner) other stage) :
    Fits staleAfter now file' guard other stage := by
  have notGuard : some runner ≠ some other := fun same =>
    different (Option.some.inj same).symm
  cases stage with
  | idle | waiting | holding | done | crashed => trivial
  | opening | reading | judging | reopening => exact absurd fits notGuard
  | confirming | removing | writing | cleaning => exact absurd fits.1 notGuard
  | releasing => exact notReleasing rfl

/-- An exclusive open. -/
theorem openExclusive_invariant
    (invariant : LockInvariant staleAfter state) {runner : Nat} {startTime : Int}
    {found : Stage} (guarded : state.guard = some runner)
    (noneReleasing : state.file = none → ∀ other, state.stage other ≠ .releasing)
    (fits : Fits staleAfter state.now state.file state.guard runner found) :
    LockInvariant staleAfter (state.openExclusive runner startTime found) := by
  unfold LockState.openExclusive
  cases isFile : state.file with
  | some file => exact goTo_invariant invariant fits
  | none =>
      refine ⟨?_, fun other => ?_⟩
      · rintro created ⟨⟩ metadata isMetadata
        cases isMetadata
      · change Fits staleAfter state.now (some ⟨runner, none⟩) state.guard other
          (Function.update state.stage runner (.writing startTime) other)
        by_cases same : other = runner
        · subst same
          rw [Function.update_self]
          refine ⟨guarded, ?_⟩
          rintro created ⟨⟩
          rfl
        · rw [Function.update_of_ne same, guarded]
          refine Fits.of_guarded same (fun isReleasing => ?_)
            (guarded ▸ invariant.fits other)
          exact absurd isReleasing (noneReleasing isFile other)

/-- A write: the file is the runner's own, if it is still there. -/
theorem written_invariant
    (invariant : LockInvariant staleAfter state) {runner : Nat} {startTime : Int}
    {stage : Stage} (writing : state.stage runner = .writing startTime)
    (after : stage = .holding ∨ stage = .cleaning) :
    LockInvariant staleAfter
      ((state.setFile (state.written runner startTime)).goTo runner stage) := by
  obtain ⟨guarded, isOwn⟩ : state.guard = some runner ∧
      ∀ found ∈ state.file, found.creator = runner := by
    have fits := invariant.fits runner
    rwa [writing] at fits
  have isWritten : ∀ found ∈ state.written runner startTime,
      found = ⟨runner, some ⟨runner, startTime⟩⟩ ∧ ∃ before ∈ state.file,
        before.creator = runner := by
    intro found isFound
    obtain ⟨before, isBefore, rfl⟩ := Option.map_eq_some_iff.mp isFound
    have creator := isOwn before isBefore
    rw [if_pos creator]
    exact ⟨by rw [creator], before, isBefore, creator⟩
  refine ⟨?_, fun other => ?_⟩
  · intro found isFound metadata isMetadata
    rw [(isWritten found isFound).1] at isMetadata ⊢
    cases isMetadata
    rfl
  · change Fits staleAfter state.now (state.written runner startTime) state.guard
      other (Function.update state.stage runner stage other)
    by_cases same : other = runner
    · subst same
      rw [Function.update_self]
      rcases after with rfl | rfl
      · trivial
      · exact ⟨guarded, fun found isFound => by rw [(isWritten found isFound).1]⟩
    · rw [Function.update_of_ne same, guarded]
      refine Fits.of_guarded same (fun isReleasing found isFound => ?_)
        (guarded ▸ invariant.fits other)
      -- The releasing runner's own file would be this runner's.
      obtain ⟨_, before, isBefore, creator⟩ := isWritten found isFound
      have fits := invariant.fits other
      rw [isReleasing] at fits
      obtain ⟨metadata, isMetadata, token⟩ :=
        Option.map_eq_some_iff.mp (fits before isBefore)
      have byCreator := invariant.creator before isBefore metadata isMetadata
      exact absurd (token ▸ byCreator.trans creator) same

/-! ## One step -/

/-- What a step of a runner does, from its stage. -/
inductive Acted (staleAfter : Option Int) (state : LockState) (runner : Nat) :
    LockStep → Stage → LockState → Prop where
  | moves {step : LockStep} {stage target : Stage} (waits : target ≠ .holding)
      (fits : Fits staleAfter state.now state.file state.guard runner stage →
        Fits staleAfter state.now state.file state.guard runner target) :
      Acted staleAfter state runner step stage (state.goTo runner target)
  | enters {startTime : Int} (free : state.guard = none) :
      Acted staleAfter state runner .enterGuard (.waiting startTime)
        ((state.setGuard (some runner)).goTo runner (.opening startTime))
  | opens {startTime : Int} {stage found : Stage} (waits : found ≠ .holding)
      (guarded : Fits staleAfter state.now state.file state.guard runner stage →
        state.guard = some runner)
      (fits : state.guard = some runner →
        Fits staleAfter state.now state.file state.guard runner found) :
      Acted staleAfter state runner .openExclusive stage
        (state.openExclusive runner startTime found)
  | removes {stage target : Stage} (waits : target ≠ .holding)
      (unlinking : stage = .cleaning ∨ stage = .releasing ∨
        ∃ startTime, stage = .removing startTime)
      (fits : Fits staleAfter state.now state.file state.guard runner stage →
        Fits staleAfter state.now state.file state.guard runner target) :
      Acted staleAfter state runner (.unlink false) stage
        ((state.setFile none).goTo runner target)
  | writes {startTime : Int} {outcome : WriteOutcome} {target : Stage}
      (after : target = .holding ∨ target = .cleaning) :
      Acted staleAfter state runner (.writeMetadata outcome) (.writing startTime)
        ((state.setFile (state.written runner startTime)).goTo runner target)
  | leaves {stage : Stage} (guarded : state.guard = some runner)
      (outside : stage = .holding ∨ stage = .done) :
      Acted staleAfter state runner .leaveGuard stage (state.setGuard none)
  | crashes {stage : Stage} :
      Acted staleAfter state runner .crash stage
        ((state.setGuard (if state.guard = some runner then none
          else state.guard)).goTo runner .crashed)

theorem metadata_of_file
    {found : DiskFile} (isFound : found ∈ state.file) :
    state.metadata = found.metadata := by
  rw [LockState.metadata, Option.mem_def.mp isFound, Option.bind_some]

theorem metadata_of_read
    {fails : Bool} {seen : LockMetadata}
    (isRead : state.readLockMetadata fails = some seen) :
    state.metadata = some seen := by
  unfold LockState.readLockMetadata at isRead
  split at isRead
  · cases isRead
  · exact isRead

theorem act_acted
    {runner : Nat} {step : LockStep} {stage : Stage}
    (acted : state.act staleAfter runner step stage = some next) :
    Acted staleAfter state runner step stage next := by
  cases step with
  | metadata =>
      cases stage <;> cases acted
      exact .moves nofun fun _ => trivial
  | enterGuard =>
      cases stage with
      | waiting startTime =>
          rw [LockState.act] at acted
          split at acted <;> cases acted
          rename_i free
          exact .enters (Option.isNone_iff_eq_none.mp free)
      | _ => cases acted
  | openExclusive =>
      cases stage with
      | opening startTime =>
          cases acted
          exact .opens nofun (fun fits => fits) fun guarded => guarded
      | reopening startTime =>
          cases acted
          exact .opens nofun (fun fits => fits) fun _ => trivial
      | _ => cases acted
  | raise =>
      cases stage <;> cases acted
      all_goals exact .moves nofun fun _ => trivial
  | readMetadata fails =>
      cases stage with
      | reading startTime =>
          rw [LockState.act] at acted
          split at acted <;> cases acted
          · exact .moves nofun fun _ => trivial
          · exact .moves nofun fun guarded => guarded
      | confirming startTime seen =>
          rw [LockState.act] at acted
          split at acted <;> cases acted
          · rename_i isSame
            refine .moves nofun fun fits => ⟨fits.1, ?_⟩
            intro found isFound metadata isMetadata
            have read := metadata_of_read isSame
            rw [metadata_of_file isFound, isMetadata] at read
            exact Option.some.inj read ▸ fits.2
          · exact .moves nofun fun _ => trivial
      | holding | releasing =>
          rw [LockState.act] at acted
          split at acted <;> cases acted
          · rename_i isOwn
            refine .moves nofun fun _ found isFound => ?_
            obtain ⟨metadata, isRead, token⟩ := Option.map_eq_some_iff.mp isOwn
            have read := metadata_of_read isRead
            rw [metadata_of_file isFound] at read
            rw [read, Option.map_some, token]
          · exact .moves nofun fun _ => trivial
      | _ => cases acted
  | judgeStale =>
      cases stage with
      | judging startTime seen =>
          rw [LockState.act] at acted
          split at acted <;> cases acted
          · rename_i stale
            exact .moves nofun fun guarded => ⟨guarded, stale⟩
          · exact .moves nofun fun _ => trivial
      | _ => cases acted
  | unlink fails =>
      cases fails with
      | true =>
          cases stage <;> cases acted
          all_goals exact .moves nofun fun _ => trivial
      | false =>
          cases stage with
          | removing startTime =>
              cases acted
              exact .removes nofun (Or.inr (Or.inr ⟨_, rfl⟩)) fun fits => fits.1
          | cleaning =>
              cases acted
              exact .removes nofun (Or.inl rfl) fun _ => trivial
          | releasing =>
              cases acted
              exact .removes nofun (Or.inr (Or.inl rfl)) fun _ => trivial
          | _ => cases acted
  | writeMetadata outcome =>
      cases stage with
      | writing startTime =>
          cases outcome with
          | written =>
              cases acted
              exact .writes (Or.inl rfl)
          | failed flushed =>
              cases flushed with
              | true =>
                  cases acted
                  exact .writes (Or.inr rfl)
              | false =>
                  cases acted
                  exact .moves nofun fun fits => fits
      | _ => cases outcome <;> cases acted
  | leaveGuard =>
      cases stage with
      | holding | done =>
          rw [LockState.act] at acted
          split at acted <;> cases acted
          rename_i guarded
          exact .leaves guarded (by simp)
      | _ => cases acted
  | crash =>
      cases acted
      exact .crashes

theorem apply_invariant
    {event : LockEvent} (invariant : LockInvariant staleAfter state)
    (allowed : NoneReleasing state event)
    (applied : applyLock staleAfter event state = some next) :
    LockInvariant staleAfter next := by
  cases event with
  | advance now =>
      rw [applyLock] at applied
      split at applied <;> cases applied
      rename_i later
      exact ⟨invariant.creator, fun runner => (invariant.fits runner).keep later
        (fun _ isFound => isFound) (fun isGuard => isGuard)⟩
  | acts runner step =>
      have acted : Acted staleAfter state runner step (state.stage runner) next :=
        act_acted applied
      have ownFits := invariant.fits runner
      have otherFits : state.guard = some runner → ∀ other ≠ runner, ∀ guard,
          Fits staleAfter state.now state.file guard other
            (state.stage other) := by
        intro guarded other different guard
        refine Fits.of_guarded different (fun isReleasing => ?_)
          (guarded ▸ invariant.fits other)
        have fits := invariant.fits other
        rwa [isReleasing] at fits
      generalize isStage : state.stage runner = stage at acted ownFits
      cases acted with
      | moves waits fits => exact goTo_invariant invariant (fits ownFits)
      | enters free =>
          refine ⟨invariant.creator, fits_goTo invariant (fun _ isFound => isFound)
            (fun other _ isGuard => ?_) rfl⟩
          rw [free] at isGuard
          cases isGuard
      | opens waits guarded fits =>
          have isGuard := guarded ownFits
          exact openExclusive_invariant invariant isGuard (allowed runner rfl)
            (fits isGuard)
      | removes waits unlinking fits =>
          exact remove_invariant invariant nofun ((fits ownFits).keep
            (Int.le_refl _) nofun fun isGuard => isGuard)
      | writes after => exact written_invariant invariant isStage after
      | leaves guarded outside =>
          refine ⟨invariant.creator, fun other => ?_⟩
          by_cases same : other = runner
          · subst same
            change Fits staleAfter state.now state.file none other
              (state.stage other)
            rw [isStage]
            rcases outside with rfl | rfl <;> trivial
          · exact otherFits guarded other same none
      | crashes =>
          by_cases guarded : state.guard = some runner
          · rw [if_pos guarded]
            refine ⟨invariant.creator, fun other => ?_⟩
            change Fits staleAfter state.now state.file none other
              (Function.update state.stage runner .crashed other)
            by_cases same : other = runner
            · subst same
              rw [Function.update_self]
              trivial
            · rw [Function.update_of_ne same]
              exact otherFits guarded other same none
          · rw [if_neg guarded]
            exact goTo_invariant invariant trivial

/-! ## Protection -/

theorem stage_goTo_holding
    {runner other : Nat} {target : Stage} (waits : target ≠ .holding)
    (isHolding : Function.update state.stage runner target other = .holding) :
    state.stage other = .holding := by
  by_cases same : other = runner
  · subst same
    rw [Function.update_self] at isHolding
    exact absurd isHolding waits
  · rwa [Function.update_of_ne same] at isHolding

/-- A step that leaves the file and by which no runner acquires. -/
theorem protected_of_file
    {event : LockEvent} (same : next.file = state.file)
    (waits : ∀ other, next.stage other = .holding →
      state.stage other = .holding) :
    Protected staleAfter state event next :=
  ⟨fun _ _ _ _ changed => absurd same changed, fun _ _ _ other _ => waits other,
    fun _ _ _ changed => absurd same changed⟩

/-- What a runner's own file says. -/
theorem token_of_creator
    (invariant : LockInvariant staleAfter state) {runner : Nat}
    (isOwn : ∀ found ∈ state.file, found.creator = runner)
    {metadata : LockMetadata} (isMetadata : state.metadata = some metadata) :
    metadata.token = runner := by
  obtain ⟨found, isFound, reads⟩ := Option.bind_eq_some_iff.mp isMetadata
  exact (invariant.creator found isFound metadata reads).trans
    (isOwn found isFound)

/-- The file that a step of an invariant system unlinks is its own or stale. -/
theorem apply_protected
    {event : LockEvent} (invariant : LockInvariant staleAfter state)
    (applied : applyLock staleAfter event state = some next) :
    Protected staleAfter state event next := by
  cases event with
  | advance now =>
      rw [applyLock] at applied
      split at applied <;> cases applied
      exact ⟨nofun, fun _ _ _ _ _ isHolding => isHolding,
        fun _ _ _ changed => absurd rfl changed⟩
  | acts runner step =>
      have acted : Acted staleAfter state runner step (state.stage runner) next :=
        act_acted applied
      have ownFits := invariant.fits runner
      generalize isStage : state.stage runner = stage at acted ownFits
      cases acted with
      | moves waits _ =>
          exact protected_of_file rfl fun _ => stage_goTo_holding waits
      | enters =>
          exact protected_of_file rfl fun _ => stage_goTo_holding nofun
      | leaves => exact protected_of_file rfl fun _ isHolding => isHolding
      | crashes =>
          exact protected_of_file rfl fun _ => stage_goTo_holding nofun
      | @opens startTime _ found waits _ _ =>
          rw [LockState.openExclusive]
          cases isFile : state.file with
          | some file =>
              exact protected_of_file rfl fun _ => stage_goTo_holding waits
          | none =>
              have reads : state.metadata = none := by
                rw [LockState.metadata, isFile, Option.bind_none]
              refine ⟨nofun, fun metadata isMetadata => ?_,
                fun metadata isMetadata => ?_⟩
              · rw [reads] at isMetadata
                cases isMetadata
              · rw [reads] at isMetadata
                cases isMetadata
      | writes after =>
          refine ⟨nofun, fun metadata isMetadata _ other different => ?_,
            fun metadata isMetadata _ _ => ?_⟩
          · have token := token_of_creator invariant ownFits.2 isMetadata
            intro isHolding
            change Function.update state.stage runner _ other = _ at isHolding
            rw [Function.update_of_ne (token ▸ different)] at isHolding
            exact isHolding
          · have token := token_of_creator invariant ownFits.2 isMetadata
            exact ⟨_, by rw [token]⟩
      | removes waits unlinking _ =>
          refine ⟨fun other fails isUnlink releasing changed => ?_,
            fun _ _ _ other _ => stage_goTo_holding waits,
            fun metadata isMetadata fresh _ => ?_⟩
          · cases isUnlink
            rw [isStage] at releasing
            subst releasing
            cases isFile : state.file with
            | none => exact absurd isFile.symm changed
            | some found =>
                rw [metadata_of_file isFile]
                exact ownFits found isFile
          · obtain ⟨found, isFound, reads⟩ :=
              Option.bind_eq_some_iff.mp isMetadata
            rcases unlinking with rfl | rfl | ⟨startTime, rfl⟩
            · have token := token_of_creator invariant ownFits.2 isMetadata
              exact ⟨_, by rw [token]⟩
            · have token := ownFits found isFound
              rw [reads, Option.map_some, Option.some.injEq] at token
              exact ⟨_, by rw [token]⟩
            · rw [ownFits.2 found isFound metadata reads] at fresh
              cases fresh

/-- A file created while another runner is releasing is the next one it unlinks. -/
theorem unlinks_created
    {runner other : Nat} {startTime : Int} {found : Stage}
    (free : state.file = none) (different : other ≠ runner)
    (releasing : state.stage other = .releasing) :
    ∃ final, applyLock staleAfter (.acts other (.unlink false))
        (state.openExclusive runner startTime found) = some final ∧
      ¬ Protected staleAfter (state.openExclusive runner startTime found)
        (.acts other (.unlink false)) final := by
  rw [LockState.openExclusive, free]
  let created :=
    (state.setFile (some ⟨runner, none⟩)).goTo runner (.writing startTime)
  have stage : created.stage other = .releasing := by
    change Function.update state.stage runner _ other = _
    rw [Function.update_of_ne different, releasing]
  refine ⟨(created.setFile none).goTo other .done, ?_, fun isProtected => ?_⟩
  · rw [applyLock, stage]
    rfl
  · have own := isProtected.release other false rfl stage nofun
    cases own

/-- As long as no runner creates the lock file between the two steps of another's
release, every step is protected. Once one does, the second of these steps would
remove its lock. -/
theorem runners_keep_locks (staleAfter : Option Int) (now : Int) :
    (∀ state, Reaches (applyLock staleAfter) NoneReleasing
        (LockState.initial now) state →
      ∀ event next, applyLock staleAfter event state = some next →
        Protected staleAfter state event next) ∧
    ∀ state event next, applyLock staleAfter event state = some next →
      ¬ NoneReleasing state event →
      ∃ other final, applyLock staleAfter (.acts other (.unlink false)) next =
          some final ∧
        ¬ Protected staleAfter next (.acts other (.unlink false)) final := by
  refine ⟨fun state reached event next => ?_, fun state event next applied
    releasing => ?_⟩
  · have invariant : LockInvariant staleAfter state :=
      reached.invariant (initial_invariant now) fun _ _ _ => apply_invariant
    exact apply_protected invariant
  · unfold NoneReleasing at releasing
    push Not at releasing
    obtain ⟨runner, rfl, free, other, isReleasing⟩ := releasing
    have different : other ≠ runner := by
      rintro rfl
      rw [applyLock, isReleasing] at applied
      cases applied
    rw [applyLock] at applied
    cases isStage : state.stage runner with
    | opening startTime | reopening startTime =>
        rw [isStage] at applied
        cases applied
        exact ⟨other, unlinks_created free different isReleasing⟩
    | _ =>
        rw [isStage] at applied
        cases applied

end

/-- A runner takes the lock. -/
def acquisition (runner : Nat) : List LockEvent :=
  [.acts runner .metadata, .acts runner .enterGuard, .acts runner .openExclusive,
    .acts runner (.writeMetadata .written), .acts runner .leaveGuard]

/-- A runner finds a stale lock and takes its place. -/
def recovery (runner : Nat) : List LockEvent :=
  [.acts runner .metadata, .acts runner .enterGuard, .acts runner .openExclusive,
    .acts runner (.readMetadata false), .acts runner .judgeStale,
    .acts runner (.readMetadata false), .acts runner (.unlink false),
    .acts runner .openExclusive, .acts runner (.writeMetadata .written),
    .acts runner .leaveGuard]

/-- A lock that is not stale is not taken over. -/
theorem young_lock_is_kept : ∃ state next,
    applyLock (some 10) (.acts 1 .judgeStale) state = some next ∧
      state.metadata = some ⟨0, 0⟩ ∧ next.file = state.file ∧
      next.stage 1 ≠ .holding := by
  let ops := acquisition 0 ++ [.advance 5, .acts 1 .metadata, .acts 1 .enterGuard,
    .acts 1 .openExclusive, .acts 1 (.readMetadata false)]
  obtain ⟨state, finished⟩ : ∃ state,
      run (applyLock (some 10)) (LockState.initial 0) ops = some state :=
    ⟨_, rfl⟩
  have permitted : AllowedRun (applyLock (some 10)) NoneReleasing
      (LockState.initial 0) ops := by
    -- The first runner creates the file, and the second one finds it.
    refine .cons nofun rfl (.cons nofun rfl (.cons ?_ rfl (.cons nofun rfl
      (.cons nofun rfl (.cons nofun rfl (.cons nofun rfl (.cons nofun rfl
        (.cons (fun _ _ free => nomatch free) rfl (.cons nofun rfl
          trivial)))))))))
    intro _ _ _ other
    change Function.update (Function.update _ 0 _) 0 _ other ≠ _
    by_cases same : other = 0
    · subst same
      exact nofun
    · rw [Function.update_of_ne same, Function.update_of_ne same]
      exact nofun
  have isState : (run (applyLock (some 10)) (LockState.initial 0) ops).map
      (fun state => (state.now, state.stage 1, state.file)) =
      some (5, .judging 5 ⟨0, 0⟩, some ⟨0, some ⟨0, 0⟩⟩) := rfl
  rw [finished, Option.map_some, Option.some.injEq, Prod.mk.injEq,
    Prod.mk.injEq] at isState
  obtain ⟨isNow, judging, isFile⟩ := isState
  have reads : state.metadata = some ⟨0, 0⟩ := metadata_of_file isFile
  have fresh : isLockStale (some 10) state.now ⟨0, 0⟩ = false := by
    rw [isNow]
    rfl
  have applied : applyLock (some 10) (.acts 1 .judgeStale) state =
      some (state.goTo 1 .done) := by
    rw [applyLock, judging, LockState.act, fresh]
    rfl
  have isProtected := (runners_keep_locks (some 10) 0).1 state
    (reaches_of_run finished permitted) _ _ applied
  refine ⟨state, _, applied, reads, ?_, fun isHolding => ?_⟩
  · by_contra changed
    obtain ⟨_, isOwner⟩ := isProtected.remove _ reads fresh changed
    cases isOwner
  · have before := isProtected.acquire _ reads fresh 1 (by decide) isHolding
    rw [judging] at before
    cases before

/-- A runner whose lock was taken over between the two steps of its release
removes the lock of the runner that took it. -/
theorem late_release_removes_other : ¬ ∀ state,
    Reaches (applyLock (some 10)) anyOp (LockState.initial 0) state →
    ∀ event next, applyLock (some 10) event state = some next →
      Protected (some 10) state event next := by
  intro always
  let ops := acquisition 0 ++ [.advance 20, .acts 0 (.readMetadata false)] ++
    recovery 1
  obtain ⟨state, finished⟩ : ∃ state,
      run (applyLock (some 10)) (LockState.initial 0) ops = some state :=
    ⟨_, rfl⟩
  have permitted : AllowedRun (applyLock (some 10)) anyOp
      (LockState.initial 0) ops :=
    allowedRun_of_invariant (fun _ => True) trivial (fun _ _ _ _ => trivial)
      fun _ _ _ _ _ _ => trivial
  have isState : (run (applyLock (some 10)) (LockState.initial 0) ops).map
      (fun state => (state.stage 0, state.file)) =
      some (.releasing, some ⟨1, some ⟨1, 20⟩⟩) := rfl
  rw [finished, Option.map_some, Option.some.injEq, Prod.mk.injEq] at isState
  obtain ⟨releasing, isFile⟩ := isState
  have isProtected := always state (reaches_of_run finished permitted)
    (.acts 0 (.unlink false)) ((state.setFile none).goTo 0 .done)
    (by rw [applyLock, releasing]; rfl)
  have own := isProtected.release 0 false rfl releasing (by
    rw [isFile]
    exact nofun)
  rw [metadata_of_file isFile] at own
  cases own

end ParishKit.Runner
