import ParishKit.Source.RefreshShortcut

/-!
# Runs of the refresh scheduler

What one decision, one slot and one pass keep, and what holds after any run.
-/

namespace ParishKit.Source

open ParishKit.Lib

section

variable [AppliedIntegrations]

/-! ## One decision -/

/-- The pass works with the schedule of its configuration. -/
structure InputsSound (inputs : PassInputs) : Prop where
  settings : AppliedIntegrations.settings inputs.cadence.configuration =
    some inputs.cadence.settings
  schedule : inputs.cadence.schedule = refreshSettings inputs.cadence.settings

/-- A slot of a schedule, or a schedule-change catch-up. -/
def RefreshSlot.IsScheduled (slot : RefreshSlot) : Prop :=
  slot.cause = .catchUp ∨ slot.IsFull

/-- A recorded decision is of the one slot, and nothing else changes. -/
structure Recorded (slot : RefreshSlot) (decision : SlotDecision)
    (state next : PassState) (written : Bool) : Prop where
  consistent : SlotsConsistent next.tables
  ticks : next.tables.ticks = state.tables.ticks
  decisions : next.decisions = state.decisions
  decided : next.tables.decision? = if written
    then Function.update state.tables.decision? slot.slotKey (some decision)
    else state.tables.decision?

omit [AppliedIntegrations] in
/-- A full slot that waits is not at the nightly time. -/
theorem nightlyTime_of_waits
    {slot : RefreshSlot} {nightlyTime : Text} (scheduled : slot.IsScheduled)
    (waits : waitsForSend slot nightlyTime = true) (isNightly : slot.cause = .nightly) :
    slot.nightlyTime.getD nightlyTime ≠ nightlyTime := by
  rcases scheduled with isCatchUp | ⟨_, isSome⟩
  · rw [isCatchUp] at isNightly
    cases isNightly
  · obtain ⟨value, isValue⟩ := Option.isSome_iff_exists.mp isSome
    unfold waitsForSend at waits
    rw [isNightly, isValue] at waits
    rw [isValue, Option.getD_some]
    rintro rfl
    simp at waits

theorem record_sound
    {inputs : PassInputs} {slot : RefreshSlot} {decision : SlotDecision}
    {cause : Option WindowCause} {state next : PassState} {written : Bool}
    (sound : InputsSound inputs) (scheduled : slot.IsScheduled)
    (waits : waitsForSend slot inputs.cadence.schedule.nightlyTime = true)
    (unticked : decision = .skipped → state.tables.isTicked slot.slotKey = false)
    (consistent : SlotsConsistent state.tables)
    (recorded : record inputs slot decision cause state = some (next, written)) :
    Recorded slot decision state next written := by
  unfold record at recorded
  split at recorded
  · cases recorded
    exact ⟨consistent, rfl, rfl, rfl⟩
  · dsimp only at recorded
    split at recorded
    · rename_i tables inserted
      cases recorded
      obtain ⟨fresh, rfl⟩ := RefreshTables.insertDecision_done inserted
      refine ⟨consistent.addDecision fresh unticked fun isNightly => ?_, rfl, rfl,
        RefreshTables.decision?_append fresh⟩
      refine ⟨inputs.cadence.settings, sound.settings, ?_⟩
      rw [← sound.schedule]
      exact nightlyTime_of_waits scheduled waits isNightly
    · cases recorded
      exact ⟨consistent, rfl, rfl, rfl⟩
    · cases recorded

/-- What is known of the slots while they are decided. -/
structure Deciding (keys : List Text) (start : RefreshTables) (state : PassState) :
    Prop where
  consistent : SlotsConsistent state.tables
  ticks : state.tables.ticks = start.ticks
  known : ∃ decisions, state.decisions = some decisions ∧
    ∀ key ∈ keys, decisions key = state.tables.decision? key

omit [AppliedIntegrations] in
/-- Ticks are read alike in tables with the same ticks. -/
theorem isTicked_congr
    {first second : RefreshTables} (same : first.ticks = second.ticks) (key : Text) :
    first.isTicked key = second.isTicked key := by
  unfold RefreshTables.isTicked RefreshTables.tick?
  rw [same]

theorem Deciding.record
    {keys : List Text} {start : RefreshTables} {state next : PassState}
    {slot : RefreshSlot} {decision : SlotDecision} {written : Bool}
    (deciding : Deciding keys start state)
    (recorded : Recorded slot decision state next written) :
    Deciding keys start
      (if written then next.decided slot.slotKey decision else next) := by
  obtain ⟨decisions, isDecisions, agrees⟩ := deciding.known
  have sameDecisions : next.decisions = some decisions :=
    recorded.decisions.trans isDecisions
  have sameTicks := recorded.ticks.trans deciding.ticks
  have isDecided := recorded.decided
  cases written with
  | false =>
      refine ⟨recorded.consistent, sameTicks, decisions, sameDecisions, ?_⟩
      intro key isKey
      have unchanged : next.tables.decision? = state.tables.decision? := isDecided
      rw [if_neg Bool.false_ne_true, unchanged]
      exact agrees key isKey
  | true =>
      refine ⟨recorded.consistent, sameTicks,
        Function.update decisions slot.slotKey (some decision), ?_, ?_⟩
      · rw [if_pos rfl]
        unfold PassState.decided
        rw [sameDecisions]
        rfl
      · intro key isKey
        change _ = next.tables.decision? key
        have updated : next.tables.decision? = Function.update state.tables.decision?
            slot.slotKey (some decision) := isDecided
        rw [updated]
        by_cases same : key = slot.slotKey
        · subst same
          rw [Function.update_self, Function.update_self]
        · rw [Function.update_of_ne same, Function.update_of_ne same]
          exact agrees key isKey

/-- A slot that waits is decided only by the pass's record. -/
theorem Deciding.wait
    {keys : List Text} {start : RefreshTables} {state : PassState}
    (deciding : Deciding keys start state) (key : Text) (notice : Notice)
    (logged : Bool) : Deciding keys start (state.wait key notice logged) :=
  ⟨deciding.consistent, deciding.ticks, deciding.known⟩

theorem decideSlot_sound
    {inputs : PassInputs} {windows : List EmailWindow} {keys : List Text}
    {start : RefreshTables} {state next : PassState} {slot : RefreshSlot}
    (sound : InputsSound inputs) (scheduled : slot.IsScheduled)
    (waits : waitsForSend slot inputs.cadence.schedule.nightlyTime = true)
    (unticked : start.isTicked slot.slotKey = false)
    (deciding : Deciding keys start state)
    (decided : decideSlot inputs windows state slot = some next) :
    Deciding keys start next := by
  have stillUnticked : state.tables.isTicked slot.slotKey = false :=
    (isTicked_congr deciding.ticks _).trans unticked
  unfold decideSlot at decided
  split at decided
  · obtain ⟨⟨recordedState, written⟩, recorded, assembled⟩ :=
      Option.bind_eq_some_iff.mp decided
    cases assembled
    exact deciding.record (record_sound sound scheduled waits (fun _ => stillUnticked)
      deciding.consistent recorded)
  · split at decided
    · obtain ⟨⟨recordedState, written⟩, recorded, assembled⟩ :=
        Option.bind_eq_some_iff.mp decided
      cases assembled
      have notSkipped : SlotDecision.held = .skipped →
          state.tables.isTicked slot.slotKey = false := nofun
      exact (deciding.record (record_sound sound scheduled waits notSkipped
        deciding.consistent recorded)).wait _ _ _
    · cases decided
      exact deciding

/-! ## The decisions of a pass -/

/-- A held slot that runs instead of a skipped latest one: the newest of its kind
among the candidates, unless a later one has a tick. -/
structure RunsInstead (candidates latest : List RefreshSlot)
    (ticked : Text → Bool) (decision? : Text → Option SlotDecision)
    (slot : RefreshSlot) : Prop where
  candidate : slot ∈ candidates
  held : decision? slot.slotKey = some .held
  unticked : ticked slot.slotKey = false
  instead : ∃ other ∈ latest, decision? other.slotKey = some .skipped ∧
    other.cause = slot.cause ∧ slot.dueAt < other.dueAt ∧
    ∀ third ∈ candidates, third.cause = slot.cause → third.dueAt < other.dueAt →
      decision? third.slotKey = some .held → ticked third.slotKey = false →
      third.dueAt ≤ slot.dueAt
  last : ∀ third ∈ candidates, third.cause = slot.cause →
    ticked third.slotKey = true → third.dueAt ≤ slot.dueAt

omit [AppliedIntegrations] in
theorem heldInstead_eq_some
    {candidates latest : List RefreshSlot} {tables : RefreshTables}
    {decisions decision? : Text → Option SlotDecision} {other slot : RefreshSlot}
    (isLatest : other ∈ latest)
    (agrees : ∀ slot ∈ candidates ++ latest,
      decisions slot.slotKey = decision? slot.slotKey)
    (found : heldInstead candidates tables decisions other = some slot) :
    RunsInstead candidates latest tables.isTicked decision? slot := by
  unfold heldInstead at found
  split at found
  · rename_i isSkipped
    rw [agrees other (List.mem_append_right _ isLatest)] at isSkipped
    obtain ⟨isNewest, noLater⟩ := Option.filter_eq_some_iff.mp found
    obtain ⟨isCandidate, isGreatest⟩ := greatest?_eq_some isNewest
    simp only [List.mem_filter, Bool.and_eq_true, decide_eq_true_eq, beq_iff_eq,
      Bool.not_eq_true'] at isCandidate
    obtain ⟨⟨member, sameCause⟩, ⟨earlier, held⟩, unticked⟩ := isCandidate
    have agreesHere : ∀ third ∈ candidates,
        decisions third.slotKey = decision? third.slotKey :=
      fun third isThird => agrees third (List.mem_append_left _ isThird)
    refine ⟨member, (agreesHere slot member).symm.trans held, unticked,
      ⟨other, isLatest, isSkipped, sameCause.symm, earlier, ?_⟩, ?_⟩
    · intro third isThird ofKind before isHeld isFree
      refine isGreatest third ?_
      simp only [List.mem_filter, Bool.and_eq_true, decide_eq_true_eq, beq_iff_eq,
        Bool.not_eq_true']
      exact ⟨⟨isThird, ofKind.trans sameCause⟩,
        ⟨before, (agreesHere third isThird).trans isHeld⟩, isFree⟩
    · intro third isThird ofKind isTicked
      by_contra later
      have blocks : (candidates.filter fun third => third.cause == other.cause).any
          (fun third => tables.isTicked third.slotKey &&
            decide (slot.dueAt < third.dueAt)) = true := by
        rw [List.any_eq_true]
        refine ⟨third, List.mem_filter.mpr
          ⟨isThird, beq_iff_eq.mpr (ofKind.trans sameCause)⟩, ?_⟩
        rw [isTicked, Bool.true_and, decide_eq_true_eq]
        exact Int.not_le.mp later
      rw [blocks] at noLater
      cases noLater
  · cases found

theorem decideSlots_sound
    {inputs : PassInputs} {windows : List EmailWindow} {skipSince : Option Int}
    {candidates latest extra : List RefreshSlot} {state decided : PassState}
    (sound : InputsSound inputs)
    (scheduled : ∀ slot ∈ candidates, slot.IsScheduled)
    (consistent : SlotsConsistent state.tables)
    (isDecided : decideSlots inputs windows skipSince candidates latest state =
      some (decided, extra)) :
    Deciding ((candidates ++ latest).map RefreshSlot.slotKey) state.tables decided ∧
      (extra = [] ∨ inputs.held = false) ∧
      ∀ slot ∈ extra, RunsInstead candidates latest state.tables.isTicked
        decided.tables.decision? slot := by
  obtain ⟨final, folded, assembled⟩ := Option.bind_eq_some_iff.mp isDecided
  cases assembled
  have start : Deciding ((candidates ++ latest).map RefreshSlot.slotKey) state.tables
      { state with decisions := some fun key =>
          if key ∈ (candidates ++ latest).map RefreshSlot.slotKey then
            state.tables.decision? key
          else none } :=
    ⟨consistent, rfl, _, rfl, fun key isKey => if_pos isKey⟩
  have deciding : Deciding _ state.tables decided :=
    option_foldlM_invariant start (fun slot member before after kept stepped => by
      have isUndecided := List.mem_filter.mp member
      simp only [Bool.and_eq_true, Bool.not_eq_true'] at isUndecided
      obtain ⟨isCandidate, ⟨⟨unticked, _⟩, waits⟩, _⟩ := isUndecided
      exact decideSlot_sound sound (scheduled slot isCandidate) waits unticked kept
        stepped) folded
  refine ⟨deciding, ?_, ?_⟩
  · cases held : inputs.held with
    | true => exact Or.inl rfl
    | false => exact Or.inr rfl
  · intro slot isExtra
    cases held : inputs.held with
    | true =>
        rw [held] at isExtra
        cases isExtra
    | false =>
        rw [held] at isExtra
        obtain ⟨other, isLatest, found⟩ := List.mem_filterMap.mp isExtra
        obtain ⟨decisions, isDecisions, agrees⟩ := deciding.known
        rw [isDecisions] at found
        exact heldInstead_eq_some isLatest (fun slot member =>
          agrees _ (List.mem_map.mpr ⟨slot, member, rfl⟩)) found

/-! ## One slot of a pass -/

/-- The tick is of this slot. -/
structure RefreshTick.IsOf (tick : RefreshTick) (slot : RefreshSlot) : Prop where
  key : tick.slotKey = slot.slotKey
  cause : tick.cause = slot.cause
  due : tick.dueAt = slot.dueAt

/-- What holds while a pass goes over its slots: skips are known, and every new tick
is of one of the slots. -/
structure PassSound (inputs : PassInputs) (slots : List RefreshSlot)
    (before decided : RefreshTables) (state : PassState) : Prop where
  consistent : SlotsConsistent state.tables
  skips : ∀ slot ∈ slots, state.tables.decision? slot.slotKey = some .skipped →
    slot.slotKey ∈ inputs.recordedSkips ∨
      state.decisions.bind (· slot.slotKey) = some .skipped
  ticks : ∀ tick ∈ state.tables.ticks, tick ∈ before.ticks ∨
    ∃ slot ∈ slots, tick.IsOf slot
  frozen : inputs.held = false → state.tables.decisions = decided.decisions

omit [AppliedIntegrations] in
theorem createTick_done
    {inputs : PassInputs} {slot : RefreshSlot} {tables next : RefreshTables}
    {receipt : RefreshReceipt}
    (created : createTick inputs slot tables = .done (next, receipt)) :
    tables.isTicked slot.slotKey = false ∧ ∃ tick : RefreshTick, tick.IsOf slot ∧
      next = { tables with ticks := tables.ticks ++ [tick] } := by
  unfold createTick at created
  split at created
  · dsimp only at created
    split at created
    · rename_i inserted
      cases created
      obtain ⟨fresh, rfl⟩ := RefreshTables.insertTick_done inserted
      exact ⟨fresh, _, ⟨rfl, rfl, rfl⟩, rfl⟩
    · cases created
    · cases created
  · cases created
  · cases created

/-- A slot held by the pass. -/
theorem PassSound.hold
    {inputs : PassInputs} {slots : List RefreshSlot} {before decided : RefreshTables}
    {state next : PassState} {slot : RefreshSlot}
    (sound : InputsSound inputs) (scheduled : slot.IsScheduled)
    (waits : waitsForSend slot inputs.cadence.schedule.nightlyTime = true)
    (held : inputs.held = true)
    (unskipped : ¬(slot.slotKey ∈ inputs.recordedSkips ∨
      state.decisions.bind (· slot.slotKey) = some .skipped))
    (isSlot : slot ∈ slots) (passing : PassSound inputs slots before decided state)
    (isHeld : holdSlot inputs state slot = some next) :
    PassSound inputs slots before decided next := by
  unfold holdSlot at isHeld
  split at isHeld
  rotate_left
  · cases isHeld
    exact passing
  obtain ⟨⟨recordedState, written⟩, isRecorded, rfl⟩ :=
    Option.map_eq_some_iff.mp isHeld
  have notSkipped : SlotDecision.held = .skipped →
      (state.decided slot.slotKey .held).tables.isTicked slot.slotKey = false := nofun
  have isRecord : Recorded slot .held (state.decided slot.slotKey .held) recordedState
      written := record_sound sound scheduled waits notSkipped passing.consistent
    isRecorded
  refine ⟨isRecord.consistent, ?_, ?_, fun free => ?_⟩
  · intro other isOther isSkipped
    rw [isRecord.decisions]
    have isDecided := isRecord.decided
    by_cases same : other.slotKey = slot.slotKey
    · -- A slot just held was not skipped before either.
      rw [same] at isSkipped
      cases written with
      | false =>
          rw [isDecided] at isSkipped
          exact absurd (passing.skips slot isSlot isSkipped) unskipped
      | true =>
          rw [isDecided, if_pos rfl, Function.update_self] at isSkipped
          cases isSkipped
    · have stillSkipped : state.tables.decision? other.slotKey = some .skipped := by
        cases written with
        | false =>
            rw [isDecided] at isSkipped
            exact isSkipped
        | true =>
            rw [isDecided, if_pos rfl, Function.update_of_ne same] at isSkipped
            exact isSkipped
      rcases passing.skips other isOther stillSkipped with listed | known
      · exact Or.inl listed
      · refine Or.inr ?_
        obtain ⟨decisions, isDecisions, isKnown⟩ := Option.bind_eq_some_iff.mp known
        unfold PassState.decided
        rw [isDecisions, Option.map_some, Option.bind_some, Function.update_of_ne same]
        exact isKnown
  · intro tick isTick
    rw [isRecord.ticks] at isTick
    exact passing.ticks tick isTick
  · rw [held] at free
    cases free

theorem passSlot_sound
    {inputs : PassInputs} {slots : List RefreshSlot} {before decided : RefreshTables}
    {state next : PassState} {slot : RefreshSlot}
    (sound : InputsSound inputs) (scheduled : slot.IsScheduled) (isSlot : slot ∈ slots)
    (passing : PassSound inputs slots before decided state)
    (passed : passSlot inputs state slot = some next) :
    PassSound inputs slots before decided next := by
  unfold passSlot at passed
  split at passed
  · cases passed
    exact ⟨passing.consistent, passing.skips, passing.ticks, passing.frozen⟩
  split at passed
  · cases passed
    exact passing
  rename_i unskipped
  split at passed
  · cases passed
    exact ⟨passing.consistent, passing.skips, passing.ticks, passing.frozen⟩
  split at passed
  · rename_i waiting
    rw [Bool.and_eq_true] at waiting
    obtain ⟨held, waits⟩ := waiting
    obtain ⟨recordedState, isHeld, assembled⟩ := Option.bind_eq_some_iff.mp passed
    cases assembled
    have kept := PassSound.hold sound scheduled waits held unskipped isSlot passing isHeld
    exact ⟨kept.consistent, kept.skips, kept.ticks, kept.frozen⟩
  · split at passed
    · rename_i tables receipt created
      cases passed
      obtain ⟨fresh, tick, isOf, rfl⟩ := createTick_done created
      have notSkipped : state.tables.decision? tick.slotKey ≠ some .skipped := by
        rw [isOf.key]
        exact fun isSkipped => unskipped (passing.skips slot isSlot isSkipped)
      refine ⟨passing.consistent.addTick (isOf.key ▸ fresh) notSkipped, passing.skips,
        ?_, passing.frozen⟩
      intro other isOther
      rcases List.mem_append.mp isOther with earlier | isTick
      · exact passing.ticks other earlier
      · rw [List.mem_singleton.mp isTick]
        exact Or.inr ⟨slot, isSlot, isOf⟩
    · cases passed
      exact ⟨passing.consistent, passing.skips, passing.ticks, passing.frozen⟩
    · cases passed
    · cases passed

/-! ## A whole pass -/

variable [TimeZones] [SlotDigests]

omit [AppliedIntegrations] in
theorem isScheduled_of_current
    {now : Int} {found : Cadence} {tables : RefreshTables} {effectiveAt : Option Int}
    (isDue : dueSlots now found.timezone found.fingerprint found.schedule =
      some found.slots) :
    ∀ slot ∈ currentSlots found tables effectiveAt, slot.IsScheduled := by
  intro slot member
  rcases List.mem_append.mp member with first | rest
  · rcases List.mem_append.mp first with isFirst | isCatchUp
    · exact Or.inr (isFull_of_due isDue (List.mem_of_mem_take isFirst))
    · obtain ⟨instant, _, found⟩ :=
        Option.bind_eq_some_iff.mp (Option.mem_toList.mp isCatchUp)
      dsimp only at found
      split at found
      · cases found
      · cases found
        exact Or.inl rfl
  · exact Or.inr (isFull_of_due isDue (List.mem_of_mem_drop rest))

/-- What a pass has planned before it goes over its slots. -/
theorem planSlots_sound
    {early locked : Surroundings} {found : Cadence} {slots extra : List RefreshSlot}
    {skipped refused : Option (List Text)} {tables : RefreshTables}
    {decided : PassState} {inputs : PassInputs}
    (isInputs : inputs = passInputs early locked found slots skipped refused tables)
    (sound : InputsSound inputs) (consistent : SlotsConsistent tables)
    (planned : planSlots early locked inputs slots ⟨tables, none, [], [], [], []⟩ =
      some (decided, extra)) :
    PassSound inputs (slots ++ extra) tables decided.tables decided ∧
      ∀ slot ∈ extra, slot.IsScheduled ∧ inputs.held = false ∧
        ∃ candidates, found.listed = some candidates ∧
          RunsInstead candidates slots tables.isTicked decided.tables.decision? slot := by
  have unplanned : PassSound inputs (slots ++ []) tables tables
      ⟨tables, none, [], [], [], []⟩ := by
    refine ⟨consistent, ?_, fun tick isTick => Or.inl isTick, fun _ => rfl⟩
    intro slot isSlot isSkipped
    rw [List.append_nil] at isSlot
    refine Or.inl ?_
    rw [isInputs]
    exact List.mem_filter.mpr
      ⟨List.mem_map.mpr ⟨slot, isSlot, rfl⟩, beq_iff_eq.mpr isSkipped⟩
  unfold planSlots at planned
  split at planned
  · cases planned
    exact ⟨unplanned, nofun⟩
  split at planned
  · obtain ⟨candidates, listed, isDecided⟩ := Option.bind_eq_some_iff.mp planned
    rw [isInputs] at listed
    have scheduled : ∀ slot ∈ candidates, slot.IsScheduled :=
      fun slot isSlot => Or.inr (isFull_of_listed listed isSlot)
    obtain ⟨deciding, free, instead⟩ := decideSlots_sound sound scheduled consistent
      isDecided
    refine ⟨⟨deciding.consistent, ?_, ?_, fun _ => rfl⟩, ?_⟩
    · intro slot isSlot isSkipped
      obtain ⟨decisions, isDecisions, agrees⟩ := deciding.known
      have named : slot.slotKey ∈ (candidates ++ slots).map RefreshSlot.slotKey := by
        rcases List.mem_append.mp isSlot with isLatest | isExtra
        · exact List.mem_map.mpr ⟨slot, List.mem_append_right _ isLatest, rfl⟩
        · exact List.mem_map.mpr
            ⟨slot, List.mem_append_left _ (instead slot isExtra).candidate, rfl⟩
      refine Or.inr ?_
      rw [isDecisions, Option.bind_some, agrees _ named]
      exact isSkipped
    · intro tick isTick
      rw [deciding.ticks] at isTick
      exact Or.inl isTick
    · intro slot isExtra
      have runs := instead slot isExtra
      refine ⟨scheduled slot runs.candidate, ?_, candidates, listed, runs⟩
      rcases free with nothing | isFree
      · rw [nothing] at isExtra
        cases isExtra
      · exact isFree
  · cases planned
    exact ⟨unplanned, nofun⟩

/-- Why a pass creates a tick: its slot is current, or a held one that runs instead
of a skipped one. -/
def MayRun (found : Cadence) (effectiveAt : Option Int)
    (before after : RefreshTables) (tick : RefreshTick) : Prop :=
  (∃ slot ∈ currentSlots found before effectiveAt, tick.IsOf slot) ∨
    ∃ candidates slot, found.listed = some candidates ∧ tick.IsOf slot ∧
      RunsInstead candidates (currentSlots found before effectiveAt) before.isTicked
        after.decision? slot

theorem lockedPass_sound
    {early locked : Surroundings} {skipped refused : Option (List Text)}
    {tables : RefreshTables} {final : PassState} (consistent : SlotsConsistent tables)
    (passed : lockedPass early locked skipped refused tables = some final) :
    SlotsConsistent final.tables ∧
      ∀ tick ∈ final.tables.ticks, tick ∉ tables.ticks →
        ∃ found, cadence locked = some found ∧
          MayRun found early.effectiveAt tables final.tables tick := by
  unfold lockedPass at passed
  dsimp only at passed
  split at passed
  · cases passed
    exact ⟨consistent, fun tick isTick isNew => absurd isTick isNew⟩
  obtain ⟨found, isFound, afterCadence⟩ := Option.bind_eq_some_iff.mp passed
  obtain ⟨⟨decided, extra⟩, planned, folded⟩ := Option.bind_eq_some_iff.mp afterCadence
  clear passed afterCadence
  obtain ⟨_, _, isSettings, isSchedule, now, isDue⟩ := cadence_eq_some isFound
  have sound : InputsSound (passInputs early locked found
      (currentSlots found tables early.effectiveAt) skipped refused tables) :=
    ⟨isSettings, isSchedule⟩
  obtain ⟨start, instead⟩ := planSlots_sound rfl sound consistent planned
  have passing := option_foldlM_invariant start (fun slot isSlot before after kept
      stepped => by
    have scheduled : slot.IsScheduled := by
      rcases List.mem_append.mp isSlot with isCurrent | isExtra
      · exact isScheduled_of_current isDue slot isCurrent
      · exact (instead slot isExtra).1
    exact passSlot_sound sound scheduled isSlot kept stepped) folded
  refine ⟨passing.consistent, fun tick isTick isNew => ⟨found, isFound, ?_⟩⟩
  rcases passing.ticks tick isTick with old | ⟨slot, isSlot, isOf⟩
  · exact absurd old isNew
  · rcases List.mem_append.mp isSlot with isCurrent | isExtra
    · exact Or.inl ⟨slot, isCurrent, isOf⟩
    · obtain ⟨_, free, candidates, listed, runs⟩ := instead slot isExtra
      have sameDecisions : final.tables.decision? = decided.tables.decision? := by
        funext key
        unfold RefreshTables.decision?
        rw [passing.frozen free]
      refine Or.inr ⟨candidates, slot, listed, isOf, ?_⟩
      rw [sameDecisions]
      exact runs

/-! ## Runs -/

/-- The tables after one loop. -/
def refreshStep (loop : RefreshLoop) (tables : RefreshTables) : Option RefreshTables :=
  (produceRefreshes loop tables).map Prod.fst

theorem refreshStep_sound
    {loop : RefreshLoop} {tables next : RefreshTables}
    (consistent : SlotsConsistent tables)
    (stepped : refreshStep loop tables = some next) :
    SlotsConsistent next ∧ ∀ tick ∈ next.ticks, tick ∉ tables.ticks →
      ∃ found, cadence loop.locked = some found ∧
        MayRun found loop.early.effectiveAt tables next tick := by
  obtain ⟨⟨_, receipts⟩, produced, rfl⟩ := Option.map_eq_some_iff.mp stepped
  unfold produceRefreshes at produced
  split at produced
  · cases produced
    exact ⟨consistent, fun tick isTick isNew => absurd isTick isNew⟩
  · obtain ⟨final, passed, isFinal⟩ := Option.map_eq_some_iff.mp produced
    cases isFinal
    exact lockedPass_sound consistent passed

/-- After any run the shortcut changes nothing, slots are decided once, and the next
loop runs no held slot but the newest one of its kind among the due slots of the
applied schedule. -/
theorem refresh_slots_decided_once
    {tables : RefreshTables} (reached : Reaches refreshStep anyOp .empty tables) :
    (∀ moment receipts skipped refused, moment.admitted = true →
      ticked moment tables = some receipts →
      ∃ decisions, lockedPass moment moment skipped refused tables =
        some ⟨tables, decisions, [], [], [], receipts⟩) ∧
    SlotsConsistent tables ∧
    ∀ loop next, refreshStep loop tables = some next →
      ∀ tick ∈ next.ticks, tick ∉ tables.ticks →
        ∃ found, cadence loop.locked = some found ∧
          MayRun found loop.early.effectiveAt tables next tick := by
  have consistent : SlotsConsistent tables := reached.invariant SlotsConsistent.empty
    fun source loop target holds _ stepped => (refreshStep_sound holds stepped).1
  refine ⟨?_, consistent, ?_⟩
  · intro moment receipts skipped refused admitted idle
    exact lockedPass_of_ticked consistent admitted idle skipped refused
  · intro loop next stepped
    exact (refreshStep_sound consistent stepped).2

end

/-! ## A held slot that a later one had superseded -/

abbrev utcOnly : TimeZones where
  zone _ := ⟨0, [], trivial⟩

/-- Keys that tell slots apart by their time and their minute. -/
abbrev plainKeys : SlotDigests where
  slotKey identity := identity.nightlyTime.getD "catch_up".toList ++
    Nat.toDigits 10 (identity.dueAt / 60000000).toNat
  scopeFingerprint _ _ := []

def skippingTimes (times : List String) : StoredSettings where
  nightlyTime := none
  fullRefresh := none
  fullRefreshTimes := some (times.map String.toList)
  refreshRules := .rules true

/-- The second configuration leaves out two times of the first. -/
abbrev twoSchedules : AppliedIntegrations where
  settings configuration := some <| if configuration = 1
    then skippingTimes ["02:00", "10:00", "11:00", "12:00", "14:00"]
    else skippingTimes ["02:00", "10:00", "14:00"]

/-- A minute of one day. -/
def minuteOfDay (hour minute : Int) : Int :=
  739000 * dayMicroseconds + hour * hourMicroseconds + minute * 60000000

/-- A moment of the day, with a Family email's window from 13:30 until 15:00. -/
def momentAt (configuration : Nat) (hour minute : Int) (sending : Bool) :
    Surroundings where
  now := minuteOfDay hour minute
  configuration := some configuration
  campaignRead := true
  admitted := true
  organization := some 7
  windowDigest := some []
  timezone := some "UTC".toList
  effectiveAt := none
  daytimeHeld := sending
  refreshesHeld := false
  currentWindows := [⟨minuteOfDay 13 30, minuteOfDay 15 0, .initialSending⟩]
  skipSettingSince := some (minuteOfDay 9 0)
  deliveryState := ⟨"production".toList, some 1, some false⟩
  requestRefresh _ slot := .done ⟨slot.dueAt.toNat, slot.dueAt.toNat, slot.dueAt.toNat⟩
  admitsTick _ _ := true
  admitsDecision _ _ := true

def loopAt (configuration : Nat) (hour minute : Int) (sending : Bool) : RefreshLoop :=
  let moment := momentAt configuration hour minute sending
  ⟨moment, moment, moment, none, none⟩

def fullTick (time : String) (hour : Int) : RefreshTick where
  receipt := ⟨(minuteOfDay hour 0).toNat, (minuteOfDay hour 0).toNat,
    (minuteOfDay hour 0).toNat⟩
  cause := .nightly
  configuration := 1
  dueAt := minuteOfDay hour 0
  timezone := "UTC".toList
  nightlyTime := time.toList
  slotKey := time.toList ++ Nat.toDigits 10 (minuteOfDay hour 0 / 60000000).toNat

def fullDecision (time : String) (hour : Int) (decision : SlotDecision)
    (windowCause : Option WindowCause) : DecisionRow where
  configuration := 1
  cause := .nightly
  dueAt := minuteOfDay hour 0
  timezone := "UTC".toList
  nightlyTime := time.toList
  slotKey := time.toList ++ Nat.toDigits 10 (minuteOfDay hour 0 / 60000000).toNat
  decision := decision
  windowCause := windowCause

/-- Before noon the 10:00 slot was held, and the 11:00 slot ran after its hold. -/
def beforeNoon : RefreshTables where
  ticks := [fullTick "11:00" 11]
  decisions := [fullDecision "10:00" 10 .held none, fullDecision "11:00" 11 .held none]

def morning : List RefreshLoop :=
  [loopAt 1 10 5 true, loopAt 1 11 5 true, loopAt 1 11 30 false]

theorem reaches_of_loops
    [TimeZones] [SlotDigests] [AppliedIntegrations] {loops : List RefreshLoop}
    {tables : RefreshTables} (finished : run refreshStep .empty loops = some tables) :
    Reaches refreshStep anyOp .empty tables :=
  reaches_of_run finished (allowedRun_of_invariant (fun _ => True) trivial
    (fun _ _ _ _ => trivial) fun _ _ _ _ _ _ => trivial)

theorem slots_decided_once_before_noon :
    letI := utcOnly
    letI := plainKeys
    letI := twoSchedules
    run refreshStep .empty morning = some beforeNoon ∧
      ticked (momentAt 1 11 31 false) beforeNoon =
        some [(fullTick "11:00" 11).receipt] ∧
      (∃ decisions, lockedPass (momentAt 1 11 31 false) (momentAt 1 11 31 false) none
        none beforeNoon = some ⟨beforeNoon, decisions, [], [], [],
          [(fullTick "11:00" 11).receipt]⟩) ∧
      SlotsConsistent beforeNoon := by
  let := utcOnly
  let := plainKeys
  let := twoSchedules
  have finished : run refreshStep .empty morning = some beforeNoon := by
    decide +kernel
  have idle : ticked (momentAt 1 11 31 false) beforeNoon =
      some [(fullTick "11:00" 11).receipt] := by
    decide +kernel
  obtain ⟨same, consistent, _⟩ :=
    refresh_slots_decided_once (reaches_of_loops finished)
  exact ⟨finished, idle, same _ _ none none rfl idle, consistent⟩

/-- Then the 12:00 slot was held and the 14:00 slot skipped. -/
def afternoon : RefreshTables where
  ticks := [fullTick "11:00" 11]
  decisions := [fullDecision "10:00" 10 .held none, fullDecision "11:00" 11 .held none,
    fullDecision "12:00" 12 .held none,
    fullDecision "14:00" 14 .skipped (some .initialSending)]

/-- When a new schedule drops 11:00 and 12:00, the 10:00 slot runs in place of the
skipped one, though the 11:00 slot ran and the 12:00 slot is held. -/
theorem superseded_slot_runs_instead :
    letI := utcOnly
    letI := plainKeys
    letI := twoSchedules
    ¬ ∀ tables, Reaches refreshStep anyOp .empty tables →
      ∀ loop next, refreshStep loop tables = some next →
      ∀ tick ∈ next.ticks, tick ∉ tables.ticks →
        (∃ found, cadence loop.locked = some found ∧
          ∃ slot ∈ currentSlots found tables loop.early.effectiveAt,
            tick.IsOf slot) ∨
        (∀ row ∈ next.decisions, row.decision = .held → row.cause = tick.cause →
          row.slotKey ∉ next.ticks.map RefreshTick.slotKey →
          (∃ skipped ∈ next.decisions, skipped.decision = .skipped ∧
            row.dueAt < skipped.dueAt) → row.dueAt ≤ tick.dueAt) ∧
        ∀ other ∈ tables.ticks, other.cause = tick.cause → other.dueAt ≤ tick.dueAt := by
  let := utcOnly
  let := plainKeys
  let := twoSchedules
  intro always
  have finished : run refreshStep .empty
      (morning ++ [loopAt 1 12 5 true, loopAt 1 14 5 true]) = some afternoon := by
    decide +kernel
  have instead : refreshStep (loopAt 2 14 20 false) afternoon = some {
      afternoon with ticks := afternoon.ticks ++
        [{ fullTick "10:00" 10 with configuration := 2 }] } := by
    decide +kernel
  rcases always afternoon (reaches_of_loops finished) _ _ instead
      { fullTick "10:00" 10 with configuration := 2 }
      (List.mem_append_right _ List.mem_cons_self) (by decide +kernel) with
    ⟨found, isFound, slot, isCurrent, isOf⟩ | ⟨newest, _⟩
  · have current : ((cadence (momentAt 2 14 20 false)).map fun found =>
        (currentSlots found afternoon none).map RefreshSlot.dueAt) =
          some [minuteOfDay 14 0] := by
      decide +kernel
    have isCadence : cadence (momentAt 2 14 20 false) = some found := isFound
    rw [isCadence] at current
    have isDue : slot.dueAt ∈ [minuteOfDay 14 0] := by
      rw [← Option.some.inj current]
      exact List.mem_map.mpr ⟨slot, isCurrent, rfl⟩
    rw [List.mem_singleton, ← isOf.due] at isDue
    exact absurd isDue (by decide +kernel)
  · have later := newest (fullDecision "12:00" 12 .held none) (by decide +kernel) rfl rfl
      (by decide +kernel) ⟨fullDecision "14:00" 14 .skipped (some .initialSending),
        by decide +kernel, rfl, by decide +kernel⟩
    exact absurd later (by decide +kernel)

end ParishKit.Source
