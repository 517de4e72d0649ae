import ParishKit.Lib.Except
import ParishKit.Lib.Keyed
import ParishKit.Lib.Transition
import ParishKit.Source.RefreshProduction

/-!
# The idle shortcut

No key is both skipped and ticked, so a pass that the shortcut leaves out would
have done nothing.
-/

namespace ParishKit.Source

open ParishKit.Lib

/-! ## The tables -/

namespace RefreshTables

variable {tables next : RefreshTables} {key : Text}

theorem isTicked_iff : tables.isTicked key = true ↔
    key ∈ tables.ticks.map RefreshTick.slotKey := by
  unfold isTicked tick?
  rw [List.find?_isSome, List.mem_map]
  constructor
  · rintro ⟨tick, isTick, same⟩
    exact ⟨tick, isTick, beq_iff_eq.mp same⟩
  · rintro ⟨tick, isTick, same⟩
    exact ⟨tick, isTick, beq_iff_eq.mpr same⟩

theorem decision?_eq_some
    {decision : SlotDecision} (found : tables.decision? key = some decision) :
    ∃ row ∈ tables.decisions, row.slotKey = key ∧ row.decision = decision := by
  obtain ⟨row, isFound, isDecision⟩ := Option.map_eq_some_iff.mp found
  obtain ⟨isRow, sameKey⟩ := mem_of_find?_key isFound
  exact ⟨row, isRow, sameKey, isDecision⟩

theorem decision?_of_mem
    (once : (tables.decisions.map DecisionRow.slotKey).Nodup) {row : DecisionRow}
    (isRow : row ∈ tables.decisions) :
    tables.decision? row.slotKey = some row.decision := by
  unfold decision?
  rw [find?_key_of_mem once isRow]
  rfl

theorem decision?_isNone (fresh : tables.decision? key = none) :
    key ∉ tables.decisions.map DecisionRow.slotKey := by
  intro named
  obtain ⟨row, isRow, same⟩ := List.mem_map.mp named
  have absent := List.find?_eq_none.mp (Option.map_eq_none_iff.mp fresh) row isRow
  exact absent (beq_iff_eq.mpr same)

variable {moment : Surroundings}

theorem insertTick_done
    {tick : RefreshTick} (inserted : tables.insertTick moment tick = .done next) :
    tables.isTicked tick.slotKey = false ∧
      next = { tables with ticks := tables.ticks ++ [tick] } := by
  unfold insertTick at inserted
  split at inserted
  · cases inserted
  · split at inserted
    · cases inserted
    · rename_i fresh
      cases inserted
      exact ⟨Bool.not_eq_true _ ▸ fresh, rfl⟩

theorem insertDecision_done
    {row : DecisionRow} (inserted : tables.insertDecision moment row = .done next) :
    tables.decision? row.slotKey = none ∧
      next = { tables with decisions := tables.decisions ++ [row] } := by
  unfold insertDecision at inserted
  split at inserted
  · cases inserted
  · split at inserted
    · cases inserted
    · rename_i fresh
      cases inserted
      exact ⟨Option.not_isSome_iff_eq_none.mp fresh, rfl⟩

/-- A new row decides its own slot only. -/
theorem decision?_append
    {row : DecisionRow} (fresh : tables.decision? row.slotKey = none) :
    RefreshTables.decision? { tables with decisions := tables.decisions ++ [row] } =
      Function.update tables.decision? row.slotKey (some row.decision) := by
  funext key
  unfold decision? at fresh ⊢
  rw [List.find?_append]
  by_cases same : key = row.slotKey
  · subst same
    rw [Option.map_eq_none_iff.mp fresh, Option.none_or, Function.update_self,
      List.find?_cons_of_pos (by rw [beq_iff_eq])]
    rfl
  · rw [Function.update_of_ne same, List.find?_cons_of_neg (by
      rw [beq_iff_eq]
      exact Ne.symm same), List.find?_nil, Option.or_none]

end RefreshTables

/-! ## A pass with nothing to do -/

/-- A pass over slots that all have a tick returns their receipts. -/
theorem foldlM_passSlot_ticked
    {inputs : PassInputs} {slots : List RefreshSlot} {state : PassState}
    {receipts : List RefreshReceipt}
    (ticked : slots.mapM (fun slot => (state.tables.tick? slot.slotKey).map
      RefreshTick.receipt) = some receipts) :
    slots.foldlM (passSlot inputs) state =
      some { state with result := state.result ++ receipts } := by
  induction slots generalizing state receipts with
  | nil =>
      cases ticked
      rw [List.foldlM_nil]
      simp
  | cons slot rest inductionHypothesis =>
      rw [List.mapM_cons] at ticked
      obtain ⟨first, isFirst, afterFirst⟩ := Option.bind_eq_some_iff.mp ticked
      obtain ⟨others, areOthers, assembled⟩ := Option.bind_eq_some_iff.mp afterFirst
      clear ticked afterFirst
      cases assembled
      obtain ⟨tick, isTick, rfl⟩ := Option.map_eq_some_iff.mp isFirst
      have passed : passSlot inputs state slot =
          some { state with result := state.result ++ [tick.receipt] } := by
        unfold passSlot
        rw [isTick]
      have again := @inductionHypothesis
        { state with result := state.result ++ [tick.receipt] } others areOthers
      rw [List.foldlM_cons, passed, Option.bind_eq_bind, Option.bind_some, again,
        List.append_assoc]
      rfl

/-- No held slot takes the place of a slot that was not skipped. -/
theorem heldInstead_eq_none
    {candidates : List RefreshSlot} {tables : RefreshTables}
    {decisions : Text → Option SlotDecision} {slot : RefreshSlot}
    (unskipped : decisions slot.slotKey ≠ some .skipped) :
    heldInstead candidates tables decisions slot = none :=
  if_neg unskipped

/-- Slots outside every window wait for a hold only. -/
theorem foldlM_decideSlot_undecided
    {inputs : PassInputs} {windows : List EmailWindow} {slots : List RefreshSlot}
    {state : PassState}
    (idle : slots = [] ∨ inputs.held = false ∧
      ∀ slot ∈ slots, windowCause windows slot.dueAt = none) :
    slots.foldlM (decideSlot inputs windows) state = some state := by
  refine option_foldlM_fixed fun slot member => ?_
  rcases idle with rfl | ⟨free, outside⟩
  · cases member
  · unfold decideSlot
    rw [outside slot member, free]
    rfl

section

variable [AppliedIntegrations]

/-- Each slot has at most one tick and one decision, never a tick after a skip, and
a slot at the nightly time has no decision under its schedule. -/
structure SlotsConsistent (tables : RefreshTables) : Prop where
  ticksOnce : (tables.ticks.map RefreshTick.slotKey).Nodup
  decisionsOnce : (tables.decisions.map DecisionRow.slotKey).Nodup
  skippedUnticked : ∀ row ∈ tables.decisions, row.decision = .skipped →
    row.slotKey ∉ tables.ticks.map RefreshTick.slotKey
  nightlyUndecided : ∀ row ∈ tables.decisions, row.cause = .nightly →
    ∃ settings, AppliedIntegrations.settings row.configuration = some settings ∧
      row.nightlyTime ≠ (refreshSettings settings).nightlyTime

theorem SlotsConsistent.empty : SlotsConsistent .empty where
  ticksOnce := List.nodup_nil
  decisionsOnce := List.nodup_nil
  skippedUnticked := nofun
  nightlyUndecided := nofun

namespace SlotsConsistent

variable {tables : RefreshTables}

theorem not_ticked_of_skipped
    (consistent : SlotsConsistent tables) {key : Text}
    (skipped : tables.decision? key = some .skipped) :
    tables.isTicked key = false := by
  obtain ⟨row, isRow, rfl, isSkipped⟩ := RefreshTables.decision?_eq_some skipped
  rw [Bool.eq_false_iff, Ne, RefreshTables.isTicked_iff]
  exact consistent.skippedUnticked row isRow isSkipped

theorem addTick
    (consistent : SlotsConsistent tables) {tick : RefreshTick}
    (fresh : tables.isTicked tick.slotKey = false)
    (unskipped : tables.decision? tick.slotKey ≠ some .skipped) :
    SlotsConsistent { tables with ticks := tables.ticks ++ [tick] } where
  ticksOnce := by
    rw [List.map_append]
    refine consistent.ticksOnce.append (List.nodup_singleton _)
      (List.disjoint_singleton.mpr ?_)
    rw [← RefreshTables.isTicked_iff, fresh]
    exact Bool.false_ne_true
  decisionsOnce := consistent.decisionsOnce
  skippedUnticked row isRow isSkipped := by
    rw [List.map_append, List.mem_append, not_or]
    refine ⟨consistent.skippedUnticked row isRow isSkipped, fun isTick => ?_⟩
    have same : row.slotKey = tick.slotKey := List.mem_singleton.mp isTick
    rw [← same, RefreshTables.decision?_of_mem consistent.decisionsOnce isRow] at unskipped
    exact unskipped (congrArg some isSkipped)
  nightlyUndecided := consistent.nightlyUndecided

theorem addDecision
    (consistent : SlotsConsistent tables) {row : DecisionRow}
    (fresh : tables.decision? row.slotKey = none)
    (unticked : row.decision = .skipped → tables.isTicked row.slotKey = false)
    (notNightly : row.cause = .nightly →
      ∃ settings, AppliedIntegrations.settings row.configuration = some settings ∧
        row.nightlyTime ≠ (refreshSettings settings).nightlyTime) :
    SlotsConsistent { tables with decisions := tables.decisions ++ [row] } where
  ticksOnce := consistent.ticksOnce
  decisionsOnce := by
    rw [List.map_append]
    exact consistent.decisionsOnce.append (List.nodup_singleton _)
      (List.disjoint_singleton.mpr (RefreshTables.decision?_isNone fresh))
  skippedUnticked other isOther isSkipped := by
    rcases List.mem_append.mp isOther with before | isRow
    · exact consistent.skippedUnticked other before isSkipped
    · rw [List.mem_singleton.mp isRow] at isSkipped ⊢
      change row.slotKey ∉ tables.ticks.map RefreshTick.slotKey
      rw [← RefreshTables.isTicked_iff, unticked isSkipped]
      exact Bool.false_ne_true
  nightlyUndecided other isOther isNightly := by
    rcases List.mem_append.mp isOther with before | isRow
    · exact consistent.nightlyUndecided other before isNightly
    · rw [List.mem_singleton.mp isRow] at isNightly ⊢
      exact notNightly isNightly

end SlotsConsistent

/-! ## The shortcut -/

variable [TimeZones] [SlotDigests]

omit [AppliedIntegrations] in
/-- The pass decides nothing where the shortcut finds nothing to decide. -/
theorem decideSlots_idle
    {moment : Surroundings} {inputs : PassInputs} {cadence : Cadence}
    {candidates latest : List RefreshSlot} {tables : RefreshTables} {state : PassState}
    (sameTables : state.tables = tables) (sameHeld : inputs.held = moment.daytimeHeld)
    (sameCadence : inputs.cadence = cadence) (listed : cadence.listed = some candidates)
    (idle : mayDecide moment tables cadence = some false)
    (unskipped : ∀ slot ∈ latest, tables.decision? slot.slotKey ≠ some .skipped) :
    ∃ decisions, decideSlots inputs moment.currentWindows moment.skipSettingSince
      candidates latest state = some ({ state with decisions := some decisions }, []) := by
  subst sameTables sameCadence
  unfold mayDecide at idle
  rw [listed] at idle
  have nothing : undecided candidates state.tables
        inputs.cadence.schedule.nightlyTime moment.skipSettingSince = [] ∨
      inputs.held = false ∧ ∀ slot ∈ undecided candidates state.tables
        inputs.cadence.schedule.nightlyTime moment.skipSettingSince,
        windowCause moment.currentWindows slot.dueAt = none := by
    simpa [sameHeld, imp_iff_not_or] using idle
  let known : Text → Option SlotDecision := fun key =>
    if key ∈ (candidates ++ latest).map RefreshSlot.slotKey then
      state.tables.decision? key
    else none
  have none' : latest.filterMap (heldInstead candidates state.tables known) = [] := by
    rw [List.filterMap_eq_nil_iff]
    intro slot isLatest
    refine heldInstead_eq_none fun isSkipped => ?_
    have named : slot.slotKey ∈ (candidates ++ latest).map RefreshSlot.slotKey :=
      List.mem_map.mpr ⟨slot, List.mem_append_right _ isLatest, rfl⟩
    have found : known slot.slotKey = state.tables.decision? slot.slotKey :=
      if_pos named
    rw [found] at isSkipped
    exact unskipped slot isLatest isSkipped
  refine ⟨known, ?_⟩
  unfold decideSlots
  dsimp only
  rw [foldlM_decideSlot_undecided nothing]
  simp only [Option.bind_eq_bind, Option.bind_some, Option.getD_some]
  rw [show latest.filterMap _ = [] from none', ite_self]

omit [AppliedIntegrations] [TimeZones] [SlotDigests] in
theorem isTicked_of_mapM
    {tables : RefreshTables} {slots : List RefreshSlot} {receipts : List RefreshReceipt}
    (ticked : slots.mapM (fun slot => (tables.tick? slot.slotKey).map
      RefreshTick.receipt) = some receipts) :
    ∀ slot ∈ slots, tables.isTicked slot.slotKey = true := by
  intro slot member
  obtain ⟨receipt, _, isReceipt⟩ :=
    exists_output_of_forall₂ (option_mapM_eq_some ticked) member
  obtain ⟨tick, isTick, _⟩ := Option.map_eq_some_iff.mp isReceipt
  unfold RefreshTables.isTicked
  rw [isTick]
  rfl

theorem ticked_eq_some
    {moment : Surroundings} {tables : RefreshTables} {receipts : List RefreshReceipt}
    (idle : ticked moment tables = some receipts) :
    ∃ found, cadence moment = some found ∧
      (currentSlots found tables moment.effectiveAt).mapM (fun slot =>
        (tables.tick? slot.slotKey).map RefreshTick.receipt) = some receipts ∧
      (skipsAroundEmails found.settings = true →
        mayDecide moment tables found = some false) := by
  unfold ticked at idle
  split at idle
  · cases idle
  obtain ⟨found, isFound, afterCadence⟩ := Option.bind_eq_some_iff.mp idle
  obtain ⟨all, areAll, decided⟩ := Option.bind_eq_some_iff.mp afterCadence
  clear idle afterCadence
  split at decided
  · obtain ⟨decides, isDecides, assembled⟩ := Option.bind_eq_some_iff.mp decided
    cases decides with
    | true => cases assembled
    | false =>
        cases assembled
        exact ⟨found, isFound, areAll, fun _ => isDecides⟩
  · rename_i never
    cases decided
    exact ⟨found, isFound, areAll, fun always => absurd always never⟩

/-- What `_cadence` has read. -/
theorem cadence_eq_some
    {moment : Surroundings} {found : Cadence} (isFound : cadence moment = some found) :
    moment.organization.isSome = true ∧ moment.settings = some found.settings ∧
      AppliedIntegrations.settings found.configuration = some found.settings ∧
      found.schedule = refreshSettings found.settings ∧
      ∃ now, dueSlots now found.timezone found.fingerprint found.schedule =
        some found.slots := by
  obtain ⟨configuration, isConfiguration, afterConfiguration⟩ :=
    Option.bind_eq_some_iff.mp isFound
  obtain ⟨organization, isOrganization, afterOrganization⟩ :=
    Option.bind_eq_some_iff.mp afterConfiguration
  obtain ⟨windowDigest, _, afterWindow⟩ := Option.bind_eq_some_iff.mp afterOrganization
  obtain ⟨settings, isSettings, afterSettings⟩ := Option.bind_eq_some_iff.mp afterWindow
  obtain ⟨timezone, _, afterTimezone⟩ := Option.bind_eq_some_iff.mp afterSettings
  obtain ⟨slots, isSlots, assembled⟩ := Option.bind_eq_some_iff.mp afterTimezone
  clear isFound afterConfiguration afterOrganization afterWindow afterSettings
    afterTimezone
  cases assembled
  refine ⟨?_, ?_, isSettings, rfl, moment.now, isSlots⟩
  · rw [isOrganization]
    rfl
  · unfold Surroundings.settings
    rw [isConfiguration]
    exact isSettings

/-- Nothing is decided first, at a moment the shortcut finds idle. -/
theorem planSlots_idle
    {moment : Surroundings} {tables : RefreshTables} {found : Cadence}
    {slots : List RefreshSlot} (isSettings : moment.settings = some found.settings)
    (idle : skipsAroundEmails found.settings = true →
      mayDecide moment tables found = some false)
    (unskipped : ∀ slot ∈ slots, tables.decision? slot.slotKey ≠ some .skipped)
    (skipped refused : Option (List Text)) :
    ∃ decisions, planSlots moment moment
      (passInputs moment moment found slots skipped refused tables) slots
      ⟨tables, none, [], [], [], []⟩ =
        some (⟨tables, decisions, [], [], [], []⟩, []) := by
  unfold planSlots skipPlanning
  rw [isSettings]
  dsimp only
  by_cases skips : skipsAroundEmails found.settings = true
  · obtain ⟨candidates, listed, _⟩ := Option.bind_eq_some_iff.mp (idle skips)
    have start : ∃ decisions, decideSlots
        (passInputs moment moment found slots skipped refused tables)
        moment.currentWindows moment.skipSettingSince candidates slots
        ⟨tables, none, [], [], [], []⟩ =
          some (⟨tables, some decisions, [], [], [], []⟩, []) :=
      decideSlots_idle rfl rfl rfl listed (idle skips) unskipped
    obtain ⟨decisions, isDecided⟩ := start
    have sameSettings : (passInputs moment moment found slots skipped refused
        tables).cadence = found := rfl
    refine ⟨some decisions, ?_⟩
    rw [if_pos skips]
    dsimp only
    rw [sameSettings, skips, beq_self_eq_true, Bool.and_self, if_pos rfl, listed]
    exact isDecided
  · rw [if_neg skips]
    exact ⟨none, rfl⟩

/-- The pass at the same moment finds the receipts of the shortcut and nothing
else. -/
theorem lockedPass_of_ticked
    {moment : Surroundings} {tables : RefreshTables} {receipts : List RefreshReceipt}
    (consistent : SlotsConsistent tables) (admitted : moment.admitted = true)
    (idle : ticked moment tables = some receipts)
    (skipped refused : Option (List Text)) :
    ∃ decisions, lockedPass moment moment skipped refused tables =
      some ⟨tables, decisions, [], [], [], receipts⟩ := by
  obtain ⟨found, isFound, areReceipts, decidesNothing⟩ := ticked_eq_some idle
  obtain ⟨isOrganization, isSettings, _, _, _⟩ := cadence_eq_some isFound
  have unskipped : ∀ slot ∈ currentSlots found tables moment.effectiveAt,
      tables.decision? slot.slotKey ≠ some .skipped := by
    intro slot isSlot isSkipped
    have isTicked := isTicked_of_mapM areReceipts slot isSlot
    rw [consistent.not_ticked_of_skipped isSkipped] at isTicked
    cases isTicked
  have notRefused : ¬(moment.admitted = false ∨ moment.organization.isNone = true) := by
    rw [admitted, ← Option.not_isSome, isOrganization]
    decide
  obtain ⟨decisions, isPlanned⟩ := planSlots_idle isSettings decidesNothing unskipped
    skipped refused
  refine ⟨decisions, ?_⟩
  unfold lockedPass
  dsimp only
  rw [if_neg notRefused, isFound, Option.bind_eq_bind, Option.bind_some, isPlanned,
    Option.bind_eq_bind, Option.bind_some]
  dsimp only
  rw [List.append_nil]
  exact foldlM_passSlot_ticked areReceipts

end

end ParishKit.Source
