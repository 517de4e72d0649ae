import ParishKit.Lifecycle.Writes

/-!
# What holds in every state

A campaign's state tells its flags, its links and which of its dates have passed; the
pointer names the one campaign that is not archived; and the system is in Testing
exactly while that campaign is a draft.
-/

namespace ParishKit.Lifecycle

open ParishKit.Lib ParishKit.Campaigns
open ParishKit.Jobs (Uuid)

variable {Timezone Content : Type} [TimezoneRules Timezone]

/-- What the state of a campaign says, `latest` being the latest instant a write has
read. -/
def Campaign.Staged (campaign : Campaign Timezone Content) (latest : Int) : Prop :=
  let dates := campaign.configuration
  match campaign.state with
  | .draft =>
      campaign.everActive = false ∧ campaign.structuralLocked = false ∧
        campaign.activeTokenGeneration = none
  | .scheduled =>
      campaign.everActive = false ∧ campaign.structuralLocked = true ∧
        campaign.activeTokenGeneration ≠ none
  | .active =>
      campaign.everActive = true ∧ campaign.structuralLocked = true ∧
        campaign.activeTokenGeneration ≠ none ∧ dates.startsAt ≤ latest
  | .closed | .archived =>
      campaign.everActive = true ∧ campaign.structuralLocked = true ∧
        campaign.activeTokenGeneration = none ∧ dates.endsAt ≤ latest
  | _ => False

structure Database.Sound (database : Database Timezone Content) (latest : Int) : Prop where
  distinct : (database.campaigns.map (·.id)).Nodup
  staged : ∀ campaign ∈ database.campaigns, campaign.Staged latest
  pointed : ∀ id, database.runtime.currentCampaign = some id →
    id ∈ database.campaigns.map (·.id)
  openCurrent : ∀ campaign ∈ database.campaigns, campaign.state ≠ .archived →
    database.runtime.currentCampaign = some campaign.id
  inMode : ∀ campaign ∈ database.campaigns,
    database.runtime.currentCampaign = some campaign.id →
      (database.runtime.mode = .testing ↔ campaign.state = .draft)
  unpointed : database.runtime.currentCampaign = none → database.runtime.mode = .testing
  behind : ∀ row ∈ database.transitions,
    row.expectedRuntimeVersion < database.runtime.version

variable {database next : Database Timezone Content}
  {campaign saved : Campaign Timezone Content}
  {proposed : CampaignConfiguration Timezone Content} {instant latest later : Int}
  {seen : Findings}

/-! ## Stages -/

theorem Campaign.Staged.mono (staged : campaign.Staged latest) (le : latest ≤ later) :
    campaign.Staged later := by
  unfold Staged at staged ⊢
  cases isState : campaign.state <;> simp only [isState] at staged ⊢
  case draft => exact staged
  case scheduled => exact staged
  case active =>
      exact ⟨staged.1, staged.2.1, staged.2.2.1, staged.2.2.2.trans le⟩
  all_goals exact ⟨staged.1, staged.2.1, staged.2.2.1, staged.2.2.2.trans le⟩

/-- A new projection of a campaign whose start, once locked, and whose end, once over,
are as they were. -/
theorem Campaign.Staged.reconfigured (staged : campaign.Staged latest)
    (startsAt : campaign.structuralLocked = true →
      proposed.startsAt = campaign.configuration.startsAt)
    (endsAt : campaign.structuralLocked = true → campaign.state ∈ [.closed, .archived] →
      proposed.endsAt = campaign.configuration.endsAt) :
    (campaign.reconfigured proposed).Staged latest := by
  unfold Staged at staged ⊢
  simp only [Campaign.reconfigured]
  cases isState : campaign.state <;> simp only [isState] at staged endsAt ⊢
  case draft => exact staged
  case scheduled => exact staged
  case active =>
      rw [startsAt staged.2.1]
      exact staged
  case closed =>
      rw [endsAt staged.2.1 (by simp)]
      exact staged
  case archived =>
      rw [endsAt staged.2.1 (by simp)]
      exact staged

/-- A locked campaign is no draft. -/
theorem Campaign.Staged.locked_iff (staged : campaign.Staged latest) :
    campaign.structuralLocked = true ↔ campaign.state ≠ .draft := by
  unfold Staged at staged
  cases isState : campaign.state <;> simp only [isState] at staged <;> simp [staged]

/-- A reopened campaign has its links and its start behind it, wherever its end was. -/
theorem CampaignTransition.Admitted.staged_reopen {row : CampaignTransition}
    (admitted : row.Admitted database campaign instant seen) (isReopen : row.action = .reopen)
    (locked : campaign.structuralLocked = true) (reached : instant ≤ later) :
    (row.moved campaign).Staged later := by
  have leads := admitted.leads
  unfold Leads at leads
  simp only [isReopen] at leads
  obtain ⟨_, hasTokens, _, due, _, _, isState, _⟩ := leads
  have started : campaign.configuration.startsAt ≤ later := due.trans reached
  simp [Campaign.Staged, moved, isState, isReopen, locked, hasTokens, started]

/-- A transition leads to what its target state says. -/
theorem CampaignTransition.Admitted.staged {row : CampaignTransition}
    (admitted : row.Admitted database campaign instant seen)
    (staged : campaign.Staged latest) (le : latest ≤ later) (reached : instant ≤ later) :
    (row.moved campaign).Staged later := by
  have leads := admitted.leads
  unfold Leads at leads
  unfold Campaign.Staged at staged ⊢
  cases isAction : row.action <;> simp only [isAction] at leads
  case activate =>
      obtain ⟨isDraft, _, _, hasTokens, isState, _⟩ := leads
      simp only [isDraft] at staged
      by_cases early : instant < campaign.configuration.startsAt
      · simp [moved, isState, isAction, early, staged, hasTokens]
      · have started : campaign.configuration.startsAt ≤ later := by omega
        simp [moved, isState, isAction, early, hasTokens, started]
  case start =>
      obtain ⟨isScheduled, _, due, isState, _⟩ := leads
      simp only [isScheduled] at staged
      have started : campaign.configuration.startsAt ≤ later := due.trans reached
      simp [moved, isState, isAction, staged, started]
  case close =>
      obtain ⟨isActive, _, due, isState, _⟩ := leads
      simp only [isActive] at staged
      have ended : campaign.configuration.endsAt ≤ later := due.trans reached
      simp [moved, isState, isAction, staged, ended]
  case withdraw =>
      obtain ⟨_, never, _, _, _, _, isState, _⟩ := leads
      simp [moved, isState, isAction, never]
  case reopen =>
      simp only [leads.1] at staged
      exact admitted.staged_reopen isAction staged.2.1 reached
  case archive =>
      obtain ⟨isClosed, _, _, _, isState, _⟩ := leads
      simp only [isClosed] at staged
      have ended : campaign.configuration.endsAt ≤ later := staged.2.2.2.trans le
      simp [moved, isState, isAction, staged, ended]
  case unarchive =>
      obtain ⟨isArchived, _, isState, _⟩ := leads
      simp only [isArchived] at staged
      have ended : campaign.configuration.endsAt ≤ later := staged.2.2.2.trans le
      simp [moved, isState, isAction, staged, ended]

/-- The mode after a transition fits the state it leads to. -/
theorem CampaignTransition.Admitted.inMode {row : CampaignTransition}
    (admitted : row.Admitted database campaign instant seen)
    (inMode : database.runtime.mode = .testing ↔ campaign.state = .draft) :
    row.afterMode = .testing ↔ row.afterState = .draft := by
  have leads := admitted.leads
  unfold Leads at leads
  cases isAction : row.action <;> simp only [isAction] at leads
  case activate =>
      obtain ⟨_, _, _, _, isState, isMode⟩ := leads
      rw [isState, isMode]
      split <;> simp
  case start => simp [leads]
  case close => simp [leads]
  case withdraw => simp [leads]
  case reopen => simp [leads]
  case archive =>
      rw [leads.2.2.2.2.2, leads.2.2.2.2.1, inMode, leads.1]
      simp
  case unarchive =>
      rw [leads.2.2.2, leads.2.2.1, inMode, leads.1]
      simp

/-! ## Writes to the current campaign -/

/-- Writing the current campaign anew. -/
theorem Database.Sound.replaced (sound : database.Sound latest)
    (member : campaign ∈ database.campaigns) (same : campaign.id = saved.id)
    (isCurrent : database.runtime.currentCampaign = some campaign.id) (le : latest ≤ later)
    (staged : saved.Staged later)
    (campaigns : next.campaigns = (database.put saved).campaigns)
    (pointer : next.runtime.currentCampaign = some campaign.id)
    (inMode : next.runtime.mode = .testing ↔ saved.state = .draft)
    (behind : ∀ row ∈ next.transitions,
      row.expectedRuntimeVersion < next.runtime.version) : next.Sound later where
  distinct := by
    rw [campaigns, map_id_put]
    exact sound.distinct
  staged := by
    intro other isOther
    rw [campaigns, mem_put_iff member same] at isOther
    rcases isOther with isSaved | ⟨otherMember, _⟩
    · rw [isSaved]
      exact staged
    · exact (sound.staged other otherMember).mono le
  pointed := by
    intro id isId
    rw [campaigns, map_id_put]
    rw [pointer] at isId
    cases isId
    exact List.mem_map_of_mem member
  openCurrent := by
    intro other isOther isOpen
    rw [campaigns, mem_put_iff member same] at isOther
    rcases isOther with isSaved | ⟨otherMember, different⟩
    · rw [pointer, isSaved, same]
    · have otherCurrent := sound.openCurrent other otherMember isOpen
      rw [isCurrent] at otherCurrent
      exact absurd ((Option.some.inj otherCurrent).symm.trans same) different
  inMode := by
    intro other isOther otherCurrent
    rw [campaigns, mem_put_iff member same] at isOther
    rcases isOther with isSaved | ⟨otherMember, different⟩
    · rw [isSaved]
      exact inMode
    · rw [pointer] at otherCurrent
      exact absurd ((Option.some.inj otherCurrent).symm.trans same) different
  unpointed := by
    intro unpointed
    rw [pointer] at unpointed
    cases unpointed
  behind := behind

theorem Database.Sound.of_transition {row : CampaignTransition}
    (sound : database.Sound latest)
    (inserted : insertTransition database instant seen row = some next) :
    next.Sound (max latest instant) := by
  obtain ⟨campaign, isFound, admitted, rfl⟩ := insertTransition_eq_some.mp inserted
  have stamp := CampaignTransition.stamped_iff.mp admitted.stamped
  obtain ⟨member, named⟩ := Database.campaign?_some isFound
  have same : campaign.id = (row.moved campaign).id := rfl
  have staged := admitted.staged (sound.staged campaign member)
    (le_max_left latest instant) (le_max_right latest instant)
  refine sound.replaced member same stamp.current (le_max_left latest instant) staged ?_ ?_
    ?_ ?_
  · rfl
  · exact congrArg some named.symm
  · exact admitted.inMode (sound.inMode campaign member stamp.current)
  · intro made isMade
    rcases List.mem_append.mp isMade with before | isRow
    · exact Nat.lt_succ_of_lt (sound.behind made before)
    · rw [List.mem_singleton.mp isRow, ← stamp.runtimeVersion]
      exact Nat.lt_succ_self _

theorem ControlChange.staged_changed {row : ControlChange}
    (staged : campaign.Staged latest) : (row.changed campaign).Staged latest :=
  staged

theorem Database.Sound.of_control {row : ControlChange} (sound : database.Sound latest)
    (inserted : insertControl database instant seen row = some next) :
    next.Sound (max latest instant) := by
  obtain ⟨campaign, isFound, isCurrent, rfl⟩ := insertControl_eq_some inserted
  obtain ⟨member, _⟩ := Database.campaign?_some isFound
  have same : campaign.id = (row.changed campaign).id := rfl
  have staged := (sound.staged campaign member).mono (le_max_left latest instant)
  exact sound.replaced member same isCurrent (le_max_left latest instant)
    (ControlChange.staged_changed staged) rfl isCurrent
    (sound.inMode campaign member isCurrent) sound.behind

/-! ## Runtime transitions of their own -/

/-- A transition's evidence is spent: it moves the runtime once. -/
theorem Database.Sound.not_campaign_action {row : RuntimeTransition}
    (sound : database.Sound latest)
    (admitted : row.Admitted database instant seen) : row.action ≠ .campaign := by
  intro isCampaign
  have evidence := admitted.admitted
  simp only [RuntimeTransition.admitted, isCampaign, List.any_eq_true, Bool.and_eq_true,
    decide_eq_true_eq] at evidence
  obtain ⟨made, isMade, evidence⟩ := evidence
  have behind := sound.behind made isMade
  rw [evidence.1.1.1.1.1.2] at behind
  exact Nat.lt_irrefl _ behind

/-- Apart from the return to Testing, a runtime transition of its own keeps the mode and
the pointer. -/
theorem RuntimeTransition.Admitted.keeps {row : RuntimeTransition}
    (admitted : row.Admitted database instant seen) (other : row.action ≠ .campaign)
    (stays : row.action ≠ .returnTesting) :
    row.afterMode = database.runtime.mode ∧
      row.afterCampaign = database.runtime.currentCampaign := by
  have passed := admitted.admitted
  rw [← admitted.mode, ← admitted.campaign]
  cases isAction : row.action with
  | returnTesting => exact absurd isAction stays
  | campaign => exact absurd isAction other
  | restoreBegin =>
      simp only [RuntimeTransition.admitted, isAction, Bool.and_eq_true,
        decide_eq_true_eq] at passed
      exact ⟨passed.1.1.1.1.1.1.1.2, passed.1.1.1.1.1.1.2⟩
  | restoreRelease =>
      simp only [RuntimeTransition.admitted, isAction, Bool.and_eq_true,
        decide_eq_true_eq] at passed
      exact ⟨passed.1.1.1.1.1.1.1.2, passed.1.1.1.1.1.1.2⟩

/-- The system returns to Testing from an archived campaign, and drops the pointer. -/
theorem RuntimeTransition.Admitted.returns {row : RuntimeTransition}
    (admitted : row.Admitted database instant seen) (returns : row.action = .returnTesting) :
    row.afterMode = .testing ∧ row.afterCampaign = none ∧
      database.currentIn [.archived] = true := by
  have passed := admitted.admitted
  simp only [RuntimeTransition.admitted, returns, Bool.and_eq_true, decide_eq_true_eq,
    Option.isNone_iff_eq_none] at passed
  exact ⟨passed.1.1.1.1.1.2, passed.1.1.1.1.2, passed.1.2⟩

theorem Database.Sound.of_runtime {row : RuntimeTransition} (sound : database.Sound latest)
    (inserted : insertRuntimeTransition database instant seen row = some next) :
    next.Sound (max latest instant) := by
  obtain ⟨admitted, rfl⟩ := insertRuntimeTransition_eq_some.mp inserted
  have other := sound.not_campaign_action admitted
  have staged : ∀ campaign ∈ database.campaigns, campaign.Staged (max latest instant) :=
    fun campaign member => (sound.staged campaign member).mono (le_max_left _ _)
  have behind : ∀ made ∈ database.transitions,
      made.expectedRuntimeVersion < database.runtime.version + 1 :=
    fun made member => Nat.lt_succ_of_lt (sound.behind made member)
  by_cases returns : row.action = .returnTesting
  · obtain ⟨isTesting, isNone, isArchived⟩ := admitted.returns returns
    obtain ⟨archived, isMember, isCurrent, isState⟩ := Database.of_currentIn isArchived
    have noneOpen : ∀ campaign ∈ database.campaigns, campaign.state = .archived := by
      intro campaign member
      by_contra isOpen
      have same := sound.openCurrent campaign member isOpen
      rw [isCurrent] at same
      have isSame := Database.eq_of_id sound.distinct member isMember (Option.some.inj same)
      rw [← isSame] at isOpen
      exact isOpen (List.mem_singleton.mp isState)
    have isUnpointed : (database.applyRuntime row).runtime.currentCampaign = none := isNone
    exact
      { distinct := sound.distinct
        staged := staged
        pointed := fun id isId => by
          rw [isUnpointed] at isId
          cases isId
        openCurrent := fun campaign member isOpen => absurd (noneOpen campaign member) isOpen
        inMode := fun campaign member isId => by
          rw [isUnpointed] at isId
          cases isId
        unpointed := fun _ => isTesting
        behind := behind }
  · obtain ⟨sameMode, samePointer⟩ := admitted.keeps other returns
    exact
      { distinct := sound.distinct
        staged := staged
        pointed := fun id isId => sound.pointed id (samePointer ▸ isId)
        openCurrent := fun campaign member isOpen =>
          samePointer.trans (sound.openCurrent campaign member isOpen)
        inMode := by
          intro campaign member isCurrent
          have before := sound.inMode campaign member (samePointer ▸ isCurrent)
          rw [← sameMode] at before
          exact before
        unpointed := by
          intro unpointed
          have before := sound.unpointed (samePointer ▸ unpointed)
          exact sameMode.trans before
        behind := behind }

end ParishKit.Lifecycle
