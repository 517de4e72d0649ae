import ParishKit.Lifecycle.Agreement

/-!
# What the ledgers tell

The ledger of a campaign replays to its state, and the ledger of the runtime to its
mode. No recorded transition is lost, reordered or counted twice.
-/

namespace ParishKit.Lifecycle

open ParishKit.Lib ParishKit.Campaigns
open ParishKit.Jobs (Uuid)

/-- Each row takes up where the one before it left off. -/
def replay {Row Value : Type} [DecidableEq Value] (before after : Row → Value)
    (start : Value) (rows : List Row) : Option Value :=
  rows.foldlM (fun value row => if before row = value then some (after row) else none) start

theorem replay_concat {Row Value : Type} [DecidableEq Value] {before after : Row → Value}
    {start value : Value} {rows : List Row} (replayed : replay before after start rows = some value)
    {row : Row} (follows : before row = value) :
    replay before after start (rows ++ [row]) = some (after row) := by
  unfold replay at replayed ⊢
  rw [List.foldlM_append, replayed]
  simp [follows]

variable {Timezone Content : Type} [TimezoneRules Timezone]

/-- The transitions of a campaign, oldest first. -/
def Database.history (database : Database Timezone Content) (id : Uuid) :
    List CampaignTransition :=
  database.transitions.filter fun row => row.campaignId = id

/-- A campaign is what its ledger says. -/
structure Campaign.Ledgered (campaign : Campaign Timezone Content)
    (history : List CampaignTransition) : Prop where
  replays : replay (·.beforeState) (·.afterState) .draft history = some campaign.state
  ordered : history.Pairwise fun first second =>
    first.expectedVersion < second.expectedVersion
  behind : ∀ row ∈ history, row.expectedVersion < campaign.version
  everActive : campaign.everActive = history.any (·.afterState = .active)
  cycles : campaign.productionCycle =
    (history.filter (·.action = .withdraw)).length
  readiness : campaign.readinessRevision =
    (history.filter (·.action ∈ [.activate, .withdraw, .reopen])).length

/-- The tables are what the ledgers say. -/
structure Database.Recorded (database : Database Timezone Content) : Prop where
  ledgered : ∀ campaign ∈ database.campaigns,
    campaign.Ledgered (database.history campaign.id)
  known : ∀ row ∈ database.transitions,
    row.campaignId ∈ database.campaigns.map (·.id)
  requests : (database.transitions.map (·.requestId)).Nodup
  mode : replay (·.beforeMode) (·.afterMode) .testing database.runtimeTransitions =
    some database.runtime.mode
  paired : (database.runtimeTransitions.filter (·.action = .campaign)).map
      (·.campaignTransition) = database.transitions.map fun row => some row.id

variable {database next : Database Timezone Content}
  {campaign saved : Campaign Timezone Content} {row : CampaignTransition} {instant : Int}
  {seen : Findings}

/-! ## Transitions -/

/-- One more row of the campaign's ledger. -/
theorem Campaign.Ledgered.moved {history : List CampaignTransition}
    (ledgered : campaign.Ledgered history)
    (stamp : row.Stamp database campaign) :
    (row.moved campaign).Ledgered (history ++ [row]) where
  replays := replay_concat ledgered.replays stamp.state.symm
  ordered := by
    rw [List.pairwise_append]
    refine ⟨ledgered.ordered, List.pairwise_singleton _ _, ?_⟩
    intro earlier isEarlier last isLast
    rw [List.mem_singleton.mp isLast, ← stamp.version]
    exact ledgered.behind earlier isEarlier
  behind := by
    intro other isOther
    rcases List.mem_append.mp isOther with earlier | isLast
    · exact Nat.lt_succ_of_lt (ledgered.behind other earlier)
    · rw [List.mem_singleton.mp isLast, ← stamp.version]
      exact Nat.lt_succ_self _
  everActive := by
    simp [CampaignTransition.moved, ledgered.everActive]
  cycles := by
    by_cases isWithdraw : row.action = .withdraw <;>
      simp [CampaignTransition.moved, ledgered.cycles, isWithdraw]
  readiness := by
    rw [List.filter_append, List.length_append, ← ledgered.readiness, List.filter_singleton]
    by_cases isCounted : row.action ∈ [.activate, .withdraw, .reopen]
    · rw [decide_eq_true isCounted, cond_true]
      exact congrArg (campaign.readinessRevision + ·) (if_pos isCounted)
    · rw [decide_eq_false isCounted, cond_false]
      exact congrArg (campaign.readinessRevision + ·) (if_neg isCounted)

theorem Database.Recorded.of_transition (recorded : database.Recorded)
    (inserted : insertTransition database instant seen row = some next) :
    next.Recorded := by
  obtain ⟨campaign, isFound, admitted, rfl⟩ := insertTransition_eq_some.mp inserted
  obtain ⟨member, named⟩ := Database.campaign?_some isFound
  have stamp := CampaignTransition.stamped_iff.mp admitted.stamped
  have same : campaign.id = (row.moved campaign).id := rfl
  have history : ∀ id, (row.effect database campaign).history id =
      database.history id ++ if row.campaignId = id then [row] else [] := by
    intro id
    by_cases isNamed : row.campaignId = id <;>
      simp [Database.history, CampaignTransition.effect, Database.ledgered,
        Database.applyRuntime, isNamed]
  exact
    { ledgered := by
        intro other isOther
        rw [history]
        rcases (Database.mem_put_iff member same).mp isOther with isMoved | ⟨isBefore, apart⟩
        · rw [isMoved, CampaignTransition.id_moved, ← named, if_pos rfl]
          exact (recorded.ledgered campaign member).moved stamp
        · have notNamed : row.campaignId ≠ other.id := fun isNamed =>
            apart (isNamed.symm.trans named.symm)
          rw [if_neg notNamed, List.append_nil]
          exact recorded.ledgered other isBefore
      known := by
        intro made isMade
        have ids : (row.effect database campaign).campaigns.map (·.id) =
            database.campaigns.map (·.id) := Database.map_id_put database (row.moved campaign)
        rw [ids]
        rcases List.mem_append.mp isMade with isBefore | isRow
        · exact recorded.known made isBefore
        · rw [List.mem_singleton.mp isRow, ← named]
          exact List.mem_map_of_mem member
      requests := by
        have requests : (row.effect database campaign).transitions.map (·.requestId) =
            (database.transitions.map (·.requestId)).concat row.requestId := by
          simp [CampaignTransition.effect, Database.ledgered, Database.applyRuntime]
        rw [requests]
        exact recorded.requests.concat admitted.newRequest
      mode := replay_concat recorded.mode stamp.mode.symm
      paired := by
        simp [CampaignTransition.effect, Database.ledgered, Database.applyRuntime,
          CampaignTransition.runtimeRow, recorded.paired] }

/-! ## The other writes -/

/-- A write that moves no campaign and adds no transition. -/
theorem Database.Recorded.replaced (recorded : database.Recorded)
    (member : campaign ∈ database.campaigns) (same : campaign.id = saved.id)
    (state : saved.state = campaign.state) (version : saved.version = campaign.version + 1)
    (everActive : saved.everActive = campaign.everActive)
    (cycles : saved.productionCycle = campaign.productionCycle)
    (readiness : saved.readinessRevision = campaign.readinessRevision)
    (campaigns : next.campaigns = (database.put saved).campaigns)
    (transitions : next.transitions = database.transitions)
    (runtimeTransitions : next.runtimeTransitions = database.runtimeTransitions)
    (mode : next.runtime.mode = database.runtime.mode) : next.Recorded where
  ledgered := by
    intro other isOther
    have history : next.history other.id = database.history other.id := by
      rw [Database.history, transitions, Database.history]
    rw [history]
    rw [campaigns, Database.mem_put_iff member same] at isOther
    rcases isOther with isSaved | ⟨isBefore, _⟩
    · have before := recorded.ledgered campaign member
      rw [isSaved, ← same]
      exact
        { replays := state ▸ before.replays
          ordered := before.ordered
          behind := fun row isRow => version ▸ Nat.lt_succ_of_lt (before.behind row isRow)
          everActive := everActive.trans before.everActive
          cycles := cycles.trans before.cycles
          readiness := readiness.trans before.readiness }
    · exact recorded.ledgered other isBefore
  known := by
    intro row isRow
    rw [campaigns, Database.map_id_put]
    rw [transitions] at isRow
    exact recorded.known row isRow
  requests := transitions ▸ recorded.requests
  mode := by
    rw [runtimeTransitions, mode]
    exact recorded.mode
  paired := by
    rw [runtimeTransitions, transitions]
    exact recorded.paired

theorem Database.Recorded.of_control {change : ControlChange} (recorded : database.Recorded)
    (inserted : insertControl database instant seen change = some next) :
    next.Recorded := by
  obtain ⟨campaign, isFound, _, rfl⟩ := insertControl_eq_some inserted
  obtain ⟨member, _⟩ := Database.campaign?_some isFound
  have same : campaign.id = (change.changed campaign).id := rfl
  exact recorded.replaced member same rfl rfl rfl rfl rfl rfl rfl rfl rfl

theorem Database.Recorded.of_runtime {change : RuntimeTransition} {latest : Int}
    (recorded : database.Recorded) (sound : database.Sound latest)
    (inserted : insertRuntimeTransition database instant seen change = some next) :
    next.Recorded := by
  obtain ⟨admitted, rfl⟩ := insertRuntimeTransition_eq_some.mp inserted
  have other := sound.not_campaign_action admitted
  exact
    { ledgered := recorded.ledgered
      known := recorded.known
      requests := recorded.requests
      mode := replay_concat recorded.mode admitted.mode
      paired := by
        simp [Database.applyRuntime, other, recorded.paired] }

variable {activation : ConfigurationActivation Timezone Content} {latest : Int}

theorem Database.Recorded.of_creates {id : Uuid} (recorded : database.Recorded)
    (isNew : id ∉ database.campaigns.map (·.id))
    {proposed : CampaignConfiguration Timezone Content}
    (campaigns : next.campaigns = database.campaigns ++ [.draft id proposed])
    (transitions : next.transitions = database.transitions)
    (runtimeTransitions : next.runtimeTransitions = database.runtimeTransitions)
    (mode : next.runtime.mode = database.runtime.mode) : next.Recorded where
  ledgered := by
    intro other isOther
    have history : next.history other.id = database.history other.id := by
      rw [Database.history, transitions, Database.history]
    rw [history]
    rw [campaigns, List.mem_append, List.mem_singleton] at isOther
    rcases isOther with isBefore | isDraft
    · exact recorded.ledgered other isBefore
    · have noHistory : database.history id = [] := by
        rw [Database.history, List.filter_eq_nil_iff]
        intro row isRow isNamed
        exact isNew (of_decide_eq_true isNamed ▸ recorded.known row isRow)
      have isId : other.id = id := by rw [isDraft]; rfl
      rw [isId, noHistory, isDraft]
      exact
        { replays := rfl
          ordered := List.Pairwise.nil
          behind := fun row isRow => absurd isRow List.not_mem_nil
          everActive := rfl
          cycles := rfl
          readiness := rfl }
  known := by
    intro row isRow
    rw [transitions] at isRow
    rw [campaigns, List.map_append]
    exact List.mem_append_left _ (recorded.known row isRow)
  requests := transitions ▸ recorded.requests
  mode := by
    rw [runtimeTransitions, mode]
    exact recorded.mode
  paired := by
    rw [runtimeTransitions, transitions]
    exact recorded.paired

variable [DecidableEq Timezone] [DecidableEq Content]

theorem Database.Recorded.of_activation (recorded : database.Recorded)
    (sound : database.Sound latest)
    (activated : activateConfiguration database instant seen activation = some next) :
    next.Recorded := by
  have isRecorded : ∀ {campaign : Campaign Timezone Content}
      {proposed : CampaignConfiguration Timezone Content},
      activation.Reconfigures database campaign proposed seen →
        (activation.selected database (some campaign.id)).Recorded := by
    intro campaign proposed reconfigures
    have same : campaign.id = (campaign.reconfigured proposed).id := rfl
    exact recorded.replaced reconfigures.member same rfl rfl rfl rfl rfl
      (ConfigurationActivation.selected_campaigns sound.distinct reconfigures) rfl rfl rfl
  cases activateConfiguration_cases sound activated with
  | selected unpointed isNext =>
      rw [isNext]
      exact
        { ledgered := recorded.ledgered
          known := recorded.known
          requests := recorded.requests
          mode := recorded.mode
          paired := recorded.paired }
  | reconfigured campaign proposed admitted reconfigures isNext stays =>
      rw [isNext]
      exact isRecorded reconfigures
  | reopened campaign proposed intent reconfigures inserted =>
      exact (isRecorded reconfigures).of_transition inserted
  | created id proposed creates isNext campaigns =>
      exact recorded.of_creates (ConfigurationActivation.not_mem_of_created creates.isNew)
        campaigns (by rw [isNext]; rfl) (by rw [isNext]; rfl) (by rw [isNext]; rfl)

/-! ## Every run -/

omit [DecidableEq Timezone] [DecidableEq Content] in
theorem Database.recorded_initial :
    (Database.initial : Database Timezone Content).Recorded where
  ledgered _ member := absurd member List.not_mem_nil
  known _ member := absurd member List.not_mem_nil
  requests := List.nodup_nil
  mode := rfl
  paired := rfl

/-- What holds at every moment, with the ledgers. -/
def Moment.Kept (moment : Moment Timezone Content) : Prop :=
  moment.Sound ∧ moment.database.Recorded

theorem LifecycleOp.kept (source : Moment Timezone Content)
    (op : LifecycleOp Timezone Content) (target : Moment Timezone Content)
    (kept : source.Kept) (applied : op.apply source = some target) : target.Kept := by
  refine ⟨LifecycleOp.sound source op target kept.1 applied, ?_⟩
  have sound : source.database.Sound source.latest := kept.1
  have recorded := kept.2
  obtain ⟨written, isWritten, rfl⟩ := Option.map_eq_some_iff.mp applied
  unfold write? at isWritten
  cases isWrite : op.write <;> simp only [isWrite] at isWritten
  case transition => exact recorded.of_transition isWritten
  case runtime => exact recorded.of_runtime sound isWritten
  case intent =>
      rw [insertIntent_eq_some isWritten]
      exact
        { ledgered := recorded.ledgered
          known := recorded.known
          requests := recorded.requests
          mode := recorded.mode
          paired := recorded.paired }
  case control => exact recorded.of_control isWritten
  case activation => exact recorded.of_activation sound isWritten

theorem Reached.kept {moment : Moment Timezone Content} (reached : Reached moment) :
    moment.Kept := by
  obtain ⟨start, ops, finished⟩ := reached
  have initially : Moment.Kept (⟨.initial, start⟩ : Moment Timezone Content) :=
    ⟨Database.sound_initial, Database.recorded_initial⟩
  exact run_preserves finished initially LifecycleOp.kept

/-- In every state that writes lead to, the ledgers replay to the tables: each campaign's
to its state, its flags and its counts, the runtime's to the mode, with one runtime
transition for each transition and no request recorded twice. -/
theorem ledgers_tell_the_tables {moment : Moment Timezone Content}
    (reached : Reached moment) : moment.database.Recorded :=
  reached.kept.2

/-- The autumn's ledger replays from the draft to the reopened campaign. -/
theorem autumn_ledger :
    replay (·.beforeState) (·.afterState) .draft
        ((autumnMoment 6).database.history (autumnCampaign 6).id) =
      some (autumnCampaign 6).state :=
  ((ledgers_tell_the_tables (autumn_reached (by decide +kernel))).ledgered (autumnCampaign 6)
    (autumn_member (by decide +kernel))).replays

end ParishKit.Lifecycle
