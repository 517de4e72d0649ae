import ParishKit.Lifecycle.Activation

/-!
# What each write does

Each write that is not refused, in terms of what its triggers have checked and of the
one campaign it changes.
-/

namespace ParishKit.Lifecycle

open ParishKit.Lib ParishKit.Campaigns
open ParishKit.Jobs (Uuid)

variable {Timezone Content : Type} [TimezoneRules Timezone]
  {database next : Database Timezone Content} {campaign : Campaign Timezone Content}
  {instant : Int} {seen : Findings}

/-! ## Campaigns by their identifier -/

theorem Database.campaign?_some {id : Uuid} (isFound : database.campaign? id = some campaign) :
    campaign ∈ database.campaigns ∧ campaign.id = id :=
  mem_of_find?_key isFound

theorem Database.campaign?_of_mem (distinct : (database.campaigns.map (·.id)).Nodup)
    (member : campaign ∈ database.campaigns) :
    database.campaign? campaign.id = some campaign :=
  find?_key_of_mem distinct member

theorem Database.mem_put_iff {saved other : Campaign Timezone Content}
    (member : campaign ∈ database.campaigns) (same : campaign.id = saved.id) :
    other ∈ (database.put saved).campaigns ↔
      other = saved ∨ (other ∈ database.campaigns ∧ other.id ≠ saved.id) := by
  unfold put
  exact mem_replace_iff member same

theorem Database.of_currentIn {states : List CampaignState}
    (holds : database.currentIn states) :
    ∃ campaign ∈ database.campaigns,
      database.runtime.currentCampaign = some campaign.id ∧ campaign.state ∈ states := by
  rw [currentIn, Option.any_eq_true] at holds
  obtain ⟨campaign, isFound, isState⟩ := holds
  obtain ⟨id, isCurrent, isCampaign⟩ := Option.bind_eq_some_iff.mp isFound
  obtain ⟨member, named⟩ := campaign?_some isCampaign
  exact ⟨campaign, member, isCurrent.trans (congrArg some named.symm),
    of_decide_eq_true isState⟩

@[simp]
theorem Database.map_id_put (database : Database Timezone Content)
    (saved : Campaign Timezone Content) :
    (database.put saved).campaigns.map (·.id) = database.campaigns.map (·.id) := by
  unfold put
  exact map_replace fun _ _ same => same

/-- The last of two rows with one identifier is kept. -/
theorem Database.campaigns_put_put (database : Database Timezone Content)
    {first second : Campaign Timezone Content} (same : first.id = second.id) :
    ((database.put first).put second).campaigns = (database.put second).campaigns := by
  simp only [put, List.map_map]
  apply List.map_congr_left
  intro other _
  by_cases isFirst : other.id = second.id
  · simp [isFirst, same]
  · simp [isFirst, same]

theorem Database.campaigns_put_congr {other : Database Timezone Content}
    (campaigns : next.campaigns = other.campaigns) (saved : Campaign Timezone Content) :
    (next.put saved).campaigns = (other.put saved).campaigns := by
  rw [put, put, campaigns]

@[simp]
theorem CampaignTransition.id_moved (row : CampaignTransition)
    (campaign : Campaign Timezone Content) : (row.moved campaign).id = campaign.id :=
  rfl

/-- Only the campaign that has the identifier answers to it. -/
theorem Database.eq_of_id (distinct : (database.campaigns.map (·.id)).Nodup)
    {other : Campaign Timezone Content} (member : campaign ∈ database.campaigns)
    (otherMember : other ∈ database.campaigns) (same : other.id = campaign.id) :
    other = campaign :=
  List.inj_on_of_nodup_map distinct otherMember member same

/-! ## Transitions -/

/-- What an action leads to, and when. -/
def CampaignTransition.Leads (row : CampaignTransition)
    (database : Database Timezone Content) (campaign : Campaign Timezone Content)
    (instant : Int) (seen : Findings) (state : CampaignState) (mode : SystemMode) : Prop :=
  let dates := campaign.configuration
  match row.action with
  | .activate =>
      campaign.state = .draft ∧ database.runtime.mode = .testing ∧ instant < dates.endsAt ∧
        row.tokenGeneration ≠ none ∧
        state = (if instant < dates.startsAt then .scheduled else .active) ∧
        mode = .production
  | .start =>
      campaign.state = .scheduled ∧ database.runtime.mode = .production ∧
        dates.startsAt ≤ instant ∧ state = .active ∧ mode = database.runtime.mode
  | .close =>
      campaign.state = .active ∧ database.runtime.mode = .production ∧
        dates.endsAt ≤ instant ∧ state = .closed ∧ mode = database.runtime.mode
  | .withdraw =>
      campaign.state = .scheduled ∧ campaign.everActive = false ∧
        database.runtime.mode = .production ∧ instant < dates.startsAt ∧ row.reason ≠ [] ∧
        campaign.quiet seen ∧ state = .draft ∧ mode = .testing
  | .reopen =>
      campaign.state = .closed ∧ row.tokenGeneration ≠ none ∧ instant < dates.endsAt ∧
        dates.startsAt ≤ instant ∧ campaign.quiet seen ∧
        row.reopenIntended database campaign ∧ state = .active ∧ mode = .production
  | .archive =>
      campaign.state = .closed ∧ campaign.quiet seen ∧ seen.receiptsOpen = false ∧
        seen.mailOpen = false ∧ state = .archived ∧ mode = database.runtime.mode
  | .unarchive =>
      campaign.state = .archived ∧ campaign.quiet seen ∧ state = .closed ∧
        mode = database.runtime.mode
  | _ => False

theorem CampaignTransition.expected_eq_some {row : CampaignTransition}
    {state : CampaignState} {mode : SystemMode} :
    row.expected database campaign instant seen = some (state, mode) ↔
      row.Leads database campaign instant seen state mode := by
  unfold expected Leads
  cases row.action <;> simp [and_assoc, eq_comm (a := state), eq_comm (a := mode)]

/-- What an inserted transition passed. -/
structure CampaignTransition.Admitted (row : CampaignTransition)
    (database : Database Timezone Content) (campaign : Campaign Timezone Content)
    (instant : Int) (seen : Findings) : Prop where
  newRequest : row.requestId ∉ database.transitions.map (·.requestId)
  newRuntimeRequest : row.requestId ∉ database.runtimeTransitions.map (·.requestId)
  newId : row.id ∉ database.transitions.map (·.id)
  stamped : row.stamped database campaign
  notRestoring : database.runtime.restoreReviewRequired = false
  noGate : seen.workGate = false
  notRecovering : seen.recoveryLogin = false
  leads : row.Leads database campaign instant seen row.afterState row.afterMode
  attributed : row.action ∉ [.start, .close] → row.actorId ≠ none
  owned : row.action ∈ [.start, .close] → seen.boundaryOwned
  tokens : tokensAdmitted campaign.activeTokenGeneration
    (row.moved campaign).activeTokenGeneration seen

/-- The tables after an inserted transition. -/
def CampaignTransition.effect (row : CampaignTransition)
    (database : Database Timezone Content) (campaign : Campaign Timezone Content) :
    Database Timezone Content :=
  (database.ledgered row (row.moved campaign)).applyRuntime row.runtimeRow

/-- What a row's stamp says. -/
structure CampaignTransition.Stamp (row : CampaignTransition)
    (database : Database Timezone Content) (campaign : Campaign Timezone Content) :
    Prop where
  version : campaign.version = row.expectedVersion
  runtimeVersion : database.runtime.version = row.expectedRuntimeVersion
  state : campaign.state = row.beforeState
  mode : database.runtime.mode = row.beforeMode
  configuration : ∀ id ∈ database.runtime.activeConfiguration, id = row.configurationId
  current : database.runtime.currentCampaign = some campaign.id

theorem CampaignTransition.stamped_iff {row : CampaignTransition} :
    row.stamped database campaign ↔ row.Stamp database campaign := by
  constructor
  · intro isStamped
    simp only [stamped, Bool.and_eq_true, decide_eq_true_eq, Option.all_eq_true] at isStamped
    obtain ⟨⟨⟨⟨⟨version, runtimeVersion⟩, state⟩, mode⟩, configuration⟩, current⟩ := isStamped
    exact ⟨version, runtimeVersion, state, mode, configuration, current⟩
  · intro stamp
    simp only [stamped, Bool.and_eq_true, decide_eq_true_eq, Option.all_eq_true]
    exact ⟨⟨⟨⟨⟨stamp.version, stamp.runtimeVersion⟩, stamp.state⟩, stamp.mode⟩,
      stamp.configuration⟩, stamp.current⟩

/-- The runtime follows a transition that its own row is evidence of. -/
theorem insertRuntimeTransition_of_row {row : CampaignTransition}
    (stamp : row.Stamp database campaign) (named : campaign.id = row.campaignId)
    (saved : Campaign Timezone Content) :
    insertRuntimeTransition (database.ledgered row saved) instant seen row.runtimeRow =
      if row.requestId ∈ database.runtimeTransitions.map (·.requestId) ∨
          seen.recoveryLogin then
        none
      else
        some ((database.ledgered row saved).applyRuntime row.runtimeRow) := by
  have isCurrent : database.runtime.currentCampaign = some row.campaignId := by
    rw [stamp.current, named]
  have isEvidence : row.runtimeRow.admitted (database.ledgered row saved) instant seen := by
    simp [RuntimeTransition.admitted, CampaignTransition.runtimeRow, Database.ledgered,
      stamp.runtimeVersion]
  unfold insertRuntimeTransition
  rw [isEvidence]
  simp [CampaignTransition.runtimeRow, Database.ledgered, stamp.runtimeVersion, stamp.mode,
    isCurrent]

theorem insertTransition_eq_some {row : CampaignTransition} :
    insertTransition database instant seen row = some next ↔
      ∃ campaign, database.campaign? row.campaignId = some campaign ∧
        row.Admitted database campaign instant seen ∧
        next = row.effect database campaign := by
  constructor
  · intro inserted
    unfold insertTransition at inserted
    cases isFound : database.campaign? row.campaignId with
    | none => simp [isFound] at inserted
    | some campaign =>
        simp only [isFound] at inserted
        split at inserted
        · cases inserted
        rename_i free
        simp only [not_or, Bool.not_eq_true, Bool.not_eq_false'] at free
        obtain ⟨newRequest, newId, isStamped, notRestoring, noGate⟩ := free
        cases expected : row.expected database campaign instant seen with
        | none => simp [expected] at inserted
        | some outcome =>
            obtain ⟨state, mode⟩ := outcome
            simp only [expected] at inserted
            split at inserted
            · cases inserted
            rename_i asExpected
            simp only [ne_eq, not_or, not_not] at asExpected
            split at inserted
            · cases inserted
            rename_i attributed
            split at inserted
            · cases inserted
            rename_i owned
            split at inserted
            · cases inserted
            rename_i tokens
            rw [insertRuntimeTransition_of_row (CampaignTransition.stamped_iff.mp isStamped)
              (Database.campaign?_some isFound).2] at inserted
            split at inserted
            · cases inserted
            rename_i unheld
            cases inserted
            simp only [not_or, Bool.not_eq_true] at unheld
            refine ⟨campaign, rfl, ⟨newRequest, unheld.1, newId, isStamped, notRestoring,
              noGate, unheld.2, ?_, ?_, ?_, ?_⟩, rfl⟩
            · rw [asExpected.1, asExpected.2]
              exact CampaignTransition.expected_eq_some.mp expected
            · exact fun other noActor => attributed ⟨other, noActor⟩
            · intro isBoundary
              by_contra notOwned
              exact owned ⟨isBoundary, by simpa using notOwned⟩
            · simpa using tokens
  · rintro ⟨campaign, isFound, admitted, rfl⟩
    unfold insertTransition
    have unowned : ¬ (row.action ∈ [.start, .close] ∧ (!seen.boundaryOwned) = true) := by
      intro ⟨isBoundary, notOwned⟩
      rw [admitted.owned isBoundary] at notOwned
      cases notOwned
    have unattributed : ¬ (row.action ∉ [.start, .close] ∧ row.actorId = none) :=
      fun ⟨other, noActor⟩ => admitted.attributed other noActor
    simp only [isFound, CampaignTransition.expected_eq_some.mpr admitted.leads]
    rw [if_neg (by simp [admitted.newRequest, admitted.newId, admitted.stamped,
        admitted.notRestoring, admitted.noGate]),
      if_neg (by simp), if_neg unattributed, if_neg unowned,
      if_neg (by simp [admitted.tokens]),
      insertRuntimeTransition_of_row (CampaignTransition.stamped_iff.mp admitted.stamped)
        (Database.campaign?_some isFound).2,
      if_neg (by simp [admitted.newRuntimeRequest, admitted.notRecovering])]
    rfl

/-! ## The other ledgers -/

/-- What an inserted runtime transition passed. -/
structure RuntimeTransition.Admitted (row : RuntimeTransition)
    (database : Database Timezone Content) (instant : Int) (seen : Findings) : Prop where
  newRequest : row.requestId ∉ database.runtimeTransitions.map (·.requestId)
  version : row.expectedVersion = database.runtime.version
  mode : row.beforeMode = database.runtime.mode
  campaign : row.beforeCampaign = database.runtime.currentCampaign
  recovering : seen.recoveryLogin → row.action = .restoreBegin
  admitted : row.admitted database instant seen

theorem insertRuntimeTransition_eq_some {row : RuntimeTransition} :
    insertRuntimeTransition database instant seen row = some next ↔
      row.Admitted database instant seen ∧ next = database.applyRuntime row := by
  unfold insertRuntimeTransition
  constructor
  · intro inserted
    split at inserted
    · cases inserted
    rename_i passed
    simp only [ne_eq, not_or, not_and, not_not, Bool.not_eq_true, Bool.not_eq_false'] at passed
    obtain ⟨newRequest, version, mode, campaign, recovering, admitted⟩ := passed
    cases inserted
    exact ⟨⟨newRequest, version, mode, campaign, recovering, admitted⟩, rfl⟩
  · rintro ⟨passed, rfl⟩
    rw [if_neg]
    simp only [ne_eq, not_or, not_and, not_not, Bool.not_eq_true, Bool.not_eq_false']
    exact ⟨passed.newRequest, passed.version, passed.mode, passed.campaign,
      passed.recovering, passed.admitted⟩

theorem insertIntent_eq_some {row : ConfigurationIntent Timezone Content}
    (inserted : insertIntent database seen row = some next) :
    next = { database with intents := database.intents ++ [row] } := by
  unfold insertIntent at inserted
  split at inserted
  · cases inserted
  · split at inserted
    · cases inserted
    · exact (Option.some.inj inserted).symm

/-- A control changes the current campaign, in Production. -/
theorem insertControl_eq_some {row : ControlChange}
    (inserted : insertControl database instant seen row = some next) :
    ∃ campaign, database.campaign? row.campaignId = some campaign ∧
      database.runtime.currentCampaign = some campaign.id ∧
      next = { database.put (row.changed campaign) with
        controls := database.controls ++ [row] } := by
  unfold insertControl at inserted
  split at inserted
  · cases inserted
  · rename_i campaign isFound
    split at inserted
    · cases inserted
    · rename_i passed
      simp only [ne_eq, not_or, not_not] at passed
      exact ⟨campaign, isFound, passed.2.1, (Option.some.inj inserted).symm⟩

end ParishKit.Lifecycle
