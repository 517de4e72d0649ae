import ParishKit.Lifecycle.Admission

/-!
# The policy and the triggers agree

Two layers decide a transition: the policy before the row is written, the triggers as it
is. In every state that writes lead to, a row is accepted exactly when the policy leads
where the row says and the action's obligations hold.
-/

namespace ParishKit.Lifecycle

open ParishKit.Lib ParishKit.Campaigns
open ParishKit.Jobs (Uuid)

/-- The actions that `_emit` carries out. -/
def emittedActions : List Action :=
  [.activate, .start, .close, .withdraw, .archive, .unarchive]

/-- The mode that `_emit` writes. -/
def nextMode (action : Action) (mode : SystemMode) : SystemMode :=
  if action ∈ [.activate, .reopen] then .production
  else if action = .withdraw then .testing
  else mode

variable {Timezone Content : Type} [TimezoneRules Timezone]
  {database : Database Timezone Content} {campaign : Campaign Timezone Content}
  {row : CampaignTransition} {instant latest : Int} {seen : Findings}

/-- What an action needs beside its dates, its state and its mode. -/
def CampaignTransition.Owes (row : CampaignTransition)
    (campaign : Campaign Timezone Content) (seen : Findings) : Prop :=
  match row.action with
  | .activate => row.tokenGeneration ≠ none ∧ seen.tokensReady = true
  | .start | .close => seen.boundaryOwned = true
  | .withdraw => row.reason ≠ [] ∧ campaign.quiet seen = true
  | .archive =>
      campaign.quiet seen = true ∧ seen.receiptsOpen = false ∧ seen.mailOpen = false
  | .unarchive => campaign.quiet seen = true
  | _ => False

/-- What any transition needs of its row and of the moment. -/
structure CampaignTransition.Fresh (row : CampaignTransition)
    (database : Database Timezone Content) (seen : Findings) : Prop where
  newRequest : row.requestId ∉ database.transitions.map (·.requestId)
  newRuntimeRequest : row.requestId ∉ database.runtimeTransitions.map (·.requestId)
  newId : row.id ∉ database.transitions.map (·.id)
  noGate : seen.workGate = false
  notRecovering : seen.recoveryLogin = false
  attributed : row.action ∉ [.start, .close] → row.actorId ≠ none

/-! ## The policy -/

/-- Before the end, what is not early is within. -/
theorem CampaignConfiguration.contains_of_lt (dates : CampaignConfiguration Timezone Content)
    (before : instant < dates.endsAt) :
    dates.interval.contains instant = decide (dates.startsAt ≤ instant) := by
  simp [UtcInterval.contains, interval, before]

/-- The policy of the current campaign outside a restore review, action by action. -/
theorem transitionTarget_eq_some {state : CampaignState}
    (emitted : row.action ∈ emittedActions)
    (isCurrent : database.runtime.currentCampaign = some campaign.id)
    (notRestoring : database.runtime.restoreReviewRequired = false) (catchUp : Bool) :
    transitionTarget row.action (campaignFacts campaign database.runtime catchUp) instant
        none = some state ↔
      match row.action with
      | .activate =>
          campaign.state = .draft ∧ database.runtime.mode = .testing ∧
            instant < campaign.configuration.endsAt ∧
            state = if instant < campaign.configuration.startsAt then .scheduled else .active
      | .start =>
          campaign.state = .scheduled ∧ database.runtime.mode = .production ∧
            campaign.configuration.startsAt ≤ instant ∧ state = .active
      | .close =>
          campaign.state = .active ∧ database.runtime.mode = .production ∧
            campaign.configuration.endsAt ≤ instant ∧ state = .closed
      | .withdraw =>
          campaign.state = .scheduled ∧ database.runtime.mode = .production ∧
            instant < campaign.configuration.startsAt ∧ state = .draft
      | .archive => campaign.state = .closed ∧ state = .archived
      | .unarchive => campaign.state = .archived ∧ state = .closed
      | _ => False := by
  have someMode : database.runtime.mode = .testing ∨ database.runtime.mode = .production := by
    cases database.runtime.mode <;> simp
  cases isAction : row.action <;> simp only [isAction] at emitted <;>
    simp [emittedActions] at emitted
  case activate =>
      have stops : campaign.configuration.interval.stop = campaign.configuration.endsAt := rfl
      by_cases before : instant < campaign.configuration.endsAt
      · have within := campaign.configuration.contains_of_lt before
        by_cases early : instant < campaign.configuration.startsAt
        · simp [transitionTarget, Action.rule, transition, campaignFacts, isCurrent,
            notRestoring, stops, within, early, before, Int.not_le.mpr early, and_assoc,
            eq_comm (a := state)]
        · simp [transitionTarget, Action.rule, transition, campaignFacts, isCurrent,
            notRestoring, stops, within, early, before, Int.not_lt.mp early, and_assoc,
            eq_comm (a := state)]
      · simp [transitionTarget, Action.rule, transition, campaignFacts, isCurrent,
          notRestoring, stops, before]
  all_goals
    simp [transitionTarget, Action.rule, transition, campaignFacts, isCurrent, notRestoring,
      eitherMode, someMode, CampaignConfiguration.interval, and_assoc, eq_comm (a := state)]

/-- What the policy leads anywhere is current, outside a restore review. -/
theorem transitionTarget_guards {action : Action} {facts : CampaignFacts}
    {state : CampaignState} (emitted : action ∈ emittedActions)
    (leads : transitionTarget action facts instant none = some state) :
    facts.current = true ∧ facts.restoreRequired = false := by
  have guarded : .current ∈ action.rule.guards ∧ .noRestore ∈ action.rule.guards := by
    cases action <;> simp only [emittedActions] at emitted <;>
      simp [Action.rule, transition] at emitted ⊢
  constructor
  · by_contra notCurrent
    have refused : transitionTarget action facts instant none = none := by
      simp [transitionTarget, guarded.1, notCurrent]
    rw [refused] at leads
    cases leads
  · by_contra isRestoring
    have refused : transitionTarget action facts instant none = none := by
      simp [transitionTarget, guarded.2, isRestoring]
    rw [refused] at leads
    cases leads

/-! ## The triggers -/

/-- A transition leads where the policy does, for an action whose obligations hold. -/
theorem CampaignTransition.leads_iff
    (emitted : row.action ∈ emittedActions)
    (isCurrent : database.runtime.currentCampaign = some campaign.id)
    (notRestoring : database.runtime.restoreReviewRequired = false)
    (staged : campaign.Staged latest) :
    (row.Leads database campaign instant seen row.afterState row.afterMode ∧
        (row.action ∈ [.start, .close] → seen.boundaryOwned = true) ∧
        tokensAdmitted campaign.activeTokenGeneration
          (row.moved campaign).activeTokenGeneration seen = true) ↔
      transitionTarget row.action
          (campaignFacts campaign database.runtime seen.catchUpPending) instant none =
        some row.afterState ∧
      row.afterMode = nextMode row.action database.runtime.mode ∧
      row.Owes campaign seen := by
  rw [transitionTarget_eq_some emitted isCurrent notRestoring]
  unfold Leads Owes
  unfold Campaign.Staged at staged
  cases isAction : row.action <;> simp only [isAction] at emitted <;>
    simp [emittedActions] at emitted
  case activate =>
      constructor
      · rintro ⟨⟨isDraft, testing, before, hasTokens, isState, isMode⟩, _, tokens⟩
        simp only [isDraft] at staged
        refine ⟨⟨isDraft, testing, before, isState⟩, isMode.trans (by simp [nextMode]),
          hasTokens, ?_⟩
        simpa [tokensAdmitted, moved, isAction, staged, hasTokens] using tokens
      · rintro ⟨⟨isDraft, testing, before, isState⟩, isMode, hasTokens, ready⟩
        refine ⟨⟨isDraft, testing, before, hasTokens, isState,
          isMode.trans (by simp [nextMode])⟩, by simp, ?_⟩
        simp [tokensAdmitted, ready]
  case withdraw =>
      have never : campaign.state = .scheduled → campaign.everActive = false := by
        intro isScheduled
        simp only [isScheduled] at staged
        exact staged.1
      simp [tokensAdmitted, moved, isAction, nextMode]
      tauto
  all_goals
    simp [tokensAdmitted, moved, isAction, nextMode]
    tauto

variable [DecidableEq Timezone] [DecidableEq Content] {moment : Moment Timezone Content}

/-- In every state that writes lead to, the triggers accept a row exactly when the policy
leads where it says, its obligations hold and its stamp and its keys are right: neither
layer refuses what the other admits. -/
theorem triggers_agree_with_policy (reached : Reached moment)
    (member : campaign ∈ moment.database.campaigns) (names : row.campaignId = campaign.id)
    (emitted : row.action ∈ emittedActions) :
    (insertTransition moment.database instant seen row).isSome = true ↔
      transitionTarget row.action
          (campaignFacts campaign moment.database.runtime seen.catchUpPending) instant none =
        some row.afterState ∧
      row.afterMode = nextMode row.action moment.database.runtime.mode ∧
      row.Owes campaign seen ∧ row.Stamp moment.database campaign ∧
      row.Fresh moment.database seen := by
  have sound : moment.database.Sound moment.latest := reached.sound
  have staged := sound.staged campaign member
  have isFound : moment.database.campaign? row.campaignId = some campaign := by
    rw [names]
    exact Database.campaign?_of_mem sound.distinct member
  rw [Option.isSome_iff_exists]
  constructor
  · rintro ⟨next, inserted⟩
    obtain ⟨other, isOther, admitted, _⟩ := insertTransition_eq_some.mp inserted
    have same : other = campaign := Option.some.inj (isOther.symm.trans isFound)
    subst same
    have stamp := CampaignTransition.stamped_iff.mp admitted.stamped
    obtain ⟨leads, isMode, owes⟩ := (CampaignTransition.leads_iff emitted stamp.current
      admitted.notRestoring staged).mp ⟨admitted.leads, admitted.owned, admitted.tokens⟩
    exact ⟨leads, isMode, owes, stamp, admitted.newRequest, admitted.newRuntimeRequest,
      admitted.newId, admitted.noGate, admitted.notRecovering, admitted.attributed⟩
  · rintro ⟨leads, isMode, owes, stamp, fresh⟩
    have notRestoring : moment.database.runtime.restoreReviewRequired = false :=
      (transitionTarget_guards emitted leads).2
    obtain ⟨isLed, owned, tokens⟩ := (CampaignTransition.leads_iff emitted stamp.current
      notRestoring staged).mpr ⟨leads, isMode, owes⟩
    have admitted : row.Admitted moment.database campaign instant seen :=
      { newRequest := fresh.newRequest
        newRuntimeRequest := fresh.newRuntimeRequest
        newId := fresh.newId
        stamped := CampaignTransition.stamped_iff.mpr stamp
        notRestoring := notRestoring
        noGate := fresh.noGate
        notRecovering := fresh.notRecovering
        leads := isLed
        attributed := fresh.attributed
        owned := owned
        tokens := tokens }
    exact ⟨_, insertTransition_eq_some.mpr ⟨campaign, isFound, admitted, rfl⟩⟩

/-- The activation that the autumn's second write inserts is one the policy leads to. -/
theorem autumn_activation_agrees :
    transitionTarget .activate
        (campaignFacts (autumnCampaign 1) (autumnMoment 1).database.runtime false)
        (midnight 2) none = some .scheduled :=
  ((triggers_agree_with_policy (autumn_reached (by decide +kernel))
    (autumn_member (by decide +kernel)) (by decide +kernel) (by decide +kernel)).mp
    (show (insertTransition (autumnMoment 1).database (midnight 2) allClear
      (autumnRow 302 .activate 1 .draft .scheduled .testing (some 401))).isSome = true by
        decide +kernel)).1

end ParishKit.Lifecycle
