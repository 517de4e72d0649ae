import ParishKit.Campaigns.Intervals
import ParishKit.Jobs.TaskRun
import ParishKit.Lib.DateText
import ParishKit.Lifecycle.Transitions

/-!
# The lifecycle tables

The rows of the campaigns, of the runtime and of their ledgers, and the triggers that
judge each write and carry out its effect. A write that a trigger refuses rolls its
transaction back. What the triggers read of other tables is a finding of the write.
-/

namespace ParishKit.Lifecycle

open ParishKit.Lib ParishKit.Campaigns
open ParishKit.Jobs (Uuid)

/-- The rules of a named timezone. -/
class TimezoneRules (Timezone : Type) where
  zone : Timezone → Zone

/-! ## The rows -/

/-- A campaign's configured values, in the parts the guards compare: the dates, the
Families rule, the Ministry selections, what else the lock freezes (the share options
without their short labels among it) and the rest. -/
structure CampaignValues (Timezone Content : Type) where
  timezone : Timezone
  startDate : Int
  endDate : Int
  families : Content
  ministries : Content
  settings : Content
  wording : Content
deriving DecidableEq

/-- The wall time at which a day begins. -/
def midnight (day : Int) : Int :=
  day * 86400000000

/-- A row of `stewardship_campaign_configuration`. Its instants are the values' dates,
resolved. -/
structure CampaignConfiguration (Timezone Content : Type) [TimezoneRules Timezone] where
  id : Uuid
  values : CampaignValues Timezone Content
  startsAt : Int
  endsAt : Int
  resolvedStart : startsAt =
    resolveLocal (TimezoneRules.zone values.timezone) (midnight values.startDate)
  resolvedEnd : endsAt =
    resolveLocal (TimezoneRules.zone values.timezone) (midnight (values.endDate + 1))
  ordered : startsAt < endsAt

structure Campaign (Timezone Content : Type) [TimezoneRules Timezone] where
  id : Uuid
  state : CampaignState
  version : Nat
  configuration : CampaignConfiguration Timezone Content
  structuralLocked : Bool
  everActive : Bool
  activeTokenGeneration : Option Uuid
  deliveryPaused : Bool
  pausedAt : Option Int
  resumedAt : Option Int
  firstLiveDeliveryAt : Option Int
  firstLiveSubmissionAt : Option Int
  readinessRevision : Nat
  productionCycle : Nat

/-- The one row of `stewardship_system_configuration`. -/
structure SystemConfiguration where
  mode : SystemMode
  restoreReviewRequired : Bool
  restoreId : Option Uuid
  restoreBackupAt : Option Int
  activeConfiguration : Option Uuid
  currentCampaign : Option Uuid
  version : Nat
deriving DecidableEq

structure CampaignTransition where
  id : Uuid
  campaignId : Uuid
  requestId : Uuid
  action : Action
  expectedVersion : Nat
  expectedRuntimeVersion : Nat
  beforeState : CampaignState
  afterState : CampaignState
  beforeMode : SystemMode
  afterMode : SystemMode
  configurationId : Uuid
  priorProjection : Option Uuid
  tokenGeneration : Option Uuid
  boundaryId : Option Uuid
  taskFence : Option Nat
  reason : Text
  actorId : Option Uuid
deriving DecidableEq

inductive RuntimeAction where
  | returnTesting
  | campaign
  | restoreBegin
  | restoreRelease
deriving DecidableEq, Repr

structure RuntimeTransition where
  requestId : Uuid
  expectedVersion : Nat
  action : RuntimeAction
  beforeMode : SystemMode
  afterMode : SystemMode
  beforeCampaign : Option Uuid
  afterCampaign : Option Uuid
  campaignTransition : Option Uuid
  restoreId : Option Uuid
  backupAt : Option Int
  reason : Text
  actorId : Option Uuid
deriving DecidableEq

inductive IntentAction where
  | editEnd
  | reopen
deriving DecidableEq, Repr

/-- A row of `stewardship_campaign_config_intent`, with the projection it names. -/
structure ConfigurationIntent (Timezone Content : Type) [TimezoneRules Timezone] where
  requestId : Uuid
  campaignId : Uuid
  priorProjection : CampaignConfiguration Timezone Content
  action : IntentAction
  expectedVersion : Nat
  expectedRuntimeVersion : Nat
  tokenGeneration : Option Uuid
  actorId : Option Uuid

inductive ControlAction where
  | pause
  | resume
  | firstDelivery
  | firstSubmission
deriving DecidableEq, Repr

structure ControlChange where
  requestId : Uuid
  campaignId : Uuid
  action : ControlAction
  expectedVersion : Nat
  expectedRuntimeVersion : Nat
  reason : Text
  evidenceId : Option Uuid
  occurredAt : Int
  actorId : Option Uuid
deriving DecidableEq

/-- A row of `stewardship_config_activation`. -/
structure RecordedActivation where
  configurationId : Uuid
  requestId : Option Uuid
deriving DecidableEq

structure Database (Timezone Content : Type) [TimezoneRules Timezone] where
  runtime : SystemConfiguration
  campaigns : List (Campaign Timezone Content)
  transitions : List CampaignTransition
  runtimeTransitions : List RuntimeTransition
  intents : List (ConfigurationIntent Timezone Content)
  controls : List ControlChange
  activations : List RecordedActivation

/-- What a write finds in the tables left out. -/
structure Findings where
  /-- A work gate is preparing or running. -/
  workGate : Bool
  /-- The campaign's own work gate is preparing, running or a tombstone. -/
  campaignGate : Bool
  catchUpPending : Bool
  /-- A scheduled occurrence is pending, running or of unknown delivery. -/
  occurrencesOpen : Bool
  receiptsOpen : Bool
  mailOpen : Bool
  /-- The named boundary is pending, due and held by the actor's fenced task. -/
  boundaryOwned : Bool
  /-- A task already runs the pending close. -/
  closing : Bool
  /-- The token generation is complete and current, and the rehearsal cleaned up. -/
  tokensReady : Bool
  familiesValid : Bool
  ministriesValid : Bool
  /-- The activation's evidence names the predecessor and the actor. -/
  activationRecorded : Bool
  requestBound : Bool
  recoveryLogin : Bool
  restoreOperator : Bool
  restoreDecision : Bool
  holdsStale : Bool
deriving DecidableEq, Repr

variable {Timezone Content : Type} [TimezoneRules Timezone]

def CampaignConfiguration.interval (row : CampaignConfiguration Timezone Content) :
    UtcInterval where
  start := row.startsAt
  stop := row.endsAt
  ordered := Int.le_of_lt row.ordered

namespace Database

def campaign? (database : Database Timezone Content) (id : Uuid) :
    Option (Campaign Timezone Content) :=
  database.campaigns.find? fun campaign => campaign.id == id

/-- The row of a campaign, written anew. -/
def put (database : Database Timezone Content) (saved : Campaign Timezone Content) :
    Database Timezone Content :=
  { database with
    campaigns := database.campaigns.map fun campaign =>
      if campaign.id = saved.id then saved else campaign }

end Database

/-- `stewardship_campaign_quiet_v1`. -/
def Campaign.quiet (campaign : Campaign Timezone Content) (seen : Findings) : Bool :=
  !seen.catchUpPending && !campaign.deliveryPaused && !seen.occurrencesOpen

/-! ## Runtime transitions -/

/-- `stewardship_runtime_transition_effect_v1`. -/
def Database.applyRuntime (database : Database Timezone Content)
    (row : RuntimeTransition) : Database Timezone Content :=
  let runtime := database.runtime
  { database with
    runtime :=
      { runtime with
        mode := row.afterMode
        currentCampaign := row.afterCampaign
        restoreReviewRequired :=
          match row.action with
          | .restoreBegin => true
          | .restoreRelease => false
          | _ => runtime.restoreReviewRequired
        restoreId := if row.action = .restoreBegin then row.restoreId else runtime.restoreId
        restoreBackupAt :=
          if row.action = .restoreBegin then row.backupAt else runtime.restoreBackupAt
        version := runtime.version + 1 }
    runtimeTransitions := database.runtimeTransitions ++ [row] }

/-- The campaign the pointer names, in one of these states. -/
def Database.currentIn (database : Database Timezone Content)
    (states : List CampaignState) : Bool :=
  (database.runtime.currentCampaign.bind database.campaign?).any
    fun campaign => campaign.state ∈ states

/-- What `stewardship_runtime_transition_v1` asks of each action. -/
def RuntimeTransition.admitted (row : RuntimeTransition)
    (database : Database Timezone Content) (instant : Int) (seen : Findings) : Bool :=
  let runtime := database.runtime
  match row.action with
  | .returnTesting =>
      row.actorId.isSome && row.afterMode = .testing && row.afterCampaign.isNone &&
        !runtime.restoreReviewRequired &&
        (runtime.currentCampaign.bind database.campaign?).any (·.quiet seen) &&
        database.currentIn [.archived] && !seen.workGate
  | .campaign =>
      database.transitions.any fun made =>
        row.campaignTransition = some made.id &&
          made.expectedRuntimeVersion = runtime.version &&
          made.beforeMode = row.beforeMode && made.afterMode = row.afterMode &&
          row.beforeCampaign = some made.campaignId &&
          row.afterCampaign = row.beforeCampaign && made.actorId = row.actorId
  | .restoreBegin =>
      seen.restoreOperator && runtime.activeConfiguration.isSome &&
        row.afterMode = row.beforeMode && row.afterCampaign = row.beforeCampaign &&
        row.restoreId.isSome && row.restoreId ≠ runtime.restoreId &&
        row.backupAt.any (fun backup => decide (backup ≤ instant)) &&
        row.reason.any (· ≠ ' ') && row.campaignTransition.isNone &&
        !(runtime.restoreReviewRequired && row.backupAt = runtime.restoreBackupAt)
  | .restoreRelease =>
      runtime.restoreReviewRequired && row.restoreId = runtime.restoreId &&
        row.backupAt = runtime.restoreBackupAt && row.afterMode = row.beforeMode &&
        row.afterCampaign = row.beforeCampaign && row.actorId.isSome &&
        row.campaignTransition.isNone &&
        !database.currentIn [.purging, .purgeCleanupFailed] && !seen.workGate &&
        seen.restoreDecision && !seen.holdsStale

/-- An insert into `stewardship_runtime_transition`. -/
def insertRuntimeTransition (database : Database Timezone Content) (instant : Int)
    (seen : Findings) (row : RuntimeTransition) : Option (Database Timezone Content) :=
  if row.requestId ∈ database.runtimeTransitions.map (·.requestId) ∨
      row.expectedVersion ≠ database.runtime.version ∨
      row.beforeMode ≠ database.runtime.mode ∨
      row.beforeCampaign ≠ database.runtime.currentCampaign ∨
      (seen.recoveryLogin ∧ row.action ≠ .restoreBegin) ∨
      !row.admitted database instant seen then
    none
  else
    some (database.applyRuntime row)

/-! ## Campaign transitions -/

/-- The row names the campaign and the runtime as they are. -/
def CampaignTransition.stamped (row : CampaignTransition)
    (database : Database Timezone Content) (campaign : Campaign Timezone Content) : Bool :=
  campaign.version = row.expectedVersion &&
    database.runtime.version = row.expectedRuntimeVersion &&
    campaign.state = row.beforeState && database.runtime.mode = row.beforeMode &&
    database.runtime.activeConfiguration.all (· = row.configurationId) &&
    database.runtime.currentCampaign = some campaign.id

/-- An activated reopen intent extended the projection the row names. -/
def CampaignTransition.reopenIntended (row : CampaignTransition)
    (database : Database Timezone Content) (campaign : Campaign Timezone Content) : Bool :=
  let extended := campaign.configuration
  database.intents.any fun intent =>
    database.activations.any (fun made =>
        made.requestId = some intent.requestId &&
          made.configurationId = row.configurationId) &&
      intent.action = .reopen && intent.campaignId = campaign.id &&
      row.priorProjection = some intent.priorProjection.id &&
      extended.startsAt = intent.priorProjection.startsAt &&
      decide (intent.priorProjection.endsAt < extended.endsAt) &&
      intent.tokenGeneration = row.tokenGeneration &&
      intent.expectedVersion + 1 = campaign.version &&
      intent.expectedRuntimeVersion + 1 = database.runtime.version &&
      intent.actorId.isSome && intent.actorId = row.actorId

/-- The state and the mode that the `CASE` of `stewardship_campaign_transition_v1`
expects after the action, unless it raises. -/
def CampaignTransition.expected (row : CampaignTransition)
    (database : Database Timezone Content) (campaign : Campaign Timezone Content)
    (instant : Int) (seen : Findings) : Option (CampaignState × SystemMode) :=
  let mode := database.runtime.mode
  let dates := campaign.configuration
  match row.action with
  | .activate =>
      if campaign.state ≠ .draft ∨ mode ≠ .testing ∨ dates.endsAt ≤ instant ∨
          row.tokenGeneration = none then
        none
      else
        some (if instant < dates.startsAt then .scheduled else .active, .production)
  | .start =>
      if campaign.state ≠ .scheduled ∨ mode ≠ .production ∨ instant < dates.startsAt then
        none
      else
        some (.active, mode)
  | .close =>
      if campaign.state ≠ .active ∨ mode ≠ .production ∨ instant < dates.endsAt then
        none
      else
        some (.closed, mode)
  | .withdraw =>
      if campaign.state ≠ .scheduled ∨ campaign.everActive ∨ mode ≠ .production ∨
          dates.startsAt ≤ instant ∨ row.reason = [] ∨ !campaign.quiet seen then
        none
      else
        some (.draft, .testing)
  | .reopen =>
      if campaign.state ≠ .closed ∨ row.tokenGeneration = none ∨ dates.endsAt ≤ instant ∨
          instant < dates.startsAt ∨ !campaign.quiet seen ∨
          !row.reopenIntended database campaign then
        none
      else
        some (.active, .production)
  | .archive =>
      if campaign.state ≠ .closed ∨ !campaign.quiet seen ∨ seen.receiptsOpen ∨
          seen.mailOpen then
        none
      else
        some (.archived, mode)
  | .unarchive =>
      if campaign.state ≠ .archived ∨ !campaign.quiet seen then
        none
      else
        some (.closed, mode)
  | _ => none

/-- What `stewardship_campaign_transition_effect_v1` writes to the campaign. -/
def CampaignTransition.moved (row : CampaignTransition)
    (campaign : Campaign Timezone Content) : Campaign Timezone Content :=
  { campaign with
    state := row.afterState
    version := campaign.version + 1
    structuralLocked :=
      if row.action = .withdraw then false
      else if row.action = .activate then true
      else campaign.structuralLocked
    everActive := campaign.everActive || row.afterState = .active
    activeTokenGeneration :=
      if row.action ∈ [.activate, .reopen] then row.tokenGeneration
      else if row.action ∈ [.close, .withdraw] then none
      else campaign.activeTokenGeneration
    readinessRevision := campaign.readinessRevision +
      if row.action ∈ [.activate, .withdraw, .reopen] then 1 else 0
    productionCycle := campaign.productionCycle +
      if row.action = .withdraw then 1 else 0 }

/-- The runtime transition that a campaign transition inserts. -/
def CampaignTransition.runtimeRow (row : CampaignTransition) : RuntimeTransition where
  requestId := row.requestId
  expectedVersion := row.expectedRuntimeVersion
  action := .campaign
  beforeMode := row.beforeMode
  afterMode := row.afterMode
  beforeCampaign := some row.campaignId
  afterCampaign := some row.campaignId
  campaignTransition := some row.id
  restoreId := none
  backupAt := none
  reason := row.reason
  actorId := row.actorId

/-- The row in its ledger, and the campaign it has moved. -/
def Database.ledgered (database : Database Timezone Content) (row : CampaignTransition)
    (saved : Campaign Timezone Content) : Database Timezone Content :=
  { database with
    campaigns := (database.put saved).campaigns
    transitions := database.transitions ++ [row] }

/-- `stewardship_token_activation_v1`: a new token generation is complete. -/
def tokensAdmitted (before after : Option Uuid) (seen : Findings) : Bool :=
  after.isNone || after = before || seen.tokensReady

/-- An insert into `stewardship_campaign_transition`, with its effects. -/
def insertTransition (database : Database Timezone Content) (instant : Int)
    (seen : Findings) (row : CampaignTransition) : Option (Database Timezone Content) :=
  match database.campaign? row.campaignId with
  | none => none
  | some campaign =>
      if row.requestId ∈ database.transitions.map (·.requestId) ∨
          row.id ∈ database.transitions.map (·.id) ∨
          !row.stamped database campaign ∨ database.runtime.restoreReviewRequired ∨
          seen.workGate then
        none
      else
        match row.expected database campaign instant seen with
        | none => none
        | some (state, mode) =>
            if row.afterState ≠ state ∨ row.afterMode ≠ mode then
              none
            else if row.action ∉ [.start, .close] ∧ row.actorId = none then
              none
            else if row.action ∈ [.start, .close] ∧ !seen.boundaryOwned then
              none
            else if !tokensAdmitted campaign.activeTokenGeneration
                (row.moved campaign).activeTokenGeneration seen then
              none
            else
              insertRuntimeTransition (database.ledgered row (row.moved campaign))
                instant seen row.runtimeRow

/-! ## Intents and controls -/

/-- An insert into `stewardship_campaign_config_intent`. -/
def insertIntent (database : Database Timezone Content) (seen : Findings)
    (row : ConfigurationIntent Timezone Content) : Option (Database Timezone Content) :=
  match database.campaign? row.campaignId with
  | none => none
  | some campaign =>
      if row.requestId ∈ database.intents.map (·.requestId) ∨
          database.runtime.currentCampaign ≠ some campaign.id ∨
          campaign.version ≠ row.expectedVersion ∨
          database.runtime.version ≠ row.expectedRuntimeVersion ∨
          campaign.configuration.id ≠ row.priorProjection.id ∨
          database.runtime.restoreReviewRequired ∨ row.actorId = none ∨
          (row.action = .reopen ∧ (campaign.state ≠ .closed ∨
            row.tokenGeneration = none ∨ !campaign.quiet seen)) ∨
          (row.action = .editEnd ∧ (campaign.state ∉ [.scheduled, .active] ∨
            row.tokenGeneration ≠ none)) ∨
          !seen.requestBound then
        none
      else
        some { database with intents := database.intents ++ [row] }

/-- What `stewardship_control_guard_v1` and `stewardship_control_time_v1` ask of each
action. -/
def ControlChange.admitted (row : ControlChange) (campaign : Campaign Timezone Content) :
    Bool :=
  let dates := campaign.configuration
  let inOrder := campaign.pausedAt.all (fun since => decide (since ≤ row.occurredAt)) &&
    campaign.resumedAt.all fun since => decide (since ≤ row.occurredAt)
  let inside := row.evidenceId.isSome && decide (dates.startsAt ≤ row.occurredAt) &&
    decide (row.occurredAt < dates.endsAt)
  match row.action with
  | .pause =>
      !campaign.deliveryPaused && row.reason ≠ [] && row.evidenceId.isNone && inOrder
  | .resume =>
      campaign.deliveryPaused && row.reason ≠ [] && row.evidenceId.isNone && inOrder
  | .firstDelivery => inside && campaign.firstLiveDeliveryAt.isNone
  | .firstSubmission => inside && campaign.firstLiveSubmissionAt.isNone

/-- What `stewardship_control_effect_v1` writes to the campaign. -/
def ControlChange.changed (row : ControlChange) (campaign : Campaign Timezone Content) :
    Campaign Timezone Content :=
  { campaign with
    version := campaign.version + 1
    deliveryPaused :=
      match row.action with
      | .pause => true
      | .resume => false
      | _ => campaign.deliveryPaused
    pausedAt := if row.action = .pause then some row.occurredAt else campaign.pausedAt
    resumedAt :=
      match row.action with
      | .pause => none
      | .resume => some row.occurredAt
      | _ => campaign.resumedAt
    firstLiveDeliveryAt :=
      if row.action = .firstDelivery then some row.occurredAt
      else campaign.firstLiveDeliveryAt
    firstLiveSubmissionAt :=
      if row.action = .firstSubmission then some row.occurredAt
      else campaign.firstLiveSubmissionAt }

/-- An insert into `stewardship_campaign_control`. -/
def insertControl (database : Database Timezone Content) (instant : Int)
    (seen : Findings) (row : ControlChange) : Option (Database Timezone Content) :=
  match database.campaign? row.campaignId with
  | none => none
  | some campaign =>
      if row.requestId ∈ database.controls.map (·.requestId) ∨
          database.runtime.currentCampaign ≠ some campaign.id ∨
          campaign.version ≠ row.expectedVersion ∨
          database.runtime.version ≠ row.expectedRuntimeVersion ∨
          row.actorId = none ∨ database.runtime.mode ≠ .production ∨
          database.runtime.restoreReviewRequired ∨
          campaign.state ∉ [.scheduled, .active, .closed] ∨ instant < row.occurredAt ∨
          seen.campaignGate ∨ !row.admitted campaign then
        none
      else
        some { database.put (row.changed campaign) with
          controls := database.controls ++ [row] }

end ParishKit.Lifecycle
