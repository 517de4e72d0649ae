import ParishKit.Lib.Transition
import ParishKit.Lifecycle.Storage

/-!
# Activating a configuration

A new configuration carries a projection of each campaign. Its activation keeps the
campaign pointer or creates the one successor, holds the settings the lock freezes and
lets a live end move only for a bound intent. A reopen is part of its activation.
-/

namespace ParishKit.Lifecycle

open ParishKit.Lib ParishKit.Campaigns
open ParishKit.Jobs (Uuid)

/-- The update of the active configuration: the campaigns it projects, its request and
the identifier a reopen would take. -/
structure ConfigurationActivation (Timezone Content : Type) [TimezoneRules Timezone] where
  configurationId : Uuid
  requestId : Option Uuid
  actorId : Option Uuid
  transitionId : Uuid
  records : List (Uuid × CampaignConfiguration Timezone Content)
  distinct : (records.map Prod.fst).Nodup

variable {Timezone Content : Type} [TimezoneRules Timezone]

/-- A campaign as its first configuration creates it. -/
def Campaign.draft (id : Uuid) (configuration : CampaignConfiguration Timezone Content) :
    Campaign Timezone Content where
  id := id
  state := .draft
  version := 1
  configuration := configuration
  structuralLocked := false
  everActive := false
  activeTokenGeneration := none
  deliveryPaused := false
  pausedAt := none
  resumedAt := none
  firstLiveDeliveryAt := none
  firstLiveSubmissionAt := none
  readinessRevision := 0
  productionCycle := 0

/-- A campaign with a new projection. -/
def Campaign.reconfigured (campaign : Campaign Timezone Content)
    (proposed : CampaignConfiguration Timezone Content) : Campaign Timezone Content :=
  { campaign with
    configuration := proposed
    version := campaign.version + 1 }

namespace ConfigurationActivation

variable (activation : ConfigurationActivation Timezone Content)
  (database : Database Timezone Content)

def record? (id : Uuid) : Option (CampaignConfiguration Timezone Content) :=
  (activation.records.find? fun record => record.1 == id).map Prod.snd

/-- The campaigns that the configuration would create. -/
def created : List Uuid :=
  (activation.records.map Prod.fst).filter fun id => id ∉ database.campaigns.map (·.id)

/-- The intent bound to the activation's request. -/
def intent? : Option (ConfigurationIntent Timezone Content) :=
  activation.requestId.bind fun request =>
    database.intents.find? fun intent => intent.requestId == request

/-- The campaign the pointer names after `stewardship_campaign_pointer_v1`, unless it
raises. -/
def target (seen : Findings) : Option (Option Uuid) :=
  match database.runtime.currentCampaign with
  | some id => if activation.created database = [] then some (some id) else none
  | none =>
      match activation.created database with
      | [] => some none
      | [id] =>
          if database.runtime.mode ≠ .testing ∨ database.runtime.restoreReviewRequired ∨
              database.campaigns.any
                (fun campaign => campaign.state ∉ [.archived, .purged]) ∨
              seen.workGate then
            none
          else
            some (some id)
      | _ => none

variable [DecidableEq Timezone] [DecidableEq Content]

/-- No campaign is left out, and only the target's values change. -/
def historyKept (target : Option Uuid) : Bool :=
  database.campaigns.all fun campaign =>
    (activation.record? campaign.id).any fun proposed =>
      target = some campaign.id || campaign.configuration.values = proposed.values

/-- The locked parts are kept. The Ministry selections of an open campaign may change. -/
def lockKept (campaign : Campaign Timezone Content)
    (proposed : CampaignValues Timezone Content) (seen : Findings) : Bool :=
  let values := campaign.configuration.values
  !campaign.structuralLocked ||
    (values.timezone = proposed.timezone && values.startDate = proposed.startDate &&
      values.settings = proposed.settings &&
      (values.ministries = proposed.ministries ||
        (decide (campaign.state ∈ [.scheduled, .active]) && seen.ministriesValid)))

/-- What `stewardship_campaign_pointer_v1` asks of the target's projection. -/
def candidateAdmitted (id : Uuid) (seen : Findings) : Bool :=
  (activation.record? id).any fun proposed =>
    match database.campaign? id with
    | none => seen.familiesValid
    | some campaign =>
        campaign.configuration.values.families = proposed.values.families &&
          (!database.runtime.restoreReviewRequired ||
            campaign.configuration.values = proposed.values) &&
          lockKept campaign proposed.values seen

/-- A live end moves only as its intent was bound. -/
def endIntended (campaign : Campaign Timezone Content)
    (proposed : CampaignConfiguration Timezone Content) (instant : Int) (seen : Findings)
    (intent : ConfigurationIntent Timezone Content) : Bool :=
  let prior := campaign.configuration
  intent.campaignId = campaign.id && intent.expectedVersion = campaign.version &&
    intent.expectedRuntimeVersion = database.runtime.version &&
    intent.priorProjection.id = prior.id && intent.actorId = activation.actorId &&
    !database.runtime.restoreReviewRequired &&
    (match intent.action with
      | .editEnd =>
          decide (campaign.state ∈ [.scheduled, .active]) && decide (instant < prior.endsAt)
      | .reopen => campaign.state = .closed && decide (prior.endsAt < proposed.endsAt)) &&
    decide (instant < proposed.endsAt) && !seen.closing && !seen.workGate

/-- `stewardship_campaign_end_admission_v1`. -/
def endAdmitted (instant : Int) (seen : Findings) : Bool :=
  match database.runtime.currentCampaign with
  | none => true
  | some id =>
      match database.campaign? id, activation.record? id with
      | some campaign, some proposed =>
          if campaign.structuralLocked ∧
              proposed.endsAt ≠ campaign.configuration.endsAt then
            (activation.intent? database).any
              (activation.endIntended database campaign proposed instant seen)
          else
            (activation.intent? database).isNone
      | _, _ => (activation.intent? database).isNone

omit [DecidableEq Timezone] [DecidableEq Content]

/-- The campaigns after `stewardship_campaign_activate_v1`: the target has its new
projection, or is created. -/
def configured : Option Uuid → List (Campaign Timezone Content)
  | none => database.campaigns
  | some id =>
      match activation.record? id, database.campaign? id with
      | none, _ => database.campaigns
      | some proposed, none => database.campaigns ++ [.draft id proposed]
      | some proposed, some campaign =>
          (database.put (campaign.reconfigured proposed)).campaigns

/-- The tables once the pointer names the configuration. -/
def selected (target : Option Uuid) : Database Timezone Content :=
  { database with
    runtime :=
      { database.runtime with
        activeConfiguration := some activation.configurationId
        currentCampaign := target
        version := database.runtime.version + 1 }
    campaigns := activation.configured database target
    activations := database.activations ++
      [⟨activation.configurationId, activation.requestId⟩] }

/-- The transition of a bound reopen. -/
def reopenRow (intent : ConfigurationIntent Timezone Content)
    (campaign : Campaign Timezone Content) : CampaignTransition where
  id := activation.transitionId
  campaignId := campaign.id
  requestId := intent.requestId
  action := .reopen
  expectedVersion := campaign.version
  expectedRuntimeVersion := database.runtime.version
  beforeState := .closed
  afterState := .active
  beforeMode := database.runtime.mode
  afterMode := .production
  configurationId := activation.configurationId
  priorProjection := some intent.priorProjection.id
  tokenGeneration := intent.tokenGeneration
  boundaryId := none
  taskFence := none
  reason := []
  actorId := activation.actorId

/-- `stewardship_campaign_end_effect_v1`. -/
def endEffect (instant : Int) (seen : Findings) (database : Database Timezone Content) :
    Option (Database Timezone Content) :=
  match database.runtime.currentCampaign.bind database.campaign?,
      activation.intent? database with
  | some campaign, some intent =>
      if intent.action = .reopen then
        insertTransition database instant seen
          (activation.reopenRow database intent campaign)
      else
        some database
  | _, _ => some database

end ConfigurationActivation

/-- An update of the active configuration, with its effects. -/
def activateConfiguration [DecidableEq Timezone] [DecidableEq Content]
    (database : Database Timezone Content) (instant : Int) (seen : Findings)
    (activation : ConfigurationActivation Timezone Content) :
    Option (Database Timezone Content) :=
  if database.runtime.activeConfiguration = some activation.configurationId ∨
      activation.configurationId ∈ database.activations.map (·.configurationId) ∨
      (activation.requestId ≠ none ∧
        activation.requestId ∈ database.activations.map (·.requestId)) ∨
      !seen.activationRecorded ∨ !activation.endAdmitted database instant seen then
    none
  else
    match activation.target database seen with
    | none => none
    | some target =>
        if !activation.historyKept database target ∨
            !target.all (fun id => activation.candidateAdmitted database id seen) then
          none
        else
          activation.endEffect instant seen (activation.selected database target)

/-! ## Runs -/

inductive LifecycleWrite (Timezone Content : Type) [TimezoneRules Timezone] where
  | transition (row : CampaignTransition)
  | runtime (row : RuntimeTransition)
  | intent (row : ConfigurationIntent Timezone Content)
  | control (row : ControlChange)
  | activation (update : ConfigurationActivation Timezone Content)

/-- A write, the instant its statement reads and what it finds. -/
structure LifecycleOp (Timezone Content : Type) [TimezoneRules Timezone] where
  instant : Int
  seen : Findings
  write : LifecycleWrite Timezone Content

/-- The tables, and the latest instant a write has read. -/
structure Moment (Timezone Content : Type) [TimezoneRules Timezone] where
  database : Database Timezone Content
  latest : Int

/-- Before the first activation: Testing, without a campaign. -/
def Database.initial : Database Timezone Content where
  runtime :=
    { mode := .testing
      restoreReviewRequired := false
      restoreId := none
      restoreBackupAt := none
      activeConfiguration := none
      currentCampaign := none
      version := 1 }
  campaigns := []
  transitions := []
  runtimeTransitions := []
  intents := []
  controls := []
  activations := []

variable [DecidableEq Timezone] [DecidableEq Content]

def LifecycleOp.write? (op : LifecycleOp Timezone Content)
    (database : Database Timezone Content) : Option (Database Timezone Content) :=
  match op.write with
  | .transition row => insertTransition database op.instant op.seen row
  | .runtime row => insertRuntimeTransition database op.instant op.seen row
  | .intent row => insertIntent database op.seen row
  | .control row => insertControl database op.instant op.seen row
  | .activation update => activateConfiguration database op.instant op.seen update

/-- A write that a trigger refuses leaves no step. -/
def LifecycleOp.apply (op : LifecycleOp Timezone Content)
    (moment : Moment Timezone Content) : Option (Moment Timezone Content) :=
  (op.write? moment.database).map fun database =>
    ⟨database, max moment.latest op.instant⟩

/-- The states that writes in any order lead to. -/
def Reached (moment : Moment Timezone Content) : Prop :=
  ∃ (start : Int) (ops : List (LifecycleOp Timezone Content)),
    run LifecycleOp.apply ⟨.initial, start⟩ ops = some moment

end ParishKit.Lifecycle
