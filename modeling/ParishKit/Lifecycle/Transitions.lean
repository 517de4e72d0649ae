import Mathlib.Data.List.Basic

/-!
# The lifecycle policy

The pure decisions of a campaign's lifecycle: which action may move it where, who is
admitted to the portal, which work may run. They read facts of one instant and prove
none of the named guards.
-/

namespace ParishKit.Lifecycle

inductive CampaignState where
  | draft
  | scheduled
  | active
  | closed
  | archived
  | purging
  | purgeCleanupFailed
  | purged
deriving DecidableEq, Repr

inductive SystemMode where
  | testing
  | production
deriving DecidableEq, Repr

inductive Action where
  | activate
  | start
  | close
  | withdraw
  | reopen
  | archive
  | unarchive
  | returnTesting
  | purge
  | purgeAbort
  | purgeComplete
  | purgeCleanupFailed
deriving DecidableEq, Repr

inductive CampaignWorkKind where
  | livePreparation
  | liveDelivery
  | rehearsal
  | preview
  | readinessTest
deriving DecidableEq, Repr

inductive Actor where
  | administrator
  | boundaryWorker
  | purgeWorker
deriving DecidableEq, Repr

inductive Guard where
  | current
  | readiness
  | configurationCoherent
  | cleanupComplete
  | tokenGeneration
  | catchUpDemand
  | noRestore
  | noPurge
  | boundaryCurrent
  | fencedOwner
  | invalidateFamilyAccess
  | quiescent
  | cancelFutureWork
  | invalidateReadiness
  | reason
  | extendedEnd
  | postCloseResolved
  | noOtherCurrent
  | clearCurrentPointer
  | purgeRequest
  | purgeWindow
  | noCurrentCampaign
  | freshBackup
  | noDeletionCommitted
  | databaseDeleted
  | filesDeleted
deriving DecidableEq, Repr

/-! ## The registry -/

structure Transition where
  sources : List CampaignState
  targets : List CampaignState
  actor : Actor
  guards : List Guard
  modes : List SystemMode
  confirmation : Bool
deriving DecidableEq, Repr

def eitherMode : List SystemMode :=
  [.testing, .production]

/-- `_transition`. -/
def transition (sources targets : List CampaignState) (actor : Actor)
    (guards : List Guard) (modes : List SystemMode) : Transition where
  sources := sources
  targets := targets
  actor := actor
  guards := guards ++
    if actor = .purgeWorker then [.noCurrentCampaign, .fencedOwner] else []
  modes := modes
  confirmation := actor = .administrator

/-- `TRANSITIONS`. -/
def Action.rule : Action → Transition
  | .activate =>
      transition [.draft] [.scheduled, .active] .administrator
        [.current, .readiness, .configurationCoherent, .cleanupComplete,
          .tokenGeneration, .catchUpDemand, .noRestore, .noPurge] [.testing]
  | .start =>
      transition [.scheduled] [.active] .boundaryWorker
        [.current, .boundaryCurrent, .noRestore, .noPurge, .fencedOwner] [.production]
  | .close =>
      transition [.active] [.closed] .boundaryWorker
        [.current, .boundaryCurrent, .invalidateFamilyAccess, .noRestore, .noPurge,
          .fencedOwner] [.production]
  | .withdraw =>
      transition [.scheduled] [.draft] .administrator
        [.current, .quiescent, .cancelFutureWork, .invalidateReadiness, .noRestore,
          .noPurge, .reason] [.production]
  | .reopen =>
      transition [.closed] [.active] .administrator
        [.current, .readiness, .configurationCoherent, .tokenGeneration, .extendedEnd,
          .noRestore, .noPurge, .quiescent] eitherMode
  | .archive =>
      transition [.closed] [.archived] .administrator
        [.current, .quiescent, .postCloseResolved, .noRestore, .noPurge] eitherMode
  | .unarchive =>
      transition [.archived] [.closed] .administrator
        [.current, .noOtherCurrent, .quiescent, .noRestore, .noPurge] eitherMode
  | .returnTesting =>
      transition [.archived] [.archived] .administrator
        [.current, .quiescent, .postCloseResolved, .noRestore, .noPurge,
          .clearCurrentPointer] eitherMode
  | .purge =>
      transition [.archived] [.purging] .purgeWorker
        [.purgeRequest, .purgeWindow, .noCurrentCampaign, .freshBackup, .quiescent]
        [.testing]
  | .purgeAbort =>
      transition [.purging] [.archived] .purgeWorker [.noDeletionCommitted] [.testing]
  | .purgeComplete =>
      transition [.purging, .purgeCleanupFailed] [.purged] .purgeWorker
        [.databaseDeleted, .filesDeleted, .fencedOwner] [.testing]
  | .purgeCleanupFailed =>
      transition [.purging] [.purgeCleanupFailed] .purgeWorker
        [.databaseDeleted, .fencedOwner] [.testing]

/-! ## Facts of one instant -/

/-- A half-open interval of instants. -/
structure UtcInterval where
  start : Int
  stop : Int
  ordered : start ≤ stop
deriving DecidableEq, Repr

def UtcInterval.contains (interval : UtcInterval) (instant : Int) : Bool :=
  decide (interval.start ≤ instant ∧ instant < interval.stop)

structure CampaignFacts where
  state : CampaignState
  mode : SystemMode
  interval : UtcInterval
  current : Bool
  restoreRequired : Bool
  deliveryPaused : Bool
  catchUpPending : Bool
deriving DecidableEq, Repr

/-- `portal_admitted`. -/
def portalAdmitted (facts : CampaignFacts) (now : Int) : Bool :=
  if !facts.current || facts.restoreRequired || !facts.interval.contains now then
    false
  else if facts.mode = .testing then
    facts.state = .draft
  else
    facts.state ∈ [.scheduled, .active]

/-- `staff_entry_admitted`: Staff may enter a response after the close as well. -/
def staffEntryAdmitted (facts : CampaignFacts) (now : Int) : Bool :=
  portalAdmitted facts now ||
    (facts.current && !facts.restoreRequired && facts.mode = .production &&
      decide (facts.state ∈ [.scheduled, .active, .closed]) &&
      decide (facts.interval.start ≤ now))

/-- `campaign_work_admitted`. -/
def campaignWorkAdmitted (facts : CampaignFacts) (now : Int) (kind : CampaignWorkKind) :
    Bool :=
  if !facts.current || facts.restoreRequired then
    false
  else if kind ∈ [.preview, .readinessTest] then
    facts.state ∈ [.draft, .scheduled, .active, .closed, .archived]
  else if !portalAdmitted facts now then
    false
  else if kind = .rehearsal then
    facts.mode = .testing
  else if facts.mode ≠ .production || facts.catchUpPending then
    false
  else
    kind ≠ .liveDelivery || !facts.deliveryPaused

/-- `transition_target`: where an action leads by the dates and the state. -/
def transitionTarget (action : Action) (facts : CampaignFacts) (now : Int)
    (proposed : Option UtcInterval) : Option CampaignState :=
  let rule := action.rule
  if facts.state ∉ rule.sources ∨ facts.mode ∉ rule.modes then
    none
  else if .current ∈ rule.guards ∧ !facts.current then
    none
  else if .noRestore ∈ rule.guards ∧ facts.restoreRequired then
    none
  else if .noCurrentCampaign ∈ rule.guards ∧ facts.current then
    none
  else
    match action with
    | .activate =>
        if facts.interval.stop ≤ now then none
        else if facts.interval.contains now then some .active
        else some .scheduled
    | .start =>
        if now < facts.interval.start then none else rule.targets.head?
    | .close =>
        if now < facts.interval.stop then none else rule.targets.head?
    | .withdraw =>
        if facts.interval.start ≤ now then none else rule.targets.head?
    | .reopen =>
        match proposed with
        | none => none
        | some interval =>
            if interval.start ≠ facts.interval.start ∨
                interval.stop ≤ facts.interval.stop ∨ !interval.contains now then
              none
            else
              rule.targets.head?
    | _ => rule.targets.head?

/-- `draft_creation_admitted`. -/
def draftCreationAdmitted {Id : Type} (mode : SystemMode) (currentId : Option Id)
    (states : List CampaignState) (nonterminalPurge : Bool) : Bool :=
  mode = .testing && currentId.isNone && !nonterminalPurge &&
    states.all fun state => state ∈ [.archived, .purged]

/-- `structural_edit_admitted`. -/
def structuralEditAdmitted (state : CampaignState) (everActive locked : Bool) : Bool :=
  state = .draft && !everActive && !locked

end ParishKit.Lifecycle
