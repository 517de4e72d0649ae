import ParishKit.Lifecycle.ActivationSafety

/-!
# Who is admitted

In every state that writes lead to, one campaign at most is not archived, and the
portal, the Staff entry and the public page go by the campaign's dates, whatever start
or close has not been processed yet.
-/

namespace ParishKit.Lifecycle

open ParishKit.Lib ParishKit.Campaigns
open ParishKit.Jobs (Uuid)

variable {Timezone Content : Type} [TimezoneRules Timezone]

/-- `campaign_facts`. -/
def campaignFacts (campaign : Campaign Timezone Content) (runtime : SystemConfiguration)
    (catchUpPending : Bool) : CampaignFacts where
  state := campaign.state
  mode := runtime.mode
  interval := campaign.configuration.interval
  current := runtime.currentCampaign = some campaign.id
  restoreRequired := runtime.restoreReviewRequired
  deliveryPaused := campaign.deliveryPaused
  catchUpPending := catchUpPending

/-- The credentials of the current campaign, as far as the public page reads them. -/
structure CredentialScope where
  goLiveGate : Bool
  populationDirty : Bool
  rehearsing : Bool
deriving DecidableEq, Repr

/-- Which page `unavailable_page` returns; `none` lets the visitor on. -/
inductive UnavailablePage where
  | noCampaign
  | ended
  | notStarted
  | notOpen
  | preparing
  | testingPreparing
deriving DecidableEq, Repr

/-- `unavailable_page`. -/
def unavailablePage (database : Database Timezone Content) (scope : Option CredentialScope)
    (catchUpPending : Bool) (now : Int) : Option UnavailablePage :=
  match database.runtime.currentCampaign.bind database.campaign? with
  | none => some .noCampaign
  | some campaign =>
      let dates := campaign.configuration
      if campaign.state ∈ [.closed, .archived, .purging, .purged] ∨ dates.endsAt ≤ now then
        some .ended
      else if now < dates.startsAt then
        some .notStarted
      else if !portalAdmitted (campaignFacts campaign database.runtime catchUpPending) now then
        some .notOpen
      else
        match scope with
        | none => some .preparing
        | some scope =>
            if scope.goLiveGate || scope.populationDirty then
              some .preparing
            else if database.runtime.mode = .testing ∧ !scope.rehearsing then
              some .testingPreparing
            else
              none

/-! ## An autumn campaign -/

/-- A parish whose clock shows the instants. -/
instance unitRules : TimezoneRules Unit where
  zone _ := ⟨0, [], trivial⟩

theorem resolveLocal_unit (wallTime : Int) :
    resolveLocal (TimezoneRules.zone ()) wallTime = wallTime := by
  simp [resolveLocal, TimezoneRules.zone, Zone.instant, Zone.clock, wallOffset, clockAt,
    offsetAt]

/-- From day 10 to the end of the last day. -/
def autumnDates (id : Uuid) (last : Int) (ordered : 10 ≤ last) :
    CampaignConfiguration Unit Nat where
  id := id
  values :=
    { timezone := ()
      startDate := 10
      endDate := last
      families := 0
      ministries := 0
      settings := 0
      wording := 0 }
  startsAt := midnight 10
  endsAt := midnight (last + 1)
  resolvedStart := (resolveLocal_unit _).symm
  resolvedEnd := (resolveLocal_unit _).symm
  ordered := by
    unfold midnight
    omega

/-- Nothing is open, and what is asked for is there. -/
def allClear : Findings where
  workGate := false
  campaignGate := false
  catchUpPending := false
  occurrencesOpen := false
  receiptsOpen := false
  mailOpen := false
  boundaryOwned := true
  closing := false
  tokensReady := true
  familiesValid := true
  ministriesValid := true
  activationRecorded := true
  requestBound := true
  recoveryLogin := false
  restoreOperator := false
  restoreDecision := false
  holdsStale := false

def autumnRow (id : Uuid) (action : Action) (version : Nat)
    (before after : CampaignState) (mode : SystemMode) (tokens : Option Uuid) :
    CampaignTransition where
  id := id
  campaignId := 7
  requestId := id
  action := action
  expectedVersion := version
  expectedRuntimeVersion := version + 1
  beforeState := before
  afterState := after
  beforeMode := mode
  afterMode := .production
  configurationId := 101
  priorProjection := none
  tokenGeneration := tokens
  boundaryId := none
  taskFence := none
  reason := []
  actorId := some 1

/-- Created, activated, started, closed, and reopened until day 60. -/
def autumnOps : List (LifecycleOp Unit Nat) :=
  [⟨midnight 1, allClear, .activation
      ⟨101, some 201, some 1, 301, [(7, autumnDates 11 40 (by decide))], by decide⟩⟩,
    ⟨midnight 2, allClear, .transition
      (autumnRow 302 .activate 1 .draft .scheduled .testing (some 401))⟩,
    ⟨midnight 10, allClear, .transition
      (autumnRow 303 .start 2 .scheduled .active .production none)⟩,
    ⟨midnight 41, allClear, .transition
      (autumnRow 304 .close 3 .active .closed .production none)⟩,
    ⟨midnight 42, allClear, .intent
      ⟨205, 7, autumnDates 11 40 (by decide), .reopen, 4, 5, some 402, some 1⟩⟩,
    ⟨midnight 42, allClear, .activation
      ⟨102, some 205, some 1, 305, [(7, autumnDates 12 60 (by decide))], by decide⟩⟩]

def autumnMoment (count : Nat) : Moment Unit Nat :=
  (run LifecycleOp.apply ⟨.initial, 0⟩ (autumnOps.take count)).getD ⟨.initial, 0⟩

theorem autumn_run {count : Nat}
    (finishes : (run LifecycleOp.apply ⟨.initial, 0⟩ (autumnOps.take count)).isSome) :
    run LifecycleOp.apply ⟨.initial, 0⟩ (autumnOps.take count) = some (autumnMoment count) := by
  obtain ⟨moment, finished⟩ := Option.isSome_iff_exists.mp finishes
  rw [autumnMoment, finished]
  rfl

theorem autumn_reached {count : Nat}
    (finishes : (run LifecycleOp.apply ⟨.initial, 0⟩ (autumnOps.take count)).isSome) :
    Reached (autumnMoment count) :=
  ⟨0, autumnOps.take count, autumn_run finishes⟩

theorem autumn_between {first last : Nat} (le : first ≤ last)
    (begins : (run LifecycleOp.apply ⟨.initial, 0⟩ (autumnOps.take first)).isSome)
    (finishes : (run LifecycleOp.apply ⟨.initial, 0⟩ (autumnOps.take last)).isSome) :
    run LifecycleOp.apply (autumnMoment first) ((autumnOps.take last).drop first) =
      some (autumnMoment last) := by
  have whole := autumn_run finishes
  rw [← List.take_append_drop first (autumnOps.take last), List.take_take,
    Nat.min_eq_left le, run_append, autumn_run begins, Option.bind_some] at whole
  exact whole

def autumnCampaign (count : Nat) : Campaign Unit Nat :=
  (autumnMoment count).database.campaigns.headD (.draft 7 (autumnDates 11 40 (by decide)))

theorem autumn_member {count : Nat}
    (one : (autumnMoment count).database.campaigns ≠ []) :
    autumnCampaign count ∈ (autumnMoment count).database.campaigns := by
  rw [autumnCampaign, List.headD_eq_head?_getD]
  cases campaigns : (autumnMoment count).database.campaigns with
  | nil => exact absurd campaigns one
  | cons first rest => simp

/-! ## One campaign at a time -/

variable [DecidableEq Timezone] [DecidableEq Content] {moment : Moment Timezone Content}
  {campaign : Campaign Timezone Content} {now : Int}

/-- One campaign at most is not archived: the current one. Its state tells the mode, its
locks and its links, and no campaign is being purged. -/
theorem one_open_campaign (reached : Reached moment) :
    (∀ first ∈ moment.database.campaigns, ∀ second ∈ moment.database.campaigns,
      first.state ≠ .archived → second.state ≠ .archived → first = second) ∧
    (∀ campaign ∈ moment.database.campaigns, campaign.state ≠ .archived →
      moment.database.runtime.currentCampaign = some campaign.id) ∧
    (moment.database.runtime.mode = .testing ↔
      ∀ campaign ∈ moment.database.campaigns,
        moment.database.runtime.currentCampaign = some campaign.id →
          campaign.state = .draft) ∧
    ∀ campaign ∈ moment.database.campaigns, campaign.Staged moment.latest := by
  have sound : moment.database.Sound moment.latest := reached.sound
  refine ⟨?_, sound.openCurrent, ⟨?_, ?_⟩, sound.staged⟩
  · intro first isFirst second isSecond firstOpen secondOpen
    have same := (sound.openCurrent first isFirst firstOpen).symm.trans
      (sound.openCurrent second isSecond secondOpen)
    exact Database.eq_of_id sound.distinct isSecond isFirst (Option.some.inj same)
  · intro isTesting campaign member isCurrent
    exact (sound.inMode campaign member isCurrent).mp isTesting
  · intro allDraft
    cases isCurrent : moment.database.runtime.currentCampaign with
    | none => exact sound.unpointed isCurrent
    | some id =>
        obtain ⟨campaign, member, named⟩ := List.mem_map.mp (sound.pointed id isCurrent)
        rw [← named] at isCurrent
        exact (sound.inMode campaign member isCurrent).mpr (allDraft campaign member isCurrent)

/-- Once reopened, the campaign of the autumn is the one the pointer names. -/
theorem autumn_one_open :
    (autumnMoment 6).database.runtime.currentCampaign = some (autumnCampaign 6).id :=
  (one_open_campaign (autumn_reached (by decide +kernel))).2.1 (autumnCampaign 6)
    (autumn_member (by decide +kernel)) (by decide +kernel)

/-! ## Dates -/

omit [DecidableEq Timezone] [DecidableEq Content] in
/-- Within its dates a campaign is a draft, or scheduled or active in Production. -/
theorem Database.Sound.within {database : Database Timezone Content} {latest : Int}
    (sound : database.Sound latest) (member : campaign ∈ database.campaigns)
    (isCurrent : database.runtime.currentCampaign = some campaign.id) (le : latest ≤ now)
    (early : now < campaign.configuration.endsAt) :
    (database.runtime.mode = .testing ∧ campaign.state = .draft) ∨
      (database.runtime.mode = .production ∧ campaign.state ∈ [.scheduled, .active]) := by
  have staged := sound.staged campaign member
  have inMode := sound.inMode campaign member isCurrent
  unfold Campaign.Staged at staged
  have notTesting : ∀ {state : CampaignState}, campaign.state = state → state ≠ .draft →
      database.runtime.mode = .production := by
    intro state isState isOther
    cases isMode : database.runtime.mode with
    | testing => exact absurd (isState.symm.trans (inMode.mp isMode)) isOther
    | production => rfl
  cases isState : campaign.state <;> simp only [isState] at staged
  case draft => exact Or.inl ⟨inMode.mpr isState, rfl⟩
  case scheduled => exact Or.inr ⟨notTesting isState (by simp), by simp⟩
  case active => exact Or.inr ⟨notTesting isState (by simp), by simp⟩
  all_goals
    have ended := staged.2.2.2
    omega

omit [DecidableEq Timezone] [DecidableEq Content] in
theorem Database.Sound.portalAdmitted_iff {database : Database Timezone Content}
    {latest : Int} (sound : database.Sound latest) (member : campaign ∈ database.campaigns)
    (isCurrent : database.runtime.currentCampaign = some campaign.id) (le : latest ≤ now)
    (catchUp : Bool) :
    portalAdmitted (campaignFacts campaign database.runtime catchUp) now = true ↔
      database.runtime.restoreReviewRequired = false ∧
        campaign.configuration.startsAt ≤ now ∧ now < campaign.configuration.endsAt := by
  constructor
  · intro admitted
    unfold portalAdmitted at admitted
    split at admitted
    · cases admitted
    · rename_i free
      simp only [campaignFacts, UtcInterval.contains, CampaignConfiguration.interval,
        Bool.or_eq_true, not_or, Bool.not_eq_true, Bool.not_eq_false',
        decide_eq_true_eq] at free
      obtain ⟨started, early⟩ := of_decide_eq_true free.2
      exact ⟨free.1.2, started, early⟩
  · rintro ⟨notRestoring, started, early⟩
    have inside : (campaignFacts campaign database.runtime catchUp).interval.contains now =
        true := decide_eq_true ⟨started, early⟩
    have facts : (!(campaignFacts campaign database.runtime catchUp).current ||
        (campaignFacts campaign database.runtime catchUp).restoreRequired ||
        !(campaignFacts campaign database.runtime catchUp).interval.contains now) =
          false := by
      rw [inside]
      simp [campaignFacts, isCurrent, notRestoring]
    unfold portalAdmitted
    rw [facts]
    rcases sound.within member isCurrent le early with ⟨isMode, isState⟩ | ⟨isMode, isState⟩
    · simp [campaignFacts, isMode, isState]
    · simpa [campaignFacts, isMode] using isState

omit [DecidableEq Timezone] [DecidableEq Content] in
/-- Staff enter responses after the end as well, until the campaign is archived. -/
theorem Database.Sound.staffEntryAdmitted_iff {database : Database Timezone Content}
    {latest : Int} (sound : database.Sound latest) (member : campaign ∈ database.campaigns)
    (isCurrent : database.runtime.currentCampaign = some campaign.id) (le : latest ≤ now)
    (catchUp : Bool) :
    staffEntryAdmitted (campaignFacts campaign database.runtime catchUp) now = true ↔
      database.runtime.restoreReviewRequired = false ∧
        campaign.configuration.startsAt ≤ now ∧
        (now < campaign.configuration.endsAt ∨
          (database.runtime.mode = .production ∧ campaign.state ≠ .archived)) := by
  have stays : database.runtime.mode = .production ∧ campaign.state ≠ .archived →
      campaign.state ∈ [.scheduled, .active, .closed] := by
    rintro ⟨isMode, isOpen⟩
    have staged := sound.staged campaign member
    have inMode := sound.inMode campaign member isCurrent
    unfold Campaign.Staged at staged
    rw [isMode] at inMode
    cases isState : campaign.state <;> simp_all
  rw [staffEntryAdmitted, Bool.or_eq_true, sound.portalAdmitted_iff member isCurrent le catchUp]
  simp only [campaignFacts, CampaignConfiguration.interval, isCurrent, decide_true,
    Bool.true_and, Bool.and_eq_true, Bool.not_eq_true', decide_eq_true_eq]
  constructor
  · rintro (⟨notRestoring, started, early⟩ | ⟨⟨⟨notRestoring, isMode⟩, isState⟩, started⟩)
    · exact ⟨notRestoring, started, Or.inl early⟩
    · refine ⟨notRestoring, started, Or.inr ⟨isMode, ?_⟩⟩
      intro isArchived
      rw [isArchived] at isState
      simp at isState
  · rintro ⟨notRestoring, started, early | inProduction⟩
    · exact Or.inl ⟨notRestoring, started, early⟩
    · exact Or.inr ⟨⟨⟨notRestoring, inProduction.1⟩, stays inProduction⟩, started⟩

omit [DecidableEq Timezone] [DecidableEq Content] in
/-- A closed or archived campaign's end has passed. -/
theorem Database.Sound.ended {database : Database Timezone Content} {latest : Int}
    (sound : database.Sound latest) (member : campaign ∈ database.campaigns)
    (le : latest ≤ now)
    (isOver : campaign.state ∈ [.closed, .archived, .purging, .purged]) :
    campaign.configuration.endsAt ≤ now := by
  have staged := sound.staged campaign member
  unfold Campaign.Staged at staged
  cases isState : campaign.state <;> simp only [isState] at staged isOver
  case closed => exact staged.2.2.2.trans le
  case archived => exact staged.2.2.2.trans le
  all_goals simp at isOver

/-- Admission goes by the dates. No reading of the state is needed: a start or a close
that lags admits nobody early, keeps nobody out and lets nobody stay. -/
theorem dates_decide_admission (reached : Reached moment)
    (member : campaign ∈ moment.database.campaigns)
    (isCurrent : moment.database.runtime.currentCampaign = some campaign.id)
    (le : moment.latest ≤ now) (catchUp : Bool) (scope : Option CredentialScope) :
    let runtime := moment.database.runtime
    let facts := campaignFacts campaign runtime catchUp
    let page := unavailablePage moment.database scope catchUp now
    let dates := campaign.configuration
    (portalAdmitted facts now = true ↔
      runtime.restoreReviewRequired = false ∧ dates.startsAt ≤ now ∧ now < dates.endsAt) ∧
    (staffEntryAdmitted facts now = true ↔
      runtime.restoreReviewRequired = false ∧ dates.startsAt ≤ now ∧
        (now < dates.endsAt ∨
          (runtime.mode = .production ∧ campaign.state ≠ .archived))) ∧
    (page = some .ended ↔ dates.endsAt ≤ now) ∧
    (page = some .notStarted ↔ now < dates.startsAt) ∧
    (page = some .notOpen ↔ runtime.restoreReviewRequired = true ∧
      dates.startsAt ≤ now ∧ now < dates.endsAt) := by
  have sound : moment.database.Sound moment.latest := reached.sound
  have portal := sound.portalAdmitted_iff member isCurrent le catchUp
  have isFound : moment.database.runtime.currentCampaign.bind moment.database.campaign? =
      some campaign := by
    rw [isCurrent, Option.bind_some, Database.campaign?_of_mem sound.distinct member]
  have ordered := campaign.configuration.ordered
  refine ⟨portal, sound.staffEntryAdmitted_iff member isCurrent le catchUp, ?_⟩
  by_cases isOver : campaign.configuration.endsAt ≤ now
  · have isPage : unavailablePage moment.database scope catchUp now = some .ended := by
      simp [unavailablePage, isFound, isOver]
    simp only [isPage]
    refine ⟨by simp [isOver], ?_, ?_⟩
    · simpa using (Int.le_of_lt ordered).trans isOver
    · simpa using fun _ _ => isOver
  · have notOver : ¬ (campaign.state ∈ [.closed, .archived, .purging, .purged] ∨
        campaign.configuration.endsAt ≤ now) := by
      rintro (isState | ended)
      · exact isOver (sound.ended member le isState)
      · exact isOver ended
    by_cases early : now < campaign.configuration.startsAt
    · have isPage : unavailablePage moment.database scope catchUp now = some .notStarted := by
        simp only [unavailablePage, isFound]
        rw [if_neg notOver, if_pos early]
      simp only [isPage]
      refine ⟨by simpa using isOver, by simpa using early, ?_⟩
      simpa using fun _ started => absurd early (Int.not_lt.mpr started)
    · have started := Int.not_lt.mp early
      have inside := Int.not_le.mp isOver
      cases isRestoring : moment.database.runtime.restoreReviewRequired with
      | true =>
          have refused : portalAdmitted (campaignFacts campaign moment.database.runtime catchUp)
              now = false := by
            rw [Bool.eq_false_iff, Ne, portal, isRestoring]
            simp
          have isPage : unavailablePage moment.database scope catchUp now = some .notOpen := by
            simp only [unavailablePage, isFound]
            rw [if_neg notOver, if_neg early, refused]
            rfl
          simp only [isPage]
          exact ⟨by simpa using inside, by simpa using started, by simp [started, inside]⟩
      | false =>
          have admitted := portal.mpr ⟨isRestoring, started, inside⟩
          have isPage : unavailablePage moment.database scope catchUp now ∈
              [none, some .preparing, some .testingPreparing] := by
            simp only [unavailablePage, isFound]
            rw [if_neg notOver, if_neg early, admitted]
            cases scope with
            | none => simp
            | some scope =>
                simp only [Bool.not_true, Bool.false_eq_true, if_false]
                split
                · simp
                · split <;> simp
          simp only [List.mem_cons, List.not_mem_nil, or_false] at isPage
          rcases isPage with isPage | isPage | isPage <;> simp only [isPage]
          all_goals exact ⟨by simpa using inside, by simpa using started, by simp⟩

/-- A scheduled campaign whose start lags admits on its second day. -/
theorem autumn_admits :
    portalAdmitted (campaignFacts (autumnCampaign 2) (autumnMoment 2).database.runtime false)
      (midnight 11) = true :=
  (dates_decide_admission (autumn_reached (by decide +kernel))
    (autumn_member (by decide +kernel)) (by decide +kernel) (by decide +kernel) false
    none).1.mpr (by decide +kernel)

/-! ## Work -/

/-- Work goes by the dates and the mode. Live work runs in Production within the dates,
once the activation has caught up, and deliveries while they are not paused; a rehearsal
runs in Testing within the dates; previews and readiness tests run at any time outside a
restore review. -/
theorem dates_decide_work (reached : Reached moment)
    (member : campaign ∈ moment.database.campaigns)
    (isCurrent : moment.database.runtime.currentCampaign = some campaign.id)
    (le : moment.latest ≤ now) (catchUp : Bool) (kind : CampaignWorkKind) :
    let runtime := moment.database.runtime
    let dates := campaign.configuration
    campaignWorkAdmitted (campaignFacts campaign runtime catchUp) now kind = true ↔
      runtime.restoreReviewRequired = false ∧
        match kind with
        | .livePreparation =>
            (dates.startsAt ≤ now ∧ now < dates.endsAt) ∧ runtime.mode = .production ∧
              catchUp = false
        | .liveDelivery =>
            (dates.startsAt ≤ now ∧ now < dates.endsAt) ∧ runtime.mode = .production ∧
              catchUp = false ∧ campaign.deliveryPaused = false
        | .rehearsal =>
            (dates.startsAt ≤ now ∧ now < dates.endsAt) ∧ runtime.mode = .testing
        | .preview | .readinessTest => True := by
  have sound : moment.database.Sound moment.latest := reached.sound
  have portal := sound.portalAdmitted_iff member isCurrent le catchUp
  have staged := sound.staged campaign member
  have notPurged : campaign.state = .draft ∨ campaign.state = .scheduled ∨
      campaign.state = .active ∨ campaign.state = .closed ∨ campaign.state = .archived := by
    unfold Campaign.Staged at staged
    cases isState : campaign.state <;> simp [isState] at staged ⊢
  have isFactCurrent : (campaignFacts campaign moment.database.runtime catchUp).current =
      true := decide_eq_true isCurrent
  cases isRestoring : moment.database.runtime.restoreReviewRequired with
  | true =>
      simp [campaignWorkAdmitted, campaignFacts, isRestoring]
  | false =>
      rw [isRestoring] at portal
      by_cases within : campaign.configuration.startsAt ≤ now ∧
          now < campaign.configuration.endsAt
      · have admitted : portalAdmitted (campaignFacts campaign moment.database.runtime catchUp)
            now = true := portal.mpr ⟨rfl, within⟩
        cases kind <;> cases isMode : moment.database.runtime.mode <;>
          simp [campaignWorkAdmitted, admitted, isFactCurrent, within] <;>
          simp [campaignFacts, isRestoring, isMode]
        all_goals exact notPurged
      · have refused : portalAdmitted (campaignFacts campaign moment.database.runtime catchUp)
            now = false := by
          rw [Bool.eq_false_iff]
          intro admitted
          exact within (portal.mp admitted).2
        cases kind <;>
          simp [campaignWorkAdmitted, refused, isFactCurrent, within] <;>
          simp [campaignFacts, isRestoring]
        all_goals exact notPurged

/-- The same campaign's mail goes out while its start lags. -/
theorem autumn_delivers :
    campaignWorkAdmitted (campaignFacts (autumnCampaign 2) (autumnMoment 2).database.runtime
      false) (midnight 11) .liveDelivery = true :=
  (dates_decide_work (autumn_reached (by decide +kernel))
    (autumn_member (by decide +kernel)) (by decide +kernel) (by decide +kernel) false
    .liveDelivery).mpr (by decide +kernel)

end ParishKit.Lifecycle
