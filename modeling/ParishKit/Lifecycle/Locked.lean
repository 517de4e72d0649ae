import ParishKit.Lifecycle.Commands

/-!
# What stays fixed

Once a campaign has been active its start and its structural settings are fixed for
good; once it is over, its end and its Ministry selections move only by a recorded
reopening.
-/

namespace ParishKit.Lifecycle

open ParishKit.Lib ParishKit.Campaigns
open ParishKit.Jobs (Uuid)

variable {Timezone Content : Type} [TimezoneRules Timezone]
  [DecidableEq Timezone] [DecidableEq Content]

/-! ## One write -/

/-- What one write makes of a campaign. -/
inductive Campaign.Stepped (target : Database Timezone Content)
    (prior : Campaign Timezone Content) : Campaign Timezone Content → Prop where
  | kept : Stepped target prior prior
  | controlled (change : ControlChange) : Stepped target prior (change.changed prior)
  | moved (row : CampaignTransition) (database : Database Timezone Content) (instant : Int)
      (seen : Findings) (admitted : row.Admitted database prior instant seen)
      (recorded : row ∈ target.transitions) (named : prior.id = row.campaignId) :
      Stepped target prior (row.moved prior)
  | configured (activation : ConfigurationActivation Timezone Content)
      (database : Database Timezone Content) (seen : Findings)
      (proposed : CampaignConfiguration Timezone Content)
      (reconfigures : activation.Reconfigures database prior proposed seen)
      (endsAt : prior.structuralLocked = true → prior.state ∈ [.closed, .archived] →
        proposed.endsAt = prior.configuration.endsAt) :
      Stepped target prior (prior.reconfigured proposed)
  | reopened (activation : ConfigurationActivation Timezone Content)
      (database : Database Timezone Content) (seen : Findings)
      (proposed : CampaignConfiguration Timezone Content)
      (reconfigures : activation.Reconfigures database prior proposed seen)
      (row : CampaignTransition) (recorded : row ∈ target.transitions)
      (named : prior.id = row.campaignId) (isReopen : row.action = .reopen)
      (version : row.expectedVersion = prior.version + 1) (opens : row.afterState = .active) :
      Stepped target prior (row.moved (prior.reconfigured proposed))

variable {source target : Moment Timezone Content}
  {prior later : Campaign Timezone Content}

omit [DecidableEq Timezone] [DecidableEq Content] in
/-- A write of one campaign leaves the others. -/
theorem Database.of_put {database : Database Timezone Content}
    {campaign saved : Campaign Timezone Content}
    (distinct : (database.campaigns.map (·.id)).Nodup)
    (member : campaign ∈ database.campaigns) (same : campaign.id = saved.id)
    (isLater : later ∈ (database.put saved).campaigns)
    (isPrior : prior ∈ database.campaigns) (sameId : later.id = prior.id) :
    (prior = campaign ∧ later = saved) ∨ later = prior := by
  rcases (mem_put_iff member same).mp isLater with isSaved | ⟨isBefore, _⟩
  · left
    refine ⟨?_, isSaved⟩
    apply eq_of_id distinct member isPrior
    rw [← sameId, isSaved, same]
  · exact Or.inr (eq_of_id distinct isPrior isBefore sameId)

theorem LifecycleOp.stepped_of_activation {database next : Database Timezone Content}
    {latest instant : Int} {seen : Findings}
    {activation : ConfigurationActivation Timezone Content}
    (sound : database.Sound latest)
    (activated : activateConfiguration database instant seen activation = some next)
    (isPrior : prior ∈ database.campaigns) (isLater : later ∈ next.campaigns)
    (sameId : later.id = prior.id) : prior.Stepped next later := by
  cases activateConfiguration_cases sound activated with
  | selected unpointed isNext =>
      rw [isNext] at isLater
      rw [Database.eq_of_id sound.distinct isPrior isLater sameId]
      exact .kept
  | reconfigured campaign proposed admitted reconfigures isNext stays =>
      have same : campaign.id = (campaign.reconfigured proposed).id := rfl
      rw [isNext, ConfigurationActivation.selected_campaigns sound.distinct reconfigures]
        at isLater
      rcases Database.of_put sound.distinct reconfigures.member same isLater isPrior sameId with
        ⟨rfl, rfl⟩ | rfl
      · exact .configured activation database seen proposed reconfigures
          fun isLocked isOver =>
            admitted.endsAt sound.distinct reconfigures isLocked isOver stays
      · exact .kept
  | reopened campaign proposed intent reconfigures inserted =>
      obtain ⟨_, isNext, campaigns⟩ := reconfigures.reopens sound.distinct inserted
      let row := activation.reopenRow (activation.selected database (some campaign.id)) intent
        (campaign.reconfigured proposed)
      have same : campaign.id = (row.moved (campaign.reconfigured proposed)).id := rfl
      rw [campaigns] at isLater
      rcases Database.of_put sound.distinct reconfigures.member same isLater isPrior sameId with
        ⟨rfl, rfl⟩ | rfl
      · have recorded : row ∈ next.transitions := by
          rw [isNext]
          exact List.mem_append_right _ (List.mem_singleton_self _)
        exact .reopened activation database seen proposed reconfigures row recorded rfl rfl rfl
          rfl
      · exact .kept
  | created id proposed creates isNext campaigns =>
      rw [campaigns, List.mem_append, List.mem_singleton] at isLater
      rcases isLater with isBefore | rfl
      · rw [Database.eq_of_id sound.distinct isPrior isBefore sameId]
        exact .kept
      · have isNew := ConfigurationActivation.not_mem_of_created creates.isNew
        have isOld : id ∈ database.campaigns.map (·.id) :=
          List.mem_map.mpr ⟨prior, isPrior, sameId.symm⟩
        exact absurd isOld isNew

/-- A campaign after a write is what one of the writes makes of it. -/
theorem LifecycleOp.stepped {op : LifecycleOp Timezone Content} (sound : source.Sound)
    (applied : op.apply source = some target) (isPrior : prior ∈ source.database.campaigns)
    (isLater : later ∈ target.database.campaigns) (sameId : later.id = prior.id) :
    prior.Stepped target.database later := by
  have distinct := Database.Sound.distinct sound
  have isKept : later ∈ source.database.campaigns → prior.Stepped target.database later := by
    intro isBefore
    rw [Database.eq_of_id distinct isPrior isBefore sameId]
    exact .kept
  obtain ⟨written, isWritten, rfl⟩ := Option.map_eq_some_iff.mp applied
  unfold write? at isWritten
  cases isWrite : op.write <;> simp only [isWrite] at isWritten
  case transition row =>
      obtain ⟨campaign, isFound, admitted, rfl⟩ := insertTransition_eq_some.mp isWritten
      obtain ⟨member, named⟩ := Database.campaign?_some isFound
      have same : campaign.id = (row.moved campaign).id := rfl
      rcases Database.of_put distinct member same isLater isPrior sameId with ⟨rfl, rfl⟩ | rfl
      · exact .moved row source.database op.instant op.seen admitted
          (List.mem_append_right _ (List.mem_singleton_self _)) named
      · exact .kept
  case runtime =>
      rw [(insertRuntimeTransition_eq_some.mp isWritten).2] at isLater
      exact isKept isLater
  case intent =>
      rw [insertIntent_eq_some isWritten] at isLater
      exact isKept isLater
  case control change =>
      obtain ⟨campaign, isFound, _, rfl⟩ := insertControl_eq_some isWritten
      obtain ⟨member, _⟩ := Database.campaign?_some isFound
      have same : campaign.id = (change.changed campaign).id := rfl
      rcases Database.of_put distinct member same isLater isPrior sameId with ⟨rfl, rfl⟩ | rfl
      · exact .controlled change
      · exact .kept
  case activation =>
      exact stepped_of_activation sound isWritten isPrior isLater sameId

/-- A campaign that a write adds is the draft of an admitted creation. -/
theorem LifecycleOp.created {op : LifecycleOp Timezone Content}
    (sound : source.Sound) (applied : op.apply source = some target)
    (isLater : later ∈ target.database.campaigns)
    (isNew : later.id ∉ source.database.campaigns.map (·.id)) :
    ∃ (activation : ConfigurationActivation Timezone Content)
      (proposed : CampaignConfiguration Timezone Content),
      activation.Creates source.database op.seen later.id ∧ later = .draft later.id proposed := by
  have distinct := Database.Sound.distinct sound
  have isPut : ∀ saved : Campaign Timezone Content,
      later ∉ (source.database.put saved).campaigns := by
    intro saved isWritten
    apply isNew
    rw [← source.database.map_id_put saved]
    exact List.mem_map_of_mem isWritten
  obtain ⟨written, isWritten, rfl⟩ := Option.map_eq_some_iff.mp applied
  unfold write? at isWritten
  cases isWrite : op.write <;> simp only [isWrite] at isWritten
  case transition row =>
      obtain ⟨campaign, _, _, rfl⟩ := insertTransition_eq_some.mp isWritten
      exact absurd isLater (isPut (row.moved campaign))
  case runtime =>
      rw [(insertRuntimeTransition_eq_some.mp isWritten).2] at isLater
      exact absurd (List.mem_map_of_mem isLater) isNew
  case intent =>
      rw [insertIntent_eq_some isWritten] at isLater
      exact absurd (List.mem_map_of_mem isLater) isNew
  case control change =>
      obtain ⟨campaign, _, _, rfl⟩ := insertControl_eq_some isWritten
      exact absurd isLater (isPut (change.changed campaign))
  case activation activation =>
      cases activateConfiguration_cases sound isWritten with
      | selected unpointed isNext =>
          rw [isNext] at isLater
          exact absurd (List.mem_map_of_mem isLater) isNew
      | reconfigured campaign proposed admitted reconfigures isNext =>
          rw [isNext, ConfigurationActivation.selected_campaigns distinct reconfigures]
            at isLater
          exact absurd isLater (isPut _)
      | reopened campaign proposed intent reconfigures inserted =>
          rw [(reconfigures.reopens distinct inserted).2.2] at isLater
          exact absurd isLater (isPut _)
      | created id proposed creates isNext campaigns =>
          rw [campaigns, List.mem_append, List.mem_singleton] at isLater
          rcases isLater with isBefore | rfl
          · exact absurd (List.mem_map_of_mem isBefore) isNew
          · exact ⟨activation, proposed, creates, rfl⟩

/-! ## What the policy allows -/

/-- A campaign's start, timezone and structural settings change only where the policy
admits a structural edit, and a campaign is created only where it admits a draft. -/
theorem changes_are_allowed {op : LifecycleOp Timezone Content} (reached : Reached source)
    (applied : op.apply source = some target) :
    (∀ prior ∈ source.database.campaigns, ∀ later ∈ target.database.campaigns,
      later.id = prior.id →
        structuralEditAdmitted prior.state prior.everActive prior.structuralLocked = false →
          later.configuration.values.timezone = prior.configuration.values.timezone ∧
          later.configuration.values.startDate = prior.configuration.values.startDate ∧
          later.configuration.values.settings = prior.configuration.values.settings) ∧
    ∀ later ∈ target.database.campaigns,
      later.id ∉ source.database.campaigns.map (·.id) →
        later.state = .draft ∧
        draftCreationAdmitted source.database.runtime.mode
          source.database.runtime.currentCampaign
          (source.database.campaigns.map (·.state)) op.seen.workGate = true := by
  have sound : source.Sound := reached.sound
  constructor
  · intro prior isPrior later isLater same refused
    have isLocked : prior.structuralLocked = true := by
      have staged := Database.Sound.staged sound prior isPrior
      unfold Campaign.Staged at staged
      cases isState : prior.state <;> simp_all [structuralEditAdmitted]
    cases LifecycleOp.stepped sound applied isPrior isLater same with
    | kept => exact ⟨rfl, rfl, rfl⟩
    | controlled change => exact ⟨rfl, rfl, rfl⟩
    | moved row => exact ⟨rfl, rfl, rfl⟩
    | configured activation database seen proposed reconfigures =>
        obtain ⟨timezone, startDate, settings, _⟩ := reconfigures.locked isLocked
        exact ⟨timezone.symm, startDate.symm, settings.symm⟩
    | reopened activation database seen proposed reconfigures =>
        obtain ⟨timezone, startDate, settings, _⟩ := reconfigures.locked isLocked
        exact ⟨timezone.symm, startDate.symm, settings.symm⟩
  · intro later isLater isNew
    obtain ⟨activation, proposed, creates, isDraft⟩ :=
      LifecycleOp.created sound applied isLater isNew
    refine ⟨by rw [isDraft]; rfl, ?_⟩
    simp only [draftCreationAdmitted, creates.testing, creates.unpointed, creates.noGate,
      decide_true, Option.isNone_none, Bool.not_false, Bool.and_self, Bool.true_and,
      List.all_map, List.all_eq_true, Function.comp_apply, decide_eq_true_eq]
    exact creates.finished

/-- The autumn's draft was created where the policy admits one. -/
theorem autumn_draft_allowed :
    draftCreationAdmitted .testing (none : Option Uuid) [] false = true := by
  have created : (autumnOps.head (by decide)).apply (autumnMoment 0) =
      some (autumnMoment 1) := rfl
  exact ((changes_are_allowed (autumn_reached (by decide +kernel)) created).2
    (autumnCampaign 1) (autumn_member (by decide +kernel)) (by decide +kernel)).2

/-! ## A whole run -/

variable {campaign : Campaign Timezone Content}
  {Related : Database Timezone Content → Campaign Timezone Content → Prop}

/-- The campaign is there, and what it has become is related to it. -/
structure Tracked (campaign : Campaign Timezone Content)
    (Related : Database Timezone Content → Campaign Timezone Content → Prop)
    (moment : Moment Timezone Content) : Prop where
  sound : moment.Sound
  isThere : campaign.id ∈ moment.database.campaigns.map (·.id)
  related : ∀ later ∈ moment.database.campaigns, later.id = campaign.id →
    Related moment.database later

/-- What every write keeps of a campaign is kept by every run. -/
theorem Tracked.of_run {ops : List (LifecycleOp Timezone Content)} (sound : source.Sound)
    (member : campaign ∈ source.database.campaigns) (start : Related source.database campaign)
    (step : ∀ before after prior later, Database.Grows before after →
      Related before prior → Campaign.Stepped after prior later → Related after later)
    (finished : run LifecycleOp.apply source ops = some target) :
    Tracked campaign Related target := by
  have initially : Tracked campaign Related source :=
    { sound := sound
      isThere := List.mem_map_of_mem member
      related := by
        intro later isLater same
        rw [Database.eq_of_id (Database.Sound.distinct sound) member isLater same]
        exact start }
  apply run_preserves finished initially
  intro before op after tracked applied
  have grows : before.database.Grows after.database := LifecycleOp.grows applied
  exact
    { sound := LifecycleOp.sound before op after tracked.sound applied
      isThere := grows.campaigns tracked.isThere
      related := by
        intro later isLater same
        obtain ⟨prior, isPrior, isId⟩ := List.mem_map.mp tracked.isThere
        have stepped := LifecycleOp.stepped tracked.sound applied isPrior isLater
          (same.trans isId.symm)
        exact step _ _ prior later grows (tracked.related prior isPrior isId) stepped }

/-! ## Active once -/

/-- What a campaign that has been active keeps for good. -/
structure Campaign.Frozen (campaign later : Campaign Timezone Content) : Prop where
  everActive : later.everActive = true
  locked : later.structuralLocked = true
  timezone : later.configuration.values.timezone = campaign.configuration.values.timezone
  startDate : later.configuration.values.startDate = campaign.configuration.values.startDate
  families : later.configuration.values.families = campaign.configuration.values.families
  settings : later.configuration.values.settings = campaign.configuration.values.settings
  startsAt : later.configuration.startsAt = campaign.configuration.startsAt

omit [DecidableEq Timezone] [DecidableEq Content] in
/-- No transition unlocks a campaign that has been active. -/
theorem Campaign.Frozen.moved {row : CampaignTransition}
    {database : Database Timezone Content} {instant : Int} {seen : Findings}
    (frozen : campaign.Frozen prior)
    (admitted : row.Admitted database prior instant seen) :
    campaign.Frozen (row.moved prior) := by
  have isOther : row.action ≠ .withdraw := by
    intro isWithdraw
    have leads := admitted.leads
    simp only [CampaignTransition.Leads, isWithdraw] at leads
    rw [frozen.everActive] at leads
    cases leads.2.1
  exact
    { frozen with
      everActive := by simp [CampaignTransition.moved, frozen.everActive]
      locked := by simp [CampaignTransition.moved, isOther, frozen.locked] }

theorem Campaign.Frozen.reconfigured {activation : ConfigurationActivation Timezone Content}
    {database : Database Timezone Content} {seen : Findings}
    {proposed : CampaignConfiguration Timezone Content} (frozen : campaign.Frozen prior)
    (reconfigures : activation.Reconfigures database prior proposed seen) :
    campaign.Frozen (prior.reconfigured proposed) := by
  obtain ⟨timezone, startDate, settings, _⟩ := reconfigures.locked frozen.locked
  exact
    { everActive := frozen.everActive
      locked := frozen.locked
      timezone := timezone.symm.trans frozen.timezone
      startDate := startDate.symm.trans frozen.startDate
      families := reconfigures.families.symm.trans frozen.families
      settings := settings.symm.trans frozen.settings
      startsAt := (reconfigures.startsAt frozen.locked).trans frozen.startsAt }

theorem Campaign.Frozen.stepped {after : Database Timezone Content}
    (frozen : campaign.Frozen prior) (stepped : prior.Stepped after later) :
    campaign.Frozen later := by
  cases stepped with
  | kept => exact frozen
  | controlled change => exact { frozen with }
  | moved row database instant seen admitted => exact frozen.moved admitted
  | configured activation database seen proposed reconfigures =>
      exact frozen.reconfigured reconfigures
  | reopened activation database seen proposed reconfigures row _ _ isReopen =>
      have kept := frozen.reconfigured reconfigures
      exact
        { kept with
          everActive := by simp [CampaignTransition.moved, kept.everActive]
          locked := by simp [CampaignTransition.moved, isReopen, kept.locked] }

/-- Once a campaign has been active, no order of writes changes its start, its timezone,
its Families or its other structural settings, or makes it a draft again. -/
theorem active_once_fixed {ops : List (LifecycleOp Timezone Content)}
    (reached : Reached source) (member : campaign ∈ source.database.campaigns)
    (everActive : campaign.everActive = true)
    (finished : run LifecycleOp.apply source ops = some target)
    (isLater : later ∈ target.database.campaigns) (same : later.id = campaign.id) :
    campaign.Frozen later ∧ later.state ∈ [.active, .closed, .archived] := by
  have isStaged : ∀ {moment : Moment Timezone Content} {other : Campaign Timezone Content},
      moment.Sound → other ∈ moment.database.campaigns → other.everActive = true →
        other.structuralLocked = true ∧ other.state ∈ [.active, .closed, .archived] := by
    intro moment other sound isMember isEver
    have staged := Database.Sound.staged sound other isMember
    unfold Campaign.Staged at staged
    cases isState : other.state <;> simp_all
  have start : campaign.Frozen campaign :=
    { everActive := everActive
      locked := (isStaged reached.sound member everActive).1
      timezone := rfl
      startDate := rfl
      families := rfl
      settings := rfl
      startsAt := rfl }
  have tracked : Tracked campaign (fun _ later => campaign.Frozen later) target :=
    Tracked.of_run reached.sound member start
      (fun _ _ _ _ _ frozen stepped => frozen.stepped stepped) finished
  have frozen := tracked.related later isLater same
  exact ⟨frozen, (isStaged tracked.sound isLater frozen.everActive).2⟩

/-- Closing and reopening leave the autumn's start as it was. -/
theorem autumn_start_fixed : (autumnCampaign 3).Frozen (autumnCampaign 6) :=
  (active_once_fixed (autumn_reached (by decide +kernel)) (autumn_member (by decide +kernel))
    (by decide +kernel)
    (autumn_between (show 3 ≤ 6 by decide) (by decide +kernel) (by decide +kernel))
    (autumn_member (by decide +kernel)) (by decide +kernel)).1

/-! ## Over -/

/-- The ledger has a reopening of the campaign from this version on. -/
def Database.ReopenedSince (database : Database Timezone Content)
    (campaign : Campaign Timezone Content) : Prop :=
  ∃ row ∈ database.transitions, row.campaignId = campaign.id ∧ row.action = .reopen ∧
    campaign.version ≤ row.expectedVersion

/-- What a campaign that is over keeps until it is reopened. -/
structure Campaign.Settled (campaign later : Campaign Timezone Content) : Prop where
  id : later.id = campaign.id
  version : campaign.version ≤ later.version
  isOver : later.state ∈ [.closed, .archived]
  locked : later.structuralLocked = true
  endsAt : later.configuration.endsAt = campaign.configuration.endsAt
  ministries : later.configuration.values.ministries =
    campaign.configuration.values.ministries

omit [DecidableEq Timezone] [DecidableEq Content] in
/-- What is over is archived and unarchived, or reopened. -/
theorem Campaign.Settled.moved {row : CampaignTransition}
    {database : Database Timezone Content} {instant : Int} {seen : Findings}
    (settled : campaign.Settled prior)
    (admitted : row.Admitted database prior instant seen) (stays : row.action ≠ .reopen) :
    campaign.Settled (row.moved prior) := by
  have leads := admitted.leads
  have isOver := settled.isOver
  unfold CampaignTransition.Leads at leads
  have ends : row.afterState ∈ [.closed, .archived] ∧ row.action ∈ [.archive, .unarchive] := by
    cases isAction : row.action <;> simp only [isAction] at leads
    case activate => rw [leads.1] at isOver; simp at isOver
    case start => rw [leads.1] at isOver; simp at isOver
    case close => rw [leads.1] at isOver; simp at isOver
    case withdraw => rw [leads.1] at isOver; simp at isOver
    case reopen => exact absurd isAction stays
    case archive => simp [leads.2.2.2.2.1]
    case unarchive => simp [leads.2.2.1]
  have locked : (row.moved prior).structuralLocked = true := by
    have isAction := ends.2
    simp only [List.mem_cons, List.not_mem_nil, or_false] at isAction
    rcases isAction with isAction | isAction <;>
      simp [CampaignTransition.moved, isAction, settled.locked]
  exact
    { settled with
      version := Nat.le_succ_of_le settled.version
      isOver := ends.1
      locked := locked }

theorem Campaign.Settled.stepped {after : Database Timezone Content}
    (settled : campaign.Settled prior) (stepped : prior.Stepped after later)
    (stays : ¬ after.ReopenedSince campaign) : campaign.Settled later := by
  cases stepped with
  | kept => exact settled
  | controlled change =>
      exact { settled with version := Nat.le_succ_of_le settled.version }
  | moved row database instant seen admitted recorded named =>
      apply settled.moved admitted
      intro isReopen
      have stamp := CampaignTransition.stamped_iff.mp admitted.stamped
      exact stays ⟨row, recorded, named.symm.trans settled.id, isReopen,
        settled.version.trans (Nat.le_of_eq stamp.version)⟩
  | configured activation database seen proposed reconfigures endsAt =>
      obtain ⟨_, _, _, ministries⟩ := reconfigures.locked settled.locked
      have notLive : prior.state ∉ [.scheduled, .active] := by
        have isOver := settled.isOver
        intro isLive
        simp only [List.mem_cons, List.not_mem_nil, or_false] at isOver isLive
        rcases isOver with ended | ended <;> rw [ended] at isLive <;> simp at isLive
      exact
        { settled with
          version := Nat.le_succ_of_le settled.version
          endsAt := (endsAt settled.locked settled.isOver).trans settled.endsAt
          ministries := (ministries.resolve_right notLive).symm.trans settled.ministries }
  | reopened activation database seen proposed reconfigures row recorded named isReopen version =>
      refine absurd ⟨row, recorded, named.symm.trans settled.id, isReopen, ?_⟩ stays
      rw [version]
      exact Nat.le_succ_of_le settled.version

/-- A campaign that is over stays over, with its end and its Ministry selections, in every
order of writes, until its ledger has a reopening. -/
theorem over_until_reopened {ops : List (LifecycleOp Timezone Content)}
    (reached : Reached source) (member : campaign ∈ source.database.campaigns)
    (isOver : campaign.state ∈ [.closed, .archived])
    (finished : run LifecycleOp.apply source ops = some target)
    (isLater : later ∈ target.database.campaigns) (same : later.id = campaign.id) :
    target.database.ReopenedSince campaign ∨ campaign.Settled later := by
  have staged := Database.Sound.staged reached.sound campaign member
  have start : ¬ source.database.ReopenedSince campaign → campaign.Settled campaign := by
    intro _
    exact
      { id := rfl
        version := Nat.le_refl _
        isOver := isOver
        locked := by
          rw [staged.locked_iff]
          intro isDraft
          rw [isDraft] at isOver
          simp at isOver
        endsAt := rfl
        ministries := rfl }
  have tracked : Tracked campaign (fun database later =>
      ¬ database.ReopenedSince campaign → campaign.Settled later) target := by
    apply Tracked.of_run reached.sound member start _ finished
    intro before after prior later grows settled stepped stays
    refine (settled ?_).stepped stepped stays
    rintro ⟨row, recorded, reopening⟩
    exact stays ⟨row, grows.transitions recorded, reopening⟩
  by_cases stays : target.database.ReopenedSince campaign
  · exact Or.inl stays
  · exact Or.inr (tracked.related later isLater same stays)

/-- The autumn's end has moved, so its ledger has the reopening. -/
theorem autumn_reopened : (autumnMoment 6).database.ReopenedSince (autumnCampaign 4) := by
  have ended := over_until_reopened (autumn_reached (by decide +kernel))
    (autumn_member (by decide +kernel)) (by decide +kernel)
    (autumn_between (show 4 ≤ 6 by decide) (by decide +kernel) (by decide +kernel))
    (autumn_member (by decide +kernel)) (by decide +kernel)
  apply ended.resolve_right
  intro settled
  exact absurd settled.endsAt (by decide +kernel)

end ParishKit.Lifecycle
