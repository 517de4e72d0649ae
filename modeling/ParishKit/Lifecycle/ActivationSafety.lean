import ParishKit.Lifecycle.Invariant

/-!
# Activations are safe

What an activation passed, what it does to the current campaign, and that it keeps what
holds in every state. With the other writes, so does every run.
-/

namespace ParishKit.Lifecycle

open ParishKit.Lib ParishKit.Campaigns
open ParishKit.Jobs (Uuid)

variable {Timezone Content : Type} [TimezoneRules Timezone]
  {database next : Database Timezone Content} {campaign : Campaign Timezone Content}
  {proposed : CampaignConfiguration Timezone Content} {instant latest later : Int}
  {seen : Findings} {activation : ConfigurationActivation Timezone Content}
  {pointer : Option Uuid}

/-! ## The pointer -/

/-- A successor is created in Testing, when every other campaign is archived or purged. -/
structure ConfigurationActivation.Creates
    (activation : ConfigurationActivation Timezone Content)
    (database : Database Timezone Content) (seen : Findings) (id : Uuid) : Prop where
  isNew : id ∈ activation.created database
  unpointed : database.runtime.currentCampaign = none
  testing : database.runtime.mode = .testing
  notRestoring : database.runtime.restoreReviewRequired = false
  finished : ∀ campaign ∈ database.campaigns, campaign.state ∈ [.archived, .purged]
  noGate : seen.workGate = false

theorem ConfigurationActivation.target_eq_some
    (isTarget : activation.target database seen = some pointer) :
    pointer = database.runtime.currentCampaign ∨
      ∃ id, pointer = some id ∧ activation.Creates database seen id := by
  unfold target at isTarget
  cases unpointed : database.runtime.currentCampaign with
  | some id =>
      simp only [unpointed] at isTarget
      split at isTarget
      · exact Or.inl (Option.some.inj isTarget).symm
      · cases isTarget
  | none =>
      simp only [unpointed] at isTarget
      split at isTarget
      · exact Or.inl (Option.some.inj isTarget).symm
      · rename_i id isCreated
        split at isTarget
        · cases isTarget
        rename_i free
        simp only [ne_eq, not_or, not_not, Bool.not_eq_true, List.any_eq_false,
          decide_eq_true_eq] at free
        obtain ⟨testing, notRestoring, finished, noGate⟩ := free
        have isNew : id ∈ activation.created database := by simp [isCreated]
        exact Or.inr ⟨id, (Option.some.inj isTarget).symm,
          ⟨isNew, unpointed, testing, notRestoring, finished, noGate⟩⟩
      · cases isTarget

theorem ConfigurationActivation.not_mem_of_created {id : Uuid}
    (isNew : id ∈ activation.created database) : id ∉ database.campaigns.map (·.id) :=
  of_decide_eq_true (List.mem_filter.mp isNew).2

theorem Database.campaign?_none {id : Uuid} (isNew : id ∉ database.campaigns.map (·.id)) :
    database.campaign? id = none := by
  rw [campaign?, List.find?_eq_none]
  intro campaign member isId
  exact isNew (List.mem_map.mpr ⟨campaign, member, by simpa using isId⟩)

variable [DecidableEq Timezone] [DecidableEq Content]

/-- What an activation passed before its effects. -/
structure ConfigurationActivation.Admitted
    (activation : ConfigurationActivation Timezone Content)
    (database : Database Timezone Content) (instant : Int) (seen : Findings)
    (pointer : Option Uuid) : Prop where
  ends : activation.endAdmitted database instant seen
  isTarget : activation.target database seen = some pointer
  history : activation.historyKept database pointer
  candidate : ∀ id, pointer = some id → activation.candidateAdmitted database id seen

theorem activateConfiguration_eq_some
    (activated : activateConfiguration database instant seen activation = some next) :
    ∃ pointer, activation.Admitted database instant seen pointer ∧
      activation.endEffect instant seen (activation.selected database pointer) = some next := by
  unfold activateConfiguration at activated
  split at activated
  · cases activated
  rename_i free
  simp only [not_or, Bool.not_eq_true, Bool.not_eq_false'] at free
  cases isTarget : activation.target database seen with
  | none => simp [isTarget] at activated
  | some pointer =>
      simp only [isTarget] at activated
      split at activated
      · cases activated
      rename_i passed
      simp only [not_or, Bool.not_eq_true, Bool.not_eq_false', Option.all_eq_true] at passed
      exact ⟨pointer, ⟨free.2.2.2.2, isTarget, passed.1, passed.2⟩, activated⟩

/-! ## The current campaign -/

/-- The projection of the current campaign, and what holds it. -/
structure ConfigurationActivation.Reconfigures
    (activation : ConfigurationActivation Timezone Content)
    (database : Database Timezone Content) (campaign : Campaign Timezone Content)
    (proposed : CampaignConfiguration Timezone Content) (seen : Findings) : Prop where
  member : campaign ∈ database.campaigns
  current : database.runtime.currentCampaign = some campaign.id
  record : activation.record? campaign.id = some proposed
  families : campaign.configuration.values.families = proposed.values.families
  reviewed : database.runtime.restoreReviewRequired = true →
    campaign.configuration.values = proposed.values
  lock : ConfigurationActivation.lockKept campaign proposed.values seen = true

theorem ConfigurationActivation.Admitted.reconfigures
    (admitted : activation.Admitted database instant seen pointer)
    (distinct : (database.campaigns.map (·.id)).Nodup)
    (member : campaign ∈ database.campaigns)
    (isCurrent : database.runtime.currentCampaign = some campaign.id) :
    pointer = some campaign.id ∧
      ∃ proposed, activation.Reconfigures database campaign proposed seen := by
  have isPointer : pointer = some campaign.id := by
    rcases ConfigurationActivation.target_eq_some admitted.isTarget with same | ⟨_, _, creates⟩
    · exact same.trans isCurrent
    · rw [creates.unpointed] at isCurrent
      cases isCurrent
  have passed := admitted.candidate campaign.id isPointer
  rw [candidateAdmitted, Option.any_eq_true] at passed
  obtain ⟨proposed, record, passed⟩ := passed
  simp only [Database.campaign?_of_mem distinct member, Bool.and_eq_true, decide_eq_true_eq,
    Bool.or_eq_true, Bool.not_eq_true'] at passed
  obtain ⟨⟨families, reviewed⟩, lock⟩ := passed
  refine ⟨isPointer, proposed, member, isCurrent, record, families, ?_, lock⟩
  intro isRestoring
  rcases reviewed with notRestoring | same
  · rw [isRestoring] at notRestoring
    cases notRestoring
  · exact same

/-- The locked parts of a campaign, before and after. -/
theorem ConfigurationActivation.Reconfigures.locked
    (reconfigures : activation.Reconfigures database campaign proposed seen)
    (isLocked : campaign.structuralLocked = true) :
    campaign.configuration.values.timezone = proposed.values.timezone ∧
      campaign.configuration.values.startDate = proposed.values.startDate ∧
      campaign.configuration.values.settings = proposed.values.settings ∧
      (campaign.configuration.values.ministries = proposed.values.ministries ∨
        campaign.state ∈ [.scheduled, .active]) := by
  have lock := reconfigures.lock
  simp only [lockKept, isLocked, Bool.not_true, Bool.false_or, Bool.and_eq_true,
    decide_eq_true_eq, Bool.or_eq_true] at lock
  obtain ⟨⟨⟨timezone, startDate⟩, settings⟩, ministries⟩ := lock
  exact ⟨timezone, startDate, settings, ministries.imp_right And.left⟩

/-- A locked campaign keeps the instant it starts at. -/
theorem ConfigurationActivation.Reconfigures.startsAt
    (reconfigures : activation.Reconfigures database campaign proposed seen)
    (isLocked : campaign.structuralLocked = true) :
    proposed.startsAt = campaign.configuration.startsAt := by
  obtain ⟨timezone, startDate, _⟩ := reconfigures.locked isLocked
  rw [proposed.resolvedStart, campaign.configuration.resolvedStart, timezone, startDate]

/-- The end of a locked campaign moves for its bound intent alone. -/
theorem ConfigurationActivation.Admitted.endIntended
    (admitted : activation.Admitted database instant seen pointer)
    (distinct : (database.campaigns.map (·.id)).Nodup)
    (reconfigures : activation.Reconfigures database campaign proposed seen)
    (isLocked : campaign.structuralLocked = true)
    (moves : proposed.endsAt ≠ campaign.configuration.endsAt) :
    ∃ intent, activation.intent? database = some intent ∧
      activation.endIntended database campaign proposed instant seen intent = true := by
  have ends := admitted.ends
  simp only [endAdmitted, reconfigures.current, reconfigures.record,
    Database.campaign?_of_mem distinct reconfigures.member] at ends
  rw [if_pos ⟨isLocked, moves⟩, Option.any_eq_true] at ends
  exact ends

/-- The end of a campaign that has closed moves only as it reopens. -/
theorem ConfigurationActivation.Admitted.endsAt
    (admitted : activation.Admitted database instant seen pointer)
    (distinct : (database.campaigns.map (·.id)).Nodup)
    (reconfigures : activation.Reconfigures database campaign proposed seen)
    (isLocked : campaign.structuralLocked = true)
    (isOver : campaign.state ∈ [.closed, .archived])
    (stays : ∀ intent, activation.intent? database = some intent →
      intent.action ≠ .reopen) :
    proposed.endsAt = campaign.configuration.endsAt := by
  by_contra moves
  obtain ⟨intent, isIntent, intended⟩ :=
    admitted.endIntended distinct reconfigures isLocked moves
  simp only [ConfigurationActivation.endIntended, Bool.and_eq_true] at intended
  have allowed := intended.1.1.1.2
  cases isAction : intent.action with
  | reopen => exact stays intent isIntent isAction
  | editEnd =>
      simp only [isAction, Bool.and_eq_true, decide_eq_true_eq] at allowed
      have isLive := allowed.1
      simp only [List.mem_cons, List.not_mem_nil, or_false] at isOver isLive
      rcases isOver with ended | ended <;> rw [ended] at isLive <;> simp at isLive

/-! ## Effects -/

theorem ConfigurationActivation.selected_campaigns
    (distinct : (database.campaigns.map (·.id)).Nodup)
    (reconfigures : activation.Reconfigures database campaign proposed seen) :
    (activation.selected database (some campaign.id)).campaigns =
      (database.put (campaign.reconfigured proposed)).campaigns := by
  simp [selected, configured, reconfigures.record,
    Database.campaign?_of_mem distinct reconfigures.member]

theorem ConfigurationActivation.selected_campaign?
    (distinct : (database.campaigns.map (·.id)).Nodup)
    (reconfigures : activation.Reconfigures database campaign proposed seen) :
    (activation.selected database (some campaign.id)).campaign? campaign.id =
      some (campaign.reconfigured proposed) := by
  have isCampaign : database.campaigns.find?
      (fun other => other.id == (campaign.reconfigured proposed).id) = some campaign :=
    Database.campaign?_of_mem distinct reconfigures.member
  rw [Database.campaign?, selected_campaigns distinct reconfigures]
  exact find?_replace_self isCampaign

/-- An activation either selects the configuration alone or reopens the campaign. -/
theorem ConfigurationActivation.endEffect_cases
    (distinct : (database.campaigns.map (·.id)).Nodup)
    (reconfigures : activation.Reconfigures database campaign proposed seen)
    (effected : activation.endEffect instant seen
      (activation.selected database (some campaign.id)) = some next) :
    (next = activation.selected database (some campaign.id) ∧
        ∀ intent, activation.intent? database = some intent → intent.action ≠ .reopen) ∨
      ∃ intent, activation.intent? database = some intent ∧ intent.action = .reopen ∧
        insertTransition (activation.selected database (some campaign.id)) instant seen
          (activation.reopenRow (activation.selected database (some campaign.id)) intent
            (campaign.reconfigured proposed)) = some next := by
  have isFound := selected_campaign? distinct reconfigures
  have sameIntent : activation.intent? (activation.selected database (some campaign.id)) =
      activation.intent? database := rfl
  unfold endEffect at effected
  have isCurrent : (activation.selected database (some campaign.id)).runtime.currentCampaign =
      some campaign.id := rfl
  simp only [isCurrent, Option.bind_some, isFound, sameIntent] at effected
  cases isIntent : activation.intent? database with
  | none =>
      simp only [isIntent] at effected
      exact Or.inl ⟨(Option.some.inj effected).symm, nofun⟩
  | some intent =>
      simp only [isIntent] at effected
      split at effected
      · rename_i isReopen
        exact Or.inr ⟨intent, rfl, isReopen, effected⟩
      · rename_i stays
        refine Or.inl ⟨(Option.some.inj effected).symm, ?_⟩
        intro other isOther
        cases isOther
        exact stays

/-! ## What an activation keeps -/

/-- What an activation of the current campaign keeps. -/
theorem Database.Sound.of_reconfigured (sound : database.Sound latest)
    (admitted : activation.Admitted database instant seen pointer)
    (reconfigures : activation.Reconfigures database campaign proposed seen)
    (stays : ∀ intent, activation.intent? database = some intent → intent.action ≠ .reopen) :
    (activation.selected database (some campaign.id)).Sound (max latest instant) := by
  have staged := sound.staged campaign reconfigures.member
  have inMode := sound.inMode campaign reconfigures.member reconfigures.current
  have le := le_max_left latest instant
  have same : campaign.id = (campaign.reconfigured proposed).id := rfl
  have campaigns := ConfigurationActivation.selected_campaigns sound.distinct reconfigures
  have newlyStaged : (campaign.reconfigured proposed).Staged latest :=
    staged.reconfigured (fun isLocked => reconfigures.startsAt isLocked)
      fun isLocked isOver =>
        admitted.endsAt sound.distinct reconfigures isLocked isOver stays
  exact sound.replaced reconfigures.member same reconfigures.current le
    (newlyStaged.mono le) campaigns rfl inMode
    fun row isRow => Nat.lt_succ_of_lt (sound.behind row isRow)

/-- The reopening is inserted for the campaign with its new projection. -/
theorem ConfigurationActivation.Reconfigures.reopens
    (reconfigures : activation.Reconfigures database campaign proposed seen)
    (distinct : (database.campaigns.map (·.id)).Nodup)
    {intent : ConfigurationIntent Timezone Content}
    (inserted : insertTransition (activation.selected database (some campaign.id)) instant seen
      (activation.reopenRow (activation.selected database (some campaign.id)) intent
        (campaign.reconfigured proposed)) = some next) :
    let selected := activation.selected database (some campaign.id)
    let row := activation.reopenRow selected intent (campaign.reconfigured proposed)
    row.Admitted selected (campaign.reconfigured proposed) instant seen ∧
      next = row.effect selected (campaign.reconfigured proposed) ∧
      next.campaigns =
        (database.put (row.moved (campaign.reconfigured proposed))).campaigns := by
  intro selected row
  obtain ⟨reopened, isFound, reopens, rfl⟩ := insertTransition_eq_some.mp inserted
  have isReopened : reopened = campaign.reconfigured proposed :=
    Option.some.inj (isFound.symm.trans
      (ConfigurationActivation.selected_campaign? distinct reconfigures))
  subst isReopened
  have same : (campaign.reconfigured proposed).id =
      (row.moved (campaign.reconfigured proposed)).id := rfl
  have twice := Database.campaigns_put_congr
    (ConfigurationActivation.selected_campaigns distinct reconfigures)
    (row.moved (campaign.reconfigured proposed))
  exact ⟨reopens, rfl, twice.trans (Database.campaigns_put_put database same)⟩

/-- What an activation that reopens the current campaign keeps. -/
theorem Database.Sound.of_reopened (sound : database.Sound latest)
    (reconfigures : activation.Reconfigures database campaign proposed seen)
    {intent : ConfigurationIntent Timezone Content}
    (inserted : insertTransition (activation.selected database (some campaign.id)) instant seen
      (activation.reopenRow (activation.selected database (some campaign.id)) intent
        (campaign.reconfigured proposed)) = some next) :
    next.Sound (max latest instant) := by
  obtain ⟨reopens, rfl, campaigns⟩ := reconfigures.reopens sound.distinct inserted
  have isLocked : campaign.structuralLocked = true := by
    have isClosed : campaign.state = .closed := reopens.leads.1
    rw [(sound.staged campaign reconfigures.member).locked_iff, isClosed]
    simp
  refine sound.replaced reconfigures.member ?_ reconfigures.current (le_max_left latest instant)
    (reopens.staged_reopen rfl isLocked (le_max_right latest instant)) campaigns rfl ?_ ?_
  · rfl
  · simp [CampaignTransition.effect, Database.applyRuntime, CampaignTransition.runtimeRow,
      CampaignTransition.moved, ConfigurationActivation.reopenRow]
  · intro row isRow
    rcases List.mem_append.mp isRow with before | isReopen
    · have behind := sound.behind row before
      exact Nat.lt_succ_of_lt (Nat.lt_succ_of_lt behind)
    · rw [List.mem_singleton.mp isReopen]
      exact Nat.lt_succ_self _

/-! ## A successor -/

omit [DecidableEq Timezone] [DecidableEq Content] in
theorem Campaign.staged_draft (id : Uuid) :
    (Campaign.draft id proposed).Staged latest :=
  ⟨rfl, rfl, rfl⟩

/-- A draft is not reopened, so an activation that creates one ends there. -/
theorem ConfigurationActivation.Admitted.selected_of_creates {id : Uuid}
    (admitted : activation.Admitted database instant seen (some id))
    (creates : activation.Creates database seen id)
    (effected : activation.endEffect instant seen (activation.selected database (some id)) =
      some next) :
    next = activation.selected database (some id) ∧
      ∃ proposed, next.campaigns = database.campaigns ++ [.draft id proposed] := by
  have isNew := not_mem_of_created creates.isNew
  have passed := admitted.candidate id rfl
  rw [candidateAdmitted, Option.any_eq_true] at passed
  obtain ⟨proposed, record, _⟩ := passed
  have campaigns : (activation.selected database (some id)).campaigns =
      database.campaigns ++ [.draft id proposed] := by
    simp [selected, configured, record, Database.campaign?_none isNew]
  have isFound : (activation.selected database (some id)).campaign? id =
      some (.draft id proposed) := by
    have noEarlier : database.campaigns.find? (fun campaign => campaign.id == id) = none :=
      Database.campaign?_none isNew
    rw [Database.campaign?, campaigns, List.find?_append, noEarlier]
    simp [Campaign.draft]
  have isSelected : next = activation.selected database (some id) := by
    unfold endEffect at effected
    have isCurrent : (activation.selected database (some id)).runtime.currentCampaign =
        some id := rfl
    simp only [isCurrent, Option.bind_some, isFound] at effected
    split at effected
    · rename_i reopened intent isReopened _
      split at effected
      · obtain ⟨campaign, isCampaign, reopens, _⟩ := insertTransition_eq_some.mp effected
        have isClosed : campaign.state = .closed := reopens.leads.1
        have isDraft : campaign = .draft id proposed := by
          have named : reopened.id = id := by
            rw [← Option.some.inj isReopened]
            rfl
          have found : (activation.selected database (some id)).campaign? reopened.id =
              some campaign := isCampaign
          rw [named, isFound] at found
          exact (Option.some.inj found).symm
        rw [isDraft] at isClosed
        cases isClosed
      · exact (Option.some.inj effected).symm
    · exact (Option.some.inj effected).symm
  exact ⟨isSelected, proposed, isSelected ▸ campaigns⟩

omit [DecidableEq Timezone] [DecidableEq Content] in
theorem Database.Sound.of_creates {id : Uuid} (sound : database.Sound latest)
    (creates : activation.Creates database seen id)
    (isSelected : next = activation.selected database (some id))
    (campaigns : next.campaigns = database.campaigns ++ [.draft id proposed]) :
    next.Sound (max latest instant) := by
  have pointer : next.runtime.currentCampaign = some id := by rw [isSelected]; rfl
  have isNew := ConfigurationActivation.not_mem_of_created creates.isNew
  have member : ∀ campaign, campaign ∈ next.campaigns ↔
      campaign ∈ database.campaigns ∨ campaign = .draft id proposed := by
    intro campaign
    rw [campaigns, List.mem_append, List.mem_singleton]
  have archived : ∀ campaign ∈ database.campaigns, campaign.state = .archived := by
    intro campaign isMember
    by_contra isOpen
    have isCurrent := sound.openCurrent campaign isMember isOpen
    rw [creates.unpointed] at isCurrent
    cases isCurrent
  exact
    { distinct := by
        rw [campaigns, List.map_append, List.map_singleton, ← List.concat_eq_append]
        exact sound.distinct.concat isNew
      staged := by
        intro campaign isMember
        rcases (member campaign).mp isMember with before | rfl
        · exact (sound.staged campaign before).mono (le_max_left latest instant)
        · exact Campaign.staged_draft id
      pointed := by
        intro other isOther
        rw [pointer] at isOther
        cases isOther
        exact List.mem_map_of_mem ((member (.draft id proposed)).mpr (Or.inr rfl))
      openCurrent := by
        intro campaign isMember isOpen
        rcases (member campaign).mp isMember with before | rfl
        · exact absurd (archived campaign before) isOpen
        · exact pointer
      inMode := by
        intro campaign isMember isCurrent
        have testing : next.runtime.mode = .testing := by
          rw [isSelected]
          exact creates.testing
        rcases (member campaign).mp isMember with before | rfl
        · rw [pointer] at isCurrent
          exact absurd (Option.some.inj isCurrent ▸ List.mem_map_of_mem before) isNew
        · simp [testing, Campaign.draft]
      unpointed := by
        intro unpointed
        rw [pointer] at unpointed
        cases unpointed
      behind := by
        intro row isRow
        rw [isSelected] at isRow ⊢
        exact Nat.lt_succ_of_lt (sound.behind row isRow) }

omit [DecidableEq Timezone] [DecidableEq Content] in
/-- Without a campaign to name, an activation selects its configuration alone. -/
theorem Database.Sound.selected_none (sound : database.Sound latest)
    (unpointed : database.runtime.currentCampaign = none) :
    (activation.selected database none).Sound latest where
  distinct := sound.distinct
  staged := sound.staged
  pointed _ isCurrent := absurd isCurrent.symm (Option.some_ne_none _)
  openCurrent campaign member isOpen := by
    have isCurrent := sound.openCurrent campaign member isOpen
    rw [unpointed] at isCurrent
    cases isCurrent
  inMode _ _ isCurrent := absurd isCurrent.symm (Option.some_ne_none _)
  unpointed := fun _ => sound.unpointed unpointed
  behind := fun row isRow => Nat.lt_succ_of_lt (sound.behind row isRow)

omit [DecidableEq Timezone] [DecidableEq Content] in
theorem Database.Sound.mono (sound : database.Sound latest) (le : latest ≤ later) :
    database.Sound later :=
  { sound with staged := fun campaign member => (sound.staged campaign member).mono le }

omit [DecidableEq Timezone] [DecidableEq Content] in
theorem ConfigurationActivation.endEffect_none :
    activation.endEffect instant seen (activation.selected database none) =
      some (activation.selected database none) :=
  rfl

/-! ## Every activation -/

/-- What an activation does: it selects the configuration alone, gives the current campaign
its new projection, reopens it as well, or creates a successor. -/
inductive ConfigurationActivation.Activated
    (activation : ConfigurationActivation Timezone Content)
    (database : Database Timezone Content) (instant : Int) (seen : Findings)
    (next : Database Timezone Content) : Prop where
  | selected (unpointed : database.runtime.currentCampaign = none)
      (isNext : next = activation.selected database none)
  | reconfigured (campaign : Campaign Timezone Content)
      (proposed : CampaignConfiguration Timezone Content)
      (admitted : activation.Admitted database instant seen (some campaign.id))
      (reconfigures : activation.Reconfigures database campaign proposed seen)
      (isNext : next = activation.selected database (some campaign.id))
      (stays : ∀ intent, activation.intent? database = some intent → intent.action ≠ .reopen)
  | reopened (campaign : Campaign Timezone Content)
      (proposed : CampaignConfiguration Timezone Content)
      (intent : ConfigurationIntent Timezone Content)
      (reconfigures : activation.Reconfigures database campaign proposed seen)
      (inserted : insertTransition (activation.selected database (some campaign.id)) instant
        seen (activation.reopenRow (activation.selected database (some campaign.id)) intent
          (campaign.reconfigured proposed)) = some next)
  | created (id : Uuid) (proposed : CampaignConfiguration Timezone Content)
      (creates : activation.Creates database seen id)
      (isNext : next = activation.selected database (some id))
      (campaigns : next.campaigns = database.campaigns ++ [.draft id proposed])

theorem activateConfiguration_cases (sound : database.Sound latest)
    (activated : activateConfiguration database instant seen activation = some next) :
    activation.Activated database instant seen next := by
  obtain ⟨pointer, admitted, effected⟩ := activateConfiguration_eq_some activated
  cases isCurrent : database.runtime.currentCampaign with
  | some id =>
      obtain ⟨campaign, member, named⟩ := List.mem_map.mp (sound.pointed id isCurrent)
      rw [← named] at isCurrent
      obtain ⟨rfl, proposed, reconfigures⟩ :=
        admitted.reconfigures sound.distinct member isCurrent
      rcases ConfigurationActivation.endEffect_cases sound.distinct reconfigures effected with
        ⟨isNext, stays⟩ | ⟨intent, _, _, inserted⟩
      · exact .reconfigured campaign proposed admitted reconfigures isNext stays
      · exact .reopened campaign proposed intent reconfigures inserted
  | none =>
      rcases ConfigurationActivation.target_eq_some admitted.isTarget with
        same | ⟨id, rfl, creates⟩
      · rw [isCurrent] at same
        rw [same, ConfigurationActivation.endEffect_none] at effected
        exact .selected isCurrent (Option.some.inj effected).symm
      · obtain ⟨isNext, proposed, campaigns⟩ := admitted.selected_of_creates creates effected
        exact .created id proposed creates isNext campaigns

theorem Database.Sound.of_activation (sound : database.Sound latest)
    (activated : activateConfiguration database instant seen activation = some next) :
    next.Sound (max latest instant) := by
  cases activateConfiguration_cases sound activated with
  | selected unpointed isNext =>
      rw [isNext]
      exact (sound.selected_none unpointed).mono (le_max_left latest instant)
  | reconfigured campaign proposed admitted reconfigures isNext stays =>
      rw [isNext]
      exact sound.of_reconfigured admitted reconfigures stays
  | reopened campaign proposed intent reconfigures inserted =>
      exact sound.of_reopened reconfigures inserted
  | created id proposed creates isNext campaigns =>
      exact sound.of_creates creates isNext campaigns

/-! ## Every run -/

omit [DecidableEq Timezone] [DecidableEq Content] in
theorem Database.sound_initial :
    (Database.initial : Database Timezone Content).Sound latest where
  distinct := List.nodup_nil
  staged _ member := absurd member List.not_mem_nil
  pointed _ isCurrent := absurd isCurrent.symm (Option.some_ne_none _)
  openCurrent _ member := absurd member List.not_mem_nil
  inMode _ member := absurd member List.not_mem_nil
  unpointed _ := rfl
  behind _ member := absurd member List.not_mem_nil

/-- What holds at every moment. -/
def Moment.Sound (moment : Moment Timezone Content) : Prop :=
  moment.database.Sound moment.latest

theorem LifecycleOp.sound (source : Moment Timezone Content)
    (op : LifecycleOp Timezone Content) (target : Moment Timezone Content)
    (sound : source.Sound) (applied : op.apply source = some target) : target.Sound := by
  obtain ⟨written, isWritten, rfl⟩ := Option.map_eq_some_iff.mp applied
  unfold write? at isWritten
  cases isWrite : op.write <;> simp only [isWrite] at isWritten
  case transition => exact Database.Sound.of_transition sound isWritten
  case runtime => exact Database.Sound.of_runtime sound isWritten
  case intent =>
      rw [insertIntent_eq_some isWritten]
      exact { Database.Sound.mono sound (le_max_left source.latest op.instant) with }
  case control => exact Database.Sound.of_control sound isWritten
  case activation => exact Database.Sound.of_activation sound isWritten

theorem Reached.sound {moment : Moment Timezone Content} (reached : Reached moment) :
    moment.Sound := by
  obtain ⟨start, ops, finished⟩ := reached
  exact run_preserves finished Database.sound_initial LifecycleOp.sound

end ParishKit.Lifecycle
