import ParishKit.Lifecycle.Ledger

/-!
# Lifecycle commands

A command names its campaign, its action, the versions it was decided at and a request
of its own. It is checked against the ledger before it is carried out, so a repeat finds
what the first call recorded.
-/

namespace ParishKit.Lifecycle

open ParishKit.Lib ParishKit.Campaigns
open ParishKit.Jobs (Uuid)

/-- The arguments of `transition_campaign` that a record is compared by. -/
structure TransitionCommand where
  campaignId : Uuid
  requestId : Uuid
  action : Action
  expectedVersion : Nat
  expectedRuntimeVersion : Nat
  actorId : Option Uuid
  tokenGeneration : Option Uuid
  boundaryId : Option Uuid
  taskFence : Option Nat
  reason : Text
deriving DecidableEq

/-- The command that a row records. -/
def CampaignTransition.command (row : CampaignTransition) : TransitionCommand where
  campaignId := row.campaignId
  requestId := row.requestId
  action := row.action
  expectedVersion := row.expectedVersion
  expectedRuntimeVersion := row.expectedRuntimeVersion
  actorId := row.actorId
  tokenGeneration := row.tokenGeneration
  boundaryId := row.boundaryId
  taskFence := row.taskFence
  reason := row.reason

/-- Why a command is not carried out. -/
inductive CommandFailure where
  /-- A version or a fence below one, or a reason that is too long. -/
  | malformed
  | noCampaign
  /-- The owning admission raised. -/
  | notAdmitted
  | differentIntent
  | stale
  | separateWorkflow
  /-- The policy leads nowhere. -/
  | notPermitted
  /-- A trigger refused the row. -/
  | refused
deriving DecidableEq, Repr

/-- What a call brings beside its command: the owner's verdict, the policy's instant, the
insert's instant and findings, and the identifier of a new row. -/
structure Call where
  admits : Bool
  now : Int
  instant : Int
  seen : Findings
  rowId : Uuid

variable {Timezone Content : Type} [TimezoneRules Timezone]

namespace TransitionCommand

def wellFormed (command : TransitionCommand) : Bool :=
  decide (1 ≤ command.expectedVersion) && decide (1 ≤ command.expectedRuntimeVersion) &&
    command.taskFence.all (fun fence => decide (1 ≤ fence)) &&
    decide (command.reason.length ≤ 1024)

/-- The row that `_emit` creates. -/
def row (command : TransitionCommand) (campaign : Campaign Timezone Content)
    (runtime : SystemConfiguration) (target : CampaignState) (configurationId id : Uuid) :
    CampaignTransition where
  id := id
  campaignId := campaign.id
  requestId := command.requestId
  action := command.action
  expectedVersion := campaign.version
  expectedRuntimeVersion := runtime.version
  beforeState := campaign.state
  afterState := target
  beforeMode := runtime.mode
  afterMode := nextMode command.action runtime.mode
  configurationId := configurationId
  priorProjection := none
  tokenGeneration := command.tokenGeneration
  boundaryId := command.boundaryId
  taskFence := command.taskFence
  reason := command.reason
  actorId := command.actorId

/-- `_emit`. -/
def emit (command : TransitionCommand) (database : Database Timezone Content)
    (campaign : Campaign Timezone Content) (call : Call) :
    Except CommandFailure (CampaignTransition × Database Timezone Content) :=
  if command.action ∉ emittedActions then
    .error .separateWorkflow
  else
    match transitionTarget command.action
        (campaignFacts campaign database.runtime call.seen.catchUpPending) call.now none,
        database.runtime.activeConfiguration with
    | none, _ => .error .notPermitted
    | some _, none => .error .refused
    | some target, some configurationId =>
        let row := command.row campaign database.runtime target configurationId call.rowId
        match insertTransition database call.instant call.seen row with
        | none => .error .refused
        | some next => .ok (row, next)

end TransitionCommand

/-- `transition_campaign`: the row of the ledger, and the tables after. -/
def transitionCampaign (database : Database Timezone Content) (command : TransitionCommand)
    (call : Call) : Except CommandFailure (CampaignTransition × Database Timezone Content) :=
  if !command.wellFormed then
    .error .malformed
  else
    match database.campaign? command.campaignId with
    | none => .error .noCampaign
    | some campaign =>
        if !call.admits then
          .error .notAdmitted
        else
          match database.transitions.find? fun row => row.requestId == command.requestId with
          | some existing =>
              if existing.command ≠ command then .error .differentIntent
              else .ok (existing, database)
          | none =>
              if campaign.version ≠ command.expectedVersion ∨
                  database.runtime.version ≠ command.expectedRuntimeVersion then
                .error .stale
              else
                command.emit database campaign call

variable {database next : Database Timezone Content} {command : TransitionCommand}
  {call : Call} {row : CampaignTransition}

/-! ## What a command leaves -/

theorem TransitionCommand.command_row {campaign : Campaign Timezone Content}
    {runtime : SystemConfiguration} {target : CampaignState} {configurationId id : Uuid}
    (named : campaign.id = command.campaignId)
    (version : campaign.version = command.expectedVersion)
    (runtimeVersion : runtime.version = command.expectedRuntimeVersion) :
    (command.row campaign runtime target configurationId id).command = command := by
  simp [CampaignTransition.command, row, named, version, runtimeVersion]

theorem TransitionCommand.emit_eq_ok {campaign : Campaign Timezone Content}
    (emitted : command.emit database campaign call = .ok (row, next)) :
    ∃ target configurationId,
      row = command.row campaign database.runtime target configurationId call.rowId ∧
        insertTransition database call.instant call.seen row = some next := by
  unfold emit at emitted
  split at emitted
  · cases emitted
  split at emitted
  · cases emitted
  · cases emitted
  · rename_i target configurationId _ _
    simp only at emitted
    split at emitted
    · cases emitted
    · rename_i written inserted
      cases emitted
      exact ⟨target, configurationId, rfl, inserted⟩

/-- A command that succeeds is recorded: it either finds its row or writes it. -/
theorem transitionCampaign_eq_ok
    (made : transitionCampaign database command call = .ok (row, next)) :
    command.wellFormed = true ∧ row.command = command ∧
      command.campaignId ∈ database.campaigns.map (·.id) ∧
      ((row ∈ database.transitions ∧ next = database) ∨
        insertTransition database call.instant call.seen row = some next) := by
  unfold transitionCampaign at made
  split at made
  · cases made
  rename_i wellFormed
  have isWellFormed : command.wellFormed = true := by simpa using wellFormed
  split at made
  · cases made
  rename_i campaign isFound
  obtain ⟨member, named⟩ := Database.campaign?_some isFound
  have isKnown : command.campaignId ∈ database.campaigns.map (·.id) :=
    named ▸ List.mem_map_of_mem member
  split at made
  · cases made
  split at made
  · rename_i existing isExisting
    split at made
    · cases made
    · rename_i sameIntent
      cases made
      exact ⟨isWellFormed, by simpa using sameIntent, isKnown,
        Or.inl ⟨List.mem_of_find?_eq_some isExisting, rfl⟩⟩
  · split at made
    · cases made
    rename_i atVersions
    simp only [ne_eq, not_or, not_not] at atVersions
    obtain ⟨target, configurationId, isRow, inserted⟩ := TransitionCommand.emit_eq_ok made
    have sameCommand : row.command = command :=
      isRow ▸ TransitionCommand.command_row named atVersions.1 atVersions.2
    exact ⟨isWellFormed, sameCommand, isKnown, Or.inr inserted⟩

/-! ## What writes keep -/

/-- Later tables: no row of the ledger and no campaign is gone. -/
structure Database.Grows (database next : Database Timezone Content) : Prop where
  transitions : database.transitions ⊆ next.transitions
  campaigns : database.campaigns.map (·.id) ⊆ next.campaigns.map (·.id)

theorem Database.Grows.refl (database : Database Timezone Content) :
    database.Grows database where
  transitions := List.Subset.refl _
  campaigns := List.Subset.refl _

theorem Database.Grows.trans {first second third : Database Timezone Content}
    (left : first.Grows second) (right : second.Grows third) : first.Grows third where
  transitions := List.Subset.trans left.transitions right.transitions
  campaigns := List.Subset.trans left.campaigns right.campaigns

theorem Database.grows_of_put {campaign : Campaign Timezone Content}
    (transitions : next.transitions = database.transitions)
    (campaigns : next.campaigns = (database.put campaign).campaigns) :
    database.Grows next where
  transitions := by
    rw [transitions]
    exact List.Subset.refl _
  campaigns := by
    rw [campaigns, map_id_put]
    exact List.Subset.refl _

theorem Database.grows_of_transition {instant : Int} {seen : Findings}
    (inserted : insertTransition database instant seen row = some next) :
    database.Grows next := by
  obtain ⟨campaign, _, _, rfl⟩ := insertTransition_eq_some.mp inserted
  have ids : (row.effect database campaign).campaigns.map (·.id) =
      database.campaigns.map (·.id) := Database.map_id_put database (row.moved campaign)
  exact
    { transitions := List.subset_append_left _ _
      campaigns := by
        rw [ids]
        exact List.Subset.refl _ }

variable {activation : ConfigurationActivation Timezone Content} {instant latest : Int}
  {seen : Findings}

theorem ConfigurationActivation.grows_selected (pointer : Option Uuid) :
    database.Grows (activation.selected database pointer) where
  transitions := List.Subset.refl _
  campaigns := by
    unfold selected configured
    split
    · exact List.Subset.refl _
    · split
      · exact List.Subset.refl _
      · rw [List.map_append]
        exact List.subset_append_left _ _
      · rw [Database.map_id_put]
        exact List.Subset.refl _

theorem ConfigurationActivation.grows_endEffect
    (effected : activation.endEffect instant seen database = some next) :
    database.Grows next := by
  unfold endEffect at effected
  split at effected
  · split at effected
    · exact Database.grows_of_transition effected
    · cases effected
      exact Database.Grows.refl _
  · cases effected
    exact Database.Grows.refl _

variable [DecidableEq Timezone] [DecidableEq Content]

/-- The tables of the one moment grow into those of the other. -/
def Moment.Grows (source target : Moment Timezone Content) : Prop :=
  source.database.Grows target.database

theorem LifecycleOp.grows {source target : Moment Timezone Content}
    {op : LifecycleOp Timezone Content} (applied : op.apply source = some target) :
    source.Grows target := by
  obtain ⟨written, isWritten, rfl⟩ := Option.map_eq_some_iff.mp applied
  unfold write? at isWritten
  cases isWrite : op.write <;> simp only [isWrite] at isWritten
  case transition => exact Database.grows_of_transition isWritten
  case runtime =>
      rw [(insertRuntimeTransition_eq_some.mp isWritten).2]
      exact ⟨List.Subset.refl _, List.Subset.refl _⟩
  case intent =>
      rw [insertIntent_eq_some isWritten]
      exact ⟨List.Subset.refl _, List.Subset.refl _⟩
  case control =>
      obtain ⟨campaign, _, _, rfl⟩ := insertControl_eq_some isWritten
      exact Database.grows_of_put rfl rfl
  case activation =>
      obtain ⟨pointer, _, effected⟩ := activateConfiguration_eq_some isWritten
      exact (ConfigurationActivation.grows_selected pointer).trans
        (ConfigurationActivation.grows_endEffect effected)

theorem grows_of_run {source target : Moment Timezone Content}
    {ops : List (LifecycleOp Timezone Content)}
    (finished : run LifecycleOp.apply source ops = some target) :
    source.Grows target :=
  run_preserves finished (Database.Grows.refl source.database)
    fun _ _ _ before applied => Database.Grows.trans before (LifecycleOp.grows applied)

theorem kept_of_run {source target : Moment Timezone Content}
    {ops : List (LifecycleOp Timezone Content)} (kept : source.Kept)
    (finished : run LifecycleOp.apply source ops = some target) : target.Kept :=
  run_preserves finished kept LifecycleOp.kept

/-! ## Repeats -/

omit [DecidableEq Timezone] [DecidableEq Content] in
/-- A recorded command is answered from the ledger. -/
theorem transitionCampaign_of_recorded (recorded : database.Recorded)
    (member : row ∈ database.transitions)
    (isKnown : row.campaignId ∈ database.campaigns.map (·.id))
    (wellFormed : row.command.wellFormed = true) (admits : call.admits = true) :
    transitionCampaign database row.command call = .ok (row, database) := by
  have isExisting : database.transitions.find?
      (fun other => other.requestId == row.command.requestId) = some row :=
    find?_key_of_mem recorded.requests member
  obtain ⟨campaign, isFound⟩ : ∃ campaign, database.campaign? row.command.campaignId =
      some campaign := by
    cases isFound : database.campaign? row.command.campaignId with
    | some campaign => exact ⟨campaign, rfl⟩
    | none =>
        obtain ⟨campaign, isMember, named⟩ := List.mem_map.mp isKnown
        have absent := List.find?_eq_none.mp isFound campaign isMember
        exact absurd (beq_iff_eq.mpr named) absent
  unfold transitionCampaign
  simp [wellFormed, isFound, admits, isExisting]

/-- The moment after a command is as sound as the one before. -/
theorem kept_of_command {moment : Moment Timezone Content} (kept : moment.Kept)
    (made : transitionCampaign moment.database command call = .ok (row, next)) :
    Moment.Kept ⟨next, max moment.latest call.instant⟩ ∧ row ∈ next.transitions ∧
      moment.database.Grows next := by
  obtain ⟨_, _, _, ⟨member, rfl⟩ | inserted⟩ := transitionCampaign_eq_ok made
  · exact ⟨⟨Database.Sound.mono kept.1 (le_max_left _ _), kept.2⟩, member,
      Database.Grows.refl _⟩
  · have written : LifecycleOp.apply ⟨call.instant, call.seen, .transition row⟩ moment =
        some ⟨next, max moment.latest call.instant⟩ := by
      simp [LifecycleOp.apply, LifecycleOp.write?, inserted]
    refine ⟨LifecycleOp.kept moment _ _ kept written, ?_,
      Database.grows_of_transition inserted⟩
    obtain ⟨campaign, _, _, rfl⟩ := insertTransition_eq_some.mp inserted
    exact List.mem_append_right _ (List.mem_singleton_self _)

/-- A lifecycle command is carried out once. In every state that any writes lead to after
it succeeded, the same command returns the row it recorded and changes nothing, and
another command of its request is refused. -/
theorem command_carried_out_once {moment later : Moment Timezone Content}
    (reached : Reached moment)
    (made : transitionCampaign moment.database command call = .ok (row, next))
    {ops : List (LifecycleOp Timezone Content)}
    (followed : run LifecycleOp.apply ⟨next, max moment.latest call.instant⟩ ops = some later)
    {repeated : Call} (admits : repeated.admits = true) :
    transitionCampaign later.database command repeated = .ok (row, later.database) ∧
      ∀ other : TransitionCommand, other.requestId = command.requestId → other ≠ command →
        ∀ outcome, transitionCampaign later.database other repeated ≠ .ok outcome := by
  obtain ⟨keptNext, member, grown⟩ := kept_of_command reached.kept made
  obtain ⟨wellFormed, sameCommand, isKnown, _⟩ := transitionCampaign_eq_ok made
  have recorded := (kept_of_run keptNext followed).2
  have grows := grows_of_run followed
  have isRow := grows.transitions member
  have knownLater := grows.campaigns (grown.campaigns isKnown)
  subst sameCommand
  refine ⟨transitionCampaign_of_recorded recorded isRow knownLater wellFormed admits, ?_⟩
  intro other sameRequest differs outcome answered
  obtain ⟨_, isCommand, _, found⟩ := transitionCampaign_eq_ok answered
  have sameId : outcome.1.requestId = row.requestId := by
    rw [← isCommand] at sameRequest
    exact sameRequest
  rcases found with ⟨isFound, _⟩ | inserted
  · have sameRow : outcome.1 = row :=
      List.inj_on_of_nodup_map recorded.requests isFound isRow sameId
    exact differs (isCommand.symm.trans (congrArg CampaignTransition.command sameRow))
  · obtain ⟨_, _, admitted, _⟩ := insertTransition_eq_some.mp inserted
    exact admitted.newRequest (sameId ▸ List.mem_map_of_mem isRow)

/-- The command that activates the campaign of the autumn. -/
def autumnCommand : TransitionCommand where
  campaignId := 7
  requestId := 302
  action := .activate
  expectedVersion := 1
  expectedRuntimeVersion := 2
  actorId := some 1
  tokenGeneration := some 401
  boundaryId := none
  taskFence := none
  reason := []

def autumnCall : Call where
  admits := true
  now := midnight 2
  instant := midnight 2
  seen := allClear
  rowId := 302

/-- Repeated after the campaign has started, the command returns its row. -/
theorem autumn_command_repeated :
    ∃ row next later, transitionCampaign (autumnMoment 1).database autumnCommand autumnCall =
        .ok (row, next) ∧
      run LifecycleOp.apply ⟨next, max (autumnMoment 1).latest (midnight 2)⟩
        [⟨midnight 10, allClear, .transition
          (autumnRow 303 .start 2 .scheduled .active .production none)⟩] = some later ∧
      transitionCampaign later.database autumnCommand autumnCall =
        .ok (row, later.database) := by
  have finishes : ((transitionCampaign (autumnMoment 1).database autumnCommand
      autumnCall).toOption.bind fun outcome =>
        run LifecycleOp.apply ⟨outcome.2, max (autumnMoment 1).latest (midnight 2)⟩
          [⟨midnight 10, allClear, .transition
            (autumnRow 303 .start 2 .scheduled .active .production none)⟩]).isSome = true := by
    decide +kernel
  cases made : transitionCampaign (autumnMoment 1).database autumnCommand autumnCall with
  | error failure =>
      rw [made] at finishes
      cases finishes
  | ok outcome =>
      rw [made] at finishes
      obtain ⟨later, followed⟩ := Option.isSome_iff_exists.mp finishes
      exact ⟨outcome.1, outcome.2, later, rfl, followed,
        (command_carried_out_once (autumn_reached (by decide +kernel)) made followed rfl).1⟩

end ParishKit.Lifecycle
