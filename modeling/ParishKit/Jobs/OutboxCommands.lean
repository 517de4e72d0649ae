import Mathlib.Data.Char
import ParishKit.Jobs.OutboxStorage
import ParishKit.Jobs.TaskMove
import ParishKit.Lib.Keyed

/-!
# What a journal command does

A command that succeeds either answers a recorded one and changes nothing, or is
recorded: one new event, one version, and credentials that follow the state.
-/

namespace ParishKit.Jobs

open ParishKit.Lib

variable {Digest : Type}

/-! ## Writing a message -/

/-- Two outboxes that differ at most in their pause holds. -/
structure Outbox.SameJournal (outbox next : Outbox Digest) : Prop where
  messages : next.messages = outbox.messages
  events : next.events = outbox.events
  renders : next.renders = outbox.renders
  tasks : next.tasks = outbox.tasks

theorem pauseHold_sameJournal
    (outbox : Outbox Digest) (campaign : Uuid) (pauseVersion : Int)
    (actor correlation fresh : Uuid) :
    outbox.SameJournal
      (outbox.pauseHold campaign pauseVersion actor correlation fresh).1 := by
  unfold Outbox.pauseHold
  split <;> exact ⟨rfl, rfl, rfl, rfl⟩

/-- A message with the pause hold of `newHold`. -/
def OutboxMessage.held (message : OutboxMessage Digest) (hold : Option Uuid)
    (pauseVersion : Option Int) : OutboxMessage Digest :=
  { message with
    pauseHoldId := hold
    pauseVersion := pauseVersion }

theorem newHold_eq_ok
    {outbox next : Outbox Digest} {previousState : Option DeliveryState}
    {message saved : OutboxMessage Digest} {seen : Findings}
    (accepted : outbox.newHold previousState message seen = .ok (next, saved)) :
    outbox.SameJournal next ∧
      (∃ hold pauseVersion, saved = message.held hold pauseVersion) ∧
      (previousState.isSome = true → message.state.unsent = false →
        saved = message) := by
  have unchanged : outbox = next → message = saved →
      outbox.SameJournal next ∧
      (∃ hold pauseVersion, saved = message.held hold pauseVersion) ∧
      (previousState.isSome = true → message.state.unsent = false →
        saved = message) := by
    rintro rfl rfl
    exact ⟨⟨rfl, rfl, rfl, rfl⟩,
      ⟨message.pauseHoldId, message.pauseVersion, rfl⟩, fun _ _ => rfl⟩
  dsimp only [Outbox.newHold] at accepted
  split at accepted
  · rename_i campaign pauseVersion _ _
    split at accepted
    · rename_i becomes
      split at accepted
      · cases accepted
      · cases accepted
        refine ⟨pauseHold_sameJournal outbox campaign pauseVersion _ _ _,
          ⟨_, _, rfl⟩, fun stored sent => ?_⟩
        obtain ⟨previous, isPrevious⟩ := Option.isSome_iff_exists.mp stored
        have unsent := becomes.2.2.2
        rw [isPrevious, Option.all_some, sent] at unsent
        cases unsent
    · cases accepted
      exact unchanged rfl rfl
  · cases accepted
    exact unchanged rfl rfl

/-- The messages with the row of `saved`'s id replaced. -/
def Outbox.replaced (outbox : Outbox Digest) (saved : OutboxMessage Digest) :
    List (OutboxMessage Digest) :=
  outbox.messages.map fun other => if other.id = saved.id then saved else other

theorem store_eq_ok
    {outbox next : Outbox Digest} {previousState : Option DeliveryState}
    {message : OutboxMessage Digest} {seen : Findings}
    (accepted : outbox.store previousState message seen = .ok next) :
    ∃ saved : OutboxMessage Digest,
      (∃ hold pauseVersion, saved = message.held hold pauseVersion) ∧
      (previousState.isSome = true → message.state.unsent = false →
        saved = message) ∧
      (previousState = none → next.messages = outbox.messages ++ [saved]) ∧
      (previousState.isSome = true → next.messages = outbox.replaced saved) ∧
      next.events = outbox.events ++ [saved.history previousState] ∧
      next.renders = outbox.renders ∧ next.tasks = outbox.tasks := by
  unfold Outbox.store at accepted
  obtain ⟨⟨held, saved⟩, isHeld, rest⟩ := except_bind_eq_ok accepted
  obtain ⟨journal, shape, kept⟩ := newHold_eq_ok isHeld
  rw [except_bind_unit] at rest
  obtain ⟨_, returned⟩ := rest
  cases returned
  refine ⟨saved, shape, kept, ?_, ?_, ?_, journal.renders, journal.tasks⟩
  · rintro rfl
    exact congrArg (· ++ [saved]) journal.messages
  · intro stored
    cases previousState with
    | none => cases stored
    | some previous => simp only [journal.messages, Outbox.replaced]
  · simp only [journal.events]

/-! ## Sealed values -/

/-- Sealed values and the hold follow the state. -/
def OutboxMessage.Sealed (message : OutboxMessage Digest) : Prop :=
  if message.state.terminal = true then
    message.sealedSubstitutions = none ∧ message.sealedKeyId = none ∧
      message.pauseHoldId = none
  else
    (message.sealedSubstitutions.isSome = true ↔
      message.identity.credentialNamespace ≠ .none)

theorem sealedFields_eq_ok
    {identity : DeliveryIdentity}
    {given credentials : Option SealedSubstitutions}
    (accepted : sealedFields identity given = .ok credentials) :
    credentials.isSome = true ↔ identity.credentialNamespace ≠ .none := by
  unfold sealedFields at accepted
  by_cases plain : identity.credentialNamespace = .none
  · rw [if_pos plain] at accepted
    cases given with
    | none =>
        cases accepted
        simp [plain]
    | some credential => cases accepted
  · rw [if_neg plain] at accepted
    cases given with
    | none => cases accepted
    | some credential =>
        dsimp only at accepted
        split at accepted
        · cases accepted
        · cases accepted
          simp [plain]

/-- Fresh credentials for a message that is not over. -/
theorem sealed_withCredentials
    {message : OutboxMessage Digest}
    {given credentials : Option SealedSubstitutions}
    (active : message.state.terminal = false)
    (accepted : sealedFields message.identity given = .ok credentials) :
    (message.withCredentials credentials).Sealed := by
  have follows := sealedFields_eq_ok accepted
  have same : (message.withCredentials credentials).state = message.state :=
    rfl
  unfold OutboxMessage.Sealed
  rw [same, active, if_neg Bool.false_ne_true]
  simpa [OutboxMessage.withCredentials] using follows

theorem terminal_of_unsent {state : DeliveryState} (unsent : state.unsent = true) :
    state.terminal = false := by
  cases state <;> first | rfl | cases unsent

theorem unsent_of_terminal {state : DeliveryState} (ended : state.terminal = true) :
    state.unsent = false := by
  cases state <;> first | rfl | cases ended

/-- Work that keeps its sealed values and is not over. -/
theorem sealed_of_unsent
    {message saved : OutboxMessage Digest}
    (state : saved.state = message.state)
    (identity : saved.identity = message.identity)
    (values : saved.sealedSubstitutions = message.sealedSubstitutions)
    (active : message.state.terminal = false) (follows : message.Sealed) :
    saved.Sealed := by
  unfold OutboxMessage.Sealed at follows ⊢
  rw [active, if_neg Bool.false_ne_true] at follows
  rw [state, active, if_neg Bool.false_ne_true, identity, values]
  exact follows

/-- A hold is taken only by work that is not over. -/
theorem sealed_held
    {message saved : OutboxMessage Digest}
    (shape : ∃ hold pauseVersion, saved = message.held hold pauseVersion)
    (kept : message.state.unsent = false → saved = message)
    (follows : message.Sealed) : saved.Sealed := by
  cases ended : message.state.terminal with
  | true =>
      rw [kept (unsent_of_terminal ended)]
      exact follows
  | false =>
      obtain ⟨hold, pauseVersion, rfl⟩ := shape
      have same : (message.held hold pauseVersion).state = message.state := rfl
      unfold OutboxMessage.Sealed at follows ⊢
      rw [ended, if_neg Bool.false_ne_true] at follows
      rw [same, ended, if_neg Bool.false_ne_true]
      exact follows

theorem deliveryTarget_eq_ok
    {state target : DeliveryState} {action : DeliveryAction} :
    deliveryTarget state action = .ok target ↔
      state ∈ (deliveryTransition action).1 ∧
        (deliveryTransition action).2 = target := by
  unfold deliveryTarget
  split <;> simp_all

/-- Only a failed delivery is reopened. -/
theorem active_source
    {state : DeliveryState} {action : DeliveryAction}
    (source : state ∈ (deliveryTransition action).1)
    (other : action ≠ .retryFailed) : state.terminal = false := by
  cases action <;> cases state <;> first | rfl | simp_all [deliveryTransition]

/-- A final outcome leaves nothing sealed. -/
theorem sealed_scrub
    {message : OutboxMessage Digest} (instant : Int)
    (active : message.state.terminal = false → message.Sealed) :
    (message.scrub instant).Sealed := by
  cases ended : message.state.terminal with
  | true =>
      unfold OutboxMessage.scrub OutboxMessage.Sealed
      simp [ended]
  | false =>
      unfold OutboxMessage.scrub
      rw [ended, if_neg Bool.false_ne_true]
      exact active ended

/-- Two rows of one command, whatever is sealed, rendered or finished. -/
structure OutboxMessage.SameCommand (message saved : OutboxMessage Digest) :
    Prop where
  id : saved.id = message.id
  identity : saved.identity = message.identity
  task : saved.taskId = message.taskId
  version : saved.version = message.version
  attempt : saved.attempt = message.attempt
  commandId : saved.commandId = message.commandId
  action : saved.action = message.action
  actor : saved.actorId = message.actorId
  digest : saved.commandDigest = message.commandDigest
  evidence : saved.evidence = message.evidence

theorem sameCommand_scrub (message : OutboxMessage Digest) (instant : Int) :
    message.SameCommand (message.scrub instant) := by
  unfold OutboxMessage.scrub
  split <;> exact ⟨rfl, rfl, rfl, rfl, rfl, rfl, rfl, rfl, rfl, rfl⟩

/-! ## Commands -/

variable [DecidableEq Digest] [DeliveryDigests Digest]

theorem addRender_eq_ok
    {outbox next : Outbox Digest} {message actor correlation fresh : Uuid}
    {render : RenderInput}
    (accepted :
      outbox.addRender message actor correlation render fresh = .ok next) :
    outbox.render? fresh = none ∧
      next = { outbox with
        renders := outbox.renders ++ [⟨fresh, message, actor, correlation,
          render.fields, DeliveryDigests.payload render.content⟩] } := by
  unfold Outbox.addRender at accepted
  rw [except_bind_unit, refuseWhen_eq_ok] at accepted
  obtain ⟨unused, returned⟩ := accepted
  cases returned
  exact ⟨by simpa using unused, rfl⟩

theorem render?_addRender
    {outbox next : Outbox Digest} {message actor correlation fresh : Uuid}
    {render : RenderInput}
    (accepted :
      outbox.addRender message actor correlation render fresh = .ok next) :
    (∀ id recorded, outbox.render? id = some recorded →
      next.render? id = some recorded) ∧
    ∃ recorded, next.render? fresh = some recorded ∧
      recorded.fields = render.fields ∧
      recorded.payloadDigest = DeliveryDigests.payload render.content := by
  obtain ⟨unused, rfl⟩ := addRender_eq_ok accepted
  refine ⟨fun id recorded found => ?_, ?_⟩
  · unfold Outbox.render? at found ⊢
    rw [List.find?_append, found]
    rfl
  · refine ⟨⟨fresh, message, actor, correlation, render.fields,
      DeliveryDigests.payload render.content⟩, ?_, rfl, rfl⟩
    unfold Outbox.render? at unused ⊢
    rw [List.find?_append, unused]
    simp

/-- The calls on one message, beside its header. -/
inductive JournalCommand where
  | change (options : ChangeOptions)
  | prepare (render : RenderInput) (credential : Option SealedSubstitutions)
  | hold (pauseVersion : Int)
  | release

namespace JournalCommand

def apply (command : JournalCommand) (header : CommandHeader)
    (seen : Findings) (outbox : Outbox Digest) :
    Except DeliveryRefusal (Outbox Digest) :=
  match command with
  | .change options => changeMessage outbox header options seen
  | .prepare render credential =>
      prepareMessage outbox header render credential seen
  | .hold pauseVersion => holdMessage outbox header pauseVersion seen
  | .release => releaseMessageHold outbox header seen

def action : JournalCommand → OutboxAction
  | .change options => .delivery options.action
  | .prepare _ _ => .prepared
  | .hold _ => .hold
  | .release => .releaseHold

/-- What the command's digest fingerprints. -/
def content (command : JournalCommand) (expectedVersion : Int) :
    CommandContent :=
  match command with
  | .change options => options.content expectedVersion
  | .prepare render credential =>
      .prepared expectedVersion render.fields (credential.map (·.identity))
  | .hold pauseVersion => .hold expectedVersion pauseVersion
  | .release => .releaseHold expectedVersion

def submits (command : JournalCommand) : Bool :=
  command.action == .delivery .submit

end JournalCommand

/-- The render of the history row `event` is the given one. -/
def Outbox.Rendered (outbox : Outbox Digest) (event : OutboxEvent Digest)
    (render : RenderInput) : Prop :=
  ∃ recorded, outbox.render? event.renderId = some recorded ∧
    recorded.payloadDigest = DeliveryDigests.payload render.content ∧
    recorded.fields.configurationId = render.configurationId ∧
    recorded.fields.templateId = render.templateId

/-- What a repeat is checked for beside action, actor and digest. -/
def JournalCommand.Fits (command : JournalCommand) (outbox : Outbox Digest)
    (message : OutboxMessage Digest) (event : OutboxEvent Digest) : Prop :=
  match command with
  | .change options =>
      options.validate = .ok () ∧
        options.runBelongs outbox.tasks message = true ∧
        options.renderPurpose message.identity = .ok () ∧
        event.evidence = options.evidence
  | .prepare render _ =>
      validateRenderPurpose message.identity render = .ok () ∧
        outbox.Rendered event render
  | .hold pauseVersion =>
      1 ≤ pauseVersion ∧ holdable message = .ok () ∧
        event.evidence.reason = pauseReason pauseVersion
  | .release => True

/-- `event` is the command's record. -/
structure Answers (outbox : Outbox Digest) (header : CommandHeader)
    (command : JournalCommand) (message : OutboxMessage Digest)
    (event : OutboxEvent Digest) : Prop where
  positive : 1 ≤ header.expectedVersion
  found : outbox.message? header.messageId = some message
  recorded : outbox.event? header.messageId header.commandId = some event
  action : event.action = command.action
  actor : event.actorId = header.actorId
  digest : event.commandDigest =
    DeliveryDigests.command (command.content header.expectedVersion)
  fits : command.Fits outbox message event

/-- What a repeat is checked for is kept by books that grow. -/
theorem JournalCommand.Fits.mono
    {command : JournalCommand} {outbox next : Outbox Digest}
    {message later : OutboxMessage Digest} {event : OutboxEvent Digest}
    (fits : command.Fits outbox message event)
    (identity : later.identity = message.identity)
    (task : later.taskId = message.taskId)
    (tasks : ∀ run ∈ outbox.tasks, ∃ kept ∈ next.tasks,
      kept.id = run.id ∧ kept.rootId = run.rootId)
    (renders : ∀ id render, outbox.render? id = some render →
      next.render? id = some render) :
    command.Fits next later event := by
  cases command with
  | change options =>
      obtain ⟨valid, belongs, purpose, evidence⟩ := fits
      refine ⟨valid, ?_, ?_, evidence⟩
      · unfold ChangeOptions.runBelongs at belongs ⊢
        rw [Bool.or_eq_true] at belongs ⊢
        refine belongs.imp_right fun claimed => ?_
        obtain ⟨run, member, isClaim⟩ := List.any_eq_true.mp claimed
        obtain ⟨kept, keptMember, sameId, sameRoot⟩ := tasks run member
        refine List.any_eq_true.mpr ⟨kept, keptMember, ?_⟩
        rw [sameId, sameRoot, task]
        exact isClaim
      · rw [identity]
        exact purpose
  | prepare render credential =>
      obtain ⟨purpose, recorded, found, same⟩ := fits
      refine ⟨?_, recorded, renders _ _ found, same⟩
      rw [identity]
      exact purpose
  | hold pauseVersion =>
      obtain ⟨positive, canHold, reason⟩ := fits
      refine ⟨positive, ?_, reason⟩
      unfold holdable at canHold ⊢
      rw [identity]
      exact canHold
  | release => trivial

/-- The row a command makes of its message, before and after it is stored. -/
structure Drafted (outbox next : Outbox Digest) (header : CommandHeader)
    (command : JournalCommand) (message draft : OutboxMessage Digest) :
    Prop where
  renders : ∀ id render, outbox.render? id = some render →
    next.render? id = some render
  tasks : next.tasks = outbox.tasks
  id : draft.id = message.id
  identity : draft.identity = message.identity
  task : draft.taskId = message.taskId
  version : draft.version = message.version + 1
  attempt : draft.attempt =
    message.attempt + if command.submits = true then 1 else 0
  commandId : draft.commandId = header.commandId
  action : draft.action = command.action
  actor : draft.actorId = header.actorId
  digest : draft.commandDigest =
    DeliveryDigests.command (command.content header.expectedVersion)
  fits : command.Fits next draft (draft.history (some message.state))
  seals : message.Sealed → draft.Sealed

/-- The command is recorded: `saved` replaces `message` and one event is
added. -/
structure Recorded (outbox next : Outbox Digest) (header : CommandHeader)
    (command : JournalCommand) (message saved : OutboxMessage Digest) :
    Prop where
  positive : 1 ≤ header.expectedVersion
  found : outbox.message? header.messageId = some message
  unused : outbox.event? header.messageId header.commandId = none
  current : (message.version : Int) = header.expectedVersion
  messages : next.messages = outbox.replaced saved
  events : next.events = outbox.events ++ [saved.history (some message.state)]
  draft : Drafted outbox next header command message saved

/-- Storing a draft records its command. -/
theorem Drafted.store
    {outbox prepared next : Outbox Digest} {header : CommandHeader}
    {command : JournalCommand} {message draft : OutboxMessage Digest}
    {seen : Findings}
    (drafted : Drafted outbox prepared header command message draft)
    (sameMessages : prepared.messages = outbox.messages)
    (sameEvents : prepared.events = outbox.events)
    (positive : 1 ≤ header.expectedVersion)
    (found : outbox.message? header.messageId = some message)
    (unused : outbox.event? header.messageId header.commandId = none)
    (current : (message.version : Int) = header.expectedVersion)
    (stored : prepared.store (some message.state) draft seen = .ok next) :
    ∃ saved, Recorded outbox next header command message saved := by
  obtain ⟨saved, shape, kept, _, messages, events, renders, tasks⟩ :=
    store_eq_ok stored
  have seals := sealed_held shape (kept rfl)
  obtain ⟨hold, pauseVersion, rfl⟩ := shape
  have sameRenders : ∀ id, next.render? id = prepared.render? id := by
    intro id
    unfold Outbox.render?
    rw [renders]
  have fits : JournalCommand.Fits _ next (draft.held hold pauseVersion) _ :=
    drafted.fits.mono rfl rfl
      (fun run member => ⟨run, tasks ▸ member, rfl, rfl⟩)
      (fun id render given => (sameRenders id).trans given)
  refine ⟨draft.held hold pauseVersion, positive, found, unused, current,
    ?_, ?_, ?_⟩
  · rw [messages rfl]
    unfold Outbox.replaced
    rw [sameMessages]
  · rw [events, sameEvents]
  · exact
      { renders := fun id render given =>
          (sameRenders id).trans (drafted.renders id render given)
        tasks := tasks.trans drafted.tasks
        id := drafted.id
        identity := drafted.identity
        task := drafted.task
        version := drafted.version
        attempt := drafted.attempt
        commandId := drafted.commandId
        action := drafted.action
        actor := drafted.actor
        digest := drafted.digest
        fits := fits
        seals := fun follows => seals (drafted.seals follows) }

/-! ## Unsent work -/

/-- What a preparation or a hold writes whatever its closure adds. -/
def OutboxMessage.journalled (message : OutboxMessage Digest)
    (header : CommandHeader) (action : OutboxAction)
    (content : CommandContent) : OutboxMessage Digest :=
  { message with
    action := action
    commandId := header.commandId
    commandDigest := DeliveryDigests.command content
    version := message.version + 1
    actorId := header.actorId
    correlationId := header.correlationId
    evidence := DeliveryEvidence.empty }

section Unsent

variable {outbox next : Outbox Digest} {header : CommandHeader}
  {action : OutboxAction} {content : CommandContent} {seen : Findings}
  {replay : OutboxMessage Digest → OutboxEvent Digest →
    Except DeliveryRefusal Unit}
  {prepare : OutboxMessage Digest → OutboxMessage Digest →
    Except DeliveryRefusal (Preparation Digest)}

theorem prepareOrHold_eq_ok
    (accepted : prepareOrHold outbox header action content seen replay prepare =
      .ok next) :
    1 ≤ header.expectedVersion ∧
      ∃ message, outbox.message? header.messageId = some message ∧
        ((∃ previous,
          outbox.event? header.messageId header.commandId = some previous ∧
          previous.action = action ∧ previous.actorId = header.actorId ∧
          previous.commandDigest = DeliveryDigests.command content ∧
          replay message previous = .ok () ∧ next = outbox) ∨
        (outbox.event? header.messageId header.commandId = none ∧
          (message.version : Int) = header.expectedVersion ∧
          message.state.unsent = true ∧
          ∃ prepared draft,
            prepare message (message.journalled header action content) =
              .ok (prepared, draft) ∧
            prepared.store (some message.state) draft seen = .ok next)) := by
  unfold prepareOrHold at accepted
  rw [except_bind_unit, refuseWhen_eq_ok, decide_eq_false_iff_not] at accepted
  obtain ⟨positive, accepted⟩ := accepted
  refine ⟨by omega, ?_⟩
  cases found : outbox.message? header.messageId with
  | none =>
      rw [found] at accepted
      cases accepted
  | some message =>
      refine ⟨message, rfl, ?_⟩
      simp only [found] at accepted
      cases recorded : outbox.event? header.messageId header.commandId with
      | some previous =>
          simp only [recorded, except_bind_unit, refuseWhen_eq_ok,
            Bool.or_eq_false_iff, bne_eq_false_iff_eq] at accepted
          obtain ⟨⟨⟨sameAction, sameActor⟩, sameDigest⟩, _, replayed,
            returned⟩ := accepted
          cases returned
          exact Or.inl ⟨previous, rfl, sameAction, sameActor, sameDigest,
            replayed, rfl⟩
      | none =>
          simp only [recorded, except_bind_unit, refuseWhen_eq_ok,
            decide_eq_false_iff_not, not_not, Bool.not_eq_false'] at accepted
          obtain ⟨current, unsent, _, rest⟩ := accepted
          obtain ⟨⟨prepared, draft⟩, isPrepared, stored⟩ :=
            except_bind_eq_ok rest
          exact Or.inr ⟨rfl, current, unsent, prepared, draft, isPrepared,
            stored⟩

/-- The repeat of a recorded preparation or hold changes nothing. -/
theorem prepareOrHold_replayed
    {message : OutboxMessage Digest} {previous : OutboxEvent Digest}
    (positive : 1 ≤ header.expectedVersion)
    (found : outbox.message? header.messageId = some message)
    (recorded :
      outbox.event? header.messageId header.commandId = some previous)
    (sameAction : previous.action = action)
    (sameActor : previous.actorId = header.actorId)
    (sameDigest : previous.commandDigest = DeliveryDigests.command content)
    (admitted : seen.admitted = true)
    (replayed : replay message previous = .ok ()) :
    prepareOrHold outbox header action content seen replay prepare =
      .ok outbox := by
  have notBelow : ¬ header.expectedVersion < 1 := by omega
  unfold prepareOrHold
  rw [except_bind_unit, refuseWhen_eq_ok, decide_eq_false_iff_not]
  refine ⟨notBelow, ?_⟩
  simp only [found, recorded, except_bind_unit, refuseWhen_eq_ok, admission,
    Bool.or_eq_false_iff, bne_eq_false_iff_eq, admitted, replayed]
  exact ⟨⟨⟨sameAction, sameActor⟩, sameDigest⟩, rfl, trivial, rfl⟩

end Unsent

/-- What each command comes to when it succeeds. -/
def JournalCommand.Settled (command : JournalCommand) (header : CommandHeader)
    (outbox next : Outbox Digest) : Prop :=
  (∃ message event, Answers outbox header command message event ∧
    next = outbox) ∨
  ∃ message saved, Recorded outbox next header command message saved

theorem prepareMessage_settled
    {outbox next : Outbox Digest} {header : CommandHeader}
    {render : RenderInput} {credential : Option SealedSubstitutions}
    {seen : Findings}
    (accepted :
      prepareMessage outbox header render credential seen = .ok next) :
    (JournalCommand.prepare render credential).Settled header outbox next := by
  obtain ⟨positive, message, found, replayed | fresh⟩ :=
    prepareOrHold_eq_ok accepted
  · obtain ⟨previous, recorded, action, actor, digest, same, rfl⟩ := replayed
    rw [except_bind_unit] at same
    obtain ⟨purpose, same⟩ := same
    cases rendered : next.render? previous.renderId with
    | none =>
        rw [rendered] at same
        cases same
    | some kept =>
        simp only [rendered, refuseWhen_eq_ok, Bool.or_eq_false_iff,
          bne_eq_false_iff_eq] at same
        obtain ⟨⟨payload, configuration⟩, template⟩ := same
        exact Or.inl ⟨message, previous, ⟨positive, found, recorded, action,
          actor, digest, purpose, kept, rendered, payload, configuration,
          template⟩, rfl⟩
  · obtain ⟨unused, current, unsent, prepared, draft, isPrepared, stored⟩ :=
      fresh
    rw [except_bind_unit] at isPrepared
    obtain ⟨purpose, isPrepared⟩ := isPrepared
    obtain ⟨credentials, sealed, isPrepared⟩ := except_bind_eq_ok isPrepared
    obtain ⟨rendered, isRendered, returned⟩ := except_bind_eq_ok isPrepared
    cases returned
    obtain ⟨grown, recorded, found', fields, payload⟩ :=
      render?_addRender isRendered
    obtain ⟨_, isGrown⟩ := addRender_eq_ok isRendered
    refine Or.inr ⟨message, Drafted.store ?_ ?_ ?_ positive found
      unused current stored⟩
    · exact
        { renders := grown
          tasks := by rw [isGrown]
          id := rfl
          identity := rfl
          task := rfl
          version := rfl
          attempt := rfl
          commandId := rfl
          action := rfl
          actor := rfl
          digest := rfl
          fits := ⟨purpose, recorded, found', payload,
            congrArg RenderFields.configurationId fields,
            congrArg RenderFields.templateId fields⟩
          seals := fun _ =>
            sealed_withCredentials (terminal_of_unsent unsent) sealed }
    · rw [isGrown]
    · rw [isGrown]

theorem holdMessage_settled
    {outbox next : Outbox Digest} {header : CommandHeader}
    {pauseVersion : Int} {seen : Findings}
    (accepted : holdMessage outbox header pauseVersion seen = .ok next) :
    (JournalCommand.hold pauseVersion).Settled header outbox next := by
  unfold holdMessage at accepted
  rw [except_bind_unit, refuseWhen_eq_ok, decide_eq_false_iff_not] at accepted
  obtain ⟨newPause, accepted⟩ := accepted
  have positivePause : 1 ≤ pauseVersion := by omega
  obtain ⟨positive, message, found, replayed | fresh⟩ :=
    prepareOrHold_eq_ok accepted
  · obtain ⟨previous, recorded, action, actor, digest, same, rfl⟩ := replayed
    rw [except_bind_unit, refuseWhen_eq_ok, bne_eq_false_iff_eq] at same
    obtain ⟨canHold, reason⟩ := same
    exact Or.inl ⟨message, previous, ⟨positive, found, recorded, action, actor,
      digest, positivePause, canHold, reason⟩, rfl⟩
  · obtain ⟨unused, current, unsent, prepared, draft, isPrepared, stored⟩ :=
      fresh
    simp only [except_bind_unit] at isPrepared
    obtain ⟨canHold, _, returned⟩ := isPrepared
    cases returned
    have journal := pauseHold_sameJournal outbox
      (message.identity.campaignId.getD 0) pauseVersion header.actorId
      header.correlationId seen.freshHold
    refine Or.inr ⟨message, Drafted.store ?_ journal.messages
      journal.events positive found unused current stored⟩
    exact
      { renders := by
          intro id render given
          unfold Outbox.render? at given ⊢
          rw [journal.renders]
          exact given
        tasks := journal.tasks
        id := rfl
        identity := rfl
        task := rfl
        version := rfl
        attempt := rfl
        commandId := rfl
        action := rfl
        actor := rfl
        digest := rfl
        fits := ⟨positivePause, canHold, rfl⟩
        seals := sealed_of_unsent rfl rfl rfl (terminal_of_unsent unsent) }

theorem releaseMessageHold_settled
    {outbox next : Outbox Digest} {header : CommandHeader} {seen : Findings}
    (accepted : releaseMessageHold outbox header seen = .ok next) :
    JournalCommand.release.Settled header outbox next := by
  obtain ⟨positive, message, found, replayed | fresh⟩ :=
    prepareOrHold_eq_ok accepted
  · obtain ⟨previous, recorded, action, actor, digest, _, rfl⟩ := replayed
    exact Or.inl ⟨message, previous, ⟨positive, found, recorded, action, actor,
      digest, trivial⟩, rfl⟩
  · obtain ⟨unused, current, unsent, prepared, draft, isPrepared, stored⟩ :=
      fresh
    cases isPrepared
    refine Or.inr ⟨message, Drafted.store ?_ rfl rfl positive found
      unused current stored⟩
    exact
      { renders := fun _ _ given => given
        tasks := rfl
        id := rfl
        identity := rfl
        task := rfl
        version := rfl
        attempt := rfl
        commandId := rfl
        action := rfl
        actor := rfl
        digest := rfl
        fits := trivial
        seals := sealed_of_unsent rfl rfl rfl (terminal_of_unsent unsent) }

/-! ## Changes -/

section Change

variable {outbox next : Outbox Digest} {header : CommandHeader}
  {options : ChangeOptions} {seen : Findings}

theorem changeMessage_eq_ok
    (accepted : changeMessage outbox header options seen = .ok next) :
    1 ≤ header.expectedVersion ∧ options.validate = .ok () ∧
      ∃ message, outbox.message? header.messageId = some message ∧
        options.runBelongs outbox.tasks message = true ∧
        options.renderPurpose message.identity = .ok () ∧
        ((∃ previous,
          outbox.event? header.messageId header.commandId = some previous ∧
          previous.action = .delivery options.action ∧
          previous.actorId = header.actorId ∧
          previous.commandDigest =
            DeliveryDigests.command (options.content header.expectedVersion) ∧
          previous.evidence = options.evidence ∧ next = outbox) ∨
        (outbox.event? header.messageId header.commandId = none ∧
          (message.version : Int) = header.expectedVersion ∧
          ∃ target, deliveryTarget message.state options.action = .ok target ∧
          ∃ prepared saved,
            options.reprepare header seen outbox
              (options.changed header target seen message) =
                .ok (prepared, saved) ∧
            prepared.store (some message.state) (saved.scrub seen.instant)
              seen = .ok next)) := by
  unfold changeMessage at accepted
  simp only [except_bind_unit, refuseWhen_eq_ok,
    decide_eq_false_iff_not] at accepted
  obtain ⟨positive, valid, accepted⟩ := accepted
  refine ⟨by omega, valid, ?_⟩
  cases found : outbox.message? header.messageId with
  | none =>
      rw [found] at accepted
      cases accepted
  | some message =>
      refine ⟨message, rfl, ?_⟩
      simp only [found, except_bind_unit, refuseWhen_eq_ok,
        Bool.not_eq_false'] at accepted
      obtain ⟨belongs, purpose, accepted⟩ := accepted
      refine ⟨belongs, purpose, ?_⟩
      cases recorded : outbox.event? header.messageId header.commandId with
      | some previous =>
          simp only [recorded, except_bind_unit, refuseWhen_eq_ok,
            Bool.or_eq_false_iff, bne_eq_false_iff_eq] at accepted
          obtain ⟨⟨⟨⟨action, actor⟩, digest⟩, evidence⟩, _, returned⟩ :=
            accepted
          cases returned
          exact Or.inl ⟨previous, rfl, action, actor, digest, evidence, rfl⟩
      | none =>
          simp only [recorded, except_bind_unit, refuseWhen_eq_ok,
            decide_eq_false_iff_not, not_not] at accepted
          obtain ⟨current, rest⟩ := accepted
          obtain ⟨target, edge, rest⟩ := except_bind_eq_ok rest
          rw [except_bind_unit] at rest
          obtain ⟨_, rest⟩ := rest
          obtain ⟨⟨prepared, saved⟩, isPrepared, stored⟩ :=
            except_bind_eq_ok rest
          exact Or.inr ⟨rfl, current, target, edge, prepared, saved,
            isPrepared, stored⟩

theorem render_of_retryFailed
    (valid : options.validate = .ok ()) (retry : options.action = .retryFailed) :
    ∃ render, options.render = some render := by
  unfold ChangeOptions.validate at valid
  simp only [retry, except_bind_unit, refuseWhen_eq_ok, reduceCtorEq, or_self,
    if_true, if_false] at valid
  obtain ⟨_, _, _, rendered⟩ := valid
  cases isRender : options.render with
  | none =>
      rw [isRender] at rendered
      cases rendered
  | some render => exact ⟨render, rfl⟩

/-- Only a failed delivery is prepared again, with credentials of its own
namespace. -/
theorem reprepare_eq_ok
    {prepared : Outbox Digest} {changed saved : OutboxMessage Digest}
    (valid : options.validate = .ok ())
    (accepted : options.reprepare header seen outbox changed =
      .ok (prepared, saved)) :
    (∀ id render, outbox.render? id = some render →
      prepared.render? id = some render) ∧
    prepared.messages = outbox.messages ∧ prepared.events = outbox.events ∧
    prepared.tasks = outbox.tasks ∧ changed.SameCommand saved ∧
    saved.state = changed.state ∧
    (options.action = .retryFailed → changed.state.terminal = false →
      saved.Sealed) ∧
    (options.action ≠ .retryFailed → saved = changed) := by
  by_cases retry : options.action = .retryFailed
  · obtain ⟨render, isRender⟩ := render_of_retryFailed valid retry
    unfold ChangeOptions.reprepare at accepted
    rw [retry, isRender] at accepted
    dsimp only at accepted
    obtain ⟨credentials, sealed, rest⟩ := except_bind_eq_ok accepted
    obtain ⟨rendered, isRendered, returned⟩ := except_bind_eq_ok rest
    cases returned
    obtain ⟨grown, _⟩ := render?_addRender isRendered
    obtain ⟨_, isGrown⟩ := addRender_eq_ok isRendered
    refine ⟨grown, ?_, ?_, ?_, ?_, rfl, ?_, fun other => absurd retry other⟩
    · rw [isGrown]
    · rw [isGrown]
    · rw [isGrown]
    · exact ⟨rfl, rfl, rfl, rfl, rfl, rfl, rfl, rfl, rfl, rfl⟩
    · intro _ active
      exact sealed_withCredentials active sealed
  · have kept : options.reprepare header seen outbox changed =
        .ok (outbox, changed) := by
      unfold ChangeOptions.reprepare
      split
      · rename_i isRetry _
        exact absurd isRetry retry
      · rfl
    rw [kept] at accepted
    cases accepted
    exact ⟨fun _ _ given => given, rfl, rfl, rfl,
      ⟨rfl, rfl, rfl, rfl, rfl, rfl, rfl, rfl, rfl, rfl⟩, rfl,
      fun isRetry => absurd isRetry retry, fun _ => rfl⟩

theorem changeMessage_settled
    (accepted : changeMessage outbox header options seen = .ok next) :
    (JournalCommand.change options).Settled header outbox next := by
  obtain ⟨positive, valid, message, found, belongs, purpose,
    replayed | fresh⟩ := changeMessage_eq_ok accepted
  · obtain ⟨previous, recorded, action, actor, digest, evidence, rfl⟩ :=
      replayed
    exact Or.inl ⟨message, previous, ⟨positive, found, recorded, action, actor,
      digest, valid, belongs, purpose, evidence⟩, rfl⟩
  · obtain ⟨unused, current, target, edge, prepared, saved, isPrepared,
      stored⟩ := fresh
    obtain ⟨source, isTarget⟩ := deliveryTarget_eq_ok.mp edge
    obtain ⟨renders, messages, events, tasks, prepares, state, fresh, kept⟩ :=
      reprepare_eq_ok valid isPrepared
    have scrubs := sameCommand_scrub saved seen.instant
    have counted : (options.action == .submit) =
        (JournalCommand.change options).submits := by
      unfold JournalCommand.submits JournalCommand.action
      simp [beq_eq_beq]
    refine Or.inr ⟨message, Drafted.store ?_ messages events positive found
      unused current stored⟩
    exact
      { renders := renders
        tasks := tasks
        id := scrubs.id.trans prepares.id
        identity := scrubs.identity.trans prepares.identity
        task := scrubs.task.trans prepares.task
        version := scrubs.version.trans prepares.version
        attempt := by
          rw [scrubs.attempt, prepares.attempt, ← counted]
          simp [ChangeOptions.changed]
        commandId := scrubs.commandId.trans prepares.commandId
        action := scrubs.action.trans prepares.action
        actor := scrubs.actor.trans prepares.actor
        digest := scrubs.digest.trans prepares.digest
        fits := by
          refine ⟨valid, ?_, ?_, scrubs.evidence.trans prepares.evidence⟩
          · unfold ChangeOptions.runBelongs at belongs ⊢
            rw [tasks, scrubs.task, prepares.task]
            exact belongs
          · rw [scrubs.identity, prepares.identity]
            exact purpose
        seals := by
          intro follows
          refine sealed_scrub seen.instant fun active => ?_
          rw [state] at active
          by_cases retry : options.action = .retryFailed
          · exact fresh retry active
          · rw [kept retry]
            have wasActive := active_source source retry
            unfold OutboxMessage.Sealed at follows ⊢
            rw [wasActive, if_neg Bool.false_ne_true] at follows
            rw [active, if_neg Bool.false_ne_true]
            exact follows }

end Change

/-- A command that succeeds is the repeat of its record, or is recorded. -/
theorem apply_settled
    {command : JournalCommand} {outbox next : Outbox Digest}
    {header : CommandHeader} {seen : Findings}
    (accepted : command.apply header seen outbox = .ok next) :
    command.Settled header outbox next := by
  cases command with
  | change options => exact changeMessage_settled accepted
  | prepare render credential => exact prepareMessage_settled accepted
  | hold pauseVersion => exact holdMessage_settled accepted
  | release => exact releaseMessageHold_settled accepted

/-- The repeat of a recorded command returns and changes nothing. -/
theorem apply_of_answers
    {command : JournalCommand} {outbox : Outbox Digest}
    {header : CommandHeader} {message : OutboxMessage Digest}
    {event : OutboxEvent Digest} {seen : Findings}
    (answers : Answers outbox header command message event)
    (admitted : seen.admitted = true) :
    command.apply header seen outbox = .ok outbox := by
  have positive := answers.positive
  have found := answers.found
  have recorded := answers.recorded
  cases command with
  | change options =>
      obtain ⟨valid, belongs, purpose, evidence⟩ := answers.fits
      have notBelow : ¬ header.expectedVersion < 1 := by omega
      have action : event.action = .delivery options.action := answers.action
      have digest : event.commandDigest = DeliveryDigests.command
        (options.content header.expectedVersion) := answers.digest
      change changeMessage outbox header options seen = .ok outbox
      unfold changeMessage
      simp only [except_bind_unit, refuseWhen_eq_ok, decide_eq_false_iff_not,
        found, recorded, admission, admitted, belongs, valid, purpose, evidence,
        action, digest, answers.actor, bne_self_eq_false, Bool.or_self]
      exact ⟨notBelow, trivial, rfl, trivial, trivial, rfl, rfl⟩
  | prepare render credential =>
      obtain ⟨purpose, kept, rendered, payload, configuration, template⟩ :=
        answers.fits
      change prepareMessage outbox header render credential seen = .ok outbox
      unfold prepareMessage
      refine prepareOrHold_replayed positive found recorded answers.action
        answers.actor answers.digest admitted ?_
      simp only [purpose, except_bind_unit, rendered, refuseWhen_eq_ok, payload,
        configuration, template, bne_self_eq_false, Bool.or_self, and_self]
  | hold pauseVersion =>
      obtain ⟨positivePause, canHold, reason⟩ := answers.fits
      have newPause : ¬ pauseVersion < 1 := by omega
      change holdMessage outbox header pauseVersion seen = .ok outbox
      unfold holdMessage
      rw [except_bind_unit, refuseWhen_eq_ok, decide_eq_false_iff_not]
      refine ⟨newPause, prepareOrHold_replayed positive found recorded
        answers.action answers.actor answers.digest admitted ?_⟩
      simp only [canHold, except_bind_unit, reason, refuseWhen_eq_ok,
        bne_self_eq_false, and_self]
  | release =>
      change releaseMessageHold outbox header seen = .ok outbox
      unfold releaseMessageHold
      exact prepareOrHold_replayed positive found recorded answers.action
        answers.actor answers.digest admitted rfl

/-- What is recorded is the command's record. -/
theorem Recorded.answers
    {command : JournalCommand} {outbox next : Outbox Digest}
    {header : CommandHeader} {message saved : OutboxMessage Digest}
    (recorded : Recorded outbox next header command message saved) :
    Answers next header command saved (saved.history (some message.state)) where
  positive := recorded.positive
  found := by
    have before := recorded.found
    obtain ⟨_, isMessage⟩ := mem_of_find?_key before
    unfold Outbox.message? at before ⊢
    rw [recorded.messages, ← isMessage, ← recorded.draft.id]
    rw [← isMessage, ← recorded.draft.id] at before
    exact find?_replace_self before
  recorded := by
    have before := recorded.unused
    obtain ⟨_, isMessage⟩ := mem_of_find?_key recorded.found
    have sameMessage : saved.id = header.messageId :=
      recorded.draft.id.trans isMessage
    unfold Outbox.event? at before ⊢
    rw [recorded.events, List.find?_append, before]
    simp [OutboxMessage.history, sameMessage, recorded.draft.commandId]
  action := recorded.draft.action
  actor := recorded.draft.actor
  digest := recorded.draft.digest
  fits := recorded.draft.fits

end ParishKit.Jobs
