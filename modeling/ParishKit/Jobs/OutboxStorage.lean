import ParishKit.Jobs.OutboxMessage

/-!
# The delivery journal

The calls of `outbox_storage`, each one transaction. `Findings` is what a call
meets outside the journal: the owning service's verdict, the clock, the
identifiers it draws and what the triggers of other owners make of its write.
-/

namespace ParishKit.Jobs

/-- `paused` is the pause version of the message's campaign while its delivery
is paused and the message is not released; `guarded` says that no trigger or
constraint refuses the write. -/
structure Findings where
  admitted : Bool
  instant : Int
  freshMessage : Uuid
  freshTask : Uuid
  freshRender : Uuid
  freshHold : Uuid
  paused : Option Int
  guarded : Bool

variable {Digest : Type} [DecidableEq Digest] [DeliveryDigests Digest]

/-! ## Credentials -/

/-- `_sealed_fields`: no credential-bearing delivery falls back across
namespaces. -/
def sealedFields (identity : DeliveryIdentity)
    (given : Option SealedSubstitutions) :
    Except DeliveryRefusal (Option SealedSubstitutions) :=
  if identity.credentialNamespace = .none then
    match given with
    | none => .ok none
    | some _ => .error (.valueError "Unexpected delivery credentials.")
  else
    match given with
    | none => .error (.valueError "Sealed delivery credentials are required.")
    | some credential =>
        let production := identity.credentialNamespace == .production
        if credential.tokenGenerationId.isSome != production ||
            credential.credentialEpochId.isSome != production then
          .error (.valueError "Delivery credential namespace does not match.")
        else
          .ok (some credential)

def OutboxMessage.withCredentials (message : OutboxMessage Digest)
    (credentials : Option SealedSubstitutions) : OutboxMessage Digest :=
  { message with
    sealedSubstitutions := credentials.map (·.envelope)
    sealedKeyId := credentials.map (·.keyId)
    tokenGenerationId := credentials.bind (·.tokenGenerationId)
    credentialEpochId := credentials.bind (·.credentialEpochId) }

/-! ## Writing -/

namespace Outbox

def message? (outbox : Outbox Digest) (id : Uuid) :
    Option (OutboxMessage Digest) :=
  outbox.messages.find? fun message => message.id == id

/-- The recorded command of a message. -/
def event? (outbox : Outbox Digest) (message command : Uuid) :
    Option (OutboxEvent Digest) :=
  outbox.events.find? fun event =>
    event.messageId == message && event.commandId == command

def render? (outbox : Outbox Digest) (id : Uuid) :
    Option (OutboxRender Digest) :=
  outbox.renders.find? fun render => render.id == id

end Outbox

/-- `stewardship_outbox_history_v1`: the history row of a stored message. -/
def OutboxMessage.history (message : OutboxMessage Digest)
    (previousState : Option DeliveryState) : OutboxEvent Digest where
  messageId := message.id
  version := message.version
  actorId := message.actorId
  correlationId := message.correlationId
  commandId := message.commandId
  commandDigest := message.commandDigest
  action := message.action
  evidence := message.evidence
  previousState := previousState
  state := message.state
  attempt := message.attempt
  renderId := message.renderId
  runId := message.runId
  taskFence := message.taskFence
  workerId := message.workerId
  notBefore := message.notBefore
  submittedAt := message.submittedAt
  providerDeadline := message.providerDeadline
  finishedAt := message.finishedAt

/-- The hold of one campaign pause, made on its first use. -/
def Outbox.pauseHold (outbox : Outbox Digest) (campaign : Uuid)
    (pauseVersion : Int) (actor correlation : Uuid) (fresh : Uuid) :
    Outbox Digest × Uuid :=
  match outbox.holds.find? fun hold =>
      hold.campaignId == campaign && hold.pauseVersion == pauseVersion with
  | some hold => (outbox, hold.id)
  | none =>
      ({ outbox with
          holds := outbox.holds ++
            [⟨fresh, campaign, pauseVersion, actor, correlation⟩] }, fresh)

/-- The purposes whose new unsent work a pause holds. -/
def DeliveryPurpose.held : DeliveryPurpose → Bool
  | .initial => true
  | .reminder => true
  | .receipt => true
  | .dailyDigest => true
  | .weeklyDigest => true
  | .adminReport => true
  | _ => false

/-- `stewardship_delivery_new_hold_v1`: Production work that becomes unsent
during a pause takes the pause's hold. -/
def Outbox.newHold (outbox : Outbox Digest)
    (previousState : Option DeliveryState) (message : OutboxMessage Digest)
    (seen : Findings) :
    Except DeliveryRefusal (Outbox Digest × OutboxMessage Digest) :=
  let identity := message.identity
  let becomesUnsent := previousState.all fun previous =>
    message.state.unsent && message.state != previous
  match identity.campaignId, seen.paused with
  | some campaign, some pauseVersion =>
      if identity.mode = .production ∧ identity.routing = .production ∧
          identity.purpose.held = true ∧ becomesUnsent = true then
        let (outbox, hold) := outbox.pauseHold campaign pauseVersion
          message.actorId message.correlationId seen.freshHold
        if message.pauseHoldId.isSome ∧
            (message.pauseHoldId ≠ some hold ∨
              message.pauseVersion ≠ some pauseVersion) then
          .error .database
        else
          .ok (outbox, { message with
            pauseHoldId := some hold
            pauseVersion := some pauseVersion })
      else
        .ok (outbox, message)
  | _, _ => .ok (outbox, message)

/-- Stores a message with its history, when no guard refuses it. -/
def Outbox.store (outbox : Outbox Digest)
    (previousState : Option DeliveryState) (message : OutboxMessage Digest)
    (seen : Findings) : Except DeliveryRefusal (Outbox Digest) := do
  let (outbox, message) ← outbox.newHold previousState message seen
  refuseWhen (!seen.guarded) .database
  let messages :=
    match previousState with
    | none => outbox.messages ++ [message]
    | some _ => outbox.messages.map fun other =>
        if other.id = message.id then message else other
  return { outbox with
    messages := messages
    events := outbox.events ++ [message.history previousState] }

/-- A new immutable render. The primary key refuses a drawn identifier that is
taken. -/
def Outbox.addRender (outbox : Outbox Digest) (message : Uuid)
    (actor correlation : Uuid) (render : RenderInput) (fresh : Uuid) :
    Except DeliveryRefusal (Outbox Digest) := do
  refuseWhen (outbox.render? fresh).isSome .database
  return { outbox with
    renders := outbox.renders ++ [⟨fresh, message, actor, correlation,
      render.fields, DeliveryDigests.payload render.content⟩] }

def admission (admitted : Bool) : Except DeliveryRefusal Unit :=
  refuseWhen (!admitted) (.permission "Delivery operation is not admitted.")

/-! ## Creation -/

structure CreateCall where
  identity : DeliveryIdentity
  render : RenderInput
  actorId : Uuid
  correlationId : Uuid
  commandId : Uuid
  credential : Option SealedSubstitutions
  notBefore : Option Int

def CreateCall.content (call : CreateCall) : CommandContent :=
  .created call.identity call.render.fields
    (call.credential.map (·.identity))

/-- The message one semantic identity already has. -/
def Outbox.semantic? (outbox : Outbox Digest) (identity : DeliveryIdentity) :
    Option (OutboxMessage Digest) :=
  outbox.messages.find? fun message =>
    message.identity.scopeId == identity.scopeId &&
      message.identity.mode == identity.mode &&
      message.identity.semanticKey == identity.semanticKey

/-- The repeat of a creation, judged against the first event and its render. -/
def createReplay (outbox : Outbox Digest) (existing : OutboxMessage Digest)
    (call : CreateCall) (seen : Findings) :
    Except DeliveryRefusal (Outbox Digest) :=
  match outbox.events.find? fun event =>
      event.messageId == existing.id && event.version == 1 with
  | none => .error .doesNotExist
  | some first =>
      match outbox.render? first.renderId with
      | none => .error .doesNotExist
      | some render => do
          refuseWhen (existing.identity != call.identity ||
            first.actorId != call.actorId ||
            render.payloadDigest != DeliveryDigests.payload call.render.content ||
            render.fields.configurationId != call.render.configurationId ||
            render.fields.templateId != call.render.templateId ||
            first.commandDigest != DeliveryDigests.command call.content)
            (.valueError "Delivery semantic identity is already bound.")
          admission seen.admitted
          return outbox

/-- The root task of a new message. -/
def CreateCall.task (call : CreateCall) (seen : Findings) : EnqueueCall where
  identifier := seen.freshTask
  taskType := "outbox_delivery"
  domainRequestId := some seen.freshMessage
  actorId := some call.actorId
  correlationId := call.correlationId
  idempotencyKey := some seen.freshMessage
  notBefore := call.notBefore
  admitted := seen.admitted
  instant := seen.instant

def CreateCall.message (call : CreateCall) (seen : Findings) (task : Uuid)
    (credentials : Option SealedSubstitutions) : OutboxMessage Digest :=
  OutboxMessage.withCredentials
    { id := seen.freshMessage
      version := 1
      actorId := call.actorId
      correlationId := call.correlationId
      commandId := call.commandId
      commandDigest := DeliveryDigests.command call.content
      action := .created
      evidence := DeliveryEvidence.empty
      identity := call.identity
      taskId := task
      renderId := seen.freshRender
      tokenGenerationId := none
      credentialEpochId := none
      sealedSubstitutions := none
      sealedKeyId := none
      state := .pending
      attempt := 0
      notBefore := seen.instant
      runId := none
      taskFence := none
      workerId := none
      submittedAt := none
      providerDeadline := none
      finishedAt := none
      pauseHoldId := none
      pauseVersion := none } credentials

/-- `create_message`: one message, its root task, first render and history. -/
def createMessage (outbox : Outbox Digest) (call : CreateCall)
    (seen : Findings) : Except DeliveryRefusal (Outbox Digest) := do
  call.identity.check
  validateRenderPurpose call.identity call.render
  let credentials ← sealedFields call.identity call.credential
  match outbox.semantic? call.identity with
  | some existing => createReplay outbox existing call seen
  | none => do
      admission seen.admitted
      refuseWhen (outbox.message? seen.freshMessage).isSome .database
      let enqueued := call.task seen
      let tasks ← (enqueue outbox.tasks enqueued).mapError .task
      let task := ((enqueued.existing outbox.tasks).map (·.id)).getD
        seen.freshTask
      let outbox ← { outbox with tasks := tasks }.store none
        (call.message seen task credentials) seen
      outbox.addRender seen.freshMessage call.actorId call.correlationId
        call.render seen.freshRender

/-! ## Commands -/

/-- What every command of a message gives. -/
structure CommandHeader where
  messageId : Uuid
  commandId : Uuid
  expectedVersion : Int
  actorId : Uuid
  correlationId : Uuid

/-- The options of `change_message`. `workOrder` says that the caller holds the
work order. -/
structure ChangeOptions where
  action : DeliveryAction
  evidence : DeliveryEvidence
  runId : Option Uuid
  taskFence : Option Int
  providerSeconds : Option Int
  retrySeconds : Option Int
  render : Option RenderInput
  credential : Option SealedSubstitutions
  workOrder : Bool

def within (value : Option Int) (maximum : Int) : Bool :=
  value.any fun duration => decide (1 ≤ duration) && decide (duration ≤ maximum)

/-- `_validate_options`: options that an action does not use are refused. -/
def ChangeOptions.validate (options : ChangeOptions) :
    Except DeliveryRefusal Unit := do
  if options.action = .submit then
    refuseWhen (options.runId == none)
      (.typeError "Delivery identifiers must be UUIDs.")
    refuseWhen (!(options.taskFence.any fun fence => decide (1 ≤ fence)) ||
      !within options.providerSeconds 300)
      (.valueError "Invalid delivery attempt bounds.")
  else
    refuseWhen (options.runId != none || options.taskFence != none ||
      options.providerSeconds != none)
      (.valueError "Unexpected delivery attempt options.")
  if options.action = .retryUnaccepted ∨ options.action = .retryIdempotent then
    refuseWhen (!within options.retrySeconds 86400)
      (.valueError "Invalid delivery retry bounds.")
  else
    refuseWhen (options.retrySeconds != none)
      (.valueError "Unexpected delivery retry schedule.")
  if options.action = .retryFailed then
    refuseWhen (!options.workOrder)
      (.invariant "The work order is not held.")
    refuseWhen (options.render.isNone)
      (.invariant "Failed delivery retry requires a fresh render.")
  else
    refuseWhen (options.render.isSome || options.credential.isSome)
      (.valueError "Unexpected delivery preparation.")

def ChangeOptions.content (options : ChangeOptions) (expectedVersion : Int) :
    CommandContent :=
  .change options.action expectedVersion options.evidence options.runId
    options.taskFence options.providerSeconds options.retrySeconds
    (options.render.map (·.fields)) (options.credential.map (·.identity))

/-- The row `change_message` saves, before a failed delivery's new preparation
and a final outcome's scrub. -/
def ChangeOptions.changed (options : ChangeOptions) (header : CommandHeader)
    (target : DeliveryState) (seen : Findings)
    (message : OutboxMessage Digest) : OutboxMessage Digest :=
  { message with
    state := target
    action := .delivery options.action
    commandId := header.commandId
    commandDigest :=
      DeliveryDigests.command (options.content header.expectedVersion)
    actorId := header.actorId
    correlationId := header.correlationId
    version := message.version + 1
    evidence := options.evidence
    attempt := message.attempt + (if options.action = .submit then 1 else 0)
    runId := if options.action = .submit then options.runId else message.runId
    taskFence :=
      if options.action = .submit then options.taskFence else message.taskFence
    workerId :=
      if options.action = .submit then some header.actorId else message.workerId
    submittedAt :=
      if options.action = .submit then some seen.instant
      else message.submittedAt
    providerDeadline :=
      if options.action = .submit then
        some (seen.instant + seconds (options.providerSeconds.getD 0))
      else message.providerDeadline
    notBefore :=
      match options.retrySeconds with
      | none => message.notBefore
      | some wait => seen.instant + seconds wait }

/-- `RETRY_FAILED` reopens with a fresh render and its credentials. -/
def ChangeOptions.reprepare (options : ChangeOptions) (header : CommandHeader)
    (seen : Findings) (outbox : Outbox Digest)
    (message : OutboxMessage Digest) :
    Except DeliveryRefusal (Outbox Digest × OutboxMessage Digest) :=
  match options.action, options.render with
  | .retryFailed, some render => do
      let credentials ← sealedFields message.identity options.credential
      let outbox ← outbox.addRender header.messageId header.actorId
        header.correlationId render seen.freshRender
      return (outbox, { message.withCredentials credentials with
        finishedAt := none
        renderId := seen.freshRender })
  | _, _ => .ok (outbox, message)

/-- A final outcome destroys the sealed values and drops the hold. -/
def OutboxMessage.scrub (message : OutboxMessage Digest) (instant : Int) :
    OutboxMessage Digest :=
  if message.state.terminal then
    { message with
      finishedAt := some instant
      sealedSubstitutions := none
      sealedKeyId := none
      pauseHoldId := none }
  else
    message

/-- The claim a submission names is a run of the message's own task. -/
def ChangeOptions.runBelongs (options : ChangeOptions) (tasks : TaskTable)
    (message : OutboxMessage Digest) : Bool :=
  options.action != .submit || tasks.any fun run =>
    some run.id == options.runId && run.rootId == message.taskId

/-- A fresh render has to suit the message's purpose. -/
def ChangeOptions.renderPurpose (options : ChangeOptions)
    (identity : DeliveryIdentity) : Except DeliveryRefusal Unit :=
  match options.render with
  | none => .ok ()
  | some render => validateRenderPurpose identity render

/-- `change_message`. -/
def changeMessage (outbox : Outbox Digest) (header : CommandHeader)
    (options : ChangeOptions) (seen : Findings) :
    Except DeliveryRefusal (Outbox Digest) := do
  refuseWhen (decide (header.expectedVersion < 1))
    (.valueError "Invalid delivery version.")
  options.validate
  match outbox.message? header.messageId with
  | none => .error .doesNotExist
  | some message => do
      refuseWhen (!options.runBelongs outbox.tasks message)
        (.invariant "Delivery claim does not belong to this message.")
      options.renderPurpose message.identity
      match outbox.event? header.messageId header.commandId with
      | some previous => do
          refuseWhen (previous.action != .delivery options.action ||
            previous.actorId != header.actorId ||
            previous.commandDigest !=
              DeliveryDigests.command (options.content header.expectedVersion) ||
            previous.evidence != options.evidence)
            (.valueError "Delivery command is already bound.")
          admission seen.admitted
          return outbox
      | none => do
          refuseWhen (decide ((message.version : Int) ≠ header.expectedVersion))
            (.staleRecord "Delivery version changed.")
          let target ← deliveryTarget message.state options.action
          admission seen.admitted
          let (outbox, saved) ← options.reprepare header seen outbox
            (options.changed header target seen message)
          outbox.store (some message.state) (saved.scrub seen.instant) seen

/-! ## Preparing and holding -/

/-- What a preparation adds to the tables and changes of the message. -/
abbrev Preparation (Digest : Type) :=
  Outbox Digest × OutboxMessage Digest

/-- `_prepare_or_hold`: ordered locking and replay shared by the operations on
unsent work. `replay` and `prepare` are the two uses of the caller's closure. -/
def prepareOrHold (outbox : Outbox Digest) (header : CommandHeader)
    (action : OutboxAction) (content : CommandContent) (seen : Findings)
    (replay : OutboxMessage Digest → OutboxEvent Digest →
      Except DeliveryRefusal Unit)
    (prepare : OutboxMessage Digest → OutboxMessage Digest →
      Except DeliveryRefusal (Preparation Digest)) :
    Except DeliveryRefusal (Outbox Digest) := do
  refuseWhen (decide (header.expectedVersion < 1))
    (.valueError "Invalid delivery version.")
  match outbox.message? header.messageId with
  | none => .error .doesNotExist
  | some message =>
      match outbox.event? header.messageId header.commandId with
      | some previous => do
          refuseWhen (previous.action != action ||
            previous.actorId != header.actorId ||
            previous.commandDigest != DeliveryDigests.command content)
            (.valueError "Delivery command is already bound.")
          admission seen.admitted
          replay message previous
          return outbox
      | none => do
          refuseWhen (decide ((message.version : Int) ≠ header.expectedVersion))
            (.staleRecord "Delivery version changed.")
          refuseWhen (!message.state.unsent)
            (.invariant "Only unsent delivery can be prepared or held.")
          admission seen.admitted
          let (outbox, saved) ← prepare message { message with
            action := action
            commandId := header.commandId
            commandDigest := DeliveryDigests.command content
            version := message.version + 1
            actorId := header.actorId
            correlationId := header.correlationId
            evidence := DeliveryEvidence.empty }
          outbox.store (some message.state) saved seen

/-- `prepare_message`: a fresh immutable render for unsent work. -/
def prepareMessage (outbox : Outbox Digest) (header : CommandHeader)
    (render : RenderInput) (credential : Option SealedSubstitutions)
    (seen : Findings) : Except DeliveryRefusal (Outbox Digest) :=
  prepareOrHold outbox header .prepared
    (.prepared header.expectedVersion render.fields
      (credential.map (·.identity))) seen
    (fun message previous => do
      validateRenderPurpose message.identity render
      match outbox.render? previous.renderId with
      | none => .error .doesNotExist
      | some recorded =>
          refuseWhen (recorded.payloadDigest !=
              DeliveryDigests.payload render.content ||
            recorded.fields.configurationId != render.configurationId ||
            recorded.fields.templateId != render.templateId)
            (.valueError "Delivery command is already bound."))
    (fun message saved => do
      validateRenderPurpose message.identity render
      let credentials ← sealedFields message.identity credential
      let outbox ← outbox.addRender header.messageId header.actorId
        header.correlationId render seen.freshRender
      return (outbox, { saved.withCredentials credentials with
        renderId := seen.freshRender }))

/-- The reason that binds a hold to its pause. -/
def pauseReason (pauseVersion : Int) : String :=
  "pause_" ++ toString pauseVersion

def holdable (message : OutboxMessage Digest) : Except DeliveryRefusal Unit :=
  refuseWhen (message.identity.routing != .production ||
    message.identity.campaignId == none)
    (.valueError "Only Production campaign mail can be held.")

/-- `hold_message`: attaches one campaign pause version. -/
def holdMessage (outbox : Outbox Digest) (header : CommandHeader)
    (pauseVersion : Int) (seen : Findings) :
    Except DeliveryRefusal (Outbox Digest) := do
  refuseWhen (decide (pauseVersion < 1))
    (.valueError "Invalid delivery pause version.")
  prepareOrHold outbox header .hold
    (.hold header.expectedVersion pauseVersion) seen
    (fun message previous => do
      holdable message
      refuseWhen (previous.evidence.reason != pauseReason pauseVersion)
        (.valueError "Delivery command is already bound."))
    (fun message saved => do
      holdable message
      refuseWhen (message.pauseVersion.any fun held =>
          decide (pauseVersion ≤ held))
        (.staleRecord "Delivery pause version is not newer.")
      let (outbox, hold) := outbox.pauseHold
        (message.identity.campaignId.getD 0) pauseVersion header.actorId
        header.correlationId seen.freshHold
      return (outbox, { saved with
        pauseHoldId := some hold
        pauseVersion := some pauseVersion
        evidence := { DeliveryEvidence.empty with
          reason := pauseReason pauseVersion } }))

/-- `release_message_hold`. -/
def releaseMessageHold (outbox : Outbox Digest) (header : CommandHeader)
    (seen : Findings) : Except DeliveryRefusal (Outbox Digest) :=
  prepareOrHold outbox header .releaseHold
    (.releaseHold header.expectedVersion) seen
    (fun _ _ => .ok ())
    (fun _ saved => .ok (outbox, { saved with pauseHoldId := none }))

end ParishKit.Jobs
