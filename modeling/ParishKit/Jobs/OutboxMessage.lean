import ParishKit.Jobs.TaskRun

/-!
# Outbox messages

The closed delivery vocabulary, the typed inputs of the delivery journal and its
rows. Instants are microseconds of the database's clock.
-/

namespace ParishKit.Jobs

inductive DeliveryState where
  | pending
  | submitting
  | retryWait
  | unknown
  | delivered
  | failed
  | cancelled
deriving DecidableEq, Repr

inductive DeliveryAction where
  | submit
  | accept
  | retryUnaccepted
  | failUnaccepted
  | markUnknown
  | cancelUnsent
  | retryFailed
  | authorizeResend
  | retryIdempotent
deriving DecidableEq, Repr

/-- `TERMINAL_DELIVERY_STATES`. -/
def DeliveryState.terminal : DeliveryState → Bool
  | .delivered => true
  | .failed => true
  | .cancelled => true
  | _ => false

/-- The states only unsent work has. -/
def DeliveryState.unsent : DeliveryState → Bool
  | .pending => true
  | .retryWait => true
  | _ => false

/-- `_TRANSITIONS`: the sources of an action and its target. -/
def deliveryTransition : DeliveryAction → List DeliveryState × DeliveryState
  | .submit => ([.pending, .retryWait], .submitting)
  | .accept => ([.submitting, .unknown], .delivered)
  | .retryUnaccepted => ([.submitting, .unknown], .retryWait)
  | .failUnaccepted => ([.submitting, .unknown], .failed)
  | .markUnknown => ([.submitting], .unknown)
  | .cancelUnsent => ([.pending, .retryWait], .cancelled)
  | .retryFailed => ([.failed], .pending)
  | .authorizeResend => ([.unknown], .pending)
  | .retryIdempotent => ([.submitting, .unknown], .retryWait)

/-- Why a call of the journal changes nothing. -/
inductive DeliveryRefusal where
  | typeError (text : String)
  | valueError (text : String)
  | staleRecord (text : String)
  | invariant (text : String)
  | permission (text : String)
  | task (refusal : TaskRefusal)
  | doesNotExist
  | database
deriving DecidableEq, Repr

def deliveryTarget (state : DeliveryState) (action : DeliveryAction) :
    Except DeliveryRefusal DeliveryState :=
  if state ∈ (deliveryTransition action).1 then
    .ok (deliveryTransition action).2
  else
    .error (.valueError "Delivery transition is not permitted.")

/-! ## Typed inputs -/

inductive DeliveryMode where
  | testing
  | production
deriving DecidableEq, Repr

inductive DeliveryRouting where
  | testingOverride
  | production
  | operational
deriving DecidableEq, Repr

inductive DeliveryPurpose where
  | initial
  | reminder
  | receipt
  | familyTest
  | dailyDigest
  | weeklyDigest
  | operational
  | securityEvent
  | leaderEmail
  | adminReport
  | adminReportTest
deriving DecidableEq, Repr

inductive CredentialNamespace where
  | none
  | production
  | rehearsal
deriving DecidableEq, Repr

structure DeliveryIdentity where
  scopeId : Uuid
  semanticKey : Uuid
  mode : DeliveryMode
  routing : DeliveryRouting
  purpose : DeliveryPurpose
  campaignId : Option Uuid
  familyId : Option Uuid
  credentialNamespace : CredentialNamespace
  rehearsalEpochId : Option Uuid
deriving DecidableEq, Repr

def DeliveryPurpose.ofFamily : DeliveryPurpose → Bool
  | .initial => true
  | .reminder => true
  | .receipt => true
  | .familyTest => true
  | _ => false

def DeliveryMode.campaignRouting : DeliveryMode → DeliveryRouting
  | .testing => .testingOverride
  | .production => .production

namespace DeliveryIdentity

def routingValid (identity : DeliveryIdentity) : Bool :=
  match identity.purpose with
  | .operational => identity.routing == .operational
  | .securityEvent => identity.routing == .operational
  | .leaderEmail =>
      identity.campaignId == none &&
        identity.routing == identity.mode.campaignRouting
  | _ =>
      identity.campaignId == some identity.scopeId &&
        identity.routing == identity.mode.campaignRouting

def namespaceValid (identity : DeliveryIdentity) : Bool :=
  match identity.credentialNamespace with
  | .none => identity.rehearsalEpochId == none
  | .production =>
      identity.purpose.ofFamily && identity.mode == .production &&
        identity.rehearsalEpochId == none
  | .rehearsal =>
      identity.purpose.ofFamily && identity.mode == .testing &&
        identity.rehearsalEpochId != none

/-- `DeliveryIdentity.__post_init__`. -/
def check (identity : DeliveryIdentity) : Except DeliveryRefusal Unit := do
  refuseWhen (identity.familyId.isSome != identity.purpose.ofFamily)
    (.valueError "Invalid delivery Family binding.")
  refuseWhen (identity.purpose == .familyTest &&
      (identity.mode != .testing ||
        identity.credentialNamespace != .rehearsal))
    (.valueError "Invalid delivery identity.")
  refuseWhen (!identity.routingValid)
    (.valueError "Invalid delivery routing.")
  refuseWhen (!identity.namespaceValid)
    (.valueError "Invalid delivery credential namespace.")

end DeliveryIdentity

/-- Presealed values. The envelope's header names its key. -/
structure SealedSubstitutions where
  envelope : String
  keyId : String
  tokenGenerationId : Option Uuid
  credentialEpochId : Option Uuid
deriving DecidableEq, Repr

/-- What a command keeps of its credential: neither ciphertext nor key. -/
structure CredentialIdentity where
  tokenGenerationId : Option Uuid
  credentialEpochId : Option Uuid
deriving DecidableEq, Repr

def SealedSubstitutions.identity (given : SealedSubstitutions) :
    CredentialIdentity :=
  ⟨given.tokenGenerationId, given.credentialEpochId⟩

structure RenderContent where
  sender : String
  replyTo : String
  intendedRecipients : List String
  routedRecipients : List String
  subject : String
  html : String
  text : String
deriving DecidableEq, Repr

/-- The class of a render: `RenderInput`, `WeeklyRenderInput` or
`ReportRenderInput`. -/
inductive RenderKind where
  | ordinary
  | weekly
  | report
deriving DecidableEq, Repr

structure RenderInput where
  kind : RenderKind
  configurationId : Uuid
  templateId : Option Uuid
  content : RenderContent
deriving DecidableEq, Repr

/-- What a command keeps of its render. The payload digest follows from the
content. -/
structure RenderFields where
  configurationId : Uuid
  templateId : Option Uuid
  content : RenderContent
deriving DecidableEq, Repr

def RenderInput.fields (render : RenderInput) : RenderFields :=
  ⟨render.configurationId, render.templateId, render.content⟩

def validateRenderPurpose (identity : DeliveryIdentity) (render : RenderInput) :
    Except DeliveryRefusal Unit :=
  match render.kind with
  | .ordinary => .ok ()
  | .weekly =>
      refuseWhen (identity.purpose != .weeklyDigest)
        (.valueError "Weekly rendering requires weekly delivery identity.")
  | .report =>
      refuseWhen (identity.purpose != .adminReport &&
        identity.purpose != .adminReportTest)
        (.valueError "Report rendering requires report delivery identity.")

structure DeliveryEvidence where
  providerKeyDigest : String
  providerMessageDigest : String
  evidenceDigest : String
  evidenceNote : String
  reason : String
deriving DecidableEq, Repr

def DeliveryEvidence.empty : DeliveryEvidence :=
  ⟨"", "", "", "", ""⟩

/-- The actions of the journal. -/
inductive OutboxAction where
  | created
  | prepared
  | hold
  | releaseHold
  | delivery (action : DeliveryAction)
deriving DecidableEq, Repr

/-- The values `_command_digest` fingerprints, by the call that gives them. -/
inductive CommandContent where
  | created (identity : DeliveryIdentity) (render : RenderFields)
      (credential : Option CredentialIdentity)
  | change (action : DeliveryAction) (expectedVersion : Int)
      (evidence : DeliveryEvidence) (runId : Option Uuid)
      (taskFence providerSeconds retrySeconds : Option Int)
      (render : Option RenderFields) (credential : Option CredentialIdentity)
  | prepared (expectedVersion : Int) (render : RenderFields)
      (credential : Option CredentialIdentity)
  | hold (expectedVersion pauseVersion : Int)
  | releaseHold (expectedVersion : Int)
deriving DecidableEq, Repr

/-- SHA-256 over the canonical JSON of a payload and of a command. -/
class DeliveryDigests (Digest : Type) [DecidableEq Digest] where
  payload : RenderContent → Digest
  command : CommandContent → Digest

/-! ## Rows -/

structure OutboxMessage (Digest : Type) where
  id : Uuid
  version : Nat
  actorId : Uuid
  correlationId : Uuid
  commandId : Uuid
  commandDigest : Digest
  action : OutboxAction
  evidence : DeliveryEvidence
  identity : DeliveryIdentity
  taskId : Uuid
  renderId : Uuid
  tokenGenerationId : Option Uuid
  credentialEpochId : Option Uuid
  sealedSubstitutions : Option String
  sealedKeyId : Option String
  state : DeliveryState
  attempt : Nat
  notBefore : Int
  runId : Option Uuid
  taskFence : Option Int
  workerId : Option Uuid
  submittedAt : Option Int
  providerDeadline : Option Int
  finishedAt : Option Int
  pauseHoldId : Option Uuid
  pauseVersion : Option Int

/-- One immutable history row: the message's command without its sealed
values. -/
structure OutboxEvent (Digest : Type) where
  messageId : Uuid
  version : Nat
  actorId : Uuid
  correlationId : Uuid
  commandId : Uuid
  commandDigest : Digest
  action : OutboxAction
  evidence : DeliveryEvidence
  previousState : Option DeliveryState
  state : DeliveryState
  attempt : Nat
  renderId : Uuid
  runId : Option Uuid
  taskFence : Option Int
  workerId : Option Uuid
  notBefore : Int
  submittedAt : Option Int
  providerDeadline : Option Int
  finishedAt : Option Int

structure OutboxRender (Digest : Type) where
  id : Uuid
  messageId : Uuid
  actorId : Uuid
  correlationId : Uuid
  fields : RenderFields
  payloadDigest : Digest

structure DeliveryPauseHold where
  id : Uuid
  campaignId : Uuid
  pauseVersion : Int
  actorId : Uuid
  correlationId : Uuid

structure Outbox (Digest : Type) where
  messages : List (OutboxMessage Digest)
  events : List (OutboxEvent Digest)
  renders : List (OutboxRender Digest)
  holds : List DeliveryPauseHold
  tasks : TaskTable

def Outbox.empty {Digest : Type} : Outbox Digest :=
  ⟨[], [], [], [], []⟩

end ParishKit.Jobs
