import Mathlib.Algebra.Order.Ring.Int
import Mathlib.Data.List.Dedup
import Mathlib.Data.List.Sort
import ParishKit.Jobs.TaskChains

/-!
# Address follow-ups

A delivered email's follow-up to the addresses refused only for now: its row,
the outcome of one submission and the steps of the worker that runs it. A step
that raises ends its execution and changes nothing.
-/

namespace ParishKit.Jobs

/-! ## Provider outcomes -/

inductive FamilyDeliveryStatus where
  | accepted
  | transient
  | unavailable
  | permanent
  | unknown
  | systemic
deriving DecidableEq, Repr

inductive ProviderHealth where
  | healthy
  | unobserved
  | unavailable
  | systemic
deriving DecidableEq, Repr

inductive SendingLimit where
  | daily
  | rate
  | message
deriving DecidableEq, Repr

/-- Refusals index the envelope that was sent, each index once and in order. -/
structure FamilyDeliveryResult where
  status : FamilyDeliveryStatus
  recipientCount : Nat
  permanent : List Nat
  transient : List Nat
  health : ProviderHealth
  limit : Option SendingLimit
  permanentSorted : permanent.Pairwise (· < ·)
  transientSorted : transient.Pairwise (· < ·)
  permanentInside : ∀ index ∈ permanent, index < recipientCount
  transientInside : ∀ index ∈ transient, index < recipientCount
  disjoint : ∀ index ∈ permanent, index ∉ transient

/-- `spared`: a sending limit or an outage, not the address's fault. -/
def spared (result : FamilyDeliveryResult) : Bool :=
  (result.status == .transient || result.status == .unavailable) &&
    (result.limit.isSome || result.health == .unavailable)

def limitRetrySeconds : SendingLimit → Int
  | .daily => 3600
  | .rate => 900
  | .message => 900

/-- `RECIPIENT_RETRY_SECONDS`. -/
def recipientRetrySeconds : List Int :=
  [900, 3600, 14400, 43200]

def retryDelay (attempt : Nat) : Int :=
  min 600 (30 * 2 ^ (attempt - 1))

/-- `retry_seconds`, after `counted` attempts that count. -/
def retrySeconds (result : FamilyDeliveryResult) (counted : Int) : Int :=
  match result.limit with
  | some limit => limitRetrySeconds limit
  | none =>
      let attempts := (max counted 1).toNat
      if result.health = .unavailable then
        retryDelay attempts
      else
        let step := min (attempts + 1) recipientRetrySeconds.length
        recipientRetrySeconds.getD (step - 1) 0

/-! ## Rows -/

inductive AddressRetryState where
  | waiting
  | submitting
  | finished
  | unknown
  | failed
  | cancelled
deriving DecidableEq, Repr

/-- The follow-up has not ended. -/
def AddressRetryState.active : AddressRetryState → Bool
  | .waiting => true
  | .submitting => true
  | _ => false

structure StoredOutcome where
  status : FamilyDeliveryStatus
  permanent : List Nat
  transient : List Nat
deriving DecidableEq, Repr

/-- Positions index the original rendering's routed recipients, kept here in
`routedRecipients`. -/
structure AddressRetry where
  id : Uuid
  createdAt : Int
  version : Nat
  actorId : Uuid
  correlationId : Uuid
  taskId : Uuid
  routedRecipients : List String
  positions : List Nat
  remaining : List Nat
  refused : List Nat
  outcome : Option StoredOutcome
  state : AddressRetryState
  attempt : Nat
  spared : Nat
  notBefore : Int
  expiresAt : Int
  runId : Option Uuid
  taskFence : Option Nat
  workerId : Option Uuid
  submittedAt : Option Int
  providerDeadline : Option Int
  finishedAt : Option Int
  reason : String
  sealedSubstitutions : Option String
  sealedKeyId : Option String
  tokenGenerationId : Uuid
  credentialEpochId : Uuid

/-- `_change`: one move of the row. An ended row's sealed reference is
scrubbed. -/
def AddressRetry.change (values : AddressRetry) (actor correlation : Uuid)
    (instant : Int) : AddressRetry :=
  { values with
    version := values.version + 1
    actorId := actor
    correlationId := correlation
    sealedSubstitutions :=
      if values.state.active then values.sealedSubstitutions else none
    sealedKeyId := if values.state.active then values.sealedKeyId else none
    finishedAt :=
      if values.state.active then values.finishedAt else some instant }

/-- `MAX_ATTEMPTS`. -/
def maxAttempts : Int :=
  4

/-- What `stewardship_address_retry_open_v1` is given. One transaction records
the acceptance and opens its follow-up, so `prompt` holds of its two instants. -/
structure RetryOpening where
  id : Uuid
  taskId : Uuid
  workerId : Uuid
  claimRun : Uuid
  routedRecipients : List String
  transient : List Nat
  distinct : transient.Nodup
  acceptedAt : Int
  instant : Int
  prompt : instant + seconds 900 < acceptedAt + seconds 604800
  sealedSubstitutions : String
  sealedKeyId : String
  tokenGenerationId : Uuid
  credentialEpochId : Uuid

def RetryOpening.row (opening : RetryOpening) : AddressRetry where
  id := opening.id
  createdAt := opening.instant
  version := 1
  actorId := opening.workerId
  correlationId := opening.claimRun
  taskId := opening.taskId
  routedRecipients := opening.routedRecipients
  positions := opening.transient
  remaining := opening.transient
  refused := []
  outcome := none
  state := .waiting
  attempt := 0
  spared := 0
  notBefore := opening.instant + seconds 900
  expiresAt := opening.acceptedAt + seconds 604800
  runId := none
  taskFence := none
  workerId := none
  submittedAt := none
  providerDeadline := none
  finishedAt := none
  reason := ""
  sealedSubstitutions := some opening.sealedSubstitutions
  sealedKeyId := some opening.sealedKeyId
  tokenGenerationId := opening.tokenGenerationId
  credentialEpochId := opening.credentialEpochId

/-! ## Settling an outcome -/

/-- The positions that these indexes of the envelope name. -/
def positionsAt (envelope indexes : List Nat) : List Nat :=
  indexes.filterMap fun index => envelope[index]?

/-- The values that `settled` writes. `notBefore` is given to a row that waits
again. -/
structure Settlement where
  outcome : StoredOutcome
  remaining : List Nat
  refused : List Nat
  spared : Nat
  state : AddressRetryState
  reason : String
  notBefore : Option Int

/-- Where `settled` leaves the row: its state, reason and next try. -/
def settledState (row : AddressRetry) (result : FamilyDeliveryResult)
    (remaining : List Nat) (counted next : Int) :
    AddressRetryState × String × Option Int :=
  if result.status = .unknown then
    (.unknown, "delivery_unknown", none)
  else if remaining = [] then
    (.finished, "", none)
  else if result.status = .permanent ∨ result.status = .systemic then
    (.failed, "provider_refused", none)
  else if maxAttempts ≤ counted then
    (.failed, "attempts", none)
  else if row.expiresAt ≤ next then
    (.failed, "expired", none)
  else
    (.waiting, "", some next)

/-- `settled`, or nothing when the outcome does not match its envelope. -/
def settled (row : AddressRetry) (result : FamilyDeliveryResult)
    (now : Int) : Option Settlement :=
  let envelope := row.remaining
  if result.recipientCount = envelope.length then
    let permanent :=
      (positionsAt envelope result.permanent).insertionSort (· ≤ ·)
    let transient :=
      (positionsAt envelope result.transient).insertionSort (· ≤ ·)
    let refused := (row.refused ++ permanent).dedup.insertionSort (· ≤ ·)
    let remaining :=
      if result.status = .accepted then transient
      else envelope.filter fun position => decide (position ∉ permanent)
    let sparedNow := row.spared + (if spared result then 1 else 0)
    let counted : Int := row.attempt - sparedNow
    let wait := seconds (retrySeconds result counted)
    let ending := settledState row result remaining counted (now + wait)
    some
      { outcome := ⟨result.status, permanent, transient⟩
        remaining := remaining
        refused := refused
        spared := sparedNow
        state := ending.1
        reason := ending.2.1
        notBefore := ending.2.2 }
  else
    none

/-- The row with the values of a settlement. -/
def Settlement.apply (settlement : Settlement) (row : AddressRetry) :
    AddressRetry :=
  { row with
    outcome := some settlement.outcome
    remaining := settlement.remaining
    refused := settlement.refused
    spared := settlement.spared
    state := settlement.state
    reason := settlement.reason
    notBefore := settlement.notBefore.getD row.notBefore }

/-! ## Scope -/

/-- What `retry_disposition` reads beside the row. -/
structure RetryScope where
  currentProduction : Bool
  restoreActivatedAt : Option Int
  restoreReviewRequired : Bool
  campaignOpen : Bool
  sameCycle : Bool
  activeTokenGeneration : Option Uuid
  familyLinkEpoch : Uuid
  generationActive : Bool
  laterAccepted : Bool
  unresolvedOther : Bool
  deliveryHeld : Bool
  familySourceCurrent : Bool
  familyDeliverable : Bool
  addresses : List String

/-- Why the follow-up must not send now. -/
inductive RetryDisposition where
  | held
  | ending (reason : String)
deriving DecidableEq, Repr

def retryDisposition (row : AddressRetry) (scope : RetryScope) (now : Int) :
    Option RetryDisposition :=
  if row.expiresAt ≤ now then
    some (.ending "expired")
  else if !scope.currentProduction then
    some (.ending "scope_replaced")
  else if scope.restoreActivatedAt.any fun activated =>
      decide (row.createdAt ≤ activated) then
    some (.ending "restored")
  else if scope.restoreReviewRequired then
    some .held
  else if !scope.campaignOpen then
    some (.ending "campaign_closed")
  else if !scope.sameCycle then
    some (.ending "scope_replaced")
  else if scope.activeTokenGeneration ≠ some row.tokenGenerationId ∨
      scope.familyLinkEpoch ≠ row.credentialEpochId ∨
      scope.generationActive = false then
    some (.ending "credentials_changed")
  else if scope.laterAccepted then
    some (.ending "superseded")
  else if scope.unresolvedOther then
    some .held
  else if scope.deliveryHeld then
    some .held
  else if !scope.familySourceCurrent then
    some .held
  else if !scope.familyDeliverable || row.remaining.any fun index =>
      !(row.routedRecipients[index]?.any fun address =>
        scope.addresses.contains address) then
    some (.ending "recipients_changed")
  else
    none

/-! ## Executions -/

structure TaskClaim where
  runId : Uuid
  fence : Nat
  workerId : Uuid
deriving DecidableEq, Repr

/-- Where a worker's `_execute` stands between two of its transactions. -/
inductive ExecutionPhase where
  | started
  | checked
  | ending (reason : String)
  | submitted (envelope : List Nat) (deadline : Int)
  | answered (envelope : List Nat) (result : FamilyDeliveryResult)
  | done

structure Execution where
  claim : TaskClaim
  phase : ExecutionPhase

/-- The history of submissions: the positions of each envelope, and each
outcome that was recorded. -/
inductive FollowUpEvent where
  | submitted (envelope : List Nat)
  | recorded (envelope : List Nat) (result : FamilyDeliveryResult)

structure FollowUp where
  row : AddressRetry
  tasks : TaskTable
  executions : List Execution
  log : List FollowUpEvent

/-- What one step meets. `deferred` covers the sending limits and an installed
credential in mid-switch, `linkCurrent` the link token's own check, `prepared`
every other failure before the submission is committed, and `guarded` says that
no trigger refuses the write. -/
structure RetryFindings where
  instant : Int
  scope : RetryScope
  authorized : Bool
  deferred : Bool
  linkCurrent : Bool
  prepared : Bool
  guarded : Bool

/-- `lock_task_claim`: the claim is live and exact. -/
def lockTaskClaim (tasks : TaskTable) (claim : TaskClaim) (instant : Int) :
    Option TaskRun :=
  (tasks.run? claim.runId).filter fun task =>
    task.state == .running && task.fence == claim.fence &&
      task.workerId == some claim.workerId &&
      task.leaseExpiresAt.any fun lease => decide (instant < lease)

/-- `bound_retry`: the task is the follow-up's own. -/
def boundRetry (row : AddressRetry) (task : TaskRun) : Bool :=
  task.taskType == "family_address_retry" &&
    task.domainRequestId == some row.id && task.rootId == row.taskId

namespace FollowUp

/-- The claim holds the follow-up's task now. -/
def owned (world : FollowUp) (claim : TaskClaim) (instant : Int) : Bool :=
  (lockTaskClaim world.tasks claim instant).any fun task =>
    boundRetry world.row task

def moved (world : FollowUp) (index : Nat) (execution : Execution)
    (phase : ExecutionPhase) : FollowUp :=
  { world with
    executions := world.executions.set index ⟨execution.claim, phase⟩ }

/-- A worker takes up a claim. It executes each claim it takes once. -/
def begin (world : FollowUp) (claim : TaskClaim) : Option FollowUp :=
  if world.executions.any fun execution =>
      execution.claim.runId == claim.runId &&
        execution.claim.fence == claim.fence then
    none
  else
    some { world with executions := world.executions ++ [⟨claim, .started⟩] }

/-- Where the first transaction and the checks before the submission leave an
execution: an ended or held follow-up only moves its task. -/
def checkedPhase (world : FollowUp) (seen : RetryFindings) : ExecutionPhase :=
  if world.row.state.active = false then
    .done
  else
    match retryDisposition world.row seen.scope seen.instant with
    | some .held => .done
    | some (.ending reason) => .ending reason
    | none => if seen.authorized && !seen.deferred then .checked else .done

/-- The first transaction of an execution. -/
def check (world : FollowUp) (index : Nat) (seen : RetryFindings) :
    Option FollowUp :=
  match world.executions[index]? with
  | some ⟨claim, .started⟩ =>
      if world.owned claim seen.instant then
        some (world.moved index ⟨claim, .started⟩ (world.checkedPhase seen))
      else
        none
  | _ => none

/-- `_end_unsent`. -/
def endUnsent (world : FollowUp) (index : Nat) (seen : RetryFindings) :
    Option FollowUp :=
  match world.executions[index]? with
  | some ⟨claim, .ending reason⟩ =>
      let execution : Execution := ⟨claim, .ending reason⟩
      if world.owned claim seen.instant = false then
        none
      else if world.row.state ≠ .waiting then
        some (world.moved index execution .done)
      else if seen.guarded = false then
        none
      else
        let state : AddressRetryState :=
          if reason = "expired" then .failed else .cancelled
        let values := { world.row with state := state, reason := reason }
        some { world.moved index execution .done with
          row := values.change claim.workerId claim.runId seen.instant }
  | _ => none

/-- The second transaction: "submitting" commits before any provider work, with
the mail to exactly the remaining positions. -/
def submit (world : FollowUp) (index : Nat) (seen : RetryFindings) :
    Option FollowUp :=
  match world.executions[index]? with
  | some ⟨claim, .checked⟩ =>
      let execution : Execution := ⟨claim, .checked⟩
      if world.owned claim seen.instant = false then
        none
      else if world.row.state ≠ .waiting ∨
          retryDisposition world.row seen.scope seen.instant ≠ none then
        some (world.moved index execution .done)
      else if seen.linkCurrent = false then
        some (world.moved index execution (.ending "credentials_changed"))
      else if seen.prepared = false ∨ seen.guarded = false then
        some (world.moved index execution .done)
      else
        let envelope := world.row.remaining
        let deadline := seen.instant + seconds 30
        let values := { world.row with
          state := .submitting
          attempt := world.row.attempt + 1
          runId := some claim.runId
          taskFence := some claim.fence
          workerId := some claim.workerId
          submittedAt := some seen.instant
          providerDeadline := some deadline }
        some { world.moved index execution (.submitted envelope deadline) with
          row := values.change claim.workerId claim.runId seen.instant
          log := world.log ++ [.submitted envelope] }
  | _ => none

/-- The outcome of an attempt whose budget had passed before it began. -/
def elapsed (envelope : List Nat) : FamilyDeliveryResult where
  status := .transient
  recipientCount := envelope.length
  permanent := []
  transient := []
  health := .unobserved
  limit := none
  permanentSorted := List.Pairwise.nil
  transientSorted := List.Pairwise.nil
  permanentInside := by simp
  transientInside := by simp
  disjoint := by simp

/-- The outcome of an attempt that cannot be read. -/
def unreadable (envelope : List Nat) : FamilyDeliveryResult where
  status := .unknown
  recipientCount := envelope.length
  permanent := []
  transient := []
  health := .unavailable
  limit := none
  permanentSorted := List.Pairwise.nil
  transientSorted := List.Pairwise.nil
  permanentInside := by simp
  transientInside := by simp
  disjoint := by simp

/-- The provider's answer; `none` is a failure after launch. -/
def answer (world : FollowUp) (index : Nat)
    (reply : Option FamilyDeliveryResult) (instant : Int) : Option FollowUp :=
  match world.executions[index]? with
  | some ⟨claim, .submitted envelope deadline⟩ =>
      let execution : Execution := ⟨claim, .submitted envelope deadline⟩
      let result :=
        if deadline ≤ instant then elapsed envelope
        else reply.getD (unreadable envelope)
      some (world.moved index execution (.answered envelope result))
  | _ => none

/-- The third transaction: the attempt's own execution records its outcome. -/
def settle (world : FollowUp) (index : Nat) (seen : RetryFindings) :
    Option FollowUp :=
  match world.executions[index]? with
  | some ⟨claim, .answered envelope result⟩ =>
      let execution : Execution := ⟨claim, .answered envelope result⟩
      if world.owned claim seen.instant = false ∨ seen.guarded = false then
        none
      else if world.row.state ≠ .submitting ∨
          world.row.runId ≠ some claim.runId ∨
          world.row.taskFence ≠ some claim.fence then
        none
      else
        match settled world.row result seen.instant with
        | none => none
        | some settlement =>
            some { world.moved index execution .done with
              row := (settlement.apply world.row).change claim.workerId
                claim.runId seen.instant
              log := world.log ++ [.recorded envelope result] }
  | _ => none

/-- `recovery_plan`: what becomes of an abandoned task. -/
def recoveryPlan (row : AddressRetry) (instant : Int) : Option TaskAction :=
  match row.state with
  | .submitting =>
      if row.providerDeadline.any fun deadline => decide (instant < deadline) then
        none
      else
        some .recoveryFail
  | .waiting => some .recoveryRetry
  | .finished => some .recoveryComplete
  | .cancelled => some .recoveryCancel
  | _ => some .recoveryFail

/-- `recover_retry`, for the abandoned run `runId`: a submission past its
deadline is unknown for good. -/
def recoverRetry (world : FollowUp) (runId actor : Uuid)
    (seen : RetryFindings) : Option FollowUp :=
  match world.tasks.run? runId with
  | none => none
  | some task =>
      if task.state ≠ .abandoned ∨ boundRetry world.row task = false then
        none
      else if recoveryPlan world.row seen.instant = none ∨
          world.row.state ≠ .submitting then
        some world
      else if seen.guarded = false then
        none
      else
        let values := { world.row with
          state := .unknown, reason := "recovery_unknown" }
        some { world with row := values.change actor runId seen.instant }

end FollowUp

inductive FollowUpOp where
  | task (op : TaskOp)
  | begin (claim : TaskClaim)
  | check (index : Nat) (seen : RetryFindings)
  | endUnsent (index : Nat) (seen : RetryFindings)
  | submit (index : Nat) (seen : RetryFindings)
  | answer (index : Nat) (reply : Option FamilyDeliveryResult) (instant : Int)
  | settle (index : Nat) (seen : RetryFindings)
  | recover (runId actor : Uuid) (seen : RetryFindings)

def FollowUpOp.apply : FollowUpOp → FollowUp → Option FollowUp
  | .task op, world =>
      (op.apply world.tasks).map fun tasks => { world with tasks := tasks }
  | .begin claim, world => world.begin claim
  | .check index seen, world => world.check index seen
  | .endUnsent index seen, world => world.endUnsent index seen
  | .submit index seen, world => world.submit index seen
  | .answer index reply instant, world => world.answer index reply instant
  | .settle index seen, world => world.settle index seen
  | .recover runId actor seen, world => world.recoverRetry runId actor seen

/-- The follow-up as it is opened, beside the tasks of that time. -/
def RetryOpening.followUp (opening : RetryOpening) (tasks : TaskTable) :
    FollowUp :=
  ⟨opening.row, tasks, [], []⟩

end ParishKit.Jobs
