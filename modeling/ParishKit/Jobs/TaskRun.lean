import Mathlib.Data.List.MinMax

/-!
# Task runs

The rows of `stewardship_task_run`, the triggers that judge each write of them
and the three storage calls. A call that raises or that a trigger refuses rolls
its transaction back, so it changes nothing.
-/

namespace ParishKit.Jobs

/-- An opaque identifier. -/
abbrev Uuid := Nat

/-- A duration in the database's clock, which counts microseconds. -/
def seconds (count : Int) : Int :=
  count * 1000000

inductive TaskState where
  | queued
  | running
  | retryWait
  | abandoned
  | succeeded
  | failed
  | cancelled
deriving DecidableEq, Repr

def TaskState.terminal : TaskState → Bool
  | .succeeded => true
  | .failed => true
  | .cancelled => true
  | _ => false

inductive TaskAction where
  | created
  | explicitRetry
  | claim
  | heartbeat
  | progress
  | complete
  | retryableFailure
  | permanentFailure
  | safeCancel
  | leaseExpired
  | recoveryRetry
  | recoveryComplete
  | recoveryFail
  | recoveryCancel
deriving DecidableEq, Repr

inductive TaskPhase where
  | unspecified
  | starting
  | preparing
  | fetching
  | validating
  | staging
  | promoting
  | reconciling
  | rendering
  | delivering
  | verifying
  | compacting
  | draining
  | deleting
  | uploading
deriving DecidableEq, Repr

/-- The two forms of a key: a caller's UUID, or the `retry:<root>:<sequence>`
of an explicit retry. -/
inductive IdempotencyKey where
  | caller (key : Uuid)
  | retry (root : Uuid) (sequence : Nat)
deriving DecidableEq, Repr

structure TaskRun where
  id : Uuid
  createdAt : Int
  updatedAt : Int
  actorId : Option Uuid
  correlationId : Uuid
  version : Nat
  taskType : String
  idempotencyKey : Option IdempotencyKey
  rootId : Uuid
  parentId : Option Uuid
  retrySequence : Nat
  retryCommandId : Option Uuid
  domainRequestId : Option Uuid
  initiatedById : Option Uuid
  state : TaskState
  action : TaskAction
  attempt : Nat
  fence : Nat
  workerId : Option Uuid
  heartbeatAt : Option Int
  leaseExpiresAt : Option Int
  notBefore : Int
  progressCurrent : Nat
  progressTotal : Nat
  phase : TaskPhase
deriving DecidableEq, Repr

/-- What no update may change of a run. -/
structure TaskBindings where
  id : Uuid
  createdAt : Int
  taskType : String
  idempotencyKey : Option IdempotencyKey
  rootId : Uuid
  parentId : Option Uuid
  retrySequence : Nat
  retryCommandId : Option Uuid
  domainRequestId : Option Uuid
  initiatedById : Option Uuid
deriving DecidableEq, Repr

def TaskRun.bindings (run : TaskRun) : TaskBindings :=
  ⟨run.id, run.createdAt, run.taskType, run.idempotencyKey, run.rootId,
    run.parentId, run.retrySequence, run.retryCommandId, run.domainRequestId,
    run.initiatedById⟩

/-- Why a call changes nothing. -/
inductive TaskRefusal where
  | typeError (text : String)
  | valueError (text : String)
  | staleRecord (text : String)
  | retryConflict (text : String)
  | taskNotAdmitted
  | transitionNotAdmitted
  | doesNotExist
  | guard (text : String)
deriving DecidableEq, Repr

def refuseWhen {ε : Type} (refused : Bool) (reason : ε) : Except ε Unit :=
  if refused then .error reason else .ok ()

abbrev TaskTable := List TaskRun

namespace TaskTable

def run? (table : TaskTable) (id : Uuid) : Option TaskRun :=
  table.find? fun run => run.id == id

/-- The runs of one root, oldest first. -/
def chain (table : TaskTable) (root : Uuid) : List TaskRun :=
  table.filter fun run => run.rootId == root

/-- The run of the root with the highest retry sequence. -/
def latest (table : TaskTable) (root : Uuid) : Option TaskRun :=
  (table.chain root).argmax (·.retrySequence)

def replace (table : TaskTable) (row : TaskRun) : TaskTable :=
  table.map fun run => if run.id = row.id then row else run

end TaskTable

/-! ## The triggers -/

/-- `stewardship_task_phase_v1` on an update. -/
def taskPhaseGuard (old new : TaskRun) : Except String Unit :=
  if new.action = .claim then
    refuseWhen (new.phase != .starting) "Task claim must reset its phase"
  else
    refuseWhen (new.phase != old.phase &&
      (new.action != .progress || new.phase == .unspecified))
      "Task phase requires progress"

/-- `stewardship_task_run_mutable_v1`. -/
def taskRunMutable (old new : TaskRun) (instant : Int) :
    Except String TaskRun := do
  refuseWhen (new.bindings != old.bindings)
    "Record identity and bindings are immutable"
  refuseWhen (new.version != old.version + 1)
    "Every update must advance the record version"
  return { new with updatedAt := instant }

/-- The permitted edges of `stewardship_task_state_v1`, without their timing. -/
def permittedEdge : TaskAction → TaskState → TaskState → Bool
  | .claim, .queued, .running => true
  | .claim, .retryWait, .running => true
  | .heartbeat, .running, .running => true
  | .progress, .running, .running => true
  | .complete, .running, .succeeded => true
  | .retryableFailure, .running, .retryWait => true
  | .permanentFailure, .running, .failed => true
  | .leaseExpired, .running, .abandoned => true
  | .safeCancel, .queued, .cancelled => true
  | .safeCancel, .running, .cancelled => true
  | .safeCancel, .retryWait, .cancelled => true
  | .recoveryRetry, .abandoned, .retryWait => true
  | .recoveryComplete, .abandoned, .succeeded => true
  | .recoveryFail, .abandoned, .failed => true
  | .recoveryCancel, .abandoned, .cancelled => true
  | _, _, _ => false

/-- The timing of an edge. A comparison with a NULL lease is NULL, which the
trigger's `IF NOT` does not refuse. -/
def edgeInTime (old : TaskRun) (action : TaskAction) (instant : Int) :
    Bool :=
  match action with
  | .claim => decide (old.notBefore ≤ instant)
  | .leaseExpired => old.leaseExpiresAt.all fun lease => decide (lease ≤ instant)
  | _ => true

/-- The fencing fields of a claim and of every other action. -/
def fencingGuard (old new : TaskRun) : Except String Unit :=
  if new.action = .claim then
    refuseWhen (new.workerId == none || new.actorId != new.workerId ||
      new.fence != old.fence + 1 || new.attempt != old.attempt + 1)
      "Invalid task claim"
  else
    refuseWhen (new.workerId != old.workerId || new.attempt != old.attempt ||
      new.fence != old.fence + (if new.action = .leaseExpired then 1 else 0))
      "Invalid task claim binding"

/-- Only the worker of a live lease writes a running task, and no actor expires
one. -/
def ownershipGuard (old new : TaskRun) (instant : Int) :
    Except String Unit := do
  refuseWhen (old.state == .running && new.action != .leaseExpired &&
      (old.leaseExpiresAt.any (fun lease => decide (lease ≤ instant)) ||
        new.actorId != old.workerId))
    "Task lease is expired or not owned"
  refuseWhen (new.action == .leaseExpired && new.actorId != none)
    "Lease expiry has no worker actor"

/-- The lease fields, with the heartbeat the trigger stores. -/
def leaseGuard (old new : TaskRun) (instant : Int) :
    Except String TaskRun :=
  if new.action = .claim ∨ new.action = .heartbeat then do
    refuseWhen (!(new.heartbeatAt.any fun heartbeat =>
        decide (heartbeat ≤ instant) && decide (new.createdAt ≤ heartbeat)) ||
      !(new.leaseExpiresAt.any fun lease => decide (instant < lease) &&
        decide (lease ≤ instant + seconds 300)))
      "Invalid task lease interval"
    return { new with heartbeatAt := some instant }
  else do
    refuseWhen (new.heartbeatAt != old.heartbeatAt ||
      (new.state == .running && new.leaseExpiresAt != old.leaseExpiresAt) ||
      (new.state != .running && new.leaseExpiresAt != none))
      "Task lease fields require claim or heartbeat"
    return new

def retryTimeGuard (old new : TaskRun) (instant : Int) :
    Except String Unit :=
  if new.action = .retryableFailure ∨ new.action = .recoveryRetry then
    refuseWhen (decide (new.notBefore ≤ instant) ||
      decide (instant + seconds 86400 < new.notBefore))
      "Invalid task retry time"
  else
    refuseWhen (new.notBefore != old.notBefore)
      "Task retry time is bound to retry transitions"

def progressGuard (old new : TaskRun) : Except String Unit :=
  if new.action = .claim then
    refuseWhen (new.progressCurrent != 0 || new.progressTotal != 0)
      "Task claims must reset attempt progress"
  else if new.action = .progress then
    refuseWhen (decide (new.progressCurrent < old.progressCurrent) ||
      decide (new.progressTotal < old.progressTotal))
      "Task progress cannot move backwards"
  else
    refuseWhen (new.progressCurrent != old.progressCurrent ||
      new.progressTotal != old.progressTotal)
      "Task progress requires its own action"

/-- `stewardship_task_state_v1` on an update. -/
def taskStateUpdate (old new : TaskRun) (instant : Int) :
    Except String TaskRun := do
  refuseWhen old.state.terminal "Terminal tasks cannot be reopened"
  refuseWhen (!(permittedEdge new.action old.state new.state &&
      edgeInTime old new.action instant))
    "Invalid task transition or timing"
  fencingGuard old new
  ownershipGuard old new instant
  let new ← leaseGuard old new instant
  retryTimeGuard old new instant
  progressGuard old new
  return new

/-- An update passes the triggers in the order of their names. -/
def taskUpdateGuard (old new : TaskRun) (instant : Int) :
    Except String TaskRun := do
  taskPhaseGuard old new
  let new ← taskRunMutable old new instant
  taskStateUpdate old new instant

/-- The identity of a root. -/
def rootGuard (new : TaskRun) : Except String Unit :=
  refuseWhen (new.rootId != new.id || new.parentId != none ||
    new.retryCommandId != none || new.action != .created ||
    !(new.idempotencyKey.all fun
      | .caller _ => true
      | .retry _ _ => false))
    "Invalid task root identity"

/-- The identity of an explicit retry, judged against the root and the latest
run. A missing row compares as NULL; a missing root is refused by itself. -/
def retryGuard (table : TaskTable) (new : TaskRun) : Except String Unit :=
  let admitted : Bool :=
    match table.run? new.rootId, table.latest new.rootId with
    | some root, some previous =>
        root.retrySequence == 0 && previous.state == .failed &&
        new.parentId == some previous.id &&
        new.retrySequence == previous.retrySequence + 1 &&
        new.taskType == root.taskType &&
        new.domainRequestId == root.domainRequestId &&
        new.initiatedById != none && new.retryCommandId != none &&
        new.action == .explicitRetry &&
        new.idempotencyKey == some (.retry new.rootId new.retrySequence)
    | _, _ => false
  refuseWhen (!admitted) "Invalid explicit task retry"

/-- `stewardship_task_state_v1` and `stewardship_task_phase_v1` on an insert. -/
def taskInsertGuard (table : TaskTable) (new : TaskRun) (instant : Int) :
    Except String TaskRun := do
  refuseWhen (new.phase != .unspecified) "New task phase must be unspecified"
  refuseWhen (new.version != 1 || new.state != .queued || new.attempt != 0 ||
      new.fence != 0 || new.workerId != none || new.heartbeatAt != none ||
      new.leaseExpiresAt != none || new.progressCurrent != 0 ||
      new.progressTotal != 0 || new.actorId != new.initiatedById)
    "Invalid initial task state"
  if new.retrySequence = 0 then rootGuard new else retryGuard table new
  return { new with createdAt := instant, updatedAt := instant }

/-! ## The storage calls -/

/-- The identifier of an inserted row is new: the primary key refuses another. -/
def insertRun (table : TaskTable) (row : TaskRun) (instant : Int) :
    Except TaskRefusal TaskTable := do
  let row ← (taskInsertGuard table row instant).mapError .guard
  refuseWhen ((table.run? row.id).isSome) (.guard "duplicate key value")
  return table ++ [row]

/-- The arguments of `enqueue` with the identifier it draws, the owning
service's verdict and the statement's instant. -/
structure EnqueueCall where
  identifier : Uuid
  taskType : String
  domainRequestId : Option Uuid
  actorId : Option Uuid
  correlationId : Uuid
  idempotencyKey : Option Uuid
  notBefore : Option Int
  admitted : Bool
  instant : Int

/-- The type names of `[a-z][a-z0-9_]{0,63}`. -/
def taskTypeValid (taskType : String) : Bool :=
  match taskType.toList with
  | [] => false
  | first :: rest =>
      decide ('a' ≤ first ∧ first ≤ 'z') && decide (rest.length ≤ 63) &&
      rest.all fun char =>
        decide ('a' ≤ char ∧ char ≤ 'z') || decide ('0' ≤ char ∧ char ≤ '9') ||
        char == '_'

def EnqueueCall.row (call : EnqueueCall) : TaskRun where
  id := call.identifier
  createdAt := call.instant
  updatedAt := call.instant
  actorId := call.actorId
  correlationId := call.correlationId
  version := 1
  taskType := call.taskType
  idempotencyKey := call.idempotencyKey.map .caller
  rootId := call.identifier
  parentId := none
  retrySequence := 0
  retryCommandId := none
  domainRequestId := call.domainRequestId
  initiatedById := call.actorId
  state := .queued
  action := .created
  attempt := 0
  fence := 0
  workerId := none
  heartbeatAt := none
  leaseExpiresAt := none
  notBefore := call.notBefore.getD call.instant
  progressCurrent := 0
  progressTotal := 0
  phase := .unspecified

/-- The execution a key is already bound to. -/
def EnqueueCall.existing (call : EnqueueCall) (table : TaskTable) :
    Option TaskRun :=
  call.idempotencyKey.bind fun key => table.find? fun run =>
    run.taskType == call.taskType && run.idempotencyKey == some (.caller key)

/-- `enqueue`: a new root, or the execution its key is bound to. -/
def enqueue (table : TaskTable) (call : EnqueueCall) :
    Except TaskRefusal TaskTable := do
  refuseWhen (!taskTypeValid call.taskType)
    (.valueError "Invalid internal task type.")
  match call.existing table with
  | some existing =>
      refuseWhen (existing.domainRequestId != call.domainRequestId ||
        existing.initiatedById != call.actorId)
        (.valueError "Task execution key is already bound.")
      refuseWhen (!call.admitted) .transitionNotAdmitted
      return table
  | none =>
      refuseWhen (!call.admitted) .transitionNotAdmitted
      insertRun table call.row call.instant

structure RetryCall where
  identifier : Uuid
  runId : Uuid
  commandId : Uuid
  actorId : Uuid
  correlationId : Uuid
  admitted : Bool
  instant : Int

def RetryCall.row (call : RetryCall) (original : TaskRun) : TaskRun where
  id := call.identifier
  createdAt := call.instant
  updatedAt := call.instant
  actorId := some call.actorId
  correlationId := call.correlationId
  version := 1
  taskType := original.taskType
  idempotencyKey := some (.retry original.rootId (original.retrySequence + 1))
  rootId := original.rootId
  parentId := some call.runId
  retrySequence := original.retrySequence + 1
  retryCommandId := some call.commandId
  domainRequestId := original.domainRequestId
  initiatedById := some call.actorId
  state := .queued
  action := .explicitRetry
  attempt := 0
  fence := 0
  workerId := none
  heartbeatAt := none
  leaseExpiresAt := none
  notBefore := call.instant
  progressCurrent := 0
  progressTotal := 0
  phase := .unspecified

/-- `retry_failed`: a command is bound to the retry it first made, and only the
latest failed run gets a new one. -/
def retryFailed (table : TaskTable) (call : RetryCall) :
    Except TaskRefusal TaskTable :=
  match table.run? call.runId with
  | none => .error .doesNotExist
  | some original =>
      match (table.chain original.rootId).find? fun run =>
          run.retryCommandId == some call.commandId with
      | some existing => do
          refuseWhen (existing.parentId != some call.runId ||
            existing.initiatedById != some call.actorId)
            (.valueError "Task retry command is already bound.")
          refuseWhen (!call.admitted) .transitionNotAdmitted
          return table
      | none => do
          refuseWhen ((table.latest original.rootId).map (·.id) !=
              some call.runId || original.state != .failed)
            (.retryConflict "Only the latest failed run can be retried.")
          refuseWhen (!call.admitted) .transitionNotAdmitted
          insertRun table (call.row original) call.instant

structure ChangeCall where
  runId : Uuid
  action : TaskAction
  expectedVersion : Int
  actorId : Option Uuid
  correlationId : Uuid
  fence : Option Int
  leaseSeconds : Option Int
  retrySeconds : Option Int
  progress : Option (Int × Int)
  phase : Option TaskPhase
  admitted : Bool
  instant : Int

/-- The state an action of `change_run` leads to. -/
def actionTarget : TaskAction → Option TaskState
  | .created => none
  | .explicitRetry => none
  | .claim => some .running
  | .heartbeat => some .running
  | .progress => some .running
  | .complete => some .succeeded
  | .retryableFailure => some .retryWait
  | .permanentFailure => some .failed
  | .safeCancel => some .cancelled
  | .leaseExpired => some .abandoned
  | .recoveryRetry => some .retryWait
  | .recoveryComplete => some .succeeded
  | .recoveryFail => some .failed
  | .recoveryCancel => some .cancelled

/-- A duration is given exactly where it is needed, within its bounds. -/
def timingValid (value : Option Int) (needed : Bool) (maximum : Int) : Bool :=
  match value with
  | none => !needed
  | some duration =>
      needed && decide (1 ≤ duration) && decide (duration ≤ maximum)

def progressValid (action : TaskAction) (progress : Option (Int × Int)) : Bool :=
  match progress with
  | none => action != .progress
  | some (current, total) =>
      action == .progress && decide (0 ≤ current) &&
      decide (total ≤ 9223372036854775807) && decide (current ≤ total)

namespace ChangeCall

def needsLease (call : ChangeCall) : Bool :=
  call.action == .claim || call.action == .heartbeat

def needsRetry (call : ChangeCall) : Bool :=
  call.action == .retryableFailure || call.action == .recoveryRetry

/-- What `change_run` checks before it reads the run. -/
def validate (call : ChangeCall) : Except TaskRefusal TaskState := do
  refuseWhen (call.phase.any fun phase =>
      phase == .unspecified || call.action != .progress)
    (.valueError "Only progress accepts a known typed task phase.")
  match actionTarget call.action with
  | none => .error (.valueError "Unknown task action.")
  | some target => do
      refuseWhen (call.action == .claim && call.actorId == none)
        (.typeError "Task identifiers must be UUIDs.")
      refuseWhen (call.action == .leaseExpired && call.actorId != none)
        (.valueError "Lease expiry has no fabricated worker actor.")
      refuseWhen (decide (call.expectedVersion < 1))
        (.valueError "A positive task version is required.")
      refuseWhen (!timingValid call.leaseSeconds call.needsLease 300 ||
          !timingValid call.retrySeconds call.needsRetry 86400)
        (.valueError "Invalid task timing parameters.")
      refuseWhen (!progressValid call.action call.progress)
        (.valueError "Invalid task progress.")
      return target

/-- The version and the ownership of the locked row. -/
def owns (call : ChangeCall) (run : TaskRun) : Except TaskRefusal Unit := do
  refuseWhen (decide ((run.version : Int) ≠ call.expectedVersion))
    (.staleRecord "The task changed; reload before retrying.")
  if run.state = .running ∧ call.action ≠ .leaseExpired then
    refuseWhen (call.fence != some (run.fence : Int) ||
      call.actorId != run.workerId)
      (.staleRecord "The task claim is no longer owned.")
  else
    refuseWhen (call.fence != none)
      (.valueError "Unexpected task fencing token.")

/-- A claim and a lease expiry take a new fence. -/
def advancesFence (call : ChangeCall) : Bool :=
  call.action == .claim || call.action == .leaseExpired

/-- The row `change_run` saves: a claim binds its worker and starts an attempt,
a lease is renewed, kept while running, else dropped. -/
def changed (call : ChangeCall) (target : TaskState) (run : TaskRun) : TaskRun :=
  { run with
    workerId := if call.action = .claim then call.actorId else run.workerId
    fence := run.fence + (if call.advancesFence then 1 else 0)
    attempt := run.attempt + (if call.action = .claim then 1 else 0)
    heartbeatAt :=
      if call.needsLease then some call.instant else run.heartbeatAt
    leaseExpiresAt :=
      if call.needsLease then
        some (call.instant + seconds (call.leaseSeconds.getD 0))
      else if target ≠ .running then none
      else run.leaseExpiresAt
    notBefore :=
      match call.retrySeconds with
      | none => run.notBefore
      | some wait => call.instant + seconds wait
    progressCurrent :=
      match call.progress with
      | none => if call.action = .claim then 0 else run.progressCurrent
      | some (current, _) => current.toNat
    progressTotal :=
      match call.progress with
      | none => if call.action = .claim then 0 else run.progressTotal
      | some (_, total) => total.toNat
    phase := call.phase.getD
      (if call.action = .claim then .starting else run.phase)
    state := target
    action := call.action
    actorId := call.actorId
    correlationId := call.correlationId
    version := run.version + 1 }

end ChangeCall

/-- `change_run`: one fenced transition of one run. -/
def changeRun (table : TaskTable) (call : ChangeCall) :
    Except TaskRefusal TaskTable := do
  let target ← call.validate
  match table.run? call.runId with
  | none => .error .doesNotExist
  | some run => do
      call.owns run
      refuseWhen (!call.admitted)
        (if call.action = .claim then .taskNotAdmitted
          else .transitionNotAdmitted)
      let saved ← (taskUpdateGuard run (call.changed target run)
        call.instant).mapError .guard
      return table.replace saved

end ParishKit.Jobs
