import ParishKit.Responses.Publication

/-!
# The publication worker

`publish_plan` as a machine of its atomic steps: each database transaction, each
read of the proposals and each provider call is one step, so other writers and a
crash may come between any two. The source lease is exclusive, so one run is
active at a time. The log is a record of what the worker did, newest first; no
step reads it.
-/

namespace ParishKit.Responses

/-! ## Confirmed entities -/

/-- One planned field with the version its proposal had at the preflight. -/
structure PlannedField where
  proposal : Nat
  version : Nat
  outcome : PlanOutcome
deriving DecidableEq

/-- One entity of a confirmed plan. A proposal is planned once in an entity. -/
structure PublicationEntity where
  pk : Nat
  plan : Nat
  entityKind : EntityKind
  entityKey : String
  fields : List PlannedField
  distinct : (fields.map (·.proposal)).Nodup
  readSha : Option String
  plannedSha : Option String
deriving DecidableEq

def PublicationEntity.writes (entity : PublicationEntity) : List Nat :=
  (entity.fields.filter fun field => field.outcome == .write).map (·.proposal)

/-- The reviewed words of a gateway failure. -/
inductive GatewayFailure where
  | readUnavailable
  | readUnconfirmed
  | writeRejected
  | writeUnavailable
deriving DecidableEq, Repr

/-- Why an attempt failed: a gateway failure, or a read back that failed or did
not return the planned record. -/
inductive FailureKind where
  | gateway (failure : GatewayFailure)
  | verifyUnavailable
  | verifyMismatch
deriving DecidableEq, Repr

/-- The outcome of one attempt. -/
inductive AttemptResult where
  | published
  | invalidated
  | failed (kind : FailureKind)
deriving DecidableEq, Repr

def AttemptResult.isFinal : AttemptResult → Bool
  | .published => true
  | .invalidated => true
  | .failed _ => false

/-- The tables a publication reads and writes. `entities` are those of confirmed
plans; `outcomes` are in the order of their attempts. -/
structure PublicationTables where
  changes : Nat → Option Change
  entities : List PublicationEntity
  outcomes : Nat → List AttemptResult

namespace PublicationTables

def finished (tables : PublicationTables) (entity : Nat) : Bool :=
  (tables.outcomes entity).any (·.isFinal)

def mismatched (tables : PublicationTables) (entity : Nat) : Bool :=
  (tables.outcomes entity).contains (.failed .verifyMismatch)

/-- Entities of the plans with something to write and no final outcome. -/
def unfinished (tables : PublicationTables) (plans : List Nat) :
    List PublicationEntity :=
  tables.entities.filter fun entity =>
    plans.contains entity.plan && entity.plannedSha.isSome &&
      !tables.finished entity.pk

def setChange (tables : PublicationTables) (pk : Nat) (change : Change) :
    PublicationTables :=
  { tables with
    changes := fun other =>
      if other = pk then some change else tables.changes other }

end PublicationTables

/-! ## The worker's view of its proposals -/

/-- The row of `pk` is a write of this plan that the plan already queued. -/
def PublicationEntity.queuedByPlan (entity : PublicationEntity) (pk : Nat)
    (row : ProposedChange) : Bool :=
  row.execution == .queued && entity.fields.any fun field =>
    field.proposal == pk && field.outcome == .write &&
      row.version == field.version + 1

/-- The plan's own check marked the row as already in ParishSoft. -/
def PlannedField.marked (field : PlannedField) (row : ProposedChange) : Bool :=
  field.outcome == .alreadyInParishSoft &&
    (row.execution == .published || row.execution == .resolvedUpstream) &&
    row.version == field.version + 1

/-- A proposal this plan queued, seen as it was planned. -/
def unqueued (change : Change) : Change :=
  { change with
    row := { change.row with
      execution := .pending
      version := change.row.version - 1 } }

def PublicationEntity.rows (entity : PublicationEntity)
    (tables : PublicationTables) : List Change :=
  entity.fields.filterMap fun field =>
    (tables.changes field.proposal).map fun change =>
      if entity.queuedByPlan field.proposal change.row then unqueued change
      else change

def PublicationEntity.anyQueued (entity : PublicationEntity)
    (tables : PublicationTables) : Bool :=
  entity.fields.any fun field =>
    (tables.changes field.proposal).any fun change =>
      entity.queuedByPlan field.proposal change.row

/-- Every written proposal is there and queued by this plan. -/
def PublicationEntity.allQueued (entity : PublicationEntity)
    (tables : PublicationTables) : Bool :=
  entity.writes.all fun pk =>
    (tables.changes pk).any fun change => entity.queuedByPlan pk change.row

/-- `matches_confirmed`: the fresh plan is exactly the confirmed one. -/
def PublicationEntity.matchesConfirmed (entity : PublicationEntity)
    (fresh : EntityPlan) (rows : List Change) : Bool :=
  let version (pk : Nat) : Option Nat :=
    (rows.find? fun change => change.row.pk == pk).map (·.row.version)
  let isMarked (field : PlannedField) : Bool :=
    rows.any fun change =>
      change.row.pk == field.proposal && field.marked change.row
  let recorded := (entity.fields.filter fun field => !isMarked field).map
    fun field => (field.proposal, some field.version, field.outcome)
  let planned := fresh.fields.map fun field =>
    (field.proposal, version field.proposal, field.outcome)
  fresh.entityKind == entity.entityKind &&
    fresh.entityKey == entity.entityKey && !fresh.blocked &&
    fresh.payload.isSome && entity.plannedSha.isSome &&
    (recorded.all planned.contains && planned.all recorded.contains) &&
    fresh.currentDigest == entity.readSha &&
    fresh.plannedDigest == entity.plannedSha

/-- The condition of `queue` on one planned proposal. -/
def PublicationEntity.atPlan (entity : PublicationEntity)
    (field : PlannedField) (row : ProposedChange) : Bool :=
  row.version == field.version || entity.queuedByPlan field.proposal row ||
    field.marked row

/-- Whether the queue transaction may queue the entity's writes. -/
def PublicationEntity.queueable (entity : PublicationEntity)
    (tables : PublicationTables) : Bool :=
  entity.fields.all fun field =>
    (tables.changes field.proposal).any fun change =>
      entity.atPlan field change.row

/-- Moves one row, which advances its version. -/
def Change.move (change : Change) (target : Execution) : Change :=
  { change with
    row := { change.row with
      execution := target
      version := change.row.version + 1 } }

/-- Queues the written proposals not queued yet. -/
def PublicationEntity.queue (entity : PublicationEntity)
    (tables : PublicationTables) : PublicationTables :=
  { tables with
    changes := fun pk =>
      (tables.changes pk).map fun change =>
        if pk ∈ entity.writes ∧ change.row.execution ≠ .queued then
          change.move .queued
        else
          change }

/-- Moves the proposals this plan queued to `target`; others stay. -/
def PublicationEntity.settle (entity : PublicationEntity)
    (target : Execution) (tables : PublicationTables) : PublicationTables :=
  { tables with
    changes := fun pk =>
      (tables.changes pk).map fun change =>
        if pk ∈ entity.writes ∧ entity.queuedByPlan pk change.row = true then
          change.move target
        else
          change }

/-- `_record`: one outcome and the proposals it finishes, in one transaction. -/
def PublicationEntity.record (entity : PublicationEntity)
    (result : AttemptResult) (tables : PublicationTables) :
    PublicationTables :=
  let recorded := { tables with
    outcomes := fun pk =>
      if pk = entity.pk then tables.outcomes pk ++ [result]
      else tables.outcomes pk }
  match result with
  | .published => entity.settle .published recorded
  | .invalidated =>
      entity.settle
        (if (tables.outcomes entity.pk).any fun earlier =>
            !earlier.isFinal then .failed else .pending)
        recorded
  | .failed _ => recorded

/-! ## The run -/

/-- What the worker did, as its log keeps it. A queue transaction is kept with
the proposals as it found them. -/
inductive PublicationEvent where
  | attempt (entity : PublicationEntity)
  | read (entity : PublicationEntity) (digest : Option String)
  | queue (entity : PublicationEntity) (found : Nat → Option Change)
  | write (entity : PublicationEntity) (payload : List (String × Text))
  | outcome (entity : PublicationEntity) (result : AttemptResult)

/-- Where a closing loop goes on. -/
inductive AfterClose where
  | attempts
  | finish

/-- Where a recorded outcome goes on. -/
inductive AfterRecord where
  | retry (left : Nat) (rest : List PublicationEntity)
  | next (rest : List PublicationEntity)
  | close (rest : List PublicationEntity) (after : AfterClose)

def AfterRecord.rest : AfterRecord → List PublicationEntity
  | .retry _ rest => rest
  | .next rest => rest
  | .close rest _ => rest

/-- The point `publish_plan` has reached. -/
inductive Control where
  | idle
  | closing (rest : List PublicationEntity) (after : AfterClose)
  | closeReading (item : PublicationEntity) (allQueued : Bool)
      (rest : List PublicationEntity) (after : AfterClose)
  | entities (rest : List PublicationEntity)
  | attempting (item : PublicationEntity) (left : Nat)
      (rest : List PublicationEntity)
  | reading (item : PublicationEntity) (left : Nat)
      (rest : List PublicationEntity)
  | evaluating (item : PublicationEntity) (fresh : Option ContactRecord)
      (left : Nat) (rest : List PublicationEntity)
  | queueing (item : PublicationEntity) (payload : List (String × Text))
      (left : Nat) (rest : List PublicationEntity)
  | writing (item : PublicationEntity) (payload : List (String × Text))
      (left : Nat) (rest : List PublicationEntity)
  | verifying (item : PublicationEntity) (left : Nat)
      (rest : List PublicationEntity)
  | recording (item : PublicationEntity) (result : AttemptResult)
      (next : AfterRecord)
  | finished

def AfterRecord.control (item : PublicationEntity) : AfterRecord → Control
  | .retry left rest => .attempting item left rest
  | .next rest => .entities rest
  | .close rest after => .closing rest after

structure PublicationState where
  tables : PublicationTables
  plan : Nat
  stopped : Bool
  control : Control
  log : List PublicationEvent

/-- A provider call's answer: a gateway error, or the record read (which may be
missing). -/
inductive GatewayAnswer where
  | error (failure : GatewayFailure)
  | answer (record : Option ContactRecord)

/-- What a step observes beside the tables: the system mode, whether a written
change's Member left its Family, and the provider. -/
structure Observed where
  production : Bool
  unlisted : Bool
  gateway : GatewayAnswer

def attemptLimit : Nat := 3

section Worker

variable [Unicode] [IsoDates]

def PublicationState.goto (state : PublicationState) (control : Control) :
    PublicationState :=
  { state with control }

def PublicationState.emit (state : PublicationState)
    (event : PublicationEvent) : PublicationState :=
  { state with log := event :: state.log }

/-- The run stops attempting: the system left Production mode. -/
def PublicationState.stop (state : PublicationState)
    (rest : List PublicationEntity) : PublicationState :=
  { state with stopped := true, control := .entities rest }

/-- The evaluation of `_attempt` after its read. -/
def evaluateAttempt (payloadDigest : ContactRecord → String)
    (seen : Observed) (state : PublicationState) (item : PublicationEntity)
    (fresh : Option ContactRecord) (left : Nat)
    (rest : List PublicationEntity) : PublicationState :=
  let digest := fresh.map payloadDigest
  if item.allQueued state.tables && digest.isSome && digest == item.plannedSha then
    state.goto (.recording item .published (.next rest))
  else if digest.isNone || digest != item.readSha then
    state.goto (.recording item .invalidated (.next rest))
  else
    let rows := item.rows state.tables
    match planEntity payloadDigest item.entityKind item.entityKey rows fresh with
    | none => state.goto .idle
    | some plan =>
        match plan.payload with
        | none => state.goto (.recording item .invalidated (.next rest))
        | some payload =>
            if !item.matchesConfirmed plan rows then
              state.goto (.recording item .invalidated (.next rest))
            else if !seen.production then
              state.stop rest
            else
              state.goto (.queueing item payload left rest)

/-- The next step of the run, given what it observes. An exception other than a
gateway error ends the run as a crash does; so does the outcome guard, which
refuses any attempt after a final outcome. -/
def advanceRun (payloadDigest : ContactRecord → String) (seen : Observed)
    (state : PublicationState) : Option PublicationState :=
  match state.control with
  | .idle => none
  | .finished => none
  | .closing [] .attempts =>
      some (state.goto (.entities (state.tables.unfinished [state.plan])))
  | .closing [] .finish => some (state.goto .finished)
  | .closing (item :: rest) after =>
      if item.anyQueued state.tables then
        some (state.goto
          (.closeReading item (item.allQueued state.tables) rest after))
      else
        some (state.goto (.recording item .invalidated (.close rest after)))
  | .closeReading item allQueued rest after =>
      match seen.gateway with
      | .error _ =>
          some (state.goto (.recording item .invalidated (.close rest after)))
      | .answer fresh =>
          let digest := fresh.map payloadDigest
          let read := state.emit (.read item digest)
          if allQueued && digest.isSome && digest == item.plannedSha then
            some (read.goto (.recording item .published (.close rest after)))
          else
            some (read.goto (.recording item .invalidated (.close rest after)))
  | .entities [] =>
      some (state.goto (.closing (state.tables.unfinished [state.plan]) .finish))
  | .entities (item :: rest) =>
      some (state.goto (.attempting item
        (if state.tables.mismatched item.pk then 0 else attemptLimit) rest))
  | .attempting item left rest =>
      match left with
      | 0 => some (state.goto (.entities rest))
      | left + 1 =>
          if state.stopped then
            some (state.goto (.entities rest))
          else if !seen.production then
            some (state.stop rest)
          else
            let attempted := state.emit (.attempt item)
            if !item.anyQueued state.tables && seen.unlisted then
              some (attempted.goto (.recording item .invalidated (.next rest)))
            else
              some (attempted.goto (.reading item left rest))
  | .reading item left rest =>
      match seen.gateway with
      | .error failure =>
          some (state.goto (.recording item (.failed (.gateway failure))
            (.retry left rest)))
      | .answer fresh =>
          some ((state.emit (.read item (fresh.map payloadDigest))).goto
            (.evaluating item fresh left rest))
  | .evaluating item fresh left rest =>
      some (evaluateAttempt payloadDigest seen state item fresh left rest)
  | .queueing item payload left rest =>
      if !seen.production then
        some (state.stop rest)
      else if item.queueable state.tables && !seen.unlisted then
        some (({ state with tables := item.queue state.tables }.emit
          (.queue item state.tables.changes)).goto
            (.writing item payload left rest))
      else
        some (state.goto (.recording item .invalidated (.next rest)))
  | .writing item payload left rest =>
      let written := state.emit (.write item payload)
      match seen.gateway with
      | .error failure =>
          some (written.goto (.recording item (.failed (.gateway failure))
            (.retry left rest)))
      | .answer _ => some (written.goto (.verifying item left rest))
  | .verifying item left rest =>
      match seen.gateway with
      | .error _ =>
          some (state.goto (.recording item (.failed .verifyUnavailable)
            (.retry left rest)))
      | .answer fresh =>
          let digest := fresh.map payloadDigest
          let read := state.emit (.read item digest)
          if digest.isSome && digest == item.plannedSha then
            some (read.goto (.recording item .published (.next rest)))
          else
            some (read.goto
              (.recording item (.failed .verifyMismatch) (.next rest)))
  | .recording item result next =>
      if state.tables.finished item.pk then
        some (state.goto .idle)
      else
        some (({ state with tables := item.record result state.tables }.emit
          (.outcome item result)).goto (next.control item))

/-- A new run of a confirmed plan: earlier expired plans are closed first. -/
def startRun (plan : Nat) (expired : List Nat) (state : PublicationState) :
    PublicationState :=
  { state with
    plan
    stopped := expired.contains plan
    control := .closing
      (state.tables.unfinished (expired.filter (· != plan))) .attempts }

/-! ## Other writers -/

/-- A write of one proposal by anyone but the publish worker: a Family response
makes or replaces it, a review, resolution or refresh takes it on, a preflight
marks it as already in ParishSoft, a refresh check finds it undone there. -/
inductive OtherWrite : Option Change → Change → Prop where
  | created {change : Change} (made : change.Created) :
      OtherWrite none change
  | operation {change next : Change} (op : ChangeOp)
      (applied : op.apply change = some next) : OtherWrite (some change) next
  | replaced {change : Change} (successor : Option Nat)
      (isOpen : change.row.execution.isOpen = true) :
      OtherWrite (some change) { change with
        row := { change.row with
          execution := if successor.isSome then .superseded else .cancelled
          supersededBy := successor
          version := change.row.version + 1 } }
  | marked {change : Change}
      (isOpen : change.row.execution = .pending ∨
        change.row.execution = .failed)
      (decided : change.row.decision = .approved) :
      OtherWrite (some change) (change.move .published)
  | refreshConflict {change : Change} {current : KnownValue}
      (updated : change.row.execution = .published) :
      OtherWrite (some change) { change with
        row := { change.row with
          current
          currentSource := change.generation
          execution := .conflict
          decision := .unreviewed
          version := change.row.version + 1 } }

inductive PublicationOp where
  | start (plan : Nat) (expired : List Nat)
  | advance (seen : Observed)
  | crash
  | confirm (entities : List PublicationEntity)
  | otherWrite (pk : Nat) (change : Change)

def PublicationOp.apply (payloadDigest : ContactRecord → String) :
    PublicationOp → PublicationState → Option PublicationState
  | .start plan expired, state =>
      match state.control with
      | .idle => some (startRun plan expired state)
      | .finished => some (startRun plan expired state)
      | _ => none
  | .advance seen, state => advanceRun payloadDigest seen state
  | .crash, state => some (state.goto .idle)
  | .confirm entities, state =>
      some { state with tables := { state.tables with
        entities := state.tables.entities ++ entities } }
  | .otherWrite pk change, state =>
      some { state with tables := state.tables.setChange pk change }

/-- A run starts on a confirmed plan; a confirmation is of one new plan; another
writer writes as it can. -/
def PublicationOp.Allowed (state : PublicationState) : PublicationOp → Prop
  | .start plan _ =>
      ∃ entity ∈ state.tables.entities, entity.plan = plan
  | .confirm entities =>
      (entities.map (·.pk)).Nodup ∧
        ∀ entity ∈ entities, state.tables.outcomes entity.pk = [] ∧
          ∀ earlier ∈ state.tables.entities,
            earlier.pk ≠ entity.pk ∧ earlier.plan ≠ entity.plan
  | .otherWrite pk change => OtherWrite (state.tables.changes pk) change
  | _ => True

/-- No proposals, no plans and no run. -/
def PublicationState.initial : PublicationState where
  tables := ⟨fun _ => none, [], fun _ => []⟩
  plan := 0
  stopped := false
  control := .idle
  log := []

end Worker

end ParishKit.Responses
