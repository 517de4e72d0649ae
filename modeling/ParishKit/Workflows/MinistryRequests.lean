import ParishKit.Pipeline

/-!
# Ministry requests and their review

The requests of one Family in live mode, and what Staff and Ministry leaders do
with them. A request holds its own Ministry and the one an Edit carried forward.
`none` is a refusal.
-/

namespace ParishKit.Workflows

open ParishKit.Pipeline ParishKit.Responses

/-- Whom a request is about. -/
structure Entity where
  kind : EntityKind
  key : String
deriving DecidableEq, Repr

inductive RosterAction where
  | join
  | leave
deriving DecidableEq, Repr

inductive RequestState where
  | new
  | assigned
  | inProgress
  | resolved
  | closedNoResponse
  | cancelled
  | superseded
deriving DecidableEq, Repr

def RequestState.actionable : RequestState → Bool
  | .new => true
  | .assigned => true
  | .inProgress => true
  | _ => false

def RequestState.decided : RequestState → Bool
  | .resolved => true
  | .closedNoResponse => true
  | _ => false

/-- Cancelled and superseded requests are history. -/
def RequestState.inForce : RequestState → Bool
  | .cancelled => false
  | .superseded => false
  | _ => true

inductive RequestOutcome where
  | joined
  | leaveConfirmed
  | declined
  | noResponse
  | duplicate
  | other
deriving DecidableEq, Repr

/-- One requested roster action. `familyVersion` is that of its response;
`reviewed` is the Ministry an Edit carries forward. -/
structure MinistryRequest where
  pk : Nat
  familyVersion : Nat
  entity : Entity
  ministry : Nat
  action : RosterAction
  state : RequestState := .new
  outcome : Option RequestOutcome := none
  sourceResolved : Bool := false
  supersededBy : Option Nat := none
  reviewed : Option Nat := none
  parishAdded : Bool := false
  inPlaceOf : Option Nat := none
  version : Nat := 1
deriving DecidableEq

namespace MinistryRequest

/-- The Ministries a request holds: Back to review can return it to the first. -/
def holds (request : MinistryRequest) (ministry : Nat) : Bool :=
  request.ministry == ministry || request.reviewed == some ministry

def sameKey (left right : MinistryRequest) : Bool :=
  left.entity == right.entity && left.ministry == right.ministry

def currentMinistry (request : MinistryRequest) : Nat :=
  request.reviewed.getD request.ministry

/-- The projection of a revision. -/
def revise (state : RequestState) (outcome : Option RequestOutcome)
    (reviewed : Option Nat) (request : MinistryRequest) : MinistryRequest :=
  { request with
    state, outcome, reviewed
    sourceResolved := false
    version := request.version + 1 }

end MinistryRequest

/-- A revision of a request, as far as it is read back: the Edit it records. -/
structure WorkflowRevision where
  pk : Nat
  request : Nat
  expectedVersion : Nat
  reviewed : Option Nat
deriving DecidableEq

/-- One Family's requests in live mode. `entered` is each request's latest roster
tick, `confirmed` the version at which a refresh check confirmed it. -/
structure MinistryBook where
  requests : List MinistryRequest
  revisions : List WorkflowRevision
  entered : Nat → Bool
  confirmed : Nat → Option Nat
  familyVersion : Nat

namespace MinistryBook

def empty : MinistryBook :=
  ⟨[], [], fun _ => false, fun _ => none, 0⟩

def request? (book : MinistryBook) (pk : Nat) : Option MinistryRequest :=
  book.requests.find? fun request => request.pk == pk

def revision? (book : MinistryBook) (pk : Nat) : Option WorkflowRevision :=
  book.revisions.find? fun revision => revision.pk == pk

/-- No later response of the Family replaced the request. -/
def isLatest (book : MinistryBook) (request : MinistryRequest) : Bool :=
  book.requests.all fun other =>
    !request.sameKey other || other.familyVersion ≤ request.familyVersion

/-- Whether the entity already has a request in force for the Ministry. -/
def currentRequest (book : MinistryBook) (entity : Entity) (ministry : Nat)
    (exclude : Option Nat) : Bool :=
  book.requests.any fun other =>
    other.entity == entity && other.state.inForce && other.holds ministry &&
      some other.pk != exclude

def update (book : MinistryBook) (pk : Nat)
    (change : MinistryRequest → MinistryRequest) : MinistryBook :=
  { book with
    requests := book.requests.map fun request =>
      if request.pk = pk then change request else request }

def setEntered (book : MinistryBook) (pk : Nat) (value : Bool) : MinistryBook :=
  { book with
    entered := fun other => if other = pk then value else book.entered other }

end MinistryBook

/-! ## Stages -/

def rosterOutcome : RequestOutcome → Bool
  | .joined => true
  | .leaveConfirmed => true
  | _ => false

def ignoredOutcome : RequestOutcome → Bool
  | .declined => true
  | .duplicate => true
  | .other => true
  | _ => false

/-- `ministry_placement`. -/
def ministryPlacement (state : RequestState) (outcome : Option RequestOutcome)
    (sourceResolved rosterEntered confirmed : Bool) : Option Placement :=
  if state.actionable then
    some { stage := .toReview }
  else if !state.inForce then
    some { stage := .history }
  else if state = .closedNoResponse ∧ outcome = some .noResponse then
    some { stage := .ignored, decision := some .ignored }
  else if state = .resolved ∧ outcome.any ignoredOutcome = true then
    some { stage := .ignored, decision := some .ignored }
  else if state = .resolved ∧ outcome.any rosterOutcome = true then
    if sourceResolved then
      some { stage := .confirmed }
    else if confirmed then
      some { stage := .confirmed, decision := some .accepted }
    else if rosterEntered then
      some { stage := .enteredByHand, decision := some .accepted }
    else
      some { stage := .toEnterByHand, decision := some .accepted }
  else
    none

/-- `placement`: the stage with the decision the pipeline words it by. -/
def MinistryBook.placement (book : MinistryBook) (request : MinistryRequest) :
    Option Placement :=
  (ministryPlacement request.state request.outcome request.sourceResolved
    (book.entered request.pk)
    (book.confirmed request.pk == some request.version)).map fun found =>
      if found.decision = some .accepted ∧ request.parishAdded = true then
        { found with decision := some .added }
      else if found.decision = some .accepted ∧
          request.reviewed.isSome = true then
        { found with decision := some .acceptedEdited }
      else
        found

inductive ReviewAction where
  | accept
  | edit (ministry : Nat)
  | ignore
  | backToReview
  | enteredByHand
deriving DecidableEq, Repr

/-- What a stage offers on a Ministry request. -/
def offers : Stage → ReviewAction → Bool
  | .toReview, .accept => true
  | .toReview, .edit _ => true
  | .toReview, .ignore => true
  | .ignored, .backToReview => true
  | .toEnterByHand, .backToReview => true
  | .toEnterByHand, .enteredByHand => true
  | .enteredByHand, .backToReview => true
  | .confirmed, .backToReview => true
  | _, _ => false

def acceptOutcome : RosterAction → RequestOutcome
  | .join => .joined
  | .leave => .leaveConfirmed

/-- The projection of a request the refresh resolves. -/
def MinistryRequest.resolveFromSource (request : MinistryRequest) :
    MinistryRequest :=
  { request with
    state := .resolved
    outcome := some (acceptOutcome request.action)
    sourceResolved := true
    version := request.version + 1 }

/-! ## Decisions -/

namespace MinistryBook

/-- `write_revision`: one revision and its exact projection. -/
def writeRevision (book : MinistryBook) (request : MinistryRequest)
    (state : RequestState) (outcome : Option RequestOutcome)
    (reviewed : Option Nat) : MinistryBook :=
  { book.update request.pk (MinistryRequest.revise state outcome reviewed) with
    revisions := book.revisions ++
      [⟨book.revisions.length, request.pk, request.version, reviewed⟩] }

/-- `_undo`: removes only the terminal step. A decided request keeps its outcome
and its Edit; one the refresh resolved goes back to In progress. -/
def undo (book : MinistryBook) (request : MinistryRequest)
    (current : Placement) : MinistryBook :=
  let undone :=
    if current.decision.isSome then
      book.writeRevision request .resolved request.outcome request.reviewed
    else
      book.writeRevision request .inProgress none none
  if book.entered request.pk then undone.setEntered request.pk false
  else undone

/-- A worklist decision on one request at the version the page showed. -/
def decide (book : MinistryBook) (pk version : Nat) (noted : Bool)
    (action : ReviewAction) : Option MinistryBook := do
  let request ← book.request? pk
  let current ← book.placement request
  if request.version ≠ version ∨ offers current.stage action = false then
    none
  else
    match action with
    | .enteredByHand => some (book.setEntered pk true)
    | .backToReview =>
        if book.isLatest request = false then
          none
        else if terminalStage current.stage then
          if noted then some (book.undo request current) else none
        else
          some (book.writeRevision request .inProgress none none)
    | .accept =>
        if book.isLatest request = false then none
        else some (book.writeRevision request .resolved
          (some (acceptOutcome request.action)) none)
    | .ignore =>
        if book.isLatest request = false then none
        else some (book.writeRevision request .resolved (some .declined) none)
    | .edit ministry =>
        if book.isLatest request = false ∨ ministry = request.ministry ∨
            book.currentRequest request.entity ministry (some pk) = true then
          none
        else
          some (book.writeRevision request .resolved
            (some (acceptOutcome request.action)) (some ministry))

/-- `undo_entered`: the request page's Back to review of the tick. -/
def undoEntered (book : MinistryBook) (pk : Nat) (noted : Bool) :
    Option MinistryBook := do
  let request ← book.request? pk
  let current ← book.placement request
  if noted = true ∧ book.entered pk = true ∧ request.state = .resolved ∧
      request.outcome.any rosterOutcome = true ∧
      request.sourceResolved = false then
    some (book.undo request current)
  else
    none

/-- An addition stands in place of the same entity's ignored request only. -/
def replacesIgnored (book : MinistryBook) (entity : Entity) :
    Option Nat → Bool
  | none => true
  | some pk =>
      (book.request? pk).any fun found =>
        found.entity == entity && (found.state == .closedNoResponse ||
          (found.state == .resolved && !found.outcome.any rosterOutcome))

/-- Add: a request the Family did not ask for, on its latest response and
accepted. -/
def add (book : MinistryBook) (member : String) (ministry : Nat)
    (action : RosterAction) (inPlaceOf : Option Nat) : Option MinistryBook :=
  let entity : Entity := ⟨.member, member⟩
  let occupied := book.requests.any fun other =>
    other.entity == entity && other.ministry == ministry &&
      other.familyVersion == book.familyVersion
  if book.familyVersion = 0 ∨
      book.currentRequest entity ministry none = true ∨
      book.replacesIgnored entity inPlaceOf = false ∨ occupied = true then
    none
  else
    let request : MinistryRequest :=
      { pk := book.requests.length, familyVersion := book.familyVersion
        entity, ministry, action, inPlaceOf, parishAdded := true }
    let added := { book with requests := book.requests ++ [request] }
    some (added.writeRevision request .resolved
      (some (acceptOutcome action)) none)

/-- A refresh finds the Family's own request already in the roster. -/
def refreshResolve (book : MinistryBook) (pk : Nat) : Option MinistryBook := do
  let request ← book.request? pk
  if request.state.actionable = true then
    some (book.update pk MinistryRequest.resolveFromSource)
  else
    none

/-- A refresh check finds an accepted request in the roster. -/
def refreshConfirm (book : MinistryBook) (pk : Nat) : Option MinistryBook := do
  let request ← book.request? pk
  some { book with
    confirmed := fun other =>
      if other = pk then some request.version else book.confirmed other }

end MinistryBook

end ParishKit.Workflows
