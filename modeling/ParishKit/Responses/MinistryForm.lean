import Mathlib.Data.Char
import Mathlib.Data.List.Lex
import Mathlib.Data.List.Sort
import ParishKit.Workflows.MinistryRequests

/-!
# The reviewed form's Ministry choices

`ministry_entries` records what a form shows for each request in force,
`ministry_draw` draws the choices from the entries, and the derivation judges a
response against them. All rows are read before anything is written, so a
derivation is a pure function of the book and the response.
-/

namespace ParishKit.Responses

open ParishKit.Pipeline ParishKit.Workflows

/-! ## Entries -/

/-- One shown item of the form. -/
structure MinistryEntry where
  entity : Entity
  ministry : Nat
  action : RosterAction
  item : Nat
  version : Nat
  decision : Option Nat
  shown : Shown
deriving DecidableEq

/-- What the form offers and the roster of each listed Member. `proposed` are
the new Members of the census answer before. -/
structure MinistryInputs where
  options : List Nat
  memberships : List (String × List Nat)
  proposed : List String

namespace MinistryInputs

def roster (inputs : MinistryInputs) (entity : Entity) : Option (List Nat) :=
  if entity.kind = .member then
    (inputs.memberships.find? fun row => row.1 == entity.key).map Prod.snd
  else
    some []

end MinistryInputs

/-- A join of a Ministry the Member is not in, or a leave of one they are in. -/
def drawable (action : RosterAction) (ministry : Nat) (roster : List Nat) :
    Bool :=
  (action == .join) != roster.contains ministry

def entityKindRank : EntityKind → Nat
  | .family => 0
  | .member => 1
  | .proposedMember => 2

def entityLe (left right : Entity) : Bool :=
  if left.kind ≠ right.kind then
    decide (entityKindRank left.kind ≤ entityKindRank right.kind)
  else
    decide (left.key.toList ≤ right.key.toList)

/-- The order of `request_index`. -/
def indexLe (left right : MinistryRequest) : Bool :=
  if left.entity ≠ right.entity then entityLe left.entity right.entity
  else decide (left.ministry ≤ right.ministry)

/-- `request_index`: the latest request of each entity and Ministry, history
included. -/
def requestIndex (book : MinistryBook) : List MinistryRequest :=
  (book.requests.filter fun request => book.isLatest request).insertionSort
    fun left right => indexLe left right

/-- The revision whose Edit carried the request's Ministry forward. -/
def editRevision (book : MinistryBook) (request : MinistryRequest) :
    Option WorkflowRevision :=
  (book.revisions.filter fun revision =>
    revision.request == request.pk && revision.reviewed == request.reviewed)
    |>.getLast?

/-- The Ministry a placement shows chosen when the entry is recorded. -/
def recordedMinistry (request : MinistryRequest) (shown : Shown) : Nat :=
  if shown = .reviewer then request.currentMinistry else request.ministry

/-- The entry of one request, when the form can draw it. -/
def ministryEntry (inputs : MinistryInputs) (book : MinistryBook)
    (request : MinistryRequest) : Option MinistryEntry := do
  let roster ← inputs.roster request.entity
  let placement ← book.placement request
  let shown ← shownValue .ministry placement true
  let ministry := recordedMinistry request shown
  let entry (decision : Option Nat) : MinistryEntry :=
    ⟨request.entity, request.ministry, request.action, request.pk,
      request.version, decision, shown⟩
  if inputs.options.contains ministry = false ∨
      drawable request.action ministry roster = false then
    none
  else if shown = .reviewer ∧ request.reviewed.isSome = true then
    (editRevision book request).map fun revision => entry (some revision.pk)
  else
    some (entry none)

def ministryEntries (inputs : MinistryInputs) (book : MinistryBook) :
    List MinistryEntry :=
  ((requestIndex book).filter fun request => request.state.inForce).filterMap
    (ministryEntry inputs book)

/-- The order of `identity`, whose Ministry is text. -/
def identityLe (left right : MinistryEntry) : Bool :=
  if left.entity ≠ right.entity then entityLe left.entity right.entity
  else if left.ministry ≠ right.ministry then
    decide ((toString left.ministry).toList ≤ (toString right.ministry).toList)
  else
    decide (left.action = .join ∨ right.action = .leave)

/-- `shown_items`: the entries a reviewed form records. -/
def shownItems (inputs : MinistryInputs) (book : MinistryBook) :
    List MinistryEntry :=
  (ministryEntries inputs book).insertionSort
    fun left right => identityLe left right

/-- The Ministry an entry showed chosen, read back; `none` for the baseline. -/
def ministryShown (entry : MinistryEntry) (request : MinistryRequest)
    (revision : Option WorkflowRevision) : Option Nat :=
  match entry.shown, revision with
  | .baseline, _ => none
  | .reviewer, some edit => edit.reviewed
  | _, _ => some request.ministry

def readShown (book : MinistryBook) (entry : MinistryEntry)
    (request : MinistryRequest) : Option Nat :=
  ministryShown entry request (entry.decision.bind book.revision?)

/-! ## Responses -/

/-- One chosen roster action. -/
structure Choice where
  entity : Entity
  action : RosterAction
  ministry : Nat
deriving DecidableEq

/-- A response's Ministry answers: whom it answers, and what it chooses. -/
structure MinistryAnswers where
  answered : List Entity
  chosen : List Choice
  distinct : chosen.Nodup
  inScope : ∀ choice ∈ chosen, choice.entity ∈ answered

/-- `ministry_draw`: the choices a reviewed form draws. -/
def ministryDraw (book : MinistryBook) (entries : List MinistryEntry) :
    List Choice :=
  entries.filterMap fun entry => do
    let request ← book.request? entry.item
    let shown ← readShown book entry request
    some ⟨entry.entity, entry.action, shown⟩

/-- A request a response makes; `replaces` is the one it supersedes. -/
structure NewRequest where
  entity : Entity
  ministry : Nat
  action : RosterAction
  state : RequestState
  replaces : Option Nat
deriving DecidableEq

/-- What a derivation has decided so far. `previous` are the indexed requests not
judged yet, `remaining` the choices not accounted for. -/
structure Derivation where
  previous : List MinistryRequest
  remaining : List Choice
  created : List NewRequest
  cancelled : List Nat

namespace Derivation

def pop (work : Derivation) (entity : Entity) (ministry : Nat) : Derivation :=
  { work with
    previous := work.previous.filter fun old =>
      !(old.entity == entity && old.ministry == ministry) }

def discard (work : Derivation) (choice : Choice) : Derivation :=
  { work with remaining := work.remaining.filter fun other => other != choice }

end Derivation

/-- The Family neither replaces nor withdraws a request that is ticked Entered in
ParishSoft or that the parish added. -/
def isProtected (book : MinistryBook) (request : MinistryRequest) : Bool :=
  request.parishAdded || book.entered request.pk

/-- `_derive_reviewed` on one shown request. -/
def judgeEntry (book : MinistryBook) (answered : List Entity)
    (work : Derivation) (entry : MinistryEntry) : Derivation :=
  match book.request? entry.item with
  | none => work
  | some request =>
      if request.state.inForce = false ∨ entry.entity ∉ answered then
        work
      else
        let popped := work.pop entry.entity entry.ministry
        let choice (ministry : Nat) : Choice :=
          ⟨entry.entity, entry.action, ministry⟩
        let shown := readShown book entry request
        let isOpen := isProtected book request = false
        if shown ≠ some request.ministry ∧
            choice request.ministry ∈ work.remaining then
          { popped.discard (choice request.ministry) with
            created := work.created ++ [{
              entity := entry.entity
              ministry := request.ministry
              action := request.action
              state := .new
              replaces := if isOpen then some request.pk else none }] }
        else
          match shown with
          | none => popped
          | some ministry =>
              if choice ministry ∈ work.remaining then
                popped.discard (choice ministry)
              else if isOpen then
                { popped with cancelled := work.cancelled ++ [request.pk] }
              else
                popped

/-- The derivation of one choice the form's requests do not account for. -/
def deriveChoice (work : Derivation) (choice : Choice) : Derivation :=
  let old := work.previous.find? fun old =>
    old.entity == choice.entity && old.ministry == choice.ministry
  let popped := work.pop choice.entity choice.ministry
  let same (request : MinistryRequest) : Bool := request.action == choice.action
  if old.any fun request => request.state.decided && same request then
    popped
  else
    { popped with
      created := work.created ++ [{
        entity := choice.entity
        ministry := choice.ministry
        action := choice.action
        state := ((old.filter fun request =>
          request.state.actionable && same request).map (·.state)).getD .new
        replaces := (old.filter fun request =>
          request.state.actionable).map (·.pk) }] }

/-- Whether the final pass withdraws an open request nothing accounted for. -/
def withdrawn (inputs : MinistryInputs) (old : MinistryRequest) : Bool :=
  old.state.actionable && inputs.options.contains old.ministry &&
    (old.entity.kind != .member ||
      inputs.memberships.any fun row => row.1 == old.entity.key) &&
    (old.entity.kind != .proposedMember ||
      inputs.proposed.contains old.entity.key) &&
    !old.parishAdded

/-- The reviewed form's shown requests are judged first. -/
def judgeEntries (book : MinistryBook) (answers : MinistryAnswers)
    (entries : List MinistryEntry) : Derivation :=
  entries.foldl (judgeEntry book answers.answered)
    ⟨requestIndex book, answers.chosen, [], []⟩

/-- `derive_ministry_requests`. A form drawn before the reviewed form shows no
entries. -/
def deriveMinistryRequests (book : MinistryBook) (inputs : MinistryInputs)
    (entries : List MinistryEntry) (answers : MinistryAnswers) : Derivation :=
  let judged := judgeEntries book answers entries
  let derived := judged.remaining.foldl deriveChoice judged
  { derived with
    cancelled := derived.cancelled ++
      (derived.previous.filter fun old => withdrawn inputs old).map (·.pk) }

/-! ## Writing a derivation -/

def Derivation.closes (work : Derivation) (pk : Nat) : Bool :=
  work.cancelled.contains pk ||
    work.created.any fun new => new.replaces == some pk

/-- The state a derivation leaves a request in. -/
def Derivation.close (work : Derivation) (size : Nat)
    (request : MinistryRequest) : MinistryRequest :=
  match work.created.findIdx? fun new => new.replaces == some request.pk with
  | some index =>
      { request with
        state := .superseded, supersededBy := some (size + index)
        outcome := none, reviewed := none, version := request.version + 1 }
  | none =>
      if work.cancelled.contains request.pk then
        { request with
          state := .cancelled, outcome := none, reviewed := none
          version := request.version + 1 }
      else
        request

/-- The rows a derivation makes, on the response of this version. -/
def Derivation.rows (work : Derivation) (size familyVersion : Nat) :
    List MinistryRequest :=
  work.created.zipIdx.map fun (new, index) =>
    { pk := size + index, familyVersion, entity := new.entity
      ministry := new.ministry, action := new.action, state := new.state }

/-- A Family submission: its derivation, written with the next response. A
response has one request of an entity and a Ministry. -/
def submit (book : MinistryBook) (inputs : MinistryInputs)
    (entries : List MinistryEntry) (answers : MinistryAnswers) :
    Option MinistryBook :=
  let work := deriveMinistryRequests book inputs entries answers
  let size := book.requests.length
  if (work.created.map fun new => (new.entity, new.ministry)).Nodup then
    some { book with
      requests := book.requests.map (work.close size) ++
        work.rows size (book.familyVersion + 1)
      familyVersion := book.familyVersion + 1 }
  else
    none

end ParishKit.Responses
