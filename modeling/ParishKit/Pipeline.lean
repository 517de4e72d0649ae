import ParishKit.Responses.Change

/-!
# The review pipeline

A stage is never stored. It is derived from a change's decision and execution,
and says where an undo goes and which value a reviewed form shows.
-/

namespace ParishKit.Pipeline

open ParishKit.Responses

inductive Stream where
  | census
  | ministry
  | financial
  | cannotParticipate
  | additionalInformation
deriving DecidableEq, Repr

inductive Stage where
  | toReview
  | conflict
  | ignored
  | readyToUpdate
  | updating
  | updated
  | toEnterByHand
  | enteredByHand
  | enteredIncorrectly
  | toHandle
  | handled
  | confirmed
  | history
deriving DecidableEq, Repr

/-- A review decision in force on an item. -/
inductive StageDecision where
  | accepted
  | acceptedEdited
  | ignored
  | added
deriving DecidableEq, Repr

structure Placement where
  stage : Stage
  decision : Option StageDecision := none
  heldDecision : Option StageDecision := none
  failed : Bool := false
deriving DecidableEq, Repr

/-- The refresh check outcomes that move a final census change on. -/
inductive CheckOutcome where
  | unchanged
  | confirmed
  | enteredIncorrectly
deriving DecidableEq, Repr

/-! ## Census placement -/

/-- Decision and execution pairs no guard ever stores. -/
def censusImpossible : Decision → Execution → Bool
  | .ignored, .resolvedExternal => true
  | .ignored, .queued => true
  | .ignored, .published => true
  | .unreviewed, .queued => true
  | .unreviewed, .published => true
  | _, _ => false

def censusFinal : Execution → Option Stage
  | .superseded => some .history
  | .cancelled => some .history
  | .resolvedUpstream => some .confirmed
  | .resolvedExternal => some .enteredByHand
  | .published => some .updated
  | .queued => some .updating
  | _ => none

/-- Whether a person, not the update run, carries a census change. -/
def censusByHand (handling : Handling) (entityKind : EntityKind) : Bool :=
  handling != .api || entityKind == .family

/-- A final change's placement, with what its refresh check says of it. -/
def finalPlacement (stage : Stage) (decision : Decision)
    (acceptance : StageDecision) (check : Option CheckOutcome) : Placement :=
  if stage = .history then
    { stage }
  else if stage = .confirmed ∧ decision ≠ .approved then
    { stage }
  else if check = some .confirmed ∧
      (stage = .enteredByHand ∨ stage = .updated) then
    { stage := .confirmed, decision := some acceptance }
  else if check = some .enteredIncorrectly ∧ stage = .enteredByHand then
    { stage := .enteredIncorrectly, decision := some acceptance }
  else
    { stage, decision := some acceptance }

/-- `census_placement`. The outer `none` is the source's refusal of an unknown
state, the inner one a report-only change, which has no census stage. -/
def censusPlacement (decision : Decision) (execution : Execution)
    (handling : Handling) (entityKind : EntityKind) (edited : Bool)
    (check : Option CheckOutcome) : Option (Option Placement) :=
  if censusImpossible decision execution then
    none
  else if handling = .reportOnly then
    some none
  else
    let acceptance : StageDecision := if edited then .acceptedEdited else .accepted
    let failed := execution == .failed
    match censusFinal execution with
    | some stage => some (some (finalPlacement stage decision acceptance check))
    | none =>
        if decision = .ignored then
          some (some { stage := .ignored, decision := some .ignored })
        else if execution = .conflict then
          some (some {
            stage := .conflict
            heldDecision := if decision = .approved then some acceptance else none })
        else if decision = .unreviewed then
          some (some { stage := .toReview, failed })
        else if failed || !censusByHand handling entityKind then
          some (some { stage := .readyToUpdate, decision := some acceptance, failed })
        else
          some (some { stage := .toEnterByHand, decision := some acceptance })

def terminalStage : Stage → Bool
  | .enteredByHand => true
  | .enteredIncorrectly => true
  | .handled => true
  | .updated => true
  | .confirmed => true
  | _ => false

/-- Where Back to review sends an item. -/
def undoStage (stream : Stream) (placement : Placement) (byHand : Bool) :
    Stage :=
  if !terminalStage placement.stage || placement.decision.isNone then
    .toReview
  else if placement.stage = .handled then
    .toHandle
  else if placement.stage = .updated ∨ (stream = .census ∧ byHand = false) then
    .readyToUpdate
  else
    .toEnterByHand

/-- A step entered by hand has a decision behind it, so undoing it never goes
back to review. -/
theorem undoStage_of_entered
    {decision : Decision} {handling : Handling} {entityKind : EntityKind}
    {edited : Bool} {placement : Placement} (byHand : Bool)
    (placed : censusPlacement decision .resolvedExternal handling entityKind
      edited none = some (some placement)) :
    undoStage .census placement byHand ≠ .toReview := by
  cases decision <;> cases handling <;> cases placed <;> cases byHand <;>
    exact fun impossible => Stage.noConfusion impossible

/-! ## The reviewed form -/

/-- Which value a reviewed form shows for one item. -/
inductive Shown where
  | family
  | reviewer
  | baseline
  | parish
deriving DecidableEq, Repr

def markedStream : Stream → Bool
  | .census => true
  | .ministry => true
  | _ => false

/-- `shown_value`: `none` for an item with no shown value of its own. -/
def shownValue (stream : Stream) (placement : Placement)
    (baselineShown : Bool) : Option Shown :=
  if placement.stage = .history ∨
      (placement.stage = .confirmed ∧ stream ≠ .financial) then
    none
  else if stream = .cannotParticipate ∨ stream = .additionalInformation then
    some .family
  else if placement.stage = .toReview ∨ placement.stage = .conflict then
    some .family
  else if placement.stage = .ignored then
    if baselineShown && markedStream stream then some .baseline else some .family
  else if placement.decision = some .acceptedEdited ∨
      placement.decision = some .added then
    some .reviewer
  else
    some .family

theorem shownValue_cases
    {stream : Stream} {placement : Placement} {baselineShown : Bool}
    {shown : Shown}
    (found : shownValue stream placement baselineShown = some shown) :
    shown ≠ .parish ∧ (shown = .baseline → baselineShown = true) ∧
      (shown = .reviewer → placement.decision = some .acceptedEdited ∨
        placement.decision = some .added) := by
  unfold shownValue at found
  repeat' split at found
  all_goals cases found <;> simp_all

/-- A final placement's decision is the acceptance behind it, or none. -/
theorem finalPlacement_decision
    (stage : Stage) (decision : Decision) (acceptance : StageDecision)
    (check : Option CheckOutcome) :
    (finalPlacement stage decision acceptance check).decision = none ∨
      (finalPlacement stage decision acceptance check).decision =
        some acceptance := by
  unfold finalPlacement
  repeat' split
  all_goals simp

/-- A change that was not edited is never shown with the reviewer's value. -/
theorem decision_of_unedited
    {decision : Decision} {execution : Execution} {handling : Handling}
    {entityKind : EntityKind} {check : Option CheckOutcome}
    {placement : Placement}
    (placed : censusPlacement decision execution handling entityKind false
      check = some (some placement)) :
    placement.decision ≠ some .acceptedEdited ∧
      placement.decision ≠ some .added := by
  unfold censusPlacement at placed
  split at placed
  · cases placed
  · split at placed
    · cases placed
    · dsimp only at placed
      split at placed
      · rename_i stage final
        cases placed
        rcases finalPlacement_decision stage decision .accepted check with
          none | accepted
        · simp [none]
        · simp [accepted]
      · repeat' split at placed
        all_goals
          cases placed
          simp_all

/-- An open change has a stage of the worklist, which a form shows. -/
theorem shownValue_of_open
    {decision : Decision} {execution : Execution} {handling : Handling}
    {entityKind : EntityKind} {edited : Bool} {check : Option CheckOutcome}
    {placement : Placement} (isOpen : execution.isOpen = true)
    (placed : censusPlacement decision execution handling entityKind edited
      check = some (some placement)) (baselineShown : Bool) :
    (shownValue .census placement baselineShown).isSome = true := by
  have shows : placement.stage ≠ .history ∧ placement.stage ≠ .confirmed := by
    unfold censusPlacement at placed
    split at placed
    · cases placed
    · split at placed
      · cases placed
      · dsimp only at placed
        split at placed
        · rename_i stage final
          cases placed
          cases execution <;> simp_all [Execution.isOpen, censusFinal,
            finalPlacement]
          subst final
          simp
        · repeat' split at placed
          all_goals
            cases placed
            simp
  unfold shownValue
  simp only [shows.1, shows.2, false_and, or_self, if_false]
  repeat' split
  all_goals rfl

/-! ## Confirmation by a refresh -/

/-- What one promoted refresh does to one item. -/
inductive RefreshOutcome where
  | confirmed
  | alreadyHeld
  | unchanged
  | notSeen
  | enteredIncorrectly
  | conflict
  | ignoredNowMatches
  | entityGone
deriving DecidableEq, Repr

/-- The source's `REEVALUATED_STAGES`. -/
def Stage.reevaluated : Stage → Bool
  | .toHandle => false
  | .handled => false
  | .confirmed => false
  | .history => false
  | _ => true

def Stage.entered : Stage → Bool
  | .enteredByHand => true
  | .enteredIncorrectly => true
  | _ => false

/-- The stages after an item's processing step. -/
def Stage.processed (stage : Stage) : Bool :=
  stage.entered || stage == .updating || stage == .updated

/-- An item whose value ParishSoft now holds. -/
def heldOutcome (stage : Stage) : RefreshOutcome :=
  if stage = .ignored then .ignoredNowMatches
  else if stage.processed then .confirmed
  else .alreadyHeld

/-- `refresh_outcome`. `same` is the stream's comparison, which may raise; the
result is `none` when it does, or for a stage no refresh re-evaluates. A missing
`marked` is the source's unset one, a missing `notSeenAfter` its infinity. -/
def refreshOutcome {α : Type} (same : α → α → Option Bool) (stage : Stage)
    (refreshed answeredAgainst carriedForward : α) (markedAgainst : Option α)
    (present : Bool) (fullRefreshesUnchanged : Nat)
    (notSeenAfter : Option Nat) : Option RefreshOutcome :=
  if !stage.reevaluated then
    none
  else if !present then
    some .entityGone
  else
    (same refreshed carriedForward).bind fun held =>
      if held then
        some (heldOutcome stage)
      else if stage.entered then
        (same refreshed (markedAgainst.getD answeredAgainst)).map fun atMark =>
          if !atMark then
            .enteredIncorrectly
          else if stage = .enteredByHand ∧
              notSeenAfter.any (fun threshold =>
                decide (threshold ≤ fullRefreshesUnchanged)) = true then
            .notSeen
          else
            .unchanged
      else if stage = .ignored then
        some .unchanged
      else
        (same refreshed answeredAgainst).map fun atAnswer =>
          if atAnswer && stage != .updated then .unchanged else .conflict

end ParishKit.Pipeline
