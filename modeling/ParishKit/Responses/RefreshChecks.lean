import Mathlib.Data.List.DropRight
import Mathlib.Logic.Function.Basic
import Mathlib.Order.Basic

/-!
# Refresh checks

Each promoted refresh compares every final or decided item with the new data, and
stores a check only when one is owed. Reading the stored checks back gives the
latest outcome of each item, and how many full refreshes in a row have found a
marked item unchanged: at the threshold it is flagged Not seen in ParishSoft.
-/

namespace ParishKit.Responses

/-- What one stored check found: the source's `REFRESH_OUTCOMES`. -/
inductive CheckedOutcome where
  | confirmed
  | unchanged
  | enteredIncorrectly
  | ignoredNowMatches
  | conflict
deriving DecidableEq, Repr

/-- The Not seen start row, with the bounds its table requires. -/
structure CheckStart where
  startedAt : Int
  notSeenAfter : Nat
  atLeastOne : 1 ≤ notSeenAfter
  atMostTen : notSeenAfter ≤ 10
deriving DecidableEq, Repr

/-- One stored check, as the summaries read it. -/
structure CheckRow (Item Observed : Type) where
  item : Item
  createdAt : Int
  outcome : CheckedOutcome
  full : Bool
  observed : Option Observed
deriving DecidableEq, Repr

/-- One item's latest check and its run of unchanged full refreshes. -/
structure CheckState (Observed : Type) where
  outcome : CheckedOutcome := .unchanged
  observed : Option Observed := none
  unseen : Nat := 0
  notSeenAfter : Option Nat := none
deriving DecidableEq, Repr

variable {Item Observed : Type}

def CheckState.notSeen (state : CheckState Observed) (marked : Bool) : Bool :=
  marked && decide (state.outcome = .unchanged) &&
    state.notSeenAfter.any fun threshold => decide (threshold ≤ state.unseen)

/-! ## Reading the checks -/

/-- A full refresh counts when it is later than the start row and the mark. -/
def afterMark (start : Option CheckStart) (mark : Option Int)
    (createdAt : Int) : Bool :=
  start.any (fun started => decide (started.startedAt < createdAt)) &&
    mark.all fun marked => decide (marked < createdAt)

def CheckRow.counted (start : Option CheckStart) (marks : Item → Option Int)
    (check : CheckRow Item Observed) : Bool :=
  decide (check.outcome = .unchanged) && check.full &&
    afterMark start (marks check.item) check.createdAt

section Summaries

variable [DecidableEq Item]

/-- One check of the source's loop over the rows, oldest first. -/
def summarize (start : Option CheckStart) (marks : Item → Option Int)
    (found : Item → Option (CheckState Observed))
    (check : CheckRow Item Observed) : Item → Option (CheckState Observed) :=
  let previous := (found check.item).getD {}
  let unseen :=
    (if check.outcome = previous.outcome then previous.unseen else 0) +
      (check.counted start marks).toNat
  Function.update found check.item
    (some { outcome := check.outcome, observed := check.observed, unseen })

def summaries (checks : List (CheckRow Item Observed))
    (start : Option CheckStart) (marks : Item → Option Int) :
    Item → Option (CheckState Observed) := fun item =>
  (checks.foldl (summarize start marks) (fun _ => none) item).map fun state =>
    { state with notSeenAfter := start.map (·.notSeenAfter) }

/-- The state a refresh reads for an item, with or without a check. -/
def checkState (checks : List (CheckRow Item Observed))
    (start : Option CheckStart) (marks : Item → Option Int) (item : Item) :
    CheckState Observed :=
  (summaries checks start marks item).getD
    { notSeenAfter := start.map (·.notSeenAfter) }

/-- Whether a check with outcome `stored` is owed for an item now. -/
def owed (stored : CheckedOutcome) (state : CheckState Observed)
    (full marked moved : Bool) : Bool :=
  if stored ≠ state.outcome then
    true
  else if stored = .enteredIncorrectly then
    moved
  else
    decide (stored = .unchanged) && full && marked &&
      state.notSeenAfter.any fun threshold => decide (state.unseen < threshold)

theorem checkState_nil
    (start : Option CheckStart) (marks : Item → Option Int) (item : Item) :
    checkState ([] : List (CheckRow Item Observed)) start marks item =
      { notSeenAfter := start.map (·.notSeenAfter) } :=
  rfl

theorem checkState_threshold
    (checks : List (CheckRow Item Observed)) (start : Option CheckStart)
    (marks : Item → Option Int) (item : Item) :
    (checkState checks start marks item).notSeenAfter =
      start.map (·.notSeenAfter) := by
  unfold checkState summaries
  cases checks.foldl (summarize start marks) (fun _ => none) item with
  | none => rfl
  | some state => rfl

theorem checkState_concat_of_ne
    (checks : List (CheckRow Item Observed)) (start : Option CheckStart)
    (marks : Item → Option Int) {check : CheckRow Item Observed} {item : Item}
    (different : check.item ≠ item) :
    checkState (checks ++ [check]) start marks item =
      checkState checks start marks item := by
  unfold checkState summaries
  rw [List.foldl_append, List.foldl_cons, List.foldl_nil, summarize,
    Function.update_of_ne (Ne.symm different)]

/-- A new check of an item becomes its latest, and extends its run. -/
theorem checkState_concat
    (checks : List (CheckRow Item Observed)) (start : Option CheckStart)
    (marks : Item → Option Int) (check : CheckRow Item Observed) :
    checkState (checks ++ [check]) start marks check.item =
      { outcome := check.outcome
        observed := check.observed
        unseen :=
          (if check.outcome = (checkState checks start marks check.item).outcome
            then (checkState checks start marks check.item).unseen else 0) +
            (check.counted start marks).toNat
        notSeenAfter := start.map (·.notSeenAfter) } := by
  unfold checkState summaries
  rw [List.foldl_append, List.foldl_cons, List.foldl_nil, summarize,
    Function.update_self]
  cases checks.foldl (summarize start marks) (fun _ => none) check.item with
  | none => rfl
  | some state => rfl

end Summaries

end ParishKit.Responses
