import Mathlib.Data.List.Sort
import ParishKit.Lib.DateText
import ParishKit.Lib.Transition

/-!
# Missed mail of a Family

What a planning pass decides of one group of due messages, and what it leaves of
the group: one message to send and the others covered by it, or none to send, or
nothing at all while an outcome is open.
-/

namespace ParishKit.Campaigns

open ParishKit.Lib

inductive MailKind where
  | initial
  | reminder
  | report
deriving DecidableEq

inductive MailMode where
  | testing
  | production
deriving DecidableEq

inductive SlotState where
  | pending
  | running
  | deliveryUnknown
  | succeeded
  | failed
  | skipped
  | coalesced
deriving DecidableEq

/-- One occurrence of a message. An identifier stands for its number. -/
structure RecoverySlot where
  occurrenceId : Nat
  definitionId : Nat
  kind : MailKind
  mode : MailMode
  target : Text
  slot : Text
  dueAt : Int
  state : SlotState
  safelyCancellable : Bool
  held : Bool
  targetBounded : 0 < target.length ∧ target.length ≤ 128
  slotBounded : 0 < slot.length ∧ slot.length ≤ 128
deriving DecidableEq

inductive RecoveryReason where
  | deliveryUnresolved
  | campaignClosed
  | familyIneligible
  | familyResponded
  | workgroupExcluded
  | noDeliverableRecipient
  | initialUnfulfilled
  | missedFamilyRecovery
  | missedReportRecovery
deriving DecidableEq

structure RecoveryPlan where
  selected : Option Nat := none
  coalesced : List Nat := []
  skipped : List Nat := []
  reason : Option RecoveryReason := none
  blocked : Bool := false
deriving DecidableEq

/-- The keyword arguments of `plan_recovery`. -/
structure RecoveryFlags where
  closed : Bool := false
  eligible : Bool := true
  responded : Bool := false
  deliverable : Bool := true
  initialDelivered : Bool := false
  excluded : Bool := false

def MailKind.isFamily : MailKind → Bool
  | .initial | .reminder => true
  | .report => false

def SlotState.isOpen : SlotState → Bool
  | .pending | .running => true
  | _ => false

/-- The states that no decision changes. -/
def SlotState.isTerminal : SlotState → Bool
  | .succeeded | .failed | .skipped | .coalesced => true
  | _ => false

namespace RecoverySlot

def isDue (cutoff : Int) (row : RecoverySlot) : Bool :=
  decide (row.dueAt ≤ cutoff) && !row.held

/-- By due time, definition and occurrence. -/
def before (first second : RecoverySlot) : Bool :=
  decide (first.dueAt < second.dueAt) ||
    decide (first.dueAt = second.dueAt) &&
      (decide (first.definitionId < second.definitionId) ||
        decide (first.definitionId = second.definitionId) &&
          decide (first.occurrenceId ≤ second.occurrenceId))

/-- Its provider may have accepted it, or may still. -/
def isUnresolved (row : RecoverySlot) : Bool :=
  decide (row.state = .deliveryUnknown) ||
    row.state.isOpen && !row.safelyCancellable

/-- An initial invitation that came to nothing. -/
def isUnfulfilled (row : RecoverySlot) : Bool :=
  decide (row.kind = .initial) &&
    decide (row.state = .failed ∨ row.state = .skipped ∨ row.state = .coalesced)

end RecoverySlot

/-- The rows due by a cutoff, in order. -/
def overdue (slots : List RecoverySlot) (cutoff : Int) : List RecoverySlot :=
  (slots.filter (·.isDue cutoff)).insertionSort fun first second =>
    first.before second = true

/-- Why no Family mail is sent at all. -/
def skipReason (flags : RecoveryFlags) : Option RecoveryReason :=
  if flags.closed then some .campaignClosed
  else if !flags.eligible then some .familyIneligible
  else if flags.responded then some .familyResponded
  else if flags.excluded then some .workgroupExcluded
  else if !flags.deliverable then some .noDeliverableRecipient
  else none

/-- `_validate_group`. -/
def validateGroup (first : RecoverySlot) (slots : List RecoverySlot) : Bool :=
  (slots.all fun row =>
    decide (row.mode = first.mode) && decide (row.target = first.target) &&
      (if first.kind.isFamily then row.kind.isFamily
        else decide (row.kind = first.kind))) &&
    decide (slots.map (·.occurrenceId)).Nodup &&
    decide (slots.map fun row => (row.definitionId, row.slot)).Nodup &&
    (first.kind.isFamily ||
      slots.all fun row => decide (row.definitionId = first.definitionId)) &&
    decide ((slots.filter fun row => row.kind = .initial).length ≤ 1)

/-- One row is sent and covers the others. -/
def recoverInto (selected : RecoverySlot) (candidates : List RecoverySlot)
    (reason : RecoveryReason) : RecoveryPlan where
  selected := some selected.occurrenceId
  coalesced := (candidates.map (·.occurrenceId)).filter
    fun occurrence => occurrence ≠ selected.occurrenceId
  reason := if 1 < candidates.length then some reason else none

/-- `plan_recovery`, of a valid group's overdue rows. -/
def planOverdue (isFamily : Bool) (flags : RecoveryFlags)
    (overdue : List RecoverySlot) : Except String RecoveryPlan :=
  if overdue.any (·.isUnresolved) then
    .ok { blocked := true, reason := some .deliveryUnresolved }
  else
    let candidates := overdue.filter (·.state.isOpen)
    match candidates.getLast? with
    | none => .ok {}
    | some last =>
        if isFamily then
          match skipReason flags with
          | some reason =>
              .ok { skipped := candidates.map (·.occurrenceId),
                    reason := some reason }
          | none =>
              if !flags.initialDelivered && overdue.any (·.isUnfulfilled) then
                .ok { blocked := true, reason := some .initialUnfulfilled }
              else
                match candidates.find? fun row => row.kind = .initial with
                | some initial =>
                    if flags.initialDelivered then
                      .error
                        "Fulfilled initial slots must be excluded by their owner."
                    else
                      .ok (recoverInto initial candidates .missedFamilyRecovery)
                | none =>
                    .ok (recoverInto last candidates .missedFamilyRecovery)
        else
          .ok (recoverInto last candidates .missedReportRecovery)

/-- `plan_recovery`. -/
def planRecovery (slots : List RecoverySlot) (cutoff : Int)
    (flags : RecoveryFlags) : Except String RecoveryPlan :=
  if 1000 < slots.length then
    .error "Recovery requires a complete bounded group and UTC cutoff."
  else
    match slots with
    | [] => .ok {}
    | first :: _ =>
        if validateGroup first slots then
          planOverdue first.kind.isFamily flags (overdue slots cutoff)
        else
          .error "Recovery slots must form one distinct semantic group."

/-! ## The rows of a Family -/

/-- An occurrence as it is stored. -/
structure GroupRow where
  slot : RecoverySlot
  replacementId : Option Nat
  reason : Option RecoveryReason
deriving DecidableEq

structure Fulfillment where
  definitionId : Nat
  mode : MailMode
  target : Text
  slot : Text
  occurrenceId : Option Nat
deriving DecidableEq

/-- The occurrences of one Family's mail, each with an identifier of its own, and
what covers them. -/
structure FamilyMail where
  rows : List GroupRow
  fulfillments : List Fulfillment
  distinct : (rows.map (·.slot.occurrenceId)).Nodup

def GroupRow.setState (row : GroupRow) (state : SlotState) : GroupRow :=
  { row with slot := { row.slot with state := state } }

/-- What a plan leaves of a row. -/
def GroupRow.decided (plan : RecoveryPlan) (row : GroupRow) : GroupRow :=
  if plan.coalesced.contains row.slot.occurrenceId then
    { row.setState .coalesced with
      reason := plan.reason, replacementId := plan.selected }
  else if plan.skipped.contains row.slot.occurrenceId then
    { row.setState .skipped with reason := plan.reason, replacementId := none }
  else
    row

@[simp]
theorem GroupRow.decided_occurrenceId (plan : RecoveryPlan) (row : GroupRow) :
    (row.decided plan).slot.occurrenceId = row.slot.occurrenceId := by
  unfold GroupRow.decided
  split
  · rfl
  · split <;> rfl

namespace FamilyMail

/-- Some of the rows, changed without their identifiers. -/
def update (mail : FamilyMail) (change : GroupRow → GroupRow)
    (same : ∀ row, (change row).slot.occurrenceId = row.slot.occurrenceId) :
    FamilyMail where
  rows := mail.rows.map change
  fulfillments := mail.fulfillments
  distinct := by
    rw [List.map_map]
    exact (List.map_congr_left fun row _ => same row) ▸ mail.distinct

/-- The rows of some occurrences, as a group. -/
def group (mail : FamilyMail) (chosen : List Nat) : List RecoverySlot :=
  (mail.rows.map (·.slot)).filter fun row => chosen.contains row.occurrenceId

/-- `_persist_decision`, of a plan that is not blocked. -/
def persistDecision (mail : FamilyMail) (plan : RecoveryPlan) : FamilyMail :=
  if plan.blocked then
    mail
  else
    { mail.update (·.decided plan) (GroupRow.decided_occurrenceId plan) with
      fulfillments := mail.fulfillments ++
        (mail.rows.filter fun row =>
          plan.coalesced.contains row.slot.occurrenceId).map fun row =>
            ⟨row.slot.definitionId, row.slot.mode, row.slot.target, row.slot.slot,
              plan.selected⟩ }

/-- What `plan_family` decides and stores: a Family of the reminder group has its
reminders decided apart. -/
def planFamily (mail : FamilyMail) (chosen : List Nat) (workgroup : Bool)
    (cutoff : Int) (flags : RecoveryFlags) : Except String FamilyMail :=
  let group := mail.group chosen
  if workgroup then do
    let first ← planRecovery (group.filter fun row => row.kind ≠ .reminder) cutoff
      { flags with excluded := false }
    let second ← planRecovery (group.filter fun row => row.kind = .reminder) cutoff
      { flags with excluded := true }
    return (mail.persistDecision first).persistDecision second
  else do
    let plan ← planRecovery group cutoff { flags with excluded := false }
    return mail.persistDecision plan

/-- A row that is not terminal changes; no other does. -/
def changeRow (mail : FamilyMail) (occurrence : Nat)
    (change : RecoverySlot → RecoverySlot)
    (same : ∀ row, (change row).occurrenceId = row.occurrenceId) : FamilyMail :=
  mail.update (fun row =>
      if row.slot.occurrenceId = occurrence ∧ row.slot.state.isTerminal = false then
        { row with slot := change row.slot }
      else
        row) fun row => by
    split
    · exact same row.slot
    · rfl

end FamilyMail

/-- What happens to a Family's mail: a decision on some of its rows, the outcome of
a delivery, a failure or a cancellation, a hold, what is known of a row's outbox,
or a new occurrence. -/
inductive RecoveryEvent where
  | decide (chosen : List Nat) (cutoff : Int) (flags : RecoveryFlags)
  | outcome (occurrence : Nat) (state : SlotState)
  | hold (occurrence : Nat) (held : Bool)
  | cancellable (occurrence : Nat) (safely : Bool)
  | created (slot : RecoverySlot)

/-- Only a decision coalesces. A decision that raises stores nothing. -/
def FamilyMail.apply : RecoveryEvent → FamilyMail → Option FamilyMail
  | .decide chosen cutoff flags, mail =>
      match planRecovery (mail.group chosen) cutoff flags with
      | .ok plan => some (mail.persistDecision plan)
      | .error _ => none
  | .outcome occurrence state, mail =>
      if state = .coalesced then
        none
      else
        some (mail.changeRow occurrence (fun row => { row with state := state })
          fun _ => rfl)
  | .hold occurrence held, mail =>
      some (mail.changeRow occurrence (fun row => { row with held := held })
        fun _ => rfl)
  | .cancellable occurrence safely, mail =>
      some (mail.changeRow occurrence
        (fun row => { row with safelyCancellable := safely }) fun _ => rfl)
  | .created slot, mail =>
      if fresh : slot.state = .pending ∧
          slot.occurrenceId ∉ mail.rows.map (·.slot.occurrenceId) then
        some {
          rows := mail.rows ++ [⟨slot, none, none⟩]
          fulfillments := mail.fulfillments
          distinct := by
            rw [List.map_append]
            exact List.nodup_append.mpr ⟨mail.distinct, List.nodup_singleton _,
              fun first isFirst second isSecond => by
                rw [List.mem_singleton.mp isSecond]
                rintro rfl
                exact fresh.2 isFirst⟩ }
      else
        none

end ParishKit.Campaigns
