import ParishKit.Lib.Transition
import ParishKit.Pipeline
import ParishKit.Responses.Creation
import ParishKit.Responses.Reconciliation

/-!
# Reviews and resolutions of one census change

The operations a reviewer has on one change: a decision, an edit, a conflict
resolution (`census_review`), and a step entered by hand, ignored or reopened
(`census_resolution`), beside the refreshes of its ParishSoft value.
-/

namespace ParishKit.Responses

open ParishKit.Pipeline

/-- One change with its reviews. Snapshots are numbered by the generation their
promotion gives them, so `generation` is the last one promoted. -/
structure Change where
  row : ProposedChange
  reviews : List ProposalReview
  generation : Nat
deriving DecidableEq

def Change.hasActiveBase (change : Change) : Bool :=
  ParishKit.Responses.hasActiveBase change.reviews change.row

/-- What the other rows of the Family say about the change when a step is
recorded. `check` is the latest refresh check at the change's version. -/
structure ChangeFacts where
  coveredByAddition : Bool
  replaced : Bool
  check : Option CheckOutcome
  markedMember : Option Nat

/-! ## What a review may do -/

/-- A review starts only on an open change the publish worker does not own. -/
def ProposedChange.reviewOpen (row : ProposedChange) : Bool :=
  row.execution == .pending || row.execution == .conflict ||
    row.execution == .failed

def reviewable (row : ProposedChange) (decision : Decision) : Bool :=
  if row.handling == .reportOnly || !row.reviewOpen ||
      decision == row.decision then
    false
  else
    decision != .approved || row.execution != .conflict

def resolvable (row : ProposedChange) : Bool :=
  row.handling != .reportOnly && row.execution == .conflict &&
    row.current.isSome

/-- Whether a value can be typed for the change's field at all. -/
def editsField (item : Item) : Bool :=
  match item.entityKind, item.field with
  | .member, .member _ => true
  | .member, .request .deathDate => true
  | .family, .family .homeAddress => true
  | .family, .family .mailingAddress => true
  | _, _ => false

def editable (row : ProposedChange) : Bool :=
  row.handling != .reportOnly && row.reviewOpen && editsField row.item

/-- What one review records: a decision or none, the resulting edit or none,
and whether it resolves a conflict. -/
structure ReviewIntent where
  expectedVersion : Nat
  decision : Option Decision := none
  edit : Option (Option Value) := none
  resolve : Bool := false

/-- The refusals of `_record`, in its order. -/
def ReviewIntent.refused (intent : ReviewIntent) (facts : ChangeFacts)
    (row : ProposedChange) : Bool :=
  row.version != intent.expectedVersion ||
    (intent.resolve && !resolvable row) ||
    (!intent.resolve && intent.decision.any fun decision =>
      !reviewable row decision) ||
    (!intent.resolve && intent.decision.isNone && intent.edit.isNone) ||
    (intent.edit.isSome && (!editable row ||
      !(intent.decision.isNone || intent.decision == some .approved))) ||
    (intent.decision.isNone && intent.edit == some row.adminValue) ||
    (intent.decision == some .unreviewed && row.decision == .ignored &&
      facts.coveredByAddition)

/-- Whether the review takes a resolved change away from approved. -/
def ReviewIntent.undoes (intent : ReviewIntent) (change : Change) : Bool :=
  (intent.decision.any fun decision => decision != .approved) &&
    !intent.resolve && change.hasActiveBase

def ReviewIntent.decided (intent : ReviewIntent) (row : ProposedChange) :
    Decision :=
  if intent.resolve then .approved else intent.decision.getD row.decision

/-- The review row: the whole resulting review state. -/
def ReviewIntent.review (intent : ReviewIntent) (row : ProposedChange) :
    ProposalReview where
  proposal := row.pk
  expectedVersion := intent.expectedVersion
  decision := intent.decided row
  adminValue := intent.edit.getD row.adminValue
  acceptedBase := intent.resolve
  acceptedValue := if intent.resolve then row.current else none
  acceptedSource := if intent.resolve then some row.currentSource else none

/-- The change after an admitted review. -/
def ReviewIntent.recorded (intent : ReviewIntent) (change : Change) : Change :=
  { change with
    reviews := change.reviews ++ [intent.review change.row]
    row := { change.row with
      decision := intent.decided change.row
      adminValue := intent.edit.getD change.row.adminValue
      execution :=
        if intent.resolve then .pending
        else if intent.undoes change then .conflict
        else change.row.execution
      version := change.row.version + 1 } }

/-- `_record`: one review and its result. `none` is a refusal, which saves
nothing. -/
def Change.record (facts : ChangeFacts) (intent : ReviewIntent)
    (change : Change) : Option Change :=
  if intent.refused facts change.row then
    none
  else
    some (intent.recorded change)

theorem record_eq_some
    {facts : ChangeFacts} {intent : ReviewIntent} {change next : Change}
    (applied : change.record facts intent = some next) :
    intent.refused facts change.row = false ∧ next = intent.recorded change := by
  unfold Change.record at applied
  split at applied
  · cases applied
  · rename_i admitted
    exact ⟨by simpa using admitted, (Option.some.inj applied).symm⟩

/-- An admitted review starts from an open change, and a conflict resolution
from a conflict at an available value. -/
theorem reviewOpen_of_admitted
    {facts : ChangeFacts} {intent : ReviewIntent} {row : ProposedChange}
    (admitted : intent.refused facts row = false) :
    row.version = intent.expectedVersion ∧
      (intent.resolve = true → resolvable row = true) := by
  simp only [ReviewIntent.refused, Bool.or_eq_false_iff] at admitted
  obtain ⟨⟨⟨⟨⟨⟨version, resolves⟩, _⟩, _⟩, _⟩, _⟩, _⟩ := admitted
  refine ⟨by simpa using version, fun resolving => ?_⟩
  simpa [resolving] using resolves

/-- The publish worker owns a queued change: it takes no review. -/
theorem execution_ne_queued_of_admitted
    {facts : ChangeFacts} {intent : ReviewIntent} {row : ProposedChange}
    (admitted : intent.refused facts row = false) :
    row.execution ≠ .queued := by
  intro isQueued
  simp only [ReviewIntent.refused, Bool.or_eq_false_iff] at admitted
  obtain ⟨⟨⟨⟨⟨⟨_, resolves⟩, decides⟩, something⟩, edits⟩, _⟩, _⟩ := admitted
  cases resolving : intent.resolve with
  | true => simp [resolving, resolvable, isQueued] at resolves
  | false =>
      cases decided : intent.decision with
      | some decision =>
          simp [resolving, decided, reviewable, ProposedChange.reviewOpen,
            isQueued] at decides
      | none =>
          cases edited : intent.edit with
          | some adminValue =>
              simp [edited, editable, ProposedChange.reviewOpen, isQueued]
                at edits
          | none => simp [resolving, decided, edited] at something

/-! ## What a resolution may do -/

inductive ResolutionAction where
  | entered
  | ignored
  | reopened
deriving DecidableEq, Repr

def Execution.isTerminal : Execution → Bool
  | .resolvedExternal => true
  | .published => true
  | .resolvedUpstream => true
  | _ => false

/-- Whether a person, not publication, carries the change into ParishSoft. -/
def byHand (row : ProposedChange) : Bool :=
  row.handling != .api || row.item.entityKind == .family

def resolutionAllowed (row : ProposedChange) (action : ResolutionAction)
    (incorrect replaced : Bool) : Bool :=
  if row.handling == .reportOnly then
    false
  else if action == .reopened && row.execution.isTerminal then
    !replaced
  else if incorrect then
    row.execution == .resolvedExternal && action == .entered
  else if !(row.execution == .pending || row.execution == .conflict) then
    false
  else
    match action with
    | .reopened => row.decision == .ignored
    | .entered =>
        byHand row && row.decision == .approved && row.execution == .pending
    | .ignored => byHand row && row.decision != .ignored

def terminalPlacement (row : ProposedChange) : Option (Option Placement) :=
  censusPlacement row.decision row.execution row.handling row.item.entityKind
    row.adminValue.isSome none

/-- The decision a terminal change keeps when Back to review undoes its step. -/
def undoDecision (row : ProposedChange) : Option Decision :=
  match terminalPlacement row with
  | some (some placement) =>
      if undoStage .census placement
          (censusByHand row.handling row.item.entityKind) = .toReview then
        some .unreviewed
      else
        some .approved
  | _ => none

/-- A change Entered by hand in which the latest refresh found a third value. -/
def enteredIncorrectly (facts : ChangeFacts) (row : ProposedChange) : Bool :=
  row.execution == .resolvedExternal && !facts.replaced &&
    facts.check == some .enteredIncorrectly

/-- A New Member whose mark may be made again with another Member ID. -/
def memberCorrectable (facts : ChangeFacts) (row : ProposedChange) : Bool :=
  row.item.entityKind == .proposedMember && row.item.field == .newMember &&
    row.execution == .resolvedExternal && !facts.replaced &&
    facts.check != some .confirmed

structure ResolutionIntent where
  expectedVersion : Nat
  action : ResolutionAction
  noted : Bool
  memberDuid : Option Nat

/-- Back to review of a terminal step. -/
def ResolutionIntent.undoes (intent : ResolutionIntent) (facts : ChangeFacts)
    (row : ProposedChange) : Bool :=
  intent.action == .reopened && row.execution.isTerminal &&
    resolutionAllowed row intent.action false facts.replaced

def ResolutionIntent.corrects (intent : ResolutionIntent)
    (facts : ChangeFacts) (row : ProposedChange) : Bool :=
  intent.action == .entered && !enteredIncorrectly facts row &&
    memberCorrectable facts row

/-- The refusals of `record_resolution`. Undoing a terminal step needs a note. -/
def ResolutionIntent.refused (intent : ResolutionIntent) (facts : ChangeFacts)
    (row : ProposedChange) : Bool :=
  row.version != intent.expectedVersion ||
    (intent.undoes facts row &&
      ((undoDecision row).isNone || !intent.noted)) ||
    (intent.corrects facts row && (intent.memberDuid.isNone ||
      intent.memberDuid == facts.markedMember)) ||
    (!intent.corrects facts row &&
      !resolutionAllowed row intent.action (enteredIncorrectly facts row)
        (row.execution.isTerminal && facts.replaced)) ||
    (intent.memberDuid.isSome && intent.action != .entered) ||
    (intent.action == .reopened && facts.coveredByAddition)

/-- The row after an admitted resolution. -/
def ResolutionIntent.resolved (intent : ResolutionIntent)
    (facts : ChangeFacts) (row : ProposedChange) : ProposedChange :=
  match intent.action with
  | .entered =>
      { row with execution := .resolvedExternal, version := row.version + 1 }
  | .ignored =>
      { row with decision := .ignored, version := row.version + 1 }
  | .reopened =>
      if intent.undoes facts row then
        { row with
          decision := (undoDecision row).getD row.decision
          execution := .pending
          version := row.version + 1 }
      else
        { row with decision := .unreviewed, version := row.version + 1 }

def Change.recordResolution (facts : ChangeFacts) (intent : ResolutionIntent)
    (change : Change) : Option Change :=
  if intent.refused facts change.row then
    none
  else
    some { change with row := intent.resolved facts change.row }

theorem recordResolution_eq_some
    {facts : ChangeFacts} {intent : ResolutionIntent} {change next : Change}
    (applied : change.recordResolution facts intent = some next) :
    intent.refused facts change.row = false ∧
      next = { change with row := intent.resolved facts change.row } := by
  unfold Change.recordResolution at applied
  split at applied
  · cases applied
  · rename_i admitted
    exact ⟨by simpa using admitted, (Option.some.inj applied).symm⟩

/-- Undoing a step entered by hand keeps the approval behind it. -/
theorem undoDecision_of_entered
    {row : ProposedChange} {decision : Decision}
    (entered : row.execution = .resolvedExternal)
    (undone : undoDecision row = some decision) :
    decision = .approved := by
  unfold undoDecision at undone
  split at undone
  · rename_i placement placed
    unfold terminalPlacement at placed
    rw [entered] at placed
    rw [if_neg (undoStage_of_entered _ placed)] at undone
    exact (Option.some.inj undone).symm
  · cases undone

theorem undoDecision_of_admitted
    {facts : ChangeFacts} {intent : ResolutionIntent} {row : ProposedChange}
    (admitted : intent.refused facts row = false)
    (undoing : intent.undoes facts row = true) :
    ∃ decision, undoDecision row = some decision := by
  simp only [ResolutionIntent.refused, Bool.or_eq_false_iff] at admitted
  obtain ⟨⟨⟨⟨⟨_, refusal⟩, _⟩, _⟩, _⟩, _⟩ := admitted
  simp only [undoing, Bool.true_and, Bool.or_eq_false_iff,
    Option.isNone_eq_false_iff] at refusal
  exact Option.isSome_iff_exists.mp refusal.1

/-- An admitted reopening that undoes no terminal step reopens an Ignore. -/
theorem ignored_of_reopened
    {facts : ChangeFacts} {intent : ResolutionIntent} {row : ProposedChange}
    (admitted : intent.refused facts row = false)
    (reopened : intent.action = .reopened)
    (noUndo : intent.undoes facts row = false) :
    row.decision = .ignored := by
  simp only [ResolutionIntent.refused, Bool.or_eq_false_iff] at admitted
  obtain ⟨⟨⟨_, allowedNow⟩, _⟩, _⟩ := admitted
  have noCorrection : intent.corrects facts row = false := by
    simp [ResolutionIntent.corrects, reopened]
  simp only [noCorrection, Bool.not_false, Bool.true_and, reopened,
    Bool.not_eq_false'] at allowedNow
  simp only [ResolutionIntent.undoes, reopened, beq_self_eq_true,
    Bool.true_and] at noUndo
  unfold resolutionAllowed at allowedNow noUndo
  split at allowedNow
  · cases allowedNow
  · rename_i listed
    cases isTerminal : row.execution.isTerminal with
    | true => simp_all
    | false =>
        simp only [isTerminal, Bool.and_false, Bool.false_eq_true, if_false]
          at allowedNow
        split at allowedNow
        · simp at allowedNow
        · split at allowedNow
          · cases allowedNow
          · simpa using allowedNow

/-- A queued change takes no resolution either. -/
theorem execution_ne_queued_of_resolution
    {facts : ChangeFacts} {intent : ResolutionIntent} {row : ProposedChange}
    (admitted : intent.refused facts row = false) :
    row.execution ≠ .queued := by
  intro isQueued
  simp only [ResolutionIntent.refused, Bool.or_eq_false_iff] at admitted
  obtain ⟨⟨⟨_, allowedNow⟩, _⟩, _⟩ := admitted
  simp [ResolutionIntent.corrects, memberCorrectable, resolutionAllowed,
    enteredIncorrectly, isQueued, Execution.isTerminal] at allowedNow

/-- A resolution changes only the decision, the execution and the version. -/
theorem resolved_frame
    (facts : ChangeFacts) (intent : ResolutionIntent) (row : ProposedChange) :
    (intent.resolved facts row).pk = row.pk ∧
      (intent.resolved facts row).handling = row.handling ∧
      (intent.resolved facts row).item = row.item ∧
      (intent.resolved facts row).current = row.current ∧
      (intent.resolved facts row).currentSource = row.currentSource ∧
      (intent.resolved facts row).version = row.version + 1 := by
  unfold ResolutionIntent.resolved
  cases intent.action with
  | entered => exact ⟨rfl, rfl, rfl, rfl, rfl, rfl⟩
  | ignored => exact ⟨rfl, rfl, rfl, rfl, rfl, rfl⟩
  | reopened =>
      dsimp only
      split
      · exact ⟨rfl, rfl, rfl, rfl, rfl, rfl⟩
      · exact ⟨rfl, rfl, rfl, rfl, rfl, rfl⟩

/-- The only resolution an open Automatic change takes reopens an Ignore. -/
theorem reopened_ignore_of_automatic
    {facts : ChangeFacts} {intent : ResolutionIntent} {row : ProposedChange}
    (automatic : byHand row = false)
    (isOpen : row.execution = .pending ∨ row.execution = .conflict)
    (admitted : intent.refused facts row = false) :
    row.decision = .ignored ∧
      (intent.resolved facts row).execution = row.execution := by
  have notTerminal : row.execution.isTerminal = false := by
    rcases isOpen with state | state <;> simp [state, Execution.isTerminal]
  have notEntered : (row.execution == Execution.resolvedExternal) = false := by
    rcases isOpen with state | state <;> simp [state]
  have noUndo : intent.undoes facts row = false := by
    simp [ResolutionIntent.undoes, notTerminal]
  have reopening : intent.action = .reopened := by
    have refusals := admitted
    simp only [ResolutionIntent.refused, Bool.or_eq_false_iff] at refusals
    obtain ⟨⟨⟨_, allowedNow⟩, _⟩, _⟩ := refusals
    have noCorrection : intent.corrects facts row = false := by
      simp [ResolutionIntent.corrects, memberCorrectable, notEntered]
    cases action : intent.action with
    | reopened => rfl
    | entered =>
        simp [noCorrection, resolutionAllowed, action, automatic, notEntered,
          enteredIncorrectly] at allowedNow
    | ignored =>
        simp [noCorrection, resolutionAllowed, action, automatic, notEntered,
          enteredIncorrectly] at allowedNow
  refine ⟨ignored_of_reopened admitted reopening noUndo, ?_⟩
  simp [ResolutionIntent.resolved, reopening, noUndo]

/-! ## The worklist -/

inductive WorklistAction where
  | accept
  | edit (edited : Value)
  | ignore
  | backToReview
  | enteredByHand (memberDuid : Option Nat)
deriving DecidableEq

section Operations

variable [Unicode]

/-- The edit a typed value gives: one equal to the Family's answer clears it. -/
def editFor (row : ProposedChange) (edited : Value) : Option Value :=
  let kind := row.item.field.kind
  if canonicalValue kind edited = canonicalValue kind row.submittedValue then
    none
  else
    some edited

/-- A promotion of the next snapshot, reconciled on this change. An exception
rolls the promotion back. -/
def Change.refresh (corpus : Corpus) (familyDuid : Nat) (change : Change) :
    Option Change :=
  if change.row.execution.isOpen then
    match proposalUpdate corpus familyDuid change.hasActiveBase change.row with
    | .error _ => none
    | .ok none => some { change with generation := change.generation + 1 }
    | .ok (some update) =>
        some { change with
          row := change.row.reconciled (change.generation + 1) update
          generation := change.generation + 1 }
  else
    some { change with generation := change.generation + 1 }

/-- A refresh leaves the row alone or writes the one update its corpus
yields. -/
theorem refresh_cases
    {corpus : Corpus} {familyDuid : Nat} {change next : Change}
    (applied : change.refresh corpus familyDuid = some next) :
    (next.row = change.row ∧
      next = { change with generation := change.generation + 1 }) ∨
    ∃ update, change.row.execution.isOpen = true ∧
      proposalUpdate corpus familyDuid change.hasActiveBase change.row =
        .ok (some update) ∧
      next = { change with
        row := change.row.reconciled (change.generation + 1) update
        generation := change.generation + 1 } := by
  unfold Change.refresh at applied
  split at applied
  · rename_i isOpen
    split at applied
    · cases applied
    · cases applied
      exact Or.inl ⟨rfl, rfl⟩
    · rename_i update yielded
      cases applied
      exact Or.inr ⟨update, isOpen, yielded, rfl⟩
  · cases applied
    exact Or.inl ⟨rfl, rfl⟩

/-- What an operation comes down to: a refresh, one review, or one resolution. -/
inductive ChangeStep where
  | refresh (corpus : Corpus) (familyDuid : Nat)
  | record (facts : ChangeFacts) (intent : ReviewIntent)
  | resolution (facts : ChangeFacts) (intent : ResolutionIntent)

def ChangeStep.apply : ChangeStep → Change → Option Change
  | .refresh corpus familyDuid, change => change.refresh corpus familyDuid
  | .record facts intent, change => change.record facts intent
  | .resolution facts intent, change => change.recordResolution facts intent

/-- Accept, with the edit it carries or without one. It resolves a conflict
against ParishSoft's current value. -/
def acceptIntent (row : ProposedChange) (version : Nat)
    (edit : Option (Option Value)) : ReviewIntent :=
  if row.execution = .conflict then
    { expectedVersion := version, edit, resolve := true }
  else
    { expectedVersion := version, decision := some .approved, edit }

/-- `_decide`: what one worklist decision records. -/
def WorklistAction.step (facts : ChangeFacts) (version : Nat) (noted : Bool)
    (row : ProposedChange) : WorklistAction → Option ChangeStep
  | .accept => some (.record facts (acceptIntent row version none))
  | .edit edited =>
      let adminValue := editFor row edited
      if adminValue = row.adminValue then
        some (.record facts (acceptIntent row version none))
      else if !editable row then
        none
      else
        some (.record facts (acceptIntent row version (some adminValue)))
  | .ignore =>
      some (.record facts { expectedVersion := version, decision := some .ignored })
  | .backToReview =>
      if row.execution.isTerminal then
        some (.resolution facts ⟨version, .reopened, noted, none⟩)
      else
        some (.record facts {
          expectedVersion := version, decision := some .unreviewed })
  | .enteredByHand memberDuid =>
      some (.resolution facts ⟨version, .entered, noted, memberDuid⟩)

/-- Every operation on one change after its creation. -/
inductive ChangeOp where
  | refresh (corpus : Corpus) (familyDuid : Nat)
  | review (facts : ChangeFacts) (version : Nat) (decision : Decision)
  | edit (facts : ChangeFacts) (version : Nat) (edited : Option Value)
  | resolveConflict (facts : ChangeFacts) (version : Nat)
  | decide (facts : ChangeFacts) (version : Nat) (noted : Bool)
      (action : WorklistAction)
  | resolution (facts : ChangeFacts) (intent : ResolutionIntent)

/-- The step an operation takes on a row, or its refusal before any. -/
def ChangeOp.step (row : ProposedChange) : ChangeOp → Option ChangeStep
  | .refresh corpus familyDuid => some (.refresh corpus familyDuid)
  | .review facts version decision =>
      some (.record facts { expectedVersion := version, decision := some decision })
  | .edit facts version edited =>
      some (.record facts {
        expectedVersion := version, edit := some (edited.bind (editFor row)) })
  | .resolveConflict facts version =>
      some (.record facts { expectedVersion := version, resolve := true })
  | .decide facts version noted action => action.step facts version noted row
  | .resolution facts intent => some (.resolution facts intent)

def ChangeOp.apply (op : ChangeOp) (change : Change) : Option Change :=
  (op.step change.row).bind fun step => step.apply change

/-- A change as a Family response makes it: a new intent, or the same answer
again where the source does not hold it yet. -/
inductive Change.Created : Change → Prop where
  | fresh {pk submission snapshot generation : Nat} {item : Item}
      {source : KnownValue} {submitted : Value} {row : ProposedChange}
      (made : freshChange pk submission item source submitted snapshot =
        some row)
      (promoted : snapshot ≤ generation) : Created ⟨row, [], generation⟩
  | carried {pk submission snapshot generation : Nat} {old : ProposedChange}
      {oldActiveBase : Bool} {source : KnownValue} {submitted : Value}
      {row : ProposedChange}
      (changed : unchangedAnswer old.item.field.kind source submitted = false)
      (made : carriedChange pk submission old oldActiveBase source submitted
        snapshot = some row)
      (promoted : snapshot ≤ generation) : Created ⟨row, [], generation⟩

theorem execution_of_created
    {change : Change} (created : change.Created) :
    change.row.execution = .pending ∨ change.row.execution = .conflict := by
  cases created with
  | fresh made _ =>
      simp only [freshChange, Option.bind_eq_bind, Option.bind_eq_some_iff]
        at made
      obtain ⟨merge, _, handling, _, assembled⟩ := made
      cases assembled
      exact createdExecution_cases merge
  | carried _ made _ =>
      simp only [carriedChange, Option.bind_eq_bind, Option.bind_eq_some_iff]
        at made
      obtain ⟨merge, _, handling, _, _, _, _, _, assembled⟩ := made
      split at assembled
      · cases assembled
      · cases assembled
        exact createdExecution_cases merge

end Operations

/-- No other row of the Family speaks about the change. -/
def quietFacts : ChangeFacts :=
  ⟨false, false, none, none⟩

/-- The Family's answer `b` over the baseline `a`, just submitted. -/
def firstNameStart : Change :=
  ⟨firstNameChange, [], 1⟩

theorem firstNameStart_created :
    letI := asciiUnicode
    firstNameStart.Created :=
  letI := asciiUnicode
  .fresh
    (show freshChange 1 1 ⟨.member, "8", .member .firstName⟩
      (some (.text ['a'])) (.text ['b']) 1 = some firstNameChange from rfl)
    (le_refl 1)

end ParishKit.Responses
