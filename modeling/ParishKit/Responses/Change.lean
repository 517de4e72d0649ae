import ParishKit.Responses.Source

/-!
# Proposed changes and their reviews

The rows of `ProposedChange` and `ProposalReview`, and the accepted base: a
conflict resolution that still stands at the change's source reference.
-/

namespace ParishKit.Responses

inductive EntityKind where
  | family
  | member
  | proposedMember
deriving DecidableEq, Repr

/-- What one change is about: a field of a Family, a Member or a new Member. -/
structure Item where
  entityKind : EntityKind
  entityKey : String
  field : Field
deriving DecidableEq, Repr

inductive Handling where
  | api
  | manual
  | reportOnly
deriving DecidableEq, Repr

inductive Decision where
  | unreviewed
  | approved
  | ignored
deriving DecidableEq, Repr

inductive Execution where
  | pending
  | conflict
  | queued
  | published
  | resolvedUpstream
  | resolvedExternal
  | failed
  | superseded
  | cancelled
deriving DecidableEq, Repr

/-- The executions reconciliation still acts on. -/
def Execution.isOpen : Execution → Bool
  | .pending => true
  | .conflict => true
  | .queued => true
  | .failed => true
  | _ => false

/-- One atomic Family request. `adminValue` is set only while a reviewer's edit
is carried forward in place of the Family's answer. -/
structure ProposedChange where
  pk : Nat
  submission : Nat
  item : Item
  baseline : KnownValue
  submittedValue : Value
  current : KnownValue
  currentSource : Nat
  adminValue : Option Value
  handling : Handling
  decision : Decision
  execution : Execution
  supersededBy : Option Nat
  version : Nat
deriving DecidableEq

/-- The value carried forward: the reviewer's when it was edited, else the
Family's answer. -/
def ProposedChange.carried (row : ProposedChange) : Value :=
  row.adminValue.getD row.submittedValue

/-- One immutable review of a change. `acceptedSource` is set exactly on a
conflict resolution. -/
structure ProposalReview where
  proposal : Nat
  expectedVersion : Nat
  decision : Decision
  adminValue : Option Value
  acceptedBase : Bool
  acceptedValue : KnownValue
  acceptedSource : Option Nat
deriving DecidableEq

/-! ## The accepted base -/

/-- A later review of the same change recorded a decision other than approved. -/
def ProposalReview.undone (reviews : List ProposalReview)
    (review : ProposalReview) : Bool :=
  reviews.any fun later =>
    later.proposal == review.proposal &&
      review.expectedVersion < later.expectedVersion &&
      later.decision != .approved

/-- The accepted-base reviews of a change still at its source reference. -/
def activeBases (reviews : List ProposalReview) (row : ProposedChange) :
    List ProposalReview :=
  reviews.filter fun review =>
    review.proposal == row.pk && review.acceptedBase &&
      review.acceptedSource == some row.currentSource &&
      !review.undone reviews

def hasActiveBase (reviews : List ProposalReview) (row : ProposedChange) :
    Bool :=
  !(activeBases reviews row).isEmpty

theorem hasActiveBase_iff
    {reviews : List ProposalReview} {row : ProposedChange} :
    hasActiveBase reviews row = true ↔
      ∃ review ∈ reviews, review.proposal = row.pk ∧
        review.acceptedBase = true ∧
        review.acceptedSource = some row.currentSource ∧
        review.undone reviews = false := by
  constructor
  · intro active
    have nonempty : activeBases reviews row ≠ [] := by
      simpa [hasActiveBase] using active
    obtain ⟨review, selected⟩ := List.exists_mem_of_ne_nil _ nonempty
    obtain ⟨member, conditions⟩ := List.mem_filter.mp selected
    simp only [Bool.and_eq_true, beq_iff_eq, Bool.not_eq_true'] at conditions
    obtain ⟨⟨⟨same, base⟩, source⟩, standing⟩ := conditions
    exact ⟨review, member, same, base, source, standing⟩
  · rintro ⟨review, member, same, base, source, standing⟩
    have selected : review ∈ activeBases reviews row := by
      refine List.mem_filter.mpr ⟨member, ?_⟩
      simp [same, base, source, standing]
    have nonempty : activeBases reviews row ≠ [] :=
      List.ne_nil_of_mem selected
    simpa [hasActiveBase] using nonempty

end ParishKit.Responses
