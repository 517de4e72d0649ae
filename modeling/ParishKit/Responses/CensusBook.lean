import ParishKit.Pipeline
import ParishKit.Responses.Creation

/-!
# The census work of one Family

The responses of one Family in live mode with the changes they made, the reviews
of those changes and the changes the parish added. `proposalIndex` is the change
of an item that the next response finds.
-/

namespace ParishKit.Responses

open ParishKit.Pipeline

/-! ## Answers -/

/-- One Member's answer: every ordinary field, or one terminal request. -/
inductive MemberAnswer where
  | ordinary (values : MemberField → Value)
  | moved
  | deceased (deathDate : Value)

def MemberAnswer.answer : MemberAnswer → Field → Option Value
  | .ordinary values, .member field => some (values field)
  | .moved, .request .movedHousehold => some (.boolean true)
  | .deceased _, .request .deceasedStatus => some (.boolean true)
  | .deceased deathDate, .request .deathDate => some deathDate
  | _, _ => none

/-- The complete census answers of a response. -/
structure CensusAnswers where
  family : FamilyField → Value
  members : List (String × MemberAnswer)
  proposedMembers : List (String × Value)

namespace CensusAnswers

def member? (answers : CensusAnswers) (key : String) : Option MemberAnswer :=
  (answers.members.find? fun row => row.1 == key).map Prod.snd

def proposedMember? (answers : CensusAnswers) (key : String) : Option Value :=
  (answers.proposedMembers.find? fun row => row.1 == key).map Prod.snd

/-- `census_answer`: `none` when the response gives no answer. -/
def answer (answers : CensusAnswers) (item : Item) : Option Value :=
  match item.entityKind, item.field with
  | .family, .family field => some (answers.family field)
  | .family, _ => none
  | .proposedMember, _ => answers.proposedMember? item.entityKey
  | .member, field =>
      (answers.member? item.entityKey).bind fun found => found.answer field

end CensusAnswers

/-! ## Rows -/

/-- One shown item of a form. It names a change, or an addition when it shows the
parish's value. -/
structure CensusEntry where
  item : Item
  change : Nat
  version : Option Nat
  decision : Option Nat
  shown : Shown
deriving DecidableEq

/-- `shownItems` is set on a response drawn as the reviewed form, `answers` on
one whose campaign asked for the census. -/
structure CensusResponse where
  familyVersion : Nat
  answers : Option CensusAnswers
  shownItems : Option (List CensusEntry)

inductive AdditionState where
  | opened
  | entered
  | withdrawn
deriving DecidableEq, Repr

/-- A census change the parish added. `madeAfter` counts the responses before it,
`baseline` is ParishSoft's value when it was added. -/
structure CensusAddition where
  pk : Nat
  item : Item
  value : Value
  baseline : KnownValue
  inPlaceOf : Option Nat
  madeAfter : Nat
  state : AdditionState
  version : Nat
deriving DecidableEq

/-- A refresh check of a final change at one of its versions. -/
structure RefreshCheck where
  proposal : Nat
  version : Nat
  outcome : CheckOutcome
deriving DecidableEq

/-- A review is named by its position in `reviews`. `drawn` are the entries that
the forms opened since the last response recorded. -/
structure CensusBook where
  responses : List CensusResponse
  rows : List ProposedChange
  reviews : List ProposalReview
  additions : List CensusAddition
  checks : List RefreshCheck
  drawn : List CensusEntry
  generation : Nat

def CensusBook.empty : CensusBook :=
  ⟨[], [], [], [], [], [], 0⟩

def Execution.inHistory : Execution → Bool
  | .superseded => true
  | .cancelled => true
  | _ => false

/-- Entered by hand or written, which the download may not show yet. -/
def Execution.isEntered : Execution → Bool
  | .published => true
  | .resolvedExternal => true
  | _ => false

def Execution.isResolved : Execution → Bool
  | .published => true
  | .resolvedExternal => true
  | .resolvedUpstream => true
  | _ => false

/-- A closed change that was not entered is skipped for good. -/
def Execution.closedForGood (execution : Execution) : Bool :=
  !execution.isOpen && !execution.isEntered

/-- `TERMINAL_FIELDS`: requests whose latest row outlives later responses. -/
def Item.isTerminal (item : Item) : Bool :=
  match item.entityKind, item.field with
  | .member, .request _ => true
  | _, _ => false

/-- `ORDINARY_KINDS`. -/
def Item.isOrdinary (item : Item) : Bool :=
  match item.entityKind, item.field with
  | .family, .family _ => true
  | .member, .member _ => true
  | _, _ => false

namespace CensusBook

def row? (book : CensusBook) (pk : Nat) : Option ProposedChange :=
  book.rows.find? fun row => row.pk == pk

def addition? (book : CensusBook) (pk : Nat) : Option CensusAddition :=
  book.additions.find? fun addition => addition.pk == pk

/-- The version the next response takes. -/
def nextVersion (book : CensusBook) : Nat :=
  book.responses.length + 1

/-- `census_submission`: the last response that answered the census. -/
def censusSubmission (book : CensusBook) :
    Option (CensusResponse × CensusAnswers) :=
  book.responses.reverse.findSome? fun response =>
    response.answers.map fun answers => (response, answers)

/-- No row of the item before `version` is on a later response. -/
def newestBefore (book : CensusBook) (version : Nat) (row : ProposedChange) :
    Bool :=
  row.submission < version && book.rows.all fun other =>
    other.item != row.item || version ≤ other.submission ||
      other.submission ≤ row.submission

/-- No later response of the Family has a row of the item. -/
def newest (book : CensusBook) (row : ProposedChange) : Bool :=
  book.rows.all fun other =>
    other.item != row.item || other.submission ≤ row.submission

end CensusBook

/-! ## What an entry shows -/

section Shown

variable [Unicode]

/-- `same`: equal under the field's canonical comparison. -/
def sameValue (kind : ValueKind) (left right : Value) : Bool :=
  canonicalValue kind left == canonicalValue kind right

/-- `census_shown`: `none` when the entry showed no value. -/
def censusShown (entry : CensusEntry) (row : ProposedChange)
    (review : Option ProposalReview) (source : KnownValue) : Option Value :=
  match entry.shown with
  | .family => some row.submittedValue
  | .reviewer => review.bind fun found => found.adminValue
  | _ =>
      if entry.item.entityKind = .proposedMember ∨ entry.item.isTerminal then
        none
      else
        some (source.getD .null)

/-- `left_as_shown`. -/
def leftAsShown (entry : CensusEntry) (row : ProposedChange)
    (review : Option ProposalReview) (source : KnownValue)
    (answer : Option Value) : Bool :=
  let kind := entry.item.field.kind
  match censusShown entry row review source with
  | none =>
      match answer, source with
      | none, _ => true
      | some value, some held =>
          entry.item.entityKind == .member && sameValue kind value held
      | some _, none => false
  | some shown => answer.any fun value => sameValue kind value shown

/-! ## The change of an item -/

namespace CensusBook

def review? (book : CensusBook) (entry : CensusEntry) : Option ProposalReview :=
  entry.decision.bind fun index => book.reviews[index]?

/-- The change an entry names, while it is in force. -/
def shownRow (book : CensusBook) (entry : CensusEntry) :
    Option ProposedChange :=
  if entry.shown = .parish then none
  else (book.row? entry.change).filter fun row => !row.execution.inHistory

/-- Whether `_shown_still_answered` finds the change an entry names. -/
def stillShown (book : CensusBook) (answers : CensusAnswers)
    (entry : CensusEntry) : Option ProposedChange :=
  (book.shownRow entry).filter fun row =>
    entry.shown == .baseline ||
      leftAsShown entry row (book.review? entry) none (answers.answer entry.item)

/-- `_shown_still_answered`. -/
def shownStillAnswered (book : CensusBook) (response : CensusResponse)
    (answers : CensusAnswers) (item : Item) : Option ProposedChange :=
  ((response.shownItems.getD []).filter fun entry => entry.item == item)
    |>.filterMap (book.stillShown answers) |>.getLast?

/-- `_kept_still_answered`. -/
def keptStillAnswered (book : CensusBook) (version : Nat)
    (answers : CensusAnswers) (item : Item) : Option ProposedChange :=
  if item.isOrdinary then
    (book.rows.find? fun row =>
      row.item == item && book.newestBefore version row).filter fun row =>
        !row.execution.closedForGood && (answers.answer item).any fun answer =>
          sameValue item.field.kind answer row.submittedValue
  else
    none

/-- The preserved terminal work of a Member. -/
def preserved (book : CensusBook) (item : Item) : Option ProposedChange :=
  if item.isTerminal then
    book.rows.find? fun row => row.item == item && book.newest row
  else
    none

/-- The row a response made of an item. -/
def ownRow (book : CensusBook) (version : Nat) (item : Item) :
    Option ProposedChange :=
  book.rows.find? fun row => row.submission == version && row.item == item

/-- `proposal_index` of the latest response, at one item. -/
def proposalIndex (book : CensusBook) (item : Item) : Option ProposedChange :=
  match book.censusSubmission with
  | none => book.preserved item
  | some (response, answers) =>
      (book.ownRow response.familyVersion item).or
        ((book.shownStillAnswered response answers item).or
          ((book.keptStillAnswered response.familyVersion answers item).or
            (book.preserved item)))

/-- The Members whose deceased request is already resolved. -/
def resolvedSemantics (book : CensusBook) (key : String) : Bool :=
  (book.proposalIndex ⟨.member, key, .request .deceasedStatus⟩).any fun row =>
    row.execution.isResolved

end CensusBook

end Shown

/-! ## Standing additions -/

namespace CensusBook

/-- `standing_additions`, the one of an item the form reads: its open addition,
else its newest entered one. -/
def standing (book : CensusBook) (item : Item) : Option CensusAddition :=
  let ofItem (state : AdditionState) : Option CensusAddition :=
    (book.additions.filter fun addition =>
      addition.item == item && addition.state == state).getLast?
  (ofItem .opened).or (ofItem .entered)

/-- `covered_by_addition`. -/
def coveredByAddition (book : CensusBook) (row : ProposedChange) : Bool :=
  book.additions.any fun addition =>
    addition.item == row.item && (addition.state == .opened ||
      (addition.state == .entered && row.submission ≤ addition.madeAfter))

/-- `replaced`: a later response of the Family has a change of the field. -/
def replaced (book : CensusBook) (row : ProposedChange) : Bool :=
  book.rows.any fun other =>
    other.item == row.item && row.submission < other.submission

/-- The latest refresh check at the change's version. -/
def check (book : CensusBook) (row : ProposedChange) : Option CheckOutcome :=
  ((book.checks.filter fun found =>
    found.proposal == row.pk && found.version == row.version).getLast?).map
      (·.outcome)

end CensusBook

end ParishKit.Responses
