import ParishKit.Responses.ReviewedCensus

/-!
# Census work of a response

`_derive_reviewed` judges each answered field of a reviewed form against what the
form showed; `derive_proposals` carries the same answer of any other form. Every
row is read before one is written, so a derivation is a function of the book.
`none` is an exception, which saves nothing.
-/

namespace ParishKit.Responses

open ParishKit.Pipeline

/-- The outcome of one earlier change. -/
structure Closing where
  pk : Nat
  execution : Execution
  supersededBy : Option Nat
deriving DecidableEq

/-- The rows a derivation makes and the ones it closes. -/
structure CensusWork where
  created : List ProposedChange
  closings : List Closing
deriving DecidableEq

/-- One answered field with its source. -/
structure AnsweredField where
  item : Item
  source : KnownValue
  submitted : Value
deriving DecidableEq

/-- `_answered_fields`. A deceased Member's unknown death date is no answer. -/
def answeredFields (inputs : CensusInputs) (answers : CensusAnswers) :
    List AnsweredField :=
  (inputs.fields.filterMap fun item =>
    ((answers.answer item).filter fun submitted =>
      !(item.field == .request .deathDate && submitted == .null)).map
        fun submitted => ⟨item, inputs.source item, submitted⟩) ++
  answers.proposedMembers.map fun row =>
    ⟨⟨.proposedMember, row.1, .newMember⟩, none, row.2⟩

/-- Closes `old` when it is open: replaced by a new row, else withdrawn. -/
def closeOpen (old : Option ProposedChange) (successor : Option Nat) :
    List Closing :=
  ((old.filter fun row => row.execution.isOpen).map fun row =>
    ⟨row.pk, if successor.isSome then .superseded else .cancelled,
      successor⟩).toList

/-- A terminal request kept because its Member is no longer presented, or a
death date beside a resolved deceased request that the answer gives no date. -/
def keptTerminal [Unicode] (book : CensusBook) (answers : CensusAnswers)
    (row : ProposedChange) : Bool :=
  row.item.isTerminal &&
    ((answers.member? row.item.entityKey).isNone ||
      (row.item.field == .request .deathDate &&
        book.resolvedSemantics row.item.entityKey &&
        (answers.answer row.item).all fun value => value == .null))

section Derivation

variable [Unicode]

/-- What a response is derived with: the current inputs, those its form was drawn
with, the version it takes and the snapshot it was validated against. -/
structure ResponseContext where
  inputs : CensusInputs
  shownInputs : CensusInputs
  version : Nat
  snapshot : Nat

def CensusWork.nextPk (work : CensusWork) (book : CensusBook) : Nat :=
  book.rows.length + work.created.length

def CensusWork.settle (work : CensusWork) (old new : Option ProposedChange) :
    CensusWork where
  created := work.created ++ new.toList
  closings := work.closings ++ closeOpen old (new.map (·.pk))

/-- The final pass: the open changes of the index that no answer took up. -/
def withdrawUnanswered (book : CensusBook) (answers : CensusAnswers)
    (answered : List AnsweredField) (hidden : Item → Bool) : List Closing :=
  (book.rows.filter fun row =>
    book.proposalIndex row.item == some row &&
      !(answered.any fun field => field.item == row.item) &&
      !hidden row.item && row.execution.isOpen &&
      !keptTerminal book answers row).map fun row =>
    ⟨row.pk, .cancelled, none⟩

/-! ## The reviewed form -/

/-- The change of the field that the form showed, when it is in force. -/
def shownChange (book : CensusBook) (entries : List CensusEntry)
    (item : Item) : Option (CensusEntry × ProposedChange) :=
  (changeEntry entries item).bind fun entry =>
    (book.shownRow entry).map fun row => (entry, row)

/-- Rule 1: the answer leaves what the form showed. Under a drawn addition only
its value was shown. -/
def leavesAsShown (book : CensusBook) (context : ResponseContext)
    (entries : List CensusEntry) (field : AnsweredField) : Bool :=
  match drawnAddition book entries field.item with
  | some addition =>
      sameValue field.item.field.kind field.submitted addition.value
  | none =>
      (shownChange book entries field.item).any fun (entry, row) =>
        leftAsShown entry row (book.review? entry)
          (context.shownInputs.sourceOf field.item) (some field.submitted)

/-- `_derive_reviewed` on one answered field. -/
def judgeField (book : CensusBook) (context : ResponseContext)
    (entries : List CensusEntry) (work : CensusWork) (field : AnsweredField) :
    Option CensusWork :=
  if leavesAsShown book context entries field then
    some work
  else
    let old := ((shownChange book entries field.item).map Prod.snd).or
      (book.proposalIndex field.item)
    if unchangedAnswer field.item.field.kind field.source field.submitted &&
        (drawnAddition book entries field.item).isNone then
      some (work.settle old none)
    else
      (freshChange (work.nextPk book) context.version field.item field.source
        field.submitted context.snapshot).map fun new =>
          work.settle old (some new)

/-- The items a form showed as the baseline by leaving them out. -/
def hiddenItem (entries : List CensusEntry) (item : Item) : Bool :=
  (changeEntry entries item).any fun entry => entry.shown == .baseline

/-- `_derive_reviewed`. -/
def deriveReviewed (book : CensusBook) (context : ResponseContext)
    (entries : List CensusEntry) (answers : CensusAnswers) :
    Option CensusWork := do
  let answered := answeredFields context.inputs answers
  let work ← answered.foldlM (judgeField book context entries) ⟨[], []⟩
  some { work with
    closings := work.closings ++
      withdrawUnanswered book answers answered (hiddenItem entries) }

/-! ## Any other form -/

/-- The Family answered again as before for a change already entered. -/
def answeredAsEntered (field : AnsweredField) (old : ProposedChange) : Bool :=
  !field.item.isTerminal && old.execution.isEntered &&
    sameValue field.item.field.kind old.submittedValue field.submitted

/-- The Family's answer is the open change's own. -/
def sameIntent (field : AnsweredField) (old : ProposedChange) : Bool :=
  old.execution.isOpen &&
    sameValue field.item.field.kind old.submittedValue field.submitted

/-- The row a field's answer makes. -/
def newChange (book : CensusBook) (context : ResponseContext)
    (field : AnsweredField) (pk : Nat) : Option ProposedChange :=
  match (book.proposalIndex field.item).filter (sameIntent field) with
  | some old =>
      carriedChange pk context.version old (hasActiveBase book.reviews old)
        field.source field.submitted context.snapshot
  | none =>
      freshChange pk context.version field.item field.source field.submitted
        context.snapshot

/-- `_replacement` keeps an open change whose own answer ParishSoft holds. -/
def keepsHeld (field : AnsweredField) (old : ProposedChange) : Bool :=
  field.source.isSome &&
    sameValue field.item.field.kind old.submittedValue field.submitted

/-- `derive_proposals` on one answered field. -/
def deriveField (book : CensusBook) (context : ResponseContext)
    (work : CensusWork) (field : AnsweredField) : Option CensusWork :=
  let old := book.proposalIndex field.item
  if unchangedAnswer field.item.field.kind field.source field.submitted then
    some (if old.any (keepsHeld field) then work else work.settle old none)
  else if old.any (answeredAsEntered field) then
    some (work.settle old none)
  else
    (newChange book context field (work.nextPk book)).map fun new =>
      work.settle old (some new)

/-- `derive_proposals` of a form not drawn as the reviewed form. -/
def deriveProposals (book : CensusBook) (context : ResponseContext)
    (answers : CensusAnswers) : Option CensusWork := do
  let answered := answeredFields context.inputs answers
  let work ← answered.foldlM (deriveField book context) ⟨[], []⟩
  some { work with
    closings := work.closings ++
      withdrawUnanswered book answers answered fun _ => false }

end Derivation

/-! ## Writing a derivation -/

/-- The row after a derivation. -/
def CensusWork.close (work : CensusWork) (row : ProposedChange) :
    ProposedChange :=
  match work.closings.find? fun closing => closing.pk == row.pk with
  | some closing =>
      { row with
        execution := closing.execution
        supersededBy := closing.supersededBy
        version := row.version + 1 }
  | none => row

/-- The book after a response with this work. -/
def CensusBook.respond (book : CensusBook) (answers : Option CensusAnswers)
    (shownItems : Option (List CensusEntry)) (work : CensusWork) : CensusBook :=
  { book with
    responses := book.responses ++ [⟨book.nextVersion, answers, shownItems⟩]
    rows := book.rows.map work.close ++ work.created
    drawn := [] }

end ParishKit.Responses
