import ParishKit.Responses.CensusBook

/-!
# The reviewed census form

`census_entries` records what a form shows for each change in force and each
standing addition; `census_draw` draws a field from its entry; the answers a form
draws are those a Family sends when it changes nothing. `none` is an exception
of the source, which draws no form.
-/

namespace ParishKit.Responses

open ParishKit.Pipeline

/-! ## Inputs -/

def familyFields : List FamilyField :=
  [.homeAddress, .mailingAddress, .emailOptOut]

def requestFields : List RequestField :=
  [.movedHousehold, .deceasedStatus, .deathDate]

/-- The census fields of one snapshot: the household's, and those of each active
Member. -/
structure CensusInputs where
  familyKey : String
  members : List String
  distinct : members.Nodup
  source : Item → KnownValue

namespace CensusInputs

def familyItem (inputs : CensusInputs) (field : FamilyField) : Item :=
  ⟨.family, inputs.familyKey, .family field⟩

def memberItems (key : String) : List Item :=
  memberFields.map (fun field => ⟨.member, key, .member field⟩) ++
    requestFields.map fun field => ⟨.member, key, .request field⟩

def fields (inputs : CensusInputs) : List Item :=
  familyFields.map inputs.familyItem ++ inputs.members.flatMap memberItems

/-- The source of a field the inputs have, else unknown. -/
def sourceOf (inputs : CensusInputs) (item : Item) : KnownValue :=
  if item ∈ inputs.fields then inputs.source item else none

end CensusInputs

/-! ## Entries -/

/-- `PARISH_FIELDS`: where a change the parish added is drawn. -/
def Item.drawsAddition (item : Item) : Bool :=
  match item.entityKind, item.field with
  | .member, .member _ => true
  | .family, .family .homeAddress => true
  | .family, .family .mailingAddress => true
  | _, _ => false

namespace CensusBook

def latestReview (book : CensusBook) (pk : Nat) :
    Option (ProposalReview × Nat) :=
  (book.reviews.zipIdx.filter fun found => found.1.proposal == pk).getLast?

/-- The walk of `edit_review` along the replaced changes. -/
def editReviewFrom (book : CensusBook) (wanted : Option Value) :
    Nat → Nat → Option Nat
  | 0, _ => none
  | fuel + 1, pk =>
      match book.latestReview pk with
      | some (review, index) =>
          if review.adminValue.isSome ∧ review.adminValue = wanted then
            some index
          else
            none
      | none =>
          (book.rows.find? fun row => row.supersededBy == some pk).bind
            fun before => book.editReviewFrom wanted fuel before.pk

/-- `edit_review`: the review whose Edit set the row's reviewer's value. -/
def editReview (book : CensusBook) (row : ProposedChange) : Option Nat :=
  book.editReviewFrom row.adminValue (book.rows.length + 1) row.pk

end CensusBook

section Form

variable [Unicode]

namespace CensusBook

/-- The changes of `proposal_index` that a form can show. -/
def shownChanges (book : CensusBook) : List ProposedChange :=
  book.rows.filter fun row =>
    book.proposalIndex row.item == some row && !row.execution.inHistory &&
      !(row.item.entityKind == .proposedMember && row.execution.isEntered)

end CensusBook

/-- The entry of one change, when the form shows it. -/
def censusEntry (inputs : CensusInputs) (book : CensusBook)
    (row : ProposedChange) : Option (Option CensusEntry) := do
  let placement ← censusPlacement row.decision row.execution row.handling
    row.item.entityKind row.adminValue.isSome
    (if row.execution.isEntered then book.check row else none)
  let showable := row.item.entityKind == .proposedMember ||
    (row.item.entityKind == .member && (inputs.sourceOf row.item).isSome)
  some <| (placement.bind fun found => shownValue .census found showable).map
    fun shown =>
      let review := if shown = .reviewer then book.editReview row else none
      { item := row.item
        change := row.pk
        version := some row.version
        decision := review
        shown :=
          if shown = .reviewer ∧ review.isNone then .family else shown }

/-- `_unchanged_since`: whether ParishSoft's value is still the recorded one. -/
def unchangedSince (kind : ValueKind) (now recorded : KnownValue) : Bool :=
  match recorded, now with
  | some before, some current => sameValue kind before current
  | none, none => true
  | _, _ => false

/-- Whether the form shows a standing addition over the Family's change. -/
def showsAddition (inputs : CensusInputs) (book : CensusBook)
    (addition : CensusAddition) : Bool :=
  let change := book.shownChanges.find? fun row =>
    row.item == addition.item && row.decision != .ignored
  addition.item.drawsAddition && inputs.fields.contains addition.item &&
    !(change.any fun row =>
      addition.madeAfter < row.submission || row.execution.isOpen) &&
    (addition.state == .opened ||
      unchangedSince addition.item.field.kind (inputs.source addition.item)
        addition.baseline)

/-- `parish_entries`. -/
def parishEntries (inputs : CensusInputs) (book : CensusBook) :
    List CensusEntry :=
  (book.additions.filter fun addition =>
    book.standing addition.item == some addition &&
      showsAddition inputs book addition).map fun addition =>
    ⟨addition.item, addition.pk, none, none, .parish⟩

/-- `census_entries` of the form drawn for the latest response. -/
def censusEntries (inputs : CensusInputs) (book : CensusBook) :
    Option (List CensusEntry) :=
  if book.responses = [] then
    some []
  else do
    let entries ← book.shownChanges.mapM (censusEntry inputs book)
    some (entries.reduceOption ++ parishEntries inputs book)

/-! ## Drawing -/

/-- The entry of a field's change. -/
def changeEntry (entries : List CensusEntry) (item : Item) :
    Option CensusEntry :=
  (entries.filter fun entry =>
    entry.item == item && entry.shown != .parish).getLast?

/-- `census_additions` at one field: the addition drawn, unless withdrawn. -/
def drawnAddition (book : CensusBook) (entries : List CensusEntry)
    (item : Item) : Option CensusAddition :=
  ((entries.filter fun entry =>
    entry.item == item && entry.shown == .parish).filterMap fun entry =>
      (book.addition? entry.change).filter fun addition =>
        addition.state != .withdrawn).getLast?

/-- Whether a value differs from what ParishSoft has. -/
def differsFrom (kind : ValueKind) (source : KnownValue) (value : Value) :
    Option Bool :=
  match source with
  | none => some true
  | some held => do
      let left ← canonicalValue kind value
      let right ← canonicalValue kind held
      some (left != right)

/-- A reviewer's or the parish's value, marked when it differs from the
baseline. -/
def drawnOver (kind : ValueKind) (source : KnownValue) (value : Value) :
    Option EffectiveValue :=
  (differsFrom kind source value).map fun changed =>
    ⟨some value, if changed then .familyChanged else .current, changed, false⟩

/-- `census_draw` of a change's entry. -/
def censusDraw (book : CensusBook) (kind : ValueKind) (source : KnownValue)
    (entry : CensusEntry) : Option EffectiveValue :=
  match entry.shown with
  | .family => do
      let row ← book.row? entry.change
      let drawn ← mergeValue kind source
        (some ⟨row.baseline, row.submittedValue, none⟩)
      some (if row.decision = .ignored then ⟨drawn.value, .current, false, false⟩
        else drawn)
  | .reviewer => do
      let review ← book.review? entry
      drawnOver kind source (← review.adminValue)
  | _ => mergeValue kind source none

/-- `census_fields` at one field: an addition wins over the change beside it. -/
def censusField (inputs : CensusInputs) (book : CensusBook)
    (entries : List CensusEntry) (item : Item) : Option EffectiveValue :=
  let kind := item.field.kind
  let source := inputs.source item
  match drawnAddition book entries item, changeEntry entries item with
  | some addition, _ => drawnOver kind source addition.value
  | none, some entry => censusDraw book kind source entry
  | none, none => mergeValue kind source none

/-- The form is drawn without an exception. -/
def draws (inputs : CensusInputs) (book : CensusBook)
    (entries : List CensusEntry) : Bool :=
  inputs.fields.all fun item => (censusField inputs book entries item).isSome

/-! ## The drawn answers -/

/-- The value drawn in a field. -/
def drawnValue (inputs : CensusInputs) (book : CensusBook)
    (entries : List CensusEntry) (item : Item) : Value :=
  ((censusField inputs book entries item).bind fun drawn => drawn.value).getD
    .null

/-- The items a form shows as carried forward. -/
def carriedForward (entries : List CensusEntry) (item : Item) : Bool :=
  entries.any fun entry => entry.item == item && entry.shown != .baseline

/-- Whether `_terminal_presentation` presents the request. -/
def presentsRequest (inputs : CensusInputs) (book : CensusBook)
    (entries : List CensusEntry) (key : String) (request : RequestField) :
    Bool :=
  let item : Item := ⟨.member, key, .request request⟩
  !((book.proposalIndex item).any (fun row => row.execution.isResolved) &&
      !carriedForward entries item) &&
    drawnValue inputs book entries item == .boolean true

/-- `_terminal_presentation`, or the Member's ordinary fields. -/
def drawnMember (inputs : CensusInputs) (book : CensusBook)
    (entries : List CensusEntry) (key : String) : MemberAnswer :=
  if presentsRequest inputs book entries key .movedHousehold then
    .moved
  else if presentsRequest inputs book entries key .deceasedStatus then
    .deceased (drawnValue inputs book entries
      ⟨.member, key, .request .deathDate⟩)
  else
    .ordinary fun field =>
      drawnValue inputs book entries ⟨.member, key, .member field⟩

/-- `proposed_draw`: the New Members a form shows. -/
def proposedDraw (book : CensusBook) (entries : List CensusEntry) :
    List (String × Value) :=
  entries.filterMap fun entry =>
    if entry.item.entityKind = .proposedMember ∧ entry.shown ≠ .baseline then
      (book.row? entry.change).map fun row =>
        (entry.item.entityKey, row.submittedValue)
    else
      none

/-- The answers of a form that is sent as it was drawn. -/
def drawnAnswers (inputs : CensusInputs) (book : CensusBook)
    (entries : List CensusEntry) : CensusAnswers where
  family field := drawnValue inputs book entries (inputs.familyItem field)
  members := inputs.members.map fun key =>
    (key, drawnMember inputs book entries key)
  proposedMembers := proposedDraw book entries

end Form

end ParishKit.Responses
