import Mathlib.Data.List.ReduceOption
import ParishKit.Lib.Except

/-!
# Bounded pagination

A collection is read page by page. Identities, totals and row numbers are checked before
a row is kept, and a page that proves nothing fails the whole read.
-/

namespace ParishKit.ParishSoft

open ParishKit.Lib

inductive ReadFault where
  /-- A `ValueError` for the contract or the bounds. -/
  | invalid (message : String)
  | incomplete (message : String)
  | shifted (message : String)
  /-- What the caller's fetch raised. -/
  | fetch
deriving DecidableEq, Repr

/-- The names of the two paging fields are the fetch's own. -/
structure PageContract (Field : Type) where
  envelope : Bool
  zeroProbe : Bool
  totalField : Option Field
  ordinalField : Option Field

/-! ## Responses -/

/-- A JSON value where a list of records is wanted. An item is `none` when it is no
record. -/
inductive PageData (Row : Type) where
  | null
  | array (items : List (Option Row))
  | other

structure PagingInfo where
  totalRecords : Int
  totalPages : Int
  pageSize : Int
  pageNumber : Int

/-- An envelope is a mapping with the keys `data` and `pagingInfo` and no others, and its
paging information is `none` unless it is a mapping of the four integers. -/
inductive Response (Row : Type) where
  | bare (value : PageData Row)
  | envelope (data : PageData Row) (info : Option PagingInfo)

/-- How a record shows its identity and its integer fields. -/
structure RowReader (Row Field Identity : Type) where
  identify : Row → Except ReadFault Identity
  /-- A field's value when it is an integer. -/
  intField : Field → Row → Option Int

/-! ## The collection -/

structure Collection (Row Identity : Type) where
  rows : List Row
  identities : List Identity
  received : Nat
  expectedTotal : Option Int
  ordinalOrigin : Option Int

def Collection.empty {Row Identity : Type} : Collection Row Identity :=
  ⟨[], [], 0, none, none⟩

section Adding

variable {Row Field Identity : Type} [BEq Row] [DecidableEq Identity]
  (contract : PageContract Field) (reader : RowReader Row Field Identity) (maximum : Nat)

/-- The rows of one page by their identities. -/
abbrev PageRows (Row Identity : Type) :=
  List (Identity × Row)

def PageRows.get? (page : PageRows Row Identity) (identity : Identity) : Option Row :=
  (page.find? fun entry => entry.1 = identity).map Prod.snd

omit [BEq Row] [DecidableEq Identity] in
def checkTotal (collection : Collection Row Identity) (row : Row) :
    Except ReadFault (Option Int) :=
  match contract.totalField with
  | none => .ok collection.expectedTotal
  | some field =>
      match reader.intField field row with
      | none => .error (.incomplete "Source total is unavailable.")
      | some total =>
          if ¬(1 ≤ total ∧ total ≤ maximum) then
            .error (.incomplete "Source total is unavailable.")
          else if collection.expectedTotal.any fun expected => total ≠ expected then
            .error (.shifted "Source total changed during read.")
          else .ok (some total)

omit [BEq Row] [DecidableEq Identity] in
def checkOrdinal (collection : Collection Row Identity) (row : Row) :
    Except ReadFault (Option Int) :=
  match contract.ordinalField with
  | none => .ok collection.ordinalOrigin
  | some field =>
      match reader.intField field row with
      | none => .error (.incomplete "Source ordinal is unavailable.")
      | some ordinal =>
          match collection.ordinalOrigin with
          | none =>
              if ordinal ≠ 0 ∧ ordinal ≠ 1 then
                .error (.incomplete "Source first row is missing.")
              else if ordinal ≠ collection.received + ordinal then
                .error (.shifted "Source row order is discontinuous.")
              else .ok (some ordinal)
          | some origin =>
              if ordinal ≠ collection.received + origin then
                .error (.shifted "Source row order is discontinuous.")
              else .ok (some origin)

/-- An identity that this page repeats with an equal record, when it has been seen. -/
def isRepeat (page : PageRows Row Identity) (identity : Identity) (row : Row) : Bool :=
  (PageRows.get? page identity).any fun kept => kept == row

/-- An identity seen before is refused, unless its record is repeated on this page. -/
def checkIdentity (collection : Collection Row Identity) (page : PageRows Row Identity)
    (identity : Identity) (row : Row) : Except ReadFault Unit :=
  if identity ∈ collection.identities ∧ isRepeat page identity row = false then
    if (PageRows.get? page identity).isNone then
      .error (.shifted "Source collection repeats an identity.")
    else .error (.incomplete "Source collection repeats an identity.")
  else .ok ()

def addRow (state : Collection Row Identity × PageRows Row Identity) (row : Row) :
    Except ReadFault (Collection Row Identity × PageRows Row Identity) := do
  let identity ← reader.identify row
  checkIdentity state.1 state.2 identity row
  let expectedTotal ← checkTotal contract reader maximum state.1 row
  let ordinalOrigin ← checkOrdinal contract reader state.1 row
  let received := state.1.received + 1
  if isRepeat state.2 identity row then
    pure ({ state.1 with expectedTotal, ordinalOrigin, received }, state.2)
  else
    pure (⟨state.1.rows ++ [row], state.1.identities ++ [identity], received, expectedTotal,
      ordinalOrigin⟩, state.2 ++ [(identity, row)])

/-- `_Collection.add`. -/
def Collection.add (collection : Collection Row Identity) (rows : List Row) :
    Except ReadFault (Collection Row Identity) :=
  if maximum < collection.received + rows.length then
    .error (.incomplete "Source collection exceeds its row bound.")
  else
    Prod.fst <$> rows.foldlM (addRow contract reader maximum) (collection, [])

omit [BEq Row] [DecidableEq Identity] in
/-- `_Collection.finish`. -/
def Collection.finish (collection : Collection Row Identity) : Except ReadFault (List Row) :=
  if collection.expectedTotal.any fun total =>
      total ≠ (collection.received : Int) then
    .error (.shifted "Source collection does not match its total.")
  else .ok collection.rows

end Adding

/-! ## Pages -/

section Pages

variable {Row : Type}

/-- `_array`. -/
def arrayRows (value : PageData Row) (size : Nat) : Except ReadFault (List Row) :=
  match value with
  | .array items =>
      if items.length > size then
        .error (.incomplete "Source page has an invalid array shape.")
      else if items.any Option.isNone then
        .error (.incomplete "Source page contains an invalid record.")
      else .ok items.reduceOption
  | _ => .error (.incomplete "Source page has an invalid array shape.")

/-- An answer to a contract without an envelope. -/
def bareRows (response : Response Row) (size : Nat) : Except ReadFault (List Row) :=
  match response with
  | .bare value => arrayRows value size
  | .envelope _ _ => arrayRows .other size

def pageCount (total : Int) (size : Nat) : Int :=
  (total + size - 1).fdiv size

def PagingInfo.Consistent (info : PagingInfo) (position size maximum : Nat) : Prop :=
  0 ≤ info.totalRecords ∧ info.totalRecords ≤ maximum ∧ info.pageSize = size ∧
    info.pageNumber = position ∧
    (if info.totalRecords = 0 then info.totalPages = 0 ∨ info.totalPages = 1
      else info.totalPages = pageCount info.totalRecords size) ∧
    position ≤ max (pageCount info.totalRecords size) 1

instance (info : PagingInfo) (position size maximum : Nat) :
    Decidable (info.Consistent position size maximum) :=
  inferInstanceAs (Decidable (_ ∧ _ ∧ _ ∧ _ ∧ _ ∧ _))

/-- Only an explicit count of zero makes an absent list an empty one. -/
def envelopeData (data : PageData Row) (total : Int) : PageData Row :=
  match data with
  | .null => if total = 0 then .array [] else .null
  | value => value

/-- `_envelope`: the rows, the total, and whether this page is the last. -/
def envelopeRows (response : Response Row) (position size maximum : Nat) :
    Except ReadFault (List Row × Int × Bool) :=
  match response with
  | .bare _ => .error (.incomplete "Source paging envelope is unavailable.")
  | .envelope _ none => .error (.incomplete "Source paging metadata is invalid.")
  | .envelope data (some info) =>
      if ¬info.Consistent position size maximum then
        .error (.incomplete "Source paging metadata is inconsistent.")
      else do
        let rows ← arrayRows (envelopeData data info.totalRecords) size
        if (rows.length : Int) ≠
            min (size : Int) (max 0 (info.totalRecords - (position - 1) * size)) then
          .error (.incomplete "Source page is incomplete.")
        else
          pure (rows, info.totalRecords,
            decide (max (pageCount info.totalRecords size) 1 ≤ position))

end Pages

/-! ## Reading -/

section Reading

variable {Row Field Identity : Type} [BEq Row] [DecidableEq Identity]
  (contract : PageContract Field) (reader : RowReader Row Field Identity)
  (pageSize maximumRecords maximumPages : Nat)

/-- Where a scan goes on: the position, the step, and whether it is done. -/
structure ProbeResult (Row Identity : Type) where
  collection : Collection Row Identity
  position : Nat
  step : Nat
  done : Bool

/-- Whether a record of the second probe declares another total than the first probe. -/
def probeTotalMoved (collection : Collection Row Identity) (second : List Row) : Bool :=
  contract.totalField.any fun field => second.any fun row =>
    (reader.intField field row).any fun total => some total ≠ collection.expectedTotal

/-- A second probe that is the first one moved on by one row. -/
def offByOne (first second : List Row) : Bool :=
  1 < first.length && (first.length - 1 ≤ second.length &&
    first.drop 1 == second.take (first.length - 1))

/-- `_probe`. -/
def probe (first second : List Row) : Except ReadFault (ProbeResult Row Identity) := do
  let collection ← Collection.empty.add contract reader maximumRecords first
  if first.isEmpty then do
    let collection ← collection.add contract reader maximumRecords second
    pure ⟨collection, 2, 1, second.isEmpty⟩
  else if first == second then pure ⟨collection, 2, 1, false⟩
  else if probeTotalMoved contract reader collection second then
    .error (.shifted "Source total changed during read.")
  else do
    let firstIds ← first.mapM reader.identify
    let secondIds ← second.mapM reader.identify
    if ¬secondIds.Nodup then .error (.incomplete "Source probe repeats an identity.")
    else if ∃ identity ∈ secondIds, identity ∈ firstIds then
      if offByOne first second then pure ⟨collection, first.length, pageSize, false⟩
      else .error (.incomplete "Source zero-origin probe is ambiguous.")
    else do
      let collection ← collection.add contract reader maximumRecords second
      pure ⟨collection, 2, 1, second.isEmpty⟩

/-- What one page adds to the collection, how many rows it has, and whether it is the
last. An envelope's total is the collection's from then on. -/
def nextPage (response : Response Row) (position : Nat)
    (collection : Collection Row Identity) :
    Except ReadFault (Collection Row Identity × Nat × Bool) :=
  if contract.envelope then do
    let page ← envelopeRows response position pageSize maximumRecords
    if collection.expectedTotal.any fun expected => expected ≠ page.2.1 then
      .error (.shifted "Source total changed during read.")
    else do
      let added ← { collection with expectedTotal := some page.2.1 }.add contract reader
        maximumRecords page.1
      pure (added, page.1.length, page.2.2)
  else do
    let rows ← bareRows response pageSize
    let added ← collection.add contract reader maximumRecords rows
    pure (added, rows.length, rows.isEmpty)

variable (fetch : Nat → Nat → Except ReadFault (Response Row))

/-- The loop of `read_pages`, with the requests that the bound leaves. `fetch` is asked
for the answer to a numbered request for a position. -/
def readLoop : Nat → Nat → Nat → Nat → Collection Row Identity →
    Except ReadFault (List Row)
  | 0, _, _, _, _ => .error (.incomplete "Source collection exceeds its page bound.")
  | left + 1, requests, position, step, collection => do
      let response ← fetch requests position
      let page ← nextPage contract reader pageSize maximumRecords response position collection
      if page.2.2 then page.1.finish
      else
        let advance :=
          if step = pageSize ∧ contract.zeroProbe = true then page.2.1 else step
        readLoop left (requests + 1) (position + advance) step page.1

/-- One request within the bound. -/
def boundedFetch (requests position : Nat) : Except ReadFault (Response Row) :=
  if maximumPages ≤ requests then
    .error (.incomplete "Source collection exceeds its page bound.")
  else fetch requests position

def ValidBounds : Prop :=
  1 ≤ pageSize ∧ pageSize ≤ 500 ∧ 1 ≤ maximumRecords ∧ maximumRecords ≤ 1000000 ∧
    1 ≤ maximumPages ∧ maximumPages ≤ 10000 ∧
    ¬(contract.envelope = true ∧ contract.zeroProbe = true)

instance : Decidable (ValidBounds contract pageSize maximumRecords maximumPages) :=
  inferInstanceAs (Decidable (_ ∧ _ ∧ _ ∧ _ ∧ _ ∧ _ ∧ _))

def readPages : Except ReadFault (List Row) :=
  if ¬ValidBounds contract pageSize maximumRecords maximumPages then
    .error (.invalid "Invalid source pagination contract or bounds.")
  else if contract.zeroProbe then do
    let response ← boundedFetch maximumPages fetch 0 0
    let first ← bareRows response pageSize
    let response ← boundedFetch maximumPages fetch 1 1
    let second ← bareRows response pageSize
    let probed ← probe contract reader pageSize maximumRecords first second
    if probed.done then probed.collection.finish
    else
      readLoop contract reader pageSize maximumRecords fetch (maximumPages - 2) 2
        probed.position probed.step probed.collection
  else
    readLoop contract reader pageSize maximumRecords fetch maximumPages 0 1 1
      Collection.empty

end Reading

end ParishKit.ParishSoft
