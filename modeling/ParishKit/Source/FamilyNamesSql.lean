import Mathlib.Data.List.Dedup
import Mathlib.Data.List.Sort
import ParishKit.Lib.JsonText
import ParishKit.Source.FamilyNames

/-!
# Family names in the database

The functions that build the same names in SQL, from one JSON text for each head. A
query that raises gives no name.
-/

namespace ParishKit.Source.FamilyNames

open ParishKit.Lib

/-- `array_to_string` of texts. -/
def arrayToString (separator : Text) (parts : List Text) : Text :=
  separator.intercalate parts

/-- `stewardship_name_series_v1`. -/
def nameSeriesSql (parts : List Text) : Text :=
  let kept := parts.filter fun part => decide (part ≠ [])
  if kept.length < 3 then arrayToString " and ".toList kept
  else arrayToString ", ".toList (kept.take (kept.length - 1)) ++ " and ".toList ++
    (kept[kept.length - 1]?).getD []

/-- `jsonb_build_array` of two texts, as text. -/
def pairText (first last : Text) : Text :=
  '[' :: quoted first ++ ", ".toList ++ quoted last ++ [']']

/-- `stewardship_family_head_part_v1` of an active head. -/
def headPart (head : Head) : Text :=
  if strip head.first = [] ∧ strip head.last = [] then []
  else pairText (strip head.first) (strip head.last)

/-- `->>`: the text of an array's element. -/
def elementText (value : DataTree Scalar) (index : Nat) : Option Text :=
  match value with
  | .list items =>
      match items[index]? with
      | some (.leaf (.text text)) => some text
      | some (.leaf .null) => none
      | some item => some (jsonText item)
      | none => none
  | _ => none

/-- A row of `heads`. -/
structure NameRow where
  o : Nat
  first : Text
  last : Text
  key : Option Text
deriving DecidableEq

variable (folding : CaseFolding)

/-- The row of a part and its ordinality. -/
def nameRow (part : Text × Nat) : Option NameRow := do
  let value ← loads part.1
  let first := (elementText value 0).getD []
  let last := (elementText value 1).getD []
  some ⟨part.2, first, last, if last ≠ [] then some (folding.casefold last) else none⟩

/-- `heads`: the parts that are not blank, with ordinality. -/
def nameRows (parts : List Text) : Option (List NameRow) :=
  ((parts.zipIdx 1).filter fun part => decide (part.1 ≠ [])).mapM (nameRow folding)

/-- A row of `groups`. -/
structure GroupRow where
  o : Nat
  last : Text
  firsts : Text
  own : Bool

/-- `GROUP BY` one key. -/
def groupRow (surname : Text) (recorded : Bool) (rows : List NameRow) (key : Text) :
    GroupRow :=
  let members := rows.filter fun row => row.key = some key
  { o := ((members.map NameRow.o).min?).getD 0
    last := ((members.map NameRow.last).head?).getD []
    firsts := nameSeriesSql (members.map NameRow.first)
    own := recorded && decide (key = folding.casefold surname) }

/-- `groups`, in no order. -/
def groupRows (surname : Text) (recorded : Bool) (rows : List NameRow) : List GroupRow :=
  ((rows.filterMap NameRow.key).dedup).map (groupRow folding surname recorded rows)

/-- `ORDER BY` a rank, then the ordinality. -/
def orderBy {Row : Type} (rank : Row → Nat × Nat) (rows : List Row) : List Row :=
  rows.insertionSort fun left right =>
    (rank left).1 < (rank right).1 ∨
      (rank left).1 = (rank right).1 ∧ (rank left).2 ≤ (rank right).2

/-- `own DESC, o`. -/
def GroupRow.rank (group : GroupRow) : Nat × Nat :=
  (if group.own then 0 else 1, group.o)

/-- The parts of `names`, of the groups and of the heads without a key: each with
`NOT own`, or the null that is last. -/
def nameParts (groups : List GroupRow) (rows : List NameRow) : List (Text × Nat × Nat) :=
  (groups.map fun group => (group.firsts, group.rank)) ++
    (rows.filter fun row => row.key = none).map fun row => (row.first, 2, row.o)

/-- `stewardship_family_heads_name_v2`. -/
def familyHeadsNameSql (surname : Text) (recorded : Bool) (parts : List Text) :
    Option Text := do
  let rows ← nameRows folding parts
  let groups := groupRows folding surname recorded rows
  let same := nameSeriesSql (rows.map NameRow.first)
  let surnames := arrayToString " / ".toList
    ((orderBy GroupRow.rank groups).map fun group =>
      if group.own then surname else group.last)
  let names := arrayToString " / ".toList
    (((orderBy (fun part => part.2) (nameParts groups rows)).map fun part => part.1).filter
      fun part => decide (part ≠ []))
  some (if groups.all GroupRow.own then
      if same = [] then surname else surname ++ ", ".toList ++ same
    else if names = [] then surnames
    else surnames ++ ", ".toList ++ names)

end ParishKit.Source.FamilyNames
