import ParishKit.Lib.InstantText
import ParishKit.Lib.JsonReading

/-!
# Canonical payloads

A payload is normalized to bounded JSON, money to exact text and instants to UTC, and
written with its keys sorted. Mapping order is irrelevant; list order is kept.
-/

namespace ParishKit.Source.Canonical

open ParishKit.Lib

/-- A wall time in microseconds, and its offset from UTC when it has a timezone. -/
structure Timestamp where
  wall : Int
  offset : Option Int
  inRange : dateMin ≤ wall / dayMicros ∧ wall / dayMicros ≤ dateMax

/-- A calendar day. -/
structure SourceDate where
  day : Int
  inRange : dateMin ≤ day ∧ day ≤ dateMax

/-- A decimal; the special ones are the infinities and those that are not numbers. -/
inductive SourceDecimal where
  | finite (negative : Bool) (coefficient : Nat) (exponent : Int)
  | special
deriving DecidableEq

/-- A value that is no list or mapping. Of the others are floats, texts with surrogates
and mappings with keys that are no such text. -/
inductive SourceScalar where
  | null
  | bool (value : Bool)
  | int (value : Int)
  | text (value : Text)
  | timestamp (value : Timestamp)
  | date (value : SourceDate)
  | decimal (value : SourceDecimal)
  | other

/-! ## Scalars -/

namespace SourceDecimal

/-- The coefficient rounded to the 28 digits of the context, half to even, and scaled
back. -/
def rounded (coefficient : Nat) : Nat :=
  let unit := 10 ^ ((Nat.toDigits 10 coefficient).length - 28)
  let quotient := coefficient / unit
  let remainder := coefficient % unit
  if unit < 2 * remainder ∨ unit = 2 * remainder ∧ quotient % 2 = 1 then
    (quotient + 1) * unit
  else
    quotient * unit

/-- A coefficient and an exponent of the accepted range. -/
def accepted (coefficient : Nat) (exponent : Int) : Bool :=
  decide (rounded coefficient * 10 ^ exponent.toNat < 10 ^ 20 * 10 ^ (-exponent).toNat) &&
    decide (exponent.natAbs ≤ 30)

/-- `format(value, "f")`. -/
def fixed (negative : Bool) (coefficient : Nat) (exponent : Int) : Text :=
  let digits := fixedText (-exponent).toNat (coefficient * 10 ^ exponent.toNat)
  if negative then '-' :: digits else digits

/-- The text of an accepted decimal. -/
def text? : SourceDecimal → Option Text
  | .special => none
  | .finite negative coefficient exponent =>
      if accepted coefficient exponent = false then none
      else if coefficient = 0 then some ['0']
      else some (stripFraction (fixed negative coefficient exponent))

/-- The number it is. -/
def value : SourceDecimal → ℚ
  | .special => 0
  | .finite negative coefficient exponent =>
      (if negative then -1 else 1) * coefficient * 10 ^ exponent

end SourceDecimal

namespace Timestamp

/-- Its instant, when it has a timezone. -/
def instant? (timestamp : Timestamp) : Option Int :=
  timestamp.offset.map fun offset => timestamp.wall - offset

/-- `astimezone(UTC).isoformat()`. The range of a datetime bounds its instant too. -/
def text? (timestamp : Timestamp) : Option Text := do
  let instant ← timestamp.instant?
  if dateMin ≤ instant / dayMicros ∧ instant / dayMicros ≤ dateMax then
    some (instantText instant)
  else none

end Timestamp

/-- A text without the null character. -/
def normalizeText (value : Text) : Option Text :=
  if Char.ofNat 0 ∈ value then none else some value

def normalizeScalar : SourceScalar → Option Scalar
  | .null => some .null
  | .bool value => some (.bool value)
  | .int value => if -2 ^ 63 ≤ value ∧ value < 2 ^ 63 then some (.int value) else none
  | .text value => (normalizeText value).map .text
  | .timestamp value => value.text?.map .text
  | .date value => some (.text (isoDate (civil value.day)))
  | .decimal value => value.text?.map .text
  | .other => none

/-! ## Payloads -/

mutual

/-- `_normalize`. -/
def normalize (depth : Nat) : DataTree SourceScalar → Option (DataTree Scalar)
  | .leaf value => if 16 < depth then none else (normalizeScalar value).map .leaf
  | .list items =>
      if 16 < depth ∨ 10000 < items.length then none
      else (normalizeItems (depth + 1) items).map .list
  | .mapping entries =>
      if 16 < depth ∨ 10000 < entries.length then none
      else (normalizeEntries (depth + 1) entries).map .mapping

def normalizeItems (depth : Nat) : List (DataTree SourceScalar) → Option (List (DataTree Scalar))
  | [] => some []
  | item :: rest => do
      let normal ← normalize depth item
      let others ← normalizeItems depth rest
      some (normal :: others)

def normalizeEntries (depth : Nat) :
    List (Text × DataTree SourceScalar) → Option (List (Text × DataTree Scalar))
  | [] => some []
  | (key, item) :: rest =>
      if 16 < depth then none
      else do
        let name ← normalizeText key
        let normal ← normalize depth item
        let others ← normalizeEntries depth rest
        some ((name, normal) :: others)

end

/-- `canonical_payload`: the text and its digest. -/
def canonicalPayload (sha256 : Text → Text) (payload : DataTree SourceScalar) :
    Option (Text × Text) :=
  match payload with
  | .mapping _ => do
      let normal ← normalize 0 payload
      let text := jsonText normal.sorted
      if 1024 * 1024 < utf8Length text then none else some (text, sha256 text)
  | _ => none

/-- A payload whose mappings are dictionaries. -/
structure SourcePayload where
  tree : DataTree SourceScalar
  keyed : tree.Keyed

/-- What is read from JSON, as a payload's values. -/
def SourceScalar.ofScalar : Scalar → SourceScalar
  | .null => .null
  | .bool value => .bool value
  | .int value => .int value
  | .text value => .text value

end ParishKit.Source.Canonical
