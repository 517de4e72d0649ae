import ParishKit.Lib.DataTree

/-!
# JSON text

The text of a tree of JSON scalars, and its reading. A text with a fraction, an
exponent or a lone surrogate is not read: its value is no such tree.
-/

namespace ParishKit.Lib

inductive Scalar where
  | null
  | bool (value : Bool)
  | int (value : Int)
  | text (value : Text)
deriving DecidableEq

/-! ## Writing -/

def quoteMark : Char :=
  Char.ofNat 34

def backslash : Char :=
  Char.ofNat 92

def openBrace : Char :=
  Char.ofNat 123

def closeBrace : Char :=
  Char.ofNat 125

/-- What follows the backslash of a control character. -/
def controlText : Nat → Text
  | 8 => ['b']
  | 9 => ['t']
  | 10 => ['n']
  | 12 => ['f']
  | 13 => ['r']
  | code => ['u', '0', '0', Nat.digitChar (code / 16), Nat.digitChar (code % 16)]

/-- A character of a text, escaped where it must be. -/
def escaped (char : Char) : Text :=
  if char = quoteMark then [backslash, quoteMark]
  else if char = backslash then [backslash, backslash]
  else if char.toNat < 32 then backslash :: controlText char.toNat
  else [char]

def quoted (value : Text) : Text :=
  quoteMark :: value.flatMap escaped ++ [quoteMark]

def intText : Int → Text
  | .ofNat number => Nat.toDigits 10 number
  | .negSucc number => '-' :: Nat.toDigits 10 (number + 1)

def scalarText : Scalar → Text
  | .null => "null".toList
  | .bool true => "true".toList
  | .bool false => "false".toList
  | .int value => intText value
  | .text value => quoted value

mutual

/-- The text of a tree, its entries in their order. -/
def jsonText : DataTree Scalar → Text
  | .leaf value => scalarText value
  | .list items => '[' :: itemsText items ++ [']']
  | .mapping entries => openBrace :: entriesText entries ++ [closeBrace]

def itemsText : List (DataTree Scalar) → Text
  | [] => []
  | item :: rest => jsonText item ++ if rest.isEmpty then [] else ',' :: itemsText rest

def entriesText : List (Text × DataTree Scalar) → Text
  | [] => []
  | (key, item) :: rest =>
      quoted key ++ ':' :: jsonText item ++
        if rest.isEmpty then [] else ',' :: entriesText rest

end

/-- The bytes of a text in UTF-8. -/
def utf8Length (value : Text) : Nat :=
  (value.map fun char => char.utf8Size).sum

/-! ## Reading -/

/-- Without the blanks before a token. -/
def skipBlank (text : Text) : Text :=
  text.dropWhile fun char => [' ', '\t', '\n', '\r'].contains char

def hexValue (char : Char) : Option Nat :=
  if char.isDigit then some (char.toNat - 48)
  else if 'a'.toNat ≤ char.toNat ∧ char.toNat ≤ 'f'.toNat then some (char.toNat - 87)
  else if 'A'.toNat ≤ char.toNat ∧ char.toNat ≤ 'F'.toNat then some (char.toNat - 55)
  else none

/-- The number of four hexadecimal digits. -/
def hexCode : Text → Option (Nat × Text)
  | first :: second :: third :: fourth :: rest => do
      let code ← [first, second, third, fourth].foldlM (fun code char =>
        (hexValue char).map (16 * code + ·)) 0
      some (code, rest)
  | _ => none

/-- The character of a code, or of a pair of surrogates. -/
def unicodeEscape (text : Text) : Option (Char × Text) := do
  let (code, rest) ← hexCode text
  if code < 0xD800 ∨ 0xDFFF < code then some (Char.ofNat code, rest)
  else if 0xDBFF < code then none
  else match rest with
    | first :: 'u' :: rest =>
        if first = backslash then do
          let (low, rest) ← hexCode rest
          if 0xDC00 ≤ low ∧ low ≤ 0xDFFF then
            some (Char.ofNat (0x10000 + (code - 0xD800) * 0x400 + (low - 0xDC00)), rest)
          else none
        else none
    | _ => none

/-- The character of an escape, of what follows its backslash. -/
def unescape : Text → Option (Char × Text)
  | [] => none
  | char :: rest =>
      if char = quoteMark ∨ char = backslash ∨ char = '/' then some (char, rest)
      else match char with
        | 'b' => some (Char.ofNat 8, rest)
        | 't' => some (Char.ofNat 9, rest)
        | 'n' => some (Char.ofNat 10, rest)
        | 'f' => some (Char.ofNat 12, rest)
        | 'r' => some (Char.ofNat 13, rest)
        | 'u' => unicodeEscape rest
        | _ => none

/-- The characters of a text to its closing quotation mark. -/
def readChars : Nat → Text → Option (Text × Text)
  | 0, _ => none
  | _ + 1, [] => none
  | fuel + 1, char :: rest =>
      if char = quoteMark then some ([], rest)
      else if char = backslash then do
        let (plain, rest) ← unescape rest
        let (more, rest) ← readChars fuel rest
        some (plain :: more, rest)
      else if char.toNat < 32 then none
      else do
        let (more, rest) ← readChars fuel rest
        some (char :: more, rest)

def readNatural (text : Text) : Option (Nat × Text) :=
  if text.head? = some '0' then some (0, text.tail)
  else
    let digits := text.takeWhile Char.isDigit
    if digits = [] then none
    else some (Nat.ofDigitChars 10 digits 0, text.dropWhile Char.isDigit)

def readInt (text : Text) : Option (Int × Text) :=
  if text.head? = some '-' then do
    let (number, rest) ← readNatural text.tail
    some (-(number : Int), rest)
  else do
    let (number, rest) ← readNatural text
    some ((number : Int), rest)

/-- A scalar that is not a text. -/
def readScalar (text : Text) : Option (Scalar × Text) :=
  if text.take 4 = "null".toList then some (.null, text.drop 4)
  else if text.take 4 = "true".toList then some (.bool true, text.drop 4)
  else if text.take 5 = "false".toList then some (.bool false, text.drop 5)
  else do
    let (number, rest) ← readInt text
    some (.int number, rest)

/-- Replaces the value of a key, or adds it last. -/
def placeEntry (key : Text) (item : DataTree Scalar) :
    List (Text × DataTree Scalar) → List (Text × DataTree Scalar)
  | [] => [(key, item)]
  | entry :: rest =>
      if entry.1 = key then (key, item) :: rest else entry :: placeEntry key item rest

/-- A dictionary of pairs. -/
def dictionary (pairs : List (Text × DataTree Scalar)) : List (Text × DataTree Scalar) :=
  pairs.foldl (fun entries pair => placeEntry pair.1 pair.2 entries) []

mutual

def readValue : Nat → Text → Option (DataTree Scalar × Text)
  | 0, _ => none
  | _ + 1, [] => none
  | fuel + 1, char :: rest =>
      if char = quoteMark then do
        let (value, rest) ← readChars (rest.length + 1) rest
        some (.leaf (.text value), rest)
      else if char = '[' then
        if (skipBlank rest).head? = some ']' then
          some (.list [], (skipBlank rest).tail)
        else do
          let (items, rest) ← readItems fuel (skipBlank rest)
          some (.list items, rest)
      else if char = openBrace then
        if (skipBlank rest).head? = some closeBrace then
          some (.mapping [], (skipBlank rest).tail)
        else do
          let (pairs, rest) ← readEntries fuel (skipBlank rest)
          some (.mapping (dictionary pairs), rest)
      else do
        let (value, rest) ← readScalar (char :: rest)
        some (.leaf value, rest)

/-- Items to their closing bracket, one at least. -/
def readItems : Nat → Text → Option (List (DataTree Scalar) × Text)
  | 0, _ => none
  | fuel + 1, text => do
      let (item, rest) ← readValue fuel text
      match skipBlank rest with
      | [] => none
      | char :: rest =>
          if char = ']' then some ([item], rest)
          else if char = ',' then do
            let (more, rest) ← readItems fuel (skipBlank rest)
            some (item :: more, rest)
          else none

/-- Pairs to their closing brace, one at least. -/
def readEntries : Nat → Text → Option (List (Text × DataTree Scalar) × Text)
  | 0, _ => none
  | _ + 1, [] => none
  | fuel + 1, mark :: text =>
      if mark = quoteMark then do
        let (key, rest) ← readChars (text.length + 1) text
        if (skipBlank rest).head? = some ':' then do
          let (item, rest) ← readValue fuel (skipBlank (skipBlank rest).tail)
          match skipBlank rest with
          | [] => none
          | char :: rest =>
              if char = closeBrace then some ([(key, item)], rest)
              else if char = ',' then do
                let (more, rest) ← readEntries fuel (skipBlank rest)
                some ((key, item) :: more, rest)
              else none
        else none
      else none

end

/-- `json.loads`. -/
def loads (text : Text) : Option (DataTree Scalar) := do
  let (value, rest) ← readValue (text.length + 1) (skipBlank text)
  if skipBlank rest = [] then some value else none

end ParishKit.Lib
