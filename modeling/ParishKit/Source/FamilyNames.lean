import ParishKit.Lib.DateText
import ParishKit.Lib.Separated

/-!
# Family names

The one rule for naming a Family: its surname, then its heads. Heads of other surnames
are grouped under their own.
-/

namespace ParishKit.Source.FamilyNames

open ParishKit.Lib

/-- `str.casefold`: each character gives one character at least. -/
structure CaseFolding where
  fold : Char → Text
  fold_ne_nil : ∀ char, fold char ≠ []

def CaseFolding.casefold (folding : CaseFolding) (text : Text) : Text :=
  text.flatMap folding.fold

/-- The codes of `WHITESPACE`. -/
def whitespace : List Nat :=
  [0x20, 0x9, 0xA, 0xB, 0xC, 0xD, 0x1C, 0x1D, 0x1E, 0x1F, 0x85, 0xA0, 0x1680, 0x2000,
    0x2001, 0x2002, 0x2003, 0x2004, 0x2005, 0x2006, 0x2007, 0x2008, 0x2009, 0x200A,
    0x2028, 0x2029, 0x202F, 0x205F, 0x3000]

def strip (text : Text) : Text :=
  trim (fun char => whitespace.contains char.toNat) text

/-- A head's first and last name texts. -/
structure Head where
  first : Text
  last : Text

namespace Head

def firstText (head : Head) : Text :=
  strip head.first

def lastText (head : Head) : Text :=
  strip head.last

end Head

/-- `name_series`. -/
def nameSeries (parts : List Text) : Text :=
  let parts := parts.filter (!·.isEmpty)
  if parts.length < 3 then " and ".toList.intercalate parts
  else ", ".toList.intercalate parts.dropLast ++ " and ".toList ++ parts.getLastD []

/-- `_head_full_name`, of a head without the older single name. -/
def headFullName (head : Head) : Text :=
  " ".toList.intercalate ([head.firstText, head.lastText].filter (!·.isEmpty))

/-- The first spelling of a last name, and the first names under it. -/
structure SurnameGroup where
  last : Text
  firsts : List Text

/-- A first name under its last name, `setdefault` and `append`. -/
def addFirst (key last first : Text) :
    List (Text × SurnameGroup) → List (Text × SurnameGroup)
  | [] => [(key, ⟨last, [first]⟩)]
  | entry :: rest =>
      if entry.1 = key then (key, { entry.2 with firsts := entry.2.firsts ++ [first] }) :: rest
      else entry :: addFirst key last first rest

variable (folding : CaseFolding)

def addHead (groups : List (Text × SurnameGroup)) (head : Head) :
    List (Text × SurnameGroup) :=
  if head.lastText = [] then groups
  else addFirst (folding.casefold head.lastText) head.lastText head.firstText groups

/-- The heads without a last name, in full. -/
def aloneNames (heads : List Head) : List Text :=
  heads.filterMap fun head =>
    if head.lastText = [] ∧ headFullName head ≠ [] then some (headFullName head) else none

/-- `_surname_groups`: the group of the surname, the others and the heads alone. -/
def surnameGroups (heads : List Head) (surname : Text) :
    Option SurnameGroup × List SurnameGroup × List Text :=
  let groups := heads.foldl (addHead folding) []
  let key := folding.casefold surname
  let popped := if surname = [] then none else groups.find? fun entry => entry.1 == key
  let kept := if surname = [] then groups else groups.filter fun entry => entry.1 != key
  (popped.map Prod.snd, kept.map Prod.snd, aloneNames heads)

/-- `family_heads_name` with the surname first. -/
def familyHeadsName (surname : Text) (heads : List Head) (recorded : Bool) : Text :=
  let (own, others, alone) :=
    surnameGroups folding heads (if recorded then surname else [])
  if others.isEmpty then
    let names := nameSeries (heads.map fun head =>
      if head.lastText = [] then headFullName head else head.firstText)
    if names = [] then surname else surname ++ ", ".toList ++ names
  else
    let surnames := (if own.isSome then [surname] else []) ++ others.map SurnameGroup.last
    let groups := own.toList ++ others
    let parts := (groups.map fun group => nameSeries group.firsts) ++ alone
    let leading := " / ".toList.intercalate surnames
    let names := " / ".toList.intercalate (parts.filter (!·.isEmpty))
    if names = [] then leading else leading ++ ", ".toList ++ names

end ParishKit.Source.FamilyNames
