import ParishKit.Lib.Separated
import ParishKit.Responses.Source

/-!
# Text that reads as it was written

What the code relies on of the runtime's Unicode database, and the lines of text
that cleaning leaves as they are.
-/

namespace ParishKit.Responses

open ParishKit.Lib

/-- A control character or a line break, of which no field takes any. -/
def isReserved (char : Char) : Bool :=
  char.toNat < 32 || char.toNat == 127 || char.toNat == 0x85 ||
    char.toNat == 0x2028 || char.toNat == 0x2029

/-- What the Unicode standard says of normalization and lower case. -/
class LawfulUnicode [Unicode] : Prop where
  nfc_ascii : ∀ text : Text, (∀ char ∈ text, char.toNat < 128) →
    Unicode.nfc text = text
  nfc_nfc : ∀ text, Unicode.nfc (Unicode.nfc text) = Unicode.nfc text
  /-- Normal text has normal parts. -/
  nfc_infix : ∀ part text : Text, part <:+: text → Unicode.nfc text = text →
    Unicode.nfc part = part
  /-- A comma and a blank compose with nothing. -/
  nfc_comma : ∀ left right : Text,
    Unicode.nfc (left ++ ',' :: ' ' :: right) =
      Unicode.nfc left ++ ',' :: ' ' :: Unicode.nfc right
  nfc_reserved : ∀ (text : Text) (char : Char), isReserved char = true →
    char ∈ Unicode.nfc text → char ∈ text
  lower_lower : ∀ text, Unicode.lower (Unicode.lower text) = Unicode.lower text
  lower_reserved : ∀ (text : Text) (char : Char),
    (isReserved char || char == ',' || char == ';') = true →
    char ∈ Unicode.lower text → char ∈ text
  /-- The lower case of normal text only composes further. -/
  nfc_lower : ∀ text : Text, Unicode.nfc text = text →
    (Unicode.nfc (Unicode.lower text)).length ≤ (Unicode.lower text).length

/-! ## Stripping -/

theorem strip_eq_trim (text : Text) : strip text = trim isSpace text :=
  rfl

theorem strip_strip (text : Text) : strip (strip text) = strip text :=
  trim_trim text

theorem mem_of_mem_strip
    {text : Text} {char : Char} (member : char ∈ strip text) : char ∈ text :=
  (trim_isInfix text).subset member

theorem length_strip_le (text : Text) : (strip text).length ≤ text.length :=
  length_trim_le text

/-! ## Lines -/

/-- A line of text that no cleaning changes. -/
structure CleanLine [Unicode] (limit : Nat) (line : Text) : Prop where
  bounded : line.length ≤ limit
  unreserved : ∀ char ∈ line, isReserved char = false
  normal : Unicode.nfc line = line
  stripped : strip line = line

section

variable [Unicode] {limit : Nat} {line : Text}

/-- Text without reserved characters has a comparison form. -/
theorem normalizeText_of_unreserved
    (bounded : line.length ≤ 8192)
    (unreserved : ∀ char ∈ line, isReserved char = false) :
    normalizeText line = some (strip (Unicode.nfc line)) := by
  have noNul : line.contains '\x00' = false := by
    rw [List.contains_eq_mem, decide_eq_false_iff_not]
    intro member
    cases unreserved _ member
  unfold normalizeText
  rw [noNul, Bool.or_false, if_neg (by simpa using bounded)]

theorem CleanLine.normalizeText_eq
    (clean : CleanLine limit line) (small : limit ≤ 8192) :
    normalizeText line = some line := by
  rw [normalizeText_of_unreserved (clean.bounded.trans small) clean.unreserved,
    clean.normal, clean.stripped]

variable [LawfulUnicode]

/-- The text that `clean_text` accepts and that has no line break. -/
theorem cleanLine_of_cleanText
    {raw : Text} (cleaned : cleanText limit raw = some line)
    (unbroken : breaksLine line = false) : CleanLine limit line := by
  unfold cleanText at cleaned
  dsimp only at cleaned
  split at cleaned
  · cases cleaned
  rename_i admitted
  split at cleaned <;> cases cleaned
  rename_i bounded
  rw [Bool.or_eq_true, not_or, Bool.not_eq_true, Bool.not_eq_true,
    List.any_eq_false] at admitted
  have normal : Unicode.nfc (strip (Unicode.nfc raw)) =
      strip (Unicode.nfc raw) :=
    LawfulUnicode.nfc_infix _ _ (trim_isInfix _) (LawfulUnicode.nfc_nfc raw)
  refine ⟨bounded, fun char member => ?_, normal, strip_strip _⟩
  rw [breaksLine, List.any_eq_false] at unbroken
  have noBreak := unbroken char member
  by_contra reserved
  rw [Bool.not_eq_false] at reserved
  have inRaw := LawfulUnicode.nfc_reserved raw char reserved
    (mem_of_mem_strip member)
  have noControl := admitted.2 char inRaw
  simp only [isReserved, Bool.or_eq_true, Bool.and_eq_true, beq_iff_eq,
    decide_eq_true_eq, Bool.not_eq_true', List.contains_eq_mem, List.mem_cons,
    List.not_mem_nil] at reserved noBreak noControl
  grind

/-- Bounded text without reserved characters is read as it is. -/
theorem cleanText_of_unreserved
    (bounded : line.length ≤ limit)
    (unreserved : ∀ char ∈ line, isReserved char = false)
    (normalBounded : (Unicode.nfc line).length ≤ limit) :
    cleanText limit line = some (strip (Unicode.nfc line)) ∧
      breaksLine (strip (Unicode.nfc line)) = false := by
  have noControl : (line.any fun char =>
      (char.toNat < 32 && !(['\n', '\r', '\t'].contains char)) ||
        char.toNat == 127) = false := by
    rw [List.any_eq_false]
    intro char member
    have kept := unreserved char member
    simp only [isReserved, Bool.or_eq_false_iff, decide_eq_false_iff_not] at kept
    simp [kept.1.1.1.1, kept.1.1.1.2]
  have short : (strip (Unicode.nfc line)).length ≤ limit :=
    (length_strip_le _).trans normalBounded
  refine ⟨?_, ?_⟩
  · unfold cleanText
    dsimp only
    rw [noControl, Bool.or_false, if_neg (by simpa using bounded), if_pos short]
  · rw [breaksLine, List.any_eq_false]
    intro char member isBreak
    have reserved : isReserved char = true := by
      simp only [List.contains_eq_mem, List.mem_cons, List.not_mem_nil, or_false,
        Bool.or_eq_true, decide_eq_true_eq, beq_iff_eq] at isBreak
      rcases isBreak with ((((rfl | rfl | rfl) | same) | same) | same)
      all_goals simp [isReserved, *]
    have inLine := LawfulUnicode.nfc_reserved line char reserved
      (mem_of_mem_strip member)
    rw [unreserved char inLine] at reserved
    cases reserved

theorem CleanLine.cleanText_eq (clean : CleanLine limit line) :
    cleanText limit line = some line ∧ breaksLine line = false := by
  have read := cleanText_of_unreserved clean.bounded clean.unreserved
    (clean.normal.symm ▸ clean.bounded)
  rwa [clean.normal, clean.stripped] at read

/-- The normal form of joined addresses is that of each one. -/
theorem nfc_intercalate (parts : List Text) :
    Unicode.nfc ([',', ' '].intercalate parts) =
      [',', ' '].intercalate (parts.map Unicode.nfc) := by
  induction parts with
  | nil => exact LawfulUnicode.nfc_ascii [] nofun
  | cons first rest inductionHypothesis =>
      cases rest with
      | nil => simp
      | cons second others =>
          rw [List.intercalate_cons_cons, List.map_cons, List.map_cons,
            List.intercalate_cons_cons, ← List.map_cons, ← inductionHypothesis]
          simpa using LawfulUnicode.nfc_comma first _

end

/-! ## The ASCII database -/

/-- A capital letter becomes the one 32 places on, and nothing else changes. -/
theorem toLower_cases (char : Char) :
    char.toLower = char ∨ 65 ≤ char.toNat ∧ char.toNat ≤ 90 ∧
      char.toLower.toNat = char.toNat + 32 := by
  unfold Char.toLower
  split
  · rename_i upper
    right
    have atLeast : 65 ≤ char.toNat := upper.1
    have atMost : char.toNat ≤ 90 := upper.2
    refine ⟨atLeast, atMost, ?_⟩
    change (char.val + 32).toNat = char.val.toNat + 32
    have same : char.val.toNat = char.toNat := rfl
    rw [UInt32.toNat_add]
    simp
    omega
  · left
    rfl

theorem toLower_toLower (char : Char) : char.toLower.toLower = char.toLower := by
  rcases toLower_cases char with same | ⟨atLeast, _, moved⟩
  · rw [same, same]
  · rcases toLower_cases char.toLower with same | ⟨_, atMost, _⟩
    · exact same
    · omega

/-- No letter is reserved or separates addresses. -/
theorem not_reserved_of_letter
    {char : Char} (atLeast : 97 ≤ char.toNat) (atMost : char.toNat ≤ 122) :
    (isReserved char || char == ',' || char == ';') = false := by
  have notComma : char ≠ ',' := by
    rintro rfl
    exact absurd atLeast (by decide)
  have notSemicolon : char ≠ ';' := by
    rintro rfl
    exact absurd atLeast (by decide)
  simp only [isReserved, Bool.or_eq_false_iff, decide_eq_false_iff_not,
    beq_eq_false_iff_ne]
  refine ⟨⟨⟨⟨⟨⟨?_, ?_⟩, ?_⟩, ?_⟩, ?_⟩, notComma⟩, notSemicolon⟩ <;> omega

instance lawfulAscii : @LawfulUnicode asciiUnicode :=
  letI := asciiUnicode
  { nfc_ascii := fun _ _ => rfl
    nfc_nfc := fun _ => rfl
    nfc_infix := fun _ _ _ _ => rfl
    nfc_comma := fun _ _ => rfl
    nfc_reserved := fun _ _ _ member => member
    lower_lower := fun text => by
      change (text.map Char.toLower).map Char.toLower = text.map Char.toLower
      rw [List.map_map]
      exact List.map_congr_left fun char _ => toLower_toLower char
    lower_reserved := fun text char reserved member => by
      obtain ⟨source, inText, rfl⟩ := List.mem_map.mp member
      rcases toLower_cases source with same | ⟨atLeast, atMost, moved⟩
      · rwa [same]
      · rw [not_reserved_of_letter (by omega) (by omega)] at reserved
        cases reserved
    nfc_lower := fun _ _ => Nat.le_refl _ }

end ParishKit.Responses
