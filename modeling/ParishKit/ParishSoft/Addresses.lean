import ParishKit.Lib.DateText
import ParishKit.Responses.Publication
import ParishKit.Responses.TextLaws

/-!
# Email addresses of Members

The addresses of a Member's email field, and the upper case of short words.
-/

namespace ParishKit.ParishSoft

open ParishKit.Lib
open ParishKit.Responses (Unicode LawfulUnicode strip)

variable [Unicode]

/-- `split_email_addresses` of several fields; one text is one field. -/
def splitEmailAddresses (values : List Text) : List Text :=
  ((values.flatMap fun value => value.splitOn ';').map fun part =>
    Unicode.lower (strip part)).foldl
    (fun addresses email =>
      if email = [] ∨ email ∈ addresses then addresses else addresses ++ [email]) []

theorem splitEmailAddresses_one (value : Text) :
    splitEmailAddresses [value] = Responses.splitEmailAddresses value := by
  simp [splitEmailAddresses, Responses.splitEmailAddresses]

/-- `member_email_addresses` of the two email fields. -/
def memberEmailAddresses (pyEmailAddresses : Option (List Text))
    (emailAddress : Option Text) : List Text :=
  match pyEmailAddresses with
  | some emails => splitEmailAddresses emails
  | none =>
      match emailAddress with
      | none => []
      | some value => if value = [] then [] else splitEmailAddresses [value]

/-- `str.upper` of the Python runtime. -/
class UpperCase [Unicode] where
  lower_nil : Unicode.lower [] = []
  upper : Text → Text
  upper_upper : ∀ text, upper (upper text) = upper text
  upper_ascii : ∀ text : Text, (∀ char ∈ text, char.toNat < 128) →
    upper text = text.map Char.toUpper

end ParishKit.ParishSoft
