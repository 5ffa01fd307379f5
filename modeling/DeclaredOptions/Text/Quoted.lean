import DeclaredOptions.Text.Blank
import DeclaredOptions.Text.Split

/-!
# Quoted texts

A text can stand between double or single quotes, and a list of such texts is divided by commas.
The commas divide whether or not they are quoted.
-/

namespace DeclaredOptions.Text

/-- The characters between two quotes. -/
def between? (quote : Char) : List Char → Option (List Char)
  | [] => none
  | c :: rest => if c = quote ∧ rest.getLast? = some quote then some rest.dropLast else none

/-- The text without blanks around it, and then without one pair of quotes. -/
def unquote (text : String) : String :=
  let trimmed := trim text
  match (between? '"' trimmed.toList).or (between? '\'' trimmed.toList) with
  | some inner => .ofList inner
  | none => trimmed

/-- The texts of a list. A blank text is the empty list. -/
def quotedList (text : String) : List String :=
  let trimmed := trim text
  if trimmed = "" then [] else (split ',' trimmed).map unquote

end DeclaredOptions.Text
