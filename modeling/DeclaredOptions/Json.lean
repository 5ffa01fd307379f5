import DeclaredOptions.Json.Literal

/-!
# JSON values

Values as documents hold them, and their two written forms: on one line without blanks, and
indented by two blanks for each level.
-/

namespace DeclaredOptions

/-- A JSON value. Members of objects keep their order and may share names. The text of a literal is
missing if the literal stands for no text. -/
inductive Json
  | null
  | bool (truth : Bool)
  | number (digits : String)
  | text (content : Option String)
  | array (items : List Json)
  | object (members : List (Option String × Json))
  deriving Inhabited

namespace Json

/-- A literal; one that stands for no text holds half of a surrogate pair. -/
def literal : Option String → String
  | some content => Literal.write content
  | none => "\"\\ud800\""

/-- Parts between brackets, with commas between them. -/
def bracketed (first last : String) (parts : List String) : String :=
  first ++ ",".intercalate parts ++ last

mutual

/-- The form on one line, without blanks. -/
def compact : Json → String
  | .null => "null"
  | .bool truth => if truth then "true" else "false"
  | .number digits => digits
  | .text content => literal content
  | .array items => bracketed "[" "]" (compactItems items)
  | .object members => bracketed "\x7b" "\x7d" (compactMembers members)

/-- The items of an array on one line. -/
def compactItems : List Json → List String
  | [] => []
  | item :: items => compact item :: compactItems items

/-- The members of an object on one line. -/
def compactMembers : List (Option String × Json) → List String
  | [] => []
  | (name, value) :: members =>
    (literal name ++ ":" ++ compact value) :: compactMembers members

end

/-- The start of a line that is indented by some levels. -/
def newLine (depth : Nat) : String := "\n" ++ .ofList (List.replicate (2 * depth) ' ')

/-- Parts between brackets, each on a line of its own; none at all take no line. -/
def stacked (depth : Nat) (first last : String) : List String → String
  | [] => first ++ last
  | parts =>
    first ++ newLine (depth + 1) ++ ("," ++ newLine (depth + 1)).intercalate parts ++
      newLine depth ++ last

mutual

/-- The form with one line for each item and member, indented by `depth` levels. -/
def indented (depth : Nat) : Json → String
  | .array items => stacked depth "[" "]" (indentedItems (depth + 1) items)
  | .object members => stacked depth "\x7b" "\x7d" (indentedMembers (depth + 1) members)
  | value => compact value

/-- The items of an array, one line each. -/
def indentedItems (depth : Nat) : List Json → List String
  | [] => []
  | item :: items => indented depth item :: indentedItems depth items

/-- The members of an object, one line each. -/
def indentedMembers (depth : Nat) : List (Option String × Json) → List String
  | [] => []
  | (name, value) :: members =>
    (literal name ++ ": " ++ indented depth value) :: indentedMembers depth members

end

end Json

end DeclaredOptions
