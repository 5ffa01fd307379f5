import DeclaredOptions.Text.Blank

/-!
# Words of a shell line

A line is divided into words at spaces, tabs and line ends. Quotes and backslashes keep characters
in a word that would end it or mean something else; a `#` at the start of a word begins a comment.
-/

namespace DeclaredOptions.ShellWords

/-- Where in a line a reader stands, with the characters of the current word, last first. -/
inductive Place
  | between
  | comment
  | word (seen : List Char)
  /-- After a backslash outside quotes. -/
  | escaped (seen : List Char)
  /-- Between double quotes. -/
  | double (seen : List Char)
  /-- After a backslash between double quotes. -/
  | doubleEscaped (seen : List Char)
  /-- Between single quotes. -/
  | single (seen : List Char)
  deriving DecidableEq, Repr

/-- Whether a character divides words. -/
def IsSeparator (c : Char) : Prop := c ∈ [' ', '\t', '\n']

instance (c : Char) : Decidable (IsSeparator c) := inferInstanceAs (Decidable (_ ∈ _))

/-- The characters that a backslash protects between double quotes. -/
def protectedInDouble : List Char := ['$', '\x60', '"', '\\']

/-- Reads a character that belongs to a word. -/
def enter (seen : List Char) : Char → Place
  | '"' => .double seen
  | '\'' => .single seen
  | '\\' => .escaped seen
  | c => .word (c :: seen)

/-- The words from a place on; `none` if a quote stays open or a backslash ends the line. -/
def scan : Place → List Char → Option (List String)
  | .between, [] | .comment, [] => some []
  | .word seen, [] => some [.ofList seen.reverse]
  | _, [] => none
  | .between, c :: rest =>
    if IsSeparator c then scan .between rest
    else if c = '#' then scan .comment rest
    else scan (enter [] c) rest
  | .comment, c :: rest => scan (if c = '\n' then .between else .comment) rest
  | .word seen, c :: rest =>
    if IsSeparator c then (scan .between rest).map (.ofList seen.reverse :: ·)
    else scan (enter seen c) rest
  | .escaped seen, c :: rest => scan (.word (if c = '\n' then seen else c :: seen)) rest
  | .double seen, c :: rest =>
    if c = '"' then scan (.word seen) rest
    else if c = '\\' then scan (.doubleEscaped seen) rest
    else scan (.double (c :: seen)) rest
  | .doubleEscaped seen, c :: rest =>
    if c ∈ protectedInDouble then scan (.double (c :: seen)) rest
    else if c = '\n' then scan (.double seen) rest
    else scan (.double (c :: '\\' :: seen)) rest
  | .single seen, c :: rest =>
    if c = '\'' then scan (.word seen) rest else scan (.single (c :: seen)) rest

/-- The words of a line, without the blanks around it. -/
def split? (line : String) : Option (List String) := scan .between (Text.trim line).toList

end DeclaredOptions.ShellWords
