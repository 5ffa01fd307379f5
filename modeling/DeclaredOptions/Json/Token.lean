import DeclaredOptions.Json

/-!
# Tokens of JSON

A text is read character by character into brackets and separators, string literals, and words:
longest runs of all other characters that are not blank. Blanks divide tokens and are dropped.
-/

namespace DeclaredOptions.Json

/-- The smallest part of a JSON text. -/
inductive Token
  /-- A bracket, a colon or a comma. -/
  | mark (c : Char)
  | text (content : Option String)
  /-- A number, `null`, `true` or `false`, or nothing valid. -/
  | word (letters : List Char)
  deriving DecidableEq, Repr

namespace Token

/-- Whether a character is blank. -/
def IsBlank (c : Char) : Prop := c ∈ [' ', '\t', '\n', '\r']

instance (c : Char) : Decidable (IsBlank c) := inferInstanceAs (Decidable (_ ∈ _))

/-- Whether a character is a token of its own. -/
def IsMark (c : Char) : Prop := c ∈ ['[', ']', '{', '}', ':', ',']

instance (c : Char) : Decidable (IsMark c) := inferInstanceAs (Decidable (_ ∈ _))

/-- What has been read of the current token, last character first. -/
inductive Pending
  | nothing
  | word (letters : List Char)
  /-- A literal that is not closed yet. -/
  | text (units : List Nat)
  /-- A literal after a backslash. -/
  | escape (units : List Nat)
  /-- A literal after `\u`, with the number of digits that are missing. -/
  | unicode (units : List Nat) (missing value : Nat)

/-- The tokens of a text whose current token is `pending`. -/
def scan : Pending → List Char → Option (List Token)
  | .nothing, [] => some []
  | .word letters, [] => some [.word letters.reverse]
  | _, [] => none
  | .nothing, c :: rest =>
    if IsBlank c then scan .nothing rest
    else if IsMark c then (scan .nothing rest).map (.mark c :: ·)
    else if c = '"' then scan (.text []) rest
    else scan (.word [c]) rest
  | .word letters, c :: rest =>
    if IsBlank c then (scan .nothing rest).map (.word letters.reverse :: ·)
    else if IsMark c then (scan .nothing rest).map ([.word letters.reverse, .mark c] ++ ·)
    else if c = '"' then (scan (.text []) rest).map (.word letters.reverse :: ·)
    else scan (.word (c :: letters)) rest
  | .text units, c :: rest =>
    if c = '"' then
      (scan .nothing rest).map (.text ((Literal.decode units.reverse).map String.ofList) :: ·)
    else if c = '\\' then scan (.escape units) rest
    else if c.toNat < 0x20 then none
    else scan (.text (c.toNat :: units)) rest
  | .escape units, c :: rest =>
    if c = 'u' then scan (.unicode units 4 0) rest
    else match Literal.unescape? c with
      | some unit => scan (.text (unit :: units)) rest
      | none => none
  | .unicode units missing value, c :: rest =>
    match Literal.hexValue? c, missing with
    | none, _ => none
    | some digit, missing + 2 => scan (.unicode units (missing + 1) (16 * value + digit)) rest
    | some digit, _ => scan (.text ((16 * value + digit) :: units)) rest

/-- The tokens of a text. -/
def ofText (text : String) : Option (List Token) := scan .nothing text.toList

end Token

end DeclaredOptions.Json
