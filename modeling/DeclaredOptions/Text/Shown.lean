import DeclaredOptions.Text.DefaultIgnorable
import DeclaredOptions.Text.GraphemeExtend
import DeclaredOptions.Text.Unprinted

/-!
# Texts as descriptions show them

A description puts a text between double quotes, on one line and so that each of its characters can
be told: quotes, backslashes and line breaks follow a backslash, and a character that would not be
seen by itself is written as its number.
-/

namespace DeclaredOptions.Text

/-- The halfwidth sound marks of kana, which extend the character before them but take a place of
their own on the line. -/
def halfwidthSoundMarks : List Char := ['\uff9e', '\uff9f']

/-- Whether a character would not be seen by itself. -/
def isHidden (c : Char) : Bool :=
  isUnprinted c || isDefaultIgnorable c ||
    isGraphemeExtend c && !halfwidthSoundMarks.contains c

/-- The number of a character, in base sixteen. -/
def codePoint (c : Char) : String := "\\u\x7b" ++ .ofList (Nat.toDigits 16 c.toNat) ++ "\x7d"

/-- How a character is shown between double quotes. -/
def showChar (c : Char) : String :=
  match c with
  | '"' => "\\\""
  | '\\' => "\\\\"
  | '\t' => "\\t"
  | '\n' => "\\n"
  | '\r' => "\\r"
  | '\x00' => "\\0"
  | c => if isHidden c then codePoint c else .singleton c

/-- How a text is shown, the quotes around it included. -/
def shown (text : String) : String := "\"" ++ String.join (text.toList.map showChar) ++ "\""

end DeclaredOptions.Text
