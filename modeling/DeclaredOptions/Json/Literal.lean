/-!
# String literals of JSON

A literal is written between quotes; quotes, backslashes and control characters are escaped. The
escape `\uXXXX` names a unit of UTF-16, so a pair of them can stand for one character. A literal
with half of such a pair stands for no text.
-/

namespace DeclaredOptions.Json.Literal

/-! ### Writing -/

/-- The character for a digit of base sixteen. -/
def hexDigit (n : Nat) : Char := (Nat.digitChar n)

/-- How a character is written inside a literal. -/
def escape (c : Char) : List Char :=
  match c with
  | '"' => ['\\', '"']
  | '\\' => ['\\', '\\']
  | '\x08' => ['\\', 'b']
  | '\t' => ['\\', 't']
  | '\n' => ['\\', 'n']
  | '\x0c' => ['\\', 'f']
  | '\r' => ['\\', 'r']
  | c =>
    if c.toNat < 0x20 then
      ['\\', 'u', '0', '0', hexDigit (c.toNat / 16), hexDigit (c.toNat % 16)]
    else [c]

/-- The literal of a text. -/
def write (text : String) : String :=
  .ofList ('"' :: (text.toList.flatMap escape ++ ['"']))

/-! ### Reading -/

/-- The unit that a letter after a backslash names, `u` apart. -/
def unescape? : Char → Option Nat
  | '"' => some 0x22
  | '\\' => some 0x5c
  | '/' => some 0x2f
  | 'b' => some 0x08
  | 'f' => some 0x0c
  | 'n' => some 0x0a
  | 'r' => some 0x0d
  | 't' => some 0x09
  | _ => none

/-- The value of a digit of base sixteen. -/
def hexValue? (c : Char) : Option Nat :=
  if '0' ≤ c ∧ c ≤ '9' then some (c.toNat - '0'.toNat)
  else if 'a' ≤ c ∧ c ≤ 'f' then some (c.toNat - 'a'.toNat + 10)
  else if 'A' ≤ c ∧ c ≤ 'F' then some (c.toNat - 'A'.toNat + 10)
  else none

/-- Whether a unit is the first half of a surrogate pair. -/
def IsLead (unit : Nat) : Prop := 0xd800 ≤ unit ∧ unit < 0xdc00

instance (unit : Nat) : Decidable (IsLead unit) := inferInstanceAs (Decidable (_ ∧ _))

/-- Whether a unit is the second half of a surrogate pair. -/
def IsTrail (unit : Nat) : Prop := 0xdc00 ≤ unit ∧ unit < 0xe000

instance (unit : Nat) : Decidable (IsTrail unit) := inferInstanceAs (Decidable (_ ∧ _))

/-- The character of a surrogate pair. -/
def pair (lead trail : Nat) : Char :=
  Char.ofNat (0x10000 + (lead - 0xd800) * 0x400 + (trail - 0xdc00))

/-- The character of a unit that belongs to no pair. -/
def alone? (unit : Nat) : Option Char :=
  if unit.isValidChar then some (Char.ofNat unit) else none

/-- The characters that units stand for; a unit is a code point or half of a pair. -/
def decode : List Nat → Option (List Char)
  | [] => some []
  | [unit] => (alone? unit).map fun c => [c]
  | unit :: next :: rest =>
    if IsLead unit ∧ IsTrail next then (decode rest).map (pair unit next :: ·)
    else match alone? unit with
      | some c => (decode (next :: rest)).map (c :: ·)
      | none => none

end DeclaredOptions.Json.Literal
