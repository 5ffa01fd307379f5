/-!
# UTF-8

Bytes are read one at a time. Where they write no character, a longest start of a written character
counts as one part that cannot be read, and reading goes on after it.
-/

namespace DeclaredOptions.Utf8

/-- Where a reader stands between two bytes. -/
inductive Place
  | start
  /-- Inside a character: bytes that are missing, bits so far, least and greatest next byte. -/
  | inside (missing bits least greatest : Nat)
  deriving DecidableEq, Repr

/-- Reads the first byte of a character: the part that is complete then, and the place after it. -/
def begin (byte : Nat) : List (Option Char) × Place :=
  if byte < 0x80 then ([some (Char.ofNat byte)], .start)
  else if 0xc2 ≤ byte ∧ byte < 0xe0 then ([], .inside 1 (byte - 0xc0) 0x80 0xbf)
  else if byte = 0xe0 then ([], .inside 2 0 0xa0 0xbf)
  else if byte = 0xed then ([], .inside 2 0xd 0x80 0x9f)
  else if 0xe1 ≤ byte ∧ byte < 0xf0 then ([], .inside 2 (byte - 0xe0) 0x80 0xbf)
  else if byte = 0xf0 then ([], .inside 3 0 0x90 0xbf)
  else if 0xf1 ≤ byte ∧ byte < 0xf4 then ([], .inside 3 (byte - 0xf0) 0x80 0xbf)
  else if byte = 0xf4 then ([], .inside 3 4 0x80 0x8f)
  else ([none], .start)

/-- The characters that bytes write, with `none` for a part that cannot be read. -/
def scan : Place → List UInt8 → List (Option Char)
  | .start, [] => []
  | .inside .., [] => [none]
  | .start, byte :: rest =>
    let (parts, place) := begin byte.toNat
    parts ++ scan place rest
  | .inside missing bits least greatest, byte :: rest =>
    if least ≤ byte.toNat ∧ byte.toNat ≤ greatest then
      let bits := 64 * bits + (byte.toNat - 0x80)
      if missing ≤ 1 then some (Char.ofNat bits) :: scan .start rest
      else scan (.inside (missing - 1) bits 0x80 0xbf) rest
    else
      let (parts, place) := begin byte.toNat
      none :: (parts ++ scan place rest)

/-- The text that bytes write. -/
def decode? (bytes : List UInt8) : Option String :=
  ((scan .start bytes).mapM fun part => part).map String.ofList

/-- The text that bytes write, with a replacement character for each part that cannot be read. -/
def decodeLossy (bytes : List UInt8) : String :=
  .ofList ((scan .start bytes).map fun part => part.getD '\ufffd')

end DeclaredOptions.Utf8
