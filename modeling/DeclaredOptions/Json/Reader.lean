import DeclaredOptions.Json.Token

/-!
# Reading JSON

Tokens are read from left to right. The arrays and objects that are still open form a stack, and
with it goes what may come next. So nesting costs no recursion, and any depth can be read.
-/

namespace DeclaredOptions.Json

/-! ### Words -/

/-- Whether some digits follow, and nothing else. -/
def isDigits (cs : List Char) : Bool := cs ≠ [] && cs.all Char.isDigit

/-- Whether a text is empty or an exponent. -/
def isExponent : List Char → Bool
  | [] => true
  | e :: '+' :: digits | e :: '-' :: digits | e :: digits =>
    (e == 'e' || e == 'E') && isDigits digits

/-- Whether a text is empty, an exponent, or a fraction and perhaps an exponent. -/
def isFraction : List Char → Bool
  | '.' :: cs => isDigits (cs.takeWhile Char.isDigit) && isExponent (cs.dropWhile Char.isDigit)
  | cs => isExponent cs

/-- Whether a text starts with an integer that has no idle zero, and goes on as a number. -/
def isUnsigned (cs : List Char) : Bool :=
  let digits := cs.takeWhile Char.isDigit
  digits ≠ [] && (digits.head? ≠ some '0' || digits.length == 1) &&
    isFraction (cs.dropWhile Char.isDigit)

/-- Whether a text is a number. -/
def isNumber : List Char → Bool
  | '-' :: cs => isUnsigned cs
  | cs => isUnsigned cs

/-- The value of a word. -/
def ofWord? (letters : List Char) : Option Json :=
  if letters = "null".toList then some .null
  else if letters = "true".toList then some (.bool true)
  else if letters = "false".toList then some (.bool false)
  else if isNumber letters then some (.number (.ofList letters))
  else none

/-! ### Open arrays and objects -/

/-- An array or object that is still open, with what it holds so far, last first. -/
inductive Frame
  | array (items : List Json)
  | object (members : List (Option String × Json))
  /-- An object whose member `name` lacks its value. -/
  | member (members : List (Option String × Json)) (name : Option String)

/-- What may come next. -/
inductive Expected
  | value
  /-- A value, or the end of an empty array. -/
  | firstItem
  | name
  /-- A name, or the end of an empty object. -/
  | firstMember
  /-- The colon after a name. -/
  | colon (name : Option String)
  /-- A comma, or the end of the innermost array or object. -/
  | separator
  /-- Nothing: the whole value has been read. -/
  | nothing (value : Json)

/-- What has been read so far, innermost frame first. -/
abbrev Reading : Type := List Frame × Expected

/-- Puts a value where it belongs. -/
def deliver (value : Json) : List Frame → Option Reading
  | [] => some ([], .nothing value)
  | .array items :: frames => some (.array (value :: items) :: frames, .separator)
  | .member members name :: frames =>
    some (.object ((name, value) :: members) :: frames, .separator)
  | .object _ :: _ => none

/-- Starts or completes a value. -/
def startValue (frames : List Frame) : Token → Option Reading
  | .mark '[' => some (.array [] :: frames, .firstItem)
  | .mark '{' => some (.object [] :: frames, .firstMember)
  | .mark _ => none
  | .text content => deliver (.text content) frames
  | .word letters => (ofWord? letters).bind fun value => deliver value frames

/-- Closes the innermost array or object. -/
def close : List Frame → Token → Option Reading
  | .array items :: frames, .mark ']' => deliver (.array items.reverse) frames
  | .object members :: frames, .mark '}' => deliver (.object members.reverse) frames
  | _, _ => none

/-- Reads one token. -/
def step : Reading → Token → Option Reading
  | (frames, .value), token => startValue frames token
  | (frames, .firstItem), token => (startValue frames token).or (close frames token)
  | (frames, .name), .text content => some (frames, .colon content)
  | (frames, .firstMember), .text content => some (frames, .colon content)
  | (frames, .firstMember), token => close frames token
  | (.object members :: frames, .colon name), .mark ':' =>
    some (.member members name :: frames, .value)
  | (.array items :: frames, .separator), .mark ',' => some (.array items :: frames, .value)
  | (.object members :: frames, .separator), .mark ',' => some (.object members :: frames, .name)
  | (frames, .separator), token => close frames token
  | _, _ => none

/-- The value that tokens write. -/
def ofTokens? (tokens : List Token) : Option Json :=
  match tokens.foldlM step ([], .value) with
  | some (_, .nothing value) => some value
  | _ => none

/-- The value that a text writes. -/
def parse? (text : String) : Option Json := (Token.ofText text).bind ofTokens?

end DeclaredOptions.Json
