/-!
# Names of array elements

The element with index `n` is named `#`, then one underscore less than `n` has digits, then the
digits of `n`: `#0`, `#9`, `#_10`, `#__100`. The underscores make the order of the names the order
of the numbers.
-/

namespace DeclaredOptions.Index

/-- The first number that is too large for an index. -/
def bound : Nat := UInt64.size

/-- The name of element `n`. -/
def name (n : Nat) : String :=
  let digits := Nat.toDigits 10 n
  .ofList ('#' :: (List.replicate (digits.length - 1) '_' ++ digits))

/-- The number written by decimal digits. -/
def value (digits : List Char) : Nat :=
  digits.foldl (fun n c => 10 * n + (c.toNat - '0'.toNat)) 0

/-- The index that `text` is the name of. -/
def parse? (text : String) : Option Nat :=
  match text.toList with
  | '#' :: rest =>
    let digits := rest.dropWhile (· == '_')
    if digits ≠ [] ∧ digits.all Char.isDigit ∧ rest.length - digits.length = digits.length - 1 ∧
        (digits.head? = some '0' → digits.length = 1) ∧ value digits < bound then
      some (value digits)
    else none
  | _ => none

end DeclaredOptions.Index
