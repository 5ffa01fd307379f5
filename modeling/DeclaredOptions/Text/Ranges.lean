/-!
# Ranges of characters

A set of characters as the ranges of their numbers, first and last included.
-/

namespace DeclaredOptions.Text

/-- Whether a character lies in one of the ranges. -/
def inRanges (ranges : List (Nat × Nat)) (c : Char) : Bool :=
  ranges.any fun range => range.1 ≤ c.toNat && c.toNat ≤ range.2

end DeclaredOptions.Text
