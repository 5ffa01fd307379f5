import DeclaredOptions.Sorted
import DeclaredOptions.Text.Split

/-!
# Environments

An environment gives values to variables. It is handed over as entries `NAME=value`, where the name
ends at the first `=`; of two entries for one name the later one counts. A value can hold a list,
its elements divided by a separator.
-/

namespace DeclaredOptions

/-- Values of variables, sorted by name. -/
abbrev Environment : Type := SortedMap String String

namespace Environment

/-- The entry that gives a value to a name. -/
def entry (name value : String) : String := name ++ "=" ++ value

/-- The environment of named values; the last value of a name counts. -/
def ofPairs (pairs : List (String × String)) : Environment := .ofList Prod.fst pairs

/-- The environment that entries describe; an entry without `=` describes nothing. -/
def ofEntries (entries : List String) : Environment := ofPairs (entries.filterMap (Text.cut? '='))

end Environment

/-- The value of a variable that holds a list. -/
inductive ListValue
  /-- There is no separator. -/
  | single (value : String)
  | several (values : List String)
  deriving DecidableEq, Repr

namespace ListValue

/-- Divides a value at each separator; empty elements count. -/
def read (separator : Char) (value : String) : ListValue :=
  if separator ∈ value.toList then .several (Text.split separator value) else .single value

/-- The elements of the list. -/
def values : ListValue → List String
  | .single value => [value]
  | .several values => values

end ListValue

end DeclaredOptions
