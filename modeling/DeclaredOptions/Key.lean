import DeclaredOptions.Name
import DeclaredOptions.Sorted

/-!
# Keys

A key is a named text value with named text metadata. Metadata names form paths of their own:
`opt/long` is the entry `long` below `opt`.
-/

namespace DeclaredOptions

/-- Named texts, sorted by name. -/
abbrev Metadata : Type := SortedMap String String

namespace Metadata

/-- The text filed under `name`, where the empty text counts as none. -/
def nonEmpty? (m : Metadata) (name : String) : Option String :=
  (m.get? name).filter (· ≠ "")

/-- The entries whose name continues `path` after a slash, in order.

Such names stand together and begin where `path` and the slash would stand. -/
def below (m : Metadata) (path : String) : List (String × String) :=
  (m.atLeast (path ++ "/")).takeWhile fun entry =>
    (path ++ "/").toList.isPrefixOf entry.1.toList

end Metadata

/-- A named value with metadata. -/
@[ext]
structure Key where
  name : KeyName
  value : String := ""
  metadata : Metadata := ∅
  deriving DecidableEq, Inhabited

/-- Files a text in the metadata of a key. -/
def Key.setMetadata (key : Key) (name value : String) : Key :=
  { key with metadata := key.metadata.set name value }

/-- Removes an entry from the metadata of a key. -/
def Key.eraseMetadata (key : Key) (name : String) : Key :=
  { key with metadata := key.metadata.erase name }

end DeclaredOptions
