import DeclaredOptions.Json.Reader
import DeclaredOptions.KeySet

/-!
# Documents

A document is a JSON array of keys. A key is an object with the members `name`, `value` and `meta`,
or an array of these three in this order. Only the name is required. Other members are ignored; a
repeated member is an error, while of two metadata entries with one name the later one counts.
-/

namespace DeclaredOptions.Document

/-! ### Writing -/

/-- The JSON text of a string. -/
def text (s : String) : Json := .text (some s)

/-- A key as an object; empty metadata is left out. -/
def ofKey (key : Key) : Json :=
  .object ([(some "name", text key.name.display), (some "value", text key.value)] ++
    if key.metadata.isEmpty then []
    else [(some "meta", .object (key.metadata.toList.map fun entry =>
      (some entry.1, text entry.2)))])

/-- The document of a key set. -/
def write (keys : KeySet) : String := (Json.array (keys.toList.map ofKey)).compact

/-! ### Reading -/

/-- The text of a string literal. -/
def text? : Json → Option String
  | .text content => content
  | _ => none

/-- A metadata entry. -/
def entry? : Option String × Json → Option (String × String)
  | (some name, value) => (text? value).map fun value => (name, value)
  | (none, _) => none

/-- Metadata from an object. -/
def metadata? : Json → Option Metadata
  | .object members => (members.mapM entry?).map (SortedBy.ofList Prod.fst)
  | _ => none

/-- A key from the values of its members. -/
def assemble? (name : Json) (value metadata : Option Json) : Option Key := do
  let name ← (KeyName.parse (← text? name)).toOption
  let value ← (value.map text?).getD (some "")
  let metadata ← (metadata.map metadata?).getD (some ∅)
  return { name, value, metadata }

/-- The values of the members with some name. -/
def valuesOf (members : List (Option String × Json)) (name : String) : List Json :=
  (members.filter fun member => member.1 = some name).map Prod.snd

/-- A key from an object or an array. -/
def key? : Json → Option Key
  | .object members =>
    if members.all fun member => member.1.isSome then
      match valuesOf members "name", valuesOf members "value", valuesOf members "meta" with
      | [name], [], [] => assemble? name none none
      | [name], [value], [] => assemble? name (some value) none
      | [name], [], [metadata] => assemble? name none (some metadata)
      | [name], [value], [metadata] => assemble? name (some value) (some metadata)
      | _, _, _ => none
    else none
  | .array [name] => assemble? name none none
  | .array [name, value] => assemble? name (some value) none
  | .array [name, value, metadata] => assemble? name (some value) (some metadata)
  | _ => none

/-- Keys from an array; of two with one name the later one counts. -/
def keys? : Json → Option KeySet
  | .array items => (items.mapM key?).map (SortedBy.ofList Key.name)
  | _ => none

/-- The key set of a document. -/
def read? (document : String) : Option KeySet := (Json.parse? document).bind keys?

end DeclaredOptions.Document
