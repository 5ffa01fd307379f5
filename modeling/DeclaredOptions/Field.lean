import DeclaredOptions.Key
import DeclaredOptions.Name.Index

/-!
# Metadata fields

A field such as `opt` is given once (`opt = a`) or as an array (`opt = #1`, `opt/#0 = a`,
`opt/#1 = b`). Either way its entries can carry facets of their own, such as `opt/long` or
`opt/#0/long`.
-/

namespace DeclaredOptions

/-- What an entry of a field can say about the option it declares. -/
inductive Facet
  /-- The long name. -/
  | long
  /-- Whether an argument follows. -/
  | argument
  /-- The name of the argument in help texts. -/
  | placeholder
  /-- The value when no argument is given. -/
  | flagValue
  /-- Whether help texts leave the option out. -/
  | hidden
  deriving DecidableEq, Repr

namespace Facet

/-- All facets. -/
def all : List Facet := [.long, .argument, .placeholder, .flagValue, .hidden]

/-- The path of a facet below its entry. -/
def path : Facet → String
  | .long => "long"
  | .argument => "arg"
  | .placeholder => "arg/help"
  | .flagValue => "flagvalue"
  | .hidden => "nohelp"

/-- The metadata name of a facet of the entry `base`. -/
def nameBelow (facet : Facet) (base : String) : String := base ++ "/" ++ facet.path

end Facet

/-- A text of a field, with the metadata name it stands under. -/
structure FieldEntry where
  base : String
  value : String
  deriving DecidableEq, Repr

/-- The text of a facet; the empty text counts as none. -/
def FieldEntry.facet? (entry : FieldEntry) (m : Metadata) (facet : Facet) : Option String :=
  m.nonEmpty? (facet.nameBelow entry.base)

/-- A field as it is given. -/
inductive Field
  | absent
  | single (entry : FieldEntry)
  | array (entries : List FieldEntry)
  deriving DecidableEq, Repr

namespace Field

/-- The entries whose name is an index name right below `field`, in index order. -/
def elements (m : Metadata) (field : String) : List FieldEntry :=
  ((m.below field).filter fun entry =>
    (Index.parse? (.ofList (entry.1.toList.drop (field.length + 1)))).isSome).map
      fun entry => ⟨entry.1, entry.2⟩

/-- Reads a field. It is an array if its text starts with `#` and names metadata below it. -/
def read (m : Metadata) (field : String) : Field :=
  match m.get? field with
  | none => .absent
  | some value =>
    if value.toList.head? = some '#' ∧ (m.get? (field ++ "/" ++ value)).isSome then
      .array (elements m field)
    else .single ⟨field, value⟩

/-- A field that is given only through the facets of its one entry. -/
def implicit (field : String) : Field := .single ⟨field, ""⟩

/-- The entries in order. -/
def entries : Field → List FieldEntry
  | .absent => []
  | .single entry => [entry]
  | .array entries => entries

end Field

end DeclaredOptions
