import DeclaredOptions.Key
import DeclaredOptions.Name.Index

/-!
# Key sets

A key set holds keys in the order of their names, one key for each name. The descendants of a name
stand together right after it, and the elements of an array stand in the order of their indices.
-/

namespace DeclaredOptions

/-- Keys sorted by name. -/
abbrev KeySet : Type := SortedBy Key.name

namespace KeySet

/-- The keys of one namespace, in order. -/
def inSpace (keys : KeySet) (space : Namespace) : List Key :=
  keys.toList.filter fun key => key.name.space = space

/-- The keys strictly below `top`, in order; `top` need not be there. -/
def below (keys : KeySet) (top : KeyName) : List Key :=
  (keys.above top).takeWhile fun key => key.name.IsBelow top

/-- The values of the array elements directly below `top`, in index order. -/
def arrayValues (keys : KeySet) (top : KeyName) : List String :=
  ((keys.below top).filter fun key =>
    key.name.IsDirectlyBelow top ∧ (Index.parse? key.name.baseName).isSome).map Key.value

end KeySet

end DeclaredOptions
