import DeclaredOptions.Resolution

/-!
# Staging

Resolved values become keys of the `proc` namespace. They are staged in a key set of their own and
reach the store together, once every binding has its value. A scalar goes to the name of its
binding; the elements of an array go below the parent of that name, and the parent holds the name of
the last element, or `#` where there is none. A scalar or a parent is never staged over a value that
is not empty.
-/

namespace DeclaredOptions

namespace Staging

/-- Whether a key of some name holds a value. -/
def Holds (keys : KeySet) (name : KeyName) : Prop :=
  ∃ key ∈ keys.find? name, key.value ≠ ""

instance (keys : KeySet) (name : KeyName) : Decidable (Holds keys name) :=
  inferInstanceAs (Decidable (∃ _ ∈ _, _))

/-- Refuses a name that already holds a value. -/
def ensureVacant (store staged : KeySet) (origin : String) (name : KeyName) :
    Except Failure Unit :=
  if Holds store name ∨ Holds staged name then
    .error (.illegalUse origin (.alreadyResolved name.display))
  else .ok ()

/-- The keys of array elements, the first of them with index `start`. -/
def elements (parent : KeyName) (start : Nat) : List String → List Key
  | [] => []
  | value :: values =>
    { name := parent.child (Index.name start), value } :: elements parent (start + 1) values

/-- The name of the last of `count` elements. -/
def lastName (count : Nat) : String :=
  if count = 0 then KeyName.wildcard else Index.name (count - 1)

/-- The name that receives the value of a binding. -/
def target (binding : Binding) : KeyName := binding.key.inSpace .proc

/-- Stages the value of a binding. -/
def write (store staged : KeySet) (binding : Binding) (origin : String) :
    Value → Except Failure KeySet
  | .scalar value => do
    ensureVacant store staged origin (target binding)
    return staged.insert { name := target binding, value }
  | .array values => do
    let parent := (target binding).parent?.getD (target binding)
    ensureVacant store staged origin parent
    return (staged.insertAll (elements parent 0 values)).insert
      { name := parent, value := lastName values.length }

/-- Resolves bindings in turn and stages their values. -/
def resolveAll (store : KeySet) (inputs : Inputs) : KeySet → List Binding → Except Failure KeySet
  | staged, [] => .ok staged
  | staged, binding :: bindings => do
    match ← inputs.resolve binding with
    | none => resolveAll store inputs staged bindings
    | some resolution =>
      let staged ← write store staged binding resolution.origin resolution.value
      resolveAll store inputs staged bindings

end Staging

end DeclaredOptions
