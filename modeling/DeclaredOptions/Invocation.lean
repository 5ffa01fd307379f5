import DeclaredOptions.Environment
import DeclaredOptions.Text.Utf8

/-!
# Invocations

A program is invoked with arguments and variables that are bytes. Arguments are read as far as they
can be; a variable counts only if both its name and its value can be read.
-/

namespace DeclaredOptions

/-- The bytes that a program is invoked with. -/
structure Invocation where
  arguments : List (List UInt8)
  /-- Values of variables, sorted by name. -/
  environment : SortedMap (List UInt8) (List UInt8)

namespace Invocation

/-- The invocation with named values; the last value of a name counts. -/
def ofPairs (arguments : List (List UInt8)) (pairs : List (List UInt8 × List UInt8)) :
    Invocation := ⟨arguments, .ofList Prod.fst pairs⟩

/-- The arguments as texts. -/
def argv (invocation : Invocation) : List String := invocation.arguments.map Utf8.decodeLossy

/-- The variables as entries. -/
def envp (invocation : Invocation) : List String :=
  invocation.environment.toList.filterMap fun (name, value) => do
    return Environment.entry (← Utf8.decode? name) (← Utf8.decode? value)

end Invocation

end DeclaredOptions
