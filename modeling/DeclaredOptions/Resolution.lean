import DeclaredOptions.CommandLine
import DeclaredOptions.Environment
import DeclaredOptions.Specification

/-!
# Resolution

The value of a binding comes from the first source that has one: its short options, its long
options, its variables, the leftover arguments. Within a source at most one option or variable may
have a value; a second one is a conflict. What lower sources hold does not matter then.
-/

namespace DeclaredOptions

/-- Where a value can come from. -/
inductive Source
  | shortOption
  | longOption
  | environment
  | positional
  deriving DecidableEq, Repr

namespace Source

/-- The sources, those that win first. -/
def precedence : List Source := [.shortOption, .longOption, .environment, .positional]

/-- The words for a source. -/
def label : Source → String
  | .shortOption => "short option"
  | .longOption => "long option"
  | .environment => "environment variable"
  | .positional => "positional arguments"

end Source

/-- A value of the kind that a key takes. -/
inductive Value
  | scalar (text : String)
  | array (texts : List String)
  deriving DecidableEq, Repr

/-- The value chosen for a binding, and where it comes from. -/
structure Resolution where
  source : Source
  /-- The option, the variable, or `--` for leftover arguments. -/
  origin : String
  value : Value
  deriving DecidableEq, Repr

/-- All that values can come from in one call. -/
structure Inputs where
  line : CommandLine
  environment : Environment
  separator : Char

namespace Inputs

/-- What an option gives to a key of some kind. -/
def ofOption (inputs : Inputs) (kind : Kind) (source : Source) (name : OptionName) :
    Option Resolution :=
  match kind, inputs.line.log.values name with
  | _, [] => none
  | .single, value :: _ => some ⟨source, name.display, .scalar value⟩
  | .array, values => some ⟨source, name.display, .array values⟩

/-- What a variable gives to a key of some kind. -/
def ofVariable (inputs : Inputs) (kind : Kind) (name : String) : Option Resolution :=
  (inputs.environment.get? name).map fun value =>
    match kind with
    | .single => ⟨.environment, name, .scalar value⟩
    | .array => ⟨.environment, name, .array (ListValue.read inputs.separator value).values⟩

/-- What a source offers to a binding, in the order of declaration. -/
def offers (inputs : Inputs) (binding : Binding) : Source → List (Option Resolution)
  | .shortOption => (binding.options.filter (·.name.isShort)).map fun option =>
      inputs.ofOption binding.key.kind .shortOption option.name
  | .longOption => (binding.options.filter fun option => !option.name.isShort).map fun option =>
      inputs.ofOption binding.key.kind .longOption option.name
  | .environment => binding.envVars.map (inputs.ofVariable binding.key.kind)
  | .positional =>
      if binding.remaining then [some ⟨.positional, "--", .array inputs.line.positionals⟩] else []

/-- Goes through offers and keeps the only one; a second one conflicts with the first. -/
def choose (key : KeyName) : Option Resolution → List (Option Resolution) →
    Except Failure (Option Resolution)
  | found, [] => .ok found
  | found, none :: rest => choose key found rest
  | none, some offer :: rest => choose key (some offer) rest
  | some first, some second :: _ =>
    .error (.illegalUse second.origin (.conflictingSource first.origin key.display))

/-- The value of a binding from the first of the sources that has one. -/
def resolveFrom (inputs : Inputs) (binding : Binding) : List Source →
    Except Failure (Option Resolution)
  | [] => .ok none
  | source :: sources => do
    match ← choose binding.key none (inputs.offers binding source) with
    | some resolution => return some resolution
    | none => resolveFrom inputs binding sources

/-- The value of a binding, if anything gives it one. -/
def resolve (inputs : Inputs) (binding : Binding) : Except Failure (Option Resolution) :=
  inputs.resolveFrom binding Source.precedence

end Inputs

end DeclaredOptions
