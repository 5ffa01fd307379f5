import DeclaredOptions.Failure
import DeclaredOptions.Field
import DeclaredOptions.KeySet
import DeclaredOptions.OptionSpec

/-!
# Specifications

The keys of the `spec` namespace declare where their values come from: options (`opt`), environment
variables (`env`) and leftover arguments (`args = remaining`). A specification lists these bindings
in key order. Declarations are checked one after the other, so the first illegal one is reported:
a reserved or doubled option name, a doubled variable, a contradictory setting.
-/

namespace DeclaredOptions

/-! ### Bindings -/

/-- A key and all that can supply its value, each in the order of declaration. -/
structure Binding where
  key : KeyName
  options : List OptionSpec
  envVars : List String
  /-- Whether leftover arguments are collected here. -/
  remaining : Bool
  /-- What help texts say about the key. -/
  help : String
  deriving DecidableEq

namespace Binding

/-- Whether anything can supply the key. -/
def isBound (binding : Binding) : Bool :=
  binding.options ≠ [] || binding.envVars ≠ [] || binding.remaining

/-- The options that help texts show: all short forms, then all long ones. -/
def visible (binding : Binding) : List OptionSpec :=
  let shown := binding.options.filter fun option => !option.hidden
  shown.filter (·.name.isShort) ++ shown.filter fun option => !option.name.isShort

end Binding

/-- The bindings of a program, in key order. -/
structure Specification where
  bindings : List Binding
  deriving DecidableEq

namespace Specification

/-- All options: the built-in help and those of the bindings. -/
def options (spec : Specification) : List OptionSpec :=
  OptionSpec.builtin ++ spec.bindings.flatMap Binding.options

/-- Whether help texts show any option besides the built-in help. -/
def hasOptions (spec : Specification) : Bool :=
  spec.bindings.any fun binding => binding.options.any fun option => !option.hidden

/-- Whether leftover arguments are collected. -/
def hasArguments (spec : Specification) : Bool := spec.bindings.any Binding.remaining

/-- The key that binds a variable. -/
def holder? (spec : Specification) (name : String) : Option KeyName :=
  (spec.bindings.find? fun binding => name ∈ binding.envVars).map Binding.key

end Specification

/-! ### Declared options -/

/-- What both names of one entry share. -/
structure OptionSettings where
  mode : ArgumentMode
  flagValue : String
  placeholder : String
  hidden : Bool
  deriving DecidableEq, Repr

namespace OptionSettings

/-- Reads the settings of an entry. An argument is required unless told otherwise. -/
def read (m : Metadata) (entry : FieldEntry) : Except SpecFault OptionSettings := do
  let mode ← match entry.facet? m .argument with
    | none => .ok .required
    | some label => match ArgumentMode.ofLabel? label with
      | some mode => .ok mode
      | none => .error (.unknownArgumentMode label)
  let flagValue ← match entry.facet? m .flagValue with
    | none => .ok "1"
    | some value =>
      if mode = .required then .error .flagValueWithRequiredArgument else .ok value
  return {
    mode
    flagValue
    placeholder := (entry.facet? m .placeholder).getD "ARG"
    hidden := entry.facet? m .hidden = some "1" }

/-- The option of a key with these settings. -/
def option (settings : OptionSettings) (key : KeyName) (name : OptionName) : OptionSpec where
  name
  mode := settings.mode
  flagValue := settings.flagValue
  placeholder := settings.placeholder
  hidden := settings.hidden
  owner := .key key

end OptionSettings

/-- The names that an entry gives its option: the first character of its text, then the long
name. -/
def FieldEntry.optionNames (entry : FieldEntry) (m : Metadata) : List OptionName :=
  (entry.value.toList.head?.map OptionName.short).toList ++
    ((entry.facet? m .long).map OptionName.long).toList

/-- The entries that declare options. A long name alone makes an entry too. -/
def optionEntries (m : Metadata) : List FieldEntry :=
  match Field.read m "opt" with
  | .absent => if (m.nonEmpty? "opt/long").isSome then (Field.implicit "opt").entries else []
  | field => field.entries

/-- Why a name is not for declared options. -/
def OptionName.fault? : OptionName → Option SpecFault
  | .short '-' => some .dashShortOption
  | .short 'h' => some .reservedShortOption
  | .long "help" => some .reservedLongOption
  | _ => none

/-- Adds an option to a key's `own`, unless its name is reserved or already taken. -/
def registerOption (taken own : List OptionSpec) (option : OptionSpec) :
    Except SpecFault (List OptionSpec) :=
  match option.name.fault? with
  | some fault => .error fault
  | none => match (taken ++ own).find? fun other => other.name = option.name with
    | some other => .error (.duplicateOption option.name.display other.owner.display)
    | none => .ok (own ++ [option])

/-- Adds the options of one entry. -/
def declareEntry (taken : List OptionSpec) (key : Key) (own : List OptionSpec)
    (entry : FieldEntry) : Except SpecFault (List OptionSpec) := do
  let settings ← OptionSettings.read key.metadata entry
  (entry.optionNames key.metadata).foldlM (fun own name =>
    registerOption taken own (settings.option key.name name)) own

/-- The options that a key declares. -/
def declaredOptions (taken : List OptionSpec) (key : Key) : Except SpecFault (List OptionSpec) :=
  (optionEntries key.metadata).foldlM (declareEntry taken key) []

/-! ### Declared variables and arguments -/

/-- Adds a variable to a key's `own`, unless it is already bound; the empty name counts for
nothing. -/
def registerVariable (spec : Specification) (key : KeyName) (own : List String)
    (name : String) : Except SpecFault (List String) :=
  if name = "" then .ok own
  else match if name ∈ own then some key else spec.holder? name with
    | some holder => .error (.duplicateVariable name holder.display)
    | none => .ok (own ++ [name])

/-- The variables that a key declares. -/
def declaredVariables (spec : Specification) (key : Key) : Except SpecFault (List String) :=
  ((Field.read key.metadata "env").entries.map FieldEntry.value).foldlM
    (registerVariable spec key.name) []

/-- Whether a key declares that it collects leftover arguments; only a list can. -/
def declaredRemaining (key : Key) : Except SpecFault Bool :=
  if key.metadata.nonEmpty? "args" = some "remaining" then
    if key.name.kind = .array then .ok true else .error .remainingOnSingleKey
  else .ok false

/-- What help texts say about a key. -/
def declaredHelp (m : Metadata) : String :=
  ((m.nonEmpty? "opt/help").or (m.nonEmpty? "description")).getD ""

/-! ### Compilation -/

namespace Specification

/-- Adds the binding that a key declares, if it declares any. -/
def addKey (spec : Specification) (key : Key) : Except SpecFault Specification := do
  let options ← declaredOptions spec.options key
  let envVars ← declaredVariables spec key
  let remaining ← declaredRemaining key
  let binding : Binding :=
    { key := key.name, options, envVars, remaining, help := declaredHelp key.metadata }
  return if binding.isBound then ⟨spec.bindings ++ [binding]⟩ else spec

/-- The specification declared by the `spec` keys of a key set. -/
def compile (keys : KeySet) : Except Failure Specification :=
  (keys.inSpace .spec).foldlM
    (fun spec key => (spec.addKey key).mapError (.illegalSpecification key.name)) ⟨[]⟩

end Specification

end DeclaredOptions
