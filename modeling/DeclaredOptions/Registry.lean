import DeclaredOptions.Help

/-!
# Registration

Compilation fills tables while it goes through the keys: the options of all keys by name, the keys
by the variable that they bind, and for each key that anything can supply a list of the names that
were registered for it. Each table is changed on its own, at the moment when a declaration has
passed its checks. A specification says the same without tables of its own.
-/

namespace DeclaredOptions

/-! ### Tables -/

/-- What is filed under the name of an option. -/
structure Descriptor where
  name : OptionName
  mode : ArgumentMode
  kind : Kind
  /-- The value of an occurrence without argument. -/
  flagValue : String
  hidden : Bool
  owner : Owner
  deriving DecidableEq

/-- The built-in help under one of its names. -/
def Descriptor.help (name : OptionName) : Descriptor where
  name
  mode := .never
  kind := .single
  flagValue := "1"
  hidden := false
  owner := .help

/-- A key and the names of all that can supply its value, each in the order of registration. -/
structure KeyBinding where
  key : KeyName
  kind : Kind
  options : List OptionName
  envVars : List String
  /-- Whether leftover arguments are collected here. -/
  remaining : Bool
  helpLine? : Option String
  deriving DecidableEq

namespace KeyBinding

/-- Whether anything can supply the key. -/
def isBound (binding : KeyBinding) : Bool :=
  binding.options ≠ [] || binding.envVars ≠ [] || binding.remaining

/-- A key that nothing was registered for. -/
def unbound (key : KeyName) : KeyBinding where
  key
  kind := key.kind
  options := []
  envVars := []
  remaining := false
  helpLine? := none

/-- What is filed for an option of the key. -/
def descriptor (binding : KeyBinding) (settings : OptionSettings) (name : OptionName) :
    Descriptor where
  name
  mode := settings.mode
  kind := binding.kind
  flagValue := settings.flagValue
  hidden := settings.hidden
  owner := .key binding.key

end KeyBinding

/-- What was registered for the keys so far. -/
structure Registry where
  /-- The options of the built-in help and of all keys. -/
  options : SortedMap OptionName Descriptor
  /-- The keys that anything can supply, in the order in which they were compiled. -/
  bindings : List KeyBinding
  /-- Whether help texts show any option besides the built-in help. -/
  hasOptions : Bool
  /-- Whether leftover arguments are collected. -/
  hasArguments : Bool
  /-- The key that binds each variable. -/
  holders : SortedMap String KeyName
  deriving DecidableEq

/-- Before any key only the built-in help is known. -/
def Registry.builtin : Registry where
  options := .ofList Prod.fst
    [(.helpShort, .help .helpShort), (.helpLong, .help .helpLong)]
  bindings := []
  hasOptions := false
  hasArguments := false
  holders := ∅

/-! ### Registration for one key -/

/-- A key while it is compiled, with the tables that its declarations change. -/
structure Draft where
  registry : Registry
  binding : KeyBinding
  help : HelpParts

namespace Draft

/-- Files an option of the key under a name, unless the name is reserved or already taken. -/
def addName (settings : OptionSettings) (draft : Draft) (name : OptionName) :
    Except SpecFault Draft :=
  match name.fault? with
  | some fault => .error fault
  | none => match draft.registry.options.get? name with
    | some other => .error (.duplicateOption name.display other.owner.display)
    | none => .ok { draft with
        registry.options :=
          draft.registry.options.set name (draft.binding.descriptor settings name)
        registry.hasOptions := draft.registry.hasOptions || !settings.hidden
        binding.options := draft.binding.options ++ [name]
        help := draft.help.addName settings name }

/-- Files the options of one entry. -/
def addEntry (m : Metadata) (draft : Draft) (entry : FieldEntry) : Except SpecFault Draft := do
  let settings ← OptionSettings.read m entry
  (entry.optionNames m).foldlM (addName settings) draft

/-- Files the options of all entries, and sets out the line that shows them. -/
def addOptions (m : Metadata) (draft : Draft) : Except SpecFault Draft := do
  let draft ← (optionEntries m).foldlM (addEntry m) draft
  return { draft with binding.helpLine? := draft.help.line? (declaredHelp m) }

/-- Files a variable of the key, unless it is already bound; the empty name counts for nothing. -/
def addVariable (draft : Draft) (name : String) : Except SpecFault Draft :=
  if name = "" then .ok draft
  else match draft.registry.holders.get? name with
    | some holder => .error (.duplicateVariable name holder.display)
    | none => .ok { draft with
        registry.holders := draft.registry.holders.set name draft.binding.key
        binding.envVars := draft.binding.envVars ++ [name] }

/-- Files all variables of the key. -/
def addVariables (m : Metadata) (draft : Draft) : Except SpecFault Draft :=
  ((Field.read m "env").entries.map FieldEntry.value).foldlM addVariable draft

/-- Marks the key if it collects leftover arguments; only a list can. -/
def addRemaining (m : Metadata) (draft : Draft) : Except SpecFault Draft :=
  if m.nonEmpty? "args" = some "remaining" then
    if draft.binding.kind = .array then
      .ok { draft with registry.hasArguments := true, binding.remaining := true }
    else .error .remainingOnSingleKey
  else .ok draft

/-- The tables after the key, which is listed if anything can supply it. -/
def close (draft : Draft) : Registry :=
  if draft.binding.isBound then
    { draft.registry with bindings := draft.registry.bindings ++ [draft.binding] }
  else draft.registry

end Draft

/-! ### Compilation -/

namespace Registry

/-- Registers what a key declares. -/
def addKey (registry : Registry) (key : Key) : Except SpecFault Registry := do
  let draft ← Draft.addOptions key.metadata ⟨registry, .unbound key.name, ⟨[], []⟩⟩
  let draft ← draft.addVariables key.metadata
  let draft ← draft.addRemaining key.metadata
  return draft.close

/-- The tables that the `spec` keys of a key set fill. -/
def compile (keys : KeySet) : Except Failure Registry :=
  (keys.inSpace .spec).foldlM
    (fun registry key => (registry.addKey key).mapError (.illegalSpecification key.name)) builtin

end Registry

end DeclaredOptions
