import DeclaredOptions.Specification

/-!
# Help texts

The help text is a usage line and a list of options. Both are generated for a specification and
kept in the metadata of a key, where the caller can put a usage line of its own and a text that
comes before the list.
-/

namespace DeclaredOptions

/-! ### Lines -/

/-- The column at which the help of an option starts. -/
def helpColumn : Nat := 30

/-- A text of blanks. -/
def blanks (n : Nat) : String := .ofList (List.replicate n ' ')

/-- What follows a long name in help texts. -/
def OptionSettings.argumentForm (settings : OptionSettings) : String :=
  match settings.mode with
  | .never => ""
  | .required => "=" ++ settings.placeholder
  | .optional => "=[" ++ settings.placeholder ++ "]"

/-- The forms that help texts show for a key, short and long ones apart. -/
@[ext]
structure HelpParts where
  shorts : List String
  longs : List String
  deriving DecidableEq

namespace HelpParts

/-- Adds the form of a name, unless the option is hidden. -/
def addName (settings : OptionSettings) (parts : HelpParts) (name : OptionName) : HelpParts :=
  if settings.hidden then parts
  else match name with
    | .short letter => { parts with shorts := parts.shorts ++ [.ofList ['-', letter]] }
    | .long word => { parts with longs := parts.longs ++ ["--" ++ word ++ settings.argumentForm] }

/-- How forms and the help of a key are set out. Forms that fill the column stand on a line of their
own. -/
def layout (forms : List String) (help : String) : String :=
  let text := ", ".intercalate forms
  if text.length < helpColumn then "  " ++ text ++ blanks (helpColumn - 2 - text.length) ++ help
  else "  " ++ text ++ "\n  " ++ blanks helpColumn ++ help

/-- The line for the forms that were collected. -/
def line? (parts : HelpParts) (help : String) : Option String :=
  if parts.shorts ++ parts.longs = [] then none
  else some (layout (parts.shorts ++ parts.longs) help)

end HelpParts

/-- The line of a binding: its visible options, then its help. -/
def Binding.helpLine? (binding : Binding) : Option String :=
  if binding.visible = [] then none
  else some (HelpParts.layout (binding.visible.map OptionSpec.form) binding.help)

namespace Help

/-- The last segment of the path that a program was called by. -/
def programName (path : String) : String := (Text.split '/' path).getLastD ""

/-- The usage line of a program. -/
def usage (program : String) (hasOptions hasArguments : Bool) : String :=
  "Usage: " ++ program ++ (if hasOptions then " [OPTION]..." else "") ++
    (if hasArguments then " [ARG]..." else "") ++ "\n"

/-- The list of options; nothing where nothing is bound. -/
def optionList (bindings : List Binding) : String :=
  if bindings = [] then ""
  else "OPTIONS" ++ String.join ((bindings.filterMap Binding.helpLine?).map ("\n" ++ ·)) ++ "\n"

/-! ### Help in metadata -/

/-- Where the generated usage line is kept. -/
def usageEntry : String := "internal/libopts/help/usage"

/-- Where the generated list of options is kept. -/
def optionsEntry : String := "internal/libopts/help/options"

/-- Where the caller puts a usage line of its own. -/
def ownUsageEntry : String := "help/usage"

/-- Where the caller puts a text that comes before the list of options. -/
def introductionEntry : String := "help/prefix"

/-- Records the help texts of a program in the metadata of a key. -/
def attach (spec : Specification) (program : String) (key : Key) : Key :=
  (key.setMetadata usageEntry
    (usage (programName program) spec.hasOptions spec.hasArguments)).setMetadata
    optionsEntry (optionList spec.bindings)

/-- The help text that a key carries, if it has a usage line. -/
def message? (key : Key) : Option String :=
  ((key.metadata.get? ownUsageEntry).or (key.metadata.get? usageEntry)).map fun usage =>
    usage ++ (key.metadata.get? introductionEntry).getD "" ++
      (key.metadata.get? optionsEntry).getD ""

end Help

end DeclaredOptions
