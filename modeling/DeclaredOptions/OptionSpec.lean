import DeclaredOptions.Name

/-!
# Options

An option is known by one short character or by one long name. It belongs to a key, whose value it
supplies, or to the built-in help.
-/

namespace DeclaredOptions

open Std

/-! ### Names of options -/

/-- What an option is known by on the command line. -/
inductive OptionName
  /-- The form `-c`. -/
  | short (letter : Char)
  /-- The form `--word`. -/
  | long (word : String)
  deriving DecidableEq, Repr

namespace OptionName

/-- The short name of the built-in help. -/
def helpShort : OptionName := .short 'h'

/-- The long name of the built-in help. -/
def helpLong : OptionName := .long "help"

/-- Whether the name is a single character. -/
def isShort : OptionName → Bool
  | .short _ => true
  | .long _ => false

/-- The name with its dashes. -/
def display : OptionName → String
  | .short letter => .ofList ['-', letter]
  | .long word => "--" ++ word

/-- The name without its dashes. -/
def letters : OptionName → List Char
  | .short letter => [letter]
  | .long word => word.toList

/-- Short names sort before long ones. -/
instance : Ord OptionName where
  compare := compareLex (compareOn fun name => !name.isShort) (compareOn letters)

instance : TransOrd OptionName :=
  inferInstanceAs <| TransCmp <|
    compareLex (compareOn fun name : OptionName => !name.isShort) (compareOn letters)

theorem eq_of_letters {name other : OptionName} (hshort : name.isShort = other.isShort)
    (hletters : name.letters = other.letters) : name = other := by
  cases name <;> cases other <;> simp_all [isShort, letters, String.toList_inj]

instance : LawfulEqOrd OptionName where
  eq_of_compare {a b} h := by
    obtain ⟨hshort, hletters⟩ := compareLex_eq_eq.mp h
    exact eq_of_letters (by simpa using LawfulEqOrd.eq_of_compare hshort)
      (LawfulEqOrd.eq_of_compare hletters)

end OptionName

/-! ### Arguments -/

/-- Whether an argument follows an option. -/
inductive ArgumentMode
  | never
  | required
  /-- Only in the form `--word=argument`. -/
  | optional
  deriving DecidableEq, Repr

namespace ArgumentMode

/-- The word that stands for a mode in metadata. -/
def label : ArgumentMode → String
  | .never => "none"
  | .required => "required"
  | .optional => "optional"

/-- The mode that a word stands for. -/
def ofLabel? (label : String) : Option ArgumentMode :=
  [never, required, optional].find? fun mode => mode.label == label

end ArgumentMode

/-- Whether a key takes one value or a list of values. -/
inductive Kind
  | single
  | array
  deriving DecidableEq, Repr

/-- The word for a kind. -/
def Kind.label : Kind → String
  | .single => "single"
  | .array => "array"

/-- A key that stands for a whole array takes a list. -/
def KeyName.kind (name : KeyName) : Kind := if name.IsWildcard then .array else .single

/-! ### Options -/

/-- What an option supplies. -/
inductive Owner
  | help
  | key (name : KeyName)
  deriving DecidableEq

/-- The name of an owner in messages. -/
def Owner.display : Owner → String
  | .help => "help"
  | .key name => name.display

/-- An option under one of its names. -/
structure OptionSpec where
  name : OptionName
  mode : ArgumentMode
  /-- The value of an occurrence without argument. -/
  flagValue : String
  /-- The name of the argument in help texts. -/
  placeholder : String
  hidden : Bool
  owner : Owner
  deriving DecidableEq

namespace OptionSpec

/-- Whether occurrences collect or exclude each other. -/
def kind (option : OptionSpec) : Kind :=
  match option.owner with
  | .help => .single
  | .key name => name.kind

/-- The built-in help under one of its names. -/
def help (name : OptionName) : OptionSpec where
  name
  mode := .never
  flagValue := "1"
  placeholder := "ARG"
  hidden := false
  owner := .help

/-- The built-in help under both its names. -/
def builtin : List OptionSpec := [help .helpShort, help .helpLong]

/-- How help texts show the option. Only long names show their argument. -/
def form (option : OptionSpec) : String :=
  match option.name, option.mode with
  | .short _, _ | .long _, .never => option.name.display
  | .long _, .required => option.name.display ++ "=" ++ option.placeholder
  | .long _, .optional => option.name.display ++ "=[" ++ option.placeholder ++ "]"

end OptionSpec

end DeclaredOptions
