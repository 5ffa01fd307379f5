import DeclaredOptions.Text.Split

/-!
# Requests

A request is what the arguments of the program ask for: options, then `--`, then the command line to
resolve. Arguments are read from left to right, and the first one that asks for help or the version
or cannot be read decides the answer. Only after that is a missing argument noticed.
-/

namespace DeclaredOptions

/-- How reports are written. -/
inductive Format
  | text
  | json
  deriving DecidableEq, Repr

/-- The format that a word stands for. -/
def Format.ofWord? : String → Option Format
  | "text" => some .text
  | "json" => some .json
  | _ => none

/-- An option of the program. -/
inductive Setting
  | document
  | errorKey
  | posixly
  | separator
  | usage
  | introduction
  | format
  | debug
  deriving DecidableEq, Repr

namespace Setting

/-- All options. -/
def all : List Setting :=
  [.document, .errorKey, .posixly, .separator, .usage, .introduction, .format, .debug]

/-- The word for an option, without its dashes. -/
def word : Setting → String
  | .document => "spec"
  | .errorKey => "error-key"
  | .posixly => "posixly"
  | .separator => "env-separator"
  | .usage => "usage"
  | .introduction => "help-prefix"
  | .format => "format"
  | .debug => "debug"

/-- The option that a word stands for. -/
def ofWord? (word : String) : Option Setting := all.find? fun setting => setting.word == word

/-- Whether an option takes no value. -/
def isFlag : Setting → Bool
  | .posixly | .debug => true
  | _ => false

/-- Whether an option takes a certain value. -/
def accepts (setting : Setting) (value : String) : Bool :=
  match setting with
  | .format => (Format.ofWord? value).isSome
  | .separator => value.toList.length == 1
  | _ => true

end Setting

/-- Why there is no request. -/
inductive Refusal
  | helpRequested
  | versionRequested
  | usage
  deriving DecidableEq, Repr

namespace Refusal

/-- The exit status of the program. -/
def status : Refusal → Nat
  | .helpRequested | .versionRequested => 0
  | .usage => 2

end Refusal

/-- Options with their values, each at most once. -/
abbrev Given : Type := List (Setting × String)

namespace Given

/-- The value of an option. -/
def value? (given : Given) (setting : Setting) : Option String := given.lookup setting

/-- Adds an option, unless it is there already or does not take the value. -/
def add (given : Given) (setting : Setting) (value : String) : Except Refusal Given :=
  if (given.value? setting).isNone ∧ setting.accepts value then .ok ((setting, value) :: given)
  else .error .usage

end Given

/-- Whether an argument can be the value of the option before it. -/
def isFreeValue (argument : String) : Bool :=
  match argument.toList with
  | '-' :: _ :: _ => false
  | _ => true

/-- The word of an argument `--word` or `--word=value`, and the value. -/
def longArgument? (argument : String) : Option (String × Option String) :=
  match argument.toList with
  | '-' :: '-' :: body => match Text.cut? '=' (.ofList body) with
    | some (word, value) => some (word, some value)
    | none => some (.ofList body, none)
  | _ => none

/-- The refusal that an argument asks for which is no option with a value of its own. -/
def refusalOf (argument : String) : Refusal :=
  match argument.toList with
  | '-' :: 'h' :: _ => .helpRequested
  | '-' :: 'V' :: _ => .versionRequested
  | _ => if argument = "--help" then .helpRequested
    else if argument = "--version" then .versionRequested
    else .usage

/-- Reads arguments up to the first `--`: the options and what comes after. -/
def readArguments (given : Given) : List String → Except Refusal (Given × List String)
  | [] => .ok (given, [])
  | argument :: rest =>
    if argument = "--" then .ok (given, rest)
    else match longArgument? argument with
      | none => .error (refusalOf argument)
      | some (word, inlineValue) => match Setting.ofWord? word, inlineValue with
        | none, _ => .error (refusalOf argument)
        | some setting, none =>
          if setting.isFlag then do readArguments (← given.add setting "") rest
          else match rest with
            | [] => .error .usage
            | value :: rest =>
              if isFreeValue value then do readArguments (← given.add setting value) rest
              else .error .usage
        | some setting, some value =>
          if setting.isFlag then .error .usage
          else do readArguments (← given.add setting value) rest

/-- What the program is asked to do. -/
structure Request where
  /-- The path of the document that declares the options. -/
  document : String
  /-- The name of the key that receives failures. -/
  errorKey : String
  posixly : Bool
  separator : Option Char
  /-- A usage line in place of the generated one. -/
  usage : Option String
  /-- A text that comes before the list of options. -/
  introduction : Option String
  format : Format
  debug : Bool
  argv : List String
  deriving DecidableEq, Repr

namespace Request

/-- The request made by options and a command line. Only the document is required. -/
def ofGiven? (given : Given) (argv : List String) : Option Request := do
  let document ← given.value? .document
  return {
    document
    errorKey := (given.value? .errorKey).getD "/sw/app"
    posixly := (given.value? .posixly).isSome
    separator := (given.value? .separator).bind fun value => value.toList.head?
    usage := given.value? .usage
    introduction := given.value? .introduction
    format := ((given.value? .format).bind Format.ofWord?).getD .text
    debug := (given.value? .debug).isSome
    argv }

/-- Reads the arguments of the program. The command line has at least the name of a program. -/
def parse (arguments : List String) : Except Refusal Request := do
  let (given, argv) ← readArguments [] arguments
  if argv = [] then .error .usage
  else match ofGiven? given argv with
    | some request => .ok request
    | none => .error .usage

end Request

end DeclaredOptions
