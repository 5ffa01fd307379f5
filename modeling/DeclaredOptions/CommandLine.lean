import DeclaredOptions.Failure
import DeclaredOptions.OptionSpec
import DeclaredOptions.Text.Split

/-!
# Command lines

A command line is read entry by entry against a list of options. What has been read of options is
kept as a log of occurrences, in order; whether an option was given, with which values, and whether
it may be given again are questions about this log. Two rules need it:

* an option of a single-valued key is given at most once;
* a long option of a single-valued key is ignored after a short option of that key.
-/

namespace DeclaredOptions

/-! ### Occurrences -/

/-- An option given with a value. -/
structure Occurrence where
  option : OptionSpec
  value : String
  deriving DecidableEq

/-- Occurrences in the order in which they were read. -/
abbrev OptionLog : Type := List Occurrence

namespace OptionLog

/-- The values given for a name, in order. -/
def values (log : OptionLog) (name : OptionName) : List String :=
  (log.filter fun occurrence => occurrence.option.name = name).map Occurrence.value

/-- Whether a name was given. -/
def Gives (log : OptionLog) (name : OptionName) : Prop :=
  ∃ occurrence ∈ log, occurrence.option.name = name

instance (log : OptionLog) (name : OptionName) : Decidable (log.Gives name) :=
  inferInstanceAs (Decidable (∃ _ ∈ _, _))

/-- Whether a short option supplied the single-valued key of `option`. -/
def ShortSupplied (log : OptionLog) (option : OptionSpec) : Prop :=
  option.kind = .single ∧ option.owner ≠ .help ∧
    ∃ occurrence ∈ log, occurrence.option.name.isShort ∧ occurrence.option.owner = option.owner

instance (log : OptionLog) (option : OptionSpec) : Decidable (log.ShortSupplied option) :=
  inferInstanceAs (Decidable (_ ∧ _ ∧ ∃ _ ∈ _, _))

/-- Refuses an option that may not be given again. -/
def checkRepeat (log : OptionLog) (option : OptionSpec) : Except Failure Unit :=
  if option.kind = .single ∧ log.Gives option.name then
    .error (.illegalUse option.name.display .notRepeatable)
  else .ok ()

/-- Adds an occurrence. -/
def add (log : OptionLog) (option : OptionSpec) (value : String) : OptionLog :=
  log ++ [⟨option, value⟩]

/-- Adds an occurrence if the option may be given; a long option that comes too late is ignored. -/
def accept (log : OptionLog) (option : OptionSpec) (value : String) : Except Failure OptionLog :=
  if !option.name.isShort ∧ log.ShortSupplied option then .ok log
  else do
    log.checkRepeat option
    return log.add option value

end OptionLog

/-! ### Entries -/

/-- How an entry gives options. -/
inductive OptionEntry
  /-- The entry `--word` or `--word=argument`. -/
  | long (word : String) (argument : Option String)
  /-- The entry `-abc`. -/
  | cluster (letters : List Char)
  deriving DecidableEq, Repr

/-- How a single entry of a command line reads. -/
inductive Entry
  /-- The entry `--`. -/
  | terminator
  | option (entry : OptionEntry)
  /-- Any other entry, `-` among them. -/
  | positional
  deriving DecidableEq, Repr

/-- Reads one entry. The argument of a long option starts after the first `=`. -/
def Entry.ofText (text : String) : Entry :=
  match text.toList with
  | ['-', '-'] => .terminator
  | '-' :: '-' :: body => match Text.cut? '=' (.ofList body) with
    | some (word, argument) => .option (.long word (some argument))
    | none => .option (.long (.ofList body) none)
  | '-' :: letter :: letters => .option (.cluster (letter :: letters))
  | _ => .positional

/-- What is known when an entry has been read. -/
inductive Progress
  /-- Nothing is pending. -/
  | complete (log : OptionLog)
  /-- The next entry is the argument of `option`. -/
  | awaiting (log : OptionLog) (option : OptionSpec)
  deriving DecidableEq

/-- The option of a name. -/
def lookupOption (options : List OptionSpec) (name : OptionName) : Except Failure OptionSpec :=
  match options.find? fun option => option.name = name with
  | some option => .ok option
  | none => .error (.unknownOption name.display)

/-- Reads `--word` or `--word=argument`. -/
def readLong (options : List OptionSpec) (log : OptionLog) (word : String)
    (argument : Option String) : Except Failure Progress := do
  let option ← lookupOption options (.long word)
  match option.mode, argument with
  | .required, none => return .awaiting log option
  | .required, some value | .optional, some value => return .complete (← log.accept option value)
  | .optional, none | .never, none => return .complete (← log.accept option option.flagValue)
  | .never, some _ => throw (.illegalUse option.name.display .unexpectedArgument)

/-- Reads the letters of `-abc`. A letter that requires an argument takes the rest of the entry, or
the next entry if nothing is left. -/
def readCluster (options : List OptionSpec) :
    OptionLog → List Char → Except Failure Progress
  | log, [] => .ok (.complete log)
  | log, letter :: letters => do
    let option ← lookupOption options (.short letter)
    log.checkRepeat option
    if option.mode = .required then
      if letters = [] then return .awaiting log option
      else return .complete (log.add option (.ofList letters))
    else readCluster options (log.add option option.flagValue) letters

/-- Reads an entry that gives options. -/
def readOptions (options : List OptionSpec) (log : OptionLog) :
    OptionEntry → Except Failure Progress
  | .long word argument => readLong options log word argument
  | .cluster letters => readCluster options log letters

/-! ### Command lines -/

/-- What a command line gives: options and positional arguments, each in order. -/
structure CommandLine where
  log : OptionLog
  positionals : List String
  deriving DecidableEq

namespace CommandLine

/-- Reads entries after `log`. With `posixly`, the first positional argument ends the options, as
the entry `--` always does. -/
def scan (options : List OptionSpec) (posixly : Bool) :
    OptionLog → List String → Except Failure CommandLine
  | log, [] => .ok ⟨log, []⟩
  | log, entry :: rest =>
    match Entry.ofText entry with
    | .terminator => .ok ⟨log, rest⟩
    | .positional =>
      if posixly then .ok ⟨log, entry :: rest⟩
      else do
        let line ← scan options posixly log rest
        return { line with positionals := entry :: line.positionals }
    | .option entry =>
      match readOptions options log entry with
      | .error failure => .error failure
      | .ok (.complete log) => scan options posixly log rest
      | .ok (.awaiting log option) => match rest with
        | [] => .error (.illegalUse option.name.display .missingArgument)
        | argument :: rest => do scan options posixly (← log.accept option argument) rest

/-- Reads a command line. Its first entry is the name of the program. -/
def parse (options : List OptionSpec) (posixly : Bool) (argv : List String) :
    Except Failure CommandLine :=
  scan options posixly [] argv.tail

/-- Whether the built-in help was asked for. -/
def HelpRequested (line : CommandLine) : Prop :=
  line.log.Gives .helpShort ∨ line.log.Gives .helpLong

instance (line : CommandLine) : Decidable line.HelpRequested :=
  inferInstanceAs (Decidable (_ ∨ _))

end CommandLine

end DeclaredOptions
