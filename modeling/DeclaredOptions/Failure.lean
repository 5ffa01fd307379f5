import DeclaredOptions.Key

/-!
# Failures

A failure names what is at fault and why. Its sentence is formed in one place, and a key can carry
it in its metadata.
-/

namespace DeclaredOptions

/-- Why a declaration is illegal. -/
inductive SpecFault
  | dashShortOption
  | reservedShortOption
  | reservedLongOption
  | duplicateOption (option existing : String)
  | duplicateVariable (name existing : String)
  | flagValueWithRequiredArgument
  | unknownArgumentMode (label : String)
  | remainingOnSingleKey
  deriving DecidableEq, Repr

/-- The clause that states a fault. -/
def SpecFault.message : SpecFault → String
  | .dashShortOption =>
    "'-' cannot be used as a short option because it collides with '--'"
  | .reservedShortOption =>
    "'h' cannot be used as a short option because it collides with the help option '-h'"
  | .reservedLongOption =>
    "'help' cannot be used as a long option because it collides with the help option '--help'"
  | .duplicateOption option existing =>
    "the option '" ++ option ++ "' has already been specified for the key '" ++ existing ++ "'"
  | .duplicateVariable name existing =>
    "the environment variable '" ++ name ++ "' has already been specified for the key '" ++
      existing ++ "'"
  | .flagValueWithRequiredArgument =>
    "the flagvalue metadata can only be used if the opt/arg metadata is 'none' or 'optional'"
  | .unknownArgumentMode label =>
    "'" ++ label ++ "' is not a valid opt/arg value, expected 'none', 'required' or 'optional'"
  | .remainingOnSingleKey =>
    "'args=remaining' can only be set on array keys (basename '#')"

/-- Why a declared option or variable is used illegally. -/
inductive UseFault
  | missingArgument
  | notRepeatable
  | unexpectedArgument
  | conflictingSource (other key : String)
  | alreadyResolved (key : String)
  deriving DecidableEq, Repr

/-- The clause that states a fault. -/
def UseFault.message : UseFault → String
  | .missingArgument => "missing argument"
  | .notRepeatable => "this option cannot be repeated"
  | .unexpectedArgument => "this option cannot have an argument"
  | .conflictingSource other key =>
    "it cannot be used because '" ++ other ++ "' has already been used for the key '" ++ key ++ "'"
  | .alreadyResolved key => "the key '" ++ key ++ "' already has a resolved value"

/-- Why values could not be resolved. -/
inductive Failure
  | illegalSpecification (key : KeyName) (fault : SpecFault)
  | unknownOption (option : String)
  | illegalUse (subject : String) (fault : UseFault)
  deriving DecidableEq

namespace Failure

/-- The word for the kind of a failure. -/
def label : Failure → String
  | .illegalSpecification .. => "illegal-specification"
  | .unknownOption _ => "unknown-option"
  | .illegalUse .. => "illegal-use"

/-- The sentence that reports a failure. -/
def message : Failure → String
  | .illegalSpecification key fault =>
    "Illegal specification on key '" ++ key.display ++ "': " ++ fault.message ++ "."
  | .unknownOption option => "Unknown option: " ++ option ++ "."
  | .illegalUse subject fault => "Illegal use of " ++ subject ++ ": " ++ fault.message ++ "."

/-- Records a failure in the metadata of a key. -/
def attach (failure : Failure) (key : Key) : Key :=
  (key.setMetadata "error" failure.label).setMetadata "error/reason" failure.message

end Failure

end DeclaredOptions
