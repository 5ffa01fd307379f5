import DeclaredOptions.Json
import DeclaredOptions.Program.Request
import DeclaredOptions.Session

/-!
# Reports

A report says how a call ended: the keys of the `proc` namespace, the help text, or the failure. It
is written as text or as JSON, failures to the error output and all else to the output.
-/

namespace DeclaredOptions

/-- How a call ended. -/
inductive Report
  | resolved (keys : List Key)
  | help (text : String)
  | failed (failure : Failure)
  deriving DecidableEq

namespace Report

/-- The report of a call, given the session after it. -/
def ofCall : Except Failure Outcome × Session → Report
  | (.ok .resolved, session) => .resolved (session.keys.inSpace .proc)
  | (.ok .helpRequested, session) => .help ((Help.message? session.errorKey).getD "")
  | (.error failure, _) => .failed failure

/-- The exit status of the program. -/
def status : Report → Nat
  | .resolved _ => 0
  | .help _ => 1
  | .failed _ => 2

/-- Whether the report goes to the error output. -/
def isFailure : Report → Bool
  | .failed _ => true
  | _ => false

/-- The report as text. -/
def toText : Report → String
  | .resolved keys =>
    String.join (keys.map fun key => key.name.display ++ " = " ++ key.value ++ "\n")
  | .help text => text
  | .failed failure => failure.message ++ "\n"

/-- A member of an object whose value is a text. -/
def member (name value : String) : Option String × Json := (some name, .text (some value))

/-- The report as a JSON value. -/
def toJson : Report → Json
  | .resolved keys => .object [member "outcome" "resolved",
      (some "keys", .array (keys.map fun key =>
        .object [member "name" key.name.display, member "value" key.value]))]
  | .help text => .object [member "outcome" "help", member "text" text]
  | .failed failure => .object [member "outcome" "failed", member "kind" failure.label,
      member "reason" failure.message]

/-- The written form of a report. -/
def render (report : Report) : Format → String
  | .text => report.toText
  | .json => report.toJson.indented 0 ++ "\n"

end Report

/-- What a program writes, and its exit status. -/
structure Written where
  status : Nat
  output : String
  errorOutput : String
  deriving DecidableEq, Repr

namespace Report

/-- Writes a report. -/
def write (report : Report) (format : Format) : Written where
  status := report.status
  output := if report.isFailure then "" else report.render format
  errorOutput := if report.isFailure then report.render format else ""

end Report

/-- Whether outputs that take no bytes are enough. -/
def Written.IsSilent (written : Written) : Prop := written.output ++ written.errorOutput = ""

instance (written : Written) : Decidable written.IsSilent := inferInstanceAs (Decidable (_ = _))

end DeclaredOptions
