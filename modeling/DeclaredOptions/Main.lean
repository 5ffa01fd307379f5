import DeclaredOptions.Program.Path
import DeclaredOptions.Program.Run

/-!
# The program

Reads the document and the variables that a request needs, carries the request out, and writes the
report.
-/

namespace DeclaredOptions

/-- The bytes of the document at a path. -/
def readDocument (path : String) : IO (Option (List UInt8)) := do
  match Path.toFile? path with
  | none => return none
  | some file =>
    try
      return some (← IO.FS.readBinFile file).toList
    catch _ =>
      return none

/-- The entries of the variables with some names. -/
def readVariables (names : List String) : IO (List String) :=
  names.filterMapM fun name => do
    return (← IO.getEnv name).map (Environment.entry name)

/-- Carries a request out and gives the exit status. -/
def serve (request : Request) : IO Nat := do
  let contents ← readDocument request.document
  let envp ← readVariables (Request.envVars contents)
  match request.perform contents envp with
  | .error obstacle =>
    IO.eprintln obstacle.message
    return Obstacle.status
  | .ok report =>
    let written := report.write request.format
    IO.print written.output
    IO.eprint written.errorOutput
    return written.status

end DeclaredOptions

open DeclaredOptions in
/-- The program: options, then `--`, then the command line to resolve. -/
def main (arguments : List String) : IO UInt32 := do
  match Request.parse arguments with
  | .ok request => return (← serve request).toUInt32
  | .error refusal =>
    let usage := "usage: --spec <path> [OPTION]... -- <argv>..."
    if refusal = .usage then IO.eprintln usage else IO.println usage
    return refusal.status.toUInt32
