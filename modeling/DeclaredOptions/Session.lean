import DeclaredOptions.Help
import DeclaredOptions.Staging

/-!
# Sessions

A session is a key set together with the key that receives help texts and failures. A call resolves
all bindings that the key set declares. Unless every binding resolves, the key set stays as it was.
-/

namespace DeclaredOptions

/-- How a call reads its inputs. -/
structure Settings where
  /-- Whether the first positional argument ends the options. -/
  posixly : Bool := false
  /-- What divides the elements of a list in a variable. -/
  separator : Char := ':'
  deriving DecidableEq, Repr

/-- The settings that a key asks for in its metadata. -/
def Settings.ofKey (key : Key) : Settings where
  posixly := key.metadata.get? "posixly" = some "1"

/-- How a call ends that does not fail. -/
inductive Outcome
  | resolved
  | helpRequested
  deriving DecidableEq, Repr

/-- A key set and the key that receives help texts and failures. -/
structure Session where
  keys : KeySet
  errorKey : Key
  deriving DecidableEq

namespace Session

/-- The status code of a call. -/
def status : Except Failure Outcome → Int
  | .ok .resolved => 0
  | .ok .helpRequested => 1
  | .error _ => -1

/-- The effect of a call that does not fail. -/
def attempt (session : Session) (argv envp : List String) (settings : Settings) :
    Except Failure (Outcome × Session) := do
  let spec ← Specification.compile session.keys
  let line ← CommandLine.parse spec.options settings.posixly argv
  if line.HelpRequested then
    return (.helpRequested,
      { session with errorKey := Help.attach spec (argv.headD "") session.errorKey })
  else
    let inputs : Inputs := ⟨line, Environment.ofEntries envp, settings.separator⟩
    let staged ← Staging.resolveAll session.keys inputs ∅ spec.bindings
    return (.resolved, { session with keys := session.keys.insertAll staged.toList })

/-- Resolves all bindings from arguments and environment entries. -/
def resolveWith (session : Session) (argv envp : List String) (settings : Settings) :
    Except Failure Outcome × Session :=
  match session.attempt argv envp settings with
  | .ok (outcome, session) => (.ok outcome, session)
  | .error failure =>
    (.error failure, { session with errorKey := failure.attach session.errorKey })

/-- Resolves all bindings with the settings that the error key asks for. -/
def resolve (session : Session) (argv envp : List String) : Except Failure Outcome × Session :=
  session.resolveWith argv envp (.ofKey session.errorKey)

end Session

end DeclaredOptions
