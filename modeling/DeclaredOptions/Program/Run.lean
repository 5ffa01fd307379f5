import DeclaredOptions.Document
import DeclaredOptions.Program.Report
import DeclaredOptions.Text.Utf8

/-!
# Carrying out requests

A request is carried out on the bytes of its document and on the entries of the environment. The
document is read first, then the name of the error key.
-/

namespace DeclaredOptions

/-- Why a request cannot be carried out. -/
inductive Obstacle
  /-- There is no such document, or it is not text. -/
  | unreadableDocument
  /-- The document holds no list of keys. -/
  | invalidDocument
  | invalidErrorKey (fault : NameFault)
  deriving DecidableEq, Repr

namespace Obstacle

/-- The sentence that reports an obstacle. -/
def message : Obstacle → String
  | .unreadableDocument => "the specification document cannot be read"
  | .invalidDocument => "the specification document is not a list of keys"
  | .invalidErrorKey fault => "invalid error key: " ++ fault.message

/-- The exit status of the program. -/
def status : Nat := 3

end Obstacle

namespace Request

/-- The key set of a document's bytes. -/
def load (contents : Option (List UInt8)) : Except Obstacle KeySet :=
  match contents.bind Utf8.decode? with
  | none => .error .unreadableDocument
  | some text => match Document.read? text with
    | none => .error .invalidDocument
    | some keys => .ok keys

/-- Files a text if there is one. -/
def setIfGiven (key : Key) (name : String) : Option String → Key
  | some value => key.setMetadata name value
  | none => key

/-- The key that receives failures, with what the request tells it about settings and help. -/
def toErrorKey (request : Request) : Except NameFault Key := do
  let name ← KeyName.parse request.errorKey
  let key : Key := { name }
  let key := setIfGiven key "posixly" (if request.posixly then some "1" else none)
  let key := setIfGiven key Help.ownUsageEntry request.usage
  return setIfGiven key Help.introductionEntry request.introduction

/-- The settings of the call. -/
def settings (request : Request) (errorKey : Key) : Settings :=
  let asked := Settings.ofKey errorKey
  { asked with separator := request.separator.getD asked.separator }

/-- Carries out a request. -/
def perform (request : Request) (contents : Option (List UInt8)) (envp : List String) :
    Except Obstacle Report := do
  let keys ← load contents
  let errorKey ← request.toErrorKey.mapError .invalidErrorKey
  let session : Session := { keys, errorKey }
  return .ofCall (session.resolveWith request.argv envp (request.settings errorKey))

/-- The variables that a document binds. No others can matter to a request. -/
def envVars (contents : Option (List UInt8)) : List String :=
  match load contents with
  | .error _ => []
  | .ok keys => match Specification.compile keys with
    | .error _ => []
    | .ok spec => spec.bindings.flatMap Binding.envVars

end Request

end DeclaredOptions
