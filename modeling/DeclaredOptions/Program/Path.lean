import DeclaredOptions.Text.Split

/-!
# Paths of documents

A path names a file in a directory. Empty segments and the segment `.` mean nothing; the segment
`..` leads up, and names no file.
-/

namespace DeclaredOptions

namespace Path

/-- The segments of a path that lead somewhere. -/
def segments (path : String) : List String :=
  (Text.split '/' path).filter fun segment => segment ≠ "" ∧ segment ≠ "."

/-- Whether a path starts at the root. -/
def isAbsolute (path : String) : Bool := path.toList.head? = some '/'

/-- The file that a path names. -/
def fileName? (path : String) : Option String :=
  (segments path).getLast?.filter (· ≠ "..")

/-- The path of the file, without a slash or `.` after its name. -/
def toFile? (path : String) : Option String :=
  (fileName? path).map fun _ =>
    (if isAbsolute path then "/" else "") ++ Text.join '/' (segments path)

end Path

/-- A directory with files. Above it there are only the directories that lead to it. -/
structure Directory where
  /-- The segments from the root to the directory. -/
  location : List String
  files : List (String × List UInt8)

namespace Directory

/-- Where one segment leads from a directory. -/
def enter? (directory : Directory) (position : List String) (segment : String) :
    Option (List String) :=
  if segment = ".." then some position.dropLast
  else if (position ++ [segment]) <+: directory.location then some (position ++ [segment])
  else none

/-- The bytes of the file that a path names, seen from a current directory. -/
def read? (directory : Directory) (current : List String) (path : String) :
    Option (List UInt8) := do
  let name ← Path.fileName? path
  let start := if Path.isAbsolute path then [] else current
  let position ← (Path.segments path).dropLast.foldlM directory.enter? start
  if position = directory.location then directory.files.lookup name else none

end Directory

end DeclaredOptions
