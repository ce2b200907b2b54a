import Calculator.Command.Reading

/-!
# A working directory

A directory of files without subdirectories, and the paths that lead into it.  A path is followed
component by component; a file has nothing below it, and nothing is known outside the directory
but that it is there.
-/

namespace Calculator

/-- Files by name. -/
structure Directory where
  /-- Names and contents. -/
  files : List (String × ByteArray)

/-- Where a path leads. -/
inductive Location
  /-- The working directory. -/
  | here
  /-- A directory above it. -/
  | outside
  /-- A file with its content. -/
  | file (content : ByteArray)

namespace Directory

/-- Follows one component of a path. -/
def step (directory : Directory) (location : Location) (component : String) :
    Except ReadError Location :=
  match location with
  | .file _ => .error .notDirectory
  | .here =>
    if component = "" ∨ component = "." then .ok .here
    else if component = ".." then .ok .outside
    else
      match directory.files.lookup component with
      | some content => .ok (.file content)
      | none => .error .missing
  | .outside =>
    if component = "" ∨ component = "." ∨ component = ".." then .ok .outside
    else .error .missing

/-- The components of a path, split at slashes. -/
def components (path : String) : List String :=
  (path.toList.splitOn '/').map String.ofList

/-- Where a path starts: outside if it begins with a slash. -/
def origin (path : String) : Location :=
  if path.toList.head? = some '/' then .outside else .here

/-- The content of the file at a path. -/
def read (directory : Directory) (path : String) : Except ReadError ByteArray := do
  match ← (components path).foldlM directory.step (origin path) with
  | .file content => return content
  | .here | .outside => throw .directory

/-- What a run in a directory can read, with the bytes of the standard input. -/
def surroundings (directory : Directory) (input : ByteArray) : Surroundings :=
  ⟨directory.read, .ok input⟩

@[simp]
theorem file_surroundings (directory : Directory) (input : ByteArray) :
    (directory.surroundings input).file = directory.read := rfl

end Directory
end Calculator
