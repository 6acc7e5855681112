import AccessControl.Text.Bytes

/-!
# Files of a directory

What reading a path gives in a directory that holds nothing but some files. The path is
walked name by name, and the first name that leads nowhere decides the error.
-/

namespace AccessControl

inductive FileError
  | notFound
  | notDirectory
  | isDirectory
  | nameTooLong
  | nulInName
  | permissionDenied
  | other (text : String)
deriving DecidableEq

def FileError.message : FileError → String
  | .notFound => "No such file or directory (os error 2)"
  | .notDirectory => "Not a directory (os error 20)"
  | .isDirectory => "Is a directory (os error 21)"
  | .nameTooLong => "File name too long (os error 36)"
  | .nulInName => "file name contained an unexpected NUL byte"
  | .permissionDenied => "Permission denied (os error 13)"
  | .other text => text

structure Directory where
  files : List (String × List UInt8) := []

namespace Directory

/-- The longest name, and the longest path, in bytes. -/
def maxName : Nat := 255

def maxPath : Nat := 4095

/-- Where a path has led so far. Of other directories nothing is known. -/
inductive Place
  | here
  | elsewhere
  | file (bytes : List UInt8)

def enter (dir : Directory) (name : String) : Place → Except FileError Place
  | .file _ => .error .notDirectory
  | .here =>
    if name = "" ∨ name = "." then .ok .here
    else if name = ".." then .ok .elsewhere
    else if maxName < (Text.utf8 name).length then .error .nameTooLong
    else
      match dir.files.lookup name with
      | some bytes => .ok (.file bytes)
      | none => .error .notFound
  | .elsewhere =>
    if name = "" ∨ name = "." ∨ name = ".." then .ok .elsewhere
    else if maxName < (Text.utf8 name).length then .error .nameTooLong
    else .error .notFound

/-- The names in a path, between its slashes. -/
def names (path : String) : List String := (path.toList.splitOn '/').map String.ofList

def read (dir : Directory) (path : String) : Except FileError (List UInt8) := do
  if '\x00' ∈ path.toList then .error .nulInName
  else if maxPath < (Text.utf8 path).length then .error .nameTooLong
  else
    let start := if path.toList.head? = some '/' then Place.elsewhere else Place.here
    match ← (names path).foldlM (fun place name => dir.enter name place) start with
    | .file bytes => .ok bytes
    | .here | .elsewhere => .error .isDirectory

end Directory
end AccessControl
