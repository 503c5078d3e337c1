/-!
# Folders

A `Folder` keeps files under paths. `read` and `write` walk a path as a file system does: a file is
no folder to go on from, and what is outside of the folder is not there.
-/

namespace MidiPatch

structure Folder where
  /-- The names along the way to a file, and what it holds. -/
  files : List (List String × List UInt8) := []
  deriving DecidableEq, Repr

namespace Folder

inductive Error
  | missing
  | denied
  | notFolder
  | isFolder
  | nameTooLong
  | notText
  deriving DecidableEq, Repr

def Error.message : Error → String
  | .missing => "No such file or directory (os error 2)"
  | .denied => "Permission denied (os error 13)"
  | .notFolder => "Not a directory (os error 20)"
  | .isFolder => "Is a directory (os error 21)"
  | .nameTooLong => "File name too long (os error 36)"
  | .notText => "stream did not contain valid UTF-8"

inductive Place
  | folder (names : List String)
  | file (names : List String)
  /-- To a name that is not in use, in a folder that is there. -/
  | free (names : List String)
  | outside
  deriving DecidableEq

def hasFile (f : Folder) (names : List String) : Bool := f.files.any (·.1 = names)

def hasFolder (f : Folder) (names : List String) : Bool :=
  f.files.any fun (path, _) => names.isPrefixOf path && names.length < path.length

def step (f : Folder) (place : Place) (name : String) : Except Error Place :=
  match place with
  | .outside => .error .missing
  | .file _ => .error .notFolder
  | .free _ => .error .missing
  | .folder names =>
    if name.isEmpty || name = "." then .ok place
    else if name = ".." then .ok (if names.isEmpty then .outside else .folder names.dropLast)
    else if name.utf8ByteSize > 255 then .error .nameTooLong
    else
      let names := names ++ [name]
      if f.hasFile names then .ok (.file names)
      else if f.hasFolder names then .ok (.folder names)
      else .ok (.free names)

/-- Where a path leads. An absolute one leads outside. -/
def find (f : Folder) (path : String) : Except Error Place :=
  if path.isEmpty then .error .missing
  else if path.startsWith "/" then .ok .outside
  else (path.splitOn "/").foldlM f.step (.folder [])

def read (f : Folder) (path : String) : Except Error (List UInt8) := do
  match ← f.find path with
  | .file names =>
    match f.files.lookup names with
    | some bytes => .ok bytes
    | none => .error .missing
  | .folder _ => .error .isFolder
  | _ => .error .missing

def textOf (bytes : List UInt8) : Except Error String :=
  match String.fromUTF8? ⟨bytes.toArray⟩ with
  | some text => .ok text
  | none => .error .notText

def readText (f : Folder) (path : String) : Except Error String := do textOf (← f.read path)

def put (f : Folder) (names : List String) (bytes : List UInt8) : Folder :=
  { f with files := (names, bytes) :: f.files.filter (·.1 ≠ names) }

def write (f : Folder) (path : String) (bytes : List UInt8) : Except Error Folder := do
  match ← f.find path with
  | .file names => .ok (f.put names bytes)
  | .free names => .ok (f.put names bytes)
  | .folder _ => .error .isFolder
  | .outside => .error .missing

def writeText (f : Folder) (path text : String) : Except Error Folder :=
  f.write path text.toUTF8.toList

end Folder

end MidiPatch
