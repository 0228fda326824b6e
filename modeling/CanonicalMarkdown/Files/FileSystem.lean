import CanonicalMarkdown.Files.Path
import CanonicalMarkdown.Text.Bytes

namespace CanonicalMarkdown.Files

inductive Entry where
  | directory
  | file (contents : Bytes)
  deriving DecidableEq, Repr

inductive FileError where
  | notFound
  | notDirectory
  | isDirectory
  | nameTooLong
  | notText
  | permissionDenied
  | readOnly
  | noSpace
  deriving DecidableEq, Repr

def FileError.message : FileError → String
  | .notFound => "No such file or directory (os error 2)"
  | .notDirectory => "Not a directory (os error 20)"
  | .isDirectory => "Is a directory (os error 21)"
  | .nameTooLong => "File name too long (os error 36)"
  | .notText => "stream did not contain valid UTF-8"
  | .permissionDenied => "Permission denied (os error 13)"
  | .readOnly => "Read-only file system (os error 30)"
  | .noSpace => "No space left on device (os error 28)"

/-! What there is at each location. -/

structure FileSystem where
  entry? : Location → Option Entry

def readText (contents : Bytes) : Except FileError String :=
  match contents.toText? with
  | some text => .ok text
  | none => .error .notText

namespace FileSystem

/-- The number of bytes that a name may have. -/
def longestName : Nat := 255

def longestPath : Nat := 4095

/-- One step along a path. Only from a directory is there a way on. -/
def enter (files : FileSystem) (location : Location) (piece : List Char) :
    Except FileError Location :=
  match files.entry? location with
  | none => .error .notFound
  | some (.file _) => .error .notDirectory
  | some .directory =>
      match piece with
      | [] | ['.'] => .ok location
      | ['.', '.'] => .ok location.dropLast
      | name =>
          let child := location ++ [String.ofList name]
          if longestName < (String.ofList name).utf8ByteSize then .error .nameTooLong
          else if (files.entry? child).isSome then .ok child
          else .error .notFound

def enterAll (files : FileSystem) : Location → List (List Char) → Except FileError Location
  | location, [] => .ok location
  | location, piece :: rest => do files.enterAll (← files.enter location piece) rest

/-- Where a path leads from a directory. -/
def locate (files : FileSystem) (directory : Location) (path : Path) :
    Except FileError Location :=
  if path.isEmpty then .error .notFound
  else if longestPath < path.text.utf8ByteSize then .error .nameTooLong
  else files.enterAll (if path.isAbsolute then [] else directory) path.pieces

def has (files : FileSystem) (directory : Location) (path : Path) : Bool :=
  match files.locate directory path with
  | .ok _ => true
  | .error _ => false

def contents (files : FileSystem) (location : Location) : Except FileError Bytes :=
  match files.entry? location with
  | none => .error .notFound
  | some .directory => .error .isDirectory
  | some (.file contents) => .ok contents

def read (files : FileSystem) (directory : Location) (path : Path) : Except FileError String := do
  readText (← files.contents (← files.locate directory path))

/-- Puts a file in place of whatever was at the location. -/
def put (files : FileSystem) (location : Location) (contents : Bytes) : FileSystem :=
  ⟨fun other => if other = location then some (.file contents) else files.entry? other⟩

/-- Replaces a file as a whole, unless something stands in the way of that. -/
def write (files : FileSystem) (obstacle? : Location → Option FileError) (directory : Location)
    (path : Path) (contents : Bytes) : Except FileError FileSystem := do
  let location ← files.locate directory path
  let _ ← files.contents location
  match obstacle? location with
  | some cause => throw cause
  | none => return files.put location contents

end FileSystem

end CanonicalMarkdown.Files
