import RouteDoc.FileTree
import RouteDoc.FileTree.Path

/-! Access to a file tree by path texts: reading a file, making directories, and putting bytes into
a file. A path is followed name by name from the root or from the home of the tree, and the first
name that cannot be followed decides the error. -/

namespace RouteDoc

/-- Why a path cannot be read or written. -/
inductive FileError where
  | notFound
  | exists
  | notDirectory
  | isDirectory
  | nameTooLong
  | denied
  | holdsNul
  | notText
  deriving DecidableEq, Repr

def FileError.message : FileError → String
  | .notFound => "No such file or directory (os error 2)"
  | .exists => "File exists (os error 17)"
  | .notDirectory => "Not a directory (os error 20)"
  | .isDirectory => "Is a directory (os error 21)"
  | .nameTooLong => "File name too long (os error 36)"
  | .denied => "Permission denied (os error 13)"
  | .holdsNul => "file name contained an unexpected NUL byte"
  | .notText => "stream did not contain valid UTF-8"

namespace FileTree

/-- Refuses a text that can be no path, before any name of it is followed. -/
def checkPath (path : String) : Except FileError Unit :=
  if path.toList.contains '\x00' then .error .holdsNul
  else if path.isEmpty then .error .notFound
  else if FilePath.maxSize < path.utf8ByteSize then .error .nameTooLong
  else .ok ()

/-- The error with which a path that leads to a closed directory is refused. -/
def refusal (path : String) : FileError :=
  match checkPath path with
  | .ok () => .denied
  | .error e => e

/-- Checks that names can be followed from a place. -/
def enter (t : FileTree) (place : Place) : Except FileError Unit :=
  match t.find? place with
  | some .directory => .ok ()
  | some .closed => .error .denied
  | some (.file _) => .error .notDirectory
  | none => .error .notFound

/-- The place to which one name of a path leads from a directory. -/
def step (t : FileTree) (place : Place) (name : String) : Except FileError Place := do
  t.enter place
  if FilePath.isStay name then return place
  else if name == ".." then return place.dropLast
  else if FilePath.isTooLong name then throw .nameTooLong
  else if (t.find? (place ++ [name])).isSome then return place ++ [name]
  else throw .notFound

/-- The directory from which a path leads. -/
def start (t : FileTree) (path : String) : Place :=
  if path.toList.head? == some '/' then [] else t.home

/-- The place to which a path leads. -/
def resolve (t : FileTree) (path : String) : Except FileError Place := do
  checkPath path
  (FilePath.segments path).foldlM t.step (t.start path)

/-- The text of the file to which a path leads. -/
def read (t : FileTree) (path : String) : Except FileError String := do
  let place ← t.resolve path
  match t.find? place with
  | some (.file bytes) =>
    match String.fromUTF8? bytes with
    | some text => return text
    | none => throw .notText
  | some .directory => throw .isDirectory
  | some .closed => throw .denied
  | none => throw .notFound

/-- Follows names from a directory and makes each directory that is missing. A file in the way is no
directory to go through or, if it stands at the last name or after a directory that was `made`, has
the name of a directory that is to be made. -/
def makeAlong (t : FileTree) (made : Bool) (place : Place) :
    List String → FileTree × Except FileError Unit
  | [] => (t, .ok ())
  | name :: names =>
    match t.step place name with
    | .ok next =>
      if t.isDirectory next then t.makeAlong made next names
      else (t, .error (if made || names.isEmpty then .exists else .notDirectory))
    | .error .notFound =>
      (t.put (place ++ [name]) .directory).makeAlong true (place ++ [name]) names
    | .error e => (t, .error e)

/-- Makes a directory and those above it, where they are missing. -/
def makeDirectories (t : FileTree) (path : String) : FileTree × Except FileError Unit :=
  match checkPath path with
  | .ok () =>
    t.makeAlong false (t.start path) ((FilePath.segments path).filter (!FilePath.isStay ·))
  | .error e => (t, .error e)

/-- The place of the file that a path names, in a directory that is there. A path that ends with a
slash or a name of dots can only name a directory. -/
def fileTarget (t : FileTree) (path : String) : Except FileError Place := do
  checkPath path
  let names := FilePath.dropEmpty (FilePath.segments path)
  let name := names.getLastD ""
  let directory ← names.dropLast.foldlM t.step (t.start path)
  t.enter directory
  if FilePath.isStay name || name == ".." || path.toList.getLast? == some '/' then
    throw .isDirectory
  else if FilePath.isTooLong name then throw .nameTooLong
  else if t.isDirectory (directory ++ [name]) then throw .isDirectory
  else return directory ++ [name]

/-- Puts bytes into the file that a path names, in a directory that is there. -/
def putBytes (t : FileTree) (path : String) (bytes : ByteArray) : Except FileError FileTree := do
  let place ← t.fileTarget path
  return t.put place (.file bytes)

end FileTree

end RouteDoc
