/-! Path texts: names with slashes between them, in which an empty name or `.` stays in place and
`..` goes up. -/

namespace RouteDoc.FilePath

/-- The names between the slashes of a path. A path that starts with a slash has an empty first
name. -/
def segments (path : String) : List String :=
  (path.toList.splitOn '/').map String.ofList

/-- The greatest number of bytes of a path. -/
def maxSize : Nat := 4095

/-- The greatest number of bytes of a name. -/
def maxNameSize : Nat := 255

/-- Whether nothing can have the name, because it has too many bytes. -/
def isTooLong (name : String) : Bool :=
  maxNameSize < name.utf8ByteSize

/-- Whether the name stays in place. -/
def isStay (name : String) : Bool :=
  name == "" || name == "."

/-- The path of an entry of a directory. -/
def join (directory name : String) : String :=
  if directory.isEmpty || directory.toList.getLast? == some '/' then directory ++ name
  else directory ++ "/" ++ name

/-- The names without those at the end that stay in place. -/
def dropStays (names : List String) : List String :=
  (names.reverse.dropWhile isStay).reverse

/-- The names without the empty ones at the end. -/
def dropEmpty (names : List String) : List String :=
  (names.reverse.dropWhile (·.isEmpty)).reverse

/-- The path of the directory that a path lies in. The empty path and the root have none, and the
path of a single name lies in the empty path. -/
def parent? (path : String) : Option String :=
  match segments path with
  | [] => none
  | first :: rest =>
    let rest := dropStays rest
    if rest.isEmpty then (if first.isEmpty then none else some "")
    else
      let rest := dropStays rest.dropLast
      if first.isEmpty && rest.isEmpty then some "/" else some ("/".intercalate (first :: rest))

/-- The text after the last dot of a file name, unless that dot is its first character. -/
def extension? (name : String) : Option String :=
  let reversed := name.toList.reverse
  match reversed.dropWhile (· != '.') with
  | _ :: _ :: _ => some (String.ofList (reversed.takeWhile (· != '.')).reverse)
  | _ => none

end RouteDoc.FilePath
