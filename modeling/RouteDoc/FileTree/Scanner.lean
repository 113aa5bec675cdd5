import RouteDoc.FileTree.Access

/-! The scan for source files: all files with one of the wanted extensions at or under a root, save
in directories that are hidden or hold dependencies. Files come in the order of a walk that visits
the entries of each directory by name. A directory that cannot be listed is passed over with a
warning. -/

namespace RouteDoc

structure Scanner where
  root : String
  /-- The wanted extensions, in lower case and without a dot. -/
  extensions : List String := ["js", "go"]
  deriving Repr

namespace Scanner

/-- An extension without dots before it and in lower case. -/
def normalize (ext : String) : String :=
  String.ofList ((ext.toList.dropWhile (· == '.')).map Char.toLower)

theorem toList_normalize (dots : Nat) {ext : List Char} (h : ext.head? ≠ some '.') :
    (normalize (String.ofList (List.replicate dots '.' ++ ext))).toList =
      ext.map Char.toLower := by
  have hdots : ∀ c ∈ List.replicate dots '.', (c == '.') = true := by simp
  have hext : ext.dropWhile (· == '.') = ext := by
    cases ext with
    | nil => rfl
    | cons c cs => exact List.dropWhile_cons_of_neg (by simpa using h)
  rw [normalize, String.toList_ofList, String.toList_ofList,
    List.dropWhile_append_of_pos hdots, hext]

/-- The scanner with other extensions, unless none of them says anything. -/
def withExtensions (s : Scanner) (extensions : List String) : Scanner :=
  let wanted := (extensions.map normalize).filter (!·.isEmpty)
  if wanted.isEmpty then s else { s with extensions := wanted }

/-- Whether the scan keeps out of directories with the name. -/
def isSkipped (name : String) : Bool :=
  name.toList.head? == some '.' || name == "node_modules" || name == "vendor"

/-- Whether a file with the name has a wanted extension, in any case. -/
def wants (s : Scanner) (name : String) : Bool :=
  match FilePath.extension? name with
  | some ext => s.extensions.any fun e => e.toList.map Char.toLower == ext.toList.map Char.toLower
  | none => false

/-- Whether the scan selects a file at the place, with its root at `root`: the names between the two
are not skipped, and the last name has a wanted extension. -/
def selects (s : Scanner) (root place : Place) : Bool :=
  root.isPrefixOf place && (place.drop root.length).dropLast.all (!isSkipped ·) &&
    s.wants (place.getLastD "")

/-- The path of a place at or under the root. -/
def pathOf (s : Scanner) (root place : Place) : String :=
  (place.drop root.length).foldl FilePath.join s.root

/-- Whether a name comes before another, by the code points of their characters. -/
def namePrecedes (name other : String) : Bool :=
  name.toList.lex other.toList fun c d => c.toNat < d.toNat

/-- Places in the order of their names. A walk that visits a directory before its entries, and these
by name, meets them in this order. -/
def inWalkOrder (places : List Place) : List Place :=
  places.mergeSort fun p q => !q.lex p namePrecedes

/-- The places of the selected files, in the order of a walk. -/
def selected (s : Scanner) (t : FileTree) (root : Place) : List Place :=
  inWalkOrder (t.files.filter (s.selects root))

/-- The paths of the selected files. -/
def scan (s : Scanner) (t : FileTree) : Except FileError (List String) := do
  let root ← t.resolve s.root
  return (s.selected t root).map (s.pathOf root)

/-- Whether the scan comes to a directory at the place, with its root at `root`: no name between the
two is skipped, nor is the last. -/
def comesTo (root place : Place) : Bool :=
  root.isPrefixOf place && (place.drop root.length).all (!isSkipped ·)

/-- The places of the directories that the scan cannot list, in the order of a walk. -/
def refused (t : FileTree) (root : Place) : List Place :=
  inWalkOrder (t.closed.filter (comesTo root))

/-- The warning about a path that leads to a directory that the scan cannot list. -/
def warning (path : String) : String :=
  "Failed to access path: IO error for operation on " ++ path ++ ": " ++
    (FileTree.refusal path).message

/-- The warnings of the scan. -/
def warnings (s : Scanner) (t : FileTree) : List String :=
  match t.resolve s.root with
  | .ok root => (refused t root).map fun place => warning (s.pathOf root place)
  | .error _ => []

end Scanner

end RouteDoc
