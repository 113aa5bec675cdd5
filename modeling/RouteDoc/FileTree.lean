import RouteDoc.Table

/-! File trees: the files and directories that a run finds and leaves. A place in a tree is the list
of names that leads to it from the root, and what stands at each place is in one table. -/

namespace RouteDoc

/-- The names that lead to a file or directory from the root. -/
abbrev Place := List String

/-- The key of a place in the table of a tree. The number of names comes first, so that places at
different depths are told apart without a look at their names. -/
def Place.key (place : Place) : Nat × Place := (place.length, place)

theorem Place.key_inj {p q : Place} : Place.key p = Place.key q ↔ p = q := by
  constructor
  · intro h
    exact congrArg Prod.snd h
  · rintro rfl
    rfl

inductive Entry where
  | file (bytes : ByteArray)
  | directory
  /-- A directory that can be neither listed nor entered. -/
  | closed

namespace Entry

def isFile : Entry → Bool
  | file _ => true
  | directory | closed => false

def isClosed : Entry → Bool
  | closed => true
  | file _ | directory => false

end Entry

structure FileTree where
  /-- What stands at each place but the root, which is always a directory. -/
  entries : Table (Nat × Place) Entry := ∅
  /-- The directory from which relative paths lead. -/
  home : Place := []

namespace FileTree

def find? (t : FileTree) (place : Place) : Option Entry :=
  if place.isEmpty then some .directory else t.entries.find? (Place.key place)

/-- Whether a directory stands at the place, be it open or closed. -/
def isDirectory (t : FileTree) (place : Place) : Bool :=
  match t.find? place with
  | some .directory | some .closed => true
  | some (.file _) | none => false

/-- The places of a tree but its root, in the order in which they were put in. -/
def places (t : FileTree) : List Place := t.entries.keys.map Prod.snd

/-- The places of the entries with a property. -/
def placesWhere (t : FileTree) (p : Entry → Bool) : List Place :=
  t.entries.entries.filterMap fun e => if p e.2 then some e.1.2 else none

/-- The places of the files of a tree. -/
def files (t : FileTree) : List Place := t.placesWhere Entry.isFile

/-- The places of the closed directories of a tree. -/
def closed (t : FileTree) : List Place := t.placesWhere Entry.isClosed

/-- The tree with an entry put at a place. -/
def put (t : FileTree) (place : Place) (entry : Entry) : FileTree :=
  { t with entries := t.entries.insert (Place.key place) entry }

@[simp] theorem find?_root (t : FileTree) : t.find? [] = some .directory := rfl

/-- What is put at a place stands there, and nothing else changes. -/
theorem find?_put (t : FileTree) {place : Place} (h : place ≠ []) (e : Entry) (q : Place) :
    (t.put place e).find? q = if place = q then some e else t.find? q := by
  cases q with
  | nil => simp [h]
  | cons name names => simp [find?, put, Table.find?_insert, Place.key_inj]

end FileTree

end RouteDoc
