import Mathlib.Data.List.Sort
import Mathlib.Data.List.TakeWhile
import RouteDoc.Proofs.ByteOrder
import RouteDoc.Proofs.Trees

/-! What a scan finds, and in which order. A walk visits the entries of each directory in the byte
order of their names, each with all that is below it before the next, and keeps out of hidden
directories and of those that hold dependencies. A scan finds the files with a wanted extension that
a walk from its root meets, in the order in which the walk meets them. So it does not matter in
which order a directory lists its entries. The scan warns of each closed directory to which it comes,
and finds the other files as if that directory were empty. -/

namespace RouteDoc

/-- A sort of different elements by their order leaves each before those that are greater. -/
theorem pairwise_mergeSort_lt {α : Type} [LinearOrder α] {xs : List α} {precedes : α → α → Bool}
    (h : ∀ x y, precedes x y = true ↔ x ≤ y) (hxs : xs.Nodup) :
    (xs.mergeSort precedes).Pairwise (· < ·) := by
  have hle : (xs.mergeSort precedes).Pairwise fun x y => precedes x y = true :=
    List.pairwise_mergeSort (fun x y z => by simpa only [h] using le_trans)
      (fun x y => by simpa only [Bool.or_eq_true, h] using le_total x y) xs
  have hne : (xs.mergeSort precedes).Nodup := (List.mergeSort_perm _ _).nodup_iff.mpr hxs
  exact (hle.and hne).imp fun hxy => lt_of_le_of_ne ((h _ _).mp hxy.1) hxy.2

namespace FileTree

variable {t t' : FileTree} {place : Place} {name : String}

/-! ### Walks -/

/-- The names of what stands in the directory at a place, in the order of the table. -/
def listing (t : FileTree) (place : Place) : List String :=
  t.places.filterMap fun q => if q.dropLast = place then q.getLast? else none

/-- The names in a directory, in the order of their bytes. -/
def sortedListing (t : FileTree) (place : Place) : List String :=
  (t.listing place).mergeSort fun name other => Text.bytes name ≤ Text.bytes other

/-- The greatest number of names of a place. -/
def depth (t : FileTree) : Nat := (t.places.map List.length).max?.getD 0

theorem listed_eq_some_iff {q : Place} :
    (if q.dropLast = place then q.getLast? else none) = some name ↔ q = place ++ [name] := by
  rw [Option.ite_none_right_eq_some]
  constructor
  · rintro ⟨rfl, hname⟩
    rw [List.dropLast_append_getLast? name hname]
  · rintro rfl
    exact ⟨by simp, by simp⟩

theorem mem_sortedListing_iff : name ∈ t.sortedListing place ↔ place ++ [name] ∈ t.places := by
  simp only [sortedListing, List.mem_mergeSort, listing, List.mem_filterMap, listed_eq_some_iff,
    exists_eq_right]

theorem length_le_depth (h : place ∈ t.places) : place.length ≤ t.depth :=
  List.le_max?_getD_of_mem (List.mem_map_of_mem h)

/-- The files that a walk from a place meets. It visits a directory's entries in the order of their
names, each with all that is below it before the next, keeps out of some directories, and goes on
past those that are closed. -/
def walk (t : FileTree) (place : Place) : List Place :=
  match t.find? place with
  | none | some .closed => []
  | some (.file _) => [place]
  | some .directory => (t.sortedListing place).attach.flatMap fun name =>
      if t.isDirectory (place ++ [name.val]) && Scanner.isSkipped name.val then []
      else t.walk (place ++ [name.val])
termination_by t.depth - place.length
decreasing_by
  have h := length_le_depth (mem_sortedListing_iff.mp name.property)
  rw [List.length_append, List.length_singleton] at h ⊢
  omega

theorem walk_of_none (h : t.find? place = none) : t.walk place = [] := by
  rw [walk, h]

theorem walk_of_closed (h : t.find? place = some .closed) : t.walk place = [] := by
  rw [walk, h]

theorem walk_of_hasFile (h : t.HasFile place) : t.walk place = [place] := by
  obtain ⟨bytes, h⟩ := h
  rw [walk, h]

theorem walk_of_directory (h : t.find? place = some .directory) :
    t.walk place = (t.sortedListing place).flatMap fun name =>
      if t.isDirectory (place ++ [name]) && Scanner.isSkipped name then []
      else t.walk (place ++ [name]) := by
  rw [walk, h]
  simp only [List.flatMap_subtype, List.unattach_attach]

theorem mem_walk_iff_exists {q : Place} (h : t.find? place = some .directory) : q ∈ t.walk place ↔
    ∃ name, place ++ [name] ∈ t.places ∧
      (t.isDirectory (place ++ [name]) = true → Scanner.isSkipped name = false) ∧
      q ∈ t.walk (place ++ [name]) := by
  rw [walk_of_directory h, List.mem_flatMap]
  simp only [mem_sortedListing_iff]
  refine exists_congr fun name => and_congr_right fun _ => ?_
  cases t.isDirectory (place ++ [name]) <;> cases Scanner.isSkipped name <;> simp

theorem forall_mem_dropLast_cons {below : List String} {P : String → Prop} :
    (∀ n ∈ (name :: below).dropLast, P n) ↔ (below ≠ [] → P name) ∧ ∀ n ∈ below.dropLast, P n := by
  cases below <;> simp

/-- A walk meets the files at or under a place that are in none of the directories that it keeps
out of. -/
theorem mem_walk_iff (ht : t.IsTree) {q : Place} : q ∈ t.walk place ↔ t.HasFile q ∧
    ∃ below, q = place ++ below ∧ ∀ name ∈ below.dropLast, Scanner.isSkipped name = false := by
  induction place using walk.induct t with
  | case1 place hnone =>
    rw [walk_of_none hnone]
    refine iff_of_false List.not_mem_nil ?_
    rintro ⟨hq, below, rfl, -⟩
    exact ht.not_hasFile_append (by simp [HasFile, hnone]) (by simp [hnone]) hq
  | case2 place hclosed =>
    rw [walk_of_closed hclosed]
    refine iff_of_false List.not_mem_nil ?_
    rintro ⟨hq, below, rfl, -⟩
    exact ht.not_hasFile_append (by simp [HasFile, hclosed]) (by simp [hclosed]) hq
  | case3 place bytes hfile =>
    rw [walk_of_hasFile ⟨bytes, hfile⟩, List.mem_singleton]
    constructor
    · rintro rfl
      exact ⟨⟨bytes, hfile⟩, [], by simp, by simp⟩
    · rintro ⟨hq, below, rfl, -⟩
      rw [ht.eq_nil_of_hasFile hq (by simp [hfile]), List.append_nil]
  | case4 place hdirectory ih =>
    have hih : ∀ name, place ++ [name] ∈ t.places →
        (q ∈ t.walk (place ++ [name]) ↔ t.HasFile q ∧ ∃ below, q = place ++ [name] ++ below ∧
          ∀ name ∈ below.dropLast, Scanner.isSkipped name = false) :=
      fun name hname => ih ⟨name, mem_sortedListing_iff.mpr hname⟩
    simp only [List.append_assoc, List.singleton_append] at hih
    rw [mem_walk_iff_exists hdirectory]
    constructor
    · rintro ⟨name, hname, hkept, hq⟩
      obtain ⟨hfile, below, rfl, hbelow⟩ := (hih name hname).mp hq
      refine ⟨hfile, name :: below, rfl, forall_mem_dropLast_cons.mpr ⟨fun hne => ?_, hbelow⟩⟩
      exact hkept ((ht.isDirectory_iff_of_hasFile hfile).mpr hne)
    · rintro ⟨hfile, below, rfl, hbelow⟩
      cases below with
      | nil => exact absurd hdirectory (by simpa using find?_ne_of_isDirectory hfile.not_directory)
      | cons name below =>
        obtain ⟨hkept, hrest⟩ := forall_mem_dropLast_cons.mp hbelow
        have hname := ht.mem_places_of_hasFile hfile
        refine ⟨name, hname, fun hentered => ?_, (hih name hname).mpr ⟨hfile, below, rfl, hrest⟩⟩
        exact hkept ((ht.isDirectory_iff_of_hasFile hfile).mp hentered)

theorem nodup_listing (ht : t.IsTree) (place : Place) : (t.listing place).Nodup := by
  refine List.Nodup.filterMap (fun p q name hp hq => ?_) ht.nodup_places
  exact (listed_eq_some_iff.mp hp).trans (listed_eq_some_iff.mp hq).symm

theorem sortedListing_pairwise (ht : t.IsTree) (place : Place) :
    (t.sortedListing place).Pairwise (· < ·) :=
  pairwise_mergeSort_lt (by simp [Text.bytes_le_iff]) (nodup_listing ht place)

theorem append_cons_lt {name other : String} (h : name < other) (place xs ys : Place) :
    place ++ name :: xs < place ++ other :: ys :=
  List.append_left_lt (List.cons_lt_cons_iff.mpr (.inl h))

theorem walk_pairwise (ht : t.IsTree) (place : Place) : (t.walk place).Pairwise (· < ·) := by
  induction place using walk.induct t with
  | case1 place hnone => simp [walk_of_none hnone]
  | case2 place hclosed => simp [walk_of_closed hclosed]
  | case3 place bytes hfile => simp [walk_of_hasFile ⟨bytes, hfile⟩]
  | case4 place hdirectory ih =>
    rw [walk_of_directory hdirectory, List.pairwise_flatMap]
    constructor
    · intro name hname
      split
      · exact .nil
      · exact ih ⟨name, hname⟩
    · refine (sortedListing_pairwise ht place).imp fun {name other} hlt p hp q hq => ?_
      split at hp
      · cases hp
      split at hq
      · cases hq
      obtain ⟨-, below, rfl, -⟩ := (mem_walk_iff ht).mp hp
      obtain ⟨-, below', rfl, -⟩ := (mem_walk_iff ht).mp hq
      simpa using append_cons_lt hlt place below below'

theorem walk_congr (ht : t.IsTree) (ht' : t'.IsTree) (hfind : t'.find? = t.find?) (place : Place) :
    t'.walk place = t.walk place := by
  refine (walk_pairwise ht' place).eq_of_mem_iff (walk_pairwise ht place) fun q => ?_
  rw [mem_walk_iff ht, mem_walk_iff ht', HasFile, HasFile, hfind]

theorem resolve_congr (hfind : t'.find? = t.find?) (hhome : t'.home = t.home) (path : String) :
    t'.resolve path = t.resolve path := by
  have hstep : t'.step = t.step := by
    funext place name
    rw [step, step, enter, enter, hfind]
  rw [resolve, resolve, start, start, hhome, hstep]

end FileTree

/-! ### The files that a scan selects -/

/-- The name ends with a dot and the extension, and this dot is its last and not its first
character. -/
def FilePath.HasExtension (name ext : String) : Prop :=
  '.' ∉ ext.toList ∧ ∃ stem : String, stem ≠ "" ∧ name = stem ++ "." ++ ext

theorem FilePath.extension?_eq_some_iff {name ext : String} :
    FilePath.extension? name = some ext ↔ FilePath.HasExtension name ext := by
  rw [extension?]
  constructor
  · intro h
    split at h
    case h_2 => cases h
    case h_1 c d ds hdots =>
      obtain rfl := Option.some.inj h
      obtain rfl : c = '.' := by
        have hhead := List.head?_dropWhile_not (· != '.') name.toList.reverse
        rw [hdots] at hhead
        simpa using hhead
      have hname := calc name.toList
        _ = (name.toList.reverse.takeWhile (· != '.') ++ '.' :: d :: ds).reverse := by
          rw [← hdots, List.takeWhile_append_dropWhile, List.reverse_reverse]
        _ = ds.reverse ++ [d] ++ '.' :: (name.toList.reverse.takeWhile (· != '.')).reverse := by
          simp
      refine ⟨fun hdot => ?_, String.ofList (ds.reverse ++ [d]), by simp, ?_⟩
      · rw [String.toList_ofList, List.mem_reverse] at hdot
        simpa using List.mem_takeWhile_imp hdot
      · rw [← String.toList_inj]
        simpa using hname
  · rintro ⟨hdot, stem, hne, rfl⟩
    have hname : (stem ++ "." ++ ext).toList.reverse =
        ext.toList.reverse ++ '.' :: stem.toList.reverse := by
      simp
    have hends : ∀ c ∈ ext.toList.reverse, (c != '.') = true := by
      intro c hc
      rw [bne_iff_ne]
      rintro rfl
      exact hdot (List.mem_reverse.mp hc)
    have hdots : ∀ c, ('.' :: stem.toList.reverse).head? = some c → (c != '.') = false := by simp
    obtain ⟨htake, hdrop⟩ := Text.takeWhile_dropWhile_append hends hdots
    rw [hname, htake, hdrop]
    have hstem : stem.toList.reverse ≠ [] := by simpa using hne
    obtain ⟨c, cs, hstem⟩ := List.exists_cons_of_ne_nil hstem
    rw [hstem]
    simp

namespace Scanner

variable {s : Scanner} {t t' : FileTree} {root place : Place} {name : String}

theorem wants_iff : s.wants name = true ↔ ∃ ext, FilePath.HasExtension name ext ∧
    ∃ e ∈ s.extensions, e.toList.map Char.toLower = ext.toList.map Char.toLower := by
  rw [wants]
  simp only [← FilePath.extension?_eq_some_iff]
  cases FilePath.extension? name <;> simp

theorem isSkipped_eq_false_iff : isSkipped name = false ↔
    name.toList.head? ≠ some '.' ∧ name ≠ "node_modules" ∧ name ≠ "vendor" := by
  simp [isSkipped, and_assoc]

/-- A scan is to find the file at the place: it is at or under the root, in no directory below the
root that is hidden or holds dependencies, and has one of the extensions in any case. -/
structure IsWanted (s : Scanner) (t : FileTree) (root place : Place) : Prop where
  hasFile : t.HasFile place
  below : ∃ below, place = root ++ below ∧ ∀ name ∈ below.dropLast,
    name.toList.head? ≠ some '.' ∧ name ≠ "node_modules" ∧ name ≠ "vendor"
  extension : ∃ ext, FilePath.HasExtension (place.getLastD "") ext ∧
    ∃ e ∈ s.extensions, e.toList.map Char.toLower = ext.toList.map Char.toLower

theorem isWanted_iff (ht : t.IsTree) : s.IsWanted t root place ↔
    place ∈ t.walk root ∧ s.wants (place.getLastD "") = true := by
  rw [FileTree.mem_walk_iff ht, wants_iff]
  simp only [isSkipped_eq_false_iff]
  exact ⟨fun h => ⟨⟨h.hasFile, h.below⟩, h.extension⟩, fun h => ⟨h.1.1, h.1.2, h.2⟩⟩

/-- The names between a root and a place have a property. -/
theorem isPrefixOf_and_iff {p : List String → Bool} :
    (root.isPrefixOf place && p (place.drop root.length)) = true ↔
      ∃ below, place = root ++ below ∧ p below = true := by
  rw [Bool.and_eq_true, List.isPrefixOf_iff_prefix]
  constructor
  · rintro ⟨⟨below, rfl⟩, h⟩
    rw [List.drop_left] at h
    exact ⟨below, rfl, h⟩
  · rintro ⟨below, rfl, h⟩
    rw [List.drop_left]
    exact ⟨List.prefix_append _ _, h⟩

theorem mem_selected_iff_isWanted (ht : t.IsTree) :
    place ∈ s.selected t root ↔ s.IsWanted t root place := by
  rw [mem_selected_iff, ht.mem_files_iff, isWanted_iff ht, FileTree.mem_walk_iff ht, selects,
    Bool.and_eq_true, and_assoc, isPrefixOf_and_iff (p := fun below => below.dropLast.all _)]
  simp only [List.all_eq_true, Bool.not_eq_true']

theorem not_lex_namePrecedes_iff {p q : Place} : (!q.lex p namePrecedes) = true ↔ p ≤ q := by
  have hname : ∀ name other, namePrecedes name other = true ↔ name < other := by
    intro name other
    rw [namePrecedes, List.lex_eq_true_iff_lex, String.lt_iff_toList_lt]
    simp only [decide_eq_true_eq]
    rfl
  rw [Bool.not_eq_true', ← Bool.not_eq_true, List.lex_eq_true_iff_lex, ← not_lt]
  simp only [hname]
  rfl

theorem inWalkOrder_pairwise {places : List Place} (h : places.Nodup) :
    (inWalkOrder places).Pairwise (· < ·) :=
  pairwise_mergeSort_lt (fun _ _ => not_lex_namePrecedes_iff) h

theorem selected_pairwise (ht : t.IsTree) (s : Scanner) (root : Place) :
    (s.selected t root).Pairwise (· < ·) :=
  inWalkOrder_pairwise ((ht.nodup_placesWhere _).filter _)

/-- A scan selects the files with a wanted extension that a walk meets, in the order of the walk. -/
theorem selected_eq_walk (ht : t.IsTree) (s : Scanner) (root : Place) :
    s.selected t root = (t.walk root).filter fun place => s.wants (place.getLastD "") := by
  refine (selected_pairwise ht s root).eq_of_mem_iff ((FileTree.walk_pairwise ht root).filter _) ?_
  intro place
  rw [mem_selected_iff_isWanted ht, isWanted_iff ht, List.mem_filter]

theorem nodup_paths (ht : t.IsTree) (hroot : t.resolve s.root = .ok root) :
    ((s.selected t root).map (s.pathOf root)).Nodup := by
  have hplaces : (s.selected t root).Nodup := (selected_pairwise ht s root).imp ne_of_lt
  refine hplaces.map_on fun p hp q hq h => ?_
  rw [← placeOf_pathOf ht.hasNames hroot hp, h, placeOf_pathOf ht.hasNames hroot hq]

/-! ### Configured extensions -/

/-- The extensions that a list asks for. -/
def asked (extensions : List String) : List String :=
  (extensions.map normalize).filter (!·.isEmpty)

theorem root_foldl_withExtensions (calls : List (List String)) (s : Scanner) :
    (calls.foldl withExtensions s).root = s.root := by
  induction calls generalizing s with
  | nil => rfl
  | cons list calls ih =>
    rw [List.foldl_cons, ih, withExtensions]
    split <;> rfl

/-- The last list that asks for something is obeyed. -/
theorem extensions_foldl_withExtensions (calls : List (List String)) (s : Scanner) :
    (∃ before list after, calls = before ++ list :: after ∧ asked list ≠ [] ∧
      (∀ later ∈ after, asked later = []) ∧
      (calls.foldl withExtensions s).extensions = asked list) ∨
    ((∀ list ∈ calls, asked list = []) ∧
      (calls.foldl withExtensions s).extensions = s.extensions) := by
  induction calls generalizing s with
  | nil => exact .inr ⟨by simp, rfl⟩
  | cons list calls ih =>
    rw [List.foldl_cons]
    rcases ih (s.withExtensions list) with ⟨before, last, after, rfl, hrest⟩ | ⟨hnone, heq⟩
    · exact .inl ⟨list :: before, last, after, rfl, hrest⟩
    · rw [heq, withExtensions]
      by_cases hlist : asked list = []
      · refine .inr ⟨by simpa [hlist] using hnone, ?_⟩
        rw [asked] at hlist
        simp only [hlist, List.isEmpty_nil, if_true]
      · refine .inl ⟨[], list, calls, rfl, hlist, hnone, ?_⟩
        exact congrArg Scanner.extensions (if_neg (by rwa [List.isEmpty_iff]))

/-- A scan finds each file at or under its root that has one of the configured extensions and is in
no directory that is skipped, and finds it once. It finds the files in the order of a walk, which
does not depend on the order in which the table of the tree holds them. Configured are the
extensions of the last list that asks for any. -/
theorem scan_walk (calls : List (List String)) (path : String) (ht : t.IsTree)
    (hroot : t.resolve path = .ok root) :
    let s := calls.foldl withExtensions { root := path }
    ∃ places : List Place, s.scan t = .ok (places.map (s.pathOf root)) ∧
      (∀ place, place ∈ places ↔ s.IsWanted t root place) ∧
      (places.map (s.pathOf root)).Nodup ∧
      (∀ place ∈ places, t.placeOf (s.pathOf root place) = place) ∧
      places.Sublist (t.walk root) ∧
      (∀ t' : FileTree, t'.IsTree → t'.home = t.home → t'.find? = t.find? →
        s.scan t' = s.scan t) ∧
      ((∃ before list after, calls = before ++ list :: after ∧ asked list ≠ [] ∧
          (∀ later ∈ after, asked later = []) ∧ s.extensions = asked list) ∨
        ((∀ list ∈ calls, asked list = []) ∧ s.extensions = ["js", "go"])) := by
  intro s
  have hpath : t.resolve s.root = .ok root := by rw [root_foldl_withExtensions]; exact hroot
  have hscan : ∀ t' : FileTree, t'.IsTree → t'.resolve s.root = .ok root → s.scan t' = .ok
      (((t'.walk root).filter fun place => s.wants (place.getLastD "")).map (s.pathOf root)) := by
    intro t' ht' hroot'
    rw [scan, hroot', ← selected_eq_walk ht']
    rfl
  refine ⟨s.selected t root, ?_, fun place => mem_selected_iff_isWanted ht, nodup_paths ht hpath,
    fun place => placeOf_pathOf ht.hasNames hpath, ?_, fun t' ht' hhome hfind => ?_,
    extensions_foldl_withExtensions calls _⟩
  · rw [hscan t ht hpath, selected_eq_walk ht]
  · rw [selected_eq_walk ht]
    exact List.filter_sublist
  · rw [hscan t ht hpath, hscan t' ht' (by rw [FileTree.resolve_congr hfind hhome, hpath]),
      FileTree.walk_congr ht ht' hfind]

/-- A hidden file is found, but not what is in a hidden directory, though that has the name of a
source file. What is in `a` comes before `a.js`, since `a` does. -/
theorem scan_walk_hidden :
    let s := [["", "..TS", "js"], ["."]].foldl withExtensions { root := "c" }
    let t := [["a.js"], ["vendor", "x.js"], ["a", "z.js"], [".d.js", "y.js"], ["B.TS"], [".x.js"],
      ["b.go"]].foldl (fun t place => t.put ("c" :: place) (.file .empty))
      ([["c"], ["c", "vendor"], ["c", ".d.js"], ["c", "a"]].foldl
        (fun t place => t.put place .directory) {})
    t.IsTree ∧ t.resolve "c" = .ok ["c"] ∧ s.extensions = ["ts", "js"] ∧
      s.scan t = .ok ["c/.x.js", "c/B.TS", "c/a/z.js", "c/a.js"] ∧
      s.IsWanted t ["c"] ["c", ".x.js"] ∧ ¬s.IsWanted t ["c"] ["c", ".d.js", "y.js"] := by
  intro s t
  have htree : t.IsTree := by decide +kernel
  have hroot : t.resolve "c" = .ok ["c"] := except_eq_ok_of_toOption (by decide +kernel)
  have hselected : s.selected t ["c"] =
      [["c", ".x.js"], ["c", "B.TS"], ["c", "a", "z.js"], ["c", "a.js"]] := by
    refine (selected_pairwise htree s ["c"]).eq_of_mem_iff (by decide) fun place => ?_
    have hfiles : t.files.filter (s.selects ["c"]) =
        [["c", "a.js"], ["c", "a", "z.js"], ["c", "B.TS"], ["c", ".x.js"]] := by decide +kernel
    rw [selected, mem_inWalkOrder, hfiles]
    exact List.Perm.mem_iff (by decide)
  have hscan : s.scan t = .ok ["c/.x.js", "c/B.TS", "c/a/z.js", "c/a.js"] := by
    have hpaths : s.scan t = .ok ((s.selected t ["c"]).map (s.pathOf ["c"])) :=
      except_bind_eq_ok_iff.mpr ⟨["c"], hroot, rfl⟩
    rw [hpaths, hselected]
    exact congrArg Except.ok (by decide +kernel)
  obtain ⟨places, hplaces, hwanted, -, hback, -⟩ :=
    scan_walk [["", "..TS", "js"], ["."]] "c" htree hroot
  have heq := calc places
    _ = (places.map (s.pathOf ["c"])).map t.placeOf := by
      rw [List.map_map]
      exact ((List.map_congr_left hback).trans (List.map_id' _)).symm
    _ = ["c/.x.js", "c/B.TS", "c/a/z.js", "c/a.js"].map t.placeOf := by
      rw [← Except.ok.inj (hplaces.symm.trans hscan)]
    _ = [["c", ".x.js"], ["c", "B.TS"], ["c", "a", "z.js"], ["c", "a.js"]] := by decide +kernel
  rw [heq] at hwanted
  refine ⟨htree, hroot, by decide +kernel, hscan, (hwanted _).mp (by decide), ?_⟩
  rw [← hwanted]
  decide

/-! ### Directories that cannot be listed -/

theorem mem_refused_iff (ht : t.IsTree) : place ∈ refused t root ↔
    t.find? place = some .closed ∧
      ∃ below, place = root ++ below ∧ ∀ name ∈ below, isSkipped name = false := by
  rw [refused, mem_inWalkOrder, List.mem_filter, ht.mem_closed_iff, comesTo,
    isPrefixOf_and_iff (p := fun below => below.all _)]
  simp only [List.all_eq_true, Bool.not_eq_true']

/-- A scan warns once of each closed directory at or under its root to which it comes, and does so
in the order of a walk. -/
theorem warnings_closed (ht : t.IsTree) (hroot : t.resolve s.root = .ok root) :
    ∃ places : List Place,
      s.warnings t = places.map (fun place => warning (s.pathOf root place)) ∧
      (∀ place, place ∈ places ↔ t.find? place = some .closed ∧
        ∃ below, place = root ++ below ∧ ∀ name ∈ below, isSkipped name = false) ∧
      places.Pairwise (· < ·) := by
  refine ⟨refused t root, ?_, fun place => mem_refused_iff ht,
    inWalkOrder_pairwise ((ht.nodup_placesWhere _).filter _)⟩
  rw [warnings, hroot]

example : ({ root := "c" } : Scanner).warnings (((({} : FileTree).put ["c"] .directory).put
    ["c", "k"] .closed).put ["c", ".k"] .closed) =
    ["Failed to access path: IO error for operation on c/k: Permission denied (os error 13)"] := by
  decide +kernel

/-- A scan goes on past a closed directory: it finds what it would find if the directory were open,
with nothing in it. -/
theorem scan_put_closed (hne : place ≠ []) (hplace : t.find? place = some .directory)
    (hroot : (t.put place .closed).resolve s.root = t.resolve s.root) :
    s.scan (t.put place .closed) = s.scan t := by
  have hfiles : (t.put place .closed).files = t.files := by
    rw [FileTree.find?_of_ne_nil hne] at hplace
    exact Table.filterMap_putIn hplace rfl
  simp only [scan, hroot, selected, hfiles]

end Scanner

end RouteDoc
