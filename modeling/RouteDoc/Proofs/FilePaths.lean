import RouteDoc.FileTree.Access
import RouteDoc.Proofs.Scan

/-! Path texts and their names. A path is its names with slashes between them, so what is said about
a path can be said about its names: where it starts, in which directory it lies, and which places it
leads through. -/

namespace RouteDoc

namespace FilePath

/-! ### Names -/

theorem segments_ne_nil (path : String) : segments path ≠ [] := by
  simp [segments, List.splitOn_ne_nil]

theorem not_mem_of_mem_segments {path name : String} (h : name ∈ segments path) :
    '/' ∉ name.toList := by
  obtain ⟨piece, hpiece, rfl⟩ := List.mem_map.mp h
  rw [String.toList_ofList]
  exact fun hc => (Text.mem_of_mem_splitOn hpiece _ hc).2 rfl

theorem exists_segments (path : String) : ∃ names last, segments path = names ++ [last] :=
  ⟨_, _, (List.dropLast_concat_getLast (segments_ne_nil path)).symm⟩

theorem intercalate_segments (path : String) : "/".intercalate (segments path) = path := by
  have hid : String.toList ∘ String.ofList = id := funext fun _ => String.toList_ofList
  rw [← String.toList_inj, String.toList_intercalate, segments, List.map_map, hid, List.map_id]
  exact List.intercalate_splitOn '/'

theorem segments_intercalate {names : List String} (hne : names ≠ [])
    (h : ∀ name ∈ names, '/' ∉ name.toList) : segments ("/".intercalate names) = names := by
  rw [segments, String.toList_intercalate]
  change ((['/'].intercalate (names.map String.toList)).splitOn '/').map _ = _
  rw [List.splitOn_intercalate '/' (by simpa using h) (by simpa using hne), List.map_map]
  simp

theorem segments_append_slash {name : String} (hname : '/' ∉ name.toList) (directory : String) :
    segments (directory ++ "/" ++ name) = segments directory ++ [name] := by
  have hpath : directory ++ "/" ++ name = "/".intercalate (segments directory ++ [name]) := by
    rw [String.intercalate_append_of_ne_nil (segments_ne_nil directory) (by simp),
      intercalate_segments]
    simp
  rw [hpath, segments_intercalate (by simp)]
  intro n hn
  rcases List.mem_append.mp hn with hn | hn
  · exact not_mem_of_mem_segments hn
  · rw [List.mem_singleton.mp hn]
    exact hname

/-- A path starts at the root if its first name is empty and others follow. -/
theorem head?_intercalate_iff {first : String} (hfirst : '/' ∉ first.toList) (rest : List String) :
    ("/".intercalate (first :: rest)).toList.head? = some '/' ↔ first = "" ∧ rest ≠ [] := by
  have hhead : first.toList.head? ≠ some '/' := fun h => hfirst (List.mem_of_head? h)
  cases rest with
  | nil => simpa using hhead
  | cons name rest =>
    rw [String.intercalate_cons_cons, String.toList_append, String.toList_append,
      List.append_assoc, List.head?_append]
    cases hcs : first.toList with
    | nil => simpa using hcs
    | cons c cs =>
      have hne : first ≠ "" := fun he => by simp [he] at hcs
      simpa [hcs, hne] using hhead

/-- A path that names a file ends with a name that is not empty. -/
theorem dropEmpty_segments {path : String} (hne : path ≠ "")
    (hslash : path.toList.getLast? ≠ some '/') : dropEmpty (segments path) = segments path := by
  obtain ⟨names, last, hnames⟩ := exists_segments path
  have hpath := intercalate_segments path
  rw [hnames] at hpath ⊢
  have hlast : last ≠ "" := by
    rintro rfl
    cases names with
    | nil => exact hne (by simpa using hpath.symm)
    | cons first names =>
      rw [String.intercalate_append_of_ne_nil (by simp) (by simp)] at hpath
      exact hslash (by simp [← hpath])
  simp [dropEmpty, hlast]

/-! ### The directory that a path lies in -/

theorem dropStays_append_singleton {name : String} (h : isStay name = false) (names : List String) :
    dropStays (names ++ [name]) = names ++ [name] := by
  simp [dropStays, h]

theorem filter_dropStays (names : List String) :
    (dropStays names).filter (!isStay ·) = names.filter (!isStay ·) := by
  have hdrop : ∀ ns : List String,
      (ns.dropWhile isStay).filter (!isStay ·) = ns.filter (!isStay ·) := by
    intro ns
    induction ns with
    | nil => rfl
    | cons n ns ih =>
      cases hn : isStay n with
      | true => simpa [hn] using ih
      | false => simp [hn]
  rw [dropStays, List.filter_reverse, hdrop, List.filter_reverse, List.reverse_reverse]

theorem mem_of_mem_dropStays {name : String} {names : List String} (h : name ∈ dropStays names) :
    name ∈ names := by
  rw [dropStays, List.mem_reverse] at h
  exact List.mem_reverse.mp ((List.dropWhile_suffix _).subset h)

theorem parent?_singleton {path name : String} (h : segments path = [name])
    (hname : isStay name = false) : parent? path = some "" := by
  have hne : name.isEmpty = false := by
    rw [isStay, Bool.or_eq_false_iff] at hname
    simpa using hname.1
  simp [parent?, h, dropStays, hne]

theorem parent?_cons {path first name : String} {names : List String}
    (h : segments path = first :: (names ++ [name])) (hname : isStay name = false) :
    parent? path = some (if first = "" ∧ dropStays names = [] then "/"
      else "/".intercalate (first :: dropStays names)) := by
  have hempty : (first.isEmpty && (dropStays names).isEmpty) = true ↔
      first = "" ∧ dropStays names = [] := by simp
  simp only [parent?, h, dropStays_append_singleton hname, List.dropLast_concat]
  rw [if_neg (by simp)]
  by_cases hroot : first = "" ∧ dropStays names = []
  · rw [if_pos (hempty.mpr hroot), if_pos hroot]
  · rw [if_neg (fun h => hroot (hempty.mp h)), if_neg hroot]

/-- The directory of a path of more than one name has its own path, which starts where the path does
and has the same names up to those that stay in place. -/
theorem exists_parent?_cons {path first name : String} {names : List String}
    (h : segments path = first :: (names ++ [name])) (hname : isStay name = false) :
    ∃ parent, parent? path = some parent ∧ parent ≠ "" ∧
      (segments parent).filter (!isStay ·) = (first :: names).filter (!isStay ·) ∧
      (parent.toList.head? = some '/' ↔ path.toList.head? = some '/') := by
  have hslash : ∀ n ∈ first :: names, '/' ∉ n.toList := by
    intro n hn
    have hmem : n ∈ segments path := h ▸ List.mem_append_left [name] hn
    exact not_mem_of_mem_segments hmem
  have hpath : path.toList.head? = some '/' ↔ first = "" := by
    rw [← intercalate_segments path, h, head?_intercalate_iff (hslash first (by simp))]
    simp
  refine ⟨_, parent?_cons h hname, ?_⟩
  split
  case isTrue hroot =>
    obtain ⟨rfl, hstays⟩ := hroot
    have hnone := filter_dropStays names
    rw [hstays] at hnone
    refine ⟨by decide, ?_, by simp [hpath]⟩
    rw [List.filter_cons_of_neg (by decide), ← hnone]
    decide
  case isFalse hroot =>
    have hsegments : segments ("/".intercalate (first :: dropStays names)) =
        first :: dropStays names := by
      refine segments_intercalate (by simp) (List.forall_mem_cons.mpr ⟨hslash first (by simp), ?_⟩)
      exact fun n hn => hslash n (List.mem_cons_of_mem _ (mem_of_mem_dropStays hn))
    refine ⟨fun hempty => ?_, ?_, ?_⟩
    · rw [hempty] at hsegments
      have : ([""] : List String) = first :: dropStays names := hsegments
      simp_all
    · simp only [hsegments, List.filter_cons, filter_dropStays]
    · rw [head?_intercalate_iff (hslash first (by simp)), hpath]
      simp_all

end FilePath

/-! ### Places along a path -/

/-- The place to which a name leads from a place, by the name alone. -/
def Place.follow (place : Place) (name : String) : Place :=
  if FilePath.isStay name then place else if name == ".." then place.dropLast else place ++ [name]

/-- The places that names lead through from a place, with both ends. -/
def Place.along (place : Place) : List String → List Place
  | [] => [place]
  | name :: names => place :: Place.along (Place.follow place name) names

theorem Place.follow_of_isStay {name : String} (h : FilePath.isStay name = true) (place : Place) :
    Place.follow place name = place := by
  rw [follow, if_pos h]

theorem Place.follow_of_proper {name : String} (hstay : FilePath.isStay name = false)
    (hup : name ≠ "..") (place : Place) : Place.follow place name = place ++ [name] := by
  rw [follow, if_neg (by simp [hstay]), if_neg (by simpa using hup)]

/-- What a name leads to from under a place is at or under the place. -/
theorem Place.prefix_follow {q place : Place} (h : q <+: place) (hne : q ≠ place) (name : String) :
    q <+: Place.follow place name := by
  rw [follow]
  split
  · exact h
  split
  · rcases place.eq_nil_or_concat with rfl | ⟨above, last, rfl⟩
    · exact absurd (List.prefix_nil.mp h) hne
    · rw [List.concat_eq_append] at h hne ⊢
      rw [List.dropLast_concat]
      exact (List.prefix_concat_iff.mp h).resolve_left hne
  · exact h.trans (List.prefix_append place [name])

theorem Place.mem_along_self (place : Place) (names : List String) :
    place ∈ Place.along place names := by
  cases names <;> simp [along]

/-- Names that stay in place lead to no other places. -/
theorem Place.mem_along_filter {q place : Place} {names : List String} :
    q ∈ Place.along place (names.filter (!FilePath.isStay ·)) ↔ q ∈ Place.along place names := by
  induction names generalizing place with
  | nil => rfl
  | cons name names ih =>
    cases hname : FilePath.isStay name with
    | true =>
      rw [List.filter_cons_of_neg (by simp [hname]), ih, along, follow_of_isStay hname,
        List.mem_cons, or_iff_right_of_imp fun h => h ▸ mem_along_self place names]
    | false =>
      rw [List.filter_cons_of_pos (by simp [hname]), along, along, List.mem_cons, List.mem_cons, ih]

theorem Place.foldl_follow_filter (names : List String) (place : Place) :
    (names.filter (!FilePath.isStay ·)).foldl Place.follow place =
      names.foldl Place.follow place := by
  induction names generalizing place with
  | nil => rfl
  | cons name names ih =>
    cases hname : FilePath.isStay name with
    | true =>
      rw [List.filter_cons_of_neg (by simp [hname]), List.foldl_cons, follow_of_isStay hname, ih]
    | false => rw [List.filter_cons_of_pos (by simp [hname]), List.foldl_cons, List.foldl_cons, ih]

end RouteDoc
