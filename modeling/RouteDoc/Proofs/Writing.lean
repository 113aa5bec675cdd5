import RouteDoc.Command.Run
import RouteDoc.Proofs.FilePaths

/-! Writing to a file tree. A text that has been written to a path is read back from it, the
directories that the path leads through are there, and nothing else has changed. A run changes the
tree in this way or, if it fails before it comes to write, not at all. -/

namespace RouteDoc

namespace FileTree

variable {t t' : FileTree} {place next : Place} {name : String} {names : List String}

/-! ### Steps along a path -/

theorem isDirectory_iff : t.isDirectory place = true ↔
    t.find? place = some .directory ∨ t.find? place = some .closed := by
  unfold isDirectory
  split <;> simp_all

theorem find?_ne_of_isDirectory (h : t.isDirectory place = false) :
    t.find? place ≠ some .directory := by
  intro hdirectory
  rw [isDirectory_iff.mpr (.inl hdirectory)] at h
  cases h

theorem enter_eq_ok_iff : t.enter place = .ok () ↔ t.find? place = some .directory := by
  unfold enter
  split <;> simp_all

/-- In a directory only the name decides what a step does. -/
theorem step_of_directory (h : t.find? place = some .directory) (name : String) :
    t.step place name =
      if FilePath.isStay name then .ok place
      else if name == ".." then .ok place.dropLast
      else if FilePath.isTooLong name then .error .nameTooLong
      else if (t.find? (place ++ [name])).isSome then .ok (place ++ [name])
      else .error .notFound := by
  rw [step, enter_eq_ok_iff.mpr h]
  rfl

theorem step_eq_ok_iff : t.step place name = .ok next ↔
    t.find? place = some .directory ∧ Place.follow place name = next ∧
      (FilePath.isStay name = false → name ≠ ".." →
        FilePath.isTooLong name = false ∧ (t.find? (place ++ [name])).isSome = true) := by
  by_cases hplace : t.find? place = some .directory
  · rw [step_of_directory hplace, Place.follow]
    repeat' split
    all_goals simp_all
  · refine iff_of_false (fun h => ?_) fun h => hplace h.1
    obtain ⟨_, henter, -⟩ := except_bind_eq_ok_iff.mp h
    exact hplace (enter_eq_ok_iff.mp henter)

/-- Only a name of its own can be missing from a directory. -/
theorem find?_of_step_eq_notFound (hplace : t.find? place = some .directory)
    (h : t.step place name = .error .notFound) :
    FilePath.isStay name = false ∧ name ≠ ".." ∧ t.find? (place ++ [name]) = none := by
  rw [step_of_directory hplace] at h
  repeat' split at h
  all_goals simp_all

/-! ### Making directories -/

/-- No name is followed from a place that cannot be entered, though something stands there. -/
theorem makeAlong_cons_of_enter {e : FileError} {made : Bool} (h : t.enter place = .error e)
    (hne : e ≠ .notFound) (name : String) (names : List String) :
    t.makeAlong made place (name :: names) = (t, .error e) := by
  have hstep : t.step place name = .error e := by
    rw [step, h]
    rfl
  rw [makeAlong, hstep]
  cases e <;> first | rfl | exact absurd rfl hne

theorem makeAlong_of_closed (h : t.find? place = some .closed) (made : Bool) (names : List String) :
    t.makeAlong made place names = (t, if names.isEmpty then .ok () else .error .denied) := by
  cases names with
  | nil => rfl
  | cons name names =>
    have henter : t.enter place = .error .denied := by rw [enter, h]
    exact makeAlong_cons_of_enter henter (by decide) name names

/-- What is kept when one missing directory is made is kept when directories are made along
names. -/
theorem makeAlong_preserves {P : FileTree → Prop} {made : Bool} (ht : P t)
    (hplace : t.find? place = some .directory)
    (hput : ∀ (t : FileTree) (place : Place), P t → t.find? place = some .directory →
      ∀ name ∈ names, FilePath.isStay name = false → name ≠ ".." →
        t.find? (place ++ [name]) = none → P (t.put (place ++ [name]) .directory)) :
    P (t.makeAlong made place names).1 := by
  induction names generalizing t made place with
  | nil => exact ht
  | cons name names ih =>
    have hrest := fun t place ht hplace n hn => hput t place ht hplace n (List.mem_cons_of_mem _ hn)
    rw [makeAlong]
    split
    case h_1 next hstep =>
      split
      · rename_i hnext
        rcases isDirectory_iff.mp hnext with hopen | hclosed
        · exact ih ht hopen hrest
        · rw [makeAlong_of_closed hclosed]
          exact ht
      · exact ht
    case h_2 hstep =>
      obtain ⟨hstay, hup, hmissing⟩ := find?_of_step_eq_notFound hplace hstep
      have hmade := hput t place ht hplace name List.mem_cons_self hstay hup hmissing
      exact ih hmade ((t.find?_put (by simp) .directory _).trans (if_pos rfl)) hrest
    case h_3 => exact ht

/-- The second tree is the first with directories made at the places where they were missing. -/
structure MakesDirectories (places : List Place) (before after : FileTree) : Prop where
  find? : ∀ q, after.find? q = if q ∈ places then some .directory else before.find? q
  free : ∀ q ∈ places, before.find? q = none ∨ before.find? q = some .directory

namespace MakesDirectories

variable {places places' : List Place}

theorem nil : MakesDirectories [] t t where
  find? := by simp
  free := by simp

theorem cons (hplace : t.find? place = some .directory) (h : MakesDirectories places t t') :
    MakesDirectories (place :: places) t t' where
  find? q := by
    rw [h.find? q]
    grind
  free := List.forall_mem_cons.mpr ⟨.inr hplace, h.free⟩

theorem of_put (hplace : t.find? place = none) (hmem : place ∈ places)
    (h : MakesDirectories places (t.put place .directory) t') : MakesDirectories places t t' := by
  have hne : place ≠ [] := by
    rintro rfl
    simp at hplace
  have hput := t.find?_put hne .directory
  refine ⟨fun q => ?_, fun q hq => ?_⟩
  · rw [h.find? q, hput q]
    grind
  · by_cases hpq : place = q
    · exact .inl (hpq ▸ hplace)
    · simpa [hput q, hpq] using h.free q hq

theorem congr (hmem : ∀ q, q ∈ places ↔ q ∈ places') (h : MakesDirectories places t t') :
    MakesDirectories places' t t' where
  find? q := by simp only [h.find? q, hmem]
  free q hq := h.free q ((hmem q).mpr hq)

end MakesDirectories

theorem home_makeAlong (t : FileTree) (made : Bool) (place : Place) (names : List String) :
    (t.makeAlong made place names).1.home = t.home := by
  fun_induction makeAlong t made place names with
  | case4 t made place name names _ ih => exact ih
  | _ => simp_all

/-- Names that lead to an open directory lead through open directories alone. -/
theorem makesDirectories_of_makeAlong {made : Bool} (hplace : t.find? place = some .directory)
    (hlast : t'.find? (names.foldl Place.follow place) = some .directory)
    (h : t.makeAlong made place names = (t', .ok ())) :
    MakesDirectories (Place.along place names) t t' := by
  induction names generalizing t made place with
  | nil =>
    obtain rfl : t = t' := congrArg Prod.fst h
    exact .cons hplace .nil
  | cons name names ih =>
    rw [makeAlong] at h
    split at h
    case h_1 next hstep =>
      obtain ⟨-, rfl, -⟩ := step_eq_ok_iff.mp hstep
      split at h
      · rename_i hnext
        rcases isDirectory_iff.mp hnext with hopen | hclosed
        · exact .cons hplace (ih hopen hlast h)
        · rw [makeAlong_of_closed hclosed] at h
          obtain rfl : t = t' := congrArg Prod.fst h
          cases names with
          | nil =>
            rw [List.foldl_cons, List.foldl_nil, hclosed] at hlast
            cases hlast
          | cons next names => cases congrArg Prod.snd h
      · simp at h
    case h_2 hstep =>
      obtain ⟨hstay, hup, hmissing⟩ := find?_of_step_eq_notFound hplace hstep
      rw [List.foldl_cons, Place.follow_of_proper hstay hup] at hlast
      rw [Place.along, Place.follow_of_proper hstay hup]
      have hmade := ih (t.find?_put (by simp) .directory _ |>.trans (if_pos rfl)) hlast h
      exact .cons hplace (.of_put hmissing (Place.mem_along_self _ _) hmade)
    case h_3 => simp at h

/-- A directory that is missing where names start is not made by following them. -/
theorem find?_makeAlong_eq_none {q : Place} {made : Bool} (hq : t.find? q = none)
    (hplace : q <+: place) : (t.makeAlong made place names).1.find? q = none := by
  have hne : q ≠ [] := by
    rintro rfl
    simp at hq
  induction names generalizing t made place with
  | nil => exact hq
  | cons name names ih =>
    rw [makeAlong]
    split
    case h_1 next hstep =>
      -- The step starts in a directory, hence not at `q`, and so ends at `q` or under it.
      obtain ⟨hdir, rfl, -⟩ := step_eq_ok_iff.mp hstep
      split
      · exact ih hq (Place.prefix_follow hplace (fun h => by simp [h, hdir] at hq) name)
      · exact hq
    case h_2 hstep =>
      have hlonger : place ++ [name] ≠ q := by
        rintro rfl
        exact absurd hplace.length_le (by simp)
      refine ih ?_ (hplace.trans (List.prefix_append place [name]))
      rw [t.find?_put (by simp), if_neg hlonger, hq]
    case h_3 => exact hq

/-- A place from which directories have been made was a directory before, if it is one after. -/
theorem find?_of_makeAlong {made : Bool} (h : t.makeAlong made place names = (t', .ok ()))
    (hafter : t'.find? place = some .directory) : t.find? place = some .directory := by
  cases hbefore : t.find? place with
  | none =>
    have hnone : (t.makeAlong made place names).1.find? place = none :=
      find?_makeAlong_eq_none hbefore place.prefix_refl
    rw [h, hafter] at hnone
    cases hnone
  | some entry =>
    cases names with
    | nil =>
      obtain rfl : t = t' := congrArg Prod.fst h
      exact hbefore.symm.trans hafter
    | cons name names =>
      cases entry with
      | directory => rfl
      | file bytes =>
        have henter : t.enter place = .error .notDirectory := by rw [enter, hbefore]
        rw [makeAlong_cons_of_enter henter (by decide)] at h
        cases congrArg Prod.snd h
      | closed =>
        rw [makeAlong_of_closed hbefore] at h
        cases congrArg Prod.snd h

theorem start_congr {path path' : String}
    (h : path.toList.head? = some '/' ↔ path'.toList.head? = some '/') :
    t.start path = t.start path' := by
  simp only [start, beq_iff_eq, h]

theorem makeAlong_of_makeDirectories {path : String}
    (h : t.makeDirectories path = (t', .ok ())) :
    t.makeAlong false (t.start path)
      ((FilePath.segments path).filter (!FilePath.isStay ·)) = (t', .ok ()) := by
  rw [makeDirectories] at h
  split at h
  · exact h
  · cases congrArg Prod.snd h

theorem makeDirectories_of_makeParent {path parent : String}
    (hparent : FilePath.parent? path = some parent) (hne : parent ≠ "")
    (h : t.makeParent path = (t', .ok ())) : t.makeDirectories parent = (t', .ok ()) := by
  have hempty : ¬ parent.isEmpty = true := by simpa using hne
  rw [makeParent, hparent] at h
  simp only [if_neg hempty, Prod.mk.injEq] at h
  obtain ⟨hmade, hok⟩ := h
  refine Prod.ext hmade ?_
  cases hresult : (t.makeDirectories parent).2 with
  | ok _ => rfl
  | error reason =>
    rw [hresult] at hok
    cases hok

theorem home_makeParent (t : FileTree) (path : String) : (t.makeParent path).1.home = t.home := by
  have hdirectories : ∀ parent, (t.makeDirectories parent).1.home = t.home := by
    intro parent
    rw [makeDirectories]
    split
    · exact t.home_makeAlong _ _ _
    · rfl
  rw [makeParent]
  split
  · rfl
  · split
    · rfl
    · exact hdirectories _

/-- The parent of a path is made along the names before its last one. -/
theorem makeAlong_of_makeParent {path : String}
    (hpath : FilePath.segments path = names ++ [name]) (hname : FilePath.isStay name = false)
    (h : t.makeParent path = (t', .ok ())) :
    t.makeAlong false (t.start path) (names.filter (!FilePath.isStay ·)) = (t', .ok ()) := by
  cases names with
  | nil =>
    rw [makeParent, FilePath.parent?_singleton hpath hname] at h
    obtain rfl : t = t' := congrArg Prod.fst h
    rfl
  | cons first names =>
    obtain ⟨parent, hparent, hne, hnames, hhead⟩ := FilePath.exists_parent?_cons hpath hname
    have hmade := makeAlong_of_makeDirectories (makeDirectories_of_makeParent hparent hne h)
    rw [hnames, start_congr hhead] at hmade
    exact hmade

theorem makesDirectories_of_makeParent {path : String}
    (hpath : FilePath.segments path = names ++ [name]) (hname : FilePath.isStay name = false)
    (h : t.makeParent path = (t', .ok ()))
    (hstart : t'.find? (t.start path) = some .directory)
    (hlast : t'.find? (names.foldl Place.follow (t.start path)) = some .directory) :
    MakesDirectories (Place.along (t.start path) names) t t' := by
  have hmade := makeAlong_of_makeParent hpath hname h
  rw [← Place.foldl_follow_filter] at hlast
  have hplaces := makesDirectories_of_makeAlong (find?_of_makeAlong hmade hstart) hlast hmade
  exact hplaces.congr fun q => Place.mem_along_filter

/-! ### Writing a file -/

/-- The place to which a path leads, by its names alone. -/
def placeOf (t : FileTree) (path : String) : Place :=
  (FilePath.segments path).foldl Place.follow (t.start path)

/-- The places that a path leads through before its last name. -/
def placesBefore (t : FileTree) (path : String) : List Place :=
  Place.along (t.start path) (FilePath.segments path).dropLast

theorem foldlM_step_eq_ok {last : Place} (h : names.foldlM t.step place = .ok last) :
    names.foldl Place.follow place = last := by
  induction names generalizing place with
  | nil => exact Except.ok.inj h
  | cons name names ih =>
    rw [List.foldlM_cons, except_bind_eq_ok_iff] at h
    obtain ⟨next, hstep, hrest⟩ := h
    obtain ⟨-, rfl, -⟩ := step_eq_ok_iff.mp hstep
    exact ih hrest

/-- All that stands in the first tree stands in the second, and directories are still directories.
So what can be followed in the first can be followed in the second. -/
structure Extends (before after : FileTree) : Prop where
  home : after.home = before.home
  directory : ∀ q, before.find? q = some .directory → after.find? q = some .directory
  isSome : ∀ q, (before.find? q).isSome = true → (after.find? q).isSome = true

namespace Extends

theorem start_eq (h : Extends t t') (path : String) : t'.start path = t.start path := by
  rw [start, start, h.home]

theorem foldlM_step (h : Extends t t') {last : Place} (hleads : names.foldlM t.step place = .ok last) :
    names.foldlM t'.step place = .ok last := by
  induction names generalizing place with
  | nil => exact hleads
  | cons name names ih =>
    rw [List.foldlM_cons, except_bind_eq_ok_iff] at hleads ⊢
    obtain ⟨next, hstep, hrest⟩ := hleads
    obtain ⟨hplace, hnext, hproper⟩ := step_eq_ok_iff.mp hstep
    refine ⟨next, step_eq_ok_iff.mpr ⟨h.directory _ hplace, hnext, fun hstay hup => ?_⟩, ih hrest⟩
    exact ⟨(hproper hstay hup).1, h.isSome _ (hproper hstay hup).2⟩

/-- A file may be put where no directory stands. -/
theorem of_put {bytes : ByteArray} (hhome : t'.home = t.home)
    (hplace : t.find? place ≠ some .directory)
    (hput : ∀ q, t'.find? q = if place = q then some (.file bytes) else t.find? q) :
    Extends t t' where
  home := hhome
  directory q hq := by
    rw [hput, if_neg (by rintro rfl; exact hplace hq), hq]
  isSome q hq := by
    rw [hput]
    split
    · rfl
    · exact hq

end Extends

/-- The start of a path whose names can be followed to a directory is itself a directory. -/
theorem find?_start_of_foldlM {last : Place} (h : names.foldlM t.step place = .ok last)
    (hlast : t.find? last = some .directory) : t.find? place = some .directory := by
  cases names with
  | nil =>
    obtain rfl : place = last := Except.ok.inj h
    exact hlast
  | cons name names =>
    rw [List.foldlM_cons, except_bind_eq_ok_iff] at h
    obtain ⟨next, hstep, -⟩ := h
    exact (step_eq_ok_iff.mp hstep).1

/-- The path names a file: its last name is a name of its own, and the names before it lead to the
directory in which the file stands or can be put. -/
structure NamesFile (t : FileTree) (path : String) (names : List String) (name : String)
    (parent : Place) : Prop where
  checked : checkPath path = .ok ()
  segments : FilePath.segments path = names ++ [name]
  leads : names.foldlM t.step (t.start path) = .ok parent
  isParent : t.find? parent = some .directory
  isStay : FilePath.isStay name = false
  notUp : name ≠ ".."
  isTooLong : FilePath.isTooLong name = false
  notDirectory : t.isDirectory (parent ++ [name]) = false

theorem namesFile_of_fileTarget {path : String} {target : Place}
    (h : t.fileTarget path = .ok target) :
    ∃ names name parent, t.NamesFile path names name parent ∧ target = parent ++ [name] := by
  simp only [fileTarget, except_bind_eq_ok_iff] at h
  obtain ⟨⟨⟩, hcheck, parent, hleads, ⟨⟩, henter, h⟩ := h
  split at h
  · cases h
  rename_i hlast
  simp only [Bool.or_eq_true, beq_iff_eq, not_or, Bool.not_eq_true] at hlast
  obtain ⟨⟨hstay, hup⟩, hslash⟩ := hlast
  have hne : path ≠ "" := by
    rintro rfl
    cases hcheck
  obtain ⟨names, name, hsegments⟩ := FilePath.exists_segments path
  have hnames := (FilePath.dropEmpty_segments hne hslash).trans hsegments
  simp only [hnames, List.dropLast_concat, List.getLastD_concat] at hleads hstay hup h
  split at h
  · cases h
  rename_i hlong
  split at h
  · cases h
  rename_i hdir
  obtain rfl : parent ++ [name] = target := Except.ok.inj h
  exact ⟨names, name, parent,
    { checked := hcheck
      segments := hsegments
      leads := hleads
      isParent := enter_eq_ok_iff.mp henter
      isStay := hstay
      notUp := hup
      isTooLong := by simpa using hlong
      notDirectory := by simpa using hdir }, rfl⟩

namespace NamesFile

variable {path : String} {parent : Place}

theorem placeOf_eq (h : t.NamesFile path names name parent) :
    t.placeOf path = parent ++ [name] := by
  rw [placeOf, h.segments, List.foldl_append, foldlM_step_eq_ok h.leads]
  exact Place.follow_of_proper h.isStay h.notUp parent

theorem read_of_find? (h : t.NamesFile path names name parent) {text : String}
    (hhome : t'.home = t.home)
    (hput : ∀ q, t'.find? q =
      if parent ++ [name] = q then some (.file text.toUTF8) else t.find? q) :
    t'.read path = .ok text := by
  have hfile := (hput (parent ++ [name])).trans (if_pos rfl)
  have hextends : Extends t t' := .of_put hhome (find?_ne_of_isDirectory h.notDirectory) hput
  have hstep : t'.step parent name = .ok (parent ++ [name]) :=
    step_eq_ok_iff.mpr ⟨hextends.directory _ h.isParent,
      Place.follow_of_proper h.isStay h.notUp parent, fun _ _ => ⟨h.isTooLong, by rw [hfile]; rfl⟩⟩
  have hresolve : t'.resolve path = .ok (parent ++ [name]) := by
    refine except_bind_eq_ok_iff.mpr ⟨(), h.checked, ?_⟩
    rw [h.segments, List.foldlM_append, except_bind_eq_ok_iff, hextends.start_eq]
    exact ⟨parent, hextends.foldlM_step h.leads, by simpa using hstep⟩
  have htext : String.fromUTF8? text.toUTF8 = some text := dif_pos text.isValidUTF8
  refine except_bind_eq_ok_iff.mpr ⟨_, hresolve, ?_⟩
  rw [hfile]
  dsimp only
  rw [htext]
  rfl

end NamesFile

/-- The second tree is the first with a text written to a path. The only other changes are the
directories that the path leads through, which have been made where nothing stood before. -/
structure Written (before : FileTree) (path text : String) (after : FileTree) : Prop where
  home : after.home = before.home
  read : after.read path = .ok text
  find? : ∀ q, after.find? q =
    if q = before.placeOf path then some (.file text.toUTF8)
    else if q ∈ before.placesBefore path then some .directory
    else before.find? q
  free : ∀ q ∈ before.placesBefore path,
    before.find? q = none ∨ before.find? q = some .directory
  notDirectory : before.placeOf path ∉ before.placesBefore path ∧
    before.isDirectory (before.placeOf path) = false

theorem exists_of_write {path text : String} (h : t.write path text = (t', .ok ())) :
    ∃ made target, t.makeParent path = (made, .ok ()) ∧ made.fileTarget path = .ok target ∧
      t' = made.put target (.file text.toUTF8) := by
  rcases hparent : t.makeParent path with ⟨made, _ | _⟩
  · rw [write, hparent] at h
    cases congrArg Prod.snd h
  · cases hput : made.putBytes path text.toUTF8 with
    | error reason =>
      simp only [write, hparent, hput] at h
      cases congrArg Prod.snd h
    | ok written =>
      simp only [write, hparent, hput] at h
      obtain ⟨target, htarget, hwritten⟩ := except_bind_eq_ok_iff.mp hput
      obtain rfl : written = t' := congrArg Prod.fst h
      exact ⟨made, target, rfl, htarget, (Except.ok.inj hwritten).symm⟩

theorem written_of_write {path text : String} (h : t.write path text = (t', .ok ())) :
    t.Written path text t' := by
  obtain ⟨made, target, hmade, htarget, rfl⟩ := exists_of_write h
  obtain ⟨names, name, parent, hfile, rfl⟩ := namesFile_of_fileTarget htarget
  have hhome : made.home = t.home := by
    rw [← t.home_makeParent path, hmade]
  have hstart : made.start path = t.start path := by rw [start, start, hhome]
  have hplace : t.placeOf path = parent ++ [name] := by
    rw [← hfile.placeOf_eq, placeOf, placeOf, hstart]
  have hbefore : t.placesBefore path = Place.along (t.start path) names := by
    rw [placesBefore, hfile.segments, List.dropLast_concat]
  have hdirs : MakesDirectories (t.placesBefore path) t made := by
    rw [hbefore]
    refine makesDirectories_of_makeParent hfile.segments hfile.isStay hmade ?_ ?_
    · rw [← hstart]
      exact find?_start_of_foldlM hfile.leads hfile.isParent
    · rw [← hstart, foldlM_step_eq_ok hfile.leads]
      exact hfile.isParent
  have hput := made.find?_put (List.concat_ne_nil name parent) (.file text.toUTF8)
  refine ⟨hhome, hfile.read_of_find? rfl hput, fun q => ?_, hdirs.free, ?_⟩
  · rw [hput, hdirs.find?, hplace]
    simp only [eq_comm]
  · have hnot := hfile.notDirectory
    rw [isDirectory, hdirs.find?, ← hplace] at hnot
    have hout : t.placeOf path ∉ t.placesBefore path := by
      intro hmem
      rw [if_pos hmem] at hnot
      cases hnot
    rw [if_neg hout] at hnot
    exact ⟨hout, hnot⟩

end FileTree

/-! ### Runs -/

/-- A generated text is that of a document under the settings. -/
theorem exists_text_of_generate {settings : Settings} {sources : List Source}
    {generated : Generated} (h : (generate settings sources).result = .ok generated) :
    ∃ pathLines models, generated.text = Document.text settings pathLines models := by
  obtain ⟨catalog, -, h⟩ := Reading.bind_eq_ok_iff.mp h
  obtain ⟨api, -, h⟩ := Reading.bind_eq_ok_iff.mp h
  obtain rfl : api.document settings sources.length catalog.blockCount = generated :=
    Except.ok.inj h
  exact ⟨_, _, rfl⟩

/-- A run fails before it writes: the scan fails, or a source that was found cannot be read, or no
document can be generated from the sources. -/
inductive Arguments.FailsBeforeWriting (args : Arguments) (t : FileTree) : RunError → Prop
  | scan {reason : FileError} (h : args.scanner.scan t = .error reason) :
    FailsBeforeWriting args t (.rootInaccessible args.controllerDir reason)
  | load {paths : List String} {e : RunError} (hscan : args.scanner.scan t = .ok paths)
    (h : t.loadAll paths = .error e) : FailsBeforeWriting args t e
  | generate {paths : List String} {sources : List Source} {fault : TypeFault}
    (hscan : args.scanner.scan t = .ok paths) (hload : t.loadAll paths = .ok sources)
    (h : (generate args.settings sources).result = .error fault) :
    FailsBeforeWriting args t (.generation fault)

/-- A run comes to write a document: the one generated from the sources that the scan finds. -/
structure Arguments.Prepares (args : Arguments) (t : FileTree) (paths : List String)
    (sources : List Source) (generated : Generated) : Prop where
  scan : args.scanner.scan t = .ok paths
  load : t.loadAll paths = .ok sources
  generate : (generate args.settings sources).result = .ok generated

namespace Arguments

variable {args : Arguments} {t : FileTree}

theorem run_of_failsBeforeWriting {e : RunError} (h : args.FailsBeforeWriting t e) :
    (args.run t).result = .error e ∧ (args.run t).tree = t := by
  cases h with
  | scan h => simp [run, h, Outcome.failed]
  | load hscan h => simp [run, hscan, h, Outcome.failed]
  | generate hscan hload h => simp [run, hscan, hload, h, Outcome.failed]

theorem failsBeforeWriting_or_prepares (args : Arguments) (t : FileTree) :
    (∃ e, args.FailsBeforeWriting t e) ∨
      ∃ paths sources generated, args.Prepares t paths sources generated := by
  cases hscan : args.scanner.scan t with
  | error reason => exact .inl ⟨_, .scan hscan⟩
  | ok paths =>
    cases hload : t.loadAll paths with
    | error e => exact .inl ⟨_, .load hscan hload⟩
    | ok sources =>
      cases hgenerate : (generate args.settings sources).result with
      | error fault => exact .inl ⟨_, .generate hscan hload hgenerate⟩
      | ok generated => exact .inr ⟨paths, sources, generated, hscan, hload, hgenerate⟩

theorem Prepares.run_eq {paths : List String} {sources : List Source} {generated : Generated}
    (h : args.Prepares t paths sources generated) :
    ((args.run t).tree, (args.run t).result) = t.write args.outputFile generated.text := by
  simp only [run, h.scan, h.load, h.generate, writeDocument]
  split <;> simp_all [Outcome.failed, Prod.ext_iff]

/-- What a run tells that succeeds: first the directories that its scan could not list, and at the
end how much went into the document. -/
theorem log_of_prepares {paths : List String} {sources : List Source} {generated : Generated}
    (h : args.Prepares t paths sources generated) (hok : (args.run t).result = .ok ()) :
    (args.run t).log =
      .info "Scanning controller directory..." :: (args.scanner.warnings t).map .warn ++
      args.foundLog paths ++ [.info "Generating Swagger document..."] ++
      (generate args.settings sources).warnings.map (.warn ·.message) ++
      args.writingLog generated.counts ++
      summaryLog generated.counts (args.scanner.warnings t) := by
  have hwrite : (t.write args.outputFile generated.text).2 = .ok () := by rw [← h.run_eq, hok]
  simp only [run, h.scan, h.load, h.generate, writeDocument]
  rcases hwritten : t.write args.outputFile generated.text with ⟨written, result⟩
  rw [hwritten] at hwrite
  cases hwrite
  simp only [List.append_assoc]

/-- A run that fails before it writes leaves all files as they were. A run that succeeds has written
the document of the files found before, and has changed nothing else but to make the directories on
the way to the output. -/
theorem run_all_or_nothing (args : Arguments) (t : FileTree) :
    (∀ e, args.FailsBeforeWriting t e →
      (args.run t).result = .error e ∧ (args.run t).tree = t) ∧
    ((args.run t).result = .ok () → ∃ paths sources generated,
      args.Prepares t paths sources generated ∧
        t.Written args.outputFile generated.text (args.run t).tree) := by
  refine ⟨fun e h => run_of_failsBeforeWriting h, fun hok => ?_⟩
  rcases failsBeforeWriting_or_prepares args t with ⟨e, hfails⟩ | ⟨paths, sources, generated, h⟩
  · rw [(run_of_failsBeforeWriting hfails).1] at hok
    cases hok
  · refine ⟨paths, sources, generated, h, FileTree.written_of_write ?_⟩
    rw [← h.run_eq, hok]

theorem run_all_or_nothing_new_directories :
    let args : Arguments :=
      { title := "T", host := "h", controllerDir := "c", outputFile := "c/out/../x/d.yaml" }
    let tree := fun text : String =>
      (({} : FileTree).put ["c"] .directory).put ["c", "a.js"] (.file text.toUTF8)
    let good := tree "/**\n@api {get} /:i It\n*/"
    let bad := tree "/**\n@api {get} /:i It\n@apiParam {=} i\n*/"
    (∃ fault, (args.run bad).result = .error (.generation fault) ∧ (args.run bad).tree = bad) ∧
    (args.run good).result = .ok () ∧
    (∃ pathLines models, (args.run good).tree.read args.outputFile = .ok (Text.unlines
      (["swagger: \"2.0\"", "info:", "  version: \"0.0.1\"", "  title: 'T'", "schemes:", "- http",
        "- https", "host: 'h'", "basePath: /", "paths:"] ++ pathLines ++
          Schema.definitionLines models))) ∧
    good.find? ["c", "x"] = none ∧ (args.run good).tree.find? ["c", "x"] = some .directory := by
  intro args tree good bad
  constructor
  · let sources : List Source := [⟨"c/a.js", "/**\n@api {get} /:i It\n@apiParam {=} i\n*/"⟩]
    have hscan : args.scanner.scan bad = .ok ["c/a.js"] :=
      except_eq_ok_of_toOption (by decide +kernel)
    have hload : bad.loadAll ["c/a.js"] = .ok sources :=
      except_eq_ok_of_toOption (by decide +kernel)
    have hfails : (generate args.settings sources).result.isOk = false := by decide +kernel
    cases hgenerate : (generate args.settings sources).result with
    | ok generated => simp [hgenerate, Except.isOk, Except.toBool] at hfails
    | error fault =>
      exact ⟨fault, (run_all_or_nothing args bad).1 _ (.generate hscan hload hgenerate)⟩
  · have hgood : (args.run good).result = .ok () := except_eq_ok_of_toOption (by decide +kernel)
    obtain ⟨paths, sources, generated, hprepares, hwritten⟩ :=
      (run_all_or_nothing args good).2 hgood
    obtain ⟨pathLines, models, htext⟩ := exists_text_of_generate hprepares.generate
    have hhead : (Document.head args.settings).lines = ["swagger: \"2.0\"", "info:",
        "  version: \"0.0.1\"", "  title: 'T'", "schemes:", "- http", "- https", "host: 'h'",
        "basePath: /", "paths:"] := by decide +kernel
    have hread := hwritten.read
    rw [htext, Document.text, Document.lines, hhead] at hread
    refine ⟨hgood, ⟨pathLines, models, hread⟩, rfl, ?_⟩
    rw [hwritten.find?, if_neg (by decide), if_pos (by decide)]

end Arguments

end RouteDoc
