import RouteDoc.Proofs.Tables
import RouteDoc.Proofs.Writing

/-! A second run. A text that is written again to its path changes nothing, and a scan selects the
same files after a write as before, unless it selects the file that was written. So a run whose
output is not one of its own sources can be repeated, and the repetition changes nothing. -/

namespace RouteDoc

namespace FileTree

variable {t t' made : FileTree} {place last target : Place} {name path text : String}
  {names : List String}

/-! ### Writing again -/

theorem find?_of_ne_nil (hne : place ≠ []) :
    t.find? place = Table.valueIn? (Place.key place) t.entries.entries := by
  simp [find?, hne, Table.find?]

theorem put_of_find? (hne : place ≠ []) {entry : Entry} (h : t.find? place = some entry) :
    t.put place entry = t := by
  rw [find?_of_ne_nil hne] at h
  rw [put, Table.insert_of_find? h]

theorem foldlM_step_filter (h : names.foldlM t.step place = .ok last) :
    (names.filter (!FilePath.isStay ·)).foldlM t.step place = .ok last := by
  induction names generalizing place with
  | nil => exact h
  | cons name names ih =>
    rw [List.foldlM_cons, except_bind_eq_ok_iff] at h
    obtain ⟨next, hstep, hrest⟩ := h
    cases hname : FilePath.isStay name with
    | true =>
      obtain ⟨-, rfl, -⟩ := step_eq_ok_iff.mp hstep
      rw [Place.follow_of_isStay hname] at hrest
      rw [List.filter_cons_of_neg (by simp [hname])]
      exact ih hrest
    | false =>
      rw [List.filter_cons_of_pos (by simp [hname]), List.foldlM_cons, except_bind_eq_ok_iff]
      exact ⟨next, hstep, ih hrest⟩

/-- No directory is made along names that can be followed already. -/
theorem makeAlong_of_foldlM {isMade : Bool} (h : names.foldlM t.step place = .ok last)
    (hlast : t.find? last = some .directory) :
    t.makeAlong isMade place names = (t, .ok ()) := by
  induction names generalizing place with
  | nil => rfl
  | cons name names ih =>
    rw [List.foldlM_cons, except_bind_eq_ok_iff] at h
    obtain ⟨next, hstep, hrest⟩ := h
    have hnext := isDirectory_iff.mpr (.inl (find?_start_of_foldlM hrest hlast))
    rw [makeAlong, hstep]
    simp only [hnext, if_true]
    exact ih hrest

-- That the parent was made in some tree says that its path is one that can be followed at all.
theorem makeParent_of_makeAlong (hpath : FilePath.segments path = names ++ [name])
    (hname : FilePath.isStay name = false) (h : t.makeParent path = (made, .ok ()))
    (halong : t'.makeAlong false (t'.start path) (names.filter (!FilePath.isStay ·)) =
      (t', .ok ())) :
    t'.makeParent path = (t', .ok ()) := by
  cases names with
  | nil =>
    rw [makeParent, FilePath.parent?_singleton hpath hname]
    rfl
  | cons first names =>
    obtain ⟨parent, hparent, hne, hnames, hhead⟩ := FilePath.exists_parent?_cons hpath hname
    have hchecked : checkPath parent = .ok () := by
      have hmade := makeDirectories_of_makeParent hparent hne h
      rw [makeDirectories] at hmade
      split at hmade
      · assumption
      · cases congrArg Prod.snd hmade
    have hdirectories : t'.makeDirectories parent = (t', .ok ()) := by
      rw [makeDirectories, hchecked, hnames, start_congr hhead]
      exact halong
    have hempty : ¬parent.isEmpty = true := by simpa using hne
    rw [makeParent, hparent]
    simp only [hdirectories, if_neg hempty]
    rfl

/-- A file that has been put where a path leads is found there again. -/
theorem fileTarget_put (h : t.fileTarget path = .ok target) (bytes : ByteArray) :
    (t.put target (.file bytes)).fileTarget path = .ok target := by
  obtain ⟨names, name, parent, hfile, htarget⟩ := namesFile_of_fileTarget h
  have hne : target ≠ [] := htarget ▸ List.concat_ne_nil name parent
  have hput := t.find?_put hne (.file bytes)
  have hextends : Extends t (t.put target (.file bytes)) :=
    .of_put rfl (htarget ▸ find?_ne_of_isDirectory hfile.notDirectory) hput
  simp only [fileTarget, except_bind_eq_ok_iff] at h ⊢
  obtain ⟨⟨⟩, hcheck, directory, hleads, ⟨⟩, henter, h⟩ := h
  have hdirectory := hextends.directory _ (enter_eq_ok_iff.mp henter)
  refine ⟨(), hcheck, directory, hextends.foldlM_step hleads, (), enter_eq_ok_iff.mpr hdirectory, ?_⟩
  -- Of the checks that remain only the last looks at the tree.
  split at h
  · cases h
  rename_i hlast
  split at h
  · cases h
  rename_i hlong
  split at h
  · cases h
  obtain rfl := Except.ok.inj h
  rw [if_neg hlast, if_neg hlong, isDirectory, hput, if_pos rfl]
  rfl

/-- To write a text again where it was written changes nothing. -/
theorem write_again (h : t.write path text = (t', .ok ())) : t'.write path text = (t', .ok ()) := by
  obtain ⟨made, target, hmade, htarget, rfl⟩ := exists_of_write h
  have hagain := fileTarget_put htarget text.toUTF8
  obtain ⟨names, name, parent, hfile, rfl⟩ := namesFile_of_fileTarget hagain
  have hparent : (made.put (parent ++ [name]) (.file text.toUTF8)).makeParent path =
      (made.put (parent ++ [name]) (.file text.toUTF8), .ok ()) := by
    refine makeParent_of_makeAlong hfile.segments hfile.isStay hmade ?_
    exact makeAlong_of_foldlM (foldlM_step_filter hfile.leads) hfile.isParent
  have hne : parent ++ [name] ≠ [] := List.concat_ne_nil name parent
  have hthere := (made.find?_put hne (.file text.toUTF8) _).trans (if_pos rfl)
  have hput : (made.put (parent ++ [name]) (.file text.toUTF8)).putBytes path text.toUTF8 =
      .ok (made.put (parent ++ [name]) (.file text.toUTF8)) := by
    refine except_bind_eq_ok_iff.mpr ⟨_, hagain, ?_⟩
    rw [put_of_find? hne hthere]
    rfl
  rw [write, hparent]
  simp only [hput]

/-! ### The files of a tree after a write -/

theorem entries_put_of_none (hne : place ≠ []) (h : t.find? place = none) (entry : Entry) :
    (t.put place entry).entries.entries = t.entries.entries ++ [(Place.key place, entry)] := by
  refine Table.putIn_of_not_mem ?_ entry
  rw [← Table.isSome_valueIn?_iff, ← find?_of_ne_nil hne, h]
  simp

theorem placesWhere_put_of_none (hne : place ≠ []) (h : t.find? place = none) (entry : Entry)
    (p : Entry → Bool) : (t.put place entry).placesWhere p =
      t.placesWhere p ++ if p entry then [place] else [] := by
  rw [placesWhere, entries_put_of_none hne h, List.filterMap_append, ← placesWhere]
  cases hp : p entry <;> simp [hp, Place.key]

/-- A file is put at a place of its own, or in the place of another file. -/
theorem placesWhere_put_file {p : Entry → Bool} {bytes : ByteArray}
    (hp : ∀ old, p (.file old) = p (.file bytes)) (hne : place ≠ [])
    (h : t.isDirectory place = false) :
    (t.put place (.file bytes)).placesWhere p = t.placesWhere p ∨
      (t.put place (.file bytes)).placesWhere p =
        t.placesWhere p ++ if p (.file bytes) then [place] else [] := by
  cases hold : t.find? place with
  | none => exact .inr (placesWhere_put_of_none hne hold _ p)
  | some entry =>
    cases entry with
    | directory => exact absurd hold (find?_ne_of_isDirectory h)
    | closed =>
      rw [isDirectory_iff.mpr (.inr hold)] at h
      cases h
    | file old =>
      rw [find?_of_ne_nil hne] at hold
      exact .inl (Table.filterMap_putIn hold (by simp only [hp old]))

theorem placesWhere_makeAlong {p : Entry → Bool} (hp : p .directory = false) {isMade : Bool}
    (hplace : t.find? place = some .directory) :
    (t.makeAlong isMade place names).1.placesWhere p = t.placesWhere p := by
  refine makeAlong_preserves (P := fun after => after.placesWhere p = t.placesWhere p) rfl hplace ?_
  intro made place hmade _ name _ _ _ hmissing
  rw [placesWhere_put_of_none (by simp) hmissing, hp, hmade]
  exact List.append_nil _

/-- A write adds nothing but directories and the file that it writes. -/
theorem placesWhere_write {p : Entry → Bool} (hdirectory : p .directory = false)
    (hfiles : ∀ bytes bytes', p (.file bytes) = p (.file bytes'))
    (h : t.write path text = (t', .ok ())) :
    t'.placesWhere p = t.placesWhere p ∨
      t'.placesWhere p = t.placesWhere p ++ if p (.file text.toUTF8) then [t.placeOf path] else [] := by
  obtain ⟨made, target, hmade, htarget, rfl⟩ := exists_of_write h
  obtain ⟨names, name, parent, hfile, rfl⟩ := namesFile_of_fileTarget htarget
  have hhome : made.home = t.home := by
    rw [← t.home_makeParent path, hmade]
  have hstart : made.start path = t.start path := by rw [start, start, hhome]
  have halong := makeAlong_of_makeParent hfile.segments hfile.isStay hmade
  have hopen : t.find? (t.start path) = some .directory := by
    refine find?_of_makeAlong halong ?_
    rw [← hstart]
    exact find?_start_of_foldlM hfile.leads hfile.isParent
  have hmade : made.placesWhere p = t.placesWhere p := by
    rw [← placesWhere_makeAlong hdirectory hopen, halong]
  have hplace : t.placeOf path = parent ++ [name] := by
    rw [← hfile.placeOf_eq, placeOf, placeOf, hstart]
  rw [hplace, ← hmade]
  exact placesWhere_put_file (fun _ => hfiles _ _) (by simp) hfile.notDirectory

theorem files_write (h : t.write path text = (t', .ok ())) :
    t'.files = t.files ∨ t'.files = t.files ++ [t.placeOf path] :=
  placesWhere_write (p := Entry.isFile) rfl (fun _ _ => rfl) h

/-- A write closes no directory and opens none. -/
theorem closed_write (h : t.write path text = (t', .ok ())) : t'.closed = t.closed := by
  rcases placesWhere_write (p := Entry.isClosed) rfl (fun _ _ => rfl) h with hclosed | hclosed
  · exact hclosed
  · exact hclosed.trans (List.append_nil _)

/-! ### Reading after a write -/

theorem placeOf_of_resolve {other : String} (h : t.resolve other = .ok place) :
    t.placeOf other = place := by
  obtain ⟨⟨⟩, -, hleads⟩ := except_bind_eq_ok_iff.mp h
  exact foldlM_step_eq_ok hleads

theorem Extends.resolve (h : Extends t t') {other : String} (hother : t.resolve other = .ok place) :
    t'.resolve other = .ok place := by
  obtain ⟨⟨⟩, hcheck, hleads⟩ := except_bind_eq_ok_iff.mp hother
  refine except_bind_eq_ok_iff.mpr ⟨(), hcheck, ?_⟩
  rw [h.start_eq]
  exact h.foldlM_step hleads

theorem Written.toExtends (h : t.Written path text t') : Extends t t' where
  home := h.home
  directory q hq := by
    have hne : q ≠ t.placeOf path := by
      rintro rfl
      exact find?_ne_of_isDirectory h.notDirectory.2 hq
    rw [h.find?, if_neg hne, hq]
    split <;> rfl
  isSome q hq := by
    rw [h.find?]
    repeat' split
    all_goals first | rfl | exact hq

/-- A text that is read from elsewhere is read from there also after a write. -/
theorem Written.read_of_ne (h : t.Written path text t') {other content : String}
    (hread : t.read other = .ok content) (hne : t.placeOf other ≠ t.placeOf path) :
    t'.read other = .ok content := by
  obtain ⟨place, hplace, hcontent⟩ := except_bind_eq_ok_iff.mp hread
  have hfile : ∃ bytes, t.find? place = some (.file bytes) := by
    split at hcontent
    · exact ⟨_, ‹_›⟩
    · cases hcontent
    · cases hcontent
    · cases hcontent
  obtain ⟨bytes, hbytes⟩ := hfile
  -- A place on the way to the output was missing or a directory, so no file has been replaced.
  have hway : place ∉ t.placesBefore path := by
    intro hmem
    rcases h.free place hmem with hnone | hdirectory
    · rw [hbytes] at hnone
      cases hnone
    · rw [hbytes] at hdirectory
      cases hdirectory
  have hsame : t'.find? place = t.find? place := by
    rw [h.find?, if_neg (placeOf_of_resolve hplace ▸ hne), if_neg hway]
  refine except_bind_eq_ok_iff.mpr ⟨place, h.toExtends.resolve hplace, ?_⟩
  rw [hsame]
  exact hcontent

theorem loadAll_of_forall {paths : List String} {sources : List Source}
    (h : ∀ other ∈ paths, ∀ source, t.load other = .ok source → t'.load other = .ok source)
    (hload : t.loadAll paths = .ok sources) : t'.loadAll paths = .ok sources := by
  rw [loadAll] at hload ⊢
  induction paths generalizing sources with
  | nil => exact hload
  | cons other paths ih =>
    simp only [List.mapM_cons, except_bind_eq_ok_iff] at hload ⊢
    obtain ⟨source, hsource, rest, hrest, hsources⟩ := hload
    exact ⟨source, h other (by simp) source hsource, rest,
      ih (fun p hp => h p (by simp [hp])) hrest, hsources⟩

end FileTree

/-! ### The paths of a scan -/

/-- A name that a file can have: it is not empty, it is not made of the dots that stay in place or
go up, and it has no slash. -/
structure FilePath.IsName (name : String) : Prop where
  isStay : FilePath.isStay name = false
  notUp : name ≠ ".."
  noSlash : '/' ∉ name.toList

/-- The files of a tree have names that files can have, as have the directories that they are in. -/
def FileTree.HasNames (t : FileTree) : Prop :=
  ∀ place ∈ t.files, ∀ name ∈ place, FilePath.IsName name

theorem FileTree.start_append {directory : String} (hne : directory ≠ "") (t : FileTree)
    (rest : String) : t.start (directory ++ rest) = t.start directory := by
  obtain ⟨c, cs, hcs⟩ := List.exists_cons_of_ne_nil (l := directory.toList) (by simpa using hne)
  rw [start, start, String.toList_append, hcs]
  rfl

theorem FileTree.placeOf_join {name : String} (hname : FilePath.IsName name) (t : FileTree)
    (directory : String) :
    t.placeOf (FilePath.join directory name) = t.placeOf directory ++ [name] := by
  have hfollow := Place.follow_of_proper hname.isStay hname.notUp
  have hstay : ∀ place, Place.follow place "" = place := Place.follow_of_isStay rfl
  rw [FilePath.join]
  split
  case isTrue h =>
    rw [Bool.or_eq_true, beq_iff_eq] at h
    rcases h with hempty | hslash
    · obtain rfl : directory = "" := by simpa using hempty
      have hsegments : FilePath.segments name = [name] := by
        have hone : FilePath.segments ("/".intercalate [name]) = [name] :=
          FilePath.segments_intercalate (by simp) (by simpa using hname.noSlash)
        simpa using hone
      have hhead : name.toList.head? ≠ some '/' := fun h => hname.noSlash (List.mem_of_head? h)
      have hstart : t.start name = t.start "" := start_congr (by simpa using hhead)
      have hroot : FilePath.segments "" = [""] := by decide
      rw [String.empty_append, placeOf, placeOf, hsegments, hroot, hstart, List.foldl_cons,
        List.foldl_cons, hfollow, hstay]
      rfl
    · obtain ⟨front, rfl⟩ : ∃ front : String, directory = front ++ "/" := by
        obtain ⟨cs, hcs⟩ := List.getLast?_eq_some_iff.mp hslash
        exact ⟨String.ofList cs, by rw [← String.toList_inj, hcs]; simp⟩
      have hfront : FilePath.segments (front ++ "/" ++ "") = FilePath.segments front ++ [""] :=
        FilePath.segments_append_slash (by simp) front
      rw [String.append_empty] at hfront
      rw [placeOf, placeOf, t.start_append (by simp), FilePath.segments_append_slash hname.noSlash,
        hfront, List.foldl_append, List.foldl_append]
      simp only [List.foldl_cons, List.foldl_nil, hfollow, hstay]
  case isFalse h =>
    have hne : directory ≠ "" := by
      rintro rfl
      exact h rfl
    rw [placeOf, placeOf, String.append_assoc, t.start_append hne, ← String.append_assoc,
      FilePath.segments_append_slash hname.noSlash, List.foldl_append]
    simp only [List.foldl_cons, List.foldl_nil, hfollow]

namespace Scanner

variable {s : Scanner} {t t' : FileTree} {root place : Place} {path text : String}

/-- The scan of a tree finds the file at a place: it selects the file under its root. -/
def Finds (s : Scanner) (t : FileTree) (place : Place) : Prop :=
  ∃ root, t.resolve s.root = .ok root ∧ place ∈ s.selected t root

theorem mem_inWalkOrder {places : List Place} : place ∈ inWalkOrder places ↔ place ∈ places :=
  List.mem_mergeSort

theorem mem_selected_iff : place ∈ s.selected t root ↔ place ∈ t.files ∧ s.selects root place = true := by
  rw [selected, mem_inWalkOrder, List.mem_filter]

/-- The path that a scan gives to a file leads to the file. -/
theorem placeOf_pathOf (hnames : t.HasNames) (hroot : t.resolve s.root = .ok root)
    (hplace : place ∈ s.selected t root) : t.placeOf (s.pathOf root place) = place := by
  obtain ⟨hfile, hselects⟩ := mem_selected_iff.mp hplace
  have hjoin : ∀ (names : List String) (directory : String),
      (∀ name ∈ names, FilePath.IsName name) →
      t.placeOf (names.foldl FilePath.join directory) = t.placeOf directory ++ names := by
    intro names
    induction names with
    | nil => simp
    | cons name names ih =>
      intro directory h
      rw [List.foldl_cons, ih _ fun n hn => h n (by simp [hn]),
        FileTree.placeOf_join (h name (by simp)), List.append_assoc, List.singleton_append]
  simp only [selects, Bool.and_eq_true, List.isPrefixOf_iff_prefix] at hselects
  obtain ⟨rest, rfl⟩ := hselects.1.1
  rw [pathOf, List.drop_left, hjoin, FileTree.placeOf_of_resolve hroot]
  exact fun name hname => hnames _ hfile name (by simp [hname])

theorem selected_of_write (hwrite : t.write path text = (t', .ok ()))
    (hout : t.placeOf path ∉ s.selected t' root) : s.selected t' root = s.selected t root := by
  rcases FileTree.files_write hwrite with hfiles | hfiles
  · rw [selected, selected, hfiles]
  · have hskipped : s.selects root (t.placeOf path) = false := by
      rw [mem_selected_iff, hfiles] at hout
      simpa using hout
    have hnone : [t.placeOf path].filter (s.selects root) = [] := by simp [hskipped]
    rw [selected, selected, hfiles, List.filter_append, hnone, List.append_nil]

/-- A scan that does not find a file that has been written finds what it found before. -/
theorem scan_of_write {paths : List String} (hscan : s.scan t = .ok paths)
    (hwrite : t.write path text = (t', .ok ())) (hout : ¬s.Finds t' (t.placeOf path)) :
    s.scan t' = .ok paths := by
  obtain ⟨root, hroot, hpaths⟩ := except_bind_eq_ok_iff.mp hscan
  have hroot' := (FileTree.written_of_write hwrite).toExtends.resolve hroot
  refine except_bind_eq_ok_iff.mpr ⟨root, hroot', ?_⟩
  rw [selected_of_write hwrite fun hmem => hout ⟨root, hroot', hmem⟩]
  exact hpaths

/-- A scan warns of the same directories after a write as before. -/
theorem warnings_of_write {paths : List String} (hscan : s.scan t = .ok paths)
    (hwrite : t.write path text = (t', .ok ())) : s.warnings t' = s.warnings t := by
  obtain ⟨root, hroot, -⟩ := except_bind_eq_ok_iff.mp hscan
  have hroot' := (FileTree.written_of_write hwrite).toExtends.resolve hroot
  simp only [warnings, hroot, hroot', refused, FileTree.closed_write hwrite]

/-- The files that a scan finds have the same texts after a write to another file. -/
theorem loadAll_of_write {paths : List String} {sources : List Source} (hnames : t.HasNames)
    (hscan : s.scan t = .ok paths) (hwrite : t.write path text = (t', .ok ()))
    (hout : ¬s.Finds t' (t.placeOf path)) (hload : t.loadAll paths = .ok sources) :
    t'.loadAll paths = .ok sources := by
  have hwritten := FileTree.written_of_write hwrite
  obtain ⟨root, hroot, hpaths⟩ := except_bind_eq_ok_iff.mp hscan
  obtain rfl := Except.ok.inj hpaths
  have hroot' := hwritten.toExtends.resolve hroot
  refine FileTree.loadAll_of_forall (fun other hother source hsource => ?_) hload
  obtain ⟨place, hplace, rfl⟩ := List.mem_map.mp hother
  have hne : t.placeOf (s.pathOf root place) ≠ t.placeOf path := by
    rw [placeOf_pathOf hnames hroot hplace]
    rintro rfl
    refine hout ⟨root, hroot', ?_⟩
    rw [selected_of_write hwrite fun hmem => hout ⟨root, hroot', hmem⟩]
    exact hplace
  rw [FileTree.load] at hsource ⊢
  split at hsource
  · rename_i content hread
    rw [hwritten.read_of_ne hread hne]
    exact hsource
  · cases hsource

end Scanner

/-! ### Runs -/

namespace Arguments

variable {args : Arguments} {t : FileTree}

theorem exists_prepares (hok : (args.run t).result = .ok ()) :
    ∃ paths sources generated, args.Prepares t paths sources generated := by
  rcases failsBeforeWriting_or_prepares args t with ⟨e, hfails⟩ | hprepares
  · rw [(run_of_failsBeforeWriting hfails).1] at hok
    cases hok
  · exact hprepares

/-- After a run that succeeds, and whose output is no source of a further run, a second run comes to
write the same document. -/
theorem prepares_again (hnames : t.HasNames) (hok : (args.run t).result = .ok ())
    (hout : ¬args.scanner.Finds (args.run t).tree ((args.run t).tree.placeOf args.outputFile)) :
    ∃ paths sources generated, args.Prepares t paths sources generated ∧
      args.Prepares (args.run t).tree paths sources generated ∧
      t.write args.outputFile generated.text = ((args.run t).tree, .ok ()) := by
  obtain ⟨paths, sources, generated, hprepares⟩ := exists_prepares hok
  have hwrite : t.write args.outputFile generated.text = ((args.run t).tree, .ok ()) := by
    rw [← hprepares.run_eq, hok]
  have hplace : (args.run t).tree.placeOf args.outputFile = t.placeOf args.outputFile := by
    rw [FileTree.placeOf, FileTree.placeOf, (FileTree.written_of_write hwrite).toExtends.start_eq]
  rw [hplace] at hout
  exact ⟨paths, sources, generated, hprepares,
    { scan := Scanner.scan_of_write hprepares.scan hwrite hout
      load := Scanner.loadAll_of_write hnames hprepares.scan hwrite hout hprepares.load
      generate := hprepares.generate }, hwrite⟩

/-- A run can be repeated. If a run succeeds, and the scan of the tree that it leaves does not find
its output, a second run with the same arguments succeeds and leaves all files as they are. -/
theorem run_idempotent (hnames : t.HasNames) (hok : (args.run t).result = .ok ())
    (hout : ¬args.scanner.Finds (args.run t).tree ((args.run t).tree.placeOf args.outputFile)) :
    (args.run (args.run t).tree).result = .ok () ∧
      (args.run (args.run t).tree).tree = (args.run t).tree := by
  obtain ⟨paths, sources, generated, -, hagain, hwrite⟩ := prepares_again hnames hok hout
  have hrun := hagain.run_eq
  rw [FileTree.write_again hwrite] at hrun
  exact ⟨congrArg Prod.snd hrun, congrArg Prod.fst hrun⟩

/-- The output has a wanted extension and is under the root of the scan, but in a hidden directory
that the first run makes. -/
theorem run_idempotent_hidden_output :
    let args : Arguments :=
      { title := "T", host := "h", controllerDir := "c", outputFile := "c/out/../.x/d.js" }
    let tree := (({} : FileTree).put ["c"] .directory).put ["c", "a.js"]
      (.file "/**\n@api {get} /:i It\n*/".toUTF8)
    tree.HasNames ∧ (args.run tree).result = .ok () ∧
      (args.run tree).tree.files = [["c", "a.js"], ["c", ".x", "d.js"]] ∧
      ¬args.scanner.Finds (args.run tree).tree ((args.run tree).tree.placeOf args.outputFile) ∧
      (args.run (args.run tree).tree).result = .ok () ∧
      (args.run (args.run tree).tree).tree = (args.run tree).tree := by
  intro args tree
  have hfiles : tree.files = [["c", "a.js"]] := by decide +kernel
  have hnames : tree.HasNames := by
    intro place hplace name hname
    rw [hfiles, List.mem_singleton] at hplace
    subst hplace
    simp only [List.mem_cons, List.not_mem_nil, or_false] at hname
    rcases hname with rfl | rfl
    · exact ⟨by decide, by decide, by decide⟩
    · exact ⟨by decide, by decide, by decide⟩
  have hok : (args.run tree).result = .ok () := except_eq_ok_of_toOption (by decide +kernel)
  have hout : ¬args.scanner.Finds (args.run tree).tree
      ((args.run tree).tree.placeOf args.outputFile) := by
    rintro ⟨root, hroot, hmem⟩
    have hresolve : (args.run tree).tree.resolve args.scanner.root = .ok ["c"] :=
      except_eq_ok_of_toOption (by decide +kernel)
    obtain rfl : ["c"] = root := Except.ok.inj (hresolve.symm.trans hroot)
    revert hmem
    decide +kernel
  exact ⟨hnames, hok, by decide +kernel, hout, run_idempotent hnames hok hout⟩

/-- A run that is repeated tells what it told the first time. -/
theorem log_run_again (hnames : t.HasNames) (hok : (args.run t).result = .ok ())
    (hout : ¬args.scanner.Finds (args.run t).tree ((args.run t).tree.placeOf args.outputFile)) :
    (args.run (args.run t).tree).log = (args.run t).log := by
  obtain ⟨paths, sources, generated, hprepares, hagain, hwrite⟩ := prepares_again hnames hok hout
  have hokAgain : (args.run (args.run t).tree).result = .ok () := by
    have hrun := hagain.run_eq
    rw [FileTree.write_again hwrite] at hrun
    exact congrArg Prod.snd hrun
  rw [log_of_prepares hprepares hok, log_of_prepares hagain hokAgain,
    Scanner.warnings_of_write hprepares.scan hwrite]

end Arguments

end RouteDoc
