import Mathlib.Data.List.Nodup
import RouteDoc.Proofs.Rerun

/-! Trees that can be: what stands somewhere stands in a directory, and has a name that a file can
have. The table of a file tree could hold any places. That it is a tree is an invariant: it is kept
when something is put into a directory, and so by a run, however the run ends. -/

namespace RouteDoc

namespace FileTree

/-- The tree is one: each file and each directory stands in a directory that is there, and has a
name that a file can have. -/
def IsTree (t : FileTree) : Prop :=
  ∀ e ∈ t.entries.entries, ∃ directory name, e.1 = Place.key (directory ++ [name]) ∧
    t.find? directory = some .directory ∧ FilePath.IsName name

instance (name : String) : Decidable (FilePath.IsName name) :=
  decidable_of_iff (FilePath.isStay name = false ∧ name ≠ ".." ∧ '/' ∉ name.toList)
    ⟨fun h => ⟨h.1, h.2.1, h.2.2⟩, fun h => ⟨h.isStay, h.notUp, h.noSlash⟩⟩

theorem isTree_iff (t : FileTree) : t.IsTree ↔ ∀ e ∈ t.entries.entries,
    e.1 = Place.key e.1.2 ∧ ∃ name ∈ e.1.2.getLast?, t.enter e.1.2.dropLast = .ok () ∧
      FilePath.IsName name := by
  refine forall₂_congr fun e _ => ⟨?_, ?_⟩
  · rintro ⟨directory, name, hkey, hdirectory, hname⟩
    rw [hkey, Place.key]
    exact ⟨rfl, name, by simp, by simpa [enter_eq_ok_iff] using hdirectory, hname⟩
  · rintro ⟨hkey, name, hlast, hdirectory, hname⟩
    refine ⟨e.1.2.dropLast, name, ?_, enter_eq_ok_iff.mp hdirectory, hname⟩
    rwa [List.dropLast_append_getLast? name hlast]

instance (t : FileTree) : Decidable t.IsTree :=
  decidable_of_iff _ (isTree_iff t).symm

/-- A file stands at the place. -/
def HasFile (t : FileTree) (place : Place) : Prop := ∃ bytes, t.find? place = some (.file bytes)

variable {t t' : FileTree} {place above : Place} {name : String} {below : List String}
  {entry : Entry}

theorem mem_entries_iff (hne : place ≠ []) :
    (Place.key place, entry) ∈ t.entries.entries ↔ t.find? place = some entry := by
  rw [Table.mem_entries_iff, find?_of_ne_nil hne]
  rfl

theorem HasFile.not_directory (h : t.HasFile place) : t.isDirectory place = false := by
  obtain ⟨bytes, h⟩ := h
  rw [isDirectory, h]

/-- A tree is still one after something has been put into one of its directories, save a file in the
place of a directory. -/
theorem IsTree.put (ht : t.IsTree) (habove : t.find? above = some .directory)
    (hname : FilePath.IsName name)
    (hold : entry = .directory ∨ t.isDirectory (above ++ [name]) = false) :
    (t.put (above ++ [name]) entry).IsTree := by
  have hkeep : ∀ q, t.find? q = some .directory →
      (t.put (above ++ [name]) entry).find? q = some .directory := by
    intro q hq
    rw [t.find?_put (by simp)]
    split
    · rename_i h
      subst h
      rcases hold with rfl | hold
      · rfl
      · exact absurd hq (find?_ne_of_isDirectory hold)
    · exact hq
  intro e he
  rcases Table.mem_putIn he with rfl | he
  · exact ⟨above, name, rfl, hkeep above habove, hname⟩
  · obtain ⟨directory, n, hkey, hd, hn⟩ := ht e he
    exact ⟨directory, n, hkey, hkeep directory hd, hn⟩

namespace IsTree

theorem parent (ht : t.IsTree) (h : t.find? (above ++ [name]) = some entry) :
    t.find? above = some .directory ∧ FilePath.IsName name := by
  obtain ⟨directory, n, hkey, hdirectory, hname⟩ := ht _ ((mem_entries_iff (by simp)).mpr h)
  obtain ⟨rfl, hn⟩ := List.append_inj' (Place.key_inj.mp hkey) rfl
  obtain rfl : name = n := by simpa using hn
  exact ⟨hdirectory, hname⟩

/-- Whatever leads to a file or directory is a directory. -/
theorem find?_above (ht : t.IsTree) (hne : below ≠ []) (h : t.find? (above ++ below) = some entry) :
    t.find? above = some .directory := by
  induction below generalizing above with
  | nil => exact absurd rfl hne
  | cons name below ih =>
    cases below with
    | nil => exact (ht.parent h).1
    | cons next below =>
      rw [← List.singleton_append, ← List.append_assoc] at h
      exact (ht.parent (ih (by simp) h)).1

theorem mem_places_iff (ht : t.IsTree) :
    place ∈ t.places ↔ place ≠ [] ∧ ∃ entry, t.find? place = some entry := by
  simp only [places, Table.keys, List.map_map, List.mem_map]
  constructor
  · rintro ⟨⟨key, entry⟩, he, rfl⟩
    obtain ⟨directory, name, rfl, -, -⟩ := ht _ he
    exact ⟨by simp [Place.key], entry, (mem_entries_iff (by simp [Place.key])).mp he⟩
  · rintro ⟨hne, entry, h⟩
    exact ⟨(Place.key place, entry), (mem_entries_iff hne).mpr h, rfl⟩

theorem mem_places_of_hasFile (ht : t.IsTree) (h : t.HasFile (above ++ name :: below)) :
    above ++ [name] ∈ t.places := by
  obtain ⟨bytes, h⟩ := h
  refine ht.mem_places_iff.mpr ⟨by simp, ?_⟩
  cases below with
  | nil => exact ⟨_, h⟩
  | cons next below =>
    rw [List.append_cons] at h
    exact ⟨_, ht.find?_above (by simp) h⟩

/-- On the way to a file there is a directory at each name but the last. -/
theorem isDirectory_iff_of_hasFile (ht : t.IsTree) (h : t.HasFile (above ++ name :: below)) :
    t.isDirectory (above ++ [name]) = true ↔ below ≠ [] := by
  cases below with
  | nil => simp [h.not_directory]
  | cons next below =>
    obtain ⟨bytes, h⟩ := h
    rw [List.append_cons] at h
    simpa using isDirectory_iff.mpr (.inl (ht.find?_above (by simp) h))

/-- Below what is no open directory there is no file. -/
theorem eq_nil_of_hasFile (ht : t.IsTree) (h : t.HasFile (place ++ below))
    (hplace : t.find? place ≠ some .directory) : below = [] := by
  obtain ⟨bytes, h⟩ := h
  by_contra hne
  exact hplace (ht.find?_above hne h)

theorem not_hasFile_append (ht : t.IsTree) (hfile : ¬t.HasFile place)
    (hplace : t.find? place ≠ some .directory) : ¬t.HasFile (place ++ below) := by
  intro h
  rw [ht.eq_nil_of_hasFile h hplace, List.append_nil] at h
  exact hfile h

theorem mem_placesWhere_iff (ht : t.IsTree) {p : Entry → Bool} (hp : p .directory = false) :
    place ∈ t.placesWhere p ↔ ∃ entry, t.find? place = some entry ∧ p entry = true := by
  rw [placesWhere, List.mem_filterMap]
  simp only [Option.ite_none_right_eq_some, Option.some.injEq]
  constructor
  · rintro ⟨⟨key, entry⟩, he, hentry, rfl⟩
    obtain ⟨directory, name, rfl, -, -⟩ := ht _ he
    exact ⟨entry, (mem_entries_iff (by simp [Place.key])).mp he, hentry⟩
  · rintro ⟨entry, h, hentry⟩
    have hne : place ≠ [] := by
      rintro rfl
      obtain rfl : Entry.directory = entry := Option.some.inj h
      rw [hp] at hentry
      cases hentry
    exact ⟨(Place.key place, entry), (mem_entries_iff hne).mpr h, hentry, rfl⟩

theorem mem_files_iff (ht : t.IsTree) : place ∈ t.files ↔ t.HasFile place := by
  rw [files, ht.mem_placesWhere_iff rfl]
  constructor
  · rintro ⟨_ | _ | _, h, hfile⟩
    · exact ⟨_, h⟩
    · cases hfile
    · cases hfile
  · rintro ⟨bytes, h⟩
    exact ⟨.file bytes, h, rfl⟩

theorem mem_closed_iff (ht : t.IsTree) : place ∈ t.closed ↔ t.find? place = some .closed := by
  rw [closed, ht.mem_placesWhere_iff rfl]
  constructor
  · rintro ⟨_ | _ | _, h, hclosed⟩
    · cases hclosed
    · cases hclosed
    · exact h
  · exact fun h => ⟨.closed, h, rfl⟩

theorem nodup_places (ht : t.IsTree) : t.places.Nodup := by
  have hkeys : t.places.map Place.key = t.entries.keys := by
    rw [places, List.map_map]
    refine (List.map_congr_left fun key hkey => ?_).trans (List.map_id _)
    obtain ⟨e, he, rfl⟩ := List.mem_map.mp hkey
    obtain ⟨directory, name, hkey, -, -⟩ := ht e he
    rw [hkey]
    rfl
  refine List.Nodup.of_map Place.key ?_
  rw [hkeys]
  exact t.entries.nodup

theorem nodup_placesWhere (ht : t.IsTree) (p : Entry → Bool) : (t.placesWhere p).Nodup := by
  refine ht.nodup_places.sublist ?_
  rw [placesWhere, places, Table.keys, List.map_map]
  induction t.entries.entries with
  | nil => exact List.Sublist.refl _
  | cons e es ih =>
    cases hp : p e.2 with
    | true => simpa [hp] using ih
    | false => simpa [hp] using ih.cons _

theorem hasNames (ht : t.IsTree) : t.HasNames := by
  intro place hplace name hname
  obtain ⟨bytes, h⟩ := ht.mem_files_iff.mp hplace
  obtain ⟨above, below, rfl⟩ := List.append_of_mem hname
  rw [← List.singleton_append, ← List.append_assoc] at h
  cases below with
  | nil =>
    rw [List.append_nil] at h
    exact (ht.parent h).2
  | cons next below => exact (ht.parent (ht.find?_above (by simp) h)).2

/-! ### Runs -/

theorem makeAlong {isMade : Bool} {names : List String} (ht : t.IsTree)
    (hplace : t.find? place = some .directory) (hnames : ∀ name ∈ names, '/' ∉ name.toList) :
    (t.makeAlong isMade place names).1.IsTree := by
  refine makeAlong_preserves ht hplace fun made place hmade hopen name hname hstay hup _ => ?_
  exact hmade.put hopen ⟨hstay, hup, hnames name hname⟩ (.inl rfl)

theorem makeParent (ht : t.IsTree) (hhome : t.find? t.home = some .directory) (path : String) :
    (t.makeParent path).1.IsTree := by
  have hdirectories : ∀ parent, (t.makeDirectories parent).1.IsTree := by
    intro parent
    have hstart : t.find? (t.start parent) = some .directory := by
      rw [start]
      split
      · rfl
      · exact hhome
    rw [makeDirectories]
    split
    · refine ht.makeAlong hstart fun name hname => ?_
      exact FilePath.not_mem_of_mem_segments (List.mem_of_mem_filter hname)
    · exact ht
  rw [FileTree.makeParent]
  split
  · exact ht
  · split
    · exact ht
    · exact hdirectories _

theorem putBytes {path : String} {bytes : ByteArray} (ht : t.IsTree)
    (h : t.putBytes path bytes = .ok t') : t'.IsTree := by
  obtain ⟨target, htarget, hput⟩ := except_bind_eq_ok_iff.mp h
  obtain rfl := Except.ok.inj hput
  obtain ⟨names, name, parent, hfile, rfl⟩ := namesFile_of_fileTarget htarget
  have hname : name ∈ FilePath.segments path := by simp [hfile.segments]
  have hslash : '/' ∉ name.toList := FilePath.not_mem_of_mem_segments hname
  exact ht.put hfile.isParent ⟨hfile.isStay, hfile.notUp, hslash⟩ (.inr hfile.notDirectory)

theorem write (ht : t.IsTree) (hhome : t.find? t.home = some .directory) (path text : String) :
    (t.write path text).1.IsTree := by
  have hmade := ht.makeParent hhome path
  rcases hparent : t.makeParent path with ⟨made, e | _⟩
  · rw [hparent] at hmade
    simpa only [FileTree.write, hparent] using hmade
  · rw [hparent] at hmade
    cases hput : made.putBytes path text.toUTF8 with
    | error reason => simpa only [FileTree.write, hparent, hput] using hmade
    | ok written => simpa only [FileTree.write, hparent, hput] using hmade.putBytes hput

end IsTree

end FileTree

/-- A run leaves a tree, also when it fails. -/
theorem Arguments.run_isTree {t : FileTree} (ht : t.IsTree)
    (hhome : t.find? t.home = some .directory) (args : Arguments) : (args.run t).tree.IsTree := by
  rcases failsBeforeWriting_or_prepares args t with ⟨e, hfails⟩ | ⟨paths, sources, generated, h⟩
  · rw [(run_of_failsBeforeWriting hfails).2]
    exact ht
  · rw [show (args.run t).tree = _ from congrArg Prod.fst h.run_eq]
    exact ht.write hhome _ _

end RouteDoc
