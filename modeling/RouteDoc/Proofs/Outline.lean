import RouteDoc.Document.Fragment
import RouteDoc.Text.Line

/-! The outline of a text. How many spaces stand before a line says which line it is under, so the
lines at one depth divide the lines between them into sections. A layout keeps its rows apart and
their depths as they are, if no row has a line feed. -/

namespace RouteDoc.Text

/-- The text has no line feed. -/
def OneLine (text : String) : Prop := '\n' ∉ text.toList

/-- The number of spaces at the start of a line. -/
def depth (line : String) : Nat := (line.toList.takeWhile (· == ' ')).length

/-- Whether a line is not blank and has exactly `n` spaces at its start. -/
def isAt (n : Nat) (line : String) : Bool := !isBlankText line.toList && depth line == n

/-- A line that is blank or has at least `n` spaces at its start. -/
def Deep (n : Nat) (line : String) : Prop := isBlankText line.toList = true ∨ n ≤ depth line

/-- What stands between the line feeds of a text. -/
def pieces (text : String) : List String := (text.toList.splitOn '\n').map String.ofList

/-- The lines at depth `n`, each with the lines between it and the next of them. -/
def sections (n : Nat) : List String → List (String × List String)
  | [] => []
  | line :: rest =>
    if isAt n line then (line, rest.takeWhile (!isAt n ·)) :: sections n rest
    else sections n rest

/-- A row without white space at its end. -/
def trimmed (row : String) : String := String.ofList (trimEnd row.toList)

instance (text : String) : Decidable (OneLine text) :=
  inferInstanceAs (Decidable ('\n' ∉ text.toList))

theorem OneLine.append {s t : String} (hs : OneLine s) (ht : OneLine t) : OneLine (s ++ t) := by
  simp only [OneLine, String.toList_append, List.mem_append, not_or]
  exact ⟨hs, ht⟩

theorem OneLine.of_subset {s t : String} (ht : OneLine t) (h : ∀ c ∈ s.toList, c ∈ t.toList) :
    OneLine s :=
  fun hs => ht (h _ hs)

/-- The start of a row is `n` spaces. -/
def Indented (n : Nat) (row : String) : Prop := List.replicate n ' ' <+: row.toList

instance (n : Nat) (row : String) : Decidable (Indented n row) :=
  inferInstanceAs (Decidable (_ <+: _))

theorem Indented.append {n : Nat} {s : String} (h : Indented n s) (t : String) :
    Indented n (s ++ t) := by
  rw [Indented, String.toList_append]
  exact h.trans (List.prefix_append _ _)

theorem indented_iff {n : Nat} {row : String} : Indented n row ↔ n ≤ depth row := by
  constructor
  · rintro ⟨rest, hrest⟩
    have hsp : ∀ c ∈ List.replicate n ' ', (c == ' ') = true := by simp
    rw [depth, ← hrest, List.takeWhile_append_of_pos hsp]
    simp
  · intro h
    have hrun : row.toList.takeWhile (· == ' ') = List.replicate (depth row) ' ' := by
      refine List.eq_replicate_iff.mpr ⟨rfl, fun c hc => ?_⟩
      simpa using List.all_eq_true.mp List.all_takeWhile c hc
    have hshort : List.replicate n ' ' <+: List.replicate (depth row) ' ' :=
      List.prefix_replicate_iff.mpr ⟨by simpa using h, by simp⟩
    exact hshort.trans (hrun ▸ List.takeWhile_prefix _)

theorem Indented.deep {n : Nat} {row : String} (h : Indented n row) : Deep n row :=
  .inr (indented_iff.mp h)

theorem Deep.mono {m n : Nat} {line : String} (h : Deep n line) (hmn : m ≤ n) : Deep m line := by
  rcases h with h | h
  · exact .inl h
  · exact .inr (by omega)

theorem deep_of_isAt {m n : Nat} {line : String} (h : isAt n line = true) (hmn : m ≤ n) :
    Deep m line := by
  simp only [isAt, Bool.and_eq_true, beq_iff_eq] at h
  exact .inr (by omega)

/-- A line is at one depth only. -/
theorem isAt_unique {m n : Nat} {line : String} (h : isAt n line = true) (hne : m ≠ n) :
    isAt m line = false := by
  simp only [isAt, Bool.and_eq_true, beq_iff_eq] at h
  have hdepth : depth line ≠ m := by omega
  simp [isAt, hdepth]

theorem isAt_of_deep {m n : Nat} {line : String} (h : Deep n line) (hmn : m < n) :
    isAt m line = false := by
  rcases h with h | h
  · simp [isAt, h]
  · have hne : depth line ≠ m := by omega
    simp [isAt, hne]

/-- A line is at the depth `n` if a character that is not white space follows `n` spaces. -/
theorem isAt_of_toList {n : Nat} {line : String} {c : Char} {rest : List Char}
    (h : line.toList = List.replicate n ' ' ++ c :: rest) (hc : isBlank c = false) :
    isAt n line = true := by
  have hsp : ∀ c ∈ List.replicate n ' ', (c == ' ') = true := by simp
  have hne : (c == ' ') = false := by
    rw [beq_eq_false_iff_ne]
    rintro rfl
    exact absurd hc (by decide)
  have hdepth : depth line = n := by
    rw [depth, h, List.takeWhile_append_of_pos hsp]
    simp [hne]
  simp [isAt, isBlankText, hdepth, h, hc]

/-! ### Sections -/

theorem sections_append_of_forall {n : Nat} {before : List String}
    (h : ∀ line ∈ before, isAt n line = false) (rest : List String) :
    sections n (before ++ rest) = sections n rest := by
  induction before with
  | nil => rfl
  | cons line before ih =>
    have hline : isAt n line = false := h line (by simp)
    simp only [List.cons_append, sections, hline, Bool.false_eq_true, if_false]
    exact ih fun l hl => h l (by simp [hl])

/-- Lines that are put together from sections have these sections. -/
theorem sections_flatMap {n : Nat} {parts : List (String × List String)}
    (h : ∀ s ∈ parts, isAt n s.1 = true ∧ ∀ line ∈ s.2, isAt n line = false) :
    sections n (parts.flatMap fun s => s.1 :: s.2) = parts := by
  induction parts with
  | nil => rfl
  | cons s parts ih =>
    obtain ⟨hkey, hbody⟩ := h s (by simp)
    have hrest := ih fun t ht => h t (by simp [ht])
    -- the section ends where the next one starts
    have hstop : (parts.flatMap fun s => s.1 :: s.2).takeWhile (!isAt n ·) = [] := by
      cases parts with
      | nil => rfl
      | cons t parts =>
        have ht : isAt n t.1 = true := (h t (by simp)).1
        simp [ht]
    have hbody' : ∀ line ∈ s.2, (!isAt n line) = true := fun line hl => by simp [hbody line hl]
    rw [List.flatMap_cons, List.cons_append, sections, if_pos hkey,
      sections_append_of_forall hbody, hrest, List.takeWhile_append_of_pos hbody', hstop,
      List.append_nil]

theorem filter_flatMap_sections {n : Nat} {parts : List (String × List String)}
    (h : ∀ s ∈ parts, isAt n s.1 = true ∧ ∀ line ∈ s.2, isAt n line = false) :
    (parts.flatMap fun s => s.1 :: s.2).filter (isAt n) = parts.map Prod.fst := by
  induction parts with
  | nil => rfl
  | cons s parts ih =>
    obtain ⟨hkey, hbody⟩ := h s (by simp)
    have hnone : s.2.filter (isAt n) = [] :=
      List.filter_eq_nil_iff.mpr fun line hl => by simp [hbody line hl]
    rw [List.flatMap_cons, List.filter_append, List.filter_cons_of_pos hkey, hnone,
      ih fun t ht => h t (by simp [ht])]
    rfl

/-- A section goes up to the next line at its depth. -/
theorem sections_cons_append {n : Nat} {key next : String} {below : List String}
    (hkey : isAt n key = true) (hbelow : ∀ line ∈ below, isAt n line = false)
    (hnext : isAt n next = true) (rest : List String) :
    sections n (key :: (below ++ next :: rest)) = (key, below) :: sections n (next :: rest) := by
  have hbelow' : ∀ line ∈ below, (!isAt n line) = true := fun line hl => by simp [hbelow line hl]
  rw [sections, if_pos hkey, sections_append_of_forall hbelow, List.takeWhile_append_of_pos hbelow']
  simp [hnext]

/-- The last section goes up to the end. -/
theorem sections_cons_of_forall {n : Nat} {key : String} {below : List String}
    (hkey : isAt n key = true) (hbelow : ∀ line ∈ below, isAt n line = false) :
    sections n (key :: below) = [(key, below)] := by
  have hpart : ∀ part ∈ [(key, below)], isAt n part.1 = true ∧ ∀ line ∈ part.2, isAt n line = false :=
    fun part hmem => List.mem_singleton.mp hmem ▸ ⟨hkey, hbelow⟩
  simpa using sections_flatMap hpart

/-- Lines before which the key does not stand are passed over in the search for its section. -/
theorem find?_sections_append {n : Nat} {key : String} {before : List String} (h : key ∉ before)
    (rest : List String) :
    (sections n (before ++ rest)).find? (·.1 = key) = (sections n rest).find? (·.1 = key) := by
  induction before with
  | nil => rfl
  | cons line before ih =>
    simp only [List.mem_cons, not_or] at h
    rw [List.cons_append, sections]
    split
    · rw [List.find?_cons_of_neg (by simpa using Ne.symm h.1), ih h.2]
    · exact ih h.2

theorem find?_sections_eq_none {n : Nat} {key : String} {lines : List String} (h : key ∉ lines) :
    (sections n lines).find? (·.1 = key) = none := by
  have hfind := find?_sections_append (n := n) h []
  rwa [List.append_nil] at hfind

/-- The lines of a text come back between its line feeds, with nothing after the last. -/
theorem pieces_unlines {lines : List String} (h : ∀ line ∈ lines, OneLine line)
    (hne : lines ≠ []) : pieces (unlines lines) = lines ++ [""] := by
  have hjoin : unlines lines = "\n".intercalate (lines ++ [""]) := by
    rw [String.intercalate_append_of_ne_nil hne (by simp)]
    simp [unlines]
  rw [pieces, hjoin, String.toList_intercalate]
  change (List.splitOn '\n' (['\n'].intercalate _)).map _ = _
  rw [List.splitOn_intercalate '\n' ?_ (by simp)]
  · simp
  · intro l hl
    obtain ⟨line, hline, rfl⟩ := List.mem_map.mp hl
    rcases List.mem_append.mp hline with hline | hline
    · exact h line hline
    · simp_all

/-! ### Layouts -/

theorem dropEndWhile_append {p : Char → Bool} (a b : List Char) :
    dropEndWhile p (a ++ b) =
      if dropEndWhile p b = [] then dropEndWhile p a else a ++ dropEndWhile p b := by
  simp only [dropEndWhile, List.reverse_append, List.dropWhile_append, List.reverse_eq_nil_iff,
    List.isEmpty_iff]
  split <;> simp

theorem trimEnd_of_all {cs : List Char} (h : isBlankText cs = true) : trimEnd cs = [] := by
  have h' : ∀ c ∈ cs, isBlank c = true := List.all_eq_true.mp h
  exact dropEndWhile_append_of_all h' []

/-- White space at the end is all that a row loses, so a row that is not blank keeps its depth. -/
theorem Deep.trimmed {n : Nat} {row : String} (h : Deep n row) : Deep n (trimmed row) := by
  have hblank : ∀ {cs : List Char}, trimEnd cs = [] → Deep n (String.ofList (trimEnd cs)) := by
    intro cs hcs
    exact .inl (by simp [hcs, isBlankText])
  rcases h with h | h
  · exact hblank (trimEnd_of_all h)
  · obtain ⟨rest, hrest⟩ := indented_iff.mpr h
    have hsp : trimEnd (List.replicate n ' ') = [] := trimEnd_of_all (by
      simp only [isBlankText, List.all_replicate]
      split <;> decide)
    have htrim := dropEndWhile_append (p := isBlank) (List.replicate n ' ') rest
    rw [hrest] at htrim
    split at htrim
    · exact hblank (htrim.trans hsp)
    · refine Indented.deep ⟨dropEndWhile isBlank rest, ?_⟩
      rw [Text.trimmed, String.toList_ofList]
      exact htrim.symm

theorem trimmed_subset (row : String) : ∀ c ∈ (trimmed row).toList, c ∈ row.toList := by
  intro c hc
  simp only [trimmed, String.toList_ofList, trimEnd, dropEndWhile, List.mem_reverse] at hc
  exact List.mem_reverse.mp (List.dropWhile_subset _ hc)

theorem trimmed_isPrefix (row : String) : (trimmed row).toList <+: row.toList := by
  rw [trimmed, String.toList_ofList]
  exact dropEndWhile_isPrefix isBlank row.toList

/-- A row that ends with a character other than white space stays as it is. -/
theorem trimmed_append_singleton {s t : String} {c : Char} (ht : t.toList = [c])
    (hc : isBlank c = false) : trimmed (s ++ t) = s ++ t := by
  rw [trimmed, String.toList_append, ht, trimEnd, dropEndWhile_append_singleton hc, ← ht,
    ← String.toList_append, String.ofList_toList]

theorem layout_cons {row : String} (h : OneLine row) (rows : List String) :
    layout (row :: rows) = trimmed row :: layout rows := by
  have hrow : row.toList.splitOn '\n' = [row.toList] := List.splitOn_eq_singleton h
  rw [layout, List.flatMap_cons, hrow, ← layout]
  rfl

theorem layout_eq {rows : List String} (h : ∀ row ∈ rows, OneLine row) :
    layout rows = rows.map trimmed := by
  induction rows with
  | nil => rfl
  | cons row rows ih =>
    rw [layout_cons (h row (by simp)), ih fun r hr => h r (by simp [hr]), List.map_cons]

/-- The lines of a layout whose rows are deep are deep. -/
theorem layout_deep {n : Nat} {rows : List String} (h : ∀ row ∈ rows, OneLine row ∧ Deep n row) :
    ∀ line ∈ layout rows, OneLine line ∧ Deep n line := by
  rw [layout_eq fun row hrow => (h row hrow).1]
  intro line hline
  obtain ⟨row, hrow, rfl⟩ := List.mem_map.mp hline
  exact ⟨(h row hrow).1.of_subset (trimmed_subset row), (h row hrow).2.trimmed⟩

end RouteDoc.Text
