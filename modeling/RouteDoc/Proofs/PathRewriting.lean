import RouteDoc.Proofs.PathForm
import RouteDoc.Proofs.Provenance

/-! What rewriting does to a path, for all paths at once. The form of the document has no colon
before a word, so rewriting it a second time changes nothing. Where a path has no braces of its own,
the texts between the braces of its form are the names of its parameters, and the path can be read
off its form. -/

namespace RouteDoc.Path

open Text

/-- No brace stands in the path. -/
structure Braceless (path : String) : Prop where
  opening : '{' ∉ path.toList
  closing : '}' ∉ path.toList

instance (path : String) : Decidable (Braceless path) :=
  decidable_of_iff ('{' ∉ path.toList ∧ '}' ∉ path.toList)
    ⟨fun h => ⟨h.1, h.2⟩, fun h => ⟨h.1, h.2⟩⟩

/-- The texts between braces: what follows each opening brace up to the next closing one. -/
def bracedTexts (form : String) : List String :=
  ((afterEach ['{'] form.toList).filterMap fun rest =>
    (divide? ['}'] rest).map Prod.fst).map String.ofList

theorem IsDeclared.braceless {path : String} (h : IsDeclared path) : Braceless path :=
  ⟨fun hc => absurd (h _ hc) (by decide), fun hc => absurd (h _ hc) (by decide)⟩

/-- The path of a route block is made of path characters. -/
theorem isDeclared_of_ofBlock? {b : Block} {d : Draft}
    (h : (Draft.ofBlock? b).result = .ok (some d)) : IsDeclared d.path := by
  obtain ⟨header, hheader, -, hpath, -⟩ := Draft.exists_routeHeader h
  obtain ⟨cs, -, hread⟩ := Tag.scan_eq_some hheader
  intro c hc
  rw [hpath, String.toList_ofList] at hc
  exact (RouteHeader.read?_eq_some hread).1 c hc

/-! ### Between the braces -/

/-- The word of each part stands in braces, and nothing else does. -/
theorem braced_flatMap_placeholder {parts : List (List Char)} (h : ∀ part ∈ parts, '{' ∉ part) :
    ((afterEach ['{'] (parts.flatMap placeholder)).filterMap fun rest =>
      (divide? ['}'] rest).map Prod.fst) = (parts.map word).filter (!·.isEmpty) := by
  induction parts with
  | nil => rfl
  | cons part parts ih =>
    have ih := ih fun p hp => h p (List.mem_cons_of_mem _ hp)
    have hpart : '{' ∉ part := h part (by simp)
    rw [List.flatMap_cons, List.map_cons]
    by_cases hword : word part = []
    · have hcolon : '{' ∉ ':' :: part := by simpa using hpart
      rw [placeholder_of_no_word hword, afterEach_append, afterEach_eq_nil hcolon, List.map_nil,
        List.nil_append, ih, List.filter_cons_of_neg (by simp [hword])]
    · -- the rest of the part has no brace, so the next one is that of a later part
      have hrest : '{' ∉ word part ++ '}' :: afterWord part := by
        rw [← word_append_afterWord part] at hpart
        simp only [List.mem_append, List.mem_cons, not_or] at hpart ⊢
        exact ⟨hpart.1, by decide, hpart.2⟩
      have hclose : '}' ∉ word part := fun hc => absurd (isWord_of_mem_word hc) (by decide)
      have hafter : afterEach ['{'] (placeholder part) = [word part ++ '}' :: afterWord part] := by
        rw [placeholder_of_word hword, List.cons_append, afterEach, afterEach_eq_nil hrest]
        rfl
      have hdivide : ∀ rest, divide? ['}'] (word part ++ '}' :: rest) = some (word part, rest) := by
        intro rest
        rw [List.append_cons]
        exact divide?_append hclose rest
      rw [afterEach_append, hafter, List.map_singleton, List.singleton_append, List.append_assoc,
        List.cons_append, List.filterMap_cons_some (by rw [hdivide]; rfl), ih,
        List.filter_cons_of_pos (by simpa using hword)]

/-- The texts between the braces of a form are the names of the parameters, in order and with
repetitions. -/
theorem bracedTexts_documentForm {path : String} (h : '{' ∉ path.toList) :
    bracedTexts (documentForm path) = parameterNames path := by
  obtain ⟨start, parts, hparts⟩ := exists_parts path
  rw [hparts.declared, List.mem_append, not_or] at h
  have hpieces : ∀ part ∈ parts, '{' ∉ part := fun part hpart hc =>
    h.2 (List.mem_flatMap.mpr ⟨part, hpart, List.mem_cons_of_mem _ hc⟩)
  rw [bracedTexts, hparts.document, hparts.names, afterEach_append, afterEach_eq_nil h.1,
    List.map_nil, List.nil_append, braced_flatMap_placeholder hpieces]

/-! ### Rewriting a second time -/

/-- No colon stands before a word. -/
def Settled (cs : List Char) : Prop :=
  ∀ before rest, cs = before ++ ':' :: rest → word rest = []

theorem word_cons_eq_nil_iff {c : Char} {cs : List Char} :
    word (c :: cs) = [] ↔ isWord c = false := by
  cases h : isWord c <;> simp [word, h]

theorem word_append_of_no_word {cs ds : List Char} (hcs : word cs = []) (hds : word ds = []) :
    word (cs ++ ds) = [] := by
  cases cs with
  | nil => exact hds
  | cons c cs => exact word_cons_eq_nil_iff.mpr (word_cons_eq_nil_iff.mp hcs)

theorem no_word_of_append {cs ds : List Char} (h : word (cs ++ ds) = []) : word cs = [] := by
  cases cs with
  | nil => rfl
  | cons c cs => exact word_cons_eq_nil_iff.mpr (word_cons_eq_nil_iff.mp h)

theorem word_placeholder (cs : List Char) : word (placeholder cs) = [] := by
  by_cases h : word cs = []
  · rw [placeholder_of_no_word h]
    rfl
  · rw [placeholder_of_word h]
    rfl

theorem word_flatMap_placeholder (parts : List (List Char)) :
    word (parts.flatMap placeholder) = [] := by
  induction parts with
  | nil => rfl
  | cons part parts ih => exact word_append_of_no_word (word_placeholder part) ih

/-- A colon after a text without one is the first, or stands in what follows the first. -/
theorem append_colon_eq {start tail before rest : List Char} (hstart : ':' ∉ start)
    (h : start ++ ':' :: tail = before ++ ':' :: rest) :
    tail = rest ∨ ∃ middle, tail = middle ++ ':' :: rest := by
  rw [List.append_eq_append_iff] at h
  obtain ⟨gap, -, hgap⟩ | ⟨gap, hgap, htail⟩ := h
  · cases gap with
    | nil => exact .inl (List.cons.inj hgap).2
    | cons c gap => exact .inr ⟨gap, (List.cons.inj hgap).2⟩
  · cases gap with
    | nil => exact .inl (List.cons.inj htail).2.symm
    | cons c gap =>
      obtain rfl : ':' = c := (List.cons.inj htail).1
      exact absurd (by simp [hgap]) hstart

theorem settled_of_parts {start : List Char} {parts : List (List Char)}
    (h : ∀ part ∈ start :: parts, ':' ∉ part) : Settled (start ++ parts.flatMap placeholder) := by
  induction parts generalizing start with
  | nil =>
    intro before rest heq
    rw [List.flatMap_nil, List.append_nil] at heq
    exact absurd (by simp [heq]) (h start (by simp))
  | cons part parts ih =>
    have hpart : ':' ∉ part := h part (by simp)
    have hlater : ∀ p ∈ parts, ':' ∉ p := fun p hp => h p (by simp [hp])
    rw [List.flatMap_cons]
    by_cases hword : word part = []
    · -- the colon stays, and what follows it starts with no word
      intro before rest heq
      rw [placeholder_of_no_word hword, List.cons_append] at heq
      rcases append_colon_eq (h start (by simp)) heq with rfl | ⟨middle, hmiddle⟩
      · exact word_append_of_no_word hword (word_flatMap_placeholder parts)
      · exact ih (List.forall_mem_cons.mpr ⟨hpart, hlater⟩) middle rest hmiddle
    · -- the colon is gone, and the placeholder belongs to the text before the next one
      have hgone : ':' ∉ start ++ placeholder part := by
        rw [← word_append_afterWord part] at hpart
        rw [placeholder_of_word hword]
        simp only [List.mem_append, List.mem_cons, not_or] at hpart ⊢
        exact ⟨h start (by simp), ⟨by decide, hpart.1⟩, by decide, hpart.2⟩
      rw [← List.append_assoc]
      exact ih (List.forall_mem_cons.mpr ⟨hgone, hlater⟩)

theorem settled_documentForm (path : String) : Settled (documentForm path).toList := by
  obtain ⟨start, parts, hparts⟩ := exists_parts path
  rw [hparts.document]
  exact settled_of_parts hparts.colonless

/-- Rewriting changes nothing where no colon stands before a word. -/
theorem documentForm_of_settled {path : String} (h : Settled path.toList) :
    documentForm path = path := by
  obtain ⟨start, parts, hparts⟩ := exists_parts path
  have hword : ∀ part ∈ parts, placeholder part = ':' :: part := by
    intro part hpart
    obtain ⟨earlier, later, rfl⟩ := List.append_of_mem hpart
    have hrest : word (part ++ later.flatMap (':' :: ·)) = [] := by
      refine h (start ++ earlier.flatMap (':' :: ·)) _ ?_
      rw [hparts.declared, List.flatMap_append, List.flatMap_cons]
      simp
    exact placeholder_of_no_word (no_word_of_append hrest)
  rw [← String.toList_inj, hparts.document, hparts.declared, List.flatMap_def, List.flatMap_def,
    List.map_congr_left hword]

/-- The rewriting of paths. A path without braces can be read off its form, so two such paths never
share one, and the texts between the braces of the form are the names of the parameters; the paths
of route blocks have no braces. The form of any path at all is its own form. -/
theorem documentForm_rewriting :
    (∀ path : String, Braceless path →
      declaredForm (documentForm path) = path ∧
      bracedTexts (documentForm path) = parameterNames path) ∧
    (∀ p q : String, Braceless p → Braceless q → p ≠ q → documentForm p ≠ documentForm q) ∧
    (∀ (b : Block) (d : Draft), (Draft.ofBlock? b).result = .ok (some d) → Braceless d.path) ∧
    ∀ path : String, documentForm (documentForm path) = documentForm path := by
  have hread : ∀ path : String, Braceless path → declaredForm (documentForm path) = path :=
    fun path h => declaredForm_documentForm h.opening h.closing
  refine ⟨fun path h => ⟨hread path h, bracedTexts_documentForm h.opening⟩, ?_, ?_, ?_⟩
  · intro p q hp hq hne hform
    exact hne (by rw [← hread p hp, hform, hread q hq])
  · intro b d h
    exact (isDeclared_of_ofBlock? h).braceless
  · intro path
    exact documentForm_of_settled (settled_documentForm path)

/-- A path with adjacent colons, a colon before no word, one at the end, and a repeated name; and a
path with braces, which has a form all the same. -/
theorem documentForm_rewriting_adjacent_colons :
    let path := "/a/::id:rev/:-x/:id:"
    (Braceless path ∧ declaredForm (documentForm path) = path ∧
      bracedTexts (documentForm path) = ["id", "rev", "id"]) ∧
    documentForm path ≠ documentForm "/a/:id:rev/:-x/:id:" ∧
    documentForm (documentForm "/{a:b}:c") = documentForm "/{a:b}:c" := by
  intro path
  obtain ⟨hform, hdistinct, -, hagain⟩ := documentForm_rewriting
  obtain ⟨hread, hnames⟩ := hform path (by decide)
  exact ⟨⟨by decide, hread, hnames.trans (by decide)⟩,
    hdistinct path _ (by decide) (by decide) (by decide), hagain _⟩

end RouteDoc.Path
