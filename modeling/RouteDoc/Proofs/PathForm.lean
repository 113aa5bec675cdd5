import RouteDoc.Proofs.Scan
import RouteDoc.Route.Draft

/-! The two forms of a path. In the document's form each colon before a word has become an opening
brace and a closing brace has been put after the word, so the declared form can be read off it again
and two declared paths never share a form. -/

namespace RouteDoc.Path

open Text

/-- What a character of the document's form stands for in the declared path. -/
def declaredChar (c : Char) : List Char :=
  if c = '{' then [':'] else if c = '}' then [] else [c]

/-- The declared path of a form of the document. -/
def declaredForm (form : String) : String :=
  String.ofList (form.toList.flatMap declaredChar)

theorem declaredChar_of_ne {c : Char} (hopen : c ≠ '{') (hclose : c ≠ '}') :
    declaredChar c = [c] := by
  rw [declaredChar, if_neg hopen, if_neg hclose]

theorem flatMap_declaredChar {cs : List Char} (hopen : '{' ∉ cs) (hclose : '}' ∉ cs) :
    cs.flatMap declaredChar = cs := by
  induction cs with
  | nil => rfl
  | cons c cs ih =>
    simp only [List.mem_cons, not_or] at hopen hclose
    rw [List.flatMap_cons, declaredChar_of_ne (Ne.symm hopen.1) (Ne.symm hclose.1),
      ih hopen.2 hclose.2, List.singleton_append]

/-- A placeholder stands for a colon and the text after it. -/
theorem flatMap_declaredChar_placeholder {cs : List Char} (hopen : '{' ∉ cs) (hclose : '}' ∉ cs) :
    (placeholder cs).flatMap declaredChar = ':' :: cs := by
  unfold placeholder
  split
  · rename_i name rest hword
    have hcs : name ++ rest = cs := by
      obtain ⟨hname, hrest, -⟩ := word?_eq_some hword
      rw [hname, hrest, word_append_afterWord]
    rw [← hcs, List.mem_append, not_or] at hopen hclose
    have hname := flatMap_declaredChar hopen.1 hclose.1
    have hrest := flatMap_declaredChar hopen.2 hclose.2
    have hbraces : declaredChar '{' = [':'] ∧ declaredChar '}' = [] := by decide
    simp [List.flatMap_append, List.flatMap_cons, hname, hrest, hbraces.1, hbraces.2, hcs]
  · have hcolon : declaredChar ':' = [':'] := by decide
    rw [List.flatMap_cons, flatMap_declaredChar hopen hclose, hcolon, List.singleton_append]

theorem placeholder_of_word {cs : List Char} (h : word cs ≠ []) :
    placeholder cs = '{' :: word cs ++ '}' :: afterWord cs := by
  have hword : word? cs = some (word cs, afterWord cs) := if_neg (by simpa using h)
  rw [placeholder, hword]

theorem placeholder_of_no_word {cs : List Char} (h : word cs = []) : placeholder cs = ':' :: cs := by
  have hword : word? cs = none := if_pos (by simpa using h)
  rw [placeholder, hword]

theorem intercalate_colon (start : List Char) (pieces : List (List Char)) :
    [':'].intercalate (start :: pieces) = start ++ pieces.flatMap (':' :: ·) := by
  induction pieces generalizing start with
  | nil => simp
  | cons piece pieces ih =>
    rw [List.intercalate_cons_cons, ih, List.flatMap_cons]
    simp

/-- The parts of a path: what stands before its first colon, and what follows each colon up to the
next. -/
structure HasParts (path : String) (start : List Char) (parts : List (List Char)) : Prop where
  declared : path.toList = start ++ parts.flatMap (':' :: ·)
  /-- In the document each of the parts after a colon becomes a placeholder. -/
  document : (documentForm path).toList = start ++ parts.flatMap placeholder
  names : parameterNames path = ((parts.map word).filter (!·.isEmpty)).map String.ofList
  colonless : ∀ part ∈ start :: parts, ':' ∉ part

theorem exists_parts (path : String) : ∃ start parts, HasParts path start parts := by
  obtain ⟨start, parts, hsplit⟩ :=
    List.exists_cons_of_ne_nil (List.splitOn_ne_nil ':' path.toList)
  refine ⟨start, parts, ?_, ?_, ?_, fun part hpart hcolon => ?_⟩
  · rw [← intercalate_colon, ← hsplit, List.intercalate_splitOn]
  · rw [documentForm, hsplit, String.toList_ofList]
  · rw [parameterNames, hsplit, List.tail_cons]
  · rw [← hsplit] at hpart
    exact (mem_of_mem_splitOn hpart ':' hcolon).2 rfl

/-- The declared path can be read off its form in the document. -/
theorem declaredForm_documentForm {path : String} (hopen : '{' ∉ path.toList)
    (hclose : '}' ∉ path.toList) : declaredForm (documentForm path) = path := by
  obtain ⟨start, parts, hpath, hform, -⟩ := exists_parts path
  rw [hpath, List.mem_append, not_or] at hopen hclose
  have hparts : ∀ part ∈ parts, (placeholder part).flatMap declaredChar = ':' :: part := by
    intro part hpart
    refine flatMap_declaredChar_placeholder (fun hc => hopen.2 ?_) (fun hc => hclose.2 ?_)
    all_goals exact List.mem_flatMap.mpr ⟨part, hpart, List.mem_cons_of_mem _ hc⟩
  have htail : (parts.flatMap placeholder).flatMap declaredChar = parts.flatMap (':' :: ·) := by
    rw [List.flatMap_assoc, List.flatMap_def, List.flatMap_def, List.map_congr_left hparts]
  rw [declaredForm, hform, List.flatMap_append, htail, flatMap_declaredChar hopen.1 hclose.1,
    ← hpath, String.ofList_toList]

/-- A path as route lines declare it. -/
def IsDeclared (path : String) : Prop := ∀ c ∈ path.toList, isPathChar c = true

theorem IsDeclared.declaredForm_documentForm {path : String} (h : IsDeclared path) :
    declaredForm (documentForm path) = path :=
  Path.declaredForm_documentForm (fun hc => absurd (h _ hc) (by decide))
    (fun hc => absurd (h _ hc) (by decide))

/-- Two declared paths have two forms in the document. -/
theorem IsDeclared.documentForm_inj {p q : String} (hp : IsDeclared p) (hq : IsDeclared q)
    (h : documentForm p = documentForm q) : p = q := by
  rw [← hp.declaredForm_documentForm, h, hq.declaredForm_documentForm]

theorem mem_placeholder {cs : List Char} {c : Char} (h : c ∈ placeholder cs) :
    c = '{' ∨ c = '}' ∨ c = ':' ∨ c ∈ cs := by
  unfold placeholder at h
  split at h
  · rename_i name rest hword
    obtain ⟨hname, hrest, -⟩ := word?_eq_some hword
    rw [← word_append_afterWord cs, ← hname, ← hrest]
    simp only [List.cons_append, List.mem_cons, List.mem_append] at h ⊢
    grind
  · simp only [List.mem_cons] at h
    grind

/-- The form of a declared path has no characters but those of declared paths and braces. -/
theorem IsDeclared.mem_documentForm {path : String} (h : IsDeclared path) {c : Char}
    (hc : c ∈ (documentForm path).toList) : c = '{' ∨ c = '}' ∨ isPathChar c = true := by
  obtain ⟨start, parts, hpath, hform, -⟩ := exists_parts path
  unfold IsDeclared at h
  rw [hpath] at h
  rw [hform, List.mem_append] at hc
  rcases hc with hc | hc
  · exact .inr (.inr (h c (List.mem_append_left _ hc)))
  · obtain ⟨part, hpart, hc⟩ := List.mem_flatMap.mp hc
    rcases mem_placeholder hc with rfl | rfl | rfl | hc
    · exact .inl rfl
    · exact .inr (.inl rfl)
    · exact .inr (.inr (by decide))
    · have hmem : c ∈ parts.flatMap (':' :: ·) :=
        List.mem_flatMap.mpr ⟨part, hpart, List.mem_cons_of_mem _ hc⟩
      exact .inr (.inr (h c (List.mem_append_right _ hmem)))

/-- Each parameter of a path has its placeholder in the form of the document. -/
theorem placeholder_infix_documentForm {path name : String} (h : name ∈ parameterNames path) :
    '{' :: name.toList ++ ['}'] <:+: (documentForm path).toList := by
  obtain ⟨start, parts, hparts⟩ := exists_parts path
  rw [hparts.names] at h
  obtain ⟨w, hw, rfl⟩ := List.mem_map.mp h
  obtain ⟨hmem, hne⟩ := List.mem_filter.mp hw
  obtain ⟨part, hpart, rfl⟩ := List.mem_map.mp hmem
  have hin : placeholder part <:+: parts.flatMap placeholder :=
    List.infix_of_mem_flatten (List.mem_map_of_mem hpart)
  rw [hparts.document, String.toList_ofList]
  refine List.IsInfix.trans ?_ (hin.trans (List.suffix_append _ _).isInfix)
  rw [placeholder_of_word (by simpa using hne)]
  exact ⟨[], afterWord part, by simp⟩

theorem isBlank_of_isPathChar {c : Char} (h : isPathChar c = true) : isBlank c = false := by
  simp only [isPathChar, Bool.or_eq_true, beq_iff_eq] at h
  rcases h with ((h | rfl) | rfl) | rfl
  · exact isBlank_of_isWord h
  all_goals decide

/-- The form of a declared path has no white space. -/
theorem IsDeclared.isBlank_documentForm {path : String} (h : IsDeclared path) :
    ∀ c ∈ (documentForm path).toList, isBlank c = false := by
  intro c hc
  rcases h.mem_documentForm hc with rfl | rfl | hc
  · decide
  · decide
  · exact isBlank_of_isPathChar hc

theorem IsDeclared.documentForm_ne_empty {path : String} (h : IsDeclared path) (hne : path ≠ "") :
    documentForm path ≠ "" := by
  intro hform
  apply hne
  rw [← h.declaredForm_documentForm, hform]
  rfl

end RouteDoc.Path
