import RouteDoc.Proofs.Scan

/-! Lines that are a tag and a text. If no tag stands in the text, a scan for the tag of the line
reads the text and a scan for any other tag finds nothing, although some tags start as others do. -/

namespace RouteDoc

open Text

/-- The line with a text after a tag. -/
def Tag.line (tag : Tag) (text : List Char) : String :=
  String.ofList (tag.spelling ++ ' ' :: text)

/-- No tag with white space after it stands in the text. -/
def Tagless (text : List Char) : Prop :=
  ∀ (tag : Tag) (before : List Char) (c : Char) (rest : List Char),
    isBlank c = true → text ≠ before ++ tag.spelling ++ c :: rest

namespace Tag

theorem spelling_eq (tag : Tag) :
    ∃ stem, tag.spelling = "@api".toList ++ stem ∧ ∀ c ∈ stem, isWord c = true := by
  cases tag
  all_goals exact ⟨_, rfl, List.all_eq_true.mp rfl⟩

theorem isBlank_spelling (tag : Tag) : ∀ c ∈ tag.spelling, isBlank c = false :=
  isBlank_of_all (by cases tag <;> decide)

theorem isWord_getLast? (tag : Tag) : tag.spelling.getLast?.all isWord = true := by
  cases tag <;> decide

theorem spelling_inj {tag tag' : Tag} (h : tag.spelling = tag'.spelling) : tag = tag' := by
  revert h
  cases tag <;> cases tag' <;> decide

end Tag

/-- A text without white space ends at the first white space. -/
theorem append_blank_inj {s s' rest rest' : List Char} {c c' : Char}
    (hs : ∀ d ∈ s, isBlank d = false) (hs' : ∀ d ∈ s', isBlank d = false)
    (hc : isBlank c = true) (hc' : isBlank c' = true) (h : s ++ c :: rest = s' ++ c' :: rest') :
    s = s' ∧ c :: rest = c' :: rest' := by
  have hstop : ∀ {a : Char} {r : List Char}, isBlank a = true →
      ∀ d, (a :: r).head? = some d → (!isBlank d) = false := by
    rintro a r ha d hd
    cases hd
    simp [ha]
  have hleft := takeWhile_dropWhile_append (p := (!isBlank ·)) (by simpa using hs) (hstop (r := rest) hc)
  have hright := takeWhile_dropWhile_append (p := (!isBlank ·)) (by simpa using hs')
    (hstop (r := rest') hc')
  exact ⟨hleft.1.symm.trans (h ▸ hright.1), hleft.2.symm.trans (h ▸ hright.2)⟩

/-! ### Texts without tags -/

theorem tagless_of_contains {text : List Char} (h : contains "@api".toList text = false) :
    Tagless text := by
  intro tag before c rest _ htext
  obtain ⟨stem, hstem, -⟩ := tag.spelling_eq
  rw [Bool.eq_false_iff] at h
  refine h (contains_eq_true_iff.mpr ⟨before, stem ++ c :: rest, ?_⟩)
  rw [htext, hstem]
  simp

theorem tagless_of_not_mem {text : List Char} (h : '@' ∉ text) : Tagless text := by
  refine tagless_of_contains ?_
  rw [Bool.eq_false_iff]
  intro hcontains
  obtain ⟨before, rest, htext⟩ := contains_eq_true_iff.mp hcontains
  exact h (by simp [htext])

/-- Text without the sign of tags before a text changes nothing. -/
theorem Tagless.append {start text : List Char} (hstart : '@' ∉ start) (h : Tagless text) :
    Tagless (start ++ text) := by
  intro tag before c rest hc htext
  obtain ⟨stem, hstem, -⟩ := tag.spelling_eq
  rw [List.append_assoc, List.append_eq_append_iff] at htext
  obtain ⟨gap, -, hgap⟩ | ⟨gap, hgap, htail⟩ := htext
  · exact h tag gap c rest hc (by rw [hgap, List.append_assoc])
  · cases gap with
    | nil => exact h tag [] c rest hc (by simpa using htail.symm)
    | cons a gap =>
      have ha : a = '@' := by
        rw [hstem] at htail
        exact (List.cons.inj htail).1.symm
      exact hstart (by simp [hgap, ha])

/-- A token without white space that does not end as a tag does hides no tag. -/
theorem Tagless.token {token text : List Char} {last : Char}
    (htoken : ∀ c ∈ token ++ [last], isBlank c = false) (hlast : isWord last = false)
    (h : Tagless text) : Tagless (token ++ [last] ++ ' ' :: text) := by
  intro tag before c rest hc htext
  rw [List.append_assoc before, List.append_eq_append_iff] at htext
  obtain ⟨gap, -, hgap⟩ | ⟨gap, htok, hgap⟩ := htext
  · have hspace : Tagless ([' '] ++ text) := Tagless.append (by decide) h
    exact hspace tag gap c rest hc (by rw [List.append_assoc]; exact hgap)
  · -- the tag ends where the token ends, but the last characters differ
    have hgapBlank : ∀ d ∈ gap, isBlank d = false := fun d hd =>
      htoken d (by rw [htok]; exact List.mem_append_right _ hd)
    obtain ⟨rfl, -⟩ := append_blank_inj tag.isBlank_spelling hgapBlank hc (by decide) hgap
    have hend : tag.spelling.getLast? = some last := by
      have hends := congrArg List.getLast? htok
      have hsome : tag.spelling.getLast?.isSome = true := by cases tag <;> rfl
      rw [List.getLast?_concat, List.getLast?_append, Option.or_of_isSome hsome] at hends
      exact hends.symm
    have hword := tag.isWord_getLast?
    rw [hend] at hword
    exact absurd hword (by simp [hlast])

/-- Text without the sign of tags before a line is passed over. -/
theorem Tag.scan_append {α : Type} {start : List Char} (h : '@' ∉ start) (tag : Tag)
    (read : List Char → Option α) (line : String) :
    tag.scan read (String.ofList (start ++ line.toList)) = tag.scan read line := by
  obtain ⟨stem, hstem, -⟩ := tag.exists_spelling
  rw [Tag.scan_eq, Tag.scan_eq, scanFor, String.toList_ofList, hstem,
    afterEach_append_of_not_mem h]
  rfl

/-- A scan of a line finds the tag of the line and no other. -/
theorem Tag.scan_line {α : Type} {text : List Char} (h : Tagless text) (tag tag' : Tag)
    (read : List Char → Option α) :
    tag.scan read (tag'.line text) = if tag = tag' then read text else none := by
  obtain ⟨stem, hstem, hword⟩ := tag'.spelling_eq
  have hline : (tag'.line text).toList = '@' :: ("api".toList ++ stem ++ ' ' :: text) := by
    rw [Tag.line, String.toList_ofList, hstem]
    simp
  -- after the first character no tag stands on the line
  have hrest : Tagless ("api".toList ++ stem ++ ' ' :: text) := by
    have hsign : '@' ∉ "api".toList ++ stem ++ [' '] := by
      simp only [List.mem_append, not_or]
      exact ⟨⟨by decide, fun hc => absurd (hword _ hc) (by decide)⟩, by decide⟩
    have htagless := Tagless.append hsign h
    rwa [List.append_assoc, List.singleton_append] at htagless
  have hnone : (afterEach tag.spelling ("api".toList ++ stem ++ ' ' :: text)).findSome?
      (fun rest => (afterBlank? rest).bind read) = none := by
    rw [List.findSome?_eq_none_iff]
    intro rest hmem
    obtain ⟨before, hbefore⟩ := mem_afterEach_iff.mp hmem
    cases hblank : afterBlank? rest with
    | none => rfl
    | some after =>
      obtain ⟨c, hc, rfl⟩ := afterBlank?_eq_some_iff.mp hblank
      exact absurd hbefore (hrest tag before c after hc)
  have hfirst : '@' :: ("api".toList ++ stem ++ ' ' :: text) = tag'.spelling ++ ' ' :: text := by
    rw [hstem]
    simp
  rw [Tag.scan_eq, scanFor, hline, afterEach, List.findSome?_append, hnone, Option.or_none, hfirst]
  by_cases htag : tag = tag'
  · subst htag
    rw [after?_append, if_pos rfl]
    simp [afterBlank?, isBlank_space]
  · rw [if_neg htag]
    cases hafter : after? tag.spelling (tag'.spelling ++ ' ' :: text) with
    | none => rfl
    | some rest =>
      have hrest : afterBlank? rest = none := by
        rw [Option.eq_none_iff_forall_ne_some]
        intro after hblank
        obtain ⟨c, hc, rfl⟩ := afterBlank?_eq_some_iff.mp hblank
        have hspelling := append_blank_inj tag'.isBlank_spelling tag.isBlank_spelling (by decide) hc
          (after?_eq_some_iff.mp hafter)
        exact htag (Tag.spelling_inj hspelling.1.symm)
      simp [hrest]

end RouteDoc
