import RouteDoc.Proofs.WrittenField

/-! Defaults in the brackets of a name, as in `[size=10]`. A default is passed over as far as it is a
word. If all of it is, nothing of it is left; but of any other default, such as `0.5`, the text from
its first other character on goes into the description, with the closing bracket, and the line raises
a warning because its name token is not closed. -/

namespace RouteDoc

open Text

/-- The parts of the line `@apiParam {expr} [name=value] description`. -/
structure DefaultedField where
  expr : List Char
  name : List Char
  value : List Char
  description : List Char

namespace DefaultedField

/-- What follows the tag and one space. -/
def text (f : DefaultedField) : List Char :=
  '{' :: f.expr ++ ['}'] ++ ' ' :: ('[' :: f.name ++ '=' :: f.value ++ [']'] ++ ' ' :: f.description)

def line (f : DefaultedField) : String := Tag.param.line f.text

structure Fits (f : DefaultedField) : Prop where
  isBlank_expr : ∀ c ∈ f.expr, isBlank c = false
  name_ne_nil : f.name ≠ []
  isWord_name : ∀ c ∈ f.name, isWord c = true
  isBlank_value : ∀ c ∈ f.value, isBlank c = false
  unclosed_value : ']' ∉ f.value
  no_tag : contains "@api".toList f.description = false

/-- The pieces of the line if the default is a word. -/
def pieces (f : DefaultedField) : FieldLine where
  typeText := f.expr
  name := f.name
  isBracketed := true
  description := f.description
  isHeader := false

/-- The pieces of the line if the default goes on after its word. -/
def leakingPieces (f : DefaultedField) : FieldLine :=
  { f.pieces with
    isBracketed := false
    description := afterWord f.value ++ ']' :: ' ' :: f.description }

namespace Fits

variable {f : DefaultedField}

theorem isBlank_token (h : f.Fits) : ∀ c ∈ '{' :: f.expr ++ ['}'], isBlank c = false := by
  intro c hc
  simp only [List.cons_append, List.mem_cons, List.mem_append, List.not_mem_nil, or_false] at hc
  rcases hc with rfl | hc | rfl
  · decide
  · exact h.isBlank_expr c hc
  · decide

theorem isBlank_nameToken (h : f.Fits) :
    ∀ c ∈ '[' :: f.name ++ '=' :: f.value ++ [']'], isBlank c = false := by
  intro c hc
  simp only [List.cons_append, List.append_assoc, List.mem_cons, List.mem_append, List.not_mem_nil,
    or_false] at hc
  rcases hc with rfl | hc | rfl | hc | rfl
  · decide
  · exact isBlank_of_isWord (h.isWord_name c hc)
  · decide
  · exact h.isBlank_value c hc
  · decide

/-- A default has no white space after it, so it hides no tag even if it holds the sign of one. -/
theorem tagless (h : f.Fits) : Tagless f.text :=
  Tagless.token h.isBlank_token (by decide)
    (Tagless.token h.isBlank_nameToken (by decide) (tagless_of_contains h.no_tag))

def toMatch (h : f.Fits) (hexpr : f.expr ≠ []) : FieldMatch where
  blank := ' '
  location := []
  token := '{' :: f.expr ++ ['}']
  gap := ' '
  isOpened := true
  name := f.name
  rest := '=' :: (f.value ++ ']' :: ' ' :: f.description)
  isBlank_blank := isBlank_space
  locationText := .nothing
  isBlank_token := h.isBlank_token
  head?_token := rfl
  getLast?_token := List.getLast?_concat
  size_token := three_le_size_iff.mpr hexpr
  isBlank_gap := isBlank_space
  name_ne_nil := h.name_ne_nil
  isNameChar_name := fun c hc => by simp [isNameChar, h.isWord_name c hc]
  isNameChar_rest := by
    rintro c ⟨⟩
    decide

theorem body_toMatch (h : f.Fits) (hexpr : f.expr ≠ []) : (h.toMatch hexpr).body = f.text := by
  simp [FieldMatch.body, toMatch, FieldMatch.bracket, text]

theorem matchesAt (h : f.Fits) (hexpr : f.expr ≠ []) :
    Tag.param.MatchesAt f.line [] (h.toMatch hexpr) := by
  rw [Tag.MatchesAt, FieldMatch.text, h.body_toMatch hexpr, line, Tag.line, String.toList_ofList]
  rfl

theorem ofLine?_line (h : f.Fits) (hexpr : f.expr ≠ []) :
    FieldLine.ofLine? f.line = some ((h.toMatch hexpr).pieces false) := by
  rw [FieldLine.ofLine?, line, Tag.scan_line h.tagless, Tag.scan_line h.tagless, if_neg (by decide),
    if_pos rfl, ← h.body_toMatch hexpr, FieldMatch.read?_body]
  rfl

/-- The default is passed over as far as it is a word. -/
theorem afterHints_rest (h : f.Fits) (hexpr : f.expr ≠ []) :
    afterHints (h.toMatch hexpr).rest = afterWord f.value ++ ']' :: ' ' :: f.description := by
  change afterWord (f.value ++ ']' :: ' ' :: f.description) = _
  rw [afterWord, List.dropWhile_append]
  split
  · rename_i hempty
    rw [afterWord, List.isEmpty_iff.mp hempty]
    rfl
  · rfl

theorem pieces_toMatch (h : f.Fits) (hexpr : f.expr ≠ []) :
    (h.toMatch hexpr).pieces false = if afterWord f.value = [] then f.pieces else f.leakingPieces := by
  have htype : (h.toMatch hexpr).typeText = f.expr := by simp [FieldMatch.typeText, toMatch]
  have hname : (h.toMatch hexpr).fullName = f.name := rfl
  have harray : (after? ['[', ']'] (h.toMatch hexpr).rest).getD (h.toMatch hexpr).rest =
      (h.toMatch hexpr).rest := rfl
  have hopened : (h.toMatch hexpr).isOpened = true := rfl
  simp only [FieldMatch.pieces, htype, hname, harray, hopened, h.afterHints_rest hexpr]
  cases hleft : afterWord f.value with
  | nil =>
    have hblank : afterBlank? (' ' :: f.description) = some f.description := rfl
    simp [after?, hblank, pieces]
  | cons c cs =>
    -- what is left starts with a character of the default: neither a bracket nor white space
    have hmem : c ∈ f.value := (List.dropWhile_suffix isWord).subset (by
      rw [← afterWord, hleft]
      exact List.mem_cons_self)
    have hclose : ']' ≠ c := fun he => h.unclosed_value (he ▸ hmem)
    have hblank : isBlank c = false := h.isBlank_value c hmem
    simp [after?, afterBlank?, hclose, hblank, leakingPieces, pieces, hleft]

theorem precededByBracket_line (h : f.Fits) (hexpr : f.expr ≠ []) :
    precededByBracket f.name f.line.toList = true := by
  have hname : (h.toMatch hexpr).fullName = f.name := rfl
  rw [precededByBracket_iff h.name_ne_nil fun c hc => isBlank_of_isWord (h.isWord_name c hc), ← hname]
  exact FieldMatch.bracketed_of_isOpened _ rfl (h.matchesAt hexpr)

end Fits

end DefaultedField

theorem afterWord_eq_nil_iff {cs : List Char} :
    afterWord cs = [] ↔ ∀ c ∈ cs, isWord c = true := by
  constructor
  · intro h c hc
    rw [← word_append_afterWord cs, h, List.append_nil] at hc
    exact isWord_of_mem_word hc
  · intro h
    have happend : (cs ++ []).dropWhile isWord = [].dropWhile isWord := List.dropWhile_append_of_pos h
    rwa [List.append_nil] at happend

/-- What a default does, for every type and every text without white space and closing brackets as
the default: if it is a word, and only then, the line declares the field that it spells and nothing
else. Any other default leaves its end in the description, and raises the warning that a bracket
elsewhere on the line makes the field optional. -/
theorem Field.ofLine?_default {f : DefaultedField} {type : FieldType} (h : f.Fits)
    (htype : FieldType.parse f.expr = .ok type) :
    (Field.ofLine? f.line = pure (some (String.ofList f.name, {
        type
        isOptional := true
        description := String.ofList f.description
        isHeader := false })) ↔ ∀ c ∈ f.value, isWord c = true) ∧
    ((¬∀ c ∈ f.value, isWord c = true) →
      Field.ofLine? f.line = ⟨[.strayBracket (String.ofList f.name) f.line],
        .ok (some (String.ofList f.name, {
          type
          isOptional := true
          description := String.ofList (afterWord f.value ++ ']' :: ' ' :: f.description)
          isHeader := false }))⟩) := by
  have hexpr : f.expr ≠ [] := by
    intro hnil
    rw [hnil] at htype
    cases htype
  have hdot : '.' ∉ f.name := fun hc => absurd (h.isWord_name _ hc) (by decide)
  have hpreceded := h.precededByBracket_line hexpr
  have hpieces := h.ofLine?_line hexpr
  rw [h.pieces_toMatch hexpr] at hpieces
  rw [← afterWord_eq_nil_iff]
  have hleaks : afterWord f.value ≠ [] → Field.ofLine? f.line =
      ⟨[.strayBracket (String.ofList f.name) f.line], .ok (some (String.ofList f.name, {
        type
        isOptional := true
        description := String.ofList (afterWord f.value ++ ']' :: ' ' :: f.description)
        isHeader := false }))⟩ := by
    intro hleft
    rw [if_neg hleft] at hpieces
    refine Reading.ext ?_ ?_
    · rw [Field.warnings_ofLine?_of_parse hpieces hdot htype]
      change (if precededByBracket f.name f.line.toList != false then _ else _) = _
      rw [hpreceded]
      rfl
    · rw [Field.result_ofLine?_of_parse hpieces hdot htype]
      change Except.ok (some (_, Field.mk _ (false || precededByBracket f.name f.line.toList) _ _)) = _
      rw [hpreceded]
      rfl
  refine ⟨⟨fun hread => ?_, fun hword => ?_⟩, hleaks⟩
  · by_cases hleft : afterWord f.value = []
    · exact hleft
    · have hwarnings := congrArg Reading.warnings ((hleaks hleft).symm.trans hread)
      cases hwarnings
  · rw [if_pos hword] at hpieces
    exact Field.ofLine?_of_agreeing hpieces hdot htype hpreceded

/-- A decimal as the default. -/
theorem Field.ofLine?_default_decimal :
    let f : DefaultedField := {
      expr := "Number".toList, name := "ratio".toList, value := "0.5".toList
      description := "scale".toList }
    f.line = "@apiParam \x7bNumber\x7d [ratio=0.5] scale" ∧ f.Fits ∧
      Field.ofLine? f.line = ⟨[.strayBracket "ratio" f.line], .ok (some ("ratio", {
        type := ⟨.scalar "Number", [], none⟩, isOptional := true, description := ".5] scale"
        isHeader := false }))⟩ := by
  intro f
  have hfits : f.Fits := {
    isBlank_expr := isBlank_of_all rfl
    name_ne_nil := by decide
    isWord_name := List.all_eq_true.mp rfl
    isBlank_value := isBlank_of_all rfl
    unclosed_value := by decide
    no_tag := by decide }
  have htype : FieldType.parse f.expr = .ok ⟨.scalar "Number", [], none⟩ :=
    except_eq_ok_of_toOption (by decide +kernel)
  have hvalue : ¬∀ c ∈ f.value, isWord c = true := fun hword =>
    absurd (hword '.' (by decide)) (by decide)
  exact ⟨by decide +kernel, hfits, (Field.ofLine?_default hfits htype).2 hvalue⟩

end RouteDoc
