import RouteDoc.Proofs.Optionality
import RouteDoc.Proofs.TaggedLine

/-! Field lines as they are written: a text without tags and brackets, a field tag, a location, a
type in braces, the token of a name, and a description. Such a line declares the field that it
spells, and raises no warning, if no bracket in the type or the description is before the name. -/

namespace RouteDoc

open Text

/-- The ways to write a name: bare, in brackets, or in brackets with a default. -/
inductive NameForm where
  | bare
  | bracketed
  | defaulted (value : List Char)

namespace NameForm

def isBracketed : NameForm → Bool
  | bare => false
  | bracketed | defaulted _ => true

/-- What follows the name in its token. -/
def ending : NameForm → List Char
  | bare => []
  | bracketed => [']']
  | defaulted value => '=' :: (value ++ [']'])

def token (name : List Char) (form : NameForm) : List Char :=
  (if form.isBracketed then ['['] else []) ++ (name ++ form.ending)

theorem ending_of_not_isBracketed {form : NameForm} (h : form.isBracketed = false) :
    form.ending = [] := by
  cases form with
  | bare => rfl
  | bracketed | defaulted => cases h

end NameForm

/-- The parts of a field line as it is written. -/
structure WrittenField where
  start : List Char
  isHeader : Bool
  location : Option (List Char)
  expr : List Char
  form : NameForm
  word : List Char
  /-- Whether the brackets of an array follow the name. -/
  isArray : Bool
  description : List Char

namespace WrittenField

def name (f : WrittenField) : List Char := f.word ++ if f.isArray then ['[', ']'] else []

def tag (f : WrittenField) : Tag := if f.isHeader then .header else .param

def locationText (f : WrittenField) : List Char :=
  match f.location with
  | none => []
  | some w => '(' :: w ++ [')', ' ']

/-- What follows the word of the name. -/
def rest (f : WrittenField) : List Char :=
  (if f.isArray then ['[', ']'] else []) ++ (f.form.ending ++ ' ' :: f.description)

/-- What follows the tag and one space. -/
def text (f : WrittenField) : List Char :=
  f.locationText ++ ('{' :: f.expr ++ ['}'] ++ ' ' :: (f.form.token f.name ++ ' ' :: f.description))

def line (f : WrittenField) : String :=
  String.ofList (f.start ++ f.tag.spelling ++ ' ' :: f.text)

/-- The name is a word, and so is its default, which may be empty. -/
structure NameFits (f : WrittenField) : Prop where
  word_ne_nil : f.word ≠ []
  isWord_word : ∀ c ∈ f.word, isWord c = true
  default : ∀ value, f.form = .defaulted value → ∀ c ∈ value, isWord c = true

/-- The conditions under which the parts of a line do not run into each other. -/
structure Fits (f : WrittenField) : Prop extends f.NameFits where
  at_start : '@' ∉ f.start
  bracket_start : '[' ∉ f.start
  location : ∀ w, f.location = some w → w ≠ [] ∧ ∀ c ∈ w, isWord c = true
  isBlank_expr : ∀ c ∈ f.expr, isBlank c = false
  no_tag : contains "@api".toList f.description = false
  no_star : f.isHeader = true → '*' ∉ f.description
  bracketed_expr : ¬∃ rest, Bracketed f.name f.expr rest
  bracketed_description : ¬∃ rest, Bracketed f.name f.description rest

/-- The pieces that the line is written from. -/
def pieces (f : WrittenField) : FieldLine where
  typeText := f.expr
  name := f.name
  isBracketed := f.form.isBracketed
  description := f.description
  isHeader := f.isHeader

namespace NameFits

variable {f : WrittenField}

theorem mem_name (h : f.NameFits) {c : Char} (hc : c ∈ f.name) :
    isWord c = true ∨ c = '[' ∨ c = ']' := by
  rcases List.mem_append.mp hc with hc | hc
  · exact .inl (h.isWord_word c hc)
  · split at hc
    · exact .inr (by simpa using hc)
    · cases hc

theorem name_ne_nil (h : f.NameFits) : f.name ≠ [] := by simp [name, h.word_ne_nil]

theorem isBlank_name (h : f.NameFits) : ∀ c ∈ f.name, isBlank c = false := by
  intro c hc
  rcases h.mem_name hc with hc | rfl | rfl
  · exact isBlank_of_isWord hc
  · decide
  · decide

theorem not_mem_name (h : f.NameFits) {c : Char} (hword : isWord c = false) (hopen : c ≠ '[')
    (hclose : c ≠ ']') : c ∉ f.name := by
  intro hc
  rcases h.mem_name hc with hc | hc | hc
  · exact absurd (hc.symm.trans hword) (by decide)
  · exact hopen hc
  · exact hclose hc

theorem at_not_mem_token (h : f.NameFits) : '@' ∉ f.form.token f.name := by
  have hname : '@' ∉ f.name := h.not_mem_name (by decide) (by decide) (by decide)
  cases hform : f.form with
  | bare => simp [NameForm.token, NameForm.isBracketed, NameForm.ending, hname]
  | bracketed => simp [NameForm.token, NameForm.isBracketed, NameForm.ending, hname]
  | defaulted value =>
    have hvalue : '@' ∉ value := fun hc => absurd (h.default value hform _ hc) (by decide)
    simp [NameForm.token, NameForm.isBracketed, NameForm.ending, hname, hvalue]

end NameFits

namespace Fits

variable {f : WrittenField}

theorem locationText (h : f.Fits) : LocationText f.locationText := by
  unfold WrittenField.locationText
  split
  · exact .nothing
  · rename_i w hw
    obtain ⟨hne, hword⟩ := h.location w hw
    exact .place hne hword (by decide)

theorem isWord_locationText (h : f.Fits) {c : Char} (hc : c ∈ f.locationText) :
    isWord c = true ∨ c = '(' ∨ c = ')' ∨ c = ' ' := by
  unfold WrittenField.locationText at hc
  split at hc
  · cases hc
  · rename_i w hw
    simp only [List.cons_append, List.mem_cons, List.mem_append, List.not_mem_nil, or_false] at hc
    rcases hc with rfl | hc | rfl | rfl
    · exact .inr (.inl rfl)
    · exact .inl ((h.location w hw).2 c hc)
    · exact .inr (.inr (.inl rfl))
    · exact .inr (.inr (.inr rfl))

theorem isBlank_token (h : f.Fits) : ∀ c ∈ '{' :: f.expr ++ ['}'], isBlank c = false := by
  intro c hc
  simp only [List.cons_append, List.mem_cons, List.mem_append, List.not_mem_nil, or_false] at hc
  rcases hc with rfl | hc | rfl
  · decide
  · exact h.isBlank_expr c hc
  · decide

/-! ### The pieces of the line -/

/-- The line has the parts of a field, where the name is the word. -/
def toMatch (h : f.Fits) (hexpr : f.expr ≠ []) : FieldMatch where
  blank := ' '
  location := f.locationText
  token := '{' :: f.expr ++ ['}']
  gap := ' '
  isOpened := f.form.isBracketed
  name := f.word
  rest := f.rest
  isBlank_blank := by decide
  locationText := h.locationText
  isBlank_token := h.isBlank_token
  head?_token := rfl
  getLast?_token := List.getLast?_concat
  size_token := three_le_size_iff.mpr hexpr
  isBlank_gap := by decide
  name_ne_nil := h.word_ne_nil
  isNameChar_name := fun c hc => by simp [isNameChar, h.isWord_word c hc]
  isNameChar_rest := fun c hc => by
    unfold WrittenField.rest at hc
    cases hform : f.form <;> cases harray : f.isArray <;> rw [hform, harray] at hc <;> cases hc <;>
      decide

theorem body_toMatch (h : f.Fits) (hexpr : f.expr ≠ []) : (h.toMatch hexpr).body = f.text := by
  change f.locationText ++ ('{' :: f.expr ++ ['}'] ++ ' ' ::
    ((if f.form.isBracketed then ['['] else []) ++ (f.word ++ f.rest))) = f.text
  simp [WrittenField.text, NameForm.token, name, WrittenField.rest]

theorem pieces_toMatch (h : f.Fits) (hexpr : f.expr ≠ []) :
    (h.toMatch hexpr).pieces f.isHeader = f.pieces := by
  have harray : ['[', ']'].isPrefixOf f.rest = f.isArray := by
    unfold WrittenField.rest
    cases f.isArray <;> cases f.form <;> rfl
  have hrest : (after? ['[', ']'] f.rest).getD f.rest = f.form.ending ++ ' ' :: f.description := by
    unfold WrittenField.rest
    cases f.isArray <;> cases f.form <;> rfl
  have hhints : afterHints (f.form.ending ++ ' ' :: f.description) =
      (if f.form.isBracketed then [']'] else []) ++ ' ' :: f.description := by
    cases hform : f.form with
    | bare | bracketed => rfl
    | defaulted value =>
      have hstop : ∀ c, (']' :: ' ' :: f.description).head? = some c → isWord c = false := by
        intro c hc
        cases hc
        decide
      refine Eq.trans ?_ (takeWhile_dropWhile_append (h.default value hform) hstop).2
      simp [NameForm.ending, afterHints, afterWord, after?]
  have hdescription : (if f.isHeader then f.description.takeWhile (· != '*') else f.description) =
      f.description := by
    split
    · rename_i hheader
      refine takeWhile_of_forall fun c hc => ?_
      simpa using fun hstar : c = '*' => h.no_star hheader (hstar ▸ hc)
    · rfl
  have hname : (h.toMatch hexpr).fullName = f.name := by
    change (if ['[', ']'].isPrefixOf f.rest then f.word ++ ['[', ']'] else f.word) = f.name
    rw [harray, name]
    cases f.isArray <;> simp
  have htype : (h.toMatch hexpr).typeText = f.expr := by simp [FieldMatch.typeText, toMatch]
  have hafter : (h.toMatch hexpr).rest = f.rest := rfl
  have hopened : (h.toMatch hexpr).isOpened = f.form.isBracketed := rfl
  have hblank : afterBlank? (' ' :: f.description) = some f.description := rfl
  simp only [FieldMatch.pieces, hname, htype, hafter, hopened, hrest, hhints]
  cases hform : f.form.isBracketed <;>
    simp [after?, hblank, hdescription, WrittenField.pieces, hform]

theorem tagless (h : f.Fits) : Tagless f.text := by
  have hlocation : '@' ∉ f.locationText := by
    intro hc
    rcases h.isWord_locationText hc with hc | hc
    · exact absurd hc (by decide)
    · exact absurd hc (by decide)
  have hname : '@' ∉ f.form.token f.name ++ [' '] := by simp [h.at_not_mem_token]
  have hrest := Tagless.append hname (tagless_of_contains h.no_tag)
  rw [List.append_assoc, List.singleton_append] at hrest
  exact Tagless.append hlocation (Tagless.token h.isBlank_token (by decide) hrest)

/-- The line is taken apart into the pieces that it is written from. -/
theorem ofLine?_line (h : f.Fits) (hexpr : f.expr ≠ []) : FieldLine.ofLine? f.line = some f.pieces := by
  have hread : FieldLine.read? f.isHeader f.text = some f.pieces := by
    rw [← h.body_toMatch hexpr, (h.toMatch hexpr).read?_body, h.pieces_toMatch hexpr]
  have hline : f.line = String.ofList (f.start ++ (f.tag.line f.text).toList) := by
    simp [WrittenField.line, Tag.line]
  rw [FieldLine.ofLine?, hline, Tag.scan_append h.at_start, Tag.scan_append h.at_start,
    Tag.scan_line h.tagless, Tag.scan_line h.tagless]
  unfold tag
  cases hheader : f.isHeader with
  | true | false =>
    rw [hheader] at hread
    simp [hread]

/-! ### The brackets of the line -/

theorem precededByBracket_token (h : f.Fits) : precededByBracket f.name
    (f.form.token f.name ++ ' ' :: f.description) = f.form.isBracketed := by
  have hdescription : precededByBracket f.name f.description = false := by
    rw [← Bool.not_eq_true, precededByBracket_iff h.name_ne_nil h.isBlank_name]
    exact h.bracketed_description
  cases hform : f.form.isBracketed with
  | true =>
    have hopened : f.form.token f.name ++ ' ' :: f.description =
        '[' :: (f.name ++ (f.form.ending ++ ' ' :: f.description)) := by
      simp [NameForm.token, hform]
    rw [hopened, precededByBracket_bracket, isPrefixOf_trimStart_append h.name_ne_nil h.isBlank_name,
      Bool.true_or]
  | false =>
    have hbare : f.form.token f.name ++ ' ' :: f.description =
        f.word ++ ((if f.isArray then ['[', ']'] else []) ++ ' ' :: f.description) := by
      simp [NameForm.token, hform, NameForm.ending_of_not_isBracketed hform, name]
    have hword : '[' ∉ f.word := fun hc => absurd (h.isWord_word _ hc) (by decide)
    have hhead : f.name.head? ≠ some ']' := by
      obtain ⟨c, cs, hcs⟩ := List.exists_cons_of_ne_nil h.word_ne_nil
      have hc : c ≠ ']' := ne_of_isWord (h.isWord_word c (by simp [hcs])) (by decide)
      simp [name, hcs, hc]
    rw [hbare, precededByBracket_append_of_not_mem hword]
    cases f.isArray with
    | false =>
      have hspace : '[' ∉ [' '] := by decide
      exact (precededByBracket_append_of_not_mem hspace _).trans hdescription
    | true =>
      change precededByBracket f.name ('[' :: ([']', ' '] ++ f.description)) = false
      rw [precededByBracket_bracket, precededByBracket_append_of_not_mem (by decide), hdescription,
        Bool.or_false]
      exact isPrefixOf_trimStart_closed hhead h.name_ne_nil _

theorem precededByBracket_line (h : f.Fits) :
    precededByBracket f.name f.line.toList = f.form.isBracketed := by
  have hline : f.line.toList = (f.start ++ f.tag.spelling ++ ' ' :: (f.locationText ++ ['{'])) ++
      (f.expr ++ '}' :: ([' '] ++ (f.form.token f.name ++ ' ' :: f.description))) := by
    simp [WrittenField.line, WrittenField.text]
  have hstart : '[' ∉ f.start ++ f.tag.spelling ++ ' ' :: (f.locationText ++ ['{']) := by
    have htag : '[' ∉ f.tag.spelling := by cases f.tag <;> decide
    have hlocation : '[' ∉ f.locationText := by
      intro hc
      rcases h.isWord_locationText hc with hc | hc
      · exact absurd hc (by decide)
      · exact absurd hc (by decide)
    simp [h.bracket_start, htag, hlocation]
  have hexpr : precededByBracket f.name f.expr = false := by
    rw [← Bool.not_eq_true, precededByBracket_iff h.name_ne_nil h.isBlank_name]
    exact h.bracketed_expr
  have hbrace : '}' ∉ f.name := h.not_mem_name (by decide) (by decide) (by decide)
  rw [hline, precededByBracket_append_of_not_mem hstart,
    precededByBracket_append_cons (by decide) hbrace, hexpr, Bool.false_or]
  have hgap : '[' ∉ ['}', ' '] := by decide
  exact (precededByBracket_append_of_not_mem hgap _).trans h.precededByBracket_token

end Fits

end WrittenField

/-- A field line that is written from parts which fit declares the field that it is written from,
without a warning. -/
theorem Field.ofLine?_written {f : WrittenField} {type : FieldType} (h : f.Fits)
    (htype : FieldType.parse f.expr = .ok type) :
    Field.ofLine? f.line = pure (some (String.ofList f.name, {
      type
      isOptional := f.form.isBracketed
      description := String.ofList f.description
      isHeader := f.isHeader })) := by
  have hexpr : f.expr ≠ [] := by
    intro hnil
    rw [hnil] at htype
    cases htype
  have hdot : '.' ∉ f.name := h.not_mem_name (by decide) (by decide) (by decide)
  exact Field.ofLine?_of_agreeing (h.ofLine?_line hexpr) hdot htype h.precededByBracket_line

/-- A line with a location, choices, a default, and brackets before other names. -/
theorem Field.ofLine?_written_all_parts :
    let f : WrittenField := {
      start := " * ".toList, isHeader := false, location := some "query".toList
      expr := "String=\x7b'a','[b]'\x7d".toList, form := .defaulted "20".toList
      word := "ids".toList, isArray := true, description := " see [id] – * ’all’".toList }
    f.line = " * @apiParam (query) \x7bString=\x7b'a','[b]'\x7d\x7d [ids[]=20]  see [id] – * ’all’" ∧
      f.Fits ∧ Field.ofLine? f.line = pure (some ("ids[]", {
        type := ⟨.scalar "String", ["a", "[b]"], none⟩, isOptional := true
        description := " see [id] – * ’all’", isHeader := false })) := by
  intro f
  have hname : f.name = "ids[]".toList := by decide
  have hnone : ∀ {cs : List Char}, restsOfBracketed "ids[]".toList cs = [] →
      ¬∃ rest, Bracketed f.name cs rest := by
    rintro cs hcs ⟨rest, hrest⟩
    rw [hname, ← mem_restsOfBracketed_iff (by decide) (isBlank_of_all rfl), hcs] at hrest
    cases hrest
  have hfits : f.Fits := {
    at_start := by decide
    bracket_start := by decide
    location := by
      rintro w ⟨⟩
      exact ⟨by decide, List.all_eq_true.mp rfl⟩
    isBlank_expr := isBlank_of_all rfl
    word_ne_nil := by decide
    isWord_word := List.all_eq_true.mp rfl
    default := by
      rintro value ⟨⟩
      exact List.all_eq_true.mp rfl
    no_tag := by decide +kernel
    no_star := by rintro ⟨⟩
    bracketed_expr := hnone (by decide +kernel)
    bracketed_description := hnone (by decide +kernel) }
  have htype : FieldType.parse f.expr = .ok ⟨.scalar "String", ["a", "[b]"], none⟩ :=
    except_eq_ok_of_toOption (by decide +kernel)
  exact ⟨by decide +kernel, hfits, Field.ofLine?_written hfits htype⟩

end RouteDoc
