import RouteDoc.Proofs.TypeExpression
import RouteDoc.Proofs.WrittenField

/-! The spelling of a field: its type in braces, its name, in brackets if the field is optional, and
its description. The line with it after a field tag declares that field and raises no warning. -/

namespace RouteDoc

open Text

/-- The token of a field's name. -/
def nameToken (name : List Char) (isOptional : Bool) : List Char :=
  if isOptional then '[' :: name ++ [']'] else name

/-- What follows the tag on the line of a field. -/
def fieldText (typeText name : List Char) (isOptional : Bool) (description : List Char) :
    List Char :=
  '{' :: typeText ++ ['}'] ++ ' ' :: (nameToken name isOptional ++ ' ' :: description)

def Field.spelling (name : String) (field : Field) : List Char :=
  fieldText field.type.spelling name.toList field.isOptional field.description.toList

/-- A field that can be spelled. -/
structure Field.Fits (name : String) (field : Field) : Prop where
  name_word : IsWordText name
  name_ne : name ≠ ""
  /-- The type can be read. -/
  type : ∃ expr, FieldType.parse expr = .ok field.type
  choices : ∀ value ∈ field.type.choices, value.toList.all (fun c => !isBlank c && c != '[') = true
  no_tag : contains "@api".toList field.description.toList = false
  no_bracket : '[' ∉ field.description.toList
  /-- The description of a header ends at a star. -/
  no_star : field.isHeader = true → '*' ∉ field.description.toList

/-! ### The characters of a type -/

theorem Kind.IsItem.mem_spelling {item : Kind} (h : item.IsItem) {c : Char}
    (hc : c ∈ item.spelling) : isWord c = true ∨ c = '#' := by
  obtain ⟨isReference, name, hspelling, -, hword, -⟩ := h.exists_head
  rw [hspelling, List.mem_append] at hc
  rcases hc with hc | hc
  · cases isReference with
    | true => exact .inr (by simpa using hc)
    | false => cases hc
  · exact .inl (hword c hc)

/-- A kind is spelled without brackets, but for those of an array at its end. -/
theorem Kind.WellFormed.spelling_eq {kind : Kind} (h : kind.WellFormed) :
    ∃ item : Kind, item.IsItem ∧
      (kind.spelling = item.spelling ∨ kind.spelling = item.spelling ++ ['[', ']']) := by
  rcases h.item_or_array with hitem | ⟨items, rfl, hitem⟩
  · exact ⟨kind, hitem, .inl rfl⟩
  · exact ⟨items, hitem, .inr rfl⟩

theorem mem_choicesSpelling {choices : List String} {c : Char} (h : c ∈ choicesSpelling choices) :
    c = '\'' ∨ c = ',' ∨ ∃ value ∈ choices, c ∈ value.toList := by
  induction choices with
  | nil => simp [choicesSpelling] at h
  | cons v choices ih =>
    have hquoted : c ∈ '\'' :: v.toList ++ ['\''] → c = '\'' ∨ c ∈ v.toList := by
      simp only [List.cons_append, List.mem_cons, List.mem_append, List.not_mem_nil, or_false]
      rintro (hc | hc | hc)
      · exact .inl hc
      · exact .inr hc
      · exact .inl hc
    have hfirst : c ∈ '\'' :: v.toList ++ ['\''] →
        c = '\'' ∨ c = ',' ∨ ∃ value ∈ v :: choices, c ∈ value.toList := fun hc =>
      (hquoted hc).elim .inl fun hv => .inr (.inr ⟨v, by simp, hv⟩)
    cases choices with
    | nil => exact hfirst (by simpa [choicesSpelling] using h)
    | cons w choices =>
      rw [choicesSpelling, List.map_cons, List.map_cons, List.intercalate_cons_cons,
        List.mem_append, List.mem_append] at h
      rcases h with (h | h) | h
      · exact hfirst h
      · exact .inr (.inl (List.mem_singleton.mp h))
      · rcases ih h with h | h | ⟨value, hvalue, h⟩
        · exact .inl h
        · exact .inr (.inl h)
        · exact .inr (.inr ⟨value, List.mem_cons_of_mem _ hvalue, h⟩)

theorem FieldType.mem_constraintSpelling {t : FieldType} {c : Char}
    (hc : c ∈ t.constraintSpelling) :
    (isBlank c = false ∧ c ≠ '[') ∨ ∃ value ∈ t.choices, c ∈ value.toList := by
  unfold constraintSpelling at hc
  split at hc
  · rename_i b _
    simp only [List.cons_append, List.nil_append, List.mem_cons] at hc
    rcases hc with rfl | rfl | hc
    · exact .inl (by decide)
    · exact .inl (by decide)
    · rcases mem_boundsSpelling hc with h | rfl | rfl
      · have hword : isWord c = true := by simp [isWord, Char.isAlphanum, h]
        exact .inl ⟨isBlank_of_isWord hword, ne_of_isWord hword (by decide)⟩
      · exact .inl (by decide)
      · exact .inl (by decide)
  · split at hc
    · cases hc
    · simp only [List.cons_append, List.nil_append, List.mem_cons, List.mem_append,
        List.not_mem_nil, or_false] at hc
      rcases hc with rfl | rfl | hc | rfl
      · exact .inl (by decide)
      · exact .inl (by decide)
      · rcases mem_choicesSpelling hc with rfl | rfl | hvalue
        · exact .inl (by decide)
        · exact .inl (by decide)
        · exact .inr hvalue
      · exact .inl (by decide)

theorem Field.Fits.type_spelling {name : String} {field : Field} (h : field.Fits name) :
    (∀ c ∈ field.type.spelling, isBlank c = false) ∧
      ∀ rest ∈ afterEach ['['] field.type.spelling, rest.head? = some ']' := by
  obtain ⟨expr, hparse⟩ := h.type
  obtain ⟨item, hitem, hkind⟩ := (FieldType.wellFormed_of_parse hparse).kind.spelling_eq
  have hitemChars : ∀ c ∈ item.spelling, isBlank c = false ∧ c ≠ '[' := by
    intro c hc
    rcases hitem.mem_spelling hc with hword | rfl
    · exact ⟨isBlank_of_isWord hword, ne_of_isWord hword (by decide)⟩
    · decide
  have hconstraint : ∀ c ∈ field.type.constraintSpelling, isBlank c = false ∧ c ≠ '[' := by
    intro c hc
    rcases FieldType.mem_constraintSpelling hc with hc | ⟨value, hvalue, hc⟩
    · exact hc
    · simpa using List.all_eq_true.mp (h.choices value hvalue) c hc
  have hitemNone : afterEach ['['] item.spelling = [] :=
    afterEach_eq_nil fun hc => (hitemChars _ hc).2 rfl
  have hconstraintNone : afterEach ['['] field.type.constraintSpelling = [] :=
    afterEach_eq_nil fun hc => (hconstraint _ hc).2 rfl
  rw [FieldType.spelling, afterEach_append, hconstraintNone, List.append_nil]
  rcases hkind with hkind | hkind
  · rw [hkind, hitemNone]
    refine ⟨fun c hc => ?_, by simp⟩
    exact (List.mem_append.mp hc).elim (fun hc => (hitemChars c hc).1) fun hc =>
      (hconstraint c hc).1
  · have hbrackets : afterEach ['['] ['[', ']'] = [[']']] := by decide
    rw [hkind, afterEach_append, hitemNone, hbrackets]
    refine ⟨fun c hc => ?_, by simp⟩
    simp only [List.mem_append, List.mem_cons, List.not_mem_nil, or_false] at hc
    rcases hc with (hc | rfl | rfl) | hc
    · exact (hitemChars c hc).1
    · decide
    · decide
    · exact (hconstraint c hc).1

/-! ### Lines of fields -/

def Field.tag (field : Field) : Tag := if field.isHeader then .header else .param

/-- The spelling of a field as a line that is written from its parts. -/
def Field.written (name : String) (field : Field) : WrittenField where
  start := []
  isHeader := field.isHeader
  location := none
  expr := field.type.spelling
  form := if field.isOptional then .bracketed else .bare
  word := name.toList
  isArray := false
  description := field.description.toList

section Written

variable {name : String} {field : Field}

theorem Field.name_written : (field.written name).name = name.toList := List.append_nil _

theorem Field.isBracketed_written : (field.written name).form.isBracketed = field.isOptional := by
  unfold Field.written
  cases field.isOptional <;> rfl

theorem Field.text_written : (field.written name).text = field.spelling name := by
  have htoken : (field.written name).form.token name.toList =
      nameToken name.toList field.isOptional := by
    unfold Field.written NameForm.token nameToken
    cases field.isOptional <;> simp [NameForm.isBracketed, NameForm.ending]
  rw [WrittenField.text, Field.name_written, htoken]
  rfl

theorem Field.pieces_written : (field.written name).pieces = {
    typeText := field.type.spelling, name := name.toList, isBracketed := field.isOptional
    description := field.description.toList, isHeader := field.isHeader } := by
  rw [WrittenField.pieces, Field.name_written, Field.isBracketed_written]
  rfl

theorem Field.line_written : (field.written name).line = field.tag.line (field.spelling name) := by
  rw [WrittenField.line, Field.text_written]
  rfl

theorem Field.Fits.written (h : field.Fits name) : (field.written name).Fits := by
  obtain ⟨hblank, hbrackets⟩ := h.type_spelling
  have hname : name.toList ≠ [] := by simpa using h.name_ne
  have hhead : name.toList.head? ≠ some ']' := by
    obtain ⟨c, cs, hcs⟩ := List.exists_cons_of_ne_nil hname
    have hc : c ≠ ']' := ne_of_isWord (h.name_word c (by simp [hcs])) (by decide)
    simp [hcs, hc]
  have hnone : ∀ cs : List Char, (∀ rest ∈ afterEach ['['] cs, rest.head? = some ']') →
      ¬∃ rest, Bracketed (field.written name).name cs rest := by
    intro cs hcs hbracketed
    rw [Field.name_written, ← precededByBracket_iff hname fun c hc => isBlank_of_isWord
      (h.name_word c hc), precededByBracket, List.any_eq_true] at hbracketed
    obtain ⟨inner, hinner, hprefix⟩ := hbracketed
    obtain ⟨rest, rfl⟩ := List.head?_eq_some_iff.mp (hcs inner hinner)
    rw [isPrefixOf_trimStart_closed hhead hname] at hprefix
    cases hprefix
  exact {
    at_start := List.not_mem_nil
    bracket_start := List.not_mem_nil
    location := fun w hw => by cases hw
    isBlank_expr := hblank
    word_ne_nil := hname
    isWord_word := h.name_word
    default := fun value hvalue => by
      unfold Field.written at hvalue
      cases hoptional : field.isOptional <;> simp [hoptional] at hvalue
    no_tag := h.no_tag
    no_star := h.no_star
    bracketed_expr := hnone _ hbrackets
    bracketed_description := hnone _ (by simp [Field.written, afterEach_eq_nil h.no_bracket]) }

theorem Field.Fits.tagless (h : field.Fits name) : Tagless (field.spelling name) :=
  Field.text_written ▸ h.written.tagless

/-- The line of a field declares it, without a warning. -/
theorem Field.ofLine?_line (h : field.Fits name) :
    Field.ofLine? (field.tag.line (field.spelling name)) = pure (some (name, field)) := by
  obtain ⟨expr, hexpr⟩ := h.type
  have hwellFormed := FieldType.wellFormed_of_parse hexpr
  have hdot : '.' ∉ name.toList := fun hc => absurd (h.name_word _ hc) (by decide)
  have hpieces := h.written.ofLine?_line hwellFormed.spelling_ne_nil
  have hagree := h.written.precededByBracket_line
  rw [Field.pieces_written, Field.line_written] at hpieces
  rw [Field.name_written, Field.isBracketed_written, Field.line_written] at hagree
  rw [Field.ofLine?_of_agreeing hpieces hdot (FieldType.parse_spelling hwellFormed) hagree]
  simp

end Written

/-- A line with another tag declares no field. -/
theorem Field.ofLine?_line_of_ne {tag : Tag} (hparam : tag ≠ .param) (hheader : tag ≠ .header)
    {text : List Char} (h : Tagless text) : Field.ofLine? (tag.line text) = pure none := by
  have hnone : FieldLine.ofLine? (tag.line text) = none := by
    rw [FieldLine.ofLine?, Tag.scan_line h, Tag.scan_line h, if_neg hheader.symm,
      if_neg hparam.symm]
    rfl
  rw [Field.ofLine?, hnone]

end RouteDoc
