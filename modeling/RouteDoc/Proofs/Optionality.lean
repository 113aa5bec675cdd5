import RouteDoc.Proofs.Provenance

/-! What makes a field optional: an opening bracket with white space and the text of the name after
it, anywhere on the line. The name need not end where its text does, so a bracketed word that starts
with the name has the same effect as the bracketed name. A line raises a warning if its field is
optional through such a bracket and not through its name token. -/

namespace RouteDoc

open Text

/-- An opening bracket stands on the line, and after it white space, the text of the name and
`rest`. -/
def Bracketed (name line rest : List Char) : Prop :=
  ∃ before blanks, (∀ c ∈ blanks, isBlank c = true) ∧
    line = before ++ '[' :: (blanks ++ (name ++ rest))

/-- A name that `rest` follows ends there. -/
def EndsName (rest : List Char) : Prop := ∀ c, rest.head? = some c → isNameChar c = false

/-- What follows the text of the name after each opening bracket of the line. -/
def restsOfBracketed (name line : List Char) : List (List Char) :=
  (afterEach ['['] line).filterMap fun inner => after? name (trimStart inner)

/-! ### Brackets on a line -/

section Brackets

variable {name line : List Char}

theorem mem_restsOfBracketed_iff (hne : name ≠ []) (hname : ∀ c ∈ name, isBlank c = false)
    {rest : List Char} : rest ∈ restsOfBracketed name line ↔ Bracketed name line rest := by
  simp only [restsOfBracketed, List.mem_filterMap, mem_afterEach_iff, after?_eq_some_iff]
  constructor
  · rintro ⟨inner, ⟨before, rfl⟩, htrim⟩
    refine ⟨before, inner.takeWhile isBlank, List.all_eq_true.mp List.all_takeWhile, ?_⟩
    rw [← htrim, trimStart, List.takeWhile_append_dropWhile]
    simp
  · rintro ⟨before, blanks, hblanks, rfl⟩
    refine ⟨blanks ++ (name ++ rest), ⟨before, by simp⟩, ?_⟩
    obtain ⟨c, cs, rfl⟩ := List.exists_cons_of_ne_nil hne
    refine (takeWhile_dropWhile_append hblanks fun d hd => ?_).2
    cases hd
    exact hname c (by simp)

theorem precededByBracket_iff (hne : name ≠ []) (hname : ∀ c ∈ name, isBlank c = false) :
    precededByBracket name line = true ↔ ∃ rest, Bracketed name line rest := by
  simp only [← mem_restsOfBracketed_iff hne hname, restsOfBracketed, List.mem_filterMap]
  rw [precededByBracket, List.any_eq_true]
  constructor
  · rintro ⟨inner, hinner, h⟩
    obtain ⟨rest, hrest⟩ := Option.isSome_iff_exists.mp ((isSome_after? _ _).trans h)
    exact ⟨rest, inner, hinner, hrest⟩
  · rintro ⟨rest, inner, hinner, hrest⟩
    exact ⟨inner, hinner, by rw [← isSome_after?, hrest, Option.isSome_some]⟩

/-- A name with a character elsewhere in the text after it is a start of the text before it. -/
theorem isPrefixOf_append_cons {c : Char} (hc : c ∉ name) (cs rest : List Char) :
    name.isPrefixOf (cs ++ c :: rest) = name.isPrefixOf cs := by
  induction name generalizing cs with
  | nil => rfl
  | cons d name ih =>
    simp only [List.mem_cons, not_or] at hc
    cases cs with
    | nil => simp [List.isPrefixOf_cons_cons, Ne.symm hc.1]
    | cons e cs => rw [List.cons_append, List.isPrefixOf_cons_cons, List.isPrefixOf_cons_cons, ih hc.2]

theorem isPrefixOf_trimStart_append (hne : name ≠ []) (hname : ∀ c ∈ name, isBlank c = false)
    (rest : List Char) : name.isPrefixOf (trimStart (name ++ rest)) = true := by
  obtain ⟨c, cs, rfl⟩ := List.exists_cons_of_ne_nil hne
  have htrim : trimStart (c :: cs ++ rest) = c :: cs ++ rest := by
    simp [trimStart, hname c (by simp)]
  rw [htrim, List.isPrefixOf_iff_prefix]
  exact List.prefix_append _ _

/-- A name does not follow a bracket that is closed at once. -/
theorem isPrefixOf_trimStart_closed (hhead : name.head? ≠ some ']') (hne : name ≠ [])
    (rest : List Char) : name.isPrefixOf (trimStart (']' :: rest)) = false := by
  obtain ⟨c, cs, rfl⟩ := List.exists_cons_of_ne_nil hne
  have hc : c ≠ ']' := fun h => hhead (congrArg some h)
  have htrim : trimStart (']' :: rest) = ']' :: rest := rfl
  rw [htrim, List.isPrefixOf_cons_cons, beq_false_of_ne hc, Bool.false_and]

theorem precededByBracket_append_of_not_mem {start : List Char} (h : '[' ∉ start)
    (cs : List Char) : precededByBracket name (start ++ cs) = precededByBracket name cs := by
  rw [precededByBracket, afterEach_append, afterEach_eq_nil h]
  rfl

/-- No bracket reaches past a character that is neither white space nor in the name. -/
theorem precededByBracket_append_cons {c : Char} (hblank : isBlank c = false) (hc : c ∉ name)
    (cs rest : List Char) : precededByBracket name (cs ++ c :: rest) =
      (precededByBracket name cs || precededByBracket name (c :: rest)) := by
  have htrim : ∀ inner, trimStart (inner ++ c :: rest) = trimStart inner ++ c :: rest := by
    intro inner
    rw [trimStart, List.dropWhile_append]
    split
    · rename_i hempty
      have hstop : (c :: rest).dropWhile isBlank = c :: rest := by simp [hblank]
      rw [hstop, trimStart, List.isEmpty_iff.mp hempty, List.nil_append]
    · rfl
  simp only [precededByBracket, afterEach_append, List.any_append, List.any_map, Function.comp_def,
    htrim, isPrefixOf_append_cons hc]

theorem precededByBracket_bracket (cs : List Char) : precededByBracket name ('[' :: cs) =
    (name.isPrefixOf (trimStart cs) || precededByBracket name cs) := by
  simp [precededByBracket, afterEach, after?]

end Brackets

/-! ### The name that is read -/

namespace FieldMatch

variable (m : FieldMatch)

theorem fullName_ne_nil : m.fullName ≠ [] := by
  unfold fullName
  split
  · simp
  · exact m.name_ne_nil

theorem isBlank_fullName : ∀ c ∈ m.fullName, isBlank c = false := by
  intro c hc
  rcases m.mem_fullName hc with hname | rfl | rfl
  · exact isBlank_of_isNameChar hname
  · decide
  · decide

/-- The name that is read starts where the name stands. -/
theorem exists_append_fullName : ∃ after, m.name ++ m.rest = m.fullName ++ after := by
  unfold fullName
  split
  · rename_i hpair
    obtain ⟨after, hafter⟩ := List.isPrefixOf_iff_prefix.mp hpair
    exact ⟨after, by rw [← hafter, List.append_assoc]⟩
  · exact ⟨m.rest, rfl⟩

/-- A name token that is opened has its bracket before the name. -/
theorem bracketed_of_isOpened (h : m.isOpened = true) {line : String} {tag : Tag}
    {before : List Char} (hm : tag.MatchesAt line before m) :
    ∃ rest, Bracketed m.fullName line.toList rest := by
  obtain ⟨after, hafter⟩ := m.exists_append_fullName
  refine ⟨after, before ++ tag.spelling ++ m.blank :: (m.location ++ (m.token ++ [m.gap])), [],
    by simp, ?_⟩
  rw [hm, text, body, bracket, h, hafter]
  simp

end FieldMatch

/-- A name token that opens and closes with brackets has a bracket before its name. -/
theorem FieldLine.precededByBracket_of_isBracketed {line : String} {pieces : FieldLine}
    (h : FieldLine.ofLine? line = some pieces) (hbracketed : pieces.isBracketed = true) :
    precededByBracket pieces.name line.toList = true := by
  obtain ⟨tag, m, hm, rfl⟩ := FieldLine.exists_readsAt h
  obtain ⟨before, hmatch⟩ := hm.matchesAt
  rw [m.name_pieces, precededByBracket_iff m.fullName_ne_nil m.isBlank_fullName]
  exact m.bracketed_of_isOpened (Bool.and_eq_true_iff.mp hbracketed).1 hmatch

/-- The search for a bracket before the name decides alone. -/
theorem Field.isOptional_eq {line name : String} {field : Field}
    (h : (Field.ofLine? line).result = .ok (some (name, field))) :
    field.isOptional = precededByBracket name.toList line.toList := by
  obtain ⟨pieces, hpieces, -, -, rfl, hoptional, -, -⟩ := Field.ofLine?_eq_some h
  rw [hoptional, String.toList_ofList, Bool.or_eq_right_iff_imp]
  exact FieldLine.precededByBracket_of_isBracketed hpieces

theorem Field.name_of_ofLine? {line name : String} {field : Field}
    (h : (Field.ofLine? line).result = .ok (some (name, field))) :
    name.toList ≠ [] ∧ ∀ c ∈ name.toList, isBlank c = false := by
  obtain ⟨pieces, hpieces, -, -, rfl, -⟩ := Field.ofLine?_eq_some h
  obtain ⟨tag, m, -, rfl⟩ := FieldLine.exists_readsAt hpieces
  rw [String.toList_ofList, m.name_pieces]
  exact ⟨m.fullName_ne_nil, m.isBlank_fullName⟩

theorem Field.isOptional_iff {line name : String} {field : Field}
    (h : (Field.ofLine? line).result = .ok (some (name, field))) :
    field.isOptional = true ↔ ∃ rest, Bracketed name.toList line.toList rest := by
  obtain ⟨hne, hblank⟩ := Field.name_of_ofLine? h
  rw [Field.isOptional_eq h, precededByBracket_iff hne hblank]

/-- When a field is optional, for every line that declares one: if and only if the text of its name
follows a bracket. So it is optional through its own bracketed name alone, except on the lines that
have a longer name in brackets, which starts with it, but not the name itself. -/
theorem Field.isOptional_iff_bracketed_name {line name : String} {field : Field}
    (h : (Field.ofLine? line).result = .ok (some (name, field))) :
    (field.isOptional = true ↔ ∃ rest, Bracketed name.toList line.toList rest) ∧
    ((field.isOptional = true ↔ ∃ rest, Bracketed name.toList line.toList rest ∧ EndsName rest) ↔
      ((∃ rest, Bracketed name.toList line.toList rest ∧ ¬EndsName rest) →
        ∃ rest, Bracketed name.toList line.toList rest ∧ EndsName rest)) := by
  refine ⟨Field.isOptional_iff h, ?_⟩
  rw [Field.isOptional_iff h]
  constructor
  · rintro hown ⟨rest, hrest, -⟩
    exact hown.mp ⟨rest, hrest⟩
  · intro hlonger
    constructor
    · rintro ⟨rest, hrest⟩
      by_cases hends : EndsName rest
      · exact ⟨rest, hrest, hends⟩
      · exact hlonger ⟨rest, hrest, hends⟩
    · rintro ⟨rest, hrest, -⟩
      exact ⟨rest, hrest⟩

/-- A word in the description that starts with the name makes the field optional, and so does the
name itself there; only the first is no bracketed name. -/
theorem Field.isOptional_iff_bracketed_name_longer_word :
    let line := "@apiParam {String} id see [identifier]"
    let line' := "@apiParam {String} id see [ id]"
    (∃ field, (Field.ofLine? line).result = .ok (some ("id", field)) ∧ field.isOptional = true ∧
      ¬∃ rest, Bracketed "id".toList line.toList rest ∧ EndsName rest) ∧
    ∃ field, (Field.ofLine? line').result = .ok (some ("id", field)) ∧ field.isOptional = true ∧
      ∃ rest, Bracketed "id".toList line'.toList rest ∧ EndsName rest := by
  intro line line'
  have hmem : ∀ {l rest : List Char}, rest ∈ restsOfBracketed "id".toList l ↔
      Bracketed "id".toList l rest := mem_restsOfBracketed_iff (by decide) (isBlank_of_all rfl)
  have hrests : restsOfBracketed "id".toList line.toList = ["entifier]".toList] := by
    decide +kernel
  have hrests' : restsOfBracketed "id".toList line'.toList = ["]".toList] := by decide +kernel
  have hlonger : Bracketed "id".toList line.toList "entifier]".toList := by
    rw [← hmem, hrests]
    exact List.mem_singleton.mpr rfl
  have hown : Bracketed "id".toList line'.toList "]".toList := by
    rw [← hmem, hrests']
    exact List.mem_singleton.mpr rfl
  have hfield : (Field.ofLine? line).result = .ok (some ("id", {
      type := ⟨.scalar "String", [], none⟩, isOptional := true, description := "see [identifier]"
      isHeader := false })) := except_eq_ok_of_toOption (by decide +kernel)
  have hfield' : (Field.ofLine? line').result = .ok (some ("id", {
      type := ⟨.scalar "String", [], none⟩, isOptional := true, description := "see [ id]"
      isHeader := false })) := except_eq_ok_of_toOption (by decide +kernel)
  refine ⟨⟨_, hfield, (Field.isOptional_iff_bracketed_name hfield).1.mpr ⟨_, hlonger⟩, ?_⟩,
    ⟨_, hfield', (Field.isOptional_iff_bracketed_name hfield').1.mpr ⟨_, hown⟩, _, hown, ?_⟩⟩
  · rintro ⟨rest, hrest, hends⟩
    rw [← hmem, hrests, List.mem_singleton] at hrest
    subst hrest
    exact absurd (hends 'e' rfl) (by decide)
  · intro c hc
    cases hc
    decide

/-! ### Warnings -/

section Warnings

variable {line : String}

theorem Field.warnings_ofLine?_of_parse {pieces : FieldLine} {type : FieldType}
    (hpieces : FieldLine.ofLine? line = some pieces) (hdot : '.' ∉ pieces.name)
    (htype : FieldType.parse pieces.typeText = .ok type) :
    (Field.ofLine? line).warnings =
      if precededByBracket pieces.name line.toList != pieces.isBracketed then
        [.strayBracket (String.ofList pieces.name) line]
      else [] := by
  unfold Field.ofLine?
  simp only [hpieces, if_neg hdot, htype]
  split <;> rfl

theorem Field.warnings_ofLine?_of_declared {name : String} {field : Field}
    (h : (Field.ofLine? line).result = .ok (some (name, field))) :
    ∃ pieces, FieldLine.ofLine? line = some pieces ∧ name = String.ofList pieces.name ∧
      (Field.ofLine? line).warnings =
        if field.isOptional && !pieces.isBracketed then [.strayBracket name line] else [] := by
  obtain ⟨pieces, hpieces, hdot, htype, hname, -⟩ := Field.ofLine?_eq_some h
  refine ⟨pieces, hpieces, hname, ?_⟩
  rw [Field.warnings_ofLine?_of_parse hpieces hdot htype, Field.isOptional_eq h, hname,
    String.toList_ofList]
  -- of the two ways to disagree, a bracketed token without a bracket before its name is excluded
  have himp := FieldLine.precededByBracket_of_isBracketed hpieces
  cases hpreceded : precededByBracket pieces.name line.toList with
  | true => cases pieces.isBracketed <;> rfl
  | false =>
    rw [hpreceded] at himp
    cases hbracketed : pieces.isBracketed with
    | true => exact absurd (himp hbracketed) (by decide)
    | false => rfl

theorem Field.warnings_ofLine?_of_not_declared
    (h : ¬∃ declared, (Field.ofLine? line).result = .ok (some declared)) :
    (Field.ofLine? line).warnings = [] := by
  cases hpieces : FieldLine.ofLine? line with
  | none => simp [Field.ofLine?, hpieces]
  | some pieces =>
    by_cases hdot : '.' ∈ pieces.name
    · simp [Field.ofLine?, hpieces, hdot]
    · cases htype : FieldType.parse pieces.typeText with
      | error cause => simp [Field.ofLine?, hpieces, hdot, htype, Reading.fail]
      | ok type => exact absurd ⟨_, Field.result_ofLine?_of_parse hpieces hdot htype⟩ h

/-- The name token and the search for a bracket can disagree in one way only. A token that opens and
closes with brackets has its name after a bracket, so the search decides whether a field is optional;
the one warning of a line is raised if and only if the search makes the field optional and the token
does not; and a line that declares no field, or cannot be read, raises none. -/
theorem Field.ofLine?_brackets (line : String) :
    (∀ pieces, FieldLine.ofLine? line = some pieces → pieces.isBracketed = true →
      precededByBracket pieces.name line.toList = true) ∧
    (∀ name field, (Field.ofLine? line).result = .ok (some (name, field)) →
      field.isOptional = precededByBracket name.toList line.toList ∧
      ∃ pieces, FieldLine.ofLine? line = some pieces ∧ name = String.ofList pieces.name ∧
        (Field.ofLine? line).warnings =
          if field.isOptional && !pieces.isBracketed then [.strayBracket name line] else []) ∧
    ((¬∃ declared, (Field.ofLine? line).result = .ok (some declared)) →
      (Field.ofLine? line).warnings = []) := by
  refine ⟨fun pieces hpieces hbracketed => ?_, fun name field h => ⟨?_, ?_⟩, fun h => ?_⟩
  · exact FieldLine.precededByBracket_of_isBracketed hpieces hbracketed
  · exact Field.isOptional_eq h
  · exact Field.warnings_ofLine?_of_declared h
  · exact Field.warnings_ofLine?_of_not_declared h

/-- A token that is opened and not closed, on a line with an earlier tag that cannot be read. -/
theorem Field.ofLine?_brackets_unclosed :
    let line := "@apiParam \x7bx @apiParam {Number} [size of it"
    ∃ field, (Field.ofLine? line).result = .ok (some ("size", field)) ∧ field.isOptional = true ∧
      (Field.ofLine? line).warnings = [.strayBracket "size" line] := by
  intro line
  have hfield : (Field.ofLine? line).result = .ok (some ("size", {
      type := ⟨.scalar "Number", [], none⟩, isOptional := true, description := "of it"
      isHeader := false })) := except_eq_ok_of_toOption (by decide +kernel)
  have hpieces : FieldLine.ofLine? line = some {
      typeText := "Number".toList, name := "size".toList, isBracketed := false
      description := "of it".toList, isHeader := false } := by decide +kernel
  obtain ⟨-, pieces, hread, -, hwarnings⟩ := (Field.ofLine?_brackets line).2.1 _ _ hfield
  obtain rfl := Option.some.inj (hpieces.symm.trans hread)
  exact ⟨_, hfield, rfl, hwarnings⟩

end Warnings

end RouteDoc
