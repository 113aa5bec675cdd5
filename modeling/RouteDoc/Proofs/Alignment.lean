import Mathlib.Data.List.Basic
import Mathlib.Data.List.TakeWhile
import RouteDoc.Proofs.Spacing
import RouteDoc.Proofs.WrittenField

/-! White space between the columns of annotations. Which white space character separates two columns
does not matter, and a run of any length may stand before the description of a field. After a tag and
after a type there is one character: a second one ends the reading. -/

namespace RouteDoc

open Text

/-! ### A longer run before the description -/

namespace Text

theorem not_mem_of_isBlank {cs : List Char} (hcs : ∀ c ∈ cs, isBlank c = false) {blank : Char}
    (hblank : isBlank blank = true) : blank ∉ cs := by
  intro hmem
  rw [hcs blank hmem] at hblank
  cases hblank

/-- A text without white space comes before the first white space. -/
theorem exists_of_append_eq_append_blank {cs rest before after : List Char} {blank : Char}
    (hcs : ∀ c ∈ cs, isBlank c = false) (hblank : isBlank blank = true)
    (h : cs ++ rest = before ++ blank :: after) :
    ∃ middle, before = cs ++ middle ∧ rest = middle ++ blank :: after := by
  rw [List.append_eq_append_iff] at h
  obtain ⟨middle, hbefore, hrest⟩ | ⟨middle, hcs', hafter⟩ := h
  · exact ⟨middle, hbefore, hrest⟩
  · cases middle with
    | nil => exact ⟨[], by simpa using hcs'.symm, by simpa using hafter.symm⟩
    | cons c middle =>
      obtain ⟨rfl, -⟩ := List.cons.inj hafter
      exact absurd (by simp [hcs']) (not_mem_of_isBlank hcs hblank)

end Text

namespace FieldMatch

variable (m : FieldMatch)

/-- The parts of a match from the location to the name. -/
def core : List Char := m.location ++ (m.token ++ m.gap :: (m.bracket ++ m.name))

theorem body_eq : m.body = m.core ++ m.rest := by simp [body, core]

theorem isBlank_bracket_name : ∀ c ∈ m.bracket ++ m.name, isBlank c = false := by
  intro c hc
  rcases List.mem_append.mp hc with hc | hc
  · unfold bracket at hc
    split at hc
    · rw [List.mem_singleton.mp hc]
      decide
    · cases hc
  · exact isBlank_of_isNameChar (m.isNameChar_name c hc)

/-- White space inside the parts comes after a brace or a parenthesis. -/
theorem getLast?_of_core_eq {before after : List Char} {blank : Char}
    (hblank : isBlank blank = true) (h : m.core = before ++ blank :: after) :
    before.getLast? = some '}' ∨ before.getLast? = some ')' := by
  have htoken : ∀ {before : List Char},
      m.token ++ m.gap :: (m.bracket ++ m.name) = before ++ blank :: after →
      before.getLast? = some '}' := by
    intro before h
    obtain ⟨middle, rfl, hmiddle⟩ := exists_of_append_eq_append_blank m.isBlank_token hblank h
    cases middle with
    | nil => rw [List.append_nil, m.getLast?_token]
    | cons c middle =>
      have hmem : blank ∈ m.bracket ++ m.name := by
        rw [(List.cons.inj hmiddle).2]
        simp
      exact absurd hmem (not_mem_of_isBlank m.isBlank_bracket_name hblank)
  unfold core at h
  have hlocation := m.locationText
  generalize m.location = location at h hlocation
  cases hlocation with
  | nothing => exact .inl (htoken h)
  | @place w gap hne hword hgap =>
    have hplace : ∀ c ∈ '(' :: w ++ [')'], isBlank c = false := by
      intro c hc
      simp only [List.cons_append, List.mem_cons, List.mem_append, List.not_mem_nil, or_false] at hc
      rcases hc with rfl | hc | rfl
      · decide
      · exact isBlank_of_isWord (hword c hc)
      · decide
    have hsplit : ('(' :: w ++ [')']) ++ gap :: (m.token ++ m.gap :: (m.bracket ++ m.name)) =
        before ++ blank :: after := by
      rw [← h]
      simp
    obtain ⟨middle, rfl, hmiddle⟩ := exists_of_append_eq_append_blank hplace hblank hsplit
    cases middle with
    | nil => exact .inr (by rw [List.append_nil, List.getLast?_concat])
    | cons c middle =>
      have hlast := htoken (List.cons.inj hmiddle).2
      refine .inl ?_
      rw [List.getLast?_append, List.getLast?_cons, hlast]
      rfl

end FieldMatch

/-- White space that is not empty. -/
structure BlankRun (run : List Char) : Prop where
  ne_nil : run ≠ []
  isBlank_all : ∀ c ∈ run, isBlank c = true

/-- A text that ends neither with a tag nor with a character after which a column may start. -/
structure Sealed (text : List Char) : Prop where
  no_tag : ∀ tag : Tag, ¬tag.spelling <:+ text
  last : ∃ c, text.getLast? = some c ∧ (isWord c = true ∨ c = ']')

section Seam

variable {text run run' description : List Char}

theorem BlankRun.exists_cons (h : BlankRun run) :
    ∃ blank blanks, run = blank :: blanks ∧ isBlank blank = true := by
  obtain ⟨blank, blanks, rfl⟩ := List.exists_cons_of_ne_nil h.ne_nil
  exact ⟨blank, blanks, rfl, h.isBlank_all blank (by simp)⟩

theorem BlankRun.not_mem (h : BlankRun run) {c : Char} (hc : isBlank c = false) : c ∉ run :=
  fun hmem => absurd ((h.isBlank_all c hmem).symm.trans hc) (by decide)

/-- The parts of a match end before a run of white space that no brace or parenthesis is before. -/
theorem FieldMatch.exists_of_body_eq (m : FieldMatch) (hrun : BlankRun run)
    (hbrace : text.getLast? ≠ some '}') (hparen : text.getLast? ≠ some ')')
    (h : m.body = text ++ (run ++ description)) :
    ∃ middle, text = m.core ++ middle ∧ m.rest = middle ++ (run ++ description) := by
  obtain ⟨blank, blanks, rfl, hblank⟩ := hrun.exists_cons
  rw [m.body_eq, List.append_eq_append_iff] at h
  obtain ⟨middle, htext, hrest⟩ | ⟨middle, hcore, hrest⟩ := h
  · exact ⟨middle, htext, hrest⟩
  · cases middle with
    | nil => exact ⟨[], by simpa using hcore.symm, by simpa using hrest.symm⟩
    | cons c middle =>
      obtain ⟨rfl, -⟩ := List.cons.inj hrest
      rcases m.getLast?_of_core_eq hblank hcore with hlast | hlast
      · exact absurd hlast hbrace
      · exact absurd hlast hparen

theorem FieldLine.heading?_run {isHeader : Bool} {heading : List Char × List Char × Bool}
    (hbrace : text.getLast? ≠ some '}') (hparen : text.getLast? ≠ some ')') (hrun : BlankRun run)
    (hrun' : BlankRun run')
    (h : FieldLine.heading? isHeader (text ++ (run ++ description)) = some heading) :
    FieldLine.heading? isHeader (text ++ (run' ++ description)) = some heading := by
  obtain ⟨p, hread, rfl⟩ := Option.map_eq_some_iff.mp h
  obtain ⟨m, hm, rfl⟩ := FieldMatch.exists_of_read? hread isBlank_space
  obtain ⟨middle, rfl, hrest⟩ := m.exists_of_body_eq hrun hbrace hparen (List.cons.inj hm).2
  obtain ⟨blank, blanks, rfl, hblank⟩ := hrun.exists_cons
  obtain ⟨blank', blanks', rfl, hblank'⟩ := hrun'.exists_cons
  -- the same parts, with the other run in what follows the name
  let m' : FieldMatch := { m with
    rest := middle ++ (blank' :: blanks' ++ description)
    isNameChar_rest := by
      intro c hc
      cases middle with
      | nil =>
        cases hc
        rw [Bool.eq_false_iff]
        intro hname
        exact absurd (hblank'.symm.trans (isBlank_of_isNameChar hname)) (by decide)
      | cons d middle =>
        cases hc
        exact m.isNameChar_rest _ (by rw [hrest]; rfl) }
  have hbody : m'.body = m.core ++ middle ++ (blank' :: blanks' ++ description) := by
    rw [m'.body_eq, List.append_assoc]
    rfl
  have hpair : ∀ {blank : Char} {after : List Char}, isBlank blank = true →
      ['[', ']'].isPrefixOf (middle ++ blank :: after) = ['[', ']'].isPrefixOf middle := by
    intro blank after hblank
    exact isPrefixOf_append_cons (not_mem_of_isBlank (isBlank_of_all rfl) hblank) _ _
  have hname : m'.fullName = m.fullName := by
    change (if ['[', ']'].isPrefixOf (middle ++ blank' :: (blanks' ++ description)) then _ else _) = _
    rw [FieldMatch.fullName, hrest, List.cons_append, hpair hblank, hpair hblank']
  rw [FieldLine.heading?, ← hbody, m'.read?_body, Option.map_some]
  simp only [FieldLine.heading, m'.name_pieces, hname]
  rfl

theorem FieldLine.heading?_congr_run (isHeader : Bool) (hbrace : text.getLast? ≠ some '}')
    (hparen : text.getLast? ≠ some ')') (hrun : BlankRun run) (hrun' : BlankRun run') :
    FieldLine.heading? isHeader (text ++ (run ++ description)) =
      FieldLine.heading? isHeader (text ++ (run' ++ description)) :=
  Option.ext fun _ => ⟨heading?_run hbrace hparen hrun hrun', heading?_run hbrace hparen hrun' hrun⟩

/-- A pattern without white space is found before a run of it or after it. -/
theorem afterEach_append_run {p : Char} {ps : List Char} (hp : ∀ c ∈ p :: ps, isBlank c = false)
    (hrun : BlankRun run) (cs rest : List Char) : afterEach (p :: ps) (cs ++ (run ++ rest)) =
      (afterEach (p :: ps) cs).map (· ++ (run ++ rest)) ++ afterEach (p :: ps) rest := by
  have hafter : afterEach (p :: ps) (run ++ rest) = afterEach (p :: ps) rest :=
    afterEach_append_of_not_mem (hrun.not_mem (hp p (by simp))) rest
  obtain ⟨blank, blanks, rfl, hblank⟩ := hrun.exists_cons
  rw [← hafter]
  exact afterEach_append_cons (not_mem_of_isBlank hp hblank) cs (blanks ++ rest)

namespace Sealed

theorem isWord_getLast? (h : Sealed text) {before rest : List Char} (htext : text = before ++ rest)
    {c : Char} (hlast : rest.getLast? = some c) : isWord c = true ∨ c = ']' := by
  obtain ⟨d, hd, hclass⟩ := h.last
  rw [htext, List.getLast?_append, hlast, Option.some_or, Option.some.injEq] at hd
  rwa [hd]

/-- An occurrence of a tag before the run has the same heading after it with any run. -/
theorem heading?_of_mem (h : Sealed text) (hrun : BlankRun run) (hrun' : BlankRun run') {tag : Tag}
    (isHeader : Bool) {rest : List Char} (hrest : rest ∈ afterEach tag.spelling text) :
    ((afterBlank? (rest ++ (run ++ description))).bind (FieldLine.heading? isHeader)) =
      (afterBlank? (rest ++ (run' ++ description))).bind (FieldLine.heading? isHeader) := by
  obtain ⟨before, htext⟩ := mem_afterEach_iff.mp hrest
  cases rest with
  | nil => exact absurd ⟨before, by simp [htext]⟩ (h.no_tag tag)
  | cons c rest =>
    have hend : text = before ++ tag.spelling ++ [c] ++ rest := by simp [htext]
    have hbrace : rest.getLast? ≠ some '}' := fun hlast =>
      absurd (h.isWord_getLast? hend hlast) (by decide)
    have hparen : rest.getLast? ≠ some ')' := fun hlast =>
      absurd (h.isWord_getLast? hend hlast) (by decide)
    simp only [List.cons_append, afterBlank?]
    split
    · exact FieldLine.heading?_congr_run isHeader hbrace hparen hrun hrun'
    · rfl

/-- What a scan for a tag reads, but for the description, does not depend on the run. -/
theorem scanFor_heading? (h : Sealed text) (hrun : BlankRun run) (hrun' : BlankRun run') (tag : Tag)
    (isHeader : Bool) :
    scanFor tag.spelling (FieldLine.heading? isHeader) (text ++ (run ++ description)) =
      scanFor tag.spelling (FieldLine.heading? isHeader) (text ++ (run' ++ description)) := by
  obtain ⟨stem, hstem, -⟩ := tag.exists_spelling
  have hsplit : ∀ {run : List Char}, BlankRun run →
      afterEach tag.spelling (text ++ (run ++ description)) =
        (afterEach tag.spelling text).map (· ++ (run ++ description)) ++
          afterEach tag.spelling description := by
    intro run hrun
    have hblank := tag.isBlank_spelling
    rw [hstem] at hblank ⊢
    exact afterEach_append_run hblank hrun text description
  rw [scanFor, scanFor, hsplit hrun, hsplit hrun', List.findSome?_append, List.findSome?_append,
    List.findSome?_map, List.findSome?_map]
  exact congrArg (Option.or · _)
    (findSome?_congr fun rest hrest => h.heading?_of_mem hrun hrun' isHeader hrest)

/-- White space after the text is not skipped from a bracket in it. -/
theorem trimStart_append (h : Sealed text) {before rest : List Char}
    (htext : text = before ++ ['['] ++ rest) (cs : List Char) :
    trimStart (rest ++ cs) = trimStart rest ++ cs := by
  have hne : rest ≠ [] := by
    rintro rfl
    rw [List.append_nil] at htext
    exact absurd (h.isWord_getLast? htext rfl) (by decide)
  obtain ⟨c, hlast⟩ := Option.isSome_iff_exists.mp (List.getLast?_isSome.mpr hne)
  have hblank : isBlank c = false := by
    rcases h.isWord_getLast? htext hlast with hword | rfl
    · exact isBlank_of_isWord hword
    · decide
  rw [trimStart, List.dropWhile_append, if_neg]
  · rfl
  · rw [List.isEmpty_iff, List.dropWhile_eq_nil_iff]
    intro hall
    rw [hall c (List.mem_of_getLast? hlast)] at hblank
    cases hblank

/-- Brackets before the run are before nothing in the description. -/
theorem precededByBracket_append (h : Sealed text) (hrun : BlankRun run) {name : List Char}
    (hname : ∀ c ∈ name, isBlank c = false) :
    precededByBracket name (text ++ (run ++ description)) =
      (precededByBracket name text || precededByBracket name description) := by
  have hopen : ∀ c ∈ ['['], isBlank c = false := isBlank_of_all rfl
  have hafter := afterEach_append_run hopen hrun text description
  have hstart : ∀ rest ∈ afterEach ['['] text,
      name.isPrefixOf (trimStart (rest ++ (run ++ description))) = name.isPrefixOf (trimStart rest) := by
    intro rest hrest
    obtain ⟨before, htext⟩ := mem_afterEach_iff.mp hrest
    obtain ⟨blank, blanks, rfl, hblank⟩ := hrun.exists_cons
    rw [h.trimStart_append htext]
    exact isPrefixOf_append_cons (not_mem_of_isBlank hname hblank) _ _
  have hany : (afterEach ['['] text).any
        (fun rest => name.isPrefixOf (trimStart (rest ++ (run ++ description)))) =
      (afterEach ['['] text).any (fun rest => name.isPrefixOf (trimStart rest)) := by
    rw [Bool.eq_iff_iff, List.any_eq_true, List.any_eq_true]
    exact exists_congr fun rest => and_congr_right fun hrest => by rw [hstart rest hrest]
  simp only [precededByBracket, hafter, List.any_append, List.any_map, Function.comp_def, hany]

theorem sameHeading (h : Sealed text) (hrun : BlankRun run) (hrun' : BlankRun run') :
    SameHeading (String.ofList (text ++ (run ++ description)))
      (String.ofList (text ++ (run' ++ description))) := by
  constructor
  · simp only [FieldLine.heading_ofLine?, Tag.scan_eq, String.toList_ofList,
      h.scanFor_heading? hrun hrun']
  · intro name _ hname
    rw [String.toList_ofList, String.toList_ofList, h.precededByBracket_append hrun hname,
      h.precededByBracket_append hrun' hname]

end Sealed

end Seam

/-! ### Written fields with other white space -/

/-- White space between the columns of a field line: one character after the tag and one after the
type, and at least one before the description. -/
structure Columns where
  afterTag : Char
  afterType : Char
  afterName : List Char
  isBlank_afterTag : isBlank afterTag = true
  isBlank_afterType : isBlank afterType = true
  blankRun_afterName : BlankRun afterName

namespace WrittenField

/-- The line of a written field up to the end of its name token, with given texts after the tag and
after the type. -/
def startWith (f : WrittenField) (w₁ w₂ : List Char) : List Char :=
  f.start ++ f.tag.spelling ++ (w₁ ++ (f.locationText ++ ('{' :: f.expr ++ ['}'] ++
    (w₂ ++ f.form.token f.name))))

/-- The line of a written field with given texts after the tag, the type and the name token. -/
def lineWith (f : WrittenField) (w₁ w₂ w₃ : List Char) : String :=
  String.ofList (f.startWith w₁ w₂ ++ (w₃ ++ f.description))

/-- The line of a written field with its columns set apart. -/
def lineIn (f : WrittenField) (columns : Columns) : String :=
  f.lineWith [columns.afterTag] [columns.afterType] columns.afterName

namespace NameFits

variable {f : WrittenField}

theorem getLast?_token (h : f.NameFits) :
    ∃ c, (f.form.token f.name).getLast? = some c ∧ (isWord c = true ∨ c = ']') := by
  cases hform : f.form with
  | bare =>
    cases harray : f.isArray with
    | false =>
      obtain ⟨c, hc⟩ := Option.isSome_iff_exists.mp (List.getLast?_isSome.mpr h.word_ne_nil)
      refine ⟨c, ?_, .inl (h.isWord_word c (List.mem_of_getLast? hc))⟩
      simpa [NameForm.token, NameForm.isBracketed, NameForm.ending, name, harray] using hc
    | true =>
      refine ⟨']', ?_, .inr rfl⟩
      simp [NameForm.token, NameForm.isBracketed, NameForm.ending, name, harray]
  | bracketed => exact ⟨']', by simp [NameForm.token, NameForm.ending], .inr rfl⟩
  | defaulted value =>
    have htoken : (NameForm.defaulted value).token f.name = '[' :: (f.name ++ '=' :: value) ++ [']'] := by
      simp [NameForm.token, NameForm.isBracketed, NameForm.ending]
    exact ⟨']', by rw [htoken, List.getLast?_concat], .inr rfl⟩

/-- The name token ends the part of the line that is more than a description. -/
theorem sealed_startWith (h : f.NameFits) (w₁ : List Char) {blank : Char}
    (hblank : isBlank blank = true) : Sealed (f.startWith w₁ [blank]) := by
  have hsplit : f.startWith w₁ [blank] = (f.start ++ f.tag.spelling ++ (w₁ ++ (f.locationText ++
      ('{' :: f.expr ++ ['}'])))) ++ blank :: f.form.token f.name := by
    simp [startWith]
  rw [hsplit]
  constructor
  · rintro tag ⟨before, hbefore⟩
    obtain ⟨stem, hstem, -⟩ := tag.spelling_eq
    rw [List.append_eq_append_iff] at hbefore
    obtain ⟨middle, -, htag⟩ | ⟨middle, -, htoken⟩ := hbefore
    · exact absurd (by simp [htag]) (not_mem_of_isBlank tag.isBlank_spelling hblank)
    · have hat : '@' ∈ blank :: f.form.token f.name := by simp [htoken, hstem]
      rcases List.mem_cons.mp hat with rfl | hat
      · exact absurd hblank (by decide)
      · exact h.at_not_mem_token hat
  · obtain ⟨c, hlast, hc⟩ := h.getLast?_token
    refine ⟨c, ?_, hc⟩
    rw [List.getLast?_append, List.getLast?_cons, hlast]
    rfl

theorem sameHeading_lineIn (h : f.NameFits) (columns columns' : Columns) :
    SameHeading (f.lineIn columns) (f.lineIn columns') := by
  have hblanks : SameHeading (f.lineIn columns)
      (f.lineWith [columns'.afterTag] [columns'.afterType] columns.afterName) := by
    refine .of_respaced (congrArg String.ofList ?_)
    simp only [lineIn, lineWith, startWith, String.toList_ofList, spaced_append, spaced_cons,
      columns.isBlank_afterTag, columns'.isBlank_afterTag, columns.isBlank_afterType,
      columns'.isBlank_afterType, if_true]
  have hsealed := h.sealed_startWith [columns'.afterTag] columns'.isBlank_afterType
  exact hblanks.trans (hsealed.sameHeading columns.blankRun_afterName columns'.blankRun_afterName)

end NameFits

end WrittenField

/-! ### Route blocks with other white space -/

/-- The blocks start with the same line, and have the same lines after it but for which white space
character stands where. -/
structure Block.SameColumns (b b' : Block) : Prop where
  firstLine : b'.firstLine = b.firstLine
  body : b'.body.map respaced = b.body.map respaced

theorem Tag.word?_respaced (tag : Tag) (line : String) : tag.word? (respaced line) = tag.word? line :=
  tag.scan_respaced (fun cs => by rw [word_spaced]) line

theorem Draft.ofBlock?_eq_some {b : Block} {d : Draft}
    (h : (Draft.ofBlock? b).result = .ok (some d)) :
    b.routeHeader?.isSome = true ∧ d.name = (b.body.findSome? Tag.name.word?).getD "" ∧
      d.group = (b.body.findSome? Tag.group.word?).getD "" ∧ d.uses = Tag.use.words b.body := by
  obtain ⟨header, params, hheader, -, rfl⟩ := exists_of_ofBlock? h
  exact ⟨by rw [hheader]; rfl, rfl, rfl, rfl⟩

/-- A block with a route declaration and without a fatal line gives a draft. -/
theorem Draft.exists_ofBlock? {b : Block} (hheader : b.routeHeader?.isSome = true)
    (hgood : ¬b.IsBad) : ∃ d, (Draft.ofBlock? b).result = .ok (some d) := by
  cases hresult : (Draft.ofBlock? b).result with
  | error fault => exact absurd ((Block.draft_error_iff hheader).mp hresult).isBad hgood
  | ok draft =>
    obtain ⟨header, hheader⟩ := Option.isSome_iff_exists.mp hheader
    unfold Draft.ofBlock? at hresult
    simp only [hheader] at hresult
    obtain ⟨params, -, hd⟩ := Reading.bind_eq_ok_iff.mp hresult
    cases hd
    exact ⟨_, rfl⟩

namespace Block.SameColumns

variable {b b' : Block}

theorem filterMap_word? (h : b.SameColumns b') (tag : Tag) :
    b'.body.filterMap tag.word? = b.body.filterMap tag.word? := by
  have hrespaced : ∀ lines : List String,
      (lines.map respaced).filterMap tag.word? = lines.filterMap tag.word? := by
    intro lines
    rw [List.filterMap_map]
    exact congrArg (List.filterMap · lines) (funext tag.word?_respaced)
  rw [← hrespaced, h.body, hrespaced]

theorem isBad (h : b.SameColumns b') (hbad : b'.IsBad) : b.IsBad := by
  obtain ⟨line', hline', hfatal⟩ := hbad
  have hmem : respaced line' ∈ b.body.map respaced := by
    rw [← h.body]
    exact List.mem_map_of_mem hline'
  obtain ⟨line, hline, hsame⟩ := List.mem_map.mp hmem
  exact ⟨line, hline, (SameHeading.of_respaced hsame.symm).isFatal hfatal⟩

theorem exists_draft (h : b.SameColumns b') {d : Draft}
    (hd : (Draft.ofBlock? b).result = .ok (some d)) :
    ∃ d', (Draft.ofBlock? b').result = .ok (some d') ∧ d'.name = d.name ∧ d'.group = d.group ∧
      d'.uses = d.uses := by
  obtain ⟨hheader, hname, hgroup, huses⟩ := Draft.ofBlock?_eq_some hd
  have hgood : ¬b.IsBad := by
    intro hbad
    obtain ⟨fault, hfault⟩ := Block.exists_reports_iff.mpr hbad
    cases hd.symm.trans ((Block.draft_error_iff hheader).mpr hfault)
  have hheader' : b'.routeHeader?.isSome = true := by
    rw [Block.routeHeader?, h.firstLine]
    exact hheader
  obtain ⟨d', hd'⟩ := Draft.exists_ofBlock? hheader' fun hbad => hgood (h.isBad hbad)
  obtain ⟨-, hname', hgroup', huses'⟩ := Draft.ofBlock?_eq_some hd'
  refine ⟨d', hd', ?_, ?_, ?_⟩
  · rw [hname, hname', ← List.head?_filterMap, ← List.head?_filterMap, h.filterMap_word?]
  · rw [hgroup, hgroup', ← List.head?_filterMap, ← List.head?_filterMap, h.filterMap_word?]
  · rw [huses, huses', Tag.words, Tag.words, h.filterMap_word?]

end Block.SameColumns

/-- Which white space character stands between columns does not change a declaration. With other
columns, and any run of white space before its description, a line declares a field with the same
name, type, optionality and place; and the drafts of route blocks with the same columns have the same
name, group and uses. -/
theorem declarations_realigned :
    (∀ f : WrittenField, f.NameFits → ∀ (columns columns' : Columns) (name : String) (field : Field),
      (Field.ofLine? (f.lineIn columns)).result = .ok (some (name, field)) →
      ∃ field', (Field.ofLine? (f.lineIn columns')).result = .ok (some (name, field')) ∧
        field'.type = field.type ∧ field'.isOptional = field.isOptional ∧
        field'.isHeader = field.isHeader) ∧
    ∀ b b' : Block, b.SameColumns b' → ∀ d, (Draft.ofBlock? b).result = .ok (some d) →
      ∃ d', (Draft.ofBlock? b').result = .ok (some d') ∧ d'.name = d.name ∧ d'.group = d.group ∧
        d'.uses = d.uses := by
  refine ⟨fun f hname columns columns' name field hfield => ?_, fun b b' h d hd => h.exists_draft hd⟩
  exact (hname.sameHeading_lineIn columns columns').exists_field hfield

/-- Tabs after the tag and the type and a wide gap before the description of a header, and other white
space after the tags of a route block. -/
theorem declarations_realigned_tabs :
    (∃ field, (Field.ofLine? "see @apiHeader\t{String}\t[token] \u00a0\t of * the [client]").result =
      .ok (some ("token", field)) ∧ field.type = ⟨.scalar "String", [], none⟩ ∧
      field.isOptional = true ∧ field.isHeader = true) ∧
    ∃ d, (Draft.ofBlock? ⟨["@api {get} /items List items", "@apiName\tgetItems",
        "@apiGroup\u00a0items @apiUse\tPage"], "s"⟩).result = .ok (some d) ∧
      d.name = "getItems" ∧ d.group = "items" ∧ d.uses = ["Page"] := by
  let f : WrittenField := {
    start := "see ".toList, isHeader := true, location := none, expr := "String".toList
    form := .bracketed, word := "token".toList, isArray := false
    description := "of * the [client]".toList }
  let spaces : Columns := {
    afterTag := ' ', afterType := ' ', afterName := [' ']
    isBlank_afterTag := rfl
    isBlank_afterType := rfl
    blankRun_afterName := ⟨by decide, List.all_eq_true.mp rfl⟩ }
  let tabs : Columns := {
    afterTag := '\t', afterType := '\t', afterName := " \u00a0\t ".toList
    isBlank_afterTag := rfl
    isBlank_afterType := rfl
    blankRun_afterName := ⟨by decide, List.all_eq_true.mp rfl⟩ }
  have hname : f.NameFits := {
    word_ne_nil := by decide
    isWord_word := List.all_eq_true.mp rfl
    default := by rintro value ⟨⟩ }
  have hfield : (Field.ofLine? (f.lineIn spaces)).result = .ok (some ("token", {
      type := ⟨.scalar "String", [], none⟩, isOptional := true, description := "of "
      isHeader := true })) := except_eq_ok_of_toOption (by decide +kernel)
  have hline : f.lineIn tabs = "see @apiHeader\t{String}\t[token] \u00a0\t of * the [client]" := by
    decide +kernel
  let b : Block := ⟨["@api {get} /items List items", "@apiName getItems",
    "@apiGroup items @apiUse Page"], "s"⟩
  let d : Draft := {
    controller := "s", method := .get, path := "/items", summary := "List items"
    name := "getItems", group := "items", uses := ["Page"], params := ∅
    consumes := [defaultMediaType], produces := [defaultMediaType], body := [], responses := []
    descriptions := [] }
  let b' : Block := ⟨["@api {get} /items List items", "@apiName\tgetItems",
    "@apiGroup\u00a0items @apiUse\tPage"], "s"⟩
  have hdraft : (Draft.ofBlock? b).result = .ok (some d) := except_eq_ok_of_toOption (by decide +kernel)
  rw [← hline]
  exact ⟨declarations_realigned.1 f hname spaces tabs "token" _ hfield,
    declarations_realigned.2 b b' ⟨rfl, by decide +kernel⟩ d hdraft⟩

/-- A second white space character after the tag or after the type hides the field, and one after the
tag of the name hides the name. -/
theorem declarations_second_blank :
    let f : WrittenField := {
      start := [], isHeader := false, location := none, expr := "String".toList, form := .bare
      word := "id".toList, isArray := false, description := "item id".toList }
    let block (blanks : String) : Block :=
      ⟨["@api {get} /items List items", "@apiName" ++ blanks ++ "getItems"], "s"⟩
    f.NameFits ∧
    (Field.ofLine? (f.lineWith [' '] [' '] [' '])).result = .ok (some ("id", {
      type := ⟨.scalar "String", [], none⟩, isOptional := false, description := "item id"
      isHeader := false })) ∧
    (Field.ofLine? (f.lineWith [' ', ' '] [' '] [' '])).result = .ok none ∧
    (Field.ofLine? (f.lineWith [' '] [' ', ' '] [' '])).result = .ok none ∧
    (Draft.ofBlock? (block " ")).result.map (Option.map Draft.name) = .ok (some "getItems") ∧
    (Draft.ofBlock? (block "  ")).result.map (Option.map Draft.name) = .ok (some "") := by
  intro f block
  refine ⟨⟨by decide, List.all_eq_true.mp rfl, by rintro value ⟨⟩⟩, ?_, ?_, ?_, ?_, ?_⟩
  all_goals exact except_eq_ok_of_toOption (by decide +kernel)

end RouteDoc
