import RouteDoc.Proofs.Failure
import RouteDoc.Proofs.Scan

/-! The grammar of field lines. An occurrence of a field tag declares something if the text after it
has the parts that `FieldMatch` names. A line is read at the leftmost such occurrence of the header
tag, and only without any at the leftmost one of the parameter tag; all else on the line is passed
over. -/

namespace RouteDoc

open Text

/-- What may stand before the type: nothing, or a word in parentheses and one white space
character. -/
inductive LocationText : List Char → Prop
  | nothing : LocationText []
  | place {w : List Char} {blank : Char} (ne_nil : w ≠ []) (isWord_all : ∀ c ∈ w, isWord c = true)
      (isBlank_blank : isBlank blank = true) : LocationText ('(' :: w ++ [')', blank])

/-- The parts of a text that can follow a field tag: white space, a location, a type token, white
space, an opening bracket and a name, each as long as it can be, and then anything. -/
structure FieldMatch where
  blank : Char
  location : List Char
  token : List Char
  gap : Char
  isOpened : Bool
  name : List Char
  rest : List Char
  isBlank_blank : isBlank blank = true
  locationText : LocationText location
  isBlank_token : ∀ c ∈ token, isBlank c = false
  head?_token : token.head? = some '{'
  getLast?_token : token.getLast? = some '}'
  size_token : 3 ≤ (String.ofList token).utf8ByteSize
  isBlank_gap : isBlank gap = true
  name_ne_nil : name ≠ []
  isNameChar_name : ∀ c ∈ name, isNameChar c = true
  isNameChar_rest : ∀ c, rest.head? = some c → isNameChar c = false

namespace FieldMatch

/-- The bracket before the name, if there is one. -/
def bracket (m : FieldMatch) : List Char := if m.isOpened then ['['] else []

/-- The parts but for the white space after the tag. -/
def body (m : FieldMatch) : List Char :=
  m.location ++ (m.token ++ m.gap :: (m.bracket ++ (m.name ++ m.rest)))

/-- The text that has the parts. -/
def text (m : FieldMatch) : List Char := m.blank :: m.body

/-- The text between the outer braces of the type token. -/
def typeText (m : FieldMatch) : List Char := m.token.tail.dropLast

/-- The name with the brackets of an array, if they follow it at once. -/
def fullName (m : FieldMatch) : List Char :=
  if ['[', ']'].isPrefixOf m.rest then m.name ++ ['[', ']'] else m.name

/-- The pieces of the line that is read by the parts. -/
def pieces (isHeader : Bool) (m : FieldMatch) : FieldLine :=
  let rest := afterHints ((after? ['[', ']'] m.rest).getD m.rest)
  let closed := (after? [']'] rest).isSome
  let rest := (after? [']'] rest).getD rest
  let rest := (afterBlank? rest).getD rest
  { typeText := m.typeText
    name := m.fullName
    isBracketed := m.isOpened && closed
    description := if isHeader then rest.takeWhile (· != '*') else rest
    isHeader }

end FieldMatch

/-! ### Characters and tokens -/

theorem isBlank_of_isNameChar {c : Char} (h : isNameChar c = true) : isBlank c = false := by
  rw [isNameChar, Bool.or_eq_true, beq_iff_eq] at h
  rcases h with h | rfl
  · exact isBlank_of_isWord h
  · decide

theorem ne_of_isNameChar {c d : Char} (h : isNameChar c = true) (hd : isNameChar d = false) :
    c ≠ d := by
  rintro rfl
  exact absurd (h.symm.trans hd) (by decide)

theorem isSome_after? (start cs : List Char) : (after? start cs).isSome = start.isPrefixOf cs := by
  rw [Bool.eq_iff_iff, Option.isSome_iff_exists, List.isPrefixOf_iff_prefix]
  exact exists_congr fun rest => after?_eq_some_iff.trans eq_comm

theorem betweenBraces?_eq_some_iff {token typeText : List Char} :
    betweenBraces? token = some typeText ↔ token = '{' :: typeText ++ ['}'] ∧ typeText ≠ [] := by
  constructor
  · intro h
    unfold betweenBraces? at h
    split at h
    · rename_i cs
      rw [Option.ite_none_right_eq_some, Option.some.injEq] at h
      obtain ⟨⟨hlast, hne⟩, rfl⟩ := h
      obtain ⟨inner, rfl⟩ := List.getLast?_eq_some_iff.mp hlast
      exact ⟨by simp, hne⟩
    · cases h
  · rintro ⟨rfl, hne⟩
    simp [betweenBraces?, hne]

/-- A token in braces has something between them if it has three bytes at least. -/
theorem three_le_size_iff {typeText : List Char} :
    3 ≤ (String.ofList ('{' :: typeText ++ ['}'])).utf8ByteSize ↔ typeText ≠ [] := by
  have hsize : (String.ofList ('{' :: typeText ++ ['}'])).utf8ByteSize =
      (String.ofList typeText).utf8ByteSize + 2 := by
    rw [List.cons_append, String.ofList_cons, String.ofList_append, String.utf8ByteSize_append,
      String.utf8ByteSize_append, Nat.add_comm]
    rfl
  rw [hsize]
  cases typeText with
  | nil => decide
  | cons c cs =>
    have hpos := c.utf8Size_pos
    rw [String.ofList_cons, String.utf8ByteSize_append, String.utf8ByteSize_singleton]
    simp only [ne_eq, reduceCtorEq, not_false_eq_true, iff_true]
    omega

/-! ### Locations -/

theorem afterLocation?_eq_some {cs rest : List Char} (h : afterLocation? cs = some rest) :
    ∃ location, LocationText location ∧ cs = location ++ rest := by
  unfold afterLocation? at h
  split at h
  · obtain rfl := Option.some.inj h
    exact ⟨[], .nothing, rfl⟩
  · rename_i inner hopen
    simp only [Option.bind_eq_bind, Option.bind_eq_some_iff] at h
    obtain ⟨⟨w, afterW⟩, hword, afterClose, hclose, hblank⟩ := h
    obtain ⟨rfl, rfl, hne⟩ := word?_eq_some hword
    obtain ⟨blank, hisBlank, rfl⟩ := afterBlank?_eq_some_iff.mp hblank
    refine ⟨_, .place hne (fun c hc => isWord_of_mem_word hc) hisBlank, ?_⟩
    have hinner : inner = word inner ++ ([')'] ++ blank :: rest) := by
      rw [← after?_eq_some_iff.mp hclose, word_append_afterWord]
    rw [after?_eq_some_iff.mp hopen]
    simpa using hinner

theorem LocationText.afterLocation?_append {location : List Char} (h : LocationText location)
    {rest : List Char} (hrest : rest.head? = some '{') :
    afterLocation? (location ++ rest) = some rest := by
  cases h with
  | nothing =>
    obtain ⟨cs, rfl⟩ : ∃ cs, rest = '{' :: cs := List.head?_eq_some_iff.mp hrest
    rfl
  | @place w blank hne hword hblank =>
    have hstop : ∀ c, (')' :: blank :: rest).head? = some c → isWord c = false := by
      intro c hc
      cases hc
      decide
    have hread : word? (w ++ ')' :: blank :: rest) = some (w, ')' :: blank :: rest) :=
      word?_append hword hne hstop
    have hlast : afterBlank? (blank :: rest) = some rest :=
      afterBlank?_eq_some_iff.mpr ⟨blank, hblank, rfl⟩
    simp [afterLocation?, after?, hread, hlast]

theorem afterHints_suffix (cs : List Char) : afterHints cs <:+ cs := by
  unfold afterHints
  simp only
  split
  · rename_i rest hrest
    have hequals : rest <:+ _ := ⟨['='], (after?_eq_some_iff.mp hrest).symm⟩
    exact (List.dropWhile_suffix _).trans (hequals.trans (List.dropWhile_suffix _))
  · exact List.dropWhile_suffix _

/-! ### Reading and matching -/

namespace FieldMatch

variable (m : FieldMatch)

@[simp] theorem typeText_pieces (isHeader : Bool) : (m.pieces isHeader).typeText = m.typeText := rfl

@[simp] theorem name_pieces (isHeader : Bool) : (m.pieces isHeader).name = m.fullName := rfl

@[simp] theorem isHeader_pieces (isHeader : Bool) : (m.pieces isHeader).isHeader = isHeader := rfl

theorem token_eq : m.token = '{' :: m.typeText ++ ['}'] := by
  obtain ⟨cs, hcs⟩ := List.head?_eq_some_iff.mp m.head?_token
  have hlast := m.getLast?_token
  cases cs with
  | nil =>
    rw [hcs] at hlast
    exact absurd hlast (by decide)
  | cons c cs =>
    rw [hcs, List.getLast?_cons_cons] at hlast
    obtain ⟨inner, hinner⟩ := List.getLast?_eq_some_iff.mp hlast
    rw [typeText, hcs, hinner]
    simp

theorem typeText_ne_nil : m.typeText ≠ [] :=
  three_le_size_iff.mp (m.token_eq ▸ m.size_token)

/-- What has the parts is read by them. -/
theorem read?_body (isHeader : Bool) :
    FieldLine.read? isHeader m.body = some (m.pieces isHeader) := by
  have hlocation : afterLocation? m.body =
      some (m.token ++ m.gap :: (m.bracket ++ (m.name ++ m.rest))) :=
    m.locationText.afterLocation?_append (by rw [List.head?_append, m.head?_token]; rfl)
  have hgap : ∀ c, (m.gap :: (m.bracket ++ (m.name ++ m.rest))).head? = some c →
      (!isBlank c) = false := by
    intro c hc
    cases hc
    simp [m.isBlank_gap]
  obtain ⟨htoken, hafter⟩ := takeWhile_dropWhile_append (p := (!isBlank ·))
    (fun c hc => by simp [m.isBlank_token c hc]) hgap
  have hbraces : betweenBraces? m.token = some m.typeText :=
    betweenBraces?_eq_some_iff.mpr ⟨m.token_eq, m.typeText_ne_nil⟩
  have hblank : afterBlank? (m.gap :: (m.bracket ++ (m.name ++ m.rest))) =
      some (m.bracket ++ (m.name ++ m.rest)) :=
    afterBlank?_eq_some_iff.mpr ⟨_, m.isBlank_gap, rfl⟩
  have hopen : after? ['['] (m.bracket ++ (m.name ++ m.rest)) =
      if m.isOpened then some (m.name ++ m.rest) else none := by
    obtain ⟨c, cs, hname⟩ := List.exists_cons_of_ne_nil m.name_ne_nil
    have hc : '[' ≠ c := (ne_of_isNameChar (m.isNameChar_name c (by simp [hname])) (by decide)).symm
    unfold bracket
    split
    · exact after?_append _ _
    · rw [hname]
      exact after?_eq_none hc
  have hinner : (after? ['['] (m.bracket ++ (m.name ++ m.rest))).getD
      (m.bracket ++ (m.name ++ m.rest)) = m.name ++ m.rest := by
    rw [hopen]
    unfold bracket
    split <;> rfl
  have hopened : (after? ['['] (m.bracket ++ (m.name ++ m.rest))).isSome = m.isOpened := by
    rw [hopen]
    cases m.isOpened <;> rfl
  obtain ⟨hname, hrest⟩ := takeWhile_dropWhile_append m.isNameChar_name m.isNameChar_rest
  have hne : m.name.isEmpty = false := by simpa using m.name_ne_nil
  rw [FieldLine.read?_eq, hlocation, Option.bind_some, htoken, hbraces, Option.bind_some, hafter,
    hblank, Option.bind_some]
  simp only [FieldLine.readName?, hinner, hopened, hname, hrest, hne, Bool.false_eq_true, if_false,
    pieces, fullName, isSome_after?]

/-- What can be read has the parts. -/
theorem exists_of_read? {isHeader : Bool} {cs : List Char} {p : FieldLine}
    (h : FieldLine.read? isHeader cs = some p) {blank : Char} (hblank : isBlank blank = true) :
    ∃ m : FieldMatch, m.text = blank :: cs ∧ m.pieces isHeader = p := by
  rw [FieldLine.read?_eq] at h
  simp only [Option.bind_eq_some_iff] at h
  obtain ⟨cs₁, hlocation, typeText, hbraces, cs₂, hgap, hread⟩ := h
  obtain ⟨location, hlocationText, rfl⟩ := afterLocation?_eq_some hlocation
  obtain ⟨htoken, hne⟩ := betweenBraces?_eq_some_iff.mp hbraces
  obtain ⟨gap, hisBlank, hafter⟩ := afterBlank?_eq_some_iff.mp hgap
  have hcs₁ : cs₁ = ('{' :: typeText ++ ['}']) ++ gap :: cs₂ := by
    rw [← htoken, ← hafter, List.takeWhile_append_dropWhile]
  have hrun : ∀ c ∈ '{' :: typeText ++ ['}'], isBlank c = false := by
    intro c hc
    rw [← htoken] at hc
    simpa using List.all_eq_true.mp List.all_takeWhile c hc
  have hcs₂ : cs₂ = (if (after? ['['] cs₂).isSome then ['['] else []) ++
      (after? ['['] cs₂).getD cs₂ := by
    cases hopen : after? ['['] cs₂ with
    | none => rfl
    | some inner => exact after?_eq_some_iff.mp hopen
  unfold FieldLine.readName? at hread
  simp only [Option.ite_none_left_eq_some, Option.some.injEq] at hread
  obtain ⟨hname, rfl⟩ := hread
  refine ⟨{
    blank, location, gap
    token := '{' :: typeText ++ ['}']
    isOpened := (after? ['['] cs₂).isSome
    name := ((after? ['['] cs₂).getD cs₂).takeWhile isNameChar
    rest := ((after? ['['] cs₂).getD cs₂).dropWhile isNameChar
    isBlank_blank := hblank
    locationText := hlocationText
    isBlank_token := hrun
    head?_token := rfl
    getLast?_token := List.getLast?_concat
    size_token := three_le_size_iff.mpr hne
    isBlank_gap := hisBlank
    name_ne_nil := by simpa using hname
    isNameChar_name := List.all_eq_true.mp List.all_takeWhile
    isNameChar_rest := fun c hc => by
      have hhead := List.head?_dropWhile_not isNameChar ((after? ['['] cs₂).getD cs₂)
      rw [hc] at hhead
      simpa using hhead }, ?_, ?_⟩
  · simp only [text, body, bracket, List.takeWhile_append_dropWhile]
    rw [hcs₁, ← hcs₂]
  · simp [pieces, fullName, FieldMatch.typeText, isSome_after?]

theorem mem_fullName {c : Char} (hc : c ∈ m.fullName) :
    isNameChar c = true ∨ c = '[' ∨ c = ']' := by
  unfold fullName at hc
  split at hc
  · rcases List.mem_append.mp hc with hc | hc
    · exact .inl (m.isNameChar_name c hc)
    · exact .inr (by simpa using hc)
  · exact .inl (m.isNameChar_name c hc)

theorem description_subset (isHeader : Bool) : (m.pieces isHeader).description ⊆ m.rest := by
  have hrest := (afterBlank?_getD_suffix _).trans <| (after?_getD_suffix [']'] _).trans <|
    (afterHints_suffix _).trans (after?_getD_suffix ['[', ']'] m.rest)
  cases isHeader with
  | true => exact fun c hc => hrest.subset ((List.takeWhile_prefix _).subset hc)
  | false => exact hrest.subset

theorem dot_mem_fullName_iff : '.' ∈ m.fullName ↔ '.' ∈ m.name := by
  unfold fullName
  split <;> simp

end FieldMatch

/-! ### The occurrence that a line is read at -/

namespace Tag

/-- The tag stands on the line after `before`, and the text after it has the parts `m`. -/
def MatchesAt (tag : Tag) (line : String) (before : List Char) (m : FieldMatch) : Prop :=
  line.toList = before ++ tag.spelling ++ m.text

/-- The tag stands on the line before a text with the parts of a field. -/
def HasMatch (tag : Tag) (line : String) : Prop := ∃ before m, tag.MatchesAt line before m

/-- No occurrence of the tag further left on the line is before a text with such parts. -/
def IsFirstMatch (tag : Tag) (line : String) (m : FieldMatch) : Prop :=
  ∃ before, tag.MatchesAt line before m ∧
    ∀ before' m', tag.MatchesAt line before' m' → before.length ≤ before'.length

variable {tag : Tag} {line : String} {isHeader : Bool}

theorem MatchesAt.occursAt {before : List Char} {m : FieldMatch} (h : tag.MatchesAt line before m) :
    OccursAt tag.spelling line.toList before m.body :=
  ⟨m.blank, m.isBlank_blank, h⟩

theorem exists_matchesAt {before rest : List Char} {p : FieldLine}
    (h : OccursAt tag.spelling line.toList before rest)
    (hread : FieldLine.read? isHeader rest = some p) :
    ∃ m, tag.MatchesAt line before m ∧ m.pieces isHeader = p := by
  obtain ⟨blank, hblank, hline⟩ := h
  obtain ⟨m, hm, hpieces⟩ := FieldMatch.exists_of_read? hread hblank
  exact ⟨m, by rw [MatchesAt, hm, hline], hpieces⟩

theorem scan_read?_eq_none_iff :
    tag.scan (FieldLine.read? isHeader) line = none ↔ ¬tag.HasMatch line := by
  rw [scan_eq, scanFor_eq_none_iff]
  constructor
  · rintro h ⟨before, m, hm⟩
    have hnone := h before m.body hm.occursAt
    rw [m.read?_body] at hnone
    cases hnone
  · intro h before rest hoccurs
    rw [Option.eq_none_iff_forall_ne_some]
    intro p hp
    obtain ⟨m, hm, -⟩ := exists_matchesAt hoccurs hp
    exact h ⟨before, m, hm⟩

theorem scan_read?_eq_some_iff {p : FieldLine} :
    tag.scan (FieldLine.read? isHeader) line = some p ↔
      ∃ m, tag.IsFirstMatch line m ∧ m.pieces isHeader = p := by
  rw [scan_eq, scanFor_eq_some_iff]
  constructor
  · rintro ⟨before, rest, hoccurs, hread, hfirst⟩
    obtain ⟨m, hm, hpieces⟩ := exists_matchesAt hoccurs hread
    refine ⟨m, ⟨before, hm, fun before' m' hm' => ?_⟩, hpieces⟩
    exact hfirst before' m'.body hm'.occursAt (by simp [m'.read?_body])
  · rintro ⟨m, ⟨before, hm, hfirst⟩, rfl⟩
    refine ⟨before, m.body, hm.occursAt, m.read?_body isHeader, fun before' rest' hoccurs hread => ?_⟩
    obtain ⟨p', hp'⟩ := Option.isSome_iff_exists.mp hread
    obtain ⟨m', hm', -⟩ := exists_matchesAt hoccurs hp'
    exact hfirst before' m' hm'

theorem IsFirstMatch.hasMatch {m : FieldMatch} (h : tag.IsFirstMatch line m) : tag.HasMatch line := by
  obtain ⟨before, hm, -⟩ := h
  exact ⟨before, m, hm⟩

theorem HasMatch.exists_isFirstMatch (h : tag.HasMatch line) : ∃ m, tag.IsFirstMatch line m := by
  cases hscan : tag.scan (FieldLine.read? true) line with
  | none => exact absurd h (scan_read?_eq_none_iff.mp hscan)
  | some p =>
    obtain ⟨m, hm, -⟩ := scan_read?_eq_some_iff.mp hscan
    exact ⟨m, hm⟩

end Tag

/-- The match that a line is read by: the first of the header tag, or the first of the parameter tag
if the header tag has none. -/
inductive ReadsAt (line : String) : Tag → FieldMatch → Prop
  | header {m : FieldMatch} : Tag.header.IsFirstMatch line m → ReadsAt line .header m
  | param {m : FieldMatch} : ¬Tag.header.HasMatch line → Tag.param.IsFirstMatch line m →
      ReadsAt line .param m

section Lines

variable {line : String}

theorem exists_readsAt_iff :
    (∃ tag m, ReadsAt line tag m) ↔ Tag.header.HasMatch line ∨ Tag.param.HasMatch line := by
  constructor
  · rintro ⟨_, m, h | ⟨-, h⟩⟩
    · exact .inl h.hasMatch
    · exact .inr h.hasMatch
  · intro h
    by_cases hheader : Tag.header.HasMatch line
    · obtain ⟨m, hm⟩ := hheader.exists_isFirstMatch
      exact ⟨_, m, .header hm⟩
    · obtain ⟨m, hm⟩ := (h.resolve_left hheader).exists_isFirstMatch
      exact ⟨_, m, .param hheader hm⟩

theorem ReadsAt.ofLine?_eq {tag : Tag} {m : FieldMatch} (h : ReadsAt line tag m) :
    FieldLine.ofLine? line = some (m.pieces (decide (tag = .header))) := by
  unfold FieldLine.ofLine?
  cases h with
  | header hm =>
    rw [Tag.scan_read?_eq_some_iff.mpr ⟨m, hm, rfl⟩]
    rfl
  | param hheader hm =>
    rw [Tag.scan_read?_eq_none_iff.mpr hheader, Tag.scan_read?_eq_some_iff.mpr ⟨m, hm, rfl⟩]
    rfl

theorem ReadsAt.matchesAt {tag : Tag} {m : FieldMatch} (h : ReadsAt line tag m) :
    ∃ before, tag.MatchesAt line before m := by
  cases h with
  | header hm | param _ hm =>
    obtain ⟨before, hm, -⟩ := hm
    exact ⟨before, hm⟩

theorem FieldLine.exists_readsAt {p : FieldLine} (h : FieldLine.ofLine? line = some p) :
    ∃ tag m, ReadsAt line tag m ∧ m.pieces (decide (tag = .header)) = p := by
  unfold FieldLine.ofLine? at h
  cases hheader : Tag.header.scan (FieldLine.read? true) line with
  | some p' =>
    rw [hheader] at h
    obtain rfl := Option.some.inj h
    obtain ⟨m, hm, hpieces⟩ := Tag.scan_read?_eq_some_iff.mp hheader
    exact ⟨_, m, .header hm, hpieces⟩
  | none =>
    rw [hheader] at h
    obtain ⟨m, hm, hpieces⟩ := Tag.scan_read?_eq_some_iff.mp h
    exact ⟨_, m, .param (Tag.scan_read?_eq_none_iff.mp hheader) hm, hpieces⟩

theorem FieldLine.ofLine?_eq_none_iff :
    FieldLine.ofLine? line = none ↔ ¬Tag.header.HasMatch line ∧ ¬Tag.param.HasMatch line := by
  rw [← not_or, ← exists_readsAt_iff]
  constructor
  · rintro hnone ⟨tag, m, h⟩
    rw [h.ofLine?_eq] at hnone
    cases hnone
  · intro h
    rw [Option.eq_none_iff_forall_ne_some]
    intro p hp
    obtain ⟨tag, m, hm, -⟩ := FieldLine.exists_readsAt hp
    exact h ⟨tag, m, hm⟩

/-! ### The three outcomes -/

theorem Field.result_ofLine?_of_parse {p : FieldLine} {type : FieldType}
    (hp : FieldLine.ofLine? line = some p) (hdot : '.' ∉ p.name)
    (htype : FieldType.parse p.typeText = .ok type) :
    (Field.ofLine? line).result = .ok (some (String.ofList p.name, {
      type
      isOptional := p.isBracketed || precededByBracket p.name line.toList
      description := String.ofList p.description
      isHeader := p.isHeader })) := by
  unfold Field.ofLine?
  simp only [hp, if_neg hdot, htype]
  split <;> rfl

/-- A line on which the brackets agree declares its field without a warning. -/
theorem Field.ofLine?_of_agreeing {p : FieldLine} {type : FieldType}
    (hp : FieldLine.ofLine? line = some p) (hdot : '.' ∉ p.name)
    (htype : FieldType.parse p.typeText = .ok type)
    (hagree : precededByBracket p.name line.toList = p.isBracketed) :
    Field.ofLine? line = pure (some (String.ofList p.name, {
      type
      isOptional := p.isBracketed
      description := String.ofList p.description
      isHeader := p.isHeader })) := by
  unfold Field.ofLine?
  simp [hp, hdot, htype, hagree]

theorem Field.result_ofLine?_eq_ok_none_iff :
    (Field.ofLine? line).result = .ok none ↔ FieldLine.ofLine? line = none ∨
      ∃ p, FieldLine.ofLine? line = some p ∧ '.' ∈ p.name := by
  cases hp : FieldLine.ofLine? line with
  | none => simp [Field.ofLine?, hp]
  | some p =>
    by_cases hdot : '.' ∈ p.name
    · simp [Field.ofLine?, hp, hdot]
    · cases htype : FieldType.parse p.typeText with
      | error cause => simp [Field.ofLine?, hp, hdot, htype, Reading.fail]
      | ok type =>
        rw [Field.result_ofLine?_of_parse hp hdot htype]
        simp [hdot]

/-- What a line declares, exactly. A line is read at one of its matches if it has any. It declares
nothing if and only if it has none or the name that is read has a dot. Otherwise its reading fails if
and only if the text between the outer braces is no type expression, and in all other cases the line
declares a field with that type under the name that is read. -/
theorem Field.ofLine?_acceptance (line : String) :
    ((∃ tag m, ReadsAt line tag m) ↔ Tag.header.HasMatch line ∨ Tag.param.HasMatch line) ∧
    ((Field.ofLine? line).result = .ok none ↔
      (¬Tag.header.HasMatch line ∧ ¬Tag.param.HasMatch line) ∨
        ∃ tag m, ReadsAt line tag m ∧ '.' ∈ m.name) ∧
    ∀ tag m, ReadsAt line tag m → '.' ∉ m.name →
      ((∃ fault, (Field.ofLine? line).result = .error fault) ↔
        ¬∃ type, FieldType.parse m.typeText = .ok type) ∧
      ∀ type, FieldType.parse m.typeText = .ok type →
        ∃ field, (Field.ofLine? line).result = .ok (some (String.ofList m.fullName, field)) ∧
          field.type = type ∧ (field.isHeader = true ↔ tag = .header) := by
  refine ⟨exists_readsAt_iff, ?_, fun tag m hm hdot => ?_⟩
  · rw [Field.result_ofLine?_eq_ok_none_iff, FieldLine.ofLine?_eq_none_iff]
    refine or_congr_right ⟨?_, ?_⟩
    · rintro ⟨p, hp, hdot⟩
      obtain ⟨tag, m, hm, rfl⟩ := FieldLine.exists_readsAt hp
      exact ⟨tag, m, hm, m.dot_mem_fullName_iff.mp hdot⟩
    · rintro ⟨tag, m, hm, hdot⟩
      exact ⟨_, hm.ofLine?_eq, m.dot_mem_fullName_iff.mpr hdot⟩
  · have hfull : '.' ∉ m.fullName := fun h => hdot (m.dot_mem_fullName_iff.mp h)
    constructor
    · simp only [Field.ofLine?_error_iff, hm.ofLine?_eq, Option.some.injEq, exists_eq_left']
      constructor
      · rintro ⟨fault, -, herror, -⟩ ⟨type, htype⟩
        cases herror.symm.trans htype
      · intro hnone
        cases htype : FieldType.parse m.typeText with
        | ok type => exact absurd ⟨type, htype⟩ hnone
        | error cause => exact ⟨⟨"", line, cause⟩, hfull, htype, rfl, rfl⟩
    · intro type htype
      exact ⟨_, Field.result_ofLine?_of_parse hm.ofLine?_eq hfull htype, rfl, decide_eq_true_iff⟩

/-- A line whose header tag has no type and whose first parameter tag has no white space after it. -/
theorem Field.ofLine?_acceptance_second_occurrence :
    let line := "@apiHeader id @apiParam{x} @apiParam (query) {String[]} [ids[]=1] of items"
    ∃ m, ReadsAt line .param m ∧ '.' ∉ m.name ∧ ∃ field,
      (Field.ofLine? line).result = .ok (some ("ids[]", field)) ∧
        field.type = ⟨.array (.scalar "String"), [], none⟩ ∧ field.isHeader = false := by
  intro line
  have hheader : Tag.header.scan (FieldLine.read? true) line = none := by decide +kernel
  have hparam : Tag.param.scan (FieldLine.read? false) line = some {
      typeText := "String[]".toList, name := "ids[]".toList, isBracketed := true
      description := "of items".toList, isHeader := false } := by decide +kernel
  obtain ⟨m, hfirst, hpieces⟩ := Tag.scan_read?_eq_some_iff.mp hparam
  have hname : m.fullName = "ids[]".toList := congrArg FieldLine.name hpieces
  have htext : m.typeText = "String[]".toList := congrArg FieldLine.typeText hpieces
  have hreads : ReadsAt line .param m := .param (Tag.scan_read?_eq_none_iff.mp hheader) hfirst
  have hdot : '.' ∉ m.name := by
    rw [← m.dot_mem_fullName_iff, hname]
    decide
  have htype : FieldType.parse m.typeText = .ok ⟨.array (.scalar "String"), [], none⟩ := by
    rw [htext]
    exact except_eq_ok_of_toOption (by decide +kernel)
  obtain ⟨field, hfield, htyped, hflag⟩ :=
    ((Field.ofLine?_acceptance line).2.2 .param m hreads hdot).2 _ htype
  rw [hname] at hfield
  exact ⟨m, hreads, hdot, field, hfield, htyped, by simpa using hflag⟩

end Lines

end RouteDoc
