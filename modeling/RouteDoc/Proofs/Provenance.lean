import RouteDoc.Proofs.FieldGrammar
import RouteDoc.Proofs.Outline
import RouteDoc.Proofs.Tables
import RouteDoc.Proofs.TypeExpression

/-! What sources can put into a document. A block holds lines, so nothing read from one has a line
feed; names are words, and paths have path characters only. These facts go with a text from the
line it stands on to the route or the model that it ends in. -/

namespace RouteDoc

open Text

/-! ### Lines of blocks -/

theorem oneLine_of_mem_lines {text line : String} (h : line ∈ lines text) : OneLine line := by
  obtain ⟨cs, hcs, rfl⟩ := List.mem_map.mp h
  rw [OneLine, String.toList_ofList]
  have hpieces : ∀ ps : List (List Char), (∀ p ∈ ps, '\n' ∉ p) → ∀ l ∈ linesOfPieces ps, '\n' ∉ l := by
    intro ps hps
    induction ps with
    | nil => simp [linesOfPieces]
    | cons p ps ih =>
      have hp := hps p (by simp)
      cases ps with
      | nil =>
        unfold linesOfPieces
        split <;> simp_all
      | cons q qs =>
        have hreturn : '\n' ∉ dropReturn p := by
          unfold dropReturn
          split
          · exact fun hmem => hp (List.dropLast_subset p hmem)
          · exact hp
        intro l hl
        rcases List.mem_cons.mp hl with rfl | hl
        · exact hreturn
        · exact ih (fun p hp' => hps p (by simp [hp'])) l hl
  exact hpieces _ (fun p hp => fun hc => (mem_of_mem_splitOn hp _ hc).2 rfl) cs hcs

/-- The lines of a block are lines of its source. -/
theorem Block.mem_scan {source : String} {opened : Option (List String)} {ls : List String}
    {b : Block} (h : b ∈ Block.scan source opened ls) :
    b.source = source ∧ ∀ l ∈ b.lines, l ∈ opened.getD [] ∨ l ∈ ls := by
  induction ls generalizing opened with
  | nil => cases h
  | cons line ls ih =>
    -- a scan that goes on holds only lines that were held or that it has met
    have go_on : ∀ {held : Option (List String)}, b ∈ Block.scan source held ls →
        (∀ l ∈ held.getD [], l ∈ opened.getD [] ∨ l = line) →
        b.source = source ∧ ∀ l ∈ b.lines, l ∈ opened.getD [] ∨ l ∈ line :: ls := by
      intro held hb hheld
      refine ⟨(ih hb).1, fun l hl => ?_⟩
      rcases (ih hb).2 l hl with hl | hl
      · rcases hheld l hl with hl | rfl
        · exact .inl hl
        · exact .inr (by simp)
      · exact .inr (by simp [hl])
    unfold Block.scan at h
    split at h
    · exact go_on h (by simp)
    · cases opened with
      | none => exact go_on h (by simp)
      | some held =>
        simp only at h
        split at h
        · rcases List.mem_cons.mp h with rfl | h
          · exact ⟨rfl, fun l hl => .inl (by simpa using hl)⟩
          · exact go_on h (by simp)
        · exact go_on h (by simp [or_comm])

theorem oneLine_of_mem_block {sources : List Source} {b : Block} (h : b ∈ allBlocks sources) :
    (∃ s ∈ sources, b.source = s.identifier) ∧ ∀ line ∈ b.lines, OneLine line := by
  obtain ⟨s, hs, hb⟩ := List.mem_flatMap.mp h
  obtain ⟨hsource, hlines⟩ := Block.mem_scan hb
  refine ⟨⟨s, hs, hsource⟩, fun line hline => ?_⟩
  rcases hlines line hline with hl | hl
  · cases hl
  · exact oneLine_of_mem_lines hl

/-! ### Fields -/

theorem Text.IsWordText.oneLine {text : String} (h : IsWordText text) : OneLine text :=
  fun hc => absurd (h _ hc) (by decide)

/-- The names in a kind are words. -/
def Kind.Wordy : Kind → Prop
  | .any => True
  | .scalar name | .reference name => IsWordText name
  | .array items => items.Wordy

/-- A field as a line can declare it. -/
structure Field.Plain (f : Field) : Prop where
  kind : f.type.kind.Wordy
  description : OneLine f.description

/-- Fields as lines can declare them. -/
def Fields.Plain (fields : Fields) : Prop :=
  ∀ e ∈ fields.entries, OneLine e.1 ∧ e.2.Plain

theorem Kind.IsItem.wordy {kind : Kind} (h : kind.IsItem) : kind.Wordy := by
  cases kind with
  | any => trivial
  | scalar name => exact h.1
  | reference name => exact h.1
  | array items => exact h.elim

theorem Kind.WellFormed.wordy {kind : Kind} (h : kind.WellFormed) : kind.Wordy := by
  rcases h.item_or_array with hitem | ⟨items, rfl, hitem⟩
  · exact hitem.wordy
  · change items.Wordy
    exact hitem.wordy

theorem FieldType.wordy_of_parse {expr : List Char} {t : FieldType}
    (h : FieldType.parse expr = .ok t) : t.kind.Wordy :=
  (FieldType.wellFormed_of_parse h).kind.wordy

/-- A name has name characters and brackets, and a description stands on the line. -/
theorem FieldLine.ofLine?_eq_some {line : String} {pieces : FieldLine}
    (h : FieldLine.ofLine? line = some pieces) :
    (∀ c ∈ pieces.name, isNameChar c = true ∨ c = '[' ∨ c = ']') ∧
      ∀ c ∈ pieces.description, c ∈ line.toList := by
  obtain ⟨tag, m, hm, rfl⟩ := FieldLine.exists_readsAt h
  obtain ⟨before, hmatch⟩ := hm.matchesAt
  refine ⟨fun c hc => m.mem_fullName hc, fun c hc => ?_⟩
  have hrest := m.description_subset _ hc
  rw [hmatch]
  simp [FieldMatch.text, FieldMatch.body, hrest]

/-- The field that a line declares is made of the pieces of the line. -/
theorem Field.ofLine?_eq_some {line name : String} {f : Field}
    (h : (Field.ofLine? line).result = .ok (some (name, f))) :
    ∃ pieces, FieldLine.ofLine? line = some pieces ∧ '.' ∉ pieces.name ∧
      FieldType.parse pieces.typeText = .ok f.type ∧ name = String.ofList pieces.name ∧
      f.isOptional = (pieces.isBracketed || precededByBracket pieces.name line.toList) ∧
      f.description = String.ofList pieces.description ∧ f.isHeader = pieces.isHeader := by
  unfold Field.ofLine? at h
  cases hp : FieldLine.ofLine? line with
  | none => simp [hp] at h
  | some pieces =>
    simp only [hp] at h
    by_cases hdot : '.' ∈ pieces.name
    · simp [hdot] at h
    · simp only [hdot, if_false] at h
      cases ht : FieldType.parse pieces.typeText with
      | error cause => simp [ht, Reading.fail] at h
      | ok type =>
        simp only [ht] at h
        refine ⟨pieces, rfl, hdot, ?_⟩
        split at h
        all_goals
          cases h
          exact ⟨ht, rfl, rfl, rfl, rfl⟩

theorem Field.plain_of_ofLine? {line name : String} {f : Field} (hline : OneLine line)
    (h : (Field.ofLine? line).result = .ok (some (name, f))) : OneLine name ∧ f.Plain := by
  obtain ⟨pieces, hpieces, -, htype, rfl, -, hdescription, -⟩ := Field.ofLine?_eq_some h
  obtain ⟨hname, hsubset⟩ := FieldLine.ofLine?_eq_some hpieces
  refine ⟨fun hmem => ?_, FieldType.wordy_of_parse htype, ?_⟩
  · rcases hname '\n' (by simpa using hmem) with h | h | h
    · exact absurd h (by decide)
    · exact absurd h (by decide)
    · exact absurd h (by decide)
  · rw [hdescription]
    exact hline.of_subset fun c hc => hsubset c (by simpa using hc)

theorem Reading.exists_of_mem_mapM {α β : Type} {f : α → Reading β} {xs : List α} {ys : List β}
    (h : (xs.mapM f).result = .ok ys) : ∀ y ∈ ys, ∃ x ∈ xs, (f x).result = .ok y := by
  induction xs generalizing ys with
  | nil => cases h; simp
  | cons x xs ih =>
    rw [List.mapM_cons] at h
    obtain ⟨value, hx, h⟩ := Reading.bind_eq_ok_iff.mp h
    obtain ⟨values, hxs, h⟩ := Reading.bind_eq_ok_iff.mp h
    cases h
    intro y hy
    rcases List.mem_cons.mp hy with rfl | hy
    · exact ⟨x, by simp, hx⟩
    · obtain ⟨x', hx', hy'⟩ := ih hxs y hy
      exact ⟨x', by simp [hx'], hy'⟩

/-- Each of the fields that lines declare stands on one of them. -/
theorem Fields.exists_line {ls : List String} {fields : Fields}
    (h : (Fields.ofLines ls).result = .ok fields) {e : String × Field} (he : e ∈ fields.entries) :
    ∃ line ∈ ls, (Field.ofLine? line).result = .ok (some e) := by
  obtain ⟨declarations, hd, h⟩ := Reading.bind_eq_ok_iff.mp h
  cases h
  have hmem : some e ∈ declarations := by simpa using Fields.mem_ofDeclarations he
  exact Reading.exists_of_mem_mapM hd (some e) hmem

/-- The fields that lines declare are plain. -/
theorem Fields.plain_of_ofLines {ls : List String} {fields : Fields} (hls : ∀ l ∈ ls, OneLine l)
    (h : (Fields.ofLines ls).result = .ok fields) : fields.Plain := by
  intro e he
  obtain ⟨line, hline, hread⟩ := Fields.exists_line h he
  exact Field.plain_of_ofLine? (hls line hline) hread

/-! ### Definitions and descriptions -/

/-- A declared name is a word that is not empty. -/
theorem Tag.word_of_declared? {tag : Tag} {line name : String} (h : tag.declared? line = some name) :
    IsWordText name ∧ name ≠ "" := by
  obtain ⟨rest, -, hread⟩ := Tag.scan_eq_some h
  obtain ⟨⟨w, after⟩, hw, rfl⟩ := Option.map_eq_some_iff.mp hread
  obtain ⟨rfl, -, hne⟩ := word?_eq_some hw
  refine ⟨fun c hc => isWord_of_mem_word (by simpa using hc), fun hempty => hne ?_⟩
  have := congrArg String.toList hempty
  simpa using this

theorem Block.word_of_definitionName? {b : Block} {name : String}
    (h : b.definitionName? = some name) : IsWordText name ∧ name ≠ "" := by
  unfold definitionName? at h
  cases hd : Tag.define.declared? b.firstLine with
  | some found =>
    obtain rfl : found = name := by simpa [hd] using h
    exact Tag.word_of_declared? hd
  | none => exact Tag.word_of_declared? (by simpa [hd] using h)

theorem Reading.ok_of_inFile {α : Type} {r : Reading α} {file : String} {a : α}
    (h : (r.inFile file).result = .ok a) : r.result = .ok a := by
  change r.result.mapError _ = .ok a at h
  cases hr : r.result with
  | error fault =>
    rw [hr] at h
    cases h
  | ok value =>
    rw [hr] at h
    exact h

/-- A definition block declares plain fields under a word. -/
theorem Block.plain_of_definition {b : Block} {e : String × Fields} (hrole : b.role = .definition)
    (hlines : ∀ l ∈ b.lines, OneLine l) (h : b.definition.result = .ok e) :
    IsWordText e.1 ∧ e.1 ≠ "" ∧ e.2.Plain := by
  obtain ⟨name, hname⟩ := Option.isSome_iff_exists.mp (Block.role_eq_definition.mp hrole)
  obtain ⟨hword, hne⟩ := Block.word_of_definitionName? hname
  obtain ⟨fields, hf, h⟩ := Reading.bind_eq_ok_iff.mp h
  cases h
  simp only [hname, Option.getD_some]
  exact ⟨hword, hne, Fields.plain_of_ofLines
    (fun l hl => hlines l (List.mem_of_mem_tail hl)) (Reading.ok_of_inFile hf)⟩

/-! ### Drafts -/

/-- A route as the lines of a block can declare it. -/
structure Draft.Plain (d : Draft) : Prop where
  path : (∀ c ∈ d.path.toList, isPathChar c = true) ∧ d.path ≠ ""
  summary : OneLine d.summary
  name : IsWordText d.name
  group : IsWordText d.group
  params : d.params.Plain
  consumes : ∀ m ∈ d.consumes, OneLine m
  produces : ∀ m ∈ d.produces, OneLine m
  body : ∀ b ∈ d.body, OneLine b.name ∧ OneLine b.model
  responses : ∀ r ∈ d.responses, OneLine r.code ∧ OneLine r.model ∧ OneLine r.description

theorem isWordText_ofList_word (cs : List Char) : IsWordText (String.ofList (word cs)) :=
  fun _ hc => isWord_of_mem_word (by simpa using hc)

theorem ofList_ne_empty {cs : List Char} (h : cs ≠ []) : String.ofList cs ≠ "" := by
  intro he
  have := congrArg String.toList he
  exact h (by simpa using this)

theorem afterBlanks?_suffix {cs rest : List Char} (h : afterBlanks? cs = some rest) :
    rest <:+ cs := by
  obtain ⟨rest', hblank, rfl⟩ := Option.map_eq_some_iff.mp h
  exact (List.dropWhile_suffix _).trans (afterBlank?_suffix hblank)

theorem RouteHeader.read?_eq_some {cs : List Char} {header : RouteHeader}
    (h : RouteHeader.read? cs = some header) :
    (∀ c ∈ header.path, isPathChar c = true) ∧ header.path ≠ [] ∧
      ∀ c ∈ header.summary, c ∈ cs := by
  simp only [RouteHeader.read?, Option.bind_eq_bind, Option.bind_eq_some_iff] at h
  obtain ⟨cs₁, hopen, ⟨methodName, cs₂⟩, hword, cs₃, hclose, cs₄, hblanks, h⟩ := h
  split at h
  · cases h
  · rename_i hpath
    obtain ⟨cs₅, hblanks', h⟩ := Option.bind_eq_some_iff.mp h
    split at h
    · cases h
    · obtain ⟨method, -, h⟩ := Option.bind_eq_some_iff.mp h
      cases h
      obtain ⟨-, rfl, -⟩ := word?_eq_some hword
      refine ⟨fun c hc => List.all_eq_true.mp List.all_takeWhile c hc, by simpa using hpath,
        fun c hc => ?_⟩
      have h₁ : cs₁ <:+ cs := ⟨['{'], (after?_eq_some_iff.mp hopen).symm⟩
      have h₃ : cs₃ <:+ afterWord cs₁ := ⟨['}'], (after?_eq_some_iff.mp hclose).symm⟩
      have h₅ : cs₅ <:+ cs := (afterBlanks?_suffix hblanks').trans <|
        (List.dropWhile_suffix _).trans <| (afterBlanks?_suffix hblanks).trans <|
        h₃.trans <| (List.dropWhile_suffix _).trans h₁
      exact h₅.subset ((List.takeWhile_prefix _).subset (trimEnd_subset hc))

/-- A draft is made of the declaration on the first line of its block and of what the other lines
have after their tags. -/
theorem Draft.exists_of_ofBlock? {b : Block} {d : Draft}
    (h : (Draft.ofBlock? b).result = .ok (some d)) :
    ∃ header params, b.routeHeader? = some header ∧ (Fields.ofLines b.body).result = .ok params ∧
      d = {
        controller := b.source
        method := header.method
        path := String.ofList header.path
        summary := String.ofList header.summary
        name := (b.body.findSome? Tag.name.word?).getD ""
        group := (b.body.findSome? Tag.group.word?).getD ""
        uses := Tag.use.words b.body
        params
        consumes := mediaTypes .consumes b.body
        produces := mediaTypes .produces b.body
        body := b.body.filterMap (Tag.body.scan BodyBinding.read?)
        responses := b.body.filterMap (Tag.response.scan Response.read?)
        descriptions := descriptionNames b.body } := by
  unfold Draft.ofBlock? at h
  split at h
  · simp at h
  · rename_i header hheader
    obtain ⟨params, hparams, h⟩ := Reading.bind_eq_ok_iff.mp h
    cases h
    exact ⟨header, params, hheader, Reading.ok_of_inFile hparams, rfl⟩

/-- The method, the path and the summary of a draft come from the first line of its block. -/
theorem Draft.exists_routeHeader {b : Block} {d : Draft}
    (h : (Draft.ofBlock? b).result = .ok (some d)) :
    ∃ header, b.routeHeader? = some header ∧ d.method = header.method ∧
      d.path = String.ofList header.path ∧ d.summary = String.ofList header.summary := by
  obtain ⟨header, params, hheader, -, rfl⟩ := exists_of_ofBlock? h
  exact ⟨header, hheader, rfl, rfl, rfl⟩

theorem readBinding?_eq_some {cs rest : List Char} {name model : String}
    (h : readBinding? cs = some (name, model, rest)) :
    (IsWordText name ∧ name ≠ "") ∧ (IsWordText model ∧ model ≠ "") ∧ rest <:+ cs := by
  simp only [readBinding?, Option.bind_eq_bind, Option.bind_eq_some_iff] at h
  obtain ⟨⟨w, cs₁⟩, hword, cs₂, hblank, h⟩ := h
  split at h
  · cases h
  · rename_i hne
    cases h
    obtain ⟨rfl, rfl, hw⟩ := word?_eq_some hword
    refine ⟨⟨isWordText_ofList_word _, ofList_ne_empty hw⟩,
      ⟨isWordText_ofList_word _, ofList_ne_empty (by simpa using hne)⟩, ?_⟩
    exact (List.dropWhile_suffix isWord).trans <| (after?_getD_suffix ['#'] cs₂).trans <|
      (afterBlank?_suffix hblank).trans (List.dropWhile_suffix isWord)

theorem BodyBinding.oneLine_of_scan {line : String} {b : BodyBinding}
    (h : Tag.body.scan BodyBinding.read? line = some b) : OneLine b.name ∧ OneLine b.model := by
  obtain ⟨cs, -, hread⟩ := Tag.scan_eq_some h
  obtain ⟨⟨name, model, rest⟩, hbinding, rfl⟩ := Option.map_eq_some_iff.mp hread
  obtain ⟨hname, hmodel, -⟩ := readBinding?_eq_some hbinding
  exact ⟨hname.1.oneLine, hmodel.1.oneLine⟩

theorem Response.oneLine_of_scan {line : String} {r : Response} (hline : OneLine line)
    (h : Tag.response.scan Response.read? line = some r) :
    OneLine r.code ∧ OneLine r.model ∧ OneLine r.description := by
  obtain ⟨cs, hcs, hread⟩ := Tag.scan_eq_some h
  obtain ⟨⟨code, model, rest⟩, hbinding, rfl⟩ := Option.map_eq_some_iff.mp hread
  obtain ⟨hcode, hmodel, hrest⟩ := readBinding?_eq_some hbinding
  refine ⟨hcode.1.oneLine, hmodel.1.oneLine, hline.of_subset fun c hc => ?_⟩
  exact (hrest.trans hcs).subset (trim_subset (by simpa using hc))

theorem oneLine_of_mem_mediaTypes {tag : Tag} {ls : List String} {m : String}
    (h : m ∈ mediaTypes tag ls) : OneLine m := by
  unfold mediaTypes at h
  simp only at h
  split at h
  · rw [List.mem_singleton.mp h]
    decide
  · obtain ⟨line, -, hscan⟩ := List.mem_filterMap.mp h
    obtain ⟨cs, -, hread⟩ := Tag.scan_eq_some hscan
    split at hread
    · cases hread
    · cases hread
      intro hc
      have hmedia := List.all_eq_true.mp (List.all_takeWhile (p := isMediaChar)) '\n'
        (by simpa using hc)
      exact absurd hmedia (by decide)

theorem isWordText_getD_findSome? (tag : Tag) (ls : List String) :
    IsWordText ((ls.findSome? tag.word?).getD "") := by
  cases h : ls.findSome? tag.word? with
  | none => intro c hc; simp at hc
  | some w =>
    obtain ⟨line, -, hw⟩ := List.exists_of_findSome?_eq_some h
    exact Tag.isWord_of_word? hw

/-- A draft is made of words, path characters and parts of the lines of its block. -/
theorem Draft.plain_of_ofBlock? {b : Block} {d : Draft} (hlines : ∀ l ∈ b.lines, OneLine l)
    (h : (Draft.ofBlock? b).result = .ok (some d)) : d.Plain ∧ d.controller = b.source := by
  have hbody : ∀ l ∈ b.body, OneLine l := fun l hl => hlines l (List.mem_of_mem_tail hl)
  have hfirst : OneLine b.firstLine := by
    cases hb : b.lines with
    | nil => simp [Block.firstLine, hb, OneLine]
    | cons l ls => simpa [Block.firstLine, hb] using hlines l (by simp [hb])
  obtain ⟨header, params, hheader, hparams, rfl⟩ := Draft.exists_of_ofBlock? h
  obtain ⟨cs, hcs, hread⟩ := Tag.scan_eq_some hheader
  obtain ⟨hpath, hne, hsummary⟩ := RouteHeader.read?_eq_some hread
  refine ⟨?_, rfl⟩
  exact {
    path := ⟨fun c hc => hpath c (by simpa using hc), ofList_ne_empty hne⟩
    summary := hfirst.of_subset fun c hc => hcs.subset (hsummary c (by simpa using hc))
    name := isWordText_getD_findSome? _ _
    group := isWordText_getD_findSome? _ _
    params := Fields.plain_of_ofLines hbody hparams
    consumes := fun m hm => oneLine_of_mem_mediaTypes hm
    produces := fun m hm => oneLine_of_mem_mediaTypes hm
    body := fun b hb => by
      obtain ⟨line, -, hscan⟩ := List.mem_filterMap.mp hb
      exact BodyBinding.oneLine_of_scan hscan
    responses := fun r hr => by
      obtain ⟨line, hline, hscan⟩ := List.mem_filterMap.mp hr
      exact Response.oneLine_of_scan (hbody line hline) hscan }

/-! ### Routes and models -/

namespace Text.Case

theorem isWord_of_mem_lower {c d : Char} (hc : isWord c = true) (h : d ∈ lower c) :
    isWord d = true := by
  have hascii : c.toNat < 128 := by
    have := isWord_iff.mp hc
    omega
  rw [lower, if_pos hascii, List.mem_singleton] at h
  exact h ▸ isWord_toLower hc

theorem upper_of_isWord {c : Char} (hc : isWord c = true) : upper c = [c.toUpper] := by
  have hascii : c.toNat < 128 := by
    have := isWord_iff.mp hc
    omega
  rw [upper, if_pos hascii]

/-- Words that are joined make a word. -/
theorem isWord_of_mem_joinWords {cs : List Char} (hcs : ∀ c ∈ cs, isWord c = true) (capital : Bool)
    (before : Option Char) : ∀ c ∈ joinWords capital before cs, isWord c = true := by
  induction cs generalizing capital before with
  | nil => simp [joinWords]
  | cons c cs ih =>
    have hc := hcs c (by simp)
    have ih := ih fun d hd => hcs d (by simp [hd])
    intro d hd
    cases capital with
    | true =>
      rw [joinWords, upper_of_isWord hc] at hd
      rcases List.mem_append.mp hd with hd | hd
      · rw [List.mem_singleton.mp hd]
        exact isWord_toUpper hc
      · exact ih _ _ d hd
    | false =>
      rw [joinWords] at hd
      split at hd
      · exact ih _ _ d hd
      · split at hd
        · rcases List.mem_cons.mp hd with rfl | hd
          · exact hc
          · exact ih _ _ d hd
        · rcases List.mem_append.mp hd with hd | hd
          · exact isWord_of_mem_lower hc hd
          · exact ih _ _ d hd

theorem isWordText_camelCase {name : String} (h : IsWordText name) : IsWordText (camelCase name) :=
  fun c hc => isWord_of_mem_joinWords h false none c (by simpa [camelCase] using hc)

theorem isWordText_pascalCase {name : String} (h : IsWordText name) (hne : name ≠ "") :
    IsWordText (pascalCase name) ∧ pascalCase name ≠ "" := by
  refine ⟨fun c hc => isWord_of_mem_joinWords h true none c (by simpa [pascalCase] using hc), ?_⟩
  cases hcs : name.toList with
  | nil => exact absurd (by simpa using hcs) hne
  | cons c cs =>
    have hc : isWord c = true := h c (by simp [hcs])
    rw [pascalCase, hcs, joinWords, upper_of_isWord hc]
    exact ofList_ne_empty (by simp)

end Text.Case

/-- A route as sources can declare it. -/
structure Route.Plain (r : Route) : Prop where
  controller : OneLine r.controller
  path : (∀ c ∈ r.path.toList, isPathChar c = true) ∧ r.path ≠ ""
  operationId : IsWordText r.operationId
  tag : OneLine r.tag
  summary : OneLine r.summary
  description : ∀ l ∈ r.description, OneLine l
  params : r.params.Plain
  consumes : ∀ m ∈ r.consumes, OneLine m
  produces : ∀ m ∈ r.produces, OneLine m
  body : ∀ b ∈ r.body, OneLine b.name ∧ OneLine b.model
  responses : ∀ answer ∈ r.responses,
    OneLine answer.code ∧ OneLine answer.model ∧ OneLine answer.description
  implicitModel : ∀ m, r.implicitModel = some m → OneLine m

/-- A model as sources can declare it, or as it is made of parameters. -/
def PlainModel (m : String × Fields) : Prop :=
  IsWordText m.1 ∧ m.1 ≠ "" ∧ m.2.Plain

theorem Fields.Plain.filter {fields : Fields} (h : fields.Plain) (p : String → Field → Bool) :
    Fields.Plain (Table.filter p fields) :=
  fun e he => h e (List.mem_filter.mp he).1

/-- A draft and the definitions and descriptions that it refers to make a plain route. -/
theorem Catalog.plain_route {c : Catalog} {d : Draft} (hd : d.Plain) (hcontroller : OneLine d.controller)
    (hdefinitions : ∀ e ∈ c.definitions.entries, PlainModel e)
    (hdescriptions : ∀ e ∈ c.descriptions.entries, ∀ l ∈ e.2, OneLine l) :
    (c.route d).Plain where
  controller := hcontroller
  path := hd.path
  operationId := Case.isWordText_camelCase hd.name
  tag := hd.group.oneLine
  summary := hd.summary
  description := by
    intro l hl
    obtain ⟨name, -, hl⟩ := List.mem_flatMap.mp hl
    cases hfind : c.descriptions.find? name with
    | none => simp [hfind] at hl
    | some lines => exact hdescriptions _ (Table.mem_of_find? hfind) l (by simpa [hfind] using hl)
  params := by
    intro e he
    rcases List.mem_append.mp (Table.mem_ofList he) with he | he
    · obtain ⟨name, -, he⟩ := List.mem_flatMap.mp he
      cases hfind : c.definitions.find? name with
      | none => simp [hfind] at he
      | some fields =>
        exact (hdefinitions _ (Table.mem_of_find? hfind)).2.2 e (by simpa [hfind] using he)
    · exact hd.params e he
  consumes := hd.consumes
  produces := hd.produces
  body := hd.body
  responses := hd.responses
  implicitModel := by intro m hm; cases hm

theorem Route.Plain.bodyModel {r : Route} (h : r.Plain) {m : String × Fields}
    (hm : r.bodyModel? = some m) : PlainModel m := by
  unfold Route.bodyModel? at hm
  split at hm
  · rename_i hcond
    cases hm
    have hne : r.operationId ≠ "" := by
      simp only [Bool.and_eq_true, Bool.not_eq_true', String.isEmpty_eq_false_iff] at hcond
      exact hcond.1.2
    obtain ⟨hword, hne⟩ := Case.isWordText_pascalCase h.operationId hne
    exact ⟨hword, hne, h.params.filter _⟩
  · cases hm

theorem Route.Plain.withBodyModel {r : Route} (h : r.Plain) : r.withBodyModel.Plain :=
  { h with
    implicitModel := by
      intro m hm
      obtain ⟨model, hmodel, rfl⟩ := Option.map_eq_some_iff.mp hm
      exact (h.bodyModel hmodel).1.oneLine }

/-- An API as sources can describe it. -/
structure Api.Plain (api : Api) : Prop where
  routes : ∀ r ∈ api.routes.values, r.Plain
  models : ∀ m ∈ api.models, PlainModel m

theorem Api.plain_ofRoutes {routes : List Route} {definitions : Table String Fields}
    (hroutes : ∀ r ∈ routes, r.Plain) (hdefinitions : ∀ e ∈ definitions.entries, PlainModel e) :
    (Api.ofRoutes routes definitions).Plain := by
  have htable : ∀ e ∈ (Table.ofList (routes.map fun r => (r.key, r))).entries, e.2.Plain := by
    intro e he
    obtain ⟨r, hr, rfl⟩ := List.mem_map.mp (Table.mem_ofList he)
    exact hroutes r hr
  constructor
  · intro r hr
    simp only [Api.ofRoutes, Table.values, Table.mapValues, List.map_map, List.mem_map] at hr
    obtain ⟨e, he, rfl⟩ := hr
    exact (htable e he).withBodyModel
  · intro m hm
    rcases List.mem_append.mp hm with hm | hm
    · exact hdefinitions m hm
    · obtain ⟨r, hr, hmodel⟩ := List.mem_filterMap.mp (Table.mem_ofList (List.mem_filter.mp hm).1)
      obtain ⟨e, he, rfl⟩ := List.mem_map.mp hr
      exact (htable e he).bodyModel hmodel

/-! ### The parts of an API -/

theorem Catalog.exists_draft_of_route {c : Catalog} {routes : List Route}
    (h : c.routes.result = .ok routes) {r : Route} (hr : r ∈ routes) :
    ∃ b ∈ c.candidates, ∃ d, (Draft.ofBlock? b).result = .ok (some d) ∧ r = c.route d := by
  obtain ⟨drafts, hdrafts, h⟩ := Reading.bind_eq_ok_iff.mp h
  cases h
  obtain ⟨d, hd, rfl⟩ := List.mem_map.mp hr
  obtain ⟨b, hb, hread⟩ := Reading.exists_of_mem_mapM hdrafts (some d) (by simpa using hd)
  exact ⟨b, hb, d, hread, rfl⟩

/-- Each route of an API is that of a draft, which a block declares. -/
theorem Api.exists_draft_of_mem {c : Catalog} {api : Api} (h : (Api.ofCatalog c).result = .ok api)
    {r : Route} (hr : r ∈ api.routes.values) :
    ∃ b ∈ c.candidates, ∃ d, (Draft.ofBlock? b).result = .ok (some d) ∧
      r = (c.route d).withBodyModel := by
  obtain ⟨routes, hroutes, h⟩ := Reading.bind_eq_ok_iff.mp h
  cases h
  simp only [Api.ofRoutes, Table.values_mapValues, List.mem_map] at hr
  obtain ⟨declared, hdeclared, rfl⟩ := hr
  obtain ⟨e, he, rfl⟩ := List.mem_map.mp hdeclared
  obtain ⟨route, hroute, rfl⟩ := List.mem_map.mp (Table.mem_ofList he)
  obtain ⟨b, hb, d, hread, rfl⟩ := Catalog.exists_draft_of_route hroutes hroute
  exact ⟨b, hb, d, hread, rfl⟩

section Sources

variable {sources : List Source} {catalog : Catalog} {api : Api}

theorem Catalog.mem_allBlocks (h : (Catalog.collect sources).result = .ok catalog) {b : Block}
    (hb : b ∈ catalog.candidates) : b ∈ allBlocks sources := by
  rw [Catalog.collect_eq] at h
  obtain ⟨entries, -, h⟩ := Reading.bind_eq_ok_iff.mp h
  cases h
  exact (List.mem_filter.mp hb).1

theorem Catalog.exists_block_of_definition (h : (Catalog.collect sources).result = .ok catalog)
    {e : String × Fields} (he : e ∈ catalog.definitions.entries) :
    ∃ b ∈ blocksOf .definition sources, b.definition.result = .ok e := by
  rw [Catalog.collect_eq] at h
  obtain ⟨entries, hentries, h⟩ := Reading.bind_eq_ok_iff.mp h
  cases h
  exact Reading.exists_of_mem_mapM hentries e (Table.mem_ofList he)

theorem Catalog.plain_definitions (h : (Catalog.collect sources).result = .ok catalog) :
    ∀ e ∈ catalog.definitions.entries, PlainModel e := by
  intro e he
  obtain ⟨b, hb, hread⟩ := Catalog.exists_block_of_definition h he
  obtain ⟨hmem, hrole⟩ := mem_blocksOf.mp hb
  exact Block.plain_of_definition hrole (oneLine_of_mem_block hmem).2 hread

theorem Catalog.oneLine_descriptions (h : (Catalog.collect sources).result = .ok catalog) :
    ∀ e ∈ catalog.descriptions.entries, ∀ l ∈ e.2, OneLine l := by
  rw [Catalog.collect_eq] at h
  obtain ⟨entries, -, h⟩ := Reading.bind_eq_ok_iff.mp h
  cases h
  intro e he l hl
  obtain ⟨b, hb, rfl⟩ := List.mem_map.mp (Table.mem_ofList he)
  exact (oneLine_of_mem_block (List.mem_filter.mp hb).1).2 l (List.mem_of_mem_tail hl)

/-- Each parameter of a route stands on a field line. -/
theorem Api.exists_line_of_param (hcatalog : (Catalog.collect sources).result = .ok catalog)
    (hapi : (Api.ofCatalog catalog).result = .ok api) {r : Route} (hr : r ∈ api.routes.values)
    {e : String × Field} (he : e ∈ r.params.entries) :
    ∃ line, (Field.ofLine? line).result = .ok (some e) := by
  obtain ⟨b, -, d, hdraft, rfl⟩ := Api.exists_draft_of_mem hapi hr
  rcases List.mem_append.mp (Table.mem_ofList he) with he | he
  · -- a parameter of a definition that the route uses
    obtain ⟨name, -, he⟩ := List.mem_flatMap.mp he
    cases hfind : catalog.definitions.find? name with
    | none => simp [hfind] at he
    | some fields =>
      obtain ⟨block, -, hread⟩ :=
        Catalog.exists_block_of_definition hcatalog (Table.mem_of_find? hfind)
      obtain ⟨read, hfields, hread⟩ := Reading.bind_eq_ok_iff.mp hread
      obtain rfl : read = fields := (Prod.mk.inj (Except.ok.inj hread)).2
      obtain ⟨line, -, hline⟩ := Fields.exists_line (Reading.ok_of_inFile hfields)
        (by simpa [hfind] using he)
      exact ⟨line, hline⟩
  · -- a parameter of the block itself
    obtain ⟨header, params, -, hparams, rfl⟩ := Draft.exists_of_ofBlock? hdraft
    obtain ⟨line, -, hline⟩ := Fields.exists_line hparams he
    exact ⟨line, hline⟩

/-- A draft of sources makes a plain route, whatever one-line text stands for its controller. -/
theorem Catalog.plain_route_of_block (hcatalog : (Catalog.collect sources).result = .ok catalog)
    {b : Block} (hb : b ∈ catalog.candidates) {d : Draft}
    (hdraft : (Draft.ofBlock? b).result = .ok (some d)) {controller : String}
    (hcontroller : OneLine controller) : (catalog.route { d with controller }).Plain := by
  have hlines := (oneLine_of_mem_block (Catalog.mem_allBlocks hcatalog hb)).2
  obtain ⟨hplain, -⟩ := Draft.plain_of_ofBlock? hlines hdraft
  exact Catalog.plain_route { hplain with } hcontroller (Catalog.plain_definitions hcatalog)
    (Catalog.oneLine_descriptions hcatalog)

/-- What sources describe is plain, if no identifier of a source has a line feed. -/
theorem Api.plain_of_sources (hsources : ∀ s ∈ sources, OneLine s.identifier)
    (hcatalog : (Catalog.collect sources).result = .ok catalog)
    (hapi : (Api.ofCatalog catalog).result = .ok api) : api.Plain := by
  obtain ⟨routes, hroutes, hapi⟩ := Reading.bind_eq_ok_iff.mp hapi
  cases hapi
  refine Api.plain_ofRoutes (fun r hr => ?_) (Catalog.plain_definitions hcatalog)
  obtain ⟨b, hb, d, hdraft, rfl⟩ := Catalog.exists_draft_of_route hroutes hr
  obtain ⟨⟨s, hs, hsource⟩, hlines⟩ := oneLine_of_mem_block (Catalog.mem_allBlocks hcatalog hb)
  have hcontroller : OneLine d.controller := by
    rw [(Draft.plain_of_ofBlock? hlines hdraft).2, hsource]
    exact hsources s hs
  exact Catalog.plain_route_of_block hcatalog hb hdraft hcontroller

end Sources

end RouteDoc
