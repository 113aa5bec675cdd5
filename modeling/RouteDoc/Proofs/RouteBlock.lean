import RouteDoc.Proofs.FieldSpelling
import RouteDoc.Proofs.PathForm
import RouteDoc.Proofs.Tables

/-! The spelling of a route as a comment block: a line with its method, path and summary, and then
one line for each of its other parts. However the lines after the first are mixed, as long as those
with one tag stay in order, the block is read as the route that it spells. -/

namespace RouteDoc

open Text

/-- A part of a draft that has a line of its own. -/
inductive Draft.Part where
  | name (word : String)
  | group (word : String)
  | use (definition : String)
  | consumes (media : String)
  | produces (media : String)
  | body (binding : BodyBinding)
  | response (answer : Response)
  | description (reference : String)
  | field (name : String) (field : Field)
  deriving DecidableEq

namespace Draft.Part

def tag : Part → Tag
  | name _ => .name
  | group _ => .group
  | use _ => .use
  | consumes _ => .consumes
  | produces _ => .produces
  | body _ => .body
  | response _ => .response
  | description _ => .description
  | field _ f => f.tag

def text : Part → List Char
  | name w | group w | use w | consumes w | produces w => w.toList
  | body b => b.name.toList ++ ' ' :: '#' :: b.model.toList
  | response a => a.code.toList ++ ' ' :: '#' :: (a.model.toList ++ ' ' :: a.description.toList)
  | description w => '#' :: w.toList
  | field n f => f.spelling n

def line (p : Part) : String := p.tag.line p.text

def field? : Part → Option (String × Field)
  | field n f => some (n, f)
  | _ => none

end Draft.Part

namespace Draft

/-- The parts of a draft in the order of its fields. -/
def parts (d : Draft) : List Part :=
  [.name d.name, .group d.group] ++ d.uses.map .use ++ d.consumes.map .consumes ++
    d.produces.map .produces ++ d.body.map .body ++ d.responses.map .response ++
    d.descriptions.map .description ++ d.params.entries.map fun e => .field e.1 e.2

def headerText (d : Draft) : List Char :=
  '{' :: d.method.name.toList ++ '}' :: ' ' :: (d.path.toList ++ ' ' :: d.summary.toList)

/-- The block with the given lines after the line of the method, the path and the summary. -/
def block (d : Draft) (parts : List Part) : Block where
  lines := Tag.route.line d.headerText :: parts.map Part.line
  source := d.controller

end Draft

def IsName (text : String) : Prop := IsWordText text ∧ text ≠ ""

instance (text : String) : Decidable (IsName text) :=
  inferInstanceAs (Decidable (IsWordText text ∧ text ≠ ""))

def IsMediaType (text : String) : Prop := text ≠ "" ∧ ∀ c ∈ text.toList, isMediaChar c = true

instance (text : String) : Decidable (IsMediaType text) :=
  decidable_of_iff (text ≠ "" ∧ text.toList.all isMediaChar = true)
    (and_congr_right fun _ => List.all_eq_true)

/-- A summary: words with white space between them, and at least two bytes. -/
structure IsSummary (text : String) : Prop where
  chars : text.toList.all (fun c => isWord c || isBlank c) = true
  starts : text.toList.head?.all isWord = true
  ends : text.toList.getLast?.all isWord = true
  size : 2 ≤ text.utf8ByteSize

/-- A draft that can be spelled. -/
structure Draft.Fits (d : Draft) : Prop where
  path : d.path ≠ "" ∧ ∀ c ∈ d.path.toList, isPathChar c = true
  summary : IsSummary d.summary
  name : IsWordText d.name
  group : IsWordText d.group
  uses : ∀ w ∈ d.uses, IsName w
  consumes : d.consumes ≠ [] ∧ ∀ m ∈ d.consumes, IsMediaType m
  produces : d.produces ≠ [] ∧ ∀ m ∈ d.produces, IsMediaType m
  body : ∀ b ∈ d.body, IsName b.name ∧ IsName b.model
  responses : ∀ a ∈ d.responses, IsName a.code ∧ IsName a.model ∧
    trim a.description.toList = a.description.toList ∧
    contains "@api".toList a.description.toList = false
  descriptions : ∀ w ∈ d.descriptions, IsName w
  params : ∀ e ∈ d.params.entries, e.2.Fits e.1

/-! ### The first line -/

theorem IsSummary.two_le_length {text : String} (h : IsSummary text) : 2 ≤ text.toList.length := by
  cases hcs : text.toList with
  | nil =>
    have htext : text = "" := by simpa using hcs
    have hsize := h.size
    rw [htext] at hsize
    exact absurd hsize (by decide)
  | cons c cs =>
    cases cs with
    | nil =>
      have htext : text = String.singleton c := by
        rw [← String.toList_inj, hcs, String.toList_singleton]
      have hsize : 2 ≤ c.utf8Size := by
        rw [← String.utf8ByteSize_singleton, ← htext]
        exact h.size
      have hstarts := h.starts
      rw [hcs] at hstarts
      have hword := isWord_iff.mp hstarts
      have hone : c.utf8Size = 1 := by
        rw [Char.utf8Size_eq_one_iff, UInt32.le_iff_toNat_le]
        change c.toNat ≤ 127
        omega
      omega
    | cons d cs => simp

theorem isBlank_of_all_isWord {o : Option Char} (h : o.all isWord = true) :
    ∀ c, o = some c → isBlank c = false := by
  rintro c rfl
  exact isBlank_of_isWord h

theorem trimStart_of_head? {cs : List Char} (h : ∀ c, cs.head? = some c → isBlank c = false) :
    trimStart cs = cs := by
  cases cs with
  | nil => rfl
  | cons c cs =>
    have hc : isBlank c = false := h c rfl
    simp [trimStart, hc]

theorem trimEnd_of_getLast? {cs : List Char} (h : ∀ c, cs.getLast? = some c → isBlank c = false) :
    trimEnd cs = cs := by
  have htrim : trimStart cs.reverse = cs.reverse := trimStart_of_head? (by simpa using h)
  rw [trimEnd, dropEndWhile, ← trimStart, htrim, List.reverse_reverse]

theorem afterBlanks?_space {cs : List Char} (h : ∀ c, cs.head? = some c → isBlank c = false) :
    afterBlanks? (' ' :: cs) = some cs := by
  have hblank : afterBlank? (' ' :: cs) = some cs := rfl
  rw [afterBlanks?, hblank, Option.map_some, trimStart_of_head? h]

/-- The text after the first tag is read as the method, the path and the summary of the draft. -/
theorem Draft.Fits.read?_headerText {d : Draft} (h : d.Fits) :
    RouteHeader.read? d.headerText =
      some { method := d.method, path := d.path.toList, summary := d.summary.toList } := by
  obtain ⟨hpathNe, hpath⟩ := h.path
  have hmethod : (∀ c ∈ d.method.name.toList, isWord c = true) ∧ d.method.name.toList ≠ [] := by
    have hall : d.method.name.toList.all isWord = true := by cases d.method <;> decide
    exact ⟨List.all_eq_true.mp hall, by cases d.method <;> decide⟩
  have hopen : after? ['{'] d.headerText = some (d.method.name.toList ++ '}' :: ' ' ::
      (d.path.toList ++ ' ' :: d.summary.toList)) := by
    simp [headerText, after?]
  have hword : word? (d.method.name.toList ++ '}' :: ' ' ::
      (d.path.toList ++ ' ' :: d.summary.toList)) = some (d.method.name.toList, '}' :: ' ' ::
      (d.path.toList ++ ' ' :: d.summary.toList)) :=
    word?_append hmethod.1 hmethod.2 (by intro c hc; cases hc; decide)
  have hclose : after? ['}'] ('}' :: ' ' :: (d.path.toList ++ ' ' :: d.summary.toList)) =
      some (' ' :: (d.path.toList ++ ' ' :: d.summary.toList)) := rfl
  have hpathStart : afterBlanks? (' ' :: (d.path.toList ++ ' ' :: d.summary.toList)) =
      some (d.path.toList ++ ' ' :: d.summary.toList) := by
    refine afterBlanks?_space fun c hc => ?_
    obtain ⟨a, as, has⟩ := List.exists_cons_of_ne_nil (l := d.path.toList) (by simpa using hpathNe)
    rw [has] at hc
    cases hc
    exact Path.isBlank_of_isPathChar (hpath c (by simp [has]))
  obtain ⟨htake, hdrop⟩ : (d.path.toList ++ ' ' :: d.summary.toList).takeWhile isPathChar =
      d.path.toList ∧ (d.path.toList ++ ' ' :: d.summary.toList).dropWhile isPathChar =
      ' ' :: d.summary.toList :=
    takeWhile_dropWhile_append hpath (by intro c hc; cases hc; decide)
  have hsummaryStart : afterBlanks? (' ' :: d.summary.toList) = some d.summary.toList :=
    afterBlanks?_space (isBlank_of_all_isWord h.summary.starts)
  have hsummary : trimEnd (d.summary.toList.takeWhile fun c => isWord c || isBlank c) =
      d.summary.toList := by
    rw [takeWhile_of_forall (List.all_eq_true.mp h.summary.chars)]
    exact trimEnd_of_getLast? (isBlank_of_all_isWord h.summary.ends)
  have hempty : d.path.toList.isEmpty = false := by simpa using hpathNe
  have hlength : ¬d.summary.toList.length < 2 := by
    have := h.summary.two_le_length
    omega
  simp only [RouteHeader.read?, hopen, hword, hclose, hpathStart, htake, hdrop, hsummaryStart,
    hsummary, hempty, hlength, Method.ofName?_name, Option.bind_eq_bind, Option.bind_some,
    Bool.false_eq_true, if_false]
  rfl

theorem Draft.Fits.tagless_headerText {d : Draft} (h : d.Fits) : Tagless d.headerText := by
  refine tagless_of_not_mem ?_
  have hmethod : '@' ∉ d.method.name.toList := by cases d.method <;> decide
  have hpath : '@' ∉ d.path.toList := fun hc => absurd (h.path.2 _ hc) (by decide)
  have hsummary : '@' ∉ d.summary.toList := fun hc =>
    absurd (List.all_eq_true.mp h.summary.chars _ hc) (by decide)
  simp [headerText, hmethod, hpath, hsummary]

theorem Draft.Fits.routeHeader?_block {d : Draft} (h : d.Fits) (parts : List Part) :
    (d.block parts).routeHeader? =
      some { method := d.method, path := d.path.toList, summary := d.summary.toList } := by
  change Tag.route.scan RouteHeader.read? (Tag.route.line d.headerText) = _
  rw [Tag.scan_line h.tagless_headerText, if_pos rfl, h.read?_headerText]

/-! ### The other lines -/

theorem not_mem_at_of_isName {text : String} (h : IsName text) : '@' ∉ text.toList :=
  fun hc => absurd (h.1 _ hc) (by decide)

/-- No part of a draft has a tag in its text. -/
theorem Draft.Fits.tagless_of_mem {d : Draft} (h : d.Fits) {p : Part} (hp : p ∈ d.parts) :
    Tagless p.text := by
  have hword : ∀ {text : String}, IsWordText text → Tagless text.toList := fun hword =>
    tagless_of_not_mem fun hc => absurd (hword _ hc) (by decide)
  have hmedia : ∀ {text : String}, IsMediaType text → Tagless text.toList := fun hmedia =>
    tagless_of_not_mem fun hc => absurd (hmedia.2 _ hc) (by decide)
  simp only [parts, List.mem_append, List.mem_cons, List.not_mem_nil, or_false,
    List.mem_map] at hp
  rcases hp with (((((((rfl | rfl) | ⟨w, hw, rfl⟩) | ⟨m, hm, rfl⟩) | ⟨m, hm, rfl⟩) | ⟨b, hb, rfl⟩) |
    ⟨a, ha, rfl⟩) | ⟨w, hw, rfl⟩) | ⟨e, he, rfl⟩
  · exact hword h.name
  · exact hword h.group
  · exact hword (h.uses w hw).1
  · exact hmedia (h.consumes.2 m hm)
  · exact hmedia (h.produces.2 m hm)
  · obtain ⟨hname, hmodel⟩ := h.body b hb
    refine tagless_of_not_mem ?_
    simp [Part.text, not_mem_at_of_isName hname, not_mem_at_of_isName hmodel]
  · obtain ⟨hcode, hmodel, -, htag⟩ := h.responses a ha
    have hstart : '@' ∉ a.code.toList ++ [' ', '#'] ++ a.model.toList ++ [' '] := by
      simp [not_mem_at_of_isName hcode, not_mem_at_of_isName hmodel]
    have htagless := Tagless.append hstart (tagless_of_contains htag)
    simpa [Part.text] using htagless
  · refine tagless_of_not_mem ?_
    simp [Part.text, not_mem_at_of_isName (h.descriptions w hw)]
  · exact (h.params e he).tagless

/-- The same parts, and those with one tag in the same order. -/
def Interleaves (parts parts' : List Draft.Part) : Prop :=
  ∀ tag, parts.filter (·.tag = tag) = parts'.filter (·.tag = tag)

theorem Interleaves.perm {parts parts' : List Draft.Part} (h : Interleaves parts parts') :
    parts.Perm parts' := by
  rw [List.perm_iff_count]
  intro p
  have hcount : ∀ ps : List Draft.Part, ps.count p = (ps.filter (·.tag = p.tag)).count p :=
    fun ps => (List.count_filter (by simp)).symm
  rw [hcount parts, hcount parts', h p.tag]

section Interleaving

variable {d : Draft} {parts : List Draft.Part}

theorem filterMap_scan {α : Type} (tag : Tag) (read : List Char → Option α)
    (h : ∀ p ∈ parts, Tagless p.text) :
    (parts.map Draft.Part.line).filterMap (tag.scan read) =
      (parts.filter (·.tag = tag)).filterMap fun p => read p.text := by
  induction parts with
  | nil => rfl
  | cons p parts ih =>
    have ih := ih fun q hq => h q (by simp [hq])
    have hscan := Tag.scan_line (h p (by simp)) tag p.tag read
    rw [List.map_cons, List.filterMap_cons, ih, Draft.Part.line, hscan]
    by_cases htag : p.tag = tag
    · rw [if_pos htag.symm, List.filter_cons_of_pos (by simpa using htag), List.filterMap_cons]
    · rw [if_neg (Ne.symm htag), List.filter_cons_of_neg (by simpa using htag)]

/-- If the parts with a tag are made of values, a scan for the tag finds these values in order. -/
theorem Draft.Fits.filterMap_scan_eq (hd : d.Fits) (hparts : Interleaves parts d.parts)
    {α : Type} {tag : Tag} {read : List Char → Option α} {values : List α} {part : α → Part}
    (htag : d.parts.filter (·.tag = tag) = values.map part)
    (hread : ∀ a ∈ values, read (part a).text = some a) :
    (parts.map Part.line).filterMap (tag.scan read) = values := by
  have htagless : ∀ p ∈ parts, Tagless p.text := fun p hp =>
    hd.tagless_of_mem (hparts.perm.mem_iff.mp hp)
  rw [filterMap_scan tag read htagless, hparts tag, htag]
  clear htag
  induction values with
  | nil => rfl
  | cons a values ih =>
    rw [List.map_cons, List.filterMap_cons, hread a (by simp), ih fun b hb => hread b (by simp [hb])]

theorem filter_tag_map {α : Type} {part : α → Draft.Part} {t : Tag} (h : ∀ a, (part a).tag = t)
    (tag : Tag) (values : List α) :
    (values.map part).filter (·.tag = tag) = if t = tag then values.map part else [] := by
  split
  · rename_i htag
    rw [List.filter_eq_self]
    intro p hp
    obtain ⟨a, -, rfl⟩ := List.mem_map.mp hp
    simp [h a, htag]
  · rename_i htag
    rw [List.filter_eq_nil_iff]
    intro p hp
    obtain ⟨a, -, rfl⟩ := List.mem_map.mp hp
    simp [h a, htag]

theorem Draft.filter_fields (d : Draft) {tag : Tag} (hparam : tag ≠ .param)
    (hheader : tag ≠ .header) :
    (d.params.entries.map fun e => Part.field e.1 e.2).filter (·.tag = tag) = [] := by
  rw [List.filter_eq_nil_iff]
  intro p hp
  obtain ⟨e, -, rfl⟩ := List.mem_map.mp hp
  rw [decide_eq_true_eq, Part.tag, Field.tag]
  split
  · exact hheader.symm
  · exact hparam.symm

/-- The parts of a draft with a tag, which is not one of the two that fields have. -/
def Draft.partsWith (d : Draft) : Tag → List Part
  | .name => [.name d.name]
  | .group => [.group d.group]
  | .use => d.uses.map .use
  | .consumes => d.consumes.map .consumes
  | .produces => d.produces.map .produces
  | .body => d.body.map .body
  | .response => d.responses.map .response
  | .description => d.descriptions.map .description
  | _ => []

theorem Draft.filter_parts (d : Draft) (tag : Tag) (hparam : tag ≠ .param)
    (hheader : tag ≠ .header) : d.parts.filter (·.tag = tag) = d.partsWith tag := by
  have hsplit : d.parts = [d.name].map .name ++ [d.group].map .group ++ d.uses.map .use ++
      d.consumes.map .consumes ++ d.produces.map .produces ++ d.body.map .body ++
      d.responses.map .response ++ d.descriptions.map .description ++
      d.params.entries.map fun e => .field e.1 e.2 := rfl
  rw [hsplit]
  simp only [List.filter_append, d.filter_fields hparam hheader, List.append_nil]
  rw [filter_tag_map (t := .name) (fun _ => rfl), filter_tag_map (t := .group) (fun _ => rfl),
    filter_tag_map (t := .use) (fun _ => rfl), filter_tag_map (t := .consumes) (fun _ => rfl),
    filter_tag_map (t := .produces) (fun _ => rfl), filter_tag_map (t := .body) (fun _ => rfl),
    filter_tag_map (t := .response) (fun _ => rfl), filter_tag_map (t := .description) (fun _ => rfl)]
  cases tag <;> simp [partsWith]

end Interleaving

theorem readBinding?_append {name model : String} (hname : IsName name) (hmodel : IsName model)
    {rest : List Char} (hrest : ∀ c, rest.head? = some c → isWord c = false) :
    readBinding? (name.toList ++ ' ' :: '#' :: (model.toList ++ rest)) =
      some (name, model, rest) := by
  have hword : word? (name.toList ++ ' ' :: '#' :: (model.toList ++ rest)) =
      some (name.toList, ' ' :: '#' :: (model.toList ++ rest)) :=
    word?_append hname.1 (by simpa using hname.2) (by intro c hc; cases hc; decide)
  have hblank : afterBlank? (' ' :: '#' :: (model.toList ++ rest)) =
      some ('#' :: (model.toList ++ rest)) := rfl
  have hmodelName : readModelName ('#' :: (model.toList ++ rest)) = (model.toList, rest) := by
    have hmark : after? ['#'] ('#' :: (model.toList ++ rest)) = some (model.toList ++ rest) := rfl
    obtain ⟨htake, hdrop⟩ := takeWhile_dropWhile_append hmodel.1 hrest
    simp only [readModelName, hmark, Option.getD_some, word, afterWord, htake, hdrop]
  have hempty : model.toList.isEmpty = false := by simpa using hmodel.2
  simp only [readBinding?, hword, hblank, hmodelName, hempty, Option.bind_eq_bind, Option.bind_some,
    Bool.false_eq_true, if_false, String.ofList_toList]
  rfl

section Parts

variable {d : Draft} {parts : List Draft.Part}

theorem Draft.Fits.words_eq (hd : d.Fits) (hparts : Interleaves parts d.parts) {tag : Tag}
    {part : String → Part} {values : List String}
    (htag : d.parts.filter (·.tag = tag) = values.map part)
    (htext : ∀ w, (part w).text = w.toList) (hwords : ∀ w ∈ values, IsWordText w) :
    tag.words (parts.map Part.line) = values := by
  refine hd.filterMap_scan_eq hparts htag fun w hw => ?_
  have hword : word w.toList = w.toList := takeWhile_of_forall (hwords w hw)
  simp only [htext, hword, String.ofList_toList]

theorem Draft.Fits.word_eq (hd : d.Fits) (hparts : Interleaves parts d.parts) {tag : Tag}
    {part : String → Part} {value : String}
    (htag : d.parts.filter (·.tag = tag) = [part value])
    (htext : ∀ w, (part w).text = w.toList) (hword : IsWordText value) :
    ((parts.map Part.line).findSome? tag.word?).getD "" = value := by
  have hwords : tag.words (parts.map Part.line) = [value] :=
    hd.words_eq hparts htag htext (by simpa using hword)
  rw [← List.head?_filterMap]
  exact congrArg (fun ws : List String => ws.head?.getD "") hwords

theorem Draft.Fits.mediaTypes_eq (hd : d.Fits) (hparts : Interleaves parts d.parts) {tag : Tag}
    {part : String → Part} {values : List String}
    (htag : d.parts.filter (·.tag = tag) = values.map part)
    (htext : ∀ w, (part w).text = w.toList)
    (hvalues : values ≠ [] ∧ ∀ m ∈ values, IsMediaType m) :
    mediaTypes tag (parts.map Part.line) = values := by
  have hfound : (parts.map Part.line).filterMap (tag.scan fun cs =>
      let media := cs.takeWhile isMediaChar
      if media.isEmpty then none else some (String.ofList media)) = values := by
    refine hd.filterMap_scan_eq hparts htag fun m hm => ?_
    obtain ⟨hne, hchars⟩ := hvalues.2 m hm
    have hmedia : m.toList.takeWhile isMediaChar = m.toList := takeWhile_of_forall hchars
    have hempty : m.toList.isEmpty = false := by simpa using hne
    simp only [htext, hmedia, hempty, Bool.false_eq_true, if_false, String.ofList_toList]
  have hempty : values.isEmpty = false := by simpa using hvalues.1
  simp only [mediaTypes, hfound, hempty, Bool.false_eq_true, if_false]

theorem Draft.Fits.body_eq (hd : d.Fits) (hparts : Interleaves parts d.parts) :
    (parts.map Part.line).filterMap (Tag.body.scan BodyBinding.read?) = d.body := by
  refine hd.filterMap_scan_eq hparts (d.filter_parts .body (by decide) (by decide)) fun b hb => ?_
  obtain ⟨hname, hmodel⟩ := hd.body b hb
  have hread : readBinding? (b.name.toList ++ ' ' :: '#' :: (b.model.toList ++ [])) =
    some (b.name, b.model, []) := readBinding?_append hname hmodel (by simp)
  rw [List.append_nil] at hread
  rw [BodyBinding.read?, Part.text, hread]
  rfl

theorem Draft.Fits.responses_eq (hd : d.Fits) (hparts : Interleaves parts d.parts) :
    (parts.map Part.line).filterMap (Tag.response.scan Response.read?) = d.responses := by
  refine hd.filterMap_scan_eq hparts (d.filter_parts .response (by decide) (by decide))
    fun a ha => ?_
  obtain ⟨hcode, hmodel, htrim, -⟩ := hd.responses a ha
  have hspace : trim (' ' :: a.description.toList) = trim a.description.toList := rfl
  rw [Response.read?, Part.text, readBinding?_append hcode hmodel (by intro c hc; cases hc; decide)]
  simp only [Option.map_some, hspace, htrim, String.ofList_toList]

theorem Draft.Fits.descriptions_eq (hd : d.Fits) (hparts : Interleaves parts d.parts) :
    descriptionNames (parts.map Part.line) = d.descriptions := by
  have hfound : (parts.map Part.line).filterMap (Tag.description.scan fun cs =>
      some (String.ofList (readModelName cs).1)) = d.descriptions := by
    refine hd.filterMap_scan_eq hparts (d.filter_parts .description (by decide) (by decide))
      fun w hw => ?_
    have hmark : after? ['#'] ('#' :: w.toList) = some w.toList := rfl
    have hword : word w.toList = w.toList := takeWhile_of_forall (hd.descriptions w hw).1
    simp only [Part.text, readModelName, hmark, Option.getD_some, hword, String.ofList_toList]
  rw [descriptionNames, hfound, List.filter_eq_self]
  intro w hw
  simpa using (hd.descriptions w hw).2

theorem Draft.filterMap_field? (d : Draft) : d.parts.filterMap Part.field? = d.params.entries := by
  have hnone : ∀ {α : Type} {part : α → Part} (values : List α), (∀ a, (part a).field? = none) →
      (values.map part).filterMap Part.field? = [] := by
    intro α part values h
    rw [List.filterMap_map, List.filterMap_eq_nil_iff]
    exact fun a _ => h a
  have hfields : (d.params.entries.map fun e => Part.field e.1 e.2).filterMap Part.field? =
      d.params.entries := by
    rw [List.filterMap_map]
    exact List.filterMap_some
  have hfirst : [Part.name d.name, Part.group d.group].filterMap Part.field? = [] := rfl
  simp only [parts, List.filterMap_append, hfields, hfirst, List.nil_append]
  rw [hnone d.uses fun _ => rfl, hnone d.consumes fun _ => rfl, hnone d.produces fun _ => rfl,
    hnone d.body fun _ => rfl, hnone d.responses fun _ => rfl, hnone d.descriptions fun _ => rfl]
  rfl

/-- A part declares the field that it is, if it is one. -/
theorem Draft.Fits.ofLine?_line (hd : d.Fits) {p : Part} (hp : p ∈ d.parts) :
    Field.ofLine? p.line = pure p.field? := by
  have htagless := hd.tagless_of_mem hp
  cases p with
  | field n f =>
    have hmem : (n, f) ∈ d.params.entries := by
      rw [← d.filterMap_field?, List.mem_filterMap]
      exact ⟨_, hp, rfl⟩
    exact Field.ofLine?_line (hd.params (n, f) hmem)
  | name w | group w | use w | consumes w | produces w | body b | response a | description w =>
    exact Field.ofLine?_line_of_ne (by simp [Part.tag]) (by simp [Part.tag]) htagless

theorem Draft.Fits.ofLines_eq (hd : d.Fits) (hparts : Interleaves parts d.parts) :
    Fields.ofLines (parts.map Part.line) =
      pure (Fields.ofDeclarations (parts.filterMap Part.field?)) := by
  have hmapM : (parts.map Part.line).mapM Field.ofLine? = pure (parts.map Part.field?) := by
    have hline : ∀ p ∈ parts, Field.ofLine? p.line = pure p.field? := fun p hp =>
      hd.ofLine?_line (hparts.perm.mem_iff.mp hp)
    clear hparts
    induction parts with
    | nil => rfl
    | cons p parts ih =>
      rw [List.map_cons, List.mapM_cons, hline p (by simp), ih fun q hq => hline q (by simp [hq])]
      rfl
  rw [Fields.ofLines, hmapM, pure_bind, List.filterMap_map]
  rfl

theorem Draft.perm_fields (hparts : Interleaves parts d.parts) :
    (parts.filterMap Part.field?).Perm d.params.entries := by
  rw [← d.filterMap_field?]
  exact hparts.perm.filterMap _

/-- The block of a draft is read as that draft, with its parameters in the order of their lines. -/
theorem Draft.Fits.ofBlock?_eq (hd : d.Fits) (hparts : Interleaves parts d.parts) :
    Draft.ofBlock? (d.block parts) =
      pure (some { d with params := Fields.ofDeclarations (parts.filterMap Part.field?) }) := by
  have hname := hd.word_eq hparts (d.filter_parts .name (by decide) (by decide)) (fun _ => rfl)
    hd.name
  have hgroup := hd.word_eq hparts (d.filter_parts .group (by decide) (by decide)) (fun _ => rfl)
    hd.group
  have huses := hd.words_eq hparts (d.filter_parts .use (by decide) (by decide)) (fun _ => rfl)
    fun w hw => (hd.uses w hw).1
  have hconsumes := hd.mediaTypes_eq hparts (d.filter_parts .consumes (by decide) (by decide))
    (fun _ => rfl) hd.consumes
  have hproduces := hd.mediaTypes_eq hparts (d.filter_parts .produces (by decide) (by decide))
    (fun _ => rfl) hd.produces
  have hbody : (d.block parts).body = parts.map Part.line := rfl
  have hsource : (d.block parts).source = d.controller := rfl
  have hfile : ∀ params : Fields, (pure params : Reading Fields).inFile d.controller = pure params :=
    fun _ => rfl
  rw [Draft.ofBlock?, hd.routeHeader?_block parts]
  simp only [hbody, hsource, hd.ofLines_eq hparts, hfile, pure_bind, hname, hgroup, huses, hconsumes,
    hproduces, hd.body_eq hparts, hd.responses_eq hparts, hd.descriptions_eq hparts,
    String.ofList_toList]

end Parts

/-- However the lines of a draft are mixed, if those with one tag stay in order, the block is read
as the draft, without a warning. Only parameters can come in another order than in the draft, and
they do not if their lines stay in order. -/
theorem Draft.ofBlock?_interleaving {d : Draft} (hd : d.Fits) {parts : List Draft.Part}
    (hparts : Interleaves parts d.parts) :
    (∃ params : Fields, Draft.ofBlock? (d.block parts) = pure (some { d with params }) ∧
      params.entries = parts.filterMap Part.field? ∧
      ∀ name, params.find? name = d.params.find? name) ∧
    (parts.filterMap Part.field? = d.params.entries →
      Draft.ofBlock? (d.block parts) = pure (some d)) := by
  have hperm := Draft.perm_fields hparts
  have hnodup : ((parts.filterMap Part.field?).map Prod.fst).Nodup :=
    (hperm.map Prod.fst).nodup_iff.mpr d.params.nodup
  have hentries := Fields.entries_ofDeclarations hnodup
  refine ⟨⟨_, hd.ofBlock?_eq hparts, hentries, fun name => ?_⟩, fun horder => ?_⟩
  · exact Table.find?_of_perm (by rw [hentries]; exact hperm) name
  · have hparams : Fields.ofDeclarations (parts.filterMap Part.field?) = d.params :=
      Table.ext (hentries.trans horder)
    rw [hd.ofBlock?_eq hparts, hparams]

/-- A route with a line for each sort of part, none where the order of the parts would put it. -/
theorem Draft.ofBlock?_interleaving_mixed :
    let id : Field := ⟨⟨.scalar "String", ["a", "b"], none⟩, true, "x", false⟩
    let limit : Field :=
      ⟨⟨.scalar "Number", [], some { min := some 1, max := some 5 }⟩, false, "y", true⟩
    let d : Draft := {
      controller := "c", method := .get, path := "/:i", summary := "It", name := "n", group := "g"
      uses := ["P"], params := ⟨[("i", id), ("h", limit)], by decide⟩
      consumes := ["a/b"], produces := ["c"], body := [⟨"b", "M"⟩]
      responses := [⟨"404", "E", "not it"⟩], descriptions := ["D"] }
    let lines := ["@api {get} /:i It", "@apiParam \x7bString=\x7b'a','b'\x7d\x7d [i] x",
      "@apiGroup g", "@apiHeader {Number}{1-5} h y", "@apiName n", "@apiDescription #D",
      "@apiProduces c", "@apiResponse 404 #E not it", "@apiConsumes a/b", "@apiBody b #M",
      "@apiUse P"]
    Draft.ofBlock? ⟨lines, "c"⟩ = pure (some d) := by
  intro id limit d lines
  let parts : List Part := [.field "i" id, .group "g", .field "h" limit, .name "n",
    .description "D", .produces "c", .response ⟨"404", "E", "not it"⟩, .consumes "a/b",
    .body ⟨"b", "M"⟩, .use "P"]
  have hid : id.Fits "i" :=
    ⟨by decide, by decide, ⟨"String=\x7b'a','b'\x7d".toList, rfl⟩, by decide, by decide, by decide,
      by decide⟩
  have hlimit : limit.Fits "h" :=
    ⟨by decide, by decide, ⟨"Number\x7d\x7b1-5".toList, rfl⟩, by decide, by decide, by decide, by decide⟩
  have hfits : d.Fits := by
    refine ⟨⟨by decide, List.all_eq_true.mp (by decide)⟩, ⟨by decide, by decide, by decide, by decide⟩,
      by decide, by decide, by decide, by decide, by decide, by decide, by decide, by decide,
      fun e he => ?_⟩
    change e ∈ [("i", id), ("h", limit)] at he
    simp only [List.mem_cons, List.not_mem_nil, or_false] at he
    rcases he with rfl | rfl
    · exact hid
    · exact hlimit
  have hparts : Interleaves parts d.parts := by
    intro tag
    cases tag <;> decide
  have hblock : d.block parts = ⟨lines, "c"⟩ := by decide +kernel
  rw [← hblock]
  exact (Draft.ofBlock?_interleaving hfits hparts).2 rfl

end RouteDoc
