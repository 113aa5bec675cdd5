import RouteDoc.Proofs.Provenance

/-! The rows of a document's fragments. What is quoted or escaped stays on one line, and every row
starts with the spaces of the layout that it belongs to, so no text can leave its place. -/

namespace RouteDoc

open Text

/-! ### Quoted and escaped texts -/

namespace Text

theorem oneLine_flatMap {cs : List Char} {f : Char → List Char} (h : ∀ c ∈ cs, '\n' ∉ f c) :
    OneLine (String.ofList (cs.flatMap f)) := by
  rw [OneLine, String.toList_ofList, List.mem_flatMap]
  rintro ⟨c, hc, hmem⟩
  exact h c hc hmem

theorem OneLine.quote {text : String} (h : OneLine text) : OneLine (quote text) := by
  have hdouble : ∀ c ∈ text.toList, '\n' ∉ doubleQuote c := by
    intro c hc
    have hne : c ≠ '\n' := fun he => h (he ▸ hc)
    unfold doubleQuote
    split
    · decide
    · simpa using Ne.symm hne
  exact ((show OneLine "'" by decide).append (oneLine_flatMap hdouble)).append (by decide)

theorem OneLine.escape {text : String} (h : OneLine text) : OneLine (escape text) := by
  refine oneLine_flatMap fun c hc => ?_
  have hne : c ≠ '\n' := fun he => h (he ▸ hc)
  unfold entity
  split
  all_goals first | decide | simpa using Ne.symm hne

theorem not_mem_jsonChar (c : Char) : '\n' ∉ jsonChar c := by
  have hhex : ∀ n < 16, hexDigit n ≠ '\n' := by decide
  unfold jsonChar
  split
  case h_8 hfeed _ _ =>
    split
    · rename_i hcontrol
      have h₁ := hhex (c.toNat / 16) (by omega)
      have h₂ := hhex (c.toNat % 16) (by omega)
      simp [h₁.symm, h₂.symm]
    · rw [List.mem_singleton]
      exact fun he => hfeed he.symm
  all_goals decide

/-- A line feed is escaped inside a literal. -/
theorem oneLine_jsonString (text : String) : OneLine (jsonString text) :=
  ((show OneLine "\"" by decide).append
    (oneLine_flatMap fun c _ => not_mem_jsonChar c)).append (by decide)

theorem oneLine_intercalate {s : String} (hs : OneLine s) {texts : List String}
    (h : ∀ t ∈ texts, OneLine t) : OneLine (s.intercalate texts) := by
  induction texts with
  | nil => simp [OneLine]
  | cons t texts ih =>
    have ht := h t (by simp)
    have ih := ih fun u hu => h u (by simp [hu])
    cases texts with
    | nil => simpa using ht
    | cons u texts =>
      rw [String.intercalate_cons_cons]
      exact (ht.append hs).append ih

theorem oneLine_jsonArray (texts : List String) : OneLine (jsonArray texts) := by
  refine ((show OneLine "[" by decide).append
    (oneLine_intercalate (by decide) fun t ht => ?_)).append (by decide)
  obtain ⟨text, -, rfl⟩ := List.mem_map.mp ht
  exact oneLine_jsonString text

theorem Case.isWord_of_mem_lowerAfter {cs : List Char} (hcs : ∀ c ∈ cs, isWord c = true)
    (before : List Char) : ∀ c ∈ lowerAfter before cs, isWord c = true := by
  induction cs generalizing before with
  | nil => simp [lowerAfter]
  | cons c cs ih =>
    have hc := hcs c (by simp)
    have hsigma : c ≠ 'Σ' := ne_of_isWord hc (by decide)
    intro d hd
    simp only [lowerAfter, hsigma, if_false] at hd
    rcases List.mem_append.mp hd with hd | hd
    · exact Case.isWord_of_mem_lower hc hd
    · exact ih (fun e he => hcs e (by simp [he])) _ d hd

theorem oneLine_lowercase {name : String} (h : IsWordText name) : OneLine (Case.lowercase name) :=
  IsWordText.oneLine fun c hc =>
    Case.isWord_of_mem_lowerAfter h [] c (by simpa [Case.lowercase] using hc)

theorem oneLine_natRepr (n : Nat) : OneLine n.repr := by
  intro hc
  rw [Nat.toList_repr] at hc
  have hdigit := Nat.isDigit_of_mem_toDigits (by decide) (by decide) hc
  exact absurd hdigit (by decide)

theorem oneLine_intRepr (n : Int) : OneLine n.repr := by
  cases n with
  | ofNat m => exact oneLine_natRepr m
  | negSucc m => exact (show OneLine "-" by decide).append (oneLine_natRepr (m + 1))

end Text

/-! ### Rows -/

/-- A row on one line that starts with `n` spaces. -/
def Row (n : Nat) (row : String) : Prop := OneLine row ∧ Indented n row

instance (n : Nat) (row : String) : Decidable (Row n row) :=
  inferInstanceAs (Decidable (_ ∧ _))

theorem Row.append {n : Nat} {s t : String} (hs : Row n s) (ht : OneLine t) : Row n (s ++ t) :=
  ⟨hs.1.append ht, hs.2.append t⟩

/-- Rows on one line each, which are blank or start with at least `n` spaces. -/
def Rows (n : Nat) (rows : List String) : Prop := ∀ row ∈ rows, OneLine row ∧ Deep n row

namespace Rows

variable {n : Nat} {rows rows' : List String}

theorem nil : Rows n [] := fun _ h => by cases h

theorem cons {row : String} (h : Row n row) (hs : Rows n rows) : Rows n (row :: rows) := by
  intro r hr
  rcases List.mem_cons.mp hr with rfl | hr
  · exact ⟨h.1, h.2.deep⟩
  · exact hs r hr

theorem append (h : Rows n rows) (h' : Rows n rows') : Rows n (rows ++ rows') := by
  intro r hr
  rcases List.mem_append.mp hr with hr | hr
  · exact h r hr
  · exact h' r hr

theorem map {α : Type} {xs : List α} {f : α → String} (h : ∀ x ∈ xs, Row n (f x)) :
    Rows n (xs.map f) := by
  intro r hr
  obtain ⟨x, hx, rfl⟩ := List.mem_map.mp hr
  exact ⟨(h x hx).1, (h x hx).2.deep⟩

theorem flatMap {α : Type} {xs : List α} {f : α → List String} (h : ∀ x ∈ xs, Rows n (f x)) :
    Rows n (xs.flatMap f) := by
  intro r hr
  obtain ⟨x, hx, hr⟩ := List.mem_flatMap.mp hr
  exact h x hx r hr

theorem mono {m : Nat} (h : Rows n rows) (hmn : m ≤ n) : Rows m rows :=
  fun r hr => ⟨(h r hr).1, (h r hr).2.mono hmn⟩

theorem layout (h : Rows n rows) : Rows n (layout rows) := layout_deep h

/-- No row is at a depth that is less than that of the rows. -/
theorem filter_isAt {m : Nat} (h : Rows n rows) (hmn : m < n) : rows.filter (isAt m) = [] := by
  rw [List.filter_eq_nil_iff]
  intro r hr
  simp [isAt_of_deep (h r hr).2 hmn]

theorem not_mem {m : Nat} (h : Rows n rows) (hmn : m < n) {key : String} (hkey : isAt m key = true) :
    key ∉ rows := by
  intro hmem
  rw [isAt_of_deep (h key hmem).2 hmn] at hkey
  cases hkey

end Rows

/-! ### Schemas -/

namespace Schema

theorem indented_of_mem_indent {n : Nat} {ls : List String} {l : String} (h : l ∈ indent n ls) :
    Indented n l := by
  obtain ⟨text, -, rfl⟩ := List.mem_map.mp h
  refine Indented.append ⟨[], ?_⟩ text
  rw [List.append_nil, spaces, String.toList_ofList]

theorem indent_rows {n : Nat} {ls : List String} (h : ∀ l ∈ ls, OneLine l) :
    Rows n (indent n ls) := by
  have hspaces : OneLine (spaces n) := by
    rw [OneLine, spaces, String.toList_ofList]
    intro hc
    exact absurd (List.eq_of_mem_replicate hc) (by decide)
  intro l hl
  refine ⟨?_, (indented_of_mem_indent hl).deep⟩
  obtain ⟨text, htext, rfl⟩ := List.mem_map.mp hl
  exact hspaces.append (h text htext)

theorem oneLine_reference {name : String} (h : OneLine name) : OneLine (reference name) :=
  ((show OneLine "$ref: \"#/definitions/" by decide).append h).append (by decide)

theorem oneLine_kindLines {kind : Kind} (h : kind.Wordy) : ∀ l ∈ kindLines kind, OneLine l := by
  induction kind with
  | any => simp [kindLines]; decide
  | scalar name =>
    intro l hl
    rw [List.mem_singleton.mp hl]
    exact (show OneLine "type: " by decide).append (oneLine_lowercase h)
  | reference name =>
    intro l hl
    rw [List.mem_singleton.mp hl]
    exact oneLine_reference (IsWordText.oneLine h)
  | array items ih =>
    intro l hl
    rcases List.mem_append.mp hl with hl | hl
    · simp only [List.mem_cons, List.not_mem_nil, or_false] at hl
      rcases hl with rfl | rfl <;> decide
    · exact (indent_rows (n := 2) (ih h) l hl).1

theorem exists_of_mem_boundLines {bounds : Option Bounds} {l : String}
    (h : l ∈ boundLines bounds) : ∃ key ∈ ["minLength", "maxLength", "min", "max"], ∃ bound : Int,
      l = key ++ ": " ++ bound.repr := by
  obtain ⟨⟨key, bound⟩, hmem, rfl⟩ := List.mem_map.mp h
  refine ⟨key, ?_, bound, rfl⟩
  cases bounds with
  | none => cases hmem
  | some b =>
    simp only [Option.map_some, Option.getD_some, Bounds.entries, List.mem_filterMap] at hmem
    obtain ⟨⟨key', bound'⟩, hkey', heq⟩ := hmem
    obtain ⟨_, -, heq⟩ := Option.map_eq_some_iff.mp heq
    cases heq
    exact List.mem_map_of_mem (f := Prod.fst) hkey'

theorem oneLine_boundLines (bounds : Option Bounds) : ∀ l ∈ boundLines bounds, OneLine l := by
  intro l hl
  obtain ⟨key, hkey, bound, rfl⟩ := exists_of_mem_boundLines hl
  have honeLine : ∀ key ∈ ["minLength", "maxLength", "min", "max"], OneLine key := by decide
  exact ((honeLine key hkey).append (by decide)).append (oneLine_intRepr bound)

theorem oneLine_choiceLines (choices : List String) : ∀ l ∈ choiceLines choices, OneLine l := by
  intro l hl
  unfold choiceLines at hl
  split at hl
  · cases hl
  · rw [List.mem_singleton.mp hl]
    exact (show OneLine "enum: " by decide).append (oneLine_jsonArray choices)

theorem oneLine_descriptionLines {description : String} (h : OneLine description) :
    ∀ l ∈ descriptionLines description, OneLine l := by
  intro l hl
  unfold descriptionLines at hl
  split at hl
  · cases hl
  · rw [List.mem_singleton.mp hl]
    exact ((show OneLine "description: '" by decide).append h.escape).append (by decide)

theorem oneLine_anyLine (description : String) : OneLine (anyLine description) := by
  unfold anyLine
  split
  · decide
  · exact ((show OneLine "\x7b\"description\":" by decide).append (oneLine_jsonString _)).append
      (by decide)

theorem oneLine_typeLines {t : FieldType} {description : String} (hkind : t.kind.Wordy)
    (hdescription : OneLine description) : ∀ l ∈ typeLines t description, OneLine l := by
  have hlines : ∀ l ∈ kindLines t.kind ++ choiceLines t.choices ++ boundLines t.bounds ++
      descriptionLines description, OneLine l := by
    intro l hl
    simp only [List.mem_append] at hl
    rcases hl with ((hl | hl) | hl) | hl
    · exact oneLine_kindLines hkind l hl
    · exact oneLine_choiceLines t.choices l hl
    · exact oneLine_boundLines t.bounds l hl
    · exact oneLine_descriptionLines hdescription l hl
  intro l hl
  unfold typeLines at hl
  split at hl
  · rw [List.mem_singleton.mp hl]
    exact oneLine_anyLine description
  · rename_i name hname
    rw [List.mem_singleton.mp hl]
    rw [hname] at hkind
    exact oneLine_reference (IsWordText.oneLine hkind)
  · exact hlines l hl
  · exact hlines l hl

/-- Below the name of a model every line has at least four spaces. -/
theorem modelLines_eq (name : String) {fields : Fields} (h : fields.Plain) :
    ∃ rows, modelLines name fields = ("  " ++ name ++ ":") :: rows ∧ Rows 4 rows := by
  refine ⟨"    type: object" :: (requiredLines fields ++ propertiesLines fields), rfl,
    Rows.cons (by decide) (Rows.append ?_ ?_)⟩
  · unfold requiredLines
    simp only
    split
    · exact Rows.nil
    · refine Rows.cons (by decide) (Rows.map fun field hfield => ?_)
      obtain ⟨e, he, rfl⟩ := List.mem_map.mp hfield
      exact (show Row 4 "      - " by decide).append (h e (List.mem_filter.mp he).1).1
  · unfold propertiesLines
    split
    · exact Rows.nil
    · refine Rows.cons (by decide) (Rows.flatMap fun e he => ?_)
      obtain ⟨hname, hfield⟩ := h e he
      refine Rows.cons (((show Row 4 "      " by decide).append hname).append (by decide)) ?_
      exact (indent_rows (oneLine_typeLines hfield.kind hfield.description)).mono (by decide)

end Schema

/-! ### Descriptions -/

namespace Description

theorem dropBytes?_suffix {n : Nat} {cs rest : List Char} (h : dropBytes? n cs = some rest) :
    rest <:+ cs := by
  fun_induction dropBytes? n cs with
  | case1 cs => exact Option.some.inj h ▸ List.suffix_refl cs
  | case2 n => cases h
  | case3 n c cs hc ih => exact (ih h).trans (List.suffix_cons c cs)
  | case4 n c cs hc => cases h

/-- The text of a line ends where the line does. -/
theorem clean_suffix (line : List Char) : clean line <:+ trimEnd line := by
  have hstart : trimStart (trimEnd line) <:+ trimEnd line := List.dropWhile_suffix _
  unfold clean
  simp only
  split
  · rename_i htext
    exact ((List.suffix_cons _ _).trans (htext ▸ List.suffix_cons _ _)).trans hstart
  · rename_i htext
    exact (htext ▸ List.suffix_cons _ _).trans hstart
  · exact List.suffix_refl _

theorem dedent_suffix (n : Nat) (line : List Char) : dedent n line <:+ line := by
  unfold dedent
  split
  · exact List.nil_suffix
  · cases hdrop : dropBytes? n line with
    | none => exact List.dropWhile_suffix _
    | some rest => exact dropBytes?_suffix hdrop

theorem oneLine_body {raw : List String} (h : ∀ l ∈ raw, OneLine l) :
    ∀ l ∈ body raw, OneLine l := by
  intro l hl
  simp only [body, List.map_map, List.mem_map, Function.comp_apply] at hl
  obtain ⟨line, hline, rfl⟩ := hl
  refine (h line hline).of_subset fun c hc => ?_
  rw [String.toList_ofList] at hc
  exact trimEnd_subset (((dedent_suffix _ _).trans (clean_suffix _)).subset hc)

theorem oneLine_indicator (lines : List String) : OneLine (indicator lines) := by
  unfold indicator
  split
  · split <;> decide
  · decide

end Description

/-! ### Fragments -/

theorem ParameterEntry.rows_lines {p : ParameterEntry} (hlocation : OneLine p.location)
    (hname : OneLine p.name) (hdescription : OneLine p.description) (hrequired : OneLine p.required)
    (htype : Rows 8 p.typeLines) : Rows 8 p.lines := by
  rw [lines_eq_layout]
  refine Rows.layout (Rows.append ?_ htype)
  refine Rows.cons ((show Row 8 "        - in: " by decide).append hlocation) ?_
  refine Rows.cons ((show Row 8 "          name: " by decide).append hname) ?_
  refine Rows.cons (((show Row 8 "          description: '" by decide).append
    hdescription.escape).append (by decide)) ?_
  exact Rows.cons ((show Row 8 "          required: " by decide).append hrequired) Rows.nil

theorem BodyEntry.rows_lines {b : BodyEntry} (hname : OneLine b.name) (hmodel : OneLine b.model) :
    Rows 8 b.lines := by
  rw [lines_eq_layout]
  refine Rows.layout ?_
  refine Rows.cons (by decide) ?_
  refine Rows.cons ((show Row 8 "          name: " by decide).append hname) ?_
  refine Rows.cons (by decide) ?_
  exact Rows.cons (((show Row 8 "            $ref: \"#/definitions/" by decide).append
    hmodel).append (by decide)) Rows.nil

/-- The rows below the code of a response. -/
theorem Response.rows_tail {answer : Response} (hmodel : OneLine answer.model)
    (hdescription : OneLine answer.description) : Rows 10 answer.rows.tail := by
  refine Rows.cons (((show Row 10 "          description: '" by decide).append
    hdescription.escape).append (by decide)) ?_
  refine Rows.cons (by decide) ?_
  exact Rows.cons (((show Row 10 "            $ref: \"#/definitions/" by decide).append
    hmodel).append (by decide)) Rows.nil

theorem Response.rows_rows {answer : Response} (hcode : OneLine answer.code)
    (hmodel : OneLine answer.model) (hdescription : OneLine answer.description) :
    Rows 8 answer.rows :=
  Rows.cons (((show Row 8 "        " by decide).append hcode).append (by decide))
    ((rows_tail hmodel hdescription).mono (by decide))

theorem Route.rows_typeLines {field : Field} (h : field.Plain) (location name : String)
    (required : Bool) : Rows 10 (parameterEntry location name field required).typeLines := by
  unfold parameterEntry
  simp only
  split
  · exact Rows.nil
  · exact Schema.indent_rows (Schema.oneLine_typeLines h.kind (by decide))

theorem Route.rows_parameterLines {r : Route} (h : r.Plain) : Rows 8 r.parameterLines := by
  have hentry : ∀ fields : Fields, fields.Plain → ∀ location required, OneLine location →
      ∀ e ∈ fields.entries, Rows 8 (parameterEntry location e.1 e.2 required).lines := by
    intro fields hfields location required hlocation e he
    obtain ⟨hname, hfield⟩ := hfields e he
    refine ParameterEntry.rows_lines hlocation hname hfield.description ?_ ?_
    · change OneLine (boolText required)
      cases required <;> decide
    · exact (rows_typeLines hfield location e.1 required).mono (by decide)
  have hplain : ∀ p ∈ r.plainEntries, Rows 8 p.lines := by
    intro p hp
    simp only [plainEntries, List.mem_append] at hp
    rcases hp with (hp | hp) | hp
    · obtain ⟨e, he, rfl⟩ := List.mem_map.mp hp
      exact hentry _ (h.params.filter _) "header" _ (by decide) e he
    · obtain ⟨e, he, rfl⟩ := List.mem_map.mp hp
      exact hentry _ (h.params.filter _) "path" _ (by decide) e he
    · obtain ⟨e, he, rfl⟩ := List.mem_map.mp hp
      exact hentry _ (h.params.filter _) "query" _ (by decide) e (List.mem_filter.mp he).1
  have hbody : ∀ b ∈ r.bodyEntries, Rows 8 b.lines := by
    intro b hb
    unfold bodyEntries at hb
    split at hb
    · split at hb
      · obtain ⟨model, hmodel, rfl⟩ := List.mem_map.mp hb
        refine BodyEntry.rows_lines (show OneLine "body" by decide) ?_
        exact h.implicitModel model (by simpa using hmodel)
      · obtain ⟨binding, hbinding, rfl⟩ := List.mem_map.mp hb
        exact BodyEntry.rows_lines (h.body binding hbinding).1 (h.body binding hbinding).2
    · cases hb
  unfold parameterLines
  split
  · exact Rows.nil
  · exact (Rows.flatMap hplain).append (Rows.flatMap hbody)

namespace Operation

/-- The rows between the method and the parameters. -/
def headRows (o : Operation) : List String :=
  ["      summary: " ++ o.summary, "      description: |" ++ o.indicator] ++
    o.description.map ("        " ++ ·) ++
    ["      operationId: " ++ o.operationId, "      consumes:"] ++
    o.consumes.map ("        - " ++ ·) ++ ["      produces:"] ++
    o.produces.map ("        - " ++ ·) ++ ["      tags:", "        - " ++ o.tag]

/-- The rows below the key of the responses. -/
def responseRows (o : Operation) : List String :=
  [ "        default:",
    "          description: Default Response",
    "          schema:",
    "            $ref: \"#/definitions/" ++ o.defaultModel ++ "\"" ] ++
  o.responses.flatMap Response.rows

theorem lines_eq (o : Operation) :
    o.lines = layout (("    " ++ o.method ++ ":") :: (o.headRows ++
      ((if o.parameters.isEmpty then [] else "      parameters:" :: o.parameters) ++
        "      responses:" :: o.responseRows))) := by
  simp only [lines_eq_layout, rows, headRows, responseRows, List.append_assoc, List.cons_append,
    List.nil_append]

end Operation

theorem Route.rows_headRows {r : Route} (h : r.Plain) : Rows 6 r.operation.headRows := by
  have hbody := Description.oneLine_body h.description
  have hindicator := Description.oneLine_indicator (Description.body r.description)
  have hdescription : Rows 6 ((Description.body r.description).map ("        " ++ ·)) :=
    Rows.map fun l hl => (show Row 6 "        " by decide).append (hbody l hl)
  have hmedia : ∀ types : List String, (∀ m ∈ types, OneLine m) →
      Rows 6 (types.map ("        - " ++ ·)) := fun types htypes =>
    Rows.map fun m hm => (show Row 6 "        - " by decide).append (htypes m hm)
  refine (((((Rows.append ?_ hdescription).append ?_).append (hmedia _ h.consumes)).append ?_).append
    (hmedia _ h.produces)).append ?_
  · exact Rows.cons ((show Row 6 "      summary: " by decide).append h.summary)
      (Rows.cons ((show Row 6 "      description: |" by decide).append hindicator) Rows.nil)
  · exact Rows.cons ((show Row 6 "      operationId: " by decide).append h.operationId.oneLine)
      (Rows.cons (by decide) Rows.nil)
  · exact Rows.cons (by decide) Rows.nil
  · exact Rows.cons (by decide)
      (Rows.cons ((show Row 6 "        - " by decide).append h.tag) Rows.nil)

theorem Route.rows_responseRows {r : Route} (h : r.Plain) : Rows 8 r.operation.responseRows := by
  refine Rows.append ?_ (Rows.flatMap fun answer hanswer => ?_)
  · change Rows 8 ["        default:", "          description: Default Response",
      "          schema:", "            $ref: \"#/definitions/" ++ Schema.defaultModel ++ "\""]
    exact Rows.cons (by decide) (Rows.cons (by decide) (Rows.cons (by decide)
      (Rows.cons (by decide) Rows.nil)))
  · obtain ⟨hcode, hmodel, hdescription⟩ := h.responses answer hanswer
    exact Response.rows_rows hcode hmodel hdescription

/-- Below the key of its method every line of an operation has at least six spaces. -/
theorem Route.operation_lines_eq {r : Route} (h : r.Plain) :
    ∃ rows, r.operation.lines = ("    " ++ r.method.name ++ ":") :: rows ∧ Rows 6 rows := by
  have hparameters : Rows 6 (if r.parameterLines.isEmpty then []
      else "      parameters:" :: r.parameterLines) := by
    split
    · exact Rows.nil
    · exact Rows.cons (by decide) ((r.rows_parameterLines h).mono (by decide))
  have hresponses : Rows 6 ("      responses:" :: r.operation.responseRows) :=
    Rows.cons (by decide) ((r.rows_responseRows h).mono (by decide))
  have hmethod : OneLine r.method.name := by cases r.method <;> decide
  have hkey : OneLine ("    " ++ r.method.name ++ ":") :=
    ((show OneLine "    " by decide).append hmethod).append (by decide)
  refine ⟨_, ?_, ((r.rows_headRows h).append (hparameters.append hresponses)).layout⟩
  rw [Operation.lines_eq]
  change layout (("    " ++ r.method.name ++ ":") :: _) = _
  rw [layout_cons hkey, trimmed_append_singleton rfl (by decide)]
  rfl

/-- The header of a path is its key, the line of its controller and the mark of the quota. -/
theorem PathHeader.lines_eq {header : PathHeader} (hpath : OneLine header.path)
    (hcontroller : OneLine header.controller) :
    header.lines = ["  " ++ header.path ++ ":",
      "    x-swagger-router-controller: " ++ quote header.controller] ++
      if header.hasQuota then quotaRows else [] := by
  have hkey : OneLine ("  " ++ header.path ++ ":") :=
    ((show OneLine "  " by decide).append hpath).append (by decide)
  have hline : OneLine ("    x-swagger-router-controller: " ++ quote header.controller) :=
    (show OneLine "    x-swagger-router-controller: " by decide).append hcontroller.quote
  have hquota : layout (if header.hasQuota then quotaRows else []) =
      if header.hasQuota then quotaRows else [] := by
    cases header.hasQuota <;> decide +kernel
  have hquoted : trimmed ("    x-swagger-router-controller: " ++ quote header.controller) =
      "    x-swagger-router-controller: " ++ quote header.controller := by
    rw [quote, ← String.append_assoc]
    exact trimmed_append_singleton rfl (by decide)
  rw [lines_eq_layout]
  change layout (_ :: _ :: if header.hasQuota then quotaRows else []) = _
  rw [layout_cons hkey, layout_cons hline, hquota, hquoted,
    trimmed_append_singleton rfl (by decide)]
  rfl

/-- The head of a document has ten lines, and the last opens its paths. -/
theorem Head.lines_eq {head : Head} (htitle : OneLine head.title) (hhost : OneLine head.host)
    (hbase : OneLine head.basePath) :
    ∃ before, head.lines = before ++ ["paths:"] ∧ before.length = 9 ∧
      ∀ line ∈ before, OneLine line := by
  have hrows : ∃ rows, head.lines = layout (rows ++ ["paths:"]) ∧ rows.length = 9 ∧
      ∀ row ∈ rows, OneLine row := by
    refine ⟨["swagger: \"2.0\"", "info:", "  version: \"0.0.1\"", "  title: " ++ quote head.title,
      "schemes:", "- http", "- https", "host: " ++ quote head.host,
      "basePath: " ++ head.basePath], head.lines_eq_layout, rfl, ?_⟩
    have htitle := (show OneLine "  title: " by decide).append htitle.quote
    have hhost := (show OneLine "host: " by decide).append hhost.quote
    have hbase := (show OneLine "basePath: " by decide).append hbase
    simp only [List.mem_cons, List.not_mem_nil, or_false, forall_eq_or_imp, forall_eq]
    exact ⟨by decide, by decide, by decide, htitle, by decide, by decide, by decide, hhost, hbase⟩
  obtain ⟨rows, heq, hlength, hrows⟩ := hrows
  have hall : ∀ row ∈ rows ++ ["paths:"], OneLine row := by
    intro row hrow
    rcases List.mem_append.mp hrow with hrow | hrow
    · exact hrows row hrow
    · rw [List.mem_singleton.mp hrow]
      decide
  refine ⟨rows.map trimmed, ?_, by rw [List.length_map, hlength], ?_⟩
  · rw [heq, layout_eq hall, List.map_append]
    have hpaths : trimmed "paths:" = "paths:" := by decide
    rw [List.map_singleton, hpaths]
  · intro line hline
    obtain ⟨row, hrow, rfl⟩ := List.mem_map.mp hline
    exact (hrows row hrow).of_subset (trimmed_subset row)

end RouteDoc
