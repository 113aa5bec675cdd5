import RouteDoc.Proofs.ModelLines

/-! Parameters that are shown twice. Where a model is made of the parameters of a route, those that
are not like objects stand in the query of its operation too. The lines of the operation are laid out,
and those of the model are not, but no line of a type has anything at its end that a layout takes
away. So both show a type by the same lines, the model with a description besides, and both say of the
same parameters that they are required. -/

namespace RouteDoc

open Text

/-! ### The reader -/

/-- The entries in the query that have a name, among the parameters of an operation. -/
def queryEntries (name : String) (lines : List String) : List (String × List String) :=
  (parameterSections lines).filter fun part =>
    (ShownParameter.ofSection? part).any fun p => p.location = "query" && p.name = name

/-- The lines of the type in an entry: those after the line that says whether it is required. -/
def entryTypeLines (part : String × List String) : List String :=
  (part.2.dropWhile fun line => (valueOf? "          required: " line).isNone).tail

/-- The lines below the key of a field without that of its description. -/
def withoutDescription (lines : List String) : List String :=
  lines.filter fun line => (valueOf? "        description: " line).isNone

/-! ### Lines that a layout keeps -/

namespace Text

/-- A text that ends with a character other than white space. -/
def IsClosed (text : String) : Prop := text ≠ "" ∧ EndsInText text

instance (text : String) : Decidable (IsClosed text) :=
  inferInstanceAs (Decidable (_ ∧ _))

theorem IsClosed.append {t : String} (h : IsClosed t) (s : String) : IsClosed (s ++ t) :=
  ⟨by simp [h.1], h.2.append h.1⟩

theorem IsToken.isClosed {text : String} (h : IsToken text) : IsClosed text :=
  ⟨h.1, h.endsInText⟩

theorem isToken_natRepr (n : Nat) : IsToken n.repr := by
  refine ⟨fun hempty => ?_, fun c hc => ?_⟩
  · have hdigits := congrArg String.toList hempty
    rw [Nat.toList_repr] at hdigits
    exact Nat.toDigits_ne_nil hdigits
  · rw [Nat.toList_repr] at hc
    have hdigit := Nat.isDigit_of_mem_toDigits (by decide) (by decide) hc
    exact isBlank_of_isWord (by simp [isWord, Char.isAlphanum, hdigit])

theorem isClosed_intRepr (n : Int) : IsClosed n.repr := by
  cases n with
  | ofNat m => exact (isToken_natRepr m).isClosed
  | negSucc m => exact (isToken_natRepr (m + 1)).isClosed.append "-"

theorem Case.lower_ne_nil (c : Char) : lower c ≠ [] := by
  unfold lower
  split
  · simp
  · split <;> simp

theorem isToken_lowercase {name : String} (h : IsName name) : IsToken (Case.lowercase name) := by
  refine ⟨ofList_ne_empty ?_, fun c hc => ?_⟩
  · obtain ⟨c, cs, hcs⟩ := List.exists_cons_of_ne_nil (l := name.toList) (by simpa using h.2)
    have hsigma : c ≠ 'Σ' := ne_of_isWord (h.1 c (by simp [hcs])) (by decide)
    simp [hcs, Case.lowerAfter, hsigma, Case.lower_ne_nil]
  · have hword := Case.isWord_of_mem_lowerAfter h.1 [] c (by simpa [Case.lowercase] using hc)
    exact isBlank_of_isWord hword

end Text

namespace Schema

/-- Closed lines stay as they are under any indentation. -/
theorem layout_indent {n : Nat} {lines : List String} (h : ∀ line ∈ lines, OneLine line)
    (hclosed : ∀ line ∈ lines, IsClosed line) : layout (indent n lines) = indent n lines := by
  rw [layout_eq fun line hline => (indent_rows h line hline).1]
  refine (List.map_congr_left fun line hline => ?_).trans (List.map_id _)
  obtain ⟨text, htext, rfl⟩ := List.mem_map.mp hline
  exact ((hclosed text htext).append (spaces n)).2.trimmed

theorem isClosed_reference (name : String) : IsClosed (reference name) :=
  (show IsClosed "\"" by decide).append _

theorem isClosed_itemLines {kind : Kind} (h : kind.IsItem) : ∀ line ∈ kindLines kind, IsClosed line := by
  intro line hline
  cases kind with
  | any => exact List.mem_singleton.mp hline ▸ (by decide)
  | scalar name =>
    rw [List.mem_singleton.mp hline]
    exact (isToken_lowercase ⟨h.1, h.2.1⟩).isClosed.append _
  | reference name => exact List.mem_singleton.mp hline ▸ isClosed_reference name
  | array items => exact h.elim

theorem isClosed_kindLines {kind : Kind} (h : kind.WellFormed) :
    ∀ line ∈ kindLines kind, IsClosed line := by
  rcases h.item_or_array with hitem | ⟨items, rfl, hitem⟩
  · exact isClosed_itemLines hitem
  · intro line hline
    rcases List.mem_append.mp hline with hline | hline
    · have hfixed : ∀ line ∈ ["type: array", "items:"], IsClosed line := by decide
      exact hfixed line hline
    · obtain ⟨text, htext, rfl⟩ := List.mem_map.mp hline
      exact (isClosed_itemLines hitem text htext).append _

theorem isClosed_choiceLines (choices : List String) : ∀ line ∈ choiceLines choices, IsClosed line := by
  intro line hline
  unfold choiceLines at hline
  split at hline
  · cases hline
  · rw [List.mem_singleton.mp hline, jsonArray]
    exact ((show IsClosed "]" by decide).append _).append _

theorem isClosed_boundLines (bounds : Option Bounds) : ∀ line ∈ boundLines bounds, IsClosed line := by
  intro line hline
  obtain ⟨key, -, bound, rfl⟩ := exists_of_mem_boundLines hline
  exact (isClosed_intRepr bound).append _

/-- A type with a description has its lines without one, and then that of the description. -/
theorem typeLines_eq_append {t : FieldType} (h : t.kind.isConstrained = true) (description : String) :
    typeLines t description = typeLines t "" ++ descriptionLines description := by
  have hnone : descriptionLines "" = [] := rfl
  simp only [typeLines_of_isConstrained h, hnone, List.append_nil, List.append_assoc]

theorem layout_typeLines {t : FieldType} (h : t.WellFormed) (hkind : t.kind.isConstrained = true)
    (n : Nat) : layout (indent n (typeLines t "")) = indent n (typeLines t "") := by
  refine layout_indent (oneLine_typeLines h.kind.wordy (by decide)) fun line hline => ?_
  simp only [typeLines_of_isConstrained hkind, List.mem_append] at hline
  rcases hline with hline | hline | hline | hline
  · exact isClosed_kindLines h.kind line hline
  · exact isClosed_choiceLines t.choices line hline
  · exact isClosed_boundLines t.bounds line hline
  · cases hline

/-- No line of a type alone is taken for that of a description. -/
theorem withoutDescription_plainLines {t : FieldType} (h : t.kind.isConstrained = true) :
    withoutDescription (indent 8 (typeLines t "")) = indent 8 (typeLines t "") := by
  have hkey : "        description: ".toList = (spaces 8).toList ++ "description: ".toList := by
    decide
  have hstarts : StartIn (kindStarts ++ (["enum: "] ++ (boundStarts ++ []))) (typeLines t "") := by
    rw [typeLines_of_isConstrained h]
    exact (startIn_kindLines _).append ((startIn_choiceLines _).append
      ((startIn_boundLines _).append StartIn.nil))
  refine List.filter_eq_self.mpr fun line hline => ?_
  obtain ⟨text, htext, rfl⟩ := List.mem_map.mp hline
  rw [Option.isNone_iff_eq_none]
  refine valueOf?_eq_none ?_
  rw [hkey, String.toList_append, List.prefix_append_right_inj]
  exact hstarts.not_starts (by decide) text htext

theorem withoutDescription_descriptionLines (description : String) :
    withoutDescription (indent 8 (descriptionLines description)) = [] := by
  have hstart : spaces 8 ++ "description: '" = "        description: " ++ "'" := by decide
  refine List.filter_eq_nil_iff.mpr fun line hline => ?_
  obtain ⟨text, htext, rfl⟩ := List.mem_map.mp hline
  unfold descriptionLines at htext
  split at htext
  · cases htext
  · rw [List.mem_singleton.mp htext, String.append_assoc, ← String.append_assoc, hstart,
      String.append_assoc, valueOf?_append]
    simp

/-- Without the line of the description the lines are those of the type alone. -/
theorem withoutDescription_typeLines {t : FieldType} (h : t.kind.isConstrained = true)
    (description : String) :
    withoutDescription (indent 8 (typeLines t description)) = indent 8 (typeLines t "") := by
  have hkeep := withoutDescription_plainLines h
  have hdrop := withoutDescription_descriptionLines description
  rw [typeLines_eq_append h, indent, List.map_append, withoutDescription, List.filter_append]
  exact (congrArg₂ (· ++ ·) hkeep hdrop).trans (List.append_nil _)

end Schema

theorem Kind.isConstrained_of_not_isObjectLike {kind : Kind} (h : kind.isObjectLike = false) :
    kind.isConstrained = true := by
  cases kind with
  | any | reference name => cases h
  | scalar name | array items => rfl

/-! ### Selected entries -/

/-- What is read from entries can be selected before it is read. -/
theorem mapM_filter {α β : Type} {f : α → Option β} (p : β → Bool) {xs : List α} {ys : List β}
    (h : xs.mapM f = some ys) : (xs.filter fun x => (f x).any p).mapM f = some (ys.filter p) := by
  induction xs generalizing ys with
  | nil =>
    obtain rfl : [] = ys := Option.some.inj h
    rfl
  | cons x xs ih =>
    obtain ⟨y, ys, hy, hys, rfl⟩ := exists_of_mapM_cons h
    have ih := ih hys
    cases hp : p y with
    | true => simp [hy, hp, ih]
    | false => simp [hy, hp, ih]

theorem exists_of_mapM_eq_singleton {α β : Type} {f : α → Option β} {xs : List α} {y : β}
    (h : xs.mapM f = some [y]) : ∃ x, xs = [x] ∧ f x = some y := by
  cases xs with
  | nil => cases h
  | cons x xs =>
    obtain ⟨z, zs, hx, hxs, heq⟩ := exists_of_mapM_cons h
    obtain ⟨rfl, rfl⟩ := List.cons.inj heq
    cases xs with
    | nil => exact ⟨x, rfl, hx⟩
    | cons x' xs =>
      obtain ⟨z', zs', -, -, hnil⟩ := exists_of_mapM_cons hxs
      cases hnil

namespace ReadsAs

variable {key : String} {rows before after : List String} {p : ShownParameter}
  {shown shown' : List ShownParameter}

theorem of_singleton (h : ReadsAs (key :: rows) [p]) : isAt 8 key = true ∧
    (∀ line ∈ rows, isAt 8 line = false) ∧ ShownParameter.ofSection? (key, rows) = some p := by
  obtain ⟨parts, hlines, hparts, hread⟩ := h
  obtain ⟨part, rfl, hpart⟩ := exists_of_mapM_eq_singleton hread
  rw [List.flatMap_singleton] at hlines
  obtain ⟨rfl, rfl⟩ := List.cons.inj hlines
  obtain ⟨hkey, hrows⟩ := hparts part (List.mem_singleton.mpr rfl)
  exact ⟨hkey, hrows, hpart⟩

/-- An entry that stands between others is a section. -/
theorem mem_sections (hbefore : ReadsAs before shown) (h : ReadsAs (key :: rows) [p])
    (hafter : ReadsAs after shown') : (key, rows) ∈ sections 8 (before ++ (key :: rows ++ after)) := by
  obtain ⟨hkey, hrows, -⟩ := h.of_singleton
  obtain ⟨parts, rfl, hparts, -⟩ := hbefore
  obtain ⟨parts', rfl, hparts', -⟩ := hafter
  have hall : ∀ part ∈ parts ++ (key, rows) :: parts',
      isAt 8 part.1 = true ∧ ∀ line ∈ part.2, isAt 8 line = false := by
    intro part hpart
    rcases List.mem_append.mp hpart with hpart | hpart
    · exact hparts part hpart
    · rcases List.mem_cons.mp hpart with rfl | hpart
      · exact ⟨hkey, hrows⟩
      · exact hparts' part hpart
  have hsections := sections_flatMap hall
  rw [List.flatMap_append, List.flatMap_cons] at hsections
  rw [hsections]
  exact List.mem_append_right _ List.mem_cons_self

end ReadsAs

/-! ### The entry of a parameter -/

/-- What a reader finds in the entry of a parameter outside the body. -/
def ParameterEntry.shown (p : ParameterEntry) : ShownParameter :=
  ⟨p.location, p.name, readBool? p.required, none⟩

namespace Route

variable {r : Route}

/-- What a route shows in the query under the name of a parameter. -/
theorem Sourced.filter_shownParameters (h : r.Sourced) {e : String × Field}
    (he : e ∈ r.otherParams.entries) (hplain : e.2.type.isObjectLike = false) :
    (r.shownParameters.filter fun p => p.location = "query" && p.name = e.1) =
      [⟨"query", e.1, some !e.2.isOptional, none⟩] := by
  let query : Fields := r.otherParams.filter fun _ f => !f.type.isObjectLike
  have hmem : e ∈ query.entries := List.mem_filter.mpr ⟨he, by simp [hplain]⟩
  have hparams : r.params.entries ≠ [] := List.ne_nil_of_mem (List.mem_filter.mp he).1
  -- what is shown in another place has no part in it
  have hnone : ∀ ps : List ShownParameter, (∀ p ∈ ps, p.location ≠ "query") →
      (ps.filter fun p => p.location = "query" && p.name = e.1) = [] := fun ps hps =>
    List.filter_eq_nil_iff.mpr fun p hp => by simp [hps p hp]
  have hheader := hnone ((r.params.entries.filter fun e => e.2.isHeader).map
    fun e => ⟨"header", e.1, some !e.2.isOptional, none⟩) fun p hp => by
      obtain ⟨e, -, rfl⟩ := List.mem_map.mp hp
      exact show "header" ≠ "query" by decide
  have hpath := hnone ((r.params.entries.filter fun e =>
    !e.2.isHeader && e.1 ∈ Path.parameterNames r.path).map
    fun e => ⟨"path", e.1, some true, none⟩) fun p hp => by
      obtain ⟨e, -, rfl⟩ := List.mem_map.mp hp
      exact show "path" ≠ "query" by decide
  have hbodies := hnone r.shownBodies fun p hp => by
    rw [location_of_mem_shownBodies hp]
    decide
  have hquery := congrArg (List.map fun e : String × Field =>
    (⟨"query", e.1, some !e.2.isOptional, none⟩ : ShownParameter)) (query.filter_key hmem)
  simp only [shownParameters, if_neg hparams, List.filter_append, hheader, hpath, hbodies,
    List.nil_append, List.append_nil]
  rw [← h.queryParams, List.filter_map]
  exact hquery

theorem Sourced.readsAs_of_mem_plainEntries (h : r.Sourced) {p : ParameterEntry}
    (hp : p ∈ r.plainEntries) : ReadsAs p.lines [p.shown] := by
  have hentry : ∀ location, IsName location → ∀ e ∈ r.params.entries, ∀ required,
      ReadsAs (parameterEntry location e.1 e.2 required).lines
        [(parameterEntry location e.1 e.2 required).shown] := by
    intro location hlocation e he required
    have hread := h.readsAs_plainEntry hlocation he required
    rwa [← readBool?_boolText required] at hread
  simp only [plainEntries, List.mem_append] at hp
  rcases hp with (hp | hp) | hp
  · obtain ⟨e, he, rfl⟩ := List.mem_map.mp hp
    exact hentry "header" (by decide) e (List.mem_filter.mp he).1 _
  · obtain ⟨e, he, rfl⟩ := List.mem_map.mp hp
    exact hentry "path" (by decide) e (List.mem_filter.mp he).1 _
  · obtain ⟨e, he, rfl⟩ := List.mem_map.mp hp
    exact hentry "query" (by decide) e (List.mem_filter.mp (List.mem_filter.mp he).1).1 _

/-- The section of a parameter in the query. -/
def queryPart (e : String × Field) : String × List String :=
  ("        - in: query", [
    "          name: " ++ e.1,
    "          description: '" ++ escape e.2.description ++ "'",
    "          required: " ++ boolText !e.2.isOptional] ++
    Schema.indent 10 (Schema.typeLines e.2.type ""))

theorem lines_queryPart {e : String × Field} (hname : IsToken e.1) (hfield : e.2.Plain)
    (htype : e.2.type.WellFormed) (hkind : e.2.type.kind.isConstrained = true) :
    (parameterEntry "query" e.1 e.2 !e.2.isOptional).lines = (queryPart e).1 :: (queryPart e).2 := by
  have hlayout : layout (parameterEntry "query" e.1 e.2 !e.2.isOptional).typeLines =
      Schema.indent 10 (Schema.typeLines e.2.type "") := by
    have hany : e.2.type.kind ≠ .any := fun h => by simp [h, Kind.isConstrained] at hkind
    change layout (if _ then _ else _) = _
    rw [if_neg hany, Schema.layout_typeLines htype hkind]
  rw [parameterEntry_lines (isToken_of_isName (by decide)) hname hfield, hlayout]
  rfl

namespace Sourced

variable {e : String × Field}

/-- The entry of a parameter stands among those of the operation, and is read as that of the
parameter. -/
theorem queryPart_mem (h : r.Sourced) (he : e ∈ r.otherParams.entries)
    (hplain : e.2.type.isObjectLike = false) (htype : e.2.type.WellFormed) :
    queryPart e ∈ parameterSections r.operation.lines ∧
    ShownParameter.ofSection? (queryPart e) = some ⟨"query", e.1, some !e.2.isOptional, none⟩ := by
  have hmem : e ∈ r.params.entries := (List.mem_filter.mp he).1
  have hentry : parameterEntry "query" e.1 e.2 (!e.2.isOptional) ∈ r.plainEntries :=
    List.mem_append_right _ (List.mem_map_of_mem (List.mem_filter.mpr ⟨he, by simp [hplain]⟩))
  have hlines := lines_queryPart (h.params e hmem) (h.plain.params e hmem).2 htype
    (Kind.isConstrained_of_not_isObjectLike hplain)
  have hquery : IsName "query" := by decide
  have hread := h.readsAs_plainEntry hquery hmem (!e.2.isOptional)
  rw [hlines] at hread
  refine ⟨?_, hread.of_singleton.2.2⟩
  obtain ⟨before, after, hsplit⟩ := List.append_of_mem hentry
  have hbefore : ReadsAs (before.flatMap ParameterEntry.lines) (before.map ParameterEntry.shown) :=
    ReadsAs.flatMap fun p hp => h.readsAs_of_mem_plainEntries (by simp [hsplit, hp])
  have hafter : ReadsAs (after.flatMap ParameterEntry.lines) (after.map ParameterEntry.shown) :=
    ReadsAs.flatMap fun p hp => h.readsAs_of_mem_plainEntries (by simp [hsplit, hp])
  have hne : r.params.isEmpty ≠ true := by
    simpa [Table.isEmpty] using List.ne_nil_of_mem hmem
  rw [h.parameterSections_operation, parameterLines, if_neg hne, hsplit, List.flatMap_append,
    List.flatMap_cons, hlines, List.append_assoc, List.append_assoc]
  exact hbefore.mem_sections hread (hafter.append h.readsAs_bodyEntries)

/-- No other entry in the query has the name of the parameter. -/
theorem queryEntries_operation (h : r.Sourced) (he : e ∈ r.otherParams.entries)
    (hplain : e.2.type.isObjectLike = false) (htype : e.2.type.WellFormed) :
    queryEntries e.1 r.operation.lines = [queryPart e] := by
  obtain ⟨hmem, hread⟩ := h.queryPart_mem he hplain htype
  have hsections := h.readsAs_parameterLines.mapM_sections
  rw [← h.parameterSections_operation] at hsections
  have hselected := mapM_filter (fun p => p.location = "query" && p.name = e.1) hsections
  rw [h.filter_shownParameters he hplain] at hselected
  obtain ⟨part, hentries, -⟩ := exists_of_mapM_eq_singleton hselected
  have hpart : queryPart e ∈ queryEntries e.1 r.operation.lines :=
    List.mem_filter.mpr ⟨hmem, by simp [hread]⟩
  have hsingle : queryEntries e.1 r.operation.lines = [part] := hentries
  rw [hsingle, List.mem_singleton] at hpart
  rw [hsingle, hpart]

end Sourced

end Route

theorem entryTypeLines_queryPart (e : String × Field) :
    entryTypeLines (Route.queryPart e) = Schema.indent 10 (Schema.typeLines e.2.type "") := by
  have hname : valueOf? "          required: " ("          name: " ++ e.1) = none :=
    valueOf?_append_eq_none (by decide) (by decide) _
  have hdescription : valueOf? "          required: "
      ("          description: '" ++ escape e.2.description ++ "'") = none := by
    rw [String.append_assoc]
    exact valueOf?_append_eq_none (by decide) (by decide) _
  simp [entryTypeLines, Route.queryPart, hname, hdescription, valueOf?_append]

/-! ### The declarations of parameters -/

/-- The name of a declared field can be the key of a line. -/
theorem Field.isKey_of_ofLine? {line name : String} {field : Field}
    (h : (Field.ofLine? line).result = .ok (some (name, field))) : IsKey name := by
  obtain ⟨hne, hblank⟩ := Field.name_of_ofLine? h
  obtain ⟨pieces, hpieces, -, -, rfl, -⟩ := Field.ofLine?_eq_some h
  refine ⟨⟨by simpa using hne, hblank⟩, fun hmem => ?_⟩
  rcases (FieldLine.ofLine?_eq_some hpieces).1 ':' (by simpa using hmem) with hc | hc | hc
  all_goals exact absurd hc (by decide)

theorem Field.wellFormed_of_ofLine? {line name : String} {field : Field}
    (h : (Field.ofLine? line).result = .ok (some (name, field))) : field.type.WellFormed := by
  obtain ⟨pieces, -, -, htype, -⟩ := Field.ofLine?_eq_some h
  exact FieldType.wellFormed_of_parse htype

/-! ### The law -/

/-- A parameter that is shown twice is described in the same way, for all sources that can be collected
and resolved, every route of them with a model that is made of its parameters, and every parameter in
that model that is not like an object. The operation has one entry in the query with the name of the
parameter, and the model one field with it. The lines of the type in the entry are those that the type
has without a description, and those of the field are the same but for its description, each at its own
indentation. The entry says that the parameter is required if and only if the model does. -/
theorem Api.parameter_shown_twice {sources : List Source} {catalog : Catalog} {api : Api}
    (hcatalog : (Catalog.collect sources).result = .ok catalog)
    (hapi : (Api.ofCatalog catalog).result = .ok api) {r : Route} (hr : r ∈ api.routes.values)
    {model : String} (hmodel : r.implicitModel = some model) {e : String × Field}
    (he : e ∈ r.otherParams.entries) (hplain : e.2.type.isObjectLike = false) :
    ∃ entry shown property lines required,
      queryEntries e.1 r.operation.lines = [entry] ∧
      readModels (Schema.modelLines model r.otherParams) = [shown] ∧
      (shown.properties.getD []).filter (·.1 = e.1) = [property] ∧
      entryTypeLines entry = Schema.indent 10 lines ∧
      withoutDescription property.2 = Schema.indent 8 lines ∧
      lines = Schema.typeLines e.2.type "" ∧
      ShownParameter.ofSection? entry = some ⟨"query", e.1, some required, none⟩ ∧
      (required = true ↔ e.1 ∈ shown.required.getD []) := by
  have hsourced := Api.sourced_of_mem hcatalog hapi hr
  have hdeclared : ∀ f ∈ r.otherParams.entries,
      ∃ line, (Field.ofLine? line).result = .ok (some f) := fun f hf =>
    Api.exists_line_of_param hcatalog hapi hr (List.mem_filter.mp hf).1
  obtain ⟨line, hline⟩ := hdeclared e he
  have htype := Field.wellFormed_of_ofLine? hline
  have hkind := Kind.isConstrained_of_not_isObjectLike hplain
  have hread := readModels_modelLines (m := (model, r.otherParams))
    (isKey_of_isName (hsourced.implicitModel model hmodel)) fun f hf => by
      obtain ⟨line, hline⟩ := hdeclared f hf
      exact Field.isKey_of_ofLine? hline
  have hproperty := (r.otherParams.mapValues fun f =>
    Schema.indent 8 (Schema.typeLines f.type f.description)).filter_key
      (e := (e.1, Schema.indent 8 (Schema.typeLines e.2.type e.2.description)))
      (List.mem_map_of_mem he)
  refine ⟨_, _, (e.1, Schema.indent 8 (Schema.typeLines e.2.type e.2.description)), _, _,
    hsourced.queryEntries_operation he hplain htype, hread, ?_, entryTypeLines_queryPart e,
    Schema.withoutDescription_typeLines hkind e.2.description, rfl,
    (hsourced.queryPart_mem he hplain htype).2, ?_⟩
  · rw [properties_ofModel]
    exact hproperty
  · rw [required_ofModel, mem_requiredNames_iff he, Bool.not_eq_true']

/-- A text with choices and a description, which is optional, and a number that is not. -/
theorem Api.parameter_shown_twice_choices :
    let sources : List Source := [⟨"s", "/**\n@api {put} /a Save\n@apiName save\n" ++
      "@apiParam \x7bString=S,L\x7d [size] The size\n@apiParam {Number} id\n*/"⟩]
    let size : Field := {
      type := { kind := .scalar "String", choices := ["S", "L"] }, isOptional := true
      description := "The size", isHeader := false }
    ∃ catalog api, (Catalog.collect sources).result = .ok catalog ∧
      (Api.ofCatalog catalog).result = .ok api ∧ ∃ r ∈ api.routes.values,
      r.implicitModel = some "Save" ∧ ("size", size) ∈ r.otherParams.entries ∧
      ∃ entry shown property required,
        queryEntries "size" r.operation.lines = [entry] ∧
        readModels (Schema.modelLines "Save" r.otherParams) = [shown] ∧
        (shown.properties.getD []).filter (·.1 = "size") = [property] ∧
        entryTypeLines entry = Schema.indent 10 ["type: string", "enum: [\"S\",\"L\"]"] ∧
        withoutDescription property.2 = Schema.indent 8 ["type: string", "enum: [\"S\",\"L\"]"] ∧
        ShownParameter.ofSection? entry = some ⟨"query", "size", some required, none⟩ ∧
        (required = true ↔ "size" ∈ shown.required.getD []) := by
  intro sources size
  have hcollected : (Catalog.collect sources).result.toOption.bind (fun catalog =>
      (Api.ofCatalog catalog).result.toOption.map fun api => api.routes.values.map fun r =>
        decide (r.implicitModel = some "Save" ∧
          r.otherParams.entries.head? = some ("size", size))) = some [true] := by
    decide +kernel
  obtain ⟨catalog, hcatalog, hresolved⟩ := Option.bind_eq_some_iff.mp hcollected
  obtain ⟨api, hapi, hroutes⟩ := Option.map_eq_some_iff.mp hresolved
  obtain ⟨r, rest, hvalues, hshown, -⟩ := List.map_eq_cons_iff.mp hroutes
  obtain ⟨hmodel, hfirst⟩ := of_decide_eq_true hshown
  have hcatalog := except_eq_ok_of_toOption hcatalog
  have hapi := except_eq_ok_of_toOption hapi
  have hr : r ∈ api.routes.values := by simp [hvalues]
  have hmem := List.mem_of_head? hfirst
  obtain ⟨entry, shown, property, lines, required, hentry, hmodels, hproperty, hquery, hfield, hlines,
      hread, hrequired⟩ := Api.parameter_shown_twice hcatalog hapi hr hmodel hmem
    (show size.type.isObjectLike = false by decide)
  have htype : Schema.typeLines size.type "" = ["type: string", "enum: [\"S\",\"L\"]"] := by
    decide +kernel
  rw [hlines, htype] at hquery hfield
  exact ⟨catalog, api, hcatalog, hapi, r, hr, hmodel, hmem, entry, shown, property, required, hentry,
    hmodels, hproperty, hquery, hfield, hread, hrequired⟩

end RouteDoc
