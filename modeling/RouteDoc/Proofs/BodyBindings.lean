import RouteDoc.Proofs.BodyModels
import RouteDoc.Proofs.RouteBlock
import RouteDoc.Proofs.Skeleton

/-! The bodies that routes declare. A route whose method has a body and which has parameters shows its
bodies at the end of its parameters, in the order of their declaration. A route without parameters
has no such part in the document, so its bodies are not shown. -/

namespace RouteDoc

open Text

/-- The lines of a declared body among the parameters of its route. -/
def BodyBinding.lines (b : BodyBinding) : List String :=
  [ "        - in: body",
    "          name: " ++ b.name,
    "          schema:",
    "            $ref: \"#/definitions/" ++ b.model ++ "\"" ]

/-! ### Layouts -/

namespace Text

theorem layout_append (rows rows' : List String) :
    layout (rows ++ rows') = layout rows ++ layout rows' :=
  List.flatMap_append

/-- A text that is not empty and has no white space. -/
def IsToken (text : String) : Prop := text ≠ "" ∧ ∀ c ∈ text.toList, isBlank c = false

theorem IsToken.oneLine {text : String} (h : IsToken text) : OneLine text :=
  fun hc => absurd (h.2 _ hc) (by decide)

theorem isToken_of_isName {word : String} (h : IsName word) : IsToken word :=
  ⟨h.2, fun c hc => isBlank_of_isWord (h.1 c hc)⟩

/-- The text is empty or ends with a character other than white space. -/
def EndsInText (text : String) : Prop := ∀ c ∈ text.toList.getLast?, isBlank c = false

instance (text : String) : Decidable (EndsInText text) :=
  decidable_of_iff (text.toList.getLast?.all (!isBlank ·) = true)
    (by simp [EndsInText, Option.all_eq_true])

theorem EndsInText.trimmed {text : String} (h : EndsInText text) : trimmed text = text := by
  rw [Text.trimmed, trimEnd_of_getLast? h, String.ofList_toList]

theorem EndsInText.append {s t : String} (h : EndsInText t) (hne : t ≠ "") :
    EndsInText (s ++ t) := by
  intro c hc
  have hne' : t.toList ≠ [] := by simpa using hne
  rw [String.toList_append, List.getLast?_append, List.getLast?_eq_some_getLast hne',
    Option.some_or] at hc
  exact h c (by rwa [List.getLast?_eq_some_getLast hne'])

theorem IsToken.endsInText {text : String} (h : IsToken text) : EndsInText text :=
  fun c hc => h.2 c (List.mem_of_getLast? hc)

/-- A row that ends with a token stays as it is. -/
theorem trimmed_append {text : String} (h : IsToken text) (s : String) :
    trimmed (s ++ text) = s ++ text :=
  (h.endsInText.append h.1).trimmed

theorem trimmed_trimmed (row : String) : trimmed (trimmed row) = trimmed row := by
  have hlast : ∀ c, (trimEnd row.toList).getLast? = some c → isBlank c = false :=
    fun _ hc => getLast?_dropEndWhile hc
  rw [trimmed, trimmed, String.toList_ofList, trimEnd_of_getLast? hlast]

/-- Lines that have been laid out are laid out as they are. -/
theorem layout_layout (rows : List String) : layout (layout rows) = layout rows := by
  -- the first layout leaves neither line feeds nor white space at the end of a line
  have hlines : ∀ line ∈ layout rows, OneLine line ∧ trimmed line = line := by
    intro line hline
    obtain ⟨row, -, hrow⟩ := List.mem_flatMap.mp hline
    obtain ⟨piece, hpiece, rfl⟩ := List.mem_map.mp hrow
    have honeLine : OneLine (String.ofList piece) := by
      rw [OneLine, String.toList_ofList]
      exact fun hc => (mem_of_mem_splitOn hpiece _ hc).2 rfl
    have htrimmed : String.ofList (trimEnd piece) = trimmed (String.ofList piece) := by
      rw [trimmed, String.toList_ofList]
    rw [htrimmed]
    exact ⟨honeLine.of_subset (trimmed_subset _), trimmed_trimmed _⟩
  rw [layout_eq fun line hline => (hlines line hline).1]
  exact (List.map_congr_left fun line hline => (hlines line hline).2).trans (List.map_id _)

theorem layout_flatMap_layout {α : Type} (xs : List α) (rows : α → List String) :
    layout (xs.flatMap fun x => layout (rows x)) = xs.flatMap fun x => layout (rows x) := by
  have hflat : (xs.flatMap fun x => layout (rows x)) = layout (xs.flatMap rows) := by
    rw [layout, List.flatMap_assoc]
    rfl
  rw [hflat, layout_layout]

end Text

/-! ### Bindings -/

theorem BodyBinding.isName_of_scan {line : String} {b : BodyBinding}
    (h : Tag.body.scan BodyBinding.read? line = some b) : IsName b.name ∧ IsName b.model := by
  obtain ⟨cs, -, hread⟩ := Tag.scan_eq_some h
  obtain ⟨⟨name, model, rest⟩, hbinding, rfl⟩ := Option.map_eq_some_iff.mp hread
  obtain ⟨hname, hmodel, -⟩ := readBinding?_eq_some hbinding
  exact ⟨hname, hmodel⟩

theorem Draft.isName_of_ofBlock? {block : Block} {d : Draft}
    (h : (Draft.ofBlock? block).result = .ok (some d)) :
    ∀ b ∈ d.body, IsName b.name ∧ IsName b.model := by
  obtain ⟨header, params, -, -, rfl⟩ := exists_of_ofBlock? h
  intro b hb
  obtain ⟨line, -, hscan⟩ := List.mem_filterMap.mp hb
  exact BodyBinding.isName_of_scan hscan

theorem BodyBinding.lines_eq {b : BodyBinding} (hname : IsName b.name) (hmodel : IsName b.model) :
    BodyEntry.lines { name := b.name, model := b.model } = b.lines := by
  have hnameRow : OneLine ("          name: " ++ b.name) :=
    (show OneLine "          name: " by decide).append hname.1.oneLine
  have hmodelRow : OneLine ("            $ref: \"#/definitions/" ++ b.model ++ "\"") :=
    ((show OneLine "            $ref: \"#/definitions/" by decide).append
      hmodel.1.oneLine).append (by decide)
  rw [BodyEntry.lines_eq_layout, BodyEntry.rows, layout_cons (by decide), layout_cons hnameRow, layout_cons (by decide),
    layout_cons hmodelRow, trimmed_append (isToken_of_isName hname),
    trimmed_append_singleton rfl (by decide)]
  rfl

/-! ### The bindings of a route -/

theorem Api.isName_of_mem_body {c : Catalog} {api : Api} (h : (Api.ofCatalog c).result = .ok api)
    {r : Route} (hr : r ∈ api.routes.values) : ∀ b ∈ r.body, IsName b.name ∧ IsName b.model := by
  obtain ⟨block, -, d, hdraft, rfl⟩ := Api.exists_draft_of_mem h hr
  exact Draft.isName_of_ofBlock? hdraft

/-! ### The parts of an operation -/

namespace Route

variable {r : Route}

/-- The lines that a route with parameters has in their place, if it declares bodies. -/
theorem parameterLines_of_body (hmethod : r.method.hasBody = true) (hparams : r.params.entries ≠ [])
    (hbody : r.body ≠ []) (hnames : ∀ b ∈ r.body, IsName b.name ∧ IsName b.model) :
    r.parameterLines =
      r.plainEntries.flatMap ParameterEntry.lines ++ r.body.flatMap BodyBinding.lines := by
  have hsome : r.params.isEmpty = false := by simpa [Table.isEmpty] using hparams
  have hdeclared : r.body.isEmpty = false := by simpa using hbody
  have hlines : ∀ b ∈ r.body, BodyEntry.lines { name := b.name, model := b.model } = b.lines :=
    fun b hb => BodyBinding.lines_eq (hnames b hb).1 (hnames b hb).2
  rw [parameterLines, if_neg (by simp [hsome]), bodyEntries, if_pos hmethod,
    if_neg (by simp [hdeclared]), List.flatMap_map]
  rw [List.flatMap_def, List.flatMap_def, List.map_congr_left hlines, ← List.flatMap_def]
  rfl

theorem parameterLines_ne_nil (hmethod : r.method.hasBody = true)
    (hparams : r.params.entries ≠ []) (hbody : r.body ≠ [])
    (hnames : ∀ b ∈ r.body, IsName b.name ∧ IsName b.model) : r.parameterLines ≠ [] := by
  rw [parameterLines_of_body hmethod hparams hbody hnames]
  obtain ⟨b, bs, hbs⟩ := List.exists_cons_of_ne_nil hbody
  simp [hbs, BodyBinding.lines]

theorem layout_parameterLines (r : Route) : layout r.parameterLines = r.parameterLines := by
  unfold parameterLines
  split
  · rfl
  · rw [layout_append]
    exact congr (congrArg _ (layout_flatMap_layout _ _)) (layout_flatMap_layout _ _)

/-- The lines of an operation: its method, the rows before the parameters, the parameters if it has
any, and the responses. -/
theorem operation_lines (r : Route) :
    r.operation.lines = methodLine r.method :: (layout r.operation.headRows ++
      ((if r.parameterLines.isEmpty then [] else "      parameters:" :: r.parameterLines) ++
        "      responses:" :: layout r.operation.responseRows)) := by
  have hparameters : layout (if r.parameterLines.isEmpty then []
      else "      parameters:" :: r.parameterLines) =
      if r.parameterLines.isEmpty then [] else "      parameters:" :: r.parameterLines := by
    split
    · rfl
    · rw [layout_cons (by decide), layout_parameterLines]
      rfl
  rw [Operation.lines_eq]
  change layout (methodLine r.method :: (_ ++ ((if r.parameterLines.isEmpty then []
    else "      parameters:" :: r.parameterLines) ++ _))) = _
  rw [layout_cons (oneLine_methodLine _), trimmed_methodLine, layout_append, layout_append, hparameters,
    layout_cons (by decide)]
  rfl

/-- The lines of an operation with parameters. -/
theorem exists_operation_lines (h : r.parameterLines ≠ []) :
    ∃ before after, r.operation.lines = methodLine r.method ::
      (before ++ "      parameters:" :: (r.parameterLines ++ "      responses:" :: after)) := by
  refine ⟨layout r.operation.headRows, layout r.operation.responseRows, ?_⟩
  rw [operation_lines, if_neg (by simpa using h)]
  rfl

end Route

/-! ### The place of an operation -/

namespace Paths

theorem operation_infix_fragmentLines (hasQuota : Bool) {routes : List Route} {r : Route}
    (h : r ∈ routes) : r.operation.lines <:+: fragmentLines hasQuota routes := by
  cases routes with
  | nil => cases h
  | cons first rest =>
    have hoperations : r.operation.lines <:+: (first :: rest).flatMap (·.operation.lines) :=
      List.infix_of_mem_flatten (List.mem_map_of_mem h)
    exact hoperations.trans (List.suffix_append _ _).isInfix

/-- The lines of an operation stand together in the paths of its routes. -/
theorem operation_infix_lines (hasQuota : Bool) {routes : List Route} {r : Route} (h : r ∈ routes) :
    r.operation.lines <:+: (ofRoutes hasQuota routes).lines := by
  rw [lines_ofRoutes]
  have hfragment : fragmentLines hasQuota (routesAt r.path routes) <:+:
      (pathsOf routes).flatMap fun path => fragmentLines hasQuota (routesAt path routes) :=
    List.infix_of_mem_flatten (List.mem_map_of_mem (mem_pathsOf.mpr ⟨r, h, rfl⟩))
  exact (operation_infix_fragmentLines hasQuota (mem_routesAt.mpr ⟨h, rfl⟩)).trans hfragment

end Paths

/-- A route that has parameters shows all its declared bodies, for every catalog that can be
resolved and every method that has a body: below `parameters` come the parameters outside the body,
and then the bodies in the order of their declaration, up to `responses`. Adding the route to paths
puts its operation at the end of its path, and the document has the operation in one piece. -/
theorem Api.body_bindings_rendered {c : Catalog} {api : Api}
    (h : (Api.ofCatalog c).result = .ok api) {r : Route} (hr : r ∈ api.routes.values)
    (hmethod : r.method = .post ∨ r.method = .put ∨ r.method = .patch)
    (hparams : r.params.entries ≠ []) (hbody : r.body ≠ []) :
    (∃ before after, r.operation.lines = methodLine r.method ::
      (before ++ "      parameters:" :: (r.plainEntries.flatMap ParameterEntry.lines ++
        r.body.flatMap BodyBinding.lines ++ "      responses:" :: after))) ∧
    (∀ p : Paths, ∃ before,
      (p.add r).fragments.find? r.path = some (before ++ r.operation.lines)) ∧
    ∀ hasQuota, r.operation.lines <:+: (api.paths hasQuota).lines := by
  have hnames := Api.isName_of_mem_body h hr
  have hhas := Method.hasBody_iff.mpr hmethod
  refine ⟨?_, fun p => ?_, fun hasQuota => Paths.operation_infix_lines hasQuota hr⟩
  · rw [← Route.parameterLines_of_body hhas hparams hbody hnames]
    exact Route.exists_operation_lines (Route.parameterLines_ne_nil hhas hparams hbody hnames)
  · exact ⟨_, (Paths.find?_add p r r.path).trans (if_pos rfl)⟩

/-- Two bodies of a route with a parameter in its path. -/
theorem Api.body_bindings_rendered_two_bodies :
    let c : Catalog := { candidates := [
      ⟨["@api {put} /items/:id Save", "@apiParam {String} id", "@apiBody item #Item",
        "@apiBody note #Note"], "s"⟩] }
    ∃ api, (Api.ofCatalog c).result = .ok api ∧ ∃ r ∈ api.routes.values,
      (r.body.flatMap BodyBinding.lines).length = 8 ∧
      r.body.flatMap BodyBinding.lines <:+: (api.paths true).lines := by
  intro c
  have hroutes : (Api.ofCatalog c).result.toOption.map (fun api =>
      api.routes.values.map fun r => (r.method, r.params.keys, r.body)) =
        some [(.put, ["id"], [⟨"item", "Item"⟩, ⟨"note", "Note"⟩])] := by decide +kernel
  obtain ⟨api, hok, hroutes⟩ := Option.map_eq_some_iff.mp hroutes
  obtain ⟨r, rest, hvalues, hr, -⟩ := List.map_eq_cons_iff.mp hroutes
  simp only [Prod.mk.injEq] at hr
  obtain ⟨hmethod, hparams, hbody⟩ := hr
  have hmem : r ∈ api.routes.values := by simp [hvalues]
  have hentries : r.params.entries ≠ [] := by
    intro hnil
    simp [Table.keys, hnil] at hparams
  obtain ⟨⟨before, after, hlines⟩, -, hplace⟩ :=
    Api.body_bindings_rendered (except_eq_ok_of_toOption hok) hmem (.inr (.inl hmethod)) hentries
      (by simp [hbody])
  refine ⟨api, except_eq_ok_of_toOption hok, r, hmem, by simp [hbody, BodyBinding.lines], ?_⟩
  refine List.IsInfix.trans ?_ (hplace true)
  rw [hlines]
  exact ⟨methodLine r.method :: (before ++ "      parameters:" ::
    r.plainEntries.flatMap ParameterEntry.lines), "      responses:" :: after, by simp⟩

/-- A route without parameters has no `parameters`, so the body that it declares is not shown. -/
theorem Api.body_binding_without_parameters :
    let c : Catalog := { candidates := [
      ⟨["@api {post} /items Create", "@apiBody item #Item"], "s"⟩] }
    ∃ api, (Api.ofCatalog c).result = .ok api ∧ ∃ r ∈ api.routes.values,
      r.method = .post ∧ r.body = [⟨"item", "Item"⟩] ∧
      "        - in: body" ∉ r.operation.lines ∧
      "        - in: body" ∉ (api.paths false).lines := by
  intro c
  have hroutes : (Api.ofCatalog c).result.toOption.map (fun api =>
      (decide ("        - in: body" ∈ (api.paths false).lines), api.routes.values.map fun r =>
        (r.method, r.body, decide ("        - in: body" ∈ r.operation.lines)))) =
        some (false, [(.post, [⟨"item", "Item"⟩], false)]) := by decide +kernel
  obtain ⟨api, hok, hroutes⟩ := Option.map_eq_some_iff.mp hroutes
  simp only [Prod.mk.injEq, decide_eq_false_iff_not] at hroutes
  obtain ⟨hpaths, hroutes⟩ := hroutes
  obtain ⟨r, rest, hvalues, hr, -⟩ := List.map_eq_cons_iff.mp hroutes
  simp only [Prod.mk.injEq, decide_eq_false_iff_not] at hr
  obtain ⟨hmethod, hbody, hlines⟩ := hr
  exact ⟨api, except_eq_ok_of_toOption hok, r, by simp [hvalues], hmethod, hbody, hlines, hpaths⟩

end RouteDoc
