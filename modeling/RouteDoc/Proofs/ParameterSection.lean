import RouteDoc.Proofs.BodyBindings
import RouteDoc.Proofs.Optionality
import RouteDoc.Proofs.TypeLines

/-! The parameters that an operation shows. A reader that knows nothing of routes finds the key of the
parameters among the lines of the operation and takes the entries below it apart again: where each
parameter is, its name, whether it is required, and the model of a body. What it finds is told from
the route alone. -/

namespace RouteDoc

open Text

/-- An entry of an operation's parameters. One in the body has a model, any other says whether it is
required. -/
structure ShownParameter where
  location : String
  name : String
  required : Option Bool
  model : Option String
  deriving DecidableEq, Repr

/-! ### The reader -/

/-- What follows the key on a line that starts with it. -/
def valueOf? (key line : String) : Option String :=
  (after? key.toList line.toList).map String.ofList

/-- The truth value with a spelling. -/
def readBool? (text : String) : Option Bool :=
  if text = "true" then some true else if text = "false" then some false else none

/-- The model that lines refer to below their key of the schema. -/
def schemaModel? (lines : List String) : Option String :=
  ((sections 10 lines).find? (·.1 = "          schema:")).bind fun part =>
    (part.2.findSome? (valueOf? "            $ref: \"#/definitions/")).map fun rest =>
      String.ofList (rest.toList.takeWhile (· != '"'))

/-- The entry with a first line and the lines below it. -/
def ShownParameter.ofSection? (part : String × List String) : Option ShownParameter := do
  let location ← valueOf? "        - in: " part.1
  let name ← part.2.findSome? (valueOf? "          name: ")
  return {
    location, name
    required := (part.2.findSome? (valueOf? "          required: ")).bind readBool?
    model := schemaModel? part.2 }

/-- The entries of the parameters among the lines of an operation. -/
def readParameters? (lines : List String) : Option (List ShownParameter) :=
  match (sections 6 lines).find? (·.1 = "      parameters:") with
  | none => some []
  | some part => (sections 8 part.2).mapM ShownParameter.ofSection?

/-- The sections of the parameters among the lines of an operation. -/
def parameterSections (lines : List String) : List (String × List String) :=
  match (sections 6 lines).find? (·.1 = "      parameters:") with
  | none => []
  | some part => sections 8 part.2

theorem readParameters?_eq (lines : List String) :
    readParameters? lines = (parameterSections lines).mapM ShownParameter.ofSection? := by
  unfold readParameters? parameterSections
  split <;> rfl

/-! ### The entries of a route -/

namespace Route

/-- The bodies that a route shows: for a method that has one, those that it declares, or else the
model made of its parameters. -/
def shownBodies (r : Route) : List ShownParameter :=
  if r.method = .post ∨ r.method = .put ∨ r.method = .patch then
    if r.body = [] then r.implicitModel.toList.map fun model => ⟨"body", "body", none, some model⟩
    else r.body.map fun b => ⟨"body", b.name, none, some b.model⟩
  else []

/-- The entries that a route shows: the parameters in headers, those in the path, all others but
those like objects, and the bodies. A route without parameters shows none. -/
def shownParameters (r : Route) : List ShownParameter :=
  let params := r.params.entries
  let names := Path.parameterNames r.path
  if params = [] then []
  else
    (params.filter fun e => e.2.isHeader).map
      (fun e => ⟨"header", e.1, some !e.2.isOptional, none⟩) ++
    (params.filter fun e => !e.2.isHeader && e.1 ∈ names).map
      (fun e => ⟨"path", e.1, some true, none⟩) ++
    (params.filter fun e => !e.2.isHeader && e.1 ∉ names && !e.2.type.isObjectLike).map
      (fun e => ⟨"query", e.1, some !e.2.isOptional, none⟩) ++
    r.shownBodies

end Route

/-! ### Keys and values -/

theorem valueOf?_append (key value : String) : valueOf? key (key ++ value) = some value := by
  rw [valueOf?, String.toList_append, after?_append, Option.map_some, String.ofList_toList]

theorem not_prefix_append {key start : String} (h : ¬ key.toList <+: start.toList)
    (h' : ¬ start.toList <+: key.toList) (text : String) :
    ¬ key.toList <+: (start ++ text).toList := by
  rw [String.toList_append]
  intro hkey
  -- of two starts of one line one goes on with the other
  rcases List.prefix_or_prefix_of_prefix hkey (List.prefix_append _ _) with hp | hp
  · exact h hp
  · exact h' hp

theorem ne_append {key start : String} (h : ¬ key.toList <+: start.toList)
    (h' : ¬ start.toList <+: key.toList) (text : String) : key ≠ start ++ text := by
  intro heq
  have hprefix : key.toList <+: (start ++ text).toList := ⟨[], by rw [List.append_nil, heq]⟩
  exact not_prefix_append h h' text hprefix

theorem valueOf?_eq_none {key line : String} (h : ¬ key.toList <+: line.toList) :
    valueOf? key line = none := by
  rw [valueOf?, Option.map_eq_none_iff]
  cases hafter : after? key.toList line.toList with
  | none => rfl
  | some rest => exact absurd ⟨rest, (after?_eq_some_iff.mp hafter).symm⟩ h

theorem valueOf?_append_eq_none {key start : String} (h : ¬ key.toList <+: start.toList)
    (h' : ¬ start.toList <+: key.toList) (text : String) : valueOf? key (start ++ text) = none :=
  valueOf?_eq_none (not_prefix_append h h' text)

theorem not_mem_layout {key : String} {rows : List String} (hrows : ∀ row ∈ rows, OneLine row)
    (h : ∀ row ∈ rows, ¬ key.toList <+: row.toList) : key ∉ layout rows := by
  rw [layout_eq hrows, List.mem_map]
  rintro ⟨row, hrow, rfl⟩
  exact h row hrow (trimmed_isPrefix row)

/-! ### Reading entries -/

theorem exists_of_mapM_cons {α β : Type} {f : α → Option β} {x : α} {xs : List α} {ys : List β}
    (h : (x :: xs).mapM f = some ys) :
    ∃ z zs, f x = some z ∧ xs.mapM f = some zs ∧ ys = z :: zs := by
  rw [List.mapM_cons] at h
  obtain ⟨z, hx, h⟩ := Option.bind_eq_some_iff.mp h
  obtain ⟨zs, hxs, h⟩ := Option.bind_eq_some_iff.mp h
  exact ⟨z, zs, hx, hxs, (Option.some.inj h).symm⟩

/-- Lines that are made of entries, which are read as the given ones. -/
def ReadsAs (lines : List String) (shown : List ShownParameter) : Prop :=
  ∃ parts : List (String × List String), lines = (parts.flatMap fun part => part.1 :: part.2) ∧
    (∀ part ∈ parts, isAt 8 part.1 = true ∧ ∀ line ∈ part.2, isAt 8 line = false) ∧
    parts.mapM ShownParameter.ofSection? = some shown

namespace ReadsAs

variable {lines lines' : List String} {shown shown' : List ShownParameter}

theorem nil : ReadsAs [] [] := ⟨[], rfl, by simp, rfl⟩

theorem singleton {key : String} {rows : List String} {p : ShownParameter}
    (hkey : isAt 8 key = true) (hrows : Rows 10 rows)
    (h : ShownParameter.ofSection? (key, rows) = some p) : ReadsAs (key :: rows) [p] := by
  refine ⟨[(key, rows)], by simp, ?_, by simp [h]⟩
  intro part hpart
  rw [List.mem_singleton.mp hpart]
  exact ⟨hkey, fun line hline => isAt_of_deep (hrows line hline).2 (by decide)⟩

theorem append (h : ReadsAs lines shown) (h' : ReadsAs lines' shown') :
    ReadsAs (lines ++ lines') (shown ++ shown') := by
  obtain ⟨parts, rfl, hparts, hread⟩ := h
  obtain ⟨parts', rfl, hparts', hread'⟩ := h'
  refine ⟨parts ++ parts', by simp, ?_, by simp [List.mapM_append, hread, hread']⟩
  intro part hpart
  rcases List.mem_append.mp hpart with hpart | hpart
  · exact hparts part hpart
  · exact hparts' part hpart

theorem flatMap {α : Type} {xs : List α} {f : α → List String} {g : α → ShownParameter}
    (h : ∀ x ∈ xs, ReadsAs (f x) [g x]) : ReadsAs (xs.flatMap f) (xs.map g) := by
  induction xs with
  | nil => exact nil
  | cons x xs ih => exact (h x (by simp)).append (ih fun y hy => h y (by simp [hy]))

theorem mapM_sections (h : ReadsAs lines shown) :
    (sections 8 lines).mapM ShownParameter.ofSection? = some shown := by
  obtain ⟨parts, rfl, hparts, hread⟩ := h
  rw [sections_flatMap hparts, hread]

theorem eq_nil_iff (h : ReadsAs lines shown) : lines = [] ↔ shown = [] := by
  obtain ⟨parts, rfl, -, hread⟩ := h
  cases parts with
  | nil =>
    have hshown : shown = [] := (Option.some.inj hread).symm
    simp [hshown]
  | cons part parts =>
    obtain ⟨p, ps, -, -, rfl⟩ := exists_of_mapM_cons hread
    simp

end ReadsAs

/-! ### The entries of operations -/

theorem schemaModel?_eq_none {lines : List String} (h : "          schema:" ∉ lines) :
    schemaModel? lines = none := by
  rw [schemaModel?, find?_sections_eq_none h]
  rfl

/-- The first lines of an entry give its place and its name, and the others the rest. -/
theorem ShownParameter.ofSection?_cons (location name : String) (rows : List String) :
    ofSection? ("        - in: " ++ location, ("          name: " ++ name) :: rows) = some {
      location, name
      required := (rows.findSome? (valueOf? "          required: ")).bind readBool?
      model := schemaModel? rows } := by
  have hrequired : valueOf? "          required: " ("          name: " ++ name) = none :=
    valueOf?_append_eq_none (by decide) (by decide) name
  have hschema : "          schema:" ∉ ["          name: " ++ name] := by
    rw [List.mem_singleton]
    exact ne_append (by decide) (by decide) name
  have hmodel : schemaModel? (("          name: " ++ name) :: rows) = schemaModel? rows := by
    have hfind := find?_sections_append (n := 10) hschema rows
    rw [List.singleton_append] at hfind
    rw [schemaModel?, schemaModel?, hfind]
  simp [ofSection?, valueOf?_append, hrequired, hmodel]

theorem readBool?_boolText (b : Bool) : readBool? (boolText b) = some b := by
  cases b <;> decide

theorem ShownParameter.ofSection?_of_no_schema (location name description : String) (required : Bool)
    {rows : List String} (h : "          schema:" ∉ rows) :
    ofSection? ("        - in: " ++ location, ("          name: " ++ name) ::
      ("          description: '" ++ description ++ "'") ::
      ("          required: " ++ boolText required) :: rows) =
      some ⟨location, name, some required, none⟩ := by
  rw [String.append_assoc]
  have hvalue : valueOf? "          required: "
      ("          description: '" ++ (description ++ "'")) = none :=
    valueOf?_append_eq_none (by decide) (by decide) _
  have hnoSchema : "          schema:" ∉ ("          description: '" ++ (description ++ "'")) ::
      ("          required: " ++ boolText required) :: rows := by
    simp only [List.mem_cons, not_or]
    exact ⟨ne_append (by decide) (by decide) _, ne_append (by decide) (by decide) _, h⟩
  rw [ofSection?_cons, schemaModel?_eq_none hnoSchema, List.findSome?_cons, hvalue,
    List.findSome?_cons, valueOf?_append]
  simp only [Option.bind_some, readBool?_boolText]

theorem isToken_boolText (b : Bool) : IsToken (boolText b) :=
  isToken_of_isName (by cases b <;> decide)

namespace Route

theorem parameterEntry_lines {location name : String} {field : Field} (hlocation : IsToken location)
    (hname : IsToken name) (hfield : field.Plain) (required : Bool) :
    (parameterEntry location name field required).lines =
      ("        - in: " ++ location) ::
      ("          name: " ++ name) ::
      ("          description: '" ++ escape field.description ++ "'") ::
      ("          required: " ++ boolText required) ::
      layout (parameterEntry location name field required).typeLines := by
  have hrequired := isToken_boolText required
  have hdescription : OneLine ("          description: '" ++ escape field.description ++ "'") :=
    ((show OneLine "          description: '" by decide).append
      hfield.description.escape).append (by decide)
  rw [ParameterEntry.lines_eq_layout]
  change layout (("        - in: " ++ location) :: ("          name: " ++ name) ::
    ("          description: '" ++ escape field.description ++ "'") ::
    ("          required: " ++ boolText required) ::
    (parameterEntry location name field required).typeLines) = _
  rw [layout_cons ((show OneLine "        - in: " by decide).append hlocation.oneLine),
    layout_cons ((show OneLine "          name: " by decide).append hname.oneLine),
    layout_cons hdescription,
    layout_cons ((show OneLine "          required: " by decide).append hrequired.oneLine),
    trimmed_append hlocation, trimmed_append hname, trimmed_append_singleton rfl (by decide),
    trimmed_append hrequired]

/-- An entry outside the body has no schema. -/
theorem schema_not_mem_typeLines {field : Field} (h : field.Plain) (location name : String)
    (required : Bool) :
    "          schema:" ∉ layout (parameterEntry location name field required).typeLines := by
  refine not_mem_layout (fun row hrow => (rows_typeLines h location name required row hrow).1)
    fun row hrow => ?_
  unfold parameterEntry at hrow
  simp only at hrow
  split at hrow
  · cases hrow
  · obtain ⟨l, hl, rfl⟩ := List.mem_map.mp hrow
    have hkey : "          schema:".toList = (Schema.spaces 10).toList ++ "schema:".toList := by
      decide
    rw [hkey, String.toList_append, List.prefix_append_right_inj]
    exact (Schema.startIn_typeLines field.type "").not_starts (by decide) l hl

theorem readsAs_parameterEntry {location name : String} {field : Field}
    (hlocation : IsToken location) (hname : IsToken name) (hfield : field.Plain) (required : Bool) :
    ReadsAs (parameterEntry location name field required).lines
      [⟨location, name, some required, none⟩] := by
  rw [parameterEntry_lines hlocation hname hfield]
  have hkey : isAt 8 ("        - in: " ++ location) = true :=
    isAt_of_toList (c := '-') (String.toList_append ..) (by decide)
  have hdescription : Row 10 ("          description: '" ++ escape field.description ++ "'") :=
    ((show Row 10 "          description: '" by decide).append
      hfield.description.escape).append (by decide)
  have hrequired : Row 10 ("          required: " ++ boolText required) :=
    (show Row 10 "          required: " by decide).append (isToken_boolText required).oneLine
  have htype := (rows_typeLines hfield location name required).layout
  refine ReadsAs.singleton hkey (Rows.cons
    ((show Row 10 "          name: " by decide).append hname.oneLine)
    (Rows.cons hdescription (Rows.cons hrequired htype))) ?_
  exact ShownParameter.ofSection?_of_no_schema location name _ required
    (schema_not_mem_typeLines hfield location name required)

end Route

theorem schemaModel?_reference {model : String} (h : IsName model) :
    schemaModel? ["          schema:", "            $ref: \"#/definitions/" ++ model ++ "\""] =
      some model := by
  have hrow : Row 12 ("            $ref: \"#/definitions/" ++ model ++ "\"") :=
    ((show Row 12 "            $ref: \"#/definitions/" by decide).append
      h.1.oneLine).append (by decide)
  have hsections : sections 10
      ["          schema:", "            $ref: \"#/definitions/" ++ model ++ "\""] =
      [("          schema:", ["            $ref: \"#/definitions/" ++ model ++ "\""])] :=
    sections_cons_of_forall (by decide) fun line hline =>
      List.mem_singleton.mp hline ▸ isAt_of_deep hrow.2.deep (by decide)
  have hword : ∀ c ∈ model.toList, (c != '"') = true := by
    intro c hc
    simpa using ne_of_isWord (h.1 c hc) (by decide)
  rw [schemaModel?, hsections, String.append_assoc]
  simp [valueOf?_append, List.takeWhile_append_of_pos hword]

theorem BodyBinding.readsAs_entry (b : BodyBinding) (hname : IsName b.name)
    (hmodel : IsName b.model) : ReadsAs (BodyEntry.lines { name := b.name, model := b.model })
      [⟨"body", b.name, none, some b.model⟩] := by
  rw [BodyBinding.lines_eq hname hmodel]
  have hmodelRow : Row 10 ("            $ref: \"#/definitions/" ++ b.model ++ "\"") :=
    ((show Row 10 "            $ref: \"#/definitions/" by decide).append
      hmodel.1.oneLine).append (by decide)
  have hnoValue : valueOf? "          required: "
      ("            $ref: \"#/definitions/" ++ b.model ++ "\"") = none := by
    rw [String.append_assoc]
    exact valueOf?_append_eq_none (by decide) (by decide) _
  refine ReadsAs.singleton (by decide) (Rows.cons
    ((show Row 10 "          name: " by decide).append hname.1.oneLine)
    (Rows.cons (by decide) (Rows.cons hmodelRow Rows.nil))) ?_
  refine (ShownParameter.ofSection?_cons "body" b.name _).trans ?_
  rw [schemaModel?_reference hmodel, List.findSome?_cons, List.findSome?_cons, hnoValue]
  rfl

/-- A key that is no start of a row, and of which no row has the start, does not stand before the
parameters. -/
theorem Route.key_not_mem_head {r : Route} (h : r.Plain) {key : String}
    (hmethod : key ∉ Method.all.map methodLine)
    (hfixed : ∀ row ∈ ["      consumes:", "      produces:", "      tags:"],
      ¬ key.toList <+: row.toList)
    (hstart : ∀ start ∈ ["      summary: ", "      description: |", "        ",
      "      operationId: ", "        - "],
      ¬ key.toList <+: start.toList ∧ ¬ start.toList <+: key.toList) :
    key ∉ methodLine r.method :: layout r.operation.headRows := by
  have hopen : ∀ start ∈ ["      summary: ", "      description: |", "        ",
      "      operationId: ", "        - "], ∀ text : String,
      ¬ key.toList <+: (start ++ text).toList := fun start hmem =>
    not_prefix_append (hstart start hmem).1 (hstart start hmem).2
  rw [List.mem_cons, not_or]
  refine ⟨fun heq => hmethod (heq ▸ List.mem_map_of_mem r.method.mem_all), ?_⟩
  refine not_mem_layout (fun row hrow => (rows_headRows h row hrow).1) fun row hrow => ?_
  simp only [Operation.headRows, List.mem_append, List.mem_cons, List.not_mem_nil, or_false,
    List.mem_map] at hrow
  rcases hrow with (((((((rfl | rfl) | ⟨l, -, rfl⟩) | (rfl | rfl)) | ⟨m, -, rfl⟩) | rfl) |
    ⟨m, -, rfl⟩) | (rfl | rfl))
  all_goals first | exact hfixed _ (by decide) | exact hopen _ (by decide) _

/-! ### The routes of sources -/

/-- What sources say about a route, whatever their identifiers are. -/
structure Route.Sourced (r : Route) : Prop where
  plain : ({ r with controller := "" } : Route).Plain
  pathParameters : r.pathParameters = Path.parameterNames r.path
  params : ∀ e ∈ r.params.entries, IsToken e.1
  body : ∀ b ∈ r.body, IsName b.name ∧ IsName b.model
  implicitModel : ∀ m, r.implicitModel = some m → IsName m

theorem Api.sourced_of_mem {sources : List Source} {catalog : Catalog} {api : Api}
    (hcatalog : (Catalog.collect sources).result = .ok catalog)
    (hapi : (Api.ofCatalog catalog).result = .ok api) {r : Route} (hr : r ∈ api.routes.values) :
    r.Sourced := by
  obtain ⟨b, hb, d, hdraft, rfl⟩ := Api.exists_draft_of_mem hapi hr
  have hplain : (catalog.route { d with controller := "" }).Plain :=
    Catalog.plain_route_of_block hcatalog hb hdraft (by decide)
  exact {
    plain := hplain.withBodyModel
    pathParameters := rfl
    params := fun e he => by
      obtain ⟨line, hline⟩ := Api.exists_line_of_param hcatalog hapi hr he
      obtain ⟨hne, hblank⟩ := Field.name_of_ofLine? hline
      exact ⟨by simpa using hne, hblank⟩
    body := Api.isName_of_mem_body hapi hr
    implicitModel := fun m hm => by
      obtain ⟨model, hmodel, rfl⟩ := Option.map_eq_some_iff.mp hm
      obtain ⟨hword, hne, -⟩ := hplain.bodyModel hmodel
      exact ⟨hword, hne⟩ }

namespace Route.Sourced

variable {r : Route}

theorem readsAs_plainEntry (h : r.Sourced) {location : String} (hlocation : IsName location)
    {e : String × Field} (he : e ∈ r.params.entries) (required : Bool) :
    ReadsAs (parameterEntry location e.1 e.2 required).lines
      [⟨location, e.1, some required, none⟩] :=
  readsAs_parameterEntry (isToken_of_isName hlocation) (h.params e he) (h.plain.params e he).2
    required

theorem readsAs_bodyEntries (h : r.Sourced) :
    ReadsAs (r.bodyEntries.flatMap BodyEntry.lines) r.shownBodies := by
  unfold bodyEntries shownBodies
  by_cases hmethod : r.method.hasBody = true
  · rw [if_pos hmethod, if_pos (Method.hasBody_iff.mp hmethod)]
    by_cases hbody : r.body = []
    · rw [if_pos (by simp [hbody]), if_pos hbody, List.flatMap_map]
      refine ReadsAs.flatMap fun model hmodel => ?_
      have hname : IsName "body" := by decide
      exact BodyBinding.readsAs_entry ⟨"body", model⟩ hname
        (h.implicitModel model (by simpa using hmodel))
    · rw [if_neg (by simp [hbody]), if_neg hbody, List.flatMap_map]
      exact ReadsAs.flatMap fun b hb => b.readsAs_entry (h.body b hb).1 (h.body b hb).2
  · rw [if_neg hmethod, if_neg fun hm => hmethod (Method.hasBody_iff.mpr hm)]
    exact ReadsAs.nil

theorem queryParams (h : r.Sourced) :
    r.otherParams.entries.filter (fun e => !e.2.type.isObjectLike) =
      r.params.entries.filter fun e =>
        !e.2.isHeader && e.1 ∉ Path.parameterNames r.path && !e.2.type.isObjectLike := by
  rw [otherParams, h.pathParameters, Table.filter, List.filter_filter]
  exact List.filter_congr fun e _ => Bool.and_comm ..

theorem readsAs_parameterLines (h : r.Sourced) : ReadsAs r.parameterLines r.shownParameters := by
  unfold parameterLines shownParameters
  by_cases hparams : r.params.entries = []
  · rw [if_pos (by simp [Table.isEmpty, hparams])]
    simp only [hparams, if_true]
    exact ReadsAs.nil
  rw [if_neg (by simp [Table.isEmpty, hparams])]
  simp only [hparams, if_false]
  refine ReadsAs.append ?_ h.readsAs_bodyEntries
  rw [plainEntries, List.flatMap_append, List.flatMap_append, List.flatMap_map, List.flatMap_map,
    List.flatMap_map]
  refine (ReadsAs.append ?_ ?_).append ?_
  · exact ReadsAs.flatMap fun e he =>
      h.readsAs_plainEntry (by decide) (List.mem_filter.mp he).1 _
  · rw [pathParams, h.pathParameters]
    exact ReadsAs.flatMap fun e he =>
      h.readsAs_plainEntry (by decide) (List.mem_filter.mp he).1 _
  · rw [← h.queryParams]
    refine ReadsAs.flatMap fun e he => h.readsAs_plainEntry (by decide) ?_ _
    exact (List.mem_filter.mp (List.mem_filter.mp he).1).1

theorem rows_parameterLines (h : r.Sourced) : Rows 8 r.parameterLines := by
  -- the controller has no part in an operation
  have hrows := Route.rows_parameterLines h.plain
  exact hrows

/-- The key of the parameters stands nowhere before them. -/
theorem parameters_not_mem_head (h : r.Sourced) :
    "      parameters:" ∉ methodLine r.method :: layout r.operation.headRows :=
  key_not_mem_head h.plain (by decide) (by decide) (by decide)

/-- The key of the parameters stands nowhere after them. -/
theorem parameters_not_mem_responses (h : r.Sourced) :
    "      parameters:" ∉ "      responses:" :: layout r.operation.responseRows := by
  rw [List.mem_cons, not_or]
  exact ⟨by decide, (rows_responseRows h.plain).layout.not_mem (by decide : 6 < 8) (by decide)⟩

theorem parameters_mem_operation (h : r.Sourced) :
    "      parameters:" ∈ r.operation.lines ↔ r.parameterLines ≠ [] := by
  have hhead := h.parameters_not_mem_head
  have hresponses := h.parameters_not_mem_responses
  rw [operation_lines, ← List.cons_append, List.mem_append, List.mem_append]
  by_cases hlines : r.parameterLines = []
  · simp [hhead, hresponses, hlines]
  · simp [hlines]

/-- The sections of the parameters are those of the lines that the route has for them. -/
theorem parameterSections_operation (h : r.Sourced) :
    parameterSections r.operation.lines = sections 8 r.parameterLines := by
  -- nothing before the parameters is taken for their key, so the search starts with them
  rw [parameterSections, operation_lines, ← List.cons_append,
    find?_sections_append h.parameters_not_mem_head]
  by_cases hlines : r.parameterLines = []
  · rw [if_pos (by simp [hlines]), List.nil_append,
      find?_sections_eq_none h.parameters_not_mem_responses, hlines]
    rfl
  · have hbelow : ∀ line ∈ r.parameterLines, isAt 6 line = false := fun line hline =>
      isAt_of_deep (h.rows_parameterLines line hline).2 (by decide)
    rw [if_neg (by simp [hlines]), List.cons_append,
      sections_cons_append (by decide) hbelow (by decide), List.find?_cons_of_pos (by simp)]

theorem readParameters?_operation (h : r.Sourced) :
    readParameters? r.operation.lines = some r.shownParameters := by
  rw [readParameters?_eq, h.parameterSections_operation]
  exact h.readsAs_parameterLines.mapM_sections

end Route.Sourced

/-! ### Groups and placeholders -/

theorem Route.params_divided (r : Route) {e : String × Field} (he : e ∈ r.params.entries) :
    (e ∈ r.headerParams.entries ∧ e ∉ r.pathParams.entries ∧ e ∉ r.otherParams.entries) ∨
    (e ∉ r.headerParams.entries ∧ e ∈ r.pathParams.entries ∧ e ∉ r.otherParams.entries) ∨
    (e ∉ r.headerParams.entries ∧ e ∉ r.pathParams.entries ∧ e ∈ r.otherParams.entries) := by
  simp only [headerParams, pathParams, otherParams, Table.filter, List.mem_filter, he, true_and]
  cases hheader : e.2.isHeader with
  | true => simp
  | false =>
    by_cases hpath : e.1 ∈ r.pathParameters <;> simp [hpath]

theorem Route.location_of_mem_shownBodies {r : Route} {p : ShownParameter}
    (hp : p ∈ r.shownBodies) : p.location = "body" := by
  unfold shownBodies at hp
  split at hp
  · split at hp
    · obtain ⟨model, -, rfl⟩ := List.mem_map.mp hp
      rfl
    · obtain ⟨b, -, rfl⟩ := List.mem_map.mp hp
      rfl
  · cases hp

/-- What a route shows in the path is a parameter of the path. -/
theorem Route.mem_parameterNames_of_shown {r : Route} {p : ShownParameter}
    (hp : p ∈ r.shownParameters) (hlocation : p.location = "path") :
    p.name ∈ Path.parameterNames r.path := by
  simp only [shownParameters] at hp
  split at hp
  · cases hp
  simp only [List.mem_append] at hp
  rcases hp with ((hp | hp) | hp) | hp
  · obtain ⟨e, -, rfl⟩ := List.mem_map.mp hp
    exact absurd hlocation (show "header" ≠ "path" by decide)
  · obtain ⟨e, he, rfl⟩ := List.mem_map.mp hp
    have hcond := (List.mem_filter.mp he).2
    simp only [Bool.and_eq_true, decide_eq_true_eq] at hcond
    exact hcond.2
  · obtain ⟨e, -, rfl⟩ := List.mem_map.mp hp
    exact absurd hlocation (show "query" ≠ "path" by decide)
  · rw [location_of_mem_shownBodies hp] at hlocation
    exact absurd hlocation (by decide)

/-- The lines of a path start with its key, whatever the controller is. -/
theorem Paths.fragmentLines_eq_cons (hasQuota : Bool) {r : Route} {routes : List Route}
    (hpath : OneLine r.documentPath) :
    ∃ rest, fragmentLines hasQuota (r :: routes) = ("  " ++ r.documentPath ++ ":") :: rest ∧
      (r :: routes).flatMap (·.operation.lines) <:+ rest := by
  have hkey : OneLine ("  " ++ r.documentPath ++ ":") :=
    ((show OneLine "  " by decide).append hpath).append (by decide)
  refine ⟨layout (("    x-swagger-router-controller: " ++ quote r.controller) ::
    if hasQuota then quotaRows else []) ++ (r :: routes).flatMap (·.operation.lines), ?_,
    List.suffix_append _ _⟩
  have hheader : (r.pathHeader hasQuota).lines = layout (("  " ++ r.documentPath ++ ":") ::
    ("    x-swagger-router-controller: " ++ quote r.controller) ::
    if hasQuota then quotaRows else []) := (r.pathHeader hasQuota).lines_eq_layout
  change (r.pathHeader hasQuota).lines ++ _ = _
  rw [hheader, layout_cons hkey, trimmed_append_singleton rfl (by decide), List.cons_append]

/-- The fragment of a route's path has the path's key first and then, among others, the lines of the
route's operation. -/
theorem Paths.exists_fragment (hasQuota : Bool) {routes : List Route} {r : Route} (hr : r ∈ routes)
    (hpath : OneLine r.documentPath) :
    ∃ rest, (ofRoutes hasQuota routes).fragments.find? r.path =
      some (("  " ++ r.documentPath ++ ":") :: rest) ∧ r.operation.lines <:+: rest := by
  have hmem : r ∈ routesAt r.path routes := mem_routesAt.mpr ⟨hr, rfl⟩
  have hoperation : r.operation.lines <:+: (routesAt r.path routes).flatMap (·.operation.lines) :=
    List.infix_of_mem_flatten (List.mem_map_of_mem hmem)
  rw [find?_ofRoutes hasQuota (mem_pathsOf.mpr ⟨r, hr, rfl⟩)]
  obtain ⟨first, others, hroutes⟩ := List.exists_cons_of_ne_nil (List.ne_nil_of_mem hmem)
  -- the header comes from the first route with the path, which has the same form
  have hfirst : first.path = r.path :=
    (mem_routesAt.mp (by rw [hroutes]; exact List.mem_cons_self)).2
  have hform : first.documentPath = r.documentPath := by
    rw [Route.documentPath, hfirst, Route.documentPath]
  obtain ⟨rest, hlines, hrest⟩ := fragmentLines_eq_cons hasQuota (hform ▸ hpath)
  rw [hroutes] at hoperation ⊢
  refine ⟨rest, ?_, hoperation.trans hrest.isInfix⟩
  rw [hlines, hform]

/-- The parameters of every operation, for all sources that can be collected and resolved. The reader
finds the entries that the route shows, in their order, and the key of the parameters is there if
there is an entry. Each parameter of the route is in exactly one of the three groups. The lines of the
operation are those that adding the route puts at the end of its path, and the key of the path has a
placeholder for every entry that travels in the path. -/
theorem Api.parameters_shown {sources : List Source} {catalog : Catalog} {api : Api}
    (hcatalog : (Catalog.collect sources).result = .ok catalog)
    (hapi : (Api.ofCatalog catalog).result = .ok api) {r : Route} (hr : r ∈ api.routes.values) :
    readParameters? r.operation.lines = some r.shownParameters ∧
    ("      parameters:" ∈ r.operation.lines ↔ r.shownParameters ≠ []) ∧
    (∀ e ∈ r.params.entries,
      (e ∈ r.headerParams.entries ∧ e ∉ r.pathParams.entries ∧ e ∉ r.otherParams.entries) ∨
      (e ∉ r.headerParams.entries ∧ e ∈ r.pathParams.entries ∧ e ∉ r.otherParams.entries) ∨
      (e ∉ r.headerParams.entries ∧ e ∉ r.pathParams.entries ∧ e ∈ r.otherParams.entries)) ∧
    (∀ p : Paths, (p.add r).fragments.find? r.path =
      some ((p.fragments.find? r.path).getD (r.pathHeader p.hasQuota).lines ++
        r.operation.lines)) ∧
    (∀ hasQuota, ∃ key rest, (api.paths hasQuota).fragments.find? r.path = some (key :: rest) ∧
      r.operation.lines <:+: rest ∧ ∀ p ∈ r.shownParameters, p.location = "path" →
        '{' :: p.name.toList ++ ['}'] <:+: key.toList) := by
  have hsourced := Api.sourced_of_mem hcatalog hapi hr
  refine ⟨hsourced.readParameters?_operation, ?_, fun e he => r.params_divided he, fun p => ?_,
    fun hasQuota => ?_⟩
  · rw [hsourced.parameters_mem_operation, ne_eq, hsourced.readsAs_parameterLines.eq_nil_iff]
  · rw [Paths.find?_add, if_pos rfl]
  · obtain ⟨rest, hfind, hrest⟩ :=
      Paths.exists_fragment hasQuota hr hsourced.plain.oneLine_documentPath
    refine ⟨_, rest, hfind, hrest, fun p hp hlocation => ?_⟩
    have hplaceholder := Path.placeholder_infix_documentForm
      (Route.mem_parameterNames_of_shown hp hlocation)
    refine hplaceholder.trans ⟨"  ".toList, ":".toList, ?_⟩
    rw [String.toList_append, String.toList_append, Route.documentPath]

/-- A parameter of every sort, and a body that is made of them. -/
theorem Api.parameters_shown_every_sort :
    let sources : List Source := [⟨"s", "/**\n@api {put} /:id Save\n@apiName save\n" ++
      "@apiParam {Object} o\n@apiParam {Number} [n]\n@apiParam {String} id\n" ++
      "@apiHeader {String} k\n*/"⟩]
    ∃ catalog api, (Catalog.collect sources).result = .ok catalog ∧
      (Api.ofCatalog catalog).result = .ok api ∧ ∃ r ∈ api.routes.values,
      readParameters? r.operation.lines = some [⟨"header", "k", some true, none⟩,
        ⟨"path", "id", some true, none⟩, ⟨"query", "n", some false, none⟩,
        ⟨"body", "body", none, some "Save"⟩] ∧
      "      parameters:" ∈ r.operation.lines ∧
      ∀ hasQuota, ∃ key rest, (api.paths hasQuota).fragments.find? r.path = some (key :: rest) ∧
        "{id}".toList <:+: key.toList := by
  intro sources
  have hcollected : (Catalog.collect sources).result.toOption.bind (fun catalog =>
      (Api.ofCatalog catalog).result.toOption.map fun api =>
        api.routes.values.map Route.shownParameters) =
      some [[⟨"header", "k", some true, none⟩, ⟨"path", "id", some true, none⟩,
        ⟨"query", "n", some false, none⟩, ⟨"body", "body", none, some "Save"⟩]] := by
    decide +kernel
  obtain ⟨catalog, hcatalog, hresolved⟩ := Option.bind_eq_some_iff.mp hcollected
  obtain ⟨api, hapi, hroutes⟩ := Option.map_eq_some_iff.mp hresolved
  obtain ⟨r, rest, hvalues, hshown, -⟩ := List.map_eq_cons_iff.mp hroutes
  have hr : r ∈ api.routes.values := by simp [hvalues]
  have hcatalog := except_eq_ok_of_toOption hcatalog
  have hapi := except_eq_ok_of_toOption hapi
  obtain ⟨hread, hkey, -, -, hpath⟩ := Api.parameters_shown hcatalog hapi hr
  rw [hshown] at hread hkey
  refine ⟨catalog, api, hcatalog, hapi, r, hr, hread, hkey.mpr (by decide), fun hasQuota => ?_⟩
  obtain ⟨key, below, hfind, -, hplaceholder⟩ := hpath hasQuota
  exact ⟨key, below, hfind, hplaceholder ⟨"path", "id", some true, none⟩ (by simp [hshown]) rfl⟩

end RouteDoc
