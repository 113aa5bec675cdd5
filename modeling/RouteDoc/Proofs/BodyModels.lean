import RouteDoc.Document
import RouteDoc.Proofs.Tables

/-! The models made of body parameters. Of the routes with one method and path only the last stands
in the table of an API, and each model is made of the last route there that names it. A document
has every such model once, so a body that refers to one finds it. -/

namespace RouteDoc

open Text

/-! ### Routes and their models -/

theorem Method.hasBody_iff {m : Method} :
    m.hasBody = true ↔ m = .post ∨ m = .put ∨ m = .patch := by
  cases m <;> decide

theorem Route.bodyModel?_eq_some_iff {r : Route} {name : String} {fields : Fields} :
    r.bodyModel? = some (name, fields) ↔
      r.withBodyModel.implicitModel = some name ∧ fields = r.otherParams := by
  unfold withBodyModel bodyModel?
  split
  · simp [eq_comm]
  · simp

theorem Route.implicitModel_withBodyModel_iff {r : Route} {name : String} :
    r.withBodyModel.implicitModel = some name ↔
      (r.method = .post ∨ r.method = .put ∨ r.method = .patch) ∧ r.operationId ≠ "" ∧
      r.otherParams.entries ≠ [] ∧ name = Case.pascalCase r.operationId := by
  have hcond : (r.method.hasBody && !r.operationId.isEmpty && !r.otherParams.isEmpty) = true ↔
      (r.method = .post ∨ r.method = .put ∨ r.method = .patch) ∧ r.operationId ≠ "" ∧
      r.otherParams.entries ≠ [] := by
    simp only [Bool.and_eq_true, Bool.not_eq_true', String.isEmpty_eq_false_iff, Table.isEmpty,
      List.isEmpty_eq_false_iff, Method.hasBody_iff, and_assoc, ne_eq]
  unfold withBodyModel bodyModel?
  split
  · rename_i h
    obtain ⟨hmethod, hid, hother⟩ := hcond.mp h
    simp only [Option.map_some, Option.some.injEq]
    exact ⟨fun hname => ⟨hmethod, hid, hother, hname.symm⟩, fun h => h.2.2.2.symm⟩
  · rename_i h
    simp only [Option.map_none, reduceCtorEq, false_iff]
    exact fun ⟨hmethod, hid, hother, _⟩ => h (hcond.mpr ⟨hmethod, hid, hother⟩)

/-- The models with a name are made of the routes that have it, in their order. -/
theorem filter_filterMap_bodyModel? (routes : List Route) (name : String) :
    (routes.filterMap Route.bodyModel?).filter (·.1 = name) =
      ((routes.map Route.withBodyModel).filter (·.implicitModel = some name)).map
        fun r => (name, r.otherParams) := by
  induction routes with
  | nil => rfl
  | cons r routes ih =>
    rw [List.map_cons]
    cases hmodel : r.bodyModel? with
    | none =>
      have hnone : r.withBodyModel.implicitModel = none := by simp [Route.withBodyModel, hmodel]
      rw [List.filterMap_cons_none hmodel, List.filter_cons_of_neg (by simp [hnone]), ih]
    | some model =>
      obtain ⟨hsome, hfields⟩ := Route.bodyModel?_eq_some_iff.mp hmodel
      rw [List.filterMap_cons_some hmodel]
      by_cases hname : model.1 = name
      · rw [List.filter_cons_of_pos (by simpa using hname),
          List.filter_cons_of_pos (by simp [hsome, hname]), List.map_cons, ih]
        congr 1
        exact Prod.ext hname hfields
      · rw [List.filter_cons_of_neg (by simpa using hname),
          List.filter_cons_of_neg (by simp [hsome, hname]), ih]

/-! ### The table of an API -/

namespace Api

variable {routes : List Route} {definitions : Table String Fields}

theorem values_routes_ofRoutes (routes : List Route) (definitions : Table String Fields) :
    (ofRoutes routes definitions).routes.values =
      (Table.ofList (routes.map fun r => (r.key, r))).values.map Route.withBodyModel :=
  Table.values_mapValues _ _

/-- Of the routes with a key the last stands in the table. -/
theorem find?_ofList_key (routes : List Route) (key : Method × String) :
    (Table.ofList (routes.map fun r => (r.key, r))).find? key =
      (routes.filter (·.key = key)).getLast? := by
  rw [Table.find?_ofList, List.filter_map, List.getLast?_map, Option.map_map]
  exact Option.map_id'

/-- A route stands in the table if no later one has its key. -/
theorem mem_values_ofList_iff {r : Route} :
    r ∈ (Table.ofList (routes.map fun r => (r.key, r))).values ↔
      ∃ before after, routes = before ++ r :: after ∧ ∀ later ∈ after, later.key ≠ r.key := by
  have hmem : r ∈ (Table.ofList (routes.map fun r => (r.key, r))).values ↔
      (routes.filter (·.key = r.key)).getLast? = some r := by
    rw [← find?_ofList_key]
    constructor
    · intro h
      obtain ⟨e, he, rfl⟩ := List.mem_map.mp h
      obtain ⟨s, -, rfl⟩ := List.mem_map.mp (Table.mem_ofList he)
      exact Table.find?_of_mem he
    · intro h
      exact List.mem_map.mpr ⟨_, Table.mem_of_find? h, rfl⟩
  -- the last of a list is the first of the reversed one
  rw [hmem, List.getLast?_filter, List.find?_eq_some_iff_append]
  simp only [decide_true, true_and, Bool.not_eq_true', decide_eq_false_iff_not]
  constructor
  · rintro ⟨after, before, hroutes, hafter⟩
    refine ⟨before.reverse, after.reverse, ?_, by simpa using hafter⟩
    simpa using congrArg List.reverse hroutes
  · rintro ⟨before, after, rfl, hafter⟩
    exact ⟨after.reverse, before.reverse, by simp, by simpa using hafter⟩

theorem keys_implicitModels_ofRoutes :
    (ofRoutes routes definitions).implicitModels.keys =
      ((ofRoutes routes definitions).routes.values.filterMap (·.implicitModel)).eraseDups := by
  rw [values_routes_ofRoutes, List.filterMap_map]
  change (Table.ofList _).keys = _
  rw [Table.keys_ofList, List.map_filterMap]
  rfl

theorem find?_implicitModels_ofRoutes (name : String) :
    (ofRoutes routes definitions).implicitModels.find? name =
      ((ofRoutes routes definitions).routes.values.filter
        (·.implicitModel = some name)).getLast?.map Route.otherParams := by
  rw [values_routes_ofRoutes]
  change (Table.ofList _).find? name = _
  rw [Table.find?_ofList, filter_filterMap_bodyModel?, List.getLast?_map, Option.map_map]
  rfl

/-- A name of a model made of body parameters has one entry: the declared model of that name, or
else the one made of parameters. -/
theorem filter_models {api : Api} {name : String} {fields : Fields}
    (h : api.implicitModels.find? name = some fields) :
    api.models.filter (·.1 = name) = [(name, (api.definitions.find? name).getD fields)] := by
  have hswap : (api.implicitModels.entries.filter fun m => !api.definitions.contains m.1).filter
      (·.1 = name) = (api.implicitModels.entries.filter (·.1 = name)).filter
        fun m => !api.definitions.contains m.1 := by
    rw [List.filter_filter, List.filter_filter]
    simp only [Bool.and_comm]
  rw [models, List.filter_append, hswap, Table.filter_entries, Table.filter_entries, h]
  cases hdeclared : api.definitions.find? name with
  | none => simp [Table.contains, hdeclared]
  | some declared => simp [Table.contains, hdeclared]

theorem modelLine_mem_definitionLines {models : List (String × Fields)} {m : String × Fields}
    (h : m ∈ models) : "  " ++ m.1 ++ ":" ∈ Schema.definitionLines models := by
  simp only [Schema.definitionLines, List.cons_append, List.mem_cons, List.mem_append]
  exact .inr (.inl (List.mem_flatMap.mpr ⟨m, h, by simp [Schema.modelLines]⟩))

end Api

theorem Route.mem_bodyEntries {r : Route} {e : BodyEntry} (hbody : r.body = [])
    (h : e ∈ r.bodyEntries) : r.implicitModel = some e.model := by
  unfold bodyEntries at h
  rw [hbody] at h
  split at h
  · obtain ⟨model, hmodel, rfl⟩ := List.mem_map.mp h
    exact Option.mem_toList.mp hmodel
  · cases h

/-! ### The law -/

/-- How the models made of body parameters follow from the routes that a catalog declares. -/
structure Api.HasBodyModels (declared : List Route) (api : Api) : Prop where
  /-- A route that a later one with its key replaces is not in the table, and makes no model. -/
  routes : ∀ r, r ∈ api.routes.values ↔ ∃ before last after, declared = before ++ last :: after ∧
    (∀ later ∈ after, later.key ≠ last.key) ∧ r = last.withBodyModel
  named : ∀ r ∈ api.routes.values, ∀ name, r.implicitModel = some name ↔
    (r.method = .post ∨ r.method = .put ∨ r.method = .patch) ∧ r.operationId ≠ "" ∧
    r.otherParams.entries ≠ [] ∧ name = Case.pascalCase r.operationId
  order : api.implicitModels.keys = (api.routes.values.filterMap (·.implicitModel)).eraseDups
  /-- A model is made of the last route with its name. -/
  last : ∀ name, api.implicitModels.find? name =
    (api.routes.values.filter (·.implicitModel = some name)).getLast?.map Route.otherParams
  /-- A name stands once among the models of the document, and a declared model goes first. -/
  once : ∀ r ∈ api.routes.values, ∀ name, r.implicitModel = some name →
    ∃ fields, api.implicitModels.find? name = some fields ∧
      api.models.filter (·.1 = name) = [(name, (api.definitions.find? name).getD fields)]
  /-- What a body without declared parts refers to is among the definitions. -/
  references : ∀ r ∈ api.routes.values, r.body = [] → ∀ e ∈ r.bodyEntries,
    r.implicitModel = some e.model ∧ "  " ++ e.model ++ ":" ∈ Schema.definitionLines api.models

theorem Api.exists_find?_implicitModels {routes : List Route} {definitions : Table String Fields}
    {r : Route} {name : String} (hr : r ∈ (ofRoutes routes definitions).routes.values)
    (hname : r.implicitModel = some name) :
    ∃ fields, (ofRoutes routes definitions).implicitModels.find? name = some fields := by
  have hkey : name ∈ (ofRoutes routes definitions).implicitModels.keys := by
    rw [keys_implicitModels_ofRoutes, List.mem_eraseDups, List.mem_filterMap]
    exact ⟨r, hr, hname⟩
  exact Option.isSome_iff_exists.mp (Table.contains_iff.mpr hkey)

theorem Api.hasBodyModels_ofRoutes (declared : List Route) (definitions : Table String Fields) :
    (ofRoutes declared definitions).HasBodyModels declared where
  routes := by
    intro r
    rw [values_routes_ofRoutes, List.mem_map]
    constructor
    · rintro ⟨last, hlast, rfl⟩
      obtain ⟨before, after, hdeclared, hafter⟩ := mem_values_ofList_iff.mp hlast
      exact ⟨before, last, after, hdeclared, hafter, rfl⟩
    · rintro ⟨before, last, after, hdeclared, hafter, rfl⟩
      exact ⟨last, mem_values_ofList_iff.mpr ⟨before, after, hdeclared, hafter⟩, rfl⟩
  named := by
    intro r hr name
    rw [values_routes_ofRoutes, List.mem_map] at hr
    obtain ⟨last, -, rfl⟩ := hr
    exact Route.implicitModel_withBodyModel_iff
  order := keys_implicitModels_ofRoutes
  last := find?_implicitModels_ofRoutes
  once := by
    intro r hr name hname
    obtain ⟨fields, hfields⟩ := exists_find?_implicitModels hr hname
    exact ⟨fields, hfields, filter_models hfields⟩
  references := by
    intro r hr hbody e he
    have hname := Route.mem_bodyEntries hbody he
    obtain ⟨fields, hfields⟩ := exists_find?_implicitModels hr hname
    have hmem : (e.model, ((ofRoutes declared definitions).definitions.find? e.model).getD fields) ∈
        (ofRoutes declared definitions).models := by
      refine (List.mem_filter (p := fun m => decide (m.1 = e.model))).mp ?_ |>.1
      rw [filter_models hfields]
      simp
    exact ⟨hname, modelLine_mem_definitionLines hmem⟩

/-- The models made of body parameters, for every catalog that can be resolved. A route of the table
has one if and only if its method has a body, it has an operation, and it has parameters outside of
headers and path; its name is that of the operation. Models come in the order in which the routes
first name them, each made of the last route that does, and replaced routes make none. Each is
defined once in the document, so the reference of a body never dangles. -/
theorem Api.body_models {c : Catalog} {api : Api} (h : (Api.ofCatalog c).result = .ok api) :
    ∃ declared, c.routes.result = .ok declared ∧ api.HasBodyModels declared := by
  obtain ⟨declared, hdeclared, hapi⟩ := Reading.bind_eq_ok_iff.mp h
  cases hapi
  exact ⟨declared, hdeclared, Api.hasBodyModels_ofRoutes declared c.definitions⟩

/-- A route that is replaced, and two whose operations have one name in the form of models. -/
theorem Api.body_models_one_name :
    let c : Catalog := { candidates := [
      ⟨["@api {post} /a Old", "@apiName old", "@apiParam {String} x"], "s"⟩,
      ⟨["@api {post} /a New", "@apiName save_it", "@apiParam {String} y"], "s"⟩,
      ⟨["@api {put} /b It", "@apiName saveIt", "@apiParam {String} z"], "s"⟩] }
    ∃ api, (Api.ofCatalog c).result = .ok api ∧ api.implicitModels.keys = ["SaveIt"] ∧
      (api.implicitModels.find? "SaveIt").map Table.keys = some ["z"] := by
  intro c
  have hroutes : (Api.ofCatalog c).result.toOption.map (fun api =>
      (api.routes.values.map fun r => (r.implicitModel, r.otherParams.keys))) =
        some [(some "SaveIt", ["y"]), (some "SaveIt", ["z"])] := by decide +kernel
  obtain ⟨api, hok, hroutes⟩ := Option.map_eq_some_iff.mp hroutes
  obtain ⟨r, rest, hvalues, hr, hrest⟩ := List.map_eq_cons_iff.mp hroutes
  obtain ⟨s, rest, rfl, hs, hnil⟩ := List.map_eq_cons_iff.mp hrest
  obtain rfl := List.map_eq_nil_iff.mp hnil
  obtain ⟨hr, -⟩ := Prod.mk.inj hr
  obtain ⟨hs, hz⟩ := Prod.mk.inj hs
  obtain ⟨declared, -, hmodels⟩ := Api.body_models (except_eq_ok_of_toOption hok)
  refine ⟨api, except_eq_ok_of_toOption hok, ?_, ?_⟩
  · rw [hmodels.order, hvalues, List.filterMap_cons_some hr, List.filterMap_cons_some hs]
    decide
  · rw [hmodels.last, hvalues]
    simp [hr, hs, hz]

end RouteDoc
