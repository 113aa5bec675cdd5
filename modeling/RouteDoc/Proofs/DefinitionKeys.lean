import RouteDoc.Proofs.BodyModels

/-! The keys of the definitions in a document. Declared models stand in one table, and a model made of
body parameters is left out where a declared one has its name, so the models have keys of their own.
The model of default responses follows them whatever their names are. Its key is written twice
exactly if a model takes its name, and no other key ever is. -/

namespace RouteDoc.Api

variable {api : Api}

/-- The keys of the definitions, in the order in which they are written. -/
def definitionKeys (api : Api) : List String :=
  api.models.map Prod.fst ++ [Schema.defaultModel]

/-- The entries of the definitions: each key with the lines that are written for it. -/
def definitionEntries (api : Api) : List (String × List String) :=
  api.models.map (fun m => (m.1, Schema.modelLines m.1 m.2)) ++
    [(Schema.defaultModel, ["  " ++ Schema.defaultModel ++ ": \x7b\x7d"])]

theorem keys_definitionEntries (api : Api) :
    api.definitionEntries.map Prod.fst = api.definitionKeys := by
  rw [definitionEntries, definitionKeys, List.map_append, List.map_map]
  rfl

theorem definitionLines_models (api : Api) :
    Schema.definitionLines api.models =
      "definitions:" :: api.definitionEntries.flatMap Prod.snd := by
  rw [Schema.definitionLines, definitionEntries, List.flatMap_append, List.flatMap_map]
  rfl

/-- The first line of an entry holds its key. -/
theorem exists_key_of_mem_definitionEntries {entry : String × List String}
    (h : entry ∈ api.definitionEntries) :
    ∃ value rows, entry.2 = ("  " ++ entry.1 ++ ":" ++ value) :: rows := by
  rcases List.mem_append.mp h with hmodel | hdefault
  · obtain ⟨m, -, rfl⟩ := List.mem_map.mp hmodel
    refine ⟨"", (Schema.modelLines m.1 m.2).tail, ?_⟩
    rw [String.append_empty]
    rfl
  · rw [List.mem_singleton.mp hdefault]
    exact ⟨" \x7b\x7d", [], by decide⟩

theorem nodup_keys_models (api : Api) : (api.models.map Prod.fst).Nodup := by
  rw [models, List.map_append, List.nodup_append]
  refine ⟨api.definitions.nodup,
    api.implicitModels.nodup.sublist (List.filter_sublist.map Prod.fst), ?_⟩
  rintro name hdeclared _ himplicit rfl
  obtain ⟨m, hm, rfl⟩ := List.mem_map.mp himplicit
  have hnew := (List.mem_filter.mp hm).2
  rw [Table.contains_iff.mpr hdeclared] at hnew
  cases hnew

theorem mem_keys_models_iff {name : String} : name ∈ api.models.map Prod.fst ↔
    name ∈ api.definitions.keys ∨ name ∈ api.implicitModels.keys := by
  rw [models, List.map_append, List.mem_append]
  constructor
  · rintro (hdeclared | himplicit)
    · exact .inl hdeclared
    · obtain ⟨m, hm, rfl⟩ := List.mem_map.mp himplicit
      exact .inr (List.mem_map_of_mem (List.mem_filter.mp hm).1)
  · intro h
    by_cases hdeclared : name ∈ api.definitions.keys
    · exact .inl hdeclared
    · obtain ⟨m, hm, rfl⟩ := List.mem_map.mp (h.resolve_left hdeclared)
      have hnew : (!api.definitions.contains m.1) = true := by
        rw [Bool.not_eq_true', ← Bool.not_eq_true, Table.contains_iff]
        exact hdeclared
      exact .inr (List.mem_map_of_mem (List.mem_filter.mpr ⟨hm, hnew⟩))

theorem nodup_definitionKeys_iff :
    api.definitionKeys.Nodup ↔ Schema.defaultModel ∉ api.models.map Prod.fst := by
  rw [definitionKeys, List.nodup_append]
  constructor
  · rintro ⟨-, -, hdisjoint⟩ hmem
    exact hdisjoint _ hmem _ (List.mem_singleton.mpr rfl) rfl
  · intro hnew
    refine ⟨api.nodup_keys_models, by simp, ?_⟩
    rintro name hname _ hdefault rfl
    exact hnew (List.mem_singleton.mp hdefault ▸ hname)

theorem count_definitionKeys {name : String} (hmem : name ∈ api.definitionKeys)
    (hne : name ≠ Schema.defaultModel) : api.definitionKeys.count name = 1 := by
  have hmodel : name ∈ api.models.map Prod.fst :=
    (List.mem_append.mp hmem).resolve_right fun h => hne (List.mem_singleton.mp h)
  have hdefault : [Schema.defaultModel].count name = 0 :=
    List.count_eq_zero.mpr fun h => hne (List.mem_singleton.mp h)
  rw [definitionKeys, List.count_append, hdefault, api.nodup_keys_models.count, if_pos hmodel]

/-- When the definitions of a document have keys of their own, for every catalog that can be resolved.
The lines after the first are one entry for each key, and each model has a key that no other has. So
all keys differ if and only if no declared model and no model made of body parameters has the name of
the model of default responses. -/
theorem definitionKeys_distinct_iff {c : Catalog} (h : (ofCatalog c).result = .ok api) :
    (∃ entries : List (String × List String),
      entries.map Prod.fst = api.definitionKeys ∧
      Schema.definitionLines api.models = "definitions:" :: entries.flatMap Prod.snd ∧
      ∀ entry ∈ entries, ∃ value rows, entry.2 = ("  " ++ entry.1 ++ ":" ++ value) :: rows) ∧
    (∀ name ∈ api.definitionKeys, name ≠ Schema.defaultModel →
      api.definitionKeys.count name = 1) ∧
    (api.definitionKeys.Nodup ↔ Schema.defaultModel ∉ c.definitions.keys ∧
      ∀ r ∈ api.routes.values, r.implicitModel ≠ some Schema.defaultModel) := by
  obtain ⟨declared, -, hapi⟩ := Reading.bind_eq_ok_iff.mp h
  obtain rfl : ofRoutes declared c.definitions = api := Except.ok.inj hapi
  refine ⟨⟨_, keys_definitionEntries _, definitionLines_models _, fun entry hentry =>
    exists_key_of_mem_definitionEntries hentry⟩, fun name hmem hne => count_definitionKeys hmem hne, ?_⟩
  rw [nodup_definitionKeys_iff, mem_keys_models_iff, not_or, keys_implicitModels_ofRoutes,
    List.mem_eraseDups, List.mem_filterMap]
  refine and_congr_right fun _ => ?_
  constructor
  · intro hnone r hr hname
    exact hnone ⟨r, hr, hname⟩
  · rintro hnone ⟨r, hr, hname⟩
    exact hnone r hr hname

/-- A model that takes the name by its declaration, one that takes it by the name of an operation,
and one that does not take it. -/
theorem definitionKeys_distinct_iff_reserved_name :
    let declared : Catalog := { definitions := .ofList [("DefaultResponse", ∅)] }
    let implied : Catalog := { candidates := [
      ⟨["@api {post} /a It", "@apiName default_response", "@apiParam {String} x"], "s"⟩] }
    let other : Catalog := { definitions := .ofList [("Item", ∅)] }
    (∃ api, (ofCatalog declared).result = .ok api ∧ ¬api.definitionKeys.Nodup) ∧
    (∃ api, (ofCatalog implied).result = .ok api ∧ ¬api.definitionKeys.Nodup) ∧
    ∃ api, (ofCatalog other).result = .ok api ∧ api.definitionKeys.Nodup := by
  intro declared implied other
  refine ⟨⟨_, rfl, ?_⟩, ?_, ⟨_, rfl, ?_⟩⟩
  · intro hnodup
    have hdistinct := (definitionKeys_distinct_iff (c := declared) rfl).2.2.mp hnodup
    exact hdistinct.1 (by decide)
  · have hroutes : (ofCatalog implied).result.toOption.map (fun api =>
        api.routes.values.map (·.implicitModel)) = some [some "DefaultResponse"] := by
      decide +kernel
    obtain ⟨api, hok, hroutes⟩ := Option.map_eq_some_iff.mp hroutes
    obtain ⟨r, rest, hvalues, hname, -⟩ := List.map_eq_cons_iff.mp hroutes
    have hapi := except_eq_ok_of_toOption hok
    refine ⟨api, hapi, fun hnodup => ?_⟩
    have hdistinct := (definitionKeys_distinct_iff hapi).2.2.mp hnodup
    exact hdistinct.2 r (by simp [hvalues]) hname
  · refine (definitionKeys_distinct_iff (c := other) rfl).2.2.mpr ⟨by decide, fun r hr => ?_⟩
    cases hr

end RouteDoc.Api
