import RouteDoc.Document
import RouteDoc.Proofs.Tables

/-! Resolution asks the tables of a catalog for names and never goes through them in their order.
So catalogs whose tables answer alike have the same routes and the same lines for their paths, and
their models differ only in the order of the declared ones. -/

namespace RouteDoc

/-- Two catalogs with the same candidates whose tables give the same answer for every name. -/
structure Catalog.SameLookups (c d : Catalog) : Prop where
  candidates : c.candidates = d.candidates
  definitions : ∀ name, c.definitions.find? name = d.definitions.find? name
  descriptions : ∀ name, c.descriptions.find? name = d.descriptions.find? name

namespace Catalog.SameLookups

variable {c d : Catalog}

theorem params_eq (h : c.SameLookups d) (draft : Draft) : c.params draft = d.params draft := by
  simp only [params, usedFields, h.definitions]

theorem descriptionLines_eq (h : c.SameLookups d) (draft : Draft) :
    c.descriptionLines draft = d.descriptionLines draft := by
  simp only [descriptionLines, h.descriptions]

theorem route_eq (h : c.SameLookups d) : c.route = d.route := by
  funext draft
  simp only [route, h.params_eq, h.descriptionLines_eq]

theorem routes_eq (h : c.SameLookups d) : c.routes = d.routes := by
  simp only [routes, h.candidates, h.route_eq]

end Catalog.SameLookups

namespace Api

variable {s t : Table String Fields}

/-- The models made of body parameters that a document adds to the declared ones. -/
def addedModels (api : Api) : List (String × Fields) :=
  api.implicitModels.entries.filter fun m => !api.definitions.contains m.1

theorem models_eq (api : Api) : api.models = api.definitions.entries ++ api.addedModels := rfl

theorem addedModels_congr (h : ∀ name, s.find? name = t.find? name) (routes : List Route) :
    (ofRoutes routes s).addedModels = (ofRoutes routes t).addedModels := by
  refine List.filter_congr fun m _ => ?_
  have hcontains : s.contains m.1 = t.contains m.1 := Table.contains_congr (h m.1)
  simp only [ofRoutes, hcontains]

theorem models_perm (h : ∀ name, s.find? name = t.find? name) (routes : List Route) :
    (ofRoutes routes s).models.Perm (ofRoutes routes t).models := by
  rw [models_eq, models_eq, addedModels_congr h]
  exact (Table.perm_of_find? h).append_right _

/-- The order of the tables of a catalog does not reach the paths of the document. Two catalogs with
the same candidates whose tables answer alike fail with the same fault, or have the same routes, the
same models made of body parameters, and the same lines of paths; their models are the same up to
the order of the declared ones. -/
theorem ofCatalog_congr_lookups {c d : Catalog} (h : c.SameLookups d) :
    (ofCatalog c).warnings = (ofCatalog d).warnings ∧
    ((∃ fault, (ofCatalog c).result = .error fault ∧ (ofCatalog d).result = .error fault) ∨
      ∃ api api', (ofCatalog c).result = .ok api ∧ (ofCatalog d).result = .ok api' ∧
        api.routes = api'.routes ∧ api.implicitModels = api'.implicitModels ∧
        (∀ hasQuota, (api.paths hasQuota).lines = (api'.paths hasQuota).lines) ∧
        api.models.Perm api'.models ∧ api.addedModels = api'.addedModels ∧
        api.models = c.definitions.entries ++ api.addedModels ∧
        api'.models = d.definitions.entries ++ api'.addedModels) := by
  rw [ofCatalog, ofCatalog, h.routes_eq]
  obtain ⟨w, fault | routes⟩ := d.routes
  · exact ⟨rfl, .inl ⟨fault, rfl, rfl⟩⟩
  · refine ⟨rfl, .inr ⟨_, _, rfl, rfl, rfl, rfl, fun _ => rfl, ?_, ?_, rfl, rfl⟩⟩
    · exact models_perm h.definitions routes
    · exact addedModels_congr h.definitions routes

/-- Two definitions in either order, both used by one route. -/
theorem ofCatalog_congr_lookups_swapped :
    let a : Fields := .ofDeclarations [("x", ⟨⟨.any, [], none⟩, false, "", false⟩)]
    let b : Fields := .ofDeclarations [("y", ⟨⟨.any, [], none⟩, true, "", false⟩)]
    let candidates : List Block := [⟨["@api {put} /a It", "@apiUse B", "@apiUse A"], "s"⟩]
    let c : Catalog := { definitions := .ofList [("A", a), ("B", b)], candidates }
    let d : Catalog := { definitions := .ofList [("B", b), ("A", a)], candidates }
    c.definitions.keys ≠ d.definitions.keys ∧
      ∃ api api', (ofCatalog c).result = .ok api ∧ (ofCatalog d).result = .ok api' ∧
        api.routes = api'.routes ∧ api.models.Perm api'.models := by
  intro a b candidates c d
  have hperm : c.definitions.entries.Perm d.definitions.entries := List.Perm.swap _ _ []
  have hsame : c.SameLookups d := ⟨rfl, Table.find?_of_perm hperm, fun _ => rfl⟩
  have hok : (ofCatalog c).result.isOk = true := by decide +kernel
  refine ⟨by decide, ?_⟩
  obtain ⟨-, ⟨fault, hfault, -⟩ | ⟨api, api', hc, hd, hroutes, -, -, hmodels, -⟩⟩ :=
    ofCatalog_congr_lookups hsame
  · rw [hfault] at hok
    cases hok
  · exact ⟨api, api', hc, hd, hroutes, hmodels⟩

end Api

end RouteDoc
