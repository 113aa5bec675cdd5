import RouteDoc.Document.Paths
import RouteDoc.Proofs.Tables

/-! The grouping of routes by path. Adding routes one after the other gives the distinct paths in the
order of their first appearance, each with the operations of its routes in order. So the order of
routes matters only at one path, and for the place of a path's first route. -/

namespace RouteDoc

/-- The routes with a declared path, in order. -/
def routesAt (path : String) (routes : List Route) : List Route :=
  routes.filter (·.path = path)

/-- The distinct paths of routes in the order of their first appearance. -/
def pathsOf (routes : List Route) : List String :=
  (routes.map Route.path).eraseDups

theorem mem_pathsOf {path : String} {routes : List Route} :
    path ∈ pathsOf routes ↔ ∃ r ∈ routes, r.path = path := by
  rw [pathsOf, List.mem_eraseDups, List.mem_map]

theorem mem_routesAt {path : String} {routes : List Route} {r : Route} :
    r ∈ routesAt path routes ↔ r ∈ routes ∧ r.path = path := by
  simp [routesAt]

theorem routesAt_ne_nil {path : String} {routes : List Route} (h : path ∈ pathsOf routes) :
    routesAt path routes ≠ [] := by
  obtain ⟨r, hr, hpath⟩ := mem_pathsOf.mp h
  exact List.ne_nil_of_mem (mem_routesAt.mpr ⟨hr, hpath⟩)

namespace Paths

variable {p : Paths} {path : String}

theorem find?_add (p : Paths) (r : Route) (path : String) :
    (p.add r).fragments.find? path =
      if r.path = path then
        some ((p.fragments.find? path).getD (r.pathHeader p.hasQuota).lines ++ r.operation.lines)
      else p.fragments.find? path := by
  rw [add, Table.find?_insert]
  split
  · rename_i hpath
    rw [hpath]
  · rfl

/-- A path that is there is extended by the operations of its routes. -/
theorem find?_foldl_add_of_some {before : List String} (h : p.fragments.find? path = some before)
    (routes : List Route) :
    (routes.foldl add p).fragments.find? path =
      some (before ++ (routesAt path routes).flatMap (·.operation.lines)) := by
  induction routes generalizing p before with
  | nil => simpa [routesAt] using h
  | cons r routes ih =>
    have hstep := find?_add p r path
    by_cases hpath : r.path = path
    · rw [if_pos hpath, h, Option.getD_some] at hstep
      rw [List.foldl_cons, ih hstep]
      simp [routesAt, hpath]
    · rw [if_neg hpath, h] at hstep
      rw [List.foldl_cons, ih hstep]
      simp [routesAt, hpath]

/-- A path that is not there is opened by the header of its first route. -/
theorem find?_foldl_add_of_none (h : p.fragments.find? path = none) (routes : List Route) :
    (routes.foldl add p).fragments.find? path =
      (routesAt path routes).head?.map fun r =>
        (r.pathHeader p.hasQuota).lines ++ (routesAt path routes).flatMap (·.operation.lines) := by
  induction routes generalizing p with
  | nil => simpa [routesAt] using h
  | cons r routes ih =>
    have hstep := find?_add p r path
    by_cases hpath : r.path = path
    · rw [if_pos hpath, h, Option.getD_none] at hstep
      rw [List.foldl_cons, find?_foldl_add_of_some hstep]
      simp [routesAt, hpath]
    · rw [if_neg hpath, h] at hstep
      rw [List.foldl_cons, ih hstep]
      simp [routesAt, hpath, add]

theorem keys_foldl_add (p : Paths) (routes : List Route) :
    (routes.foldl add p).fragments.keys =
      (routes.map Route.path).foldl (fun ks k => Table.withKey k ks) p.fragments.keys := by
  induction routes generalizing p with
  | nil => rfl
  | cons r routes ih =>
    rw [List.foldl_cons, ih, List.map_cons, List.foldl_cons, add, Table.keys_insert]

theorem keys_ofRoutes (hasQuota : Bool) (routes : List Route) :
    (ofRoutes hasQuota routes).fragments.keys = pathsOf routes := by
  rw [ofRoutes, keys_foldl_add]
  exact Table.foldl_withKey_nil _

/-- The lines of a path: the header of its first route, and then the operations of all. -/
def fragmentLines (hasQuota : Bool) (routes : List Route) : List String :=
  (routes.head?.map fun r =>
    (r.pathHeader hasQuota).lines ++ routes.flatMap (·.operation.lines)).getD []

theorem find?_ofRoutes (hasQuota : Bool) {routes : List Route} {path : String}
    (h : path ∈ pathsOf routes) : (ofRoutes hasQuota routes).fragments.find? path =
      some (fragmentLines hasQuota (routesAt path routes)) := by
  have hopened : ({ hasQuota } : Paths).fragments.find? path = none := rfl
  obtain ⟨r, rest, hroutes⟩ := List.exists_cons_of_ne_nil (routesAt_ne_nil h)
  rw [ofRoutes, find?_foldl_add_of_none hopened, fragmentLines, hroutes]
  rfl

theorem entries_ofRoutes (hasQuota : Bool) (routes : List Route) :
    (ofRoutes hasQuota routes).fragments.entries =
      (pathsOf routes).map fun path => (path, fragmentLines hasQuota (routesAt path routes)) := by
  rw [← keys_ofRoutes hasQuota]
  refine Table.entries_eq _ fun path hpath => ?_
  rw [keys_ofRoutes] at hpath
  exact find?_ofRoutes hasQuota hpath

theorem count_ofRoutes (hasQuota : Bool) (routes : List Route) :
    (ofRoutes hasQuota routes).count = (pathsOf routes).length := by
  rw [count, Table.size, entries_ofRoutes, List.length_map]

theorem lines_ofRoutes (hasQuota : Bool) (routes : List Route) :
    (ofRoutes hasQuota routes).lines =
      (pathsOf routes).flatMap fun path => fragmentLines hasQuota (routesAt path routes) := by
  rw [lines, Table.values, entries_ofRoutes, List.map_map, List.flatMap_def]
  rfl

end Paths

theorem nodup_pathsOf (routes : List Route) : (pathsOf routes).Nodup := by
  rw [← Paths.keys_ofRoutes false]
  exact (Paths.ofRoutes false routes).fragments.nodup

/-- Distinct paths that cover the routes divide them. -/
theorem length_flatMap_routesAt {paths : List String} (hnodup : paths.Nodup) {routes : List Route}
    (hpaths : ∀ r ∈ routes, r.path ∈ paths) :
    (paths.flatMap fun path => routesAt path routes).length = routes.length := by
  induction paths generalizing routes with
  | nil =>
    cases routes with
    | nil => rfl
    | cons r routes => exact absurd (hpaths r (by simp)) (by simp)
  | cons first paths ih =>
    obtain ⟨hfirst, hnodup⟩ := List.nodup_cons.mp hnodup
    -- the routes at the other paths, which the induction hypothesis divides
    have hothers : ∀ r ∈ routes.filter (·.path ≠ first), r.path ∈ paths := by
      intro r hr
      obtain ⟨hr, hne⟩ := List.mem_filter.mp hr
      exact (List.mem_cons.mp (hpaths r hr)).resolve_left (by simpa using hne)
    have hsame : ∀ path ∈ paths,
        routesAt path (routes.filter (·.path ≠ first)) = routesAt path routes := by
      intro path hpath
      have hne : path ≠ first := fun he => hfirst (he ▸ hpath)
      rw [routesAt, List.filter_filter]
      refine List.filter_congr fun r _ => ?_
      by_cases hr : r.path = path <;> simp [hr, hne]
    have hsplit : (routesAt first routes).length + (routes.filter (·.path ≠ first)).length =
        routes.length := by
      rw [routesAt, ← List.countP_eq_length_filter, ← List.countP_eq_length_filter,
        List.length_eq_countP_add_countP (fun r : Route => decide (r.path = first))]
      simp
    have ih := ih hnodup hothers
    rw [List.flatMap_def, List.map_congr_left hsame, ← List.flatMap_def] at ih
    rw [List.flatMap_cons, List.length_append, ih, hsplit]

/-! ### The order of routes -/

/-- A route whose path has occurred before adds no path. -/
theorem pathsOf_append_cons {routes : List Route} {r : Route} (h : r.path ∈ pathsOf routes)
    (later : List Route) : pathsOf (routes ++ r :: later) = pathsOf (routes ++ later) := by
  rw [pathsOf, List.mem_eraseDups] at h
  simp [pathsOf, List.eraseDups_append, List.cons_removeAll, h]

theorem routesAt_swap {r s : Route} (hne : r.path ≠ s.path) (path : String)
    (before after : List Route) :
    routesAt path (before ++ r :: s :: after) = routesAt path (before ++ s :: r :: after) := by
  simp only [routesAt, List.filter_append, List.append_cancel_left_eq]
  -- at most one of the two routes has the path
  by_cases hr : r.path = path
  · have hs : s.path ≠ path := fun hs => hne (hr.trans hs.symm)
    simp [hr, hs]
  · simp [List.filter_cons, hr]

namespace Paths

theorem hasQuota_foldl_add (p : Paths) (routes : List Route) :
    (routes.foldl add p).hasQuota = p.hasQuota := by
  induction routes generalizing p with
  | nil => rfl
  | cons r routes ih => exact ih (p.add r)

theorem ofRoutes_append_singleton (hasQuota : Bool) (routes : List Route) (r : Route) :
    ofRoutes hasQuota (routes ++ [r]) = (ofRoutes hasQuota routes).add r := by
  rw [ofRoutes, List.foldl_append]
  rfl

/-- A route with a new path puts its lines after all others. -/
theorem lines_add_of_new (p : Paths) {r : Route} (h : r.path ∉ p.fragments.keys) :
    (p.add r).lines = p.lines ++ ((r.pathHeader p.hasQuota).lines ++ r.operation.lines) := by
  have hnone : p.fragments.find? r.path = none := by
    rw [← Option.not_isSome_iff_eq_none]
    exact fun hsome => h (Table.contains_iff.mp hsome)
  rw [add, hnone, Option.getD_none]
  simp only [lines, Table.values, Table.insert, Table.putIn_of_not_mem h, List.map_append,
    List.flatten_append, List.map_cons, List.map_nil, List.flatten_singleton]

/-- Routes with the same paths in the same order, and the same routes at each of them, have the same
lines. -/
theorem lines_ofRoutes_congr (hasQuota : Bool) {routes routes' : List Route}
    (hpaths : pathsOf routes = pathsOf routes')
    (hroutes : ∀ path, routesAt path routes = routesAt path routes') :
    (ofRoutes hasQuota routes).lines = (ofRoutes hasQuota routes').lines := by
  simp only [lines_ofRoutes, hpaths, hroutes]

/-- Adding routes one after the other groups them by path, for every list of routes: the lines are
those of the distinct paths in the order of their first appearance, each with the header of its first
route and then the operations of all its routes in order, and as many paths are counted. The lines
that a route adds to its path are its own, whatever was added before. A route with a new path adds
its lines at the end, and two neighbours with different paths can change places if both paths have
occurred before them. -/
theorem ofRoutes_grouped (hasQuota : Bool) (routes : List Route) :
    (ofRoutes hasQuota routes).lines =
      (pathsOf routes).flatMap (fun path => fragmentLines hasQuota (routesAt path routes)) ∧
    (ofRoutes hasQuota routes).count = (pathsOf routes).length ∧
    (∀ r : Route, ∃ block, ∀ (p : Paths) (path : String), (p.add r).fragments.find? path =
      if r.path = path then
        some ((p.fragments.find? path).getD (r.pathHeader p.hasQuota).lines ++ block)
      else p.fragments.find? path) ∧
    (∀ r : Route, r.path ∉ pathsOf routes → (ofRoutes hasQuota (routes ++ [r])).lines =
      (ofRoutes hasQuota routes).lines ++ ((r.pathHeader hasQuota).lines ++ r.operation.lines)) ∧
    (∀ (r s : Route) (later : List Route), r.path ∈ pathsOf routes → s.path ∈ pathsOf routes →
      r.path ≠ s.path → (ofRoutes hasQuota (routes ++ r :: s :: later)).lines =
        (ofRoutes hasQuota (routes ++ s :: r :: later)).lines) := by
  refine ⟨lines_ofRoutes hasQuota routes, count_ofRoutes hasQuota routes,
    fun r => ⟨r.operation.lines, fun p path => find?_add p r path⟩, fun r hnew => ?_,
    fun r s later hr hs hne => ?_⟩
  · rw [← keys_ofRoutes hasQuota] at hnew
    rw [ofRoutes_append_singleton, lines_add_of_new _ hnew, ofRoutes, hasQuota_foldl_add]
  · refine lines_ofRoutes_congr hasQuota ?_ fun path => routesAt_swap hne path routes later
    have hr' := pathsOf_append_cons hr
    have hs' := pathsOf_append_cons hs
    rw [hr' (s :: later), hs' later, hs' (r :: later), hr' later]

/-- Two paths with two routes each, of which the later two can change places. -/
theorem ofRoutes_grouped_swapped :
    let r (method : Method) (path : String) : Route := { (default : Route) with method, path }
    let routes := [r .get "/b/:id", r .get "/a"]
    (ofRoutes true (routes ++ [r .put "/b/:id", r .post "/a"])).lines =
      (ofRoutes true (routes ++ [r .post "/a", r .put "/b/:id"])).lines ∧
    (ofRoutes true routes).count = 2 ∧
    (ofRoutes true (routes ++ [r .get "/c"])).lines.take (ofRoutes true routes).lines.length =
      (ofRoutes true routes).lines := by
  intro r routes
  obtain ⟨-, hcount, -, hnew, hswap⟩ := ofRoutes_grouped true routes
  refine ⟨hswap _ _ [] (by decide) (by decide) (by decide), ?_, ?_⟩
  · rw [hcount]
    decide
  · rw [hnew _ (by decide)]
    exact List.take_left

end Paths

end RouteDoc
