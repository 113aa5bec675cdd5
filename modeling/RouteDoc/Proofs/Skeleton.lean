import RouteDoc.Proofs.Grouping
import RouteDoc.Proofs.PathForm
import RouteDoc.Proofs.Rows

/-! The skeleton of a document. Whatever texts the sources hold, the lines of a generated document
are where the document's structure puts them: the depth of a line says whether it opens a part of the
document, a path, a method or a model, or is under one of these. -/

namespace RouteDoc

open Text

/-- The line that opens a path. -/
def pathLine (path : String) : String := "  " ++ Path.documentForm path ++ ":"

/-- The line with the controller of a path. -/
def controllerLine (controller : String) : String :=
  "    x-swagger-router-controller: " ++ quote controller

/-- The line that opens the mark of the default quota. -/
def quotaLine : String := "    x-a127-apply:"

/-- The line that opens a method. -/
def methodLine (m : Method) : String := "    " ++ m.name ++ ":"

def isMethodLine (line : String) : Bool := line ∈ Method.all.map methodLine

/-- The line that opens a model. -/
def modelLine (name : String) : String := "  " ++ name ++ ":"

/-- The line of the model that default responses have. -/
def defaultModelLine : String := "  DefaultResponse: \x7b\x7d"

/-- The lines below the key of a path with the given routes. -/
structure PathBody (hasQuota : Bool) (routes : List Route) (lines : List String) : Prop where
  /-- At depth four are the controller, the mark of the quota, and one method for each route. -/
  marks : ∃ r, routes.head? = some r ∧ lines.filter (isAt 4) =
    controllerLine r.controller :: ((if hasQuota then [quotaLine] else []) ++
      routes.map (methodLine ·.method))
  distinct : (routes.map (methodLine ·.method)).Nodup
  others : ∀ line ∈ lines, isAt 4 line = true ∨ Deep 6 line

/-- The lines of the paths of routes. -/
structure PathsOutline (hasQuota : Bool) (routes : List Route) (lines : List String) : Prop where
  keys : lines.filter (isAt 2) = (pathsOf routes).map pathLine
  distinct : ((pathsOf routes).map pathLine).Nodup
  parts : ∃ below : String → List String,
    lines = (pathsOf routes).flatMap (fun path => pathLine path :: below path) ∧
    sections 2 lines = (pathsOf routes).map (fun path => (pathLine path, below path)) ∧
    ∀ path ∈ pathsOf routes, PathBody hasQuota (routesAt path routes) (below path)

/-! ### Key lines -/

theorem methodLine_inj {m m' : Method} (h : methodLine m = methodLine m') : m = m' := by
  revert h
  cases m <;> cases m' <;> decide

theorem isAt_methodLine (m : Method) : isAt 4 (methodLine m) = true := by
  cases m <;> decide

theorem oneLine_methodLine (m : Method) : OneLine (methodLine m) := by
  cases m <;> decide

theorem trimmed_methodLine (m : Method) : trimmed (methodLine m) = methodLine m :=
  trimmed_append_singleton rfl (by decide)

theorem isMethodLine_methodLine (m : Method) : isMethodLine (methodLine m) = true := by
  simpa [isMethodLine] using ⟨m, m.mem_all, rfl⟩

/-- Only a line at depth four opens a method. -/
theorem isAt_of_isMethodLine {line : String} (h : isMethodLine line = true) :
    isAt 4 line = true := by
  simp only [isMethodLine, List.mem_map, decide_eq_true_eq] at h
  obtain ⟨m, -, rfl⟩ := h
  exact isAt_methodLine m

theorem isAt_keyLine {text : String} (hne : text ≠ "")
    (hblank : ∀ c ∈ text.toList, isBlank c = false) : isAt 2 ("  " ++ text ++ ":") = true := by
  obtain ⟨c, cs, hcs⟩ := List.exists_cons_of_ne_nil (l := text.toList) (by simpa using hne)
  have hline : ("  " ++ text ++ ":").toList = List.replicate 2 ' ' ++ c :: (cs ++ [':']) := by
    simp [hcs]
  exact isAt_of_toList hline (hblank c (by simp [hcs]))

theorem isAt_pathLine {r : Route} (h : r.Plain) : isAt 2 (pathLine r.path) = true :=
  isAt_keyLine (Path.IsDeclared.documentForm_ne_empty h.path.1 h.path.2)
    (Path.IsDeclared.isBlank_documentForm h.path.1)

theorem toList_controllerLine (controller : String) :
    ∃ rest, (controllerLine controller).toList = List.replicate 4 ' ' ++ 'x' :: rest := by
  have hkey : "    x-swagger-router-controller: " = "    x" ++ "-swagger-router-controller: " := by
    decide
  have hline : controllerLine controller =
      "    x" ++ ("-swagger-router-controller: " ++ quote controller) := by
    rw [← String.append_assoc]
    exact congrArg (· ++ quote controller) hkey
  rw [hline, String.toList_append]
  exact ⟨_, List.append_assoc [' ', ' ', ' ', ' '] ['x'] _⟩

theorem isAt_controllerLine (controller : String) : isAt 4 (controllerLine controller) = true := by
  obtain ⟨rest, hline⟩ := toList_controllerLine controller
  exact isAt_of_toList hline (by decide)

/-- No method has a name that starts as the line of a controller does. -/
theorem isMethodLine_controllerLine (controller : String) :
    isMethodLine (controllerLine controller) = false := by
  obtain ⟨rest, hline⟩ := toList_controllerLine controller
  have hfifth : (controllerLine controller).toList[4]? = some 'x' := by
    rw [hline]
    rfl
  rw [Bool.eq_false_iff]
  intro h
  simp only [isMethodLine, List.mem_map, decide_eq_true_eq] at h
  obtain ⟨m, -, hm⟩ := h
  rw [← hm] at hfifth
  cases m <;> exact absurd hfifth (by decide)

/-- A line that is at depth two, or blank or deeper than four, opens no method. -/
theorem isMethodLine_of_not_isAt {line : String} (h : isAt 4 line = false) :
    isMethodLine line = false := by
  rw [Bool.eq_false_iff]
  intro hline
  rw [isAt_of_isMethodLine hline] at h
  cases h

/-! ### The lines of a path -/

/-- The lines of operations, at depth four, are their methods. -/
theorem filter_operations {routes : List Route} (h : ∀ r ∈ routes, r.Plain) :
    (routes.flatMap (·.operation.lines)).filter (isAt 4) = routes.map (methodLine ·.method) ∧
    (routes.flatMap (·.operation.lines)).filter isMethodLine = routes.map (methodLine ·.method) ∧
    ∀ line ∈ routes.flatMap (·.operation.lines),
      OneLine line ∧ (isAt 4 line = true ∨ Deep 6 line) := by
  induction routes with
  | nil => simp
  | cons r routes ih =>
    obtain ⟨rows, hlines, hrows⟩ := Route.operation_lines_eq (h r (by simp))
    obtain ⟨hmarks, hmethods, hothers⟩ := ih fun r hr => h r (by simp [hr])
    have hdeep : rows.filter (isAt 4) = [] := hrows.filter_isAt (by decide)
    have hnone : rows.filter isMethodLine = [] := by
      rw [List.filter_eq_nil_iff] at hdeep ⊢
      exact fun row hrow hmethod => hdeep row hrow (isAt_of_isMethodLine hmethod)
    have hkey : isAt 4 (methodLine r.method) = true := isAt_methodLine r.method
    change r.operation.lines = methodLine r.method :: rows at hlines
    rw [List.flatMap_cons, hlines]
    refine ⟨?_, ?_, ?_⟩
    · rw [List.filter_append, List.filter_cons_of_pos hkey, hdeep, hmarks]
      rfl
    · rw [List.filter_append, List.filter_cons_of_pos (isMethodLine_methodLine _), hnone, hmethods]
      rfl
    · intro line hmem
      simp only [List.cons_append, List.mem_cons, List.mem_append] at hmem
      rcases hmem with rfl | hmem | hmem
      · exact ⟨oneLine_methodLine r.method, .inl hkey⟩
      · exact ⟨(hrows line hmem).1, .inr (hrows line hmem).2⟩
      · exact hothers line hmem

/-- The lines of a path below its key. -/
def pathBody (hasQuota : Bool) (routes : List Route) : List String :=
  (routes.head?.map fun r =>
    controllerLine r.controller :: ((if hasQuota then quotaRows else []) ++
      routes.flatMap (·.operation.lines))).getD []

theorem Route.Plain.oneLine_documentPath {r : Route} (h : r.Plain) : OneLine r.documentPath :=
  fun hfeed => absurd (Path.IsDeclared.isBlank_documentForm h.path.1 _ hfeed) (by decide)

theorem fragmentLines_eq {hasQuota : Bool} {routes : List Route} {r : Route}
    (hhead : routes.head? = some r) (hplain : r.Plain) :
    Paths.fragmentLines hasQuota routes = pathLine r.path :: pathBody hasQuota routes := by
  have hheader : (r.pathHeader hasQuota).lines = _ :=
    PathHeader.lines_eq hplain.oneLine_documentPath hplain.controller
  rw [Paths.fragmentLines, pathBody, hhead, Option.map_some, Option.map_some, Option.getD_some,
    Option.getD_some, hheader]
  rfl

theorem quotaRows_marks (hasQuota : Bool) :
    (if hasQuota then quotaRows else []).filter (isAt 4) = (if hasQuota then [quotaLine] else []) ∧
    (if hasQuota then quotaRows else []).filter isMethodLine = [] ∧
    ∀ line ∈ (if hasQuota then quotaRows else []),
      OneLine line ∧ (isAt 4 line = true ∨ Deep 6 line) := by
  have hdeep : Deep 6 "      defaultQuota: \x7b\x7d" := Indented.deep (by decide)
  cases hasQuota with
  | false => simp
  | true =>
    refine ⟨by decide, by decide, fun line hline => ?_⟩
    simp only [if_true, quotaRows, List.mem_cons, List.not_mem_nil, or_false] at hline
    rcases hline with rfl | rfl
    · exact ⟨by decide, .inl (by decide)⟩
    · exact ⟨by decide, .inr hdeep⟩

/-- Below the key of a path, the lines at depth four are its marks and its methods. -/
theorem pathBody_marks (hasQuota : Bool) {routes : List Route} {r : Route}
    (hhead : routes.head? = some r) (hplain : ∀ r ∈ routes, r.Plain) :
    (pathBody hasQuota routes).filter (isAt 4) = controllerLine r.controller ::
      ((if hasQuota then [quotaLine] else []) ++ routes.map (methodLine ·.method)) ∧
    (pathBody hasQuota routes).filter isMethodLine = routes.map (methodLine ·.method) ∧
    ∀ line ∈ pathBody hasQuota routes, OneLine line ∧ (isAt 4 line = true ∨ Deep 6 line) := by
  obtain ⟨hmarks, hmethods, hothers⟩ := filter_operations hplain
  obtain ⟨hquotaMarks, hquotaMethods, hquotaOthers⟩ := quotaRows_marks hasQuota
  have hcontroller := isAt_controllerLine r.controller
  have hbody : pathBody hasQuota routes = controllerLine r.controller ::
      ((if hasQuota then quotaRows else []) ++ routes.flatMap (·.operation.lines)) := by
    rw [pathBody, hhead, Option.map_some, Option.getD_some]
  rw [hbody]
  refine ⟨?_, ?_, ?_⟩
  · rw [List.filter_cons_of_pos hcontroller, List.filter_append, hquotaMarks, hmarks]
  · rw [List.filter_cons_of_neg (by simp [isMethodLine_controllerLine]), List.filter_append,
      hquotaMethods, hmethods, List.nil_append]
  · intro line hline
    simp only [List.mem_cons, List.mem_append] at hline
    rcases hline with rfl | hline | hline
    · have honeLine := (hplain r (List.mem_of_head? hhead)).controller.quote
      exact ⟨(show OneLine "    x-swagger-router-controller: " by decide).append honeLine,
        .inl hcontroller⟩
    · exact hquotaOthers line hline
    · exact hothers line hline

/-! ### The lines of all paths -/

section Paths

variable {hasQuota : Bool} {routes : List Route}

theorem exists_head_routesAt {path : String} (h : path ∈ pathsOf routes) :
    ∃ r, (routesAt path routes).head? = some r ∧ r ∈ routes ∧ r.path = path := by
  obtain ⟨r, rest, hroutes⟩ := List.exists_cons_of_ne_nil (routesAt_ne_nil h)
  have hr : r ∈ routesAt path routes := by simp [hroutes]
  exact ⟨r, by simp [hroutes], mem_routesAt.mp hr⟩

theorem lines_ofRoutes_eq (hasQuota : Bool) (hplain : ∀ r ∈ routes, r.Plain) :
    (Paths.ofRoutes hasQuota routes).lines = (pathsOf routes).flatMap fun path =>
      pathLine path :: pathBody hasQuota (routesAt path routes) := by
  rw [Paths.lines_ofRoutes, List.flatMap_def, List.flatMap_def]
  congr 1
  refine List.map_congr_left fun path hpath => ?_
  obtain ⟨r, hhead, hr, rfl⟩ := exists_head_routesAt hpath
  exact fragmentLines_eq hhead (hplain r hr)

/-- Routes with one path have different methods, as routes are told apart by both. -/
theorem nodup_methods (hkeys : (routes.map Route.key).Nodup) (path : String) :
    ((routesAt path routes).map (methodLine ·.method)).Nodup := by
  have hsub : ((routesAt path routes).map Route.key).Nodup :=
    hkeys.sublist (List.filter_sublist.map Route.key)
  rw [List.Nodup, List.pairwise_map] at hsub ⊢
  refine hsub.imp_of_mem fun {r s} hr hs hne heq => hne ?_
  rw [Route.key, Route.key, methodLine_inj heq, (mem_routesAt.mp hr).2, (mem_routesAt.mp hs).2]

theorem isDeclared_of_mem_pathsOf (hplain : ∀ r ∈ routes, r.Plain) {path : String}
    (h : path ∈ pathsOf routes) : Path.IsDeclared path := by
  obtain ⟨r, hr, rfl⟩ := mem_pathsOf.mp h
  exact (hplain r hr).path.1

theorem pathLine_inj {p q : String} (hp : Path.IsDeclared p) (hq : Path.IsDeclared q)
    (h : pathLine p = pathLine q) : p = q := by
  refine hp.documentForm_inj hq ?_
  have hlist := congrArg String.toList h
  simp only [pathLine, String.toList_append, List.append_cancel_right_eq,
    List.append_cancel_left_eq] at hlist
  exact String.toList_inj.mp hlist

/-- The routes of an API give paths that are laid out one after the other. -/
theorem pathsOutline_ofRoutes (hplain : ∀ r ∈ routes, r.Plain)
    (hkeys : (routes.map Route.key).Nodup) :
    PathsOutline hasQuota routes (Paths.ofRoutes hasQuota routes).lines := by
  have hbody : ∀ path ∈ pathsOf routes, PathBody hasQuota (routesAt path routes)
      (pathBody hasQuota (routesAt path routes)) := by
    intro path hpath
    obtain ⟨r, hhead, -, -⟩ := exists_head_routesAt hpath
    obtain ⟨hmarks, -, hothers⟩ := pathBody_marks hasQuota hhead
      fun r hr => hplain r (mem_routesAt.mp hr).1
    exact ⟨⟨r, hhead, hmarks⟩, nodup_methods hkeys path, fun line hline => (hothers line hline).2⟩
  have hparts : ∀ part ∈ (pathsOf routes).map fun path =>
      (pathLine path, pathBody hasQuota (routesAt path routes)),
      isAt 2 part.1 = true ∧ ∀ line ∈ part.2, isAt 2 line = false := by
    intro part hpart
    obtain ⟨path, hpath, rfl⟩ := List.mem_map.mp hpart
    refine ⟨?_, fun line hline => ?_⟩
    · obtain ⟨r, hr, rfl⟩ := mem_pathsOf.mp hpath
      exact isAt_pathLine (hplain r hr)
    · rcases (hbody path hpath).others line hline with h | h
      · exact isAt_unique h (by decide)
      · exact isAt_of_deep h (by decide)
  have hlines := lines_ofRoutes_eq hasQuota hplain
  have hsections := sections_flatMap hparts
  have hfilter := filter_flatMap_sections hparts
  rw [List.flatMap_map] at hsections hfilter
  refine ⟨?_, ?_, _, hlines, ?_, hbody⟩
  · rw [hlines, hfilter, List.map_map]
    rfl
  · rw [List.Nodup, List.pairwise_map]
    refine (nodup_pathsOf routes).imp_of_mem fun {p q} hp hq hne heq => hne ?_
    exact pathLine_inj (isDeclared_of_mem_pathsOf hplain hp) (isDeclared_of_mem_pathsOf hplain hq)
      heq
  · rw [hlines, hsections]

/-- Each route has the line of its method among the lines of the paths. -/
theorem filter_isMethodLine (hplain : ∀ r ∈ routes, r.Plain) :
    (Paths.ofRoutes hasQuota routes).lines.filter isMethodLine =
      ((pathsOf routes).flatMap fun path => routesAt path routes).map (methodLine ·.method) := by
  have hpath : ∀ path ∈ pathsOf routes,
      (pathLine path :: pathBody hasQuota (routesAt path routes)).filter isMethodLine =
        (routesAt path routes).map (methodLine ·.method) := by
    intro path hpath
    obtain ⟨r, hhead, hr, rfl⟩ := exists_head_routesAt hpath
    obtain ⟨-, hmethods, -⟩ := pathBody_marks hasQuota hhead
      fun r hr => hplain r (mem_routesAt.mp hr).1
    have hkey : isMethodLine (pathLine r.path) = false :=
      isMethodLine_of_not_isAt (isAt_unique (isAt_pathLine (hplain r hr)) (by decide))
    rw [List.filter_cons_of_neg (by simp [hkey]), hmethods]
  rw [lines_ofRoutes_eq hasQuota hplain, List.filter_flatMap, List.map_flatMap, List.flatMap_def,
    List.map_congr_left hpath, ← List.flatMap_def]

theorem length_filter_isMethodLine (hplain : ∀ r ∈ routes, r.Plain) :
    ((Paths.ofRoutes hasQuota routes).lines.filter isMethodLine).length = routes.length := by
  have hcover : ∀ r ∈ routes, r.path ∈ pathsOf routes := fun r hr => mem_pathsOf.mpr ⟨r, hr, rfl⟩
  rw [filter_isMethodLine hplain, List.length_map,
    length_flatMap_routesAt (nodup_pathsOf routes) hcover]

theorem rows_lines_ofRoutes (hplain : ∀ r ∈ routes, r.Plain) :
    Rows 2 (Paths.ofRoutes hasQuota routes).lines := by
  intro line hline
  rw [lines_ofRoutes_eq hasQuota hplain] at hline
  obtain ⟨path, hpath, hline⟩ := List.mem_flatMap.mp hline
  obtain ⟨r, hhead, hr, rfl⟩ := exists_head_routesAt hpath
  rcases List.mem_cons.mp hline with rfl | hline
  · refine ⟨?_, deep_of_isAt (isAt_pathLine (hplain r hr)) (by decide)⟩
    exact ((show OneLine "  " by decide).append (hplain r hr).oneLine_documentPath).append
      (by decide)
  · obtain ⟨-, -, hothers⟩ := pathBody_marks hasQuota hhead
      fun r hr => hplain r (mem_routesAt.mp hr).1
    obtain ⟨honeLine, hdepth⟩ := hothers line hline
    refine ⟨honeLine, hdepth.elim (fun h => deep_of_isAt h (by decide)) fun h => ?_⟩
    exact h.mono (by decide)

end Paths

/-! ### The lines of the models -/

theorem isAt_modelLine {m : String × Fields} (h : PlainModel m) : isAt 2 (modelLine m.1) = true :=
  isAt_keyLine h.2.1 fun c hc => isBlank_of_isWord (h.1 c hc)

/-- The lines of models, at depth two, are their names. -/
theorem filter_modelLines {models : List (String × Fields)} (h : ∀ m ∈ models, PlainModel m) :
    Rows 2 (models.flatMap fun m => Schema.modelLines m.1 m.2) ∧
      (models.flatMap fun m => Schema.modelLines m.1 m.2).filter (isAt 2) =
        models.map (modelLine ·.1) := by
  induction models with
  | nil => exact ⟨Rows.nil, rfl⟩
  | cons m models ih =>
    obtain ⟨hrest, hfilter⟩ := ih fun n hn => h n (by simp [hn])
    have hm := h m (by simp)
    obtain ⟨rows, hlines, hrows⟩ := Schema.modelLines_eq m.1 hm.2.2
    have hkey : Row 2 (modelLine m.1) :=
      ((show Row 2 "  " by decide).append hm.1.oneLine).append (by decide)
    change Schema.modelLines m.1 m.2 = modelLine m.1 :: rows at hlines
    rw [List.flatMap_cons, hlines]
    refine ⟨(Rows.cons hkey (hrows.mono (by decide))).append hrest, ?_⟩
    rw [List.filter_append, List.filter_cons_of_pos (isAt_modelLine hm),
      hrows.filter_isAt (by decide), hfilter]
    rfl

theorem definitionLines_eq {models : List (String × Fields)} (h : ∀ m ∈ models, PlainModel m) :
    ∃ rows, Schema.definitionLines models = "definitions:" :: rows ∧ Rows 2 rows ∧
      rows.filter (isAt 2) = models.map (modelLine ·.1) ++ [defaultModelLine] := by
  obtain ⟨hrows, hfilter⟩ := filter_modelLines h
  have hdefault : Row 2 defaultModelLine := by decide
  have hat : isAt 2 defaultModelLine = true := by decide
  have hline : "  " ++ Schema.defaultModel ++ ": \x7b\x7d" = defaultModelLine := by decide
  refine ⟨_ ++ [defaultModelLine], ?_, hrows.append (Rows.cons hdefault Rows.nil), ?_⟩
  · rw [Schema.definitionLines, hline, List.cons_append]
  · rw [List.filter_append, hfilter, List.filter_cons_of_pos hat, List.filter_nil]

/-! ### The document -/

/-- The routes of an API are under their own keys, so no two have one method and one path. -/
theorem Api.nodup_keys (routes : List Route) (definitions : Table String Fields) :
    ((Api.ofRoutes routes definitions).routes.values.map Route.key).Nodup := by
  have hkeys : (Api.ofRoutes routes definitions).routes.values.map Route.key =
      (Table.ofList (routes.map fun r => (r.key, r))).keys := by
    simp only [Api.ofRoutes, Table.values, Table.mapValues, Table.keys, List.map_map]
    refine List.map_congr_left fun e he => ?_
    obtain ⟨r, -, rfl⟩ := List.mem_map.mp (Table.mem_ofList he)
    rfl
  rw [hkeys]
  exact Table.nodup _

/-- The lines of a document stay apart in its text, and nothing follows the last. -/
theorem Api.pieces_text {api : Api} (hplain : api.Plain) {settings : Settings}
    (htitle : OneLine settings.title) (hhost : OneLine settings.host)
    (hbase : OneLine settings.basePath) (sources blocks : Nat) :
    pieces (api.document settings sources blocks).text =
      Document.lines settings (api.paths settings.includeQuota).lines api.models ++ [""] := by
  obtain ⟨head, hhead, -, hheadLines⟩ :
    ∃ head, (Document.head settings).lines = head ++ ["paths:"] ∧ head.length = 9 ∧
      ∀ line ∈ head, OneLine line := Head.lines_eq htitle hhost hbase
  obtain ⟨rows, hdefinitions, hrows, -⟩ := definitionLines_eq hplain.models
  have hpaths : Rows 2 (api.paths settings.includeQuota).lines := rows_lines_ofRoutes hplain.routes
  refine pieces_unlines (fun line hline => ?_) (by simp [Document.lines, hdefinitions])
  simp only [Document.lines, hhead, hdefinitions, List.mem_append, List.mem_cons, List.not_mem_nil,
    or_false] at hline
  rcases hline with ((hline | rfl) | hline) | rfl | hline
  · exact hheadLines line hline
  · decide
  · exact (hpaths line hline).1
  · decide
  · exact (hrows line hline).1

/-- The text of a document is its head, its paths and its models, line by line. -/
theorem Api.pieces_document {api : Api} (hplain : api.Plain) {settings : Settings}
    (htitle : OneLine settings.title) (hhost : OneLine settings.host)
    (hbase : OneLine settings.basePath) (sources blocks : Nat) :
    ∃ head definitions, pieces (api.document settings sources blocks).text =
        head ++ "paths:" :: ((api.paths settings.includeQuota).lines ++
          "definitions:" :: definitions) ∧
      head.length = 9 ∧ Rows 2 definitions ∧
      definitions.filter (isAt 2) = api.models.map (modelLine ·.1) ++ [defaultModelLine] := by
  obtain ⟨head, hhead, hlength, -⟩ :
    ∃ head, (Document.head settings).lines = head ++ ["paths:"] ∧ head.length = 9 ∧
      ∀ line ∈ head, OneLine line := Head.lines_eq htitle hhost hbase
  obtain ⟨rows, hdefinitions, hrows, hmodels⟩ := definitionLines_eq hplain.models
  have hend : Rows 2 [""] := by
    intro line hline
    rw [List.mem_singleton.mp hline]
    exact ⟨by decide, .inl (by decide)⟩
  refine ⟨head, rows ++ [""], ?_, hlength, hrows.append hend, ?_⟩
  · rw [Api.pieces_text hplain htitle hhost hbase]
    simp [Document.lines, hhead, hdefinitions]
  · have hblank : isAt 2 "" = false := by decide
    rw [List.filter_append, hmodels, List.filter_cons_of_neg (by simp [hblank]), List.filter_nil,
      List.append_nil]

theorem generate_eq_ok {settings : Settings} {sources : List Source} {g : Generated}
    (h : (generate settings sources).result = .ok g) :
    ∃ catalog api, (Catalog.collect sources).result = .ok catalog ∧
      (Api.ofCatalog catalog).result = .ok api ∧
      api.document settings sources.length catalog.blockCount = g := by
  obtain ⟨catalog, hcollect, h⟩ := Reading.bind_eq_ok_iff.mp h
  obtain ⟨api, hapi, h⟩ := Reading.bind_eq_ok_iff.mp h
  exact ⟨catalog, api, hcollect, hapi, Except.ok.inj h⟩

/-- The lines of a generated document. The tenth opens the paths, and after it only the line that
opens the models is at the margin. Between these two, the lines at depth two are the distinct paths,
and under each of them the lines at depth four are its marks and methods and all other lines are
deeper. After them, the lines at depth two are the models. -/
theorem generate_skeleton {settings : Settings} {sources : List Source} {g : Generated}
    (hgenerate : (generate settings sources).result = .ok g)
    (htitle : OneLine settings.title) (hhost : OneLine settings.host)
    (hbase : OneLine settings.basePath) (hsources : ∀ s ∈ sources, OneLine s.identifier) :
    ∃ api head paths definitions,
      (Catalog.collect sources >>= Api.ofCatalog).result = .ok api ∧
      pieces g.text = head ++ "paths:" :: (paths ++ "definitions:" :: definitions) ∧
      head.length = 9 ∧
      (paths ++ "definitions:" :: definitions).filter (isAt 0) = ["definitions:"] ∧
      PathsOutline settings.includeQuota api.routes.values paths ∧
      definitions.filter (isAt 2) = api.models.map (modelLine ·.1) ++ [defaultModelLine] ∧
      g.counts.paths = (paths.filter (isAt 2)).length ∧
      g.counts.routes = (paths.filter isMethodLine).length := by
  obtain ⟨catalog, api, hcollect, hapi, rfl⟩ := generate_eq_ok hgenerate
  have hplain : api.Plain := Api.plain_of_sources hsources hcollect hapi
  have hkeys : (api.routes.values.map Route.key).Nodup := by
    obtain ⟨routes, -, hroutes⟩ := Reading.bind_eq_ok_iff.mp hapi
    cases hroutes
    exact Api.nodup_keys routes _
  obtain ⟨head, definitions, hpieces, hlength, hrows, hmodels⟩ :=
    Api.pieces_document hplain htitle hhost hbase sources.length catalog.blockCount
  have hpaths : Rows 2 (api.paths settings.includeQuota).lines := rows_lines_ofRoutes hplain.routes
  have houtline : PathsOutline settings.includeQuota api.routes.values
    (api.paths settings.includeQuota).lines := pathsOutline_ofRoutes hplain.routes hkeys
  refine ⟨api, head, (api.paths settings.includeQuota).lines, definitions, ?_, hpieces, hlength, ?_,
    houtline, hmodels, ?_, ?_⟩
  · exact Reading.bind_eq_ok_iff.mpr ⟨catalog, hcollect, hapi⟩
  · have hmargin : isAt 0 "definitions:" = true := by decide
    rw [List.filter_append, hpaths.filter_isAt (by decide), List.filter_cons_of_pos hmargin,
      hrows.filter_isAt (by decide), List.nil_append]
  · rw [houtline.keys, List.length_map]
    exact Paths.count_ofRoutes settings.includeQuota api.routes.values
  · have hcount : ((api.paths settings.includeQuota).lines.filter isMethodLine).length =
        api.routes.values.length := length_filter_isMethodLine hplain.routes
    rw [hcount, Table.values, List.length_map]
    rfl

/-- Two methods of one path, with the mark of the quota. -/
theorem generate_skeleton_two_methods :
    let settings : Settings := { title := "T", host := "h", includeQuota := true }
    let sources : List Source :=
      [⟨"c", "/**\n@api {get} /:i It\n*/\n/**\n@api {put} /:i It\n*/"⟩]
    ∃ g head paths definitions, (generate settings sources).result = .ok g ∧
      pieces g.text = head ++ "paths:" :: (paths ++ "definitions:" :: definitions) ∧
      head.length = 9 ∧ (paths.filter (isAt 2)).length = 1 ∧
      (paths.filter isMethodLine).length = 2 := by
  intro settings sources
  have hcounts : (generate settings sources).result.toOption.map
      (fun g => (g.counts.paths, g.counts.routes)) = some (1, 2) := by decide +kernel
  obtain ⟨g, hg, hcounts⟩ := Option.map_eq_some_iff.mp hcounts
  have hgenerate : (generate settings sources).result = .ok g := by
    cases hresult : (generate settings sources).result with
    | error fault => simp [hresult, Except.toOption] at hg
    | ok g' => simpa [hresult, Except.toOption] using hg
  obtain ⟨-, head, paths, definitions, -, hpieces, hlength, -, -, -, hpaths, hroutes⟩ :=
    generate_skeleton hgenerate (by decide) (by decide) (by decide) (by decide)
  obtain ⟨hone, htwo⟩ := Prod.mk.inj hcounts
  exact ⟨g, head, paths, definitions, hgenerate, hpieces, hlength, hpaths.symm.trans hone,
    hroutes.symm.trans htwo⟩

end RouteDoc
