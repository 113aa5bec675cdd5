import RouteDoc.Proofs.ParameterSection

/-! The mark of the default quota. A document with the mark has two lines more for each path, directly
after the line of the path's controller, and is else the document without it. No text of a source makes
a line that could be taken for the mark. -/

namespace RouteDoc

open Text

/-- The line below the one that opens the mark. -/
def defaultQuotaLine : String := "      defaultQuota: \x7b\x7d"

/-- The lines without each line that opens the mark and the line after it. -/
def withoutQuota : List String → List String
  | [] => []
  | [line] => if line = quotaLine then [] else [line]
  | line :: next :: rest =>
    if line = quotaLine then withoutQuota rest else line :: withoutQuota (next :: rest)

/-- Lines without the mark, and the same lines with `n` marks in them, each directly after the line of a
controller. -/
inductive Marked : List String → List String → Nat → Prop
  | nil : Marked [] [] 0
  | line {line : String} {plain marked : List String} {n : Nat} (ne : line ≠ quotaLine)
      (rest : Marked plain marked n) : Marked (line :: plain) (line :: marked) n
  | mark {controller : String} {plain marked : List String} {n : Nat}
      (rest : Marked plain marked n) :
      Marked (controllerLine controller :: plain)
        (controllerLine controller :: quotaLine :: defaultQuotaLine :: marked) (n + 1)

theorem controllerLine_ne_quotaLine (controller : String) :
    controllerLine controller ≠ quotaLine :=
  (ne_append (by decide) (by decide) _).symm

namespace Marked

variable {plain marked plain' marked' before after : List String} {m n : Nat}

/-! ### Putting together -/

theorem refl {lines : List String} (h : quotaLine ∉ lines) : Marked lines lines 0 := by
  induction lines with
  | nil => exact .nil
  | cons line lines ih =>
    rw [List.mem_cons, not_or] at h
    exact .line (Ne.symm h.1) (ih h.2)

theorem append (h : Marked plain marked m) (h' : Marked plain' marked' n) :
    Marked (plain ++ plain') (marked ++ marked') (m + n) := by
  induction h with
  | nil => rwa [Nat.zero_add]
  | line hne _ ih => exact .line hne ih
  | mark _ ih =>
    rw [Nat.add_right_comm]
    exact .mark ih

theorem flatMap {α : Type} {xs : List α} {f g : α → List String}
    (h : ∀ x ∈ xs, Marked (f x) (g x) 1) : Marked (xs.flatMap f) (xs.flatMap g) xs.length := by
  induction xs with
  | nil => exact .nil
  | cons x xs ih =>
    rw [List.flatMap_cons, List.flatMap_cons, List.length_cons, Nat.add_comm]
    exact (h x (by simp)).append (ih fun y hy => h y (by simp [hy]))

/-! ### Taking apart -/

theorem quotaLine_not_mem (h : Marked plain marked n) : quotaLine ∉ plain := by
  induction h with
  | nil => exact List.not_mem_nil
  | line hne _ ih =>
    rw [List.mem_cons, not_or]
    exact ⟨Ne.symm hne, ih⟩
  | mark _ ih =>
    rw [List.mem_cons, not_or]
    exact ⟨(controllerLine_ne_quotaLine _).symm, ih⟩

theorem withoutQuota_cons {line : String} (h : line ≠ quotaLine) (rest : List String) :
    withoutQuota (line :: rest) = line :: withoutQuota rest := by
  cases rest <;> simp [withoutQuota, h]

/-- The marks can be taken out again. -/
theorem withoutQuota_eq (h : Marked plain marked n) : withoutQuota marked = plain := by
  induction h with
  | nil => rfl
  | line hne _ ih => rw [withoutQuota_cons hne, ih]
  | mark _ ih =>
    rw [withoutQuota_cons (controllerLine_ne_quotaLine _), withoutQuota, if_pos rfl, ih]

theorem count_eq (h : Marked plain marked n) : marked.count quotaLine = n := by
  induction h with
  | nil => rfl
  | line hne _ ih => rw [List.count_cons_of_ne hne, ih]
  | mark _ ih =>
    have hbelow : defaultQuotaLine ≠ quotaLine := by decide
    rw [List.count_cons_of_ne (controllerLine_ne_quotaLine _), List.count_cons_self,
      List.count_cons_of_ne hbelow, ih]

theorem length_eq (h : Marked plain marked n) : marked.length = plain.length + 2 * n := by
  induction h with
  | nil => rfl
  | line _ _ ih =>
    simp only [List.length_cons]
    omega
  | mark _ ih =>
    simp only [List.length_cons]
    omega

/-- Every mark is between the line of a controller and the line below the mark. -/
theorem exists_controller (h : Marked plain marked n) (hsplit : marked = before ++ quotaLine :: after) :
    ∃ controller before' after', before = before' ++ [controllerLine controller] ∧
      after = defaultQuotaLine :: after' := by
  induction h generalizing before with
  | nil => simp at hsplit
  | @line line _ _ _ hne _ ih =>
    cases before with
    | nil => exact absurd (List.cons.inj hsplit).1 hne
    | cons first before =>
      obtain ⟨rfl, hrest⟩ := List.cons.inj hsplit
      obtain ⟨controller, before', after', rfl, rfl⟩ := ih hrest
      exact ⟨controller, line :: before', after', rfl, rfl⟩
  | @mark controller _ marked _ _ ih =>
    match before with
    | [] => exact absurd (List.cons.inj hsplit).1 (controllerLine_ne_quotaLine _)
    | [first] =>
      obtain ⟨rfl, hrest⟩ := List.cons.inj hsplit
      exact ⟨controller, [], marked, rfl, (List.cons.inj hrest).2.symm⟩
    | [first, second] =>
      simp only [List.cons_append, List.nil_append, List.cons.injEq] at hsplit
      exact absurd hsplit.2.2.1 (by decide)
    | first :: second :: third :: before =>
      simp only [List.cons_append, List.cons.injEq] at hsplit
      obtain ⟨rfl, rfl, rfl, hrest⟩ := hsplit
      obtain ⟨controller', before', after', rfl, rfl⟩ := ih hrest
      exact ⟨controller', _ :: _ :: _ :: before', after', rfl, rfl⟩

end Marked

/-! ### Lines that are no mark -/

theorem quotaLine_ne_of_isAt {line : String} (h : isAt 2 line = true) : quotaLine ≠ line := by
  rintro rfl
  exact absurd h (by decide)

theorem Schema.quotaLine_not_mem_requiredLines (fields : Fields) :
    quotaLine ∉ requiredLines fields := by
  unfold requiredLines
  simp only
  split
  · exact List.not_mem_nil
  · simp only [List.mem_cons, List.mem_map, not_or, not_exists, not_and]
    exact ⟨by decide, fun name _ heq => ne_append (by decide) (by decide) name heq.symm⟩

theorem Schema.quotaLine_not_mem_propertiesLines (fields : Fields) :
    quotaLine ∉ propertiesLines fields := by
  unfold propertiesLines
  split
  · exact List.not_mem_nil
  · simp only [List.mem_cons, List.mem_flatMap, propertyLines, indent, List.mem_map, not_or,
      not_exists, not_and]
    refine ⟨by decide, fun e _ => ⟨?_, fun line _ heq => ?_⟩⟩
    · rw [String.append_assoc]
      exact ne_append (by decide) (by decide) _
    · exact ne_append (by decide) (by decide) line heq.symm

theorem Schema.quotaLine_not_mem_definitionLines {models : List (String × Fields)}
    (h : ∀ m ∈ models, PlainModel m) : quotaLine ∉ definitionLines models := by
  simp only [definitionLines, modelLines, List.cons_append, List.nil_append, List.mem_cons,
    List.mem_append, List.mem_flatMap, List.not_mem_nil, or_false, not_or, not_exists, not_and]
  refine ⟨by decide, fun m hm => ⟨?_, by decide, ?_, ?_⟩, by decide⟩
  · exact quotaLine_ne_of_isAt (isAt_modelLine (h m hm))
  · exact quotaLine_not_mem_requiredLines m.2
  · exact quotaLine_not_mem_propertiesLines m.2

theorem Head.quotaLine_not_mem {head : Head} (htitle : OneLine head.title)
    (hhost : OneLine head.host) (hbase : OneLine head.basePath) : quotaLine ∉ head.lines := by
  have hrows : ∀ row ∈ head.rows, OneLine row ∧ ¬ quotaLine.toList <+: row.toList := by
    have htitle := (show OneLine "  title: " by decide).append htitle.quote
    have hhost := (show OneLine "host: " by decide).append hhost.quote
    have hbase := (show OneLine "basePath: " by decide).append hbase
    simp only [rows, List.mem_cons, List.not_mem_nil, or_false, forall_eq_or_imp, forall_eq]
    refine ⟨by decide, by decide, by decide, ⟨htitle, ?_⟩, by decide, by decide, by decide,
      ⟨hhost, ?_⟩, ⟨hbase, ?_⟩, by decide⟩
    all_goals exact not_prefix_append (by decide) (by decide) _
  rw [lines_eq_layout]
  exact not_mem_layout (fun row hrow => (hrows row hrow).1) fun row hrow => (hrows row hrow).2

theorem Route.quotaLine_not_mem_operation {r : Route} (h : r.Plain) :
    quotaLine ∉ r.operation.lines := by
  obtain ⟨rows, hlines, hrows⟩ := r.operation_lines_eq h
  rw [hlines, List.mem_cons, not_or]
  exact ⟨by cases r.method <;> decide, hrows.not_mem (by decide : 4 < 6) (by decide)⟩

/-! ### Documents with and without the mark -/

theorem marked_fragment {routes : List Route} {r : Route} (hhead : routes.head? = some r)
    (hplain : ∀ r ∈ routes, r.Plain) :
    Marked (pathLine r.path :: pathBody false routes) (pathLine r.path :: pathBody true routes) 1 := by
  have hkey : quotaLine ≠ pathLine r.path :=
    quotaLine_ne_of_isAt (isAt_pathLine (hplain r (List.mem_of_head? hhead)))
  have hoperations : quotaLine ∉ routes.flatMap (·.operation.lines) := by
    rw [List.mem_flatMap]
    rintro ⟨s, hs, hmem⟩
    exact s.quotaLine_not_mem_operation (hplain s hs) hmem
  rw [pathBody, pathBody, hhead]
  exact .line hkey.symm (.mark (.refl hoperations))

/-- The lines of paths have one mark for each path. -/
theorem marked_paths {routes : List Route} (hplain : ∀ r ∈ routes, r.Plain) :
    Marked (Paths.ofRoutes false routes).lines (Paths.ofRoutes true routes).lines
      (pathsOf routes).length := by
  rw [lines_ofRoutes_eq false hplain, lines_ofRoutes_eq true hplain]
  refine Marked.flatMap fun path hpath => ?_
  obtain ⟨r, hhead, -, rfl⟩ := exists_head_routesAt hpath
  exact marked_fragment hhead fun s hs => hplain s (mem_routesAt.mp hs).1

/-- The settings with the mark of the quota or without it. -/
def Settings.withQuota (settings : Settings) (includeQuota : Bool) : Settings :=
  { settings with includeQuota }

section

variable {settings : Settings} {sources : List Source}

theorem marked_lines {pathLines pathLines' : List String} {models : List (String × Fields)} {n : Nat}
    (hmodels : ∀ m ∈ models, PlainModel m) (htitle : OneLine settings.title)
    (hhost : OneLine settings.host) (hbase : OneLine settings.basePath)
    (hpaths : Marked pathLines pathLines' n) :
    Marked (Document.lines settings pathLines models ++ [""])
      (Document.lines settings pathLines' models ++ [""]) n := by
  have hhead : quotaLine ∉ (Document.head settings).lines :=
    Head.quotaLine_not_mem htitle hhost hbase
  have hdefinitions := Schema.quotaLine_not_mem_definitionLines hmodels
  have hend : quotaLine ∉ [""] := by decide
  have hmarked := (((Marked.refl hhead).append hpaths).append (.refl hdefinitions)).append
    (.refl hend)
  rwa [Nat.zero_add, Nat.add_zero] at hmarked

theorem Api.marked_document {api : Api} (hplain : api.Plain) (htitle : OneLine settings.title)
    (hhost : OneLine settings.host) (hbase : OneLine settings.basePath) (sources blocks : Nat) :
    Marked (pieces (api.document (settings.withQuota false) sources blocks).text)
      (pieces (api.document (settings.withQuota true) sources blocks).text)
      (pathsOf api.routes.values).length := by
  have hpieces : ∀ includeQuota,
      pieces (api.document (settings.withQuota includeQuota) sources blocks).text =
        Document.lines settings (api.paths includeQuota).lines api.models ++ [""] :=
    fun includeQuota => @Api.pieces_text api hplain (settings.withQuota includeQuota)
      htitle hhost hbase sources blocks
  rw [hpieces false, hpieces true]
  exact marked_lines hplain.models htitle hhost hbase (marked_paths hplain.routes)

/-- The mark has no part in how much goes into a document. -/
theorem counts_document (api : Api) (settings : Settings) (includeQuota : Bool)
    (sources blocks : Nat) :
    (api.document (settings.withQuota includeQuota) sources blocks).counts =
      (api.document (settings.withQuota false) sources blocks).counts := by
  have hpaths : (api.paths includeQuota).count = (api.paths false).count :=
    (Paths.count_ofRoutes _ _).trans (Paths.count_ofRoutes _ _).symm
  simp only [Api.document, Settings.withQuota, hpaths]

theorem counts_generate (settings : Settings) (sources : List Source) (includeQuota : Bool) :
    (·.counts) <$> generate (settings.withQuota includeQuota) sources =
      (·.counts) <$> generate (settings.withQuota false) sources := by
  simp only [generate, map_bind, map_pure, counts_document _ settings includeQuota]

/-- The mark of the quota is inserted and nothing else changes, whatever the sources say. The document
is generated with the mark if and only if it is without it, with equal counts. What the mark adds is two
lines for each path, directly after the line of its controller, and to leave them out gives the other
document, in which no line could be taken for the mark. -/
theorem generate_quota_insertion (htitle : OneLine settings.title) (hhost : OneLine settings.host)
    (hbase : OneLine settings.basePath) (hsources : ∀ s ∈ sources, OneLine s.identifier) :
    (generate (settings.withQuota true) sources).result.map (·.counts) =
        (generate (settings.withQuota false) sources).result.map (·.counts) ∧
    ∀ marked plain, (generate (settings.withQuota true) sources).result = .ok marked →
      (generate (settings.withQuota false) sources).result = .ok plain →
      withoutQuota (pieces marked.text) = pieces plain.text ∧
      (pieces marked.text).count quotaLine = marked.counts.paths ∧
      (pieces marked.text).length = (pieces plain.text).length + 2 * marked.counts.paths ∧
      (∀ before after, pieces marked.text = before ++ quotaLine :: after →
        ∃ controller before' after', before = before' ++ [controllerLine controller] ∧
          after = defaultQuotaLine :: after') ∧
      quotaLine ∉ pieces plain.text := by
  refine ⟨?_, fun marked plain hmarked hplain => ?_⟩
  · have hcounts := congrArg Reading.result (counts_generate settings sources true)
    simpa only [Reading.result_map] using hcounts
  · obtain ⟨catalog, api, hcollect, hapi, rfl⟩ := generate_eq_ok hmarked
    obtain ⟨catalog', api', hcollect', hapi', rfl⟩ := generate_eq_ok hplain
    obtain rfl : catalog = catalog' := Except.ok.inj (hcollect.symm.trans hcollect')
    obtain rfl : api = api' := Except.ok.inj (hapi.symm.trans hapi')
    have h := Api.marked_document (Api.plain_of_sources hsources hcollect hapi) htitle hhost hbase
      sources.length catalog.blockCount
    have hpaths : (api.document (settings.withQuota true) sources.length
        catalog.blockCount).counts.paths = (pathsOf api.routes.values).length :=
      Paths.count_ofRoutes true api.routes.values
    rw [hpaths]
    exact ⟨h.withoutQuota_eq, h.count_eq, h.length_eq, fun _ _ => h.exists_controller,
      h.quotaLine_not_mem⟩

/-- Two routes with one path, another path, and texts that look like the mark. -/
theorem generate_quota_insertion_shared_path :
    let settings : Settings := { title := "    x-a127-apply:", host := "h" }
    let sources : List Source := [⟨"c", "/**\n@api {get} /:i It\n@apiDescription\n" ++
      "@apiDescription x-a127-apply:\n*/\n/**\n@api {put} /:i It\n*/\n/**\n@api {get} /j Is\n*/"⟩]
    ∃ marked plain, (generate (settings.withQuota true) sources).result = .ok marked ∧
      (generate (settings.withQuota false) sources).result = .ok plain ∧
      withoutQuota (pieces marked.text) = pieces plain.text ∧
      (pieces marked.text).count quotaLine = 2 ∧ quotaLine ∉ pieces plain.text := by
  intro settings sources
  have hcounts : ∀ includeQuota,
      (generate (settings.withQuota includeQuota) sources).result.toOption.map (·.counts.paths) =
        some 2 := by decide +kernel
  obtain ⟨marked, hmarked, hpaths⟩ := Option.map_eq_some_iff.mp (hcounts true)
  obtain ⟨plain, hplain, -⟩ := Option.map_eq_some_iff.mp (hcounts false)
  have hmarked := except_eq_ok_of_toOption hmarked
  have hplain := except_eq_ok_of_toOption hplain
  obtain ⟨-, hlaws⟩ := generate_quota_insertion (show OneLine settings.title by decide)
    (show OneLine settings.host by decide) (show OneLine settings.basePath by decide)
    (show ∀ s ∈ sources, OneLine s.identifier by decide)
  obtain ⟨hwithout, hcount, -, -, hnone⟩ := hlaws marked plain hmarked hplain
  exact ⟨marked, plain, hmarked, hplain, hwithout, hcount.trans hpaths, hnone⟩

end

end RouteDoc
