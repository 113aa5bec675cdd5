import RouteDoc.Proofs.ParameterSection

/-! The keys of an operation's responses. The default response comes first, and each response that a
block declares follows under its code, so the keys are distinct exactly if no code is declared twice
and none has the name of the default response. -/

namespace RouteDoc

open Text

/-! ### The reader -/

/-- The key on a line. -/
def keyOf (line : String) : String :=
  String.ofList ((line.toList.dropWhile (· == ' ')).takeWhile (· != ':'))

/-- The keys of the responses among the lines of an operation. -/
def responseKeys (lines : List String) : List String :=
  match (sections 6 lines).find? (·.1 = "      responses:") with
  | none => []
  | some part => (part.2.filter (isAt 8)).map keyOf

/-- A text that can be read as the key of a line. -/
def IsKey (text : String) : Prop := IsToken text ∧ ':' ∉ text.toList

/-! ### Entries -/

/-- The line that opens the response with a code. -/
def codeLine (code : String) : String := "        " ++ code ++ ":"

theorem isKey_of_isName {name : String} (h : IsName name) : IsKey name :=
  ⟨isToken_of_isName h, fun hc => absurd (h.1 _ hc) (by decide)⟩

/-- A line with `n` spaces, a key and a colon is at the depth `n`, and the key is read from it. -/
theorem isAt_and_keyOf {n : Nat} {key line : String} (h : IsKey key)
    (hline : line.toList = List.replicate n ' ' ++ (key.toList ++ [':'])) :
    isAt n line = true ∧ keyOf line = key := by
  obtain ⟨⟨hne, hblank⟩, hcolon⟩ := h
  obtain ⟨c, cs, hcs⟩ := List.exists_cons_of_ne_nil (l := key.toList) (by simpa using hne)
  have hc : isBlank c = false := hblank c (by simp [hcs])
  have hspaces : ∀ c ∈ List.replicate n ' ', (c == ' ') = true := by simp
  have hstart : ∀ d, (key.toList ++ [':']).head? = some d → (d == ' ') = false := by
    intro d hd
    obtain rfl : c = d := by simpa [hcs] using hd
    rw [beq_eq_false_iff_ne]
    rintro rfl
    exact absurd hc (by decide)
  have hkey : ∀ c ∈ key.toList, (c != ':') = true := by
    intro c hc
    have hne : c ≠ ':' := fun heq => hcolon (heq ▸ hc)
    simpa using hne
  have hstop : ∀ d, [':'].head? = some d → (d != ':') = false := by
    rintro d ⟨⟩
    rfl
  constructor
  · rw [hcs, List.cons_append] at hline
    exact isAt_of_toList hline hc
  · rw [keyOf, hline, (takeWhile_dropWhile_append hspaces hstart).2,
      (takeWhile_dropWhile_append hkey hstop).1, String.ofList_toList]

theorem toList_codeLine (code : String) :
    (codeLine code).toList = List.replicate 8 ' ' ++ (code.toList ++ [':']) := by
  rw [codeLine, String.append_assoc, String.toList_append, String.toList_append]
  rfl

theorem isAt_codeLine {code : String} (h : IsName code) : isAt 8 (codeLine code) = true :=
  (isAt_and_keyOf (isKey_of_isName h) (toList_codeLine code)).1

/-- The key is the code again. -/
theorem keyOf_codeLine {code : String} (h : IsName code) : keyOf (codeLine code) = code :=
  (isAt_and_keyOf (isKey_of_isName h) (toList_codeLine code)).2

/-- Of the lines of an entry only the first is at the depth of codes. -/
theorem filter_layout_entry {code : String} (h : IsName code) {below : List String}
    (hbelow : Rows 10 below) : (layout (codeLine code :: below)).filter (isAt 8) = [codeLine code] := by
  have hline : OneLine (codeLine code) :=
    ((show OneLine "        " by decide).append h.1.oneLine).append (by decide)
  have hkey : trimmed (codeLine code) = codeLine code := trimmed_append_singleton rfl (by decide)
  rw [layout_cons hline, hkey, List.filter_cons_of_pos (isAt_codeLine h),
    hbelow.layout.filter_isAt (by decide)]

theorem Response.filter_layout_rows {answer : Response} (hcode : IsName answer.code)
    (hmodel : OneLine answer.model) (hdescription : OneLine answer.description) :
    (layout answer.rows).filter (isAt 8) = [codeLine answer.code] :=
  filter_layout_entry hcode (rows_tail hmodel hdescription)

namespace Route

variable {r : Route}

theorem filter_default :
    (layout ["        default:", "          description: Default Response", "          schema:",
      "            $ref: \"#/definitions/" ++ Schema.defaultModel ++ "\""]).filter (isAt 8) =
      [codeLine "default"] := by
  have hkey : "        default:" = codeLine "default" := by decide
  have hbelow : Rows 10 ["          description: Default Response", "          schema:",
      "            $ref: \"#/definitions/" ++ Schema.defaultModel ++ "\""] :=
    Rows.cons (by decide) (Rows.cons (by decide) (Rows.cons (by decide) Rows.nil))
  rw [hkey]
  exact filter_layout_entry (by decide) hbelow

theorem filter_responses {responses : List Response} (hcodes : ∀ answer ∈ responses, IsName answer.code)
    (hplain : ∀ answer ∈ responses, OneLine answer.model ∧ OneLine answer.description) :
    (layout (responses.flatMap Response.rows)).filter (isAt 8) =
      responses.map (codeLine ·.code) := by
  induction responses with
  | nil => rfl
  | cons answer responses ih =>
    rw [List.forall_mem_cons] at hcodes hplain
    rw [List.flatMap_cons, layout_append, List.filter_append,
      Response.filter_layout_rows hcodes.1 hplain.1.1 hplain.1.2, ih hcodes.2 hplain.2]
    rfl

/-- The lines of the responses, at the depth of codes. -/
theorem filter_responseRows (h : r.Plain) (hcodes : ∀ answer ∈ r.responses, IsName answer.code) :
    (layout r.operation.responseRows).filter (isAt 8) =
      codeLine "default" :: r.responses.map (codeLine ·.code) := by
  have hresponses := filter_responses hcodes fun answer hanswer => (h.responses answer hanswer).2
  have hdefault : (layout ["        default:", "          description: Default Response",
      "          schema:", "            $ref: \"#/definitions/" ++ r.operation.defaultModel ++
        "\""]).filter (isAt 8) = [codeLine "default"] := filter_default
  rw [Operation.responseRows, layout_append, List.filter_append, hdefault]
  exact congrArg (codeLine "default" :: ·) hresponses

/-- The reader finds the code of every response, after the key of the default response. -/
theorem responseKeys_operation (h : r.Plain) (hcodes : ∀ answer ∈ r.responses, IsName answer.code) :
    responseKeys r.operation.lines = "default" :: r.responses.map (·.code) := by
  have hbefore : "      responses:" ∉ methodLine r.method :: (layout r.operation.headRows ++
      if r.parameterLines.isEmpty then [] else "      parameters:" :: r.parameterLines) := by
    have hhead : "      responses:" ∉ methodLine r.method :: layout r.operation.headRows :=
      key_not_mem_head h (by decide) (by decide) (by decide)
    have hparameters : "      responses:" ∉ r.parameterLines :=
      (rows_parameterLines h).not_mem (by decide : 6 < 8) (by decide)
    rw [← List.cons_append, List.mem_append, not_or]
    refine ⟨hhead, ?_⟩
    split
    · exact List.not_mem_nil
    · rw [List.mem_cons, not_or]
      exact ⟨by decide, hparameters⟩
  have hbelow : ∀ line ∈ layout r.operation.responseRows, isAt 6 line = false := fun line hline =>
    isAt_of_deep ((rows_responseRows h).layout line hline).2 (by decide)
  rw [responseKeys, operation_lines, ← List.append_assoc, ← List.cons_append,
    find?_sections_append hbefore, sections_cons_of_forall (by decide) hbelow,
    List.find?_cons_of_pos (by simp)]
  simp only [filter_responseRows h hcodes, List.map_cons, List.map_map,
    keyOf_codeLine (show IsName "default" by decide)]
  exact congrArg _ (List.map_congr_left fun answer hanswer => keyOf_codeLine (hcodes answer hanswer))

end Route

/-! ### The responses of blocks -/

/-- The codes of the responses that a block declares, line by line. -/
def Block.responseCodes (b : Block) : List String :=
  (b.body.filterMap (Tag.response.scan Response.read?)).map (·.code)

theorem Response.isName_of_scan {line : String} {answer : Response}
    (h : Tag.response.scan Response.read? line = some answer) : IsName answer.code := by
  obtain ⟨cs, -, hread⟩ := Tag.scan_eq_some h
  obtain ⟨⟨code, model, rest⟩, hbinding, rfl⟩ := Option.map_eq_some_iff.mp hread
  exact (readBinding?_eq_some hbinding).1

/-- When the responses of an operation have keys of their own, for every block of sources that declares
a route. The keys are that of the default response and the codes of the block, as they are declared. So
all differ if and only if no two lines of the block have one code and none has the default's. -/
theorem Catalog.responseKeys_distinct_iff {sources : List Source} {catalog : Catalog}
    (hcatalog : (Catalog.collect sources).result = .ok catalog) {b : Block}
    (hb : b ∈ catalog.candidates) {d : Draft} (hdraft : (Draft.ofBlock? b).result = .ok (some d)) :
    responseKeys (catalog.route d).withBodyModel.operation.lines = "default" :: b.responseCodes ∧
    ((responseKeys (catalog.route d).withBodyModel.operation.lines).Nodup ↔
      "default" ∉ b.responseCodes ∧ b.responseCodes.Nodup) := by
  have hplain : (catalog.route { d with controller := "" }).withBodyModel.Plain :=
    (Catalog.plain_route_of_block hcatalog hb hdraft (by decide)).withBodyModel
  have hresponses : d.responses = b.body.filterMap (Tag.response.scan Response.read?) := by
    obtain ⟨header, params, -, -, rfl⟩ := Draft.exists_of_ofBlock? hdraft
    rfl
  have hcodes : ∀ answer ∈ d.responses, IsName answer.code := by
    intro answer hanswer
    rw [hresponses] at hanswer
    obtain ⟨line, -, hscan⟩ := List.mem_filterMap.mp hanswer
    exact Response.isName_of_scan hscan
  -- the controller has no part in an operation
  have hread := Route.responseKeys_operation hplain hcodes
  have hkeys : responseKeys (catalog.route d).withBodyModel.operation.lines =
      "default" :: b.responseCodes := by
    rw [Block.responseCodes, ← hresponses]
    exact hread
  exact ⟨hkeys, by rw [hkeys, List.nodup_cons]⟩

/-- A block that declares a code twice, one that declares the default's, and one with two codes. -/
theorem Catalog.responseKeys_distinct_iff_repeated_code :
    let repeated : Block := ⟨["@api {get} /a It", "@apiResponse 404 #E No", "@apiResponse 404 #E"], "s"⟩
    let reserved : Block := ⟨["@api {get} /b It", "@apiResponse default #E No"], "s"⟩
    let other : Block := ⟨["@api {get} /c It", "@apiResponse 404 #E No", "@apiResponse 500 #E"], "s"⟩
    let sources : List Source := [
      ⟨"s", "/**\n@api {get} /a It\n@apiResponse 404 #E No\n@apiResponse 404 #E\n*/"⟩,
      ⟨"s", "/**\n@api {get} /b It\n@apiResponse default #E No\n*/"⟩,
      ⟨"s", "/**\n@api {get} /c It\n@apiResponse 404 #E No\n@apiResponse 500 #E\n*/"⟩]
    ∃ catalog, (Catalog.collect sources).result = .ok catalog ∧
      (∃ d, (Draft.ofBlock? repeated).result = .ok (some d) ∧
        ¬(responseKeys (catalog.route d).withBodyModel.operation.lines).Nodup) ∧
      (∃ d, (Draft.ofBlock? reserved).result = .ok (some d) ∧
        ¬(responseKeys (catalog.route d).withBodyModel.operation.lines).Nodup) ∧
      ∃ d, (Draft.ofBlock? other).result = .ok (some d) ∧
        (responseKeys (catalog.route d).withBodyModel.operation.lines).Nodup := by
  intro repeated reserved other sources
  have hdraft : ∀ b ∈ [repeated, reserved, other], ∃ d, (Draft.ofBlock? b).result = .ok (some d) := by
    intro b hb
    have hread : ∀ b ∈ [repeated, reserved, other],
        (Draft.ofBlock? b).result.toOption.map Option.isSome = some true := by decide +kernel
    obtain ⟨found, hok, hfound⟩ := Option.map_eq_some_iff.mp (hread b hb)
    obtain ⟨d, rfl⟩ := Option.isSome_iff_exists.mp hfound
    exact ⟨d, except_eq_ok_of_toOption hok⟩
  have hcandidates : (Catalog.collect sources).result.toOption.map (·.candidates) =
      some [repeated, reserved, other] := by decide +kernel
  obtain ⟨catalog, hok, hblocks⟩ := Option.map_eq_some_iff.mp hcandidates
  have hcatalog := except_eq_ok_of_toOption hok
  obtain ⟨d, hd⟩ := hdraft repeated (by simp)
  obtain ⟨d', hd'⟩ := hdraft reserved (by simp)
  obtain ⟨d'', hd''⟩ := hdraft other (by simp)
  have hlaw := responseKeys_distinct_iff hcatalog (by rw [hblocks]; simp) hd
  have hlaw' := responseKeys_distinct_iff hcatalog (by rw [hblocks]; simp) hd'
  have hlaw'' := responseKeys_distinct_iff hcatalog (by rw [hblocks]; simp) hd''
  refine ⟨catalog, hcatalog, ⟨d, hd, ?_⟩, ⟨d', hd', ?_⟩, d'', hd'', ?_⟩
  · rw [hlaw.2]
    decide +kernel
  · rw [hlaw'.2]
    decide +kernel
  · rw [hlaw''.2]
    decide +kernel

end RouteDoc
