import RouteDoc.Proofs.Alignment
import RouteDoc.Proofs.RouteBlock
import RouteDoc.Proofs.RouteTable

/-! The grammar of route lines. An occurrence of the route tag declares a route if the text after it
has the parts that `RouteText` names. A block is a route block if its first line has such an
occurrence, and it is read at the leftmost of them; all else on the line is passed over. -/

namespace RouteDoc

open Text

/-- A path and a summary as they follow a method: white space, path characters, white space, and words
with white space between them, each as long as it can be. The summary is the last run without white
space at its end, and has at least two bytes. -/
inductive PathText : List Char → List Char → List Char → Prop
  | parts {gap path gap' run rest : List Char}
      (blankRun_gap : BlankRun gap)
      (path_ne_nil : path ≠ [])
      (isPathChar_path : ∀ c ∈ path, isPathChar c = true)
      (blankRun_gap' : BlankRun gap')
      (run_head : ∀ c, run.head? = some c → isBlank c = false)
      (run_chars : ∀ c ∈ run, isWord c = true ∨ isBlank c = true)
      (rest_head : ∀ c, rest.head? = some c → isWord c = false ∧ isBlank c = false)
      (size : 2 ≤ (String.ofList (trimEnd run)).utf8ByteSize) :
      PathText (gap ++ (path ++ (gap' ++ (run ++ rest)))) path (trimEnd run)

/-- A text that declares a route: the name of a method in any case between braces, a path and a
summary. -/
inductive RouteText : List Char → RouteHeader → Prop
  | parts {name rest : List Char} {header : RouteHeader}
      (named : equalIgnoringCase name header.method.name.toList = true)
      (pathText : PathText rest header.path header.summary) :
      RouteText ('{' :: (name ++ '}' :: rest)) header

/-- The route tag stands on the line after `before`, and one white space character and a text that
declares the route follow it. -/
def DeclaresAt (line : String) (before : List Char) (header : RouteHeader) : Prop :=
  ∃ rest, OccursAt Tag.route.spelling line.toList before rest ∧ RouteText rest header

/-! ### Runs -/

theorem head?_of_isPrefix {start cs : List Char} (h : start <+: cs) {c : Char}
    (hc : start.head? = some c) : cs.head? = some c := by
  obtain ⟨rest, rfl⟩ := h
  rw [List.head?_append, hc]
  rfl

theorem afterBlanks?_eq_some_iff {cs rest : List Char} :
    afterBlanks? cs = some rest ↔ ∃ gap, BlankRun gap ∧ cs = gap ++ rest ∧
      ∀ c, rest.head? = some c → isBlank c = false := by
  rw [afterBlanks?, Option.map_eq_some_iff]
  constructor
  · rintro ⟨tail, hblank, rfl⟩
    obtain ⟨c, hc, rfl⟩ := afterBlank?_eq_some_iff.mp hblank
    refine ⟨c :: tail.takeWhile isBlank, ⟨List.cons_ne_nil _ _, ?_⟩, ?_, fun d hd => ?_⟩
    · intro d hd
      rcases List.mem_cons.mp hd with rfl | hd
      · exact hc
      · exact List.all_eq_true.mp List.all_takeWhile d hd
    · rw [trimStart, List.cons_append, List.takeWhile_append_dropWhile]
    · have hhead := List.head?_dropWhile_not isBlank tail
      rw [← trimStart, hd] at hhead
      exact hhead
  · rintro ⟨gap, hgap, rfl, hrest⟩
    obtain ⟨c, blanks, rfl, hc⟩ := hgap.exists_cons
    refine ⟨blanks ++ rest, afterBlank?_eq_some_iff.mpr ⟨c, hc, rfl⟩, ?_⟩
    exact (takeWhile_dropWhile_append
      (fun d hd => hgap.isBlank_all d (List.mem_cons_of_mem _ hd)) hrest).2

/-- What a run of words and white space that starts with a word leaves at its end is a summary. -/
theorem isSummary_trimEnd {run : List Char} (hhead : ∀ c, run.head? = some c → isBlank c = false)
    (hchars : ∀ c ∈ run, isWord c = true ∨ isBlank c = true)
    (hsize : 2 ≤ (String.ofList (trimEnd run)).utf8ByteSize) :
    IsSummary (String.ofList (trimEnd run)) := by
  have hword : ∀ c ∈ run, isBlank c = false → isWord c = true := fun c hc hblank =>
    (hchars c hc).resolve_right (by simp [hblank])
  refine ⟨?_, ?_, ?_, hsize⟩
  · rw [String.toList_ofList, List.all_eq_true]
    intro c hc
    simpa using hchars c (trimEnd_subset hc)
  · rw [String.toList_ofList, Option.all_eq_true]
    intro c hc
    have hrun : run.head? = some c := head?_of_isPrefix (dropEndWhile_isPrefix isBlank run) hc
    exact hword c (List.mem_of_head? hrun) (hhead c hrun)
  · rw [String.toList_ofList, Option.all_eq_true]
    intro c hc
    exact hword c (trimEnd_subset (List.mem_of_getLast? hc)) (getLast?_dropEndWhile hc)

/-- A summary has two bytes if it has two characters, since one that stands alone is a word. -/
theorem two_le_size_iff {run : List Char} (hhead : ∀ c, run.head? = some c → isBlank c = false)
    (hchars : ∀ c ∈ run, isWord c = true ∨ isBlank c = true) :
    2 ≤ (String.ofList (trimEnd run)).utf8ByteSize ↔ 2 ≤ (trimEnd run).length := by
  constructor
  · intro hsize
    have hlength := (isSummary_trimEnd hhead hchars hsize).two_le_length
    rwa [String.toList_ofList] at hlength
  · intro hlength
    obtain ⟨c, d, cs, hcs⟩ : ∃ c d cs, trimEnd run = c :: d :: cs := by
      match htrim : trimEnd run with
      | [] | [_] => simp [htrim] at hlength
      | c :: d :: cs => exact ⟨c, d, cs, rfl⟩
    have hc := c.utf8Size_pos
    have hd := d.utf8Size_pos
    rw [hcs, String.ofList_cons, String.ofList_cons, String.utf8ByteSize_append,
      String.utf8ByteSize_append, String.utf8ByteSize_singleton, String.utf8ByteSize_singleton]
    omega

theorem RouteText.pathText {cs : List Char} {header : RouteHeader} (h : RouteText cs header) :
    ∃ rest, PathText rest header.path header.summary := by
  cases h with
  | parts _ hpath => exact ⟨_, hpath⟩

theorem PathText.path {cs path summary : List Char} (h : PathText cs path summary) :
    path ≠ [] ∧ ∀ c ∈ path, isPathChar c = true := by
  cases h with
  | parts _ hne hpath => exact ⟨hne, hpath⟩

theorem PathText.isSummary {cs path summary : List Char} (h : PathText cs path summary) :
    IsSummary (String.ofList summary) := by
  cases h with
  | parts _ _ _ _ hhead hchars _ hsize => exact isSummary_trimEnd hhead hchars hsize

/-! ### Reading and matching -/

theorem Method.isName_name (m : Method) : IsName m.name := by
  cases m <;> decide

theorem Method.ofName?_eq_some_iff_equal {name : List Char} {m : Method} :
    Method.ofName? name = some m ↔ equalIgnoringCase name m.name.toList = true := by
  rw [Method.ofName?_eq_some_iff, equalIgnoringCase, beq_iff_eq, m.lower_name]

namespace RouteHeader

/-- What is read has the parts. -/
theorem pathText_of_readPath? {cs path summary : List Char}
    (h : readPath? cs = some (path, summary)) : PathText cs path summary := by
  obtain ⟨cs₁, hgap, hread⟩ := Option.bind_eq_some_iff.mp h
  obtain ⟨gap, hrun, rfl, -⟩ := afterBlanks?_eq_some_iff.mp hgap
  rw [Option.ite_none_left_eq_some, Option.bind_eq_some_iff] at hread
  obtain ⟨hpath, cs₂, hgap', hread⟩ := hread
  obtain ⟨gap', hrun', hcs₂, hhead⟩ := afterBlanks?_eq_some_iff.mp hgap'
  simp only [Option.ite_none_left_eq_some, Option.some.injEq, Prod.mk.injEq] at hread
  obtain ⟨hlength, rfl, rfl⟩ := hread
  have hchars : ∀ c ∈ cs₂.takeWhile fun c => isWord c || isBlank c,
      isWord c = true ∨ isBlank c = true := fun c hc => by
    simpa using List.all_eq_true.mp List.all_takeWhile c hc
  have hstart : ∀ c, (cs₂.takeWhile fun c => isWord c || isBlank c).head? = some c →
      isBlank c = false := fun c hc => hhead c (head?_of_isPrefix (List.takeWhile_prefix _) hc)
  have hstop : ∀ c, (cs₂.dropWhile fun c => isWord c || isBlank c).head? = some c →
      isWord c = false ∧ isBlank c = false := fun c hc => by
    have hnot := List.head?_dropWhile_not (fun c => isWord c || isBlank c) cs₂
    rw [hc] at hnot
    simpa using hnot
  have hcs₁ : cs₁.takeWhile isPathChar ++ (gap' ++ (
      (cs₂.takeWhile fun c => isWord c || isBlank c) ++
        cs₂.dropWhile fun c => isWord c || isBlank c)) = cs₁ := by
    rw [List.takeWhile_append_dropWhile, ← hcs₂, List.takeWhile_append_dropWhile]
  have hparts := PathText.parts hrun (by simpa using hpath)
    (List.all_eq_true.mp List.all_takeWhile) hrun' hstart hchars hstop
    ((two_le_size_iff hstart hchars).mpr (by omega))
  rwa [hcs₁] at hparts

/-- What has the parts is read. -/
theorem readPath?_of_pathText {cs path summary : List Char} (h : PathText cs path summary) :
    readPath? cs = some (path, summary) := by
  obtain ⟨hgap, hne, hpath, hgap', hhead, hchars, hrest, hsize⟩ := h
  rename_i gap gap' run rest
  obtain ⟨blank, blanks, rfl, hblank⟩ := hgap'.exists_cons
  have hpathHead : ∀ c, (path ++ (blank :: blanks ++ (run ++ rest))).head? = some c →
      isBlank c = false := by
    intro c hc
    obtain ⟨p, ps, rfl⟩ := List.exists_cons_of_ne_nil hne
    cases hc
    exact Path.isBlank_of_isPathChar (hpath c (by simp))
  have hpathEnd : ∀ c, (blank :: blanks ++ (run ++ rest)).head? = some c →
      isPathChar c = false := by
    rintro c ⟨⟩
    rw [Bool.eq_false_iff]
    intro hc
    rw [Path.isBlank_of_isPathChar hc] at hblank
    cases hblank
  have hrunHead : ∀ c, (run ++ rest).head? = some c → isBlank c = false := by
    intro c hc
    rw [List.head?_append, Option.or_eq_some_iff] at hc
    rcases hc with hc | ⟨-, hc⟩
    · exact hhead c hc
    · exact (hrest c hc).2
  obtain ⟨htake, hdrop⟩ := takeWhile_dropWhile_append hpath hpathEnd
  have hrun : (run ++ rest).takeWhile (fun c => isWord c || isBlank c) = run :=
    (takeWhile_dropWhile_append (fun c hc => by simpa using hchars c hc)
      fun c hc => by simp [hrest c hc]).1
  have hlength : ¬(trimEnd run).length < 2 := by
    have := (two_le_size_iff hhead hchars).mp hsize
    omega
  rw [readPath?, afterBlanks?_eq_some_iff.mpr ⟨_, hgap, rfl, hpathHead⟩, Option.bind_some, htake,
    if_neg (by simpa using hne), hdrop,
    afterBlanks?_eq_some_iff.mpr ⟨_, hgap', rfl, hrunHead⟩, Option.bind_some, hrun,
    if_neg hlength]

theorem read?_eq_some_iff {cs : List Char} {header : RouteHeader} :
    read? cs = some header ↔ RouteText cs header := by
  rw [read?_eq]
  simp only [Option.bind_eq_some_iff, Option.map_eq_some_iff, after?_eq_some_iff]
  constructor
  · rintro ⟨inner, rfl, ⟨name, _⟩, hword, rest, hclose, ⟨path, summary⟩, hread, method, hmethod, rfl⟩
    obtain ⟨rfl, rfl, -⟩ := word?_eq_some hword
    have hinner : inner = word inner ++ '}' :: rest := by
      rw [← List.singleton_append, ← hclose, word_append_afterWord]
    rw [List.singleton_append, hinner]
    exact .parts (Method.ofName?_eq_some_iff_equal.mp hmethod) (pathText_of_readPath? hread)
  · rintro ⟨hnamed, hpath⟩
    rename_i name rest
    have hword := isWord_of_equalIgnoringCase hnamed header.method.isName_name.1
    have hne : name ≠ [] := by
      rintro rfl
      have hnil : header.method.name.toList = [] :=
        List.map_eq_nil_iff.mp (beq_iff_eq.mp hnamed).symm
      exact header.method.isName_name.2 (by simpa using hnil)
    refine ⟨_, rfl, (name, '}' :: rest), word?_append hword hne (by rintro c ⟨⟩; decide), rest, rfl,
      (header.path, header.summary), readPath?_of_pathText hpath, header.method,
      Method.ofName?_eq_some_iff_equal.mpr hnamed, rfl⟩

end RouteHeader

/-! ### Route blocks -/

theorem mediaTypes_ne_nil (tag : Tag) (lines : List String) : mediaTypes tag lines ≠ [] := by
  unfold mediaTypes
  simp only
  split
  · exact List.cons_ne_nil _ _
  · rename_i hfound
    simpa using hfound

namespace Block

variable {b : Block}

/-- The header of a block is that of the leftmost declaration on its first line. -/
theorem routeHeader?_eq_some_iff {header : RouteHeader} :
    b.routeHeader? = some header ↔ ∃ before, DeclaresAt b.firstLine before header ∧
      ∀ before' header', DeclaresAt b.firstLine before' header' → before.length ≤ before'.length := by
  rw [routeHeader?, Tag.scan_eq, scanFor_eq_some_iff]
  simp only [RouteHeader.read?_eq_some_iff, Option.isSome_iff_exists, DeclaresAt]
  constructor
  · rintro ⟨before, rest, hoccurs, htext, hfirst⟩
    refine ⟨before, ⟨rest, hoccurs, htext⟩, ?_⟩
    rintro before' header' ⟨rest', hoccurs', htext'⟩
    exact hfirst before' rest' hoccurs' ⟨header', htext'⟩
  · rintro ⟨before, ⟨rest, hoccurs, htext⟩, hfirst⟩
    refine ⟨before, rest, hoccurs, htext, ?_⟩
    rintro before' rest' hoccurs' ⟨header', htext'⟩
    exact hfirst before' header' ⟨rest', hoccurs', htext'⟩

theorem isSome_routeHeader?_iff :
    b.routeHeader?.isSome = true ↔ ∃ before header, DeclaresAt b.firstLine before header := by
  constructor
  · intro h
    obtain ⟨header, hheader⟩ := Option.isSome_iff_exists.mp h
    obtain ⟨before, hdeclares, -⟩ := routeHeader?_eq_some_iff.mp hheader
    exact ⟨before, header, hdeclares⟩
  · rintro ⟨before, header, rest, hoccurs, htext⟩
    rw [Option.isSome_iff_ne_none]
    intro hnone
    rw [routeHeader?, Tag.scan_eq] at hnone
    have hread := scanFor_eq_none_iff.mp hnone before rest hoccurs
    rw [RouteHeader.read?_eq_some_iff.mpr htext] at hread
    cases hread

end Block

namespace Draft

variable {b : Block}

theorem result_eq_ok_none_iff :
    (ofBlock? b).result = .ok none ↔ b.routeHeader?.isSome = false := by
  rw [Option.isSome_eq_false_iff, Option.isNone_iff_eq_none]
  constructor
  · exact routeHeader?_of_ofBlock?
  · intro h
    rw [ofBlock?, h]
    rfl

theorem mediaTypes_of_ofBlock? {d : Draft} (h : (ofBlock? b).result = .ok (some d)) :
    d.consumes ≠ [] ∧ d.produces ≠ [] := by
  obtain ⟨header, params, -, -, rfl⟩ := exists_of_ofBlock? h
  exact ⟨mediaTypes_ne_nil _ _, mediaTypes_ne_nil _ _⟩

/-- Which blocks are route blocks, exactly. A block has a draft or is reported for a field line if and
only if its first line declares a route somewhere, and else nothing is read of it. Its method, path
and summary are those of the leftmost declaration. Every draft has a path of path characters, a
summary that starts and ends with a word character, and media types. -/
theorem ofBlock?_acceptance (b : Block) :
    ((∃ d, (ofBlock? b).result = .ok (some d)) ∨
        (∃ fault, (ofBlock? b).result = .error fault ∧ b.Reports fault) ↔
      ∃ before header, DeclaresAt b.firstLine before header) ∧
    ((ofBlock? b).result = .ok none ↔ ¬∃ before header, DeclaresAt b.firstLine before header) ∧
    ∀ d, (ofBlock? b).result = .ok (some d) →
      (∃ before header, DeclaresAt b.firstLine before header ∧
        (∀ before' header', DeclaresAt b.firstLine before' header' →
          before.length ≤ before'.length) ∧
        d.method = header.method ∧ d.path = String.ofList header.path ∧
        d.summary = String.ofList header.summary) ∧
      (d.path ≠ "" ∧ ∀ c ∈ d.path.toList, isPathChar c = true) ∧ IsSummary d.summary ∧
      d.consumes ≠ [] ∧ d.produces ≠ [] := by
  have hoccurs := Block.isSome_routeHeader?_iff (b := b)
  refine ⟨?_, ?_, fun d hd => ?_⟩
  · rw [← hoccurs]
    constructor
    · rintro (⟨d, hd⟩ | ⟨fault, hfault, -⟩)
      · obtain ⟨header, hheader, -⟩ := exists_routeHeader hd
        rw [hheader]
        rfl
      · rw [← Bool.not_eq_false, ← result_eq_ok_none_iff, hfault]
        simp
    · intro hheader
      by_cases hbad : b.IsBad
      · obtain ⟨fault, hreports⟩ := Block.exists_reports_iff.mpr hbad
        exact .inr ⟨fault, (Block.draft_error_iff hheader).mpr hreports, hreports⟩
      · exact .inl (exists_ofBlock? hheader hbad)
  · rw [← hoccurs, result_eq_ok_none_iff, Bool.not_eq_true]
  · obtain ⟨header, hheader, hmethod, hpath, hsummary⟩ := exists_routeHeader hd
    obtain ⟨before, ⟨rest, hat, htext⟩, hfirst⟩ := Block.routeHeader?_eq_some_iff.mp hheader
    obtain ⟨_, hparts⟩ := htext.pathText
    refine ⟨⟨before, header, ⟨rest, hat, htext⟩, hfirst, hmethod, hpath, hsummary⟩, ?_, ?_,
      mediaTypes_of_ofBlock? hd⟩
    · rw [hpath, String.toList_ofList]
      exact ⟨ofList_ne_empty hparts.path.1, hparts.path.2⟩
    · rw [hsummary]
      exact hparts.isSummary

/-- A line on which three occurrences of the tag declare nothing, for the next character, for the method
and for the length of the summary, and two declare a route. -/
theorem ofBlock?_acceptance_third_failure :
    let b : Block := ⟨["@apiUse x @api {fetch} /a Do a @api {get} /b   c. " ++
      "@api {GeT}\u00a0/i/:id \u3000Get it \u3000, @api {put} /d Other"], "s"⟩
    ∃ d before header, (ofBlock? b).result = .ok (some d) ∧ DeclaresAt b.firstLine before header ∧
      (∀ before' header', DeclaresAt b.firstLine before' header' → before.length ≤ before'.length) ∧
      header = ⟨.get, "/i/:id".toList, "Get it".toList⟩ ∧ IsSummary d.summary ∧
      d.produces ≠ [] := by
  intro b
  have hread : (ofBlock? b).result.toOption.bind (·.map fun d => (d.method, d.path, d.summary)) =
      some (.get, "/i/:id", "Get it") := by decide +kernel
  obtain ⟨_, hok, hread⟩ := Option.bind_eq_some_iff.mp hread
  obtain ⟨d, rfl, hd⟩ := Option.map_eq_some_iff.mp hread
  have hresult := except_eq_ok_of_toOption hok
  simp only [Prod.mk.injEq] at hd
  obtain ⟨⟨before, header, hat, hfirst, hmethod, hpath, hsummary⟩, -, hisSummary, -, hproduces⟩ :=
    (ofBlock?_acceptance b).2.2 d hresult
  refine ⟨d, before, header, hresult, hat, hfirst, ?_, hisSummary, hproduces⟩
  cases header
  rw [RouteHeader.mk.injEq]
  refine ⟨hmethod.symm.trans hd.1, ?_, ?_⟩
  · rw [← hd.2.1, hpath, String.toList_ofList]
  · rw [← hd.2.2, hsummary, String.toList_ofList]

end Draft

end RouteDoc
