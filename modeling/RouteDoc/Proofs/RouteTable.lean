import RouteDoc.Proofs.BodyModels
import RouteDoc.Proofs.Provenance
import RouteDoc.Proofs.TaggedLine

/-! The table of routes. Of the blocks that declare routes with one method and path the last counts,
at the place of the first, and blocks that declare none play no part. The name of a method may be
written in any case. -/

namespace RouteDoc

open Text

/-! ### Methods in any case -/

namespace Method

theorem lower_name (m : Method) : m.name.toList.map Char.toLower = m.name.toList := by
  cases m <;> decide

theorem ofName?_eq_some_iff {name : List Char} {m : Method} :
    ofName? name = some m ↔ name.map Char.toLower = m.name.toList := by
  constructor
  · intro h
    unfold ofName? at h
    have hfound := List.find?_some h
    exact (beq_iff_eq.mp hfound).symm
  · intro h
    rw [ofName?, h, ← m.lower_name]
    exact m.ofName?_name

theorem ofName?_congr {name name' : List Char} (h : equalIgnoringCase name' name = true) :
    ofName? name' = ofName? name := by
  rw [ofName?, ofName?, beq_iff_eq.mp h]

end Method

theorem isWord_of_equalIgnoringCase {name name' : List Char}
    (h : equalIgnoringCase name' name = true) (hname : ∀ c ∈ name, isWord c = true) :
    ∀ c ∈ name', isWord c = true := by
  intro c hc
  have hlower : c.toLower ∈ name.map Char.toLower := by
    rw [← beq_iff_eq.mp h]
    exact List.mem_map_of_mem hc
  obtain ⟨d, hd, hcd⟩ := List.mem_map.mp hlower
  have hword := isWord_iff.mp (hcd ▸ isWord_toLower (hname d hd))
  rw [toNat_toLower] at hword
  rw [isWord_iff]
  split at hword <;> omega

/-! ### What a route declaration reads -/

namespace Text

variable {c : Char}

theorem takeWhile_append_cons {p : Char → Bool} (hc : p c = false) (cs rest : List Char) :
    (cs ++ c :: rest).takeWhile p = cs.takeWhile p := by
  induction cs with
  | nil => simp [hc]
  | cons d cs ih => cases hd : p d <;> simp [hd, ih]

theorem dropWhile_append_cons {p : Char → Bool} (hc : p c = false) (cs rest : List Char) :
    (cs ++ c :: rest).dropWhile p = cs.dropWhile p ++ c :: rest := by
  induction cs with
  | nil => simp [hc]
  | cons d cs ih => cases hd : p d <;> simp [hd, ih]

theorem word?_append_cons (hc : isWord c = false) (cs rest : List Char) :
    word? (cs ++ c :: rest) = (word? cs).map fun named => (named.1, named.2 ++ c :: rest) := by
  have hword : word (cs ++ c :: rest) = word cs := takeWhile_append_cons hc cs rest
  have hafter : afterWord (cs ++ c :: rest) = afterWord cs ++ c :: rest :=
    dropWhile_append_cons hc cs rest
  rw [word?, word?, hword, hafter]
  by_cases h : (word cs).isEmpty = true
  · rw [if_pos h, if_pos h, Option.map_none]
  · rw [if_neg h, if_neg h, Option.map_some]

theorem afterBlank?_append_cons (hc : isBlank c = false) (cs rest : List Char) :
    afterBlank? (cs ++ c :: rest) = (afterBlank? cs).map (· ++ c :: rest) := by
  cases cs with
  | nil => simp [afterBlank?, hc]
  | cons d cs => cases hd : isBlank d <;> simp [afterBlank?, hd]

end Text

theorem bind_afterBlanks?_append_cons {β : Type} {c : Char} (hc : isBlank c = false)
    (cs rest : List Char) (f : List Char → Option β) :
    (afterBlanks? (cs ++ c :: rest)).bind f =
      (afterBlanks? cs).bind fun ds => f (ds ++ c :: rest) := by
  rw [afterBlanks?, afterBlanks?, afterBlank?_append_cons hc, Option.map_map, Option.bind_map,
    Option.bind_map]
  refine Option.bind_congr fun ds _ => ?_
  exact congrArg f (dropWhile_append_cons hc ds rest)

namespace RouteHeader

/-- Reads the path and the summary that follow a method. -/
def readPath? (cs : List Char) : Option (List Char × List Char) :=
  (afterBlanks? cs).bind fun cs =>
    if (cs.takeWhile isPathChar).isEmpty then none else
    (afterBlanks? (cs.dropWhile isPathChar)).bind fun rest =>
      let summary := trimEnd (rest.takeWhile fun c => isWord c || isBlank c)
      if summary.length < 2 then none else some (cs.takeWhile isPathChar, summary)

theorem read?_eq (cs : List Char) :
    read? cs = (after? ['{'] cs).bind fun cs => (word? cs).bind fun named =>
      (after? ['}'] named.2).bind fun cs => (readPath? cs).bind fun parts =>
        (Method.ofName? named.1).map fun method => ⟨method, parts.1, parts.2⟩ := by
  simp only [read?, readPath?, Option.bind_eq_bind, Option.bind_assoc]
  refine Option.bind_congr fun cs _ => Option.bind_congr fun named _ =>
    Option.bind_congr fun cs _ => Option.bind_congr fun cs _ => ?_
  split
  · rfl
  · rw [Option.bind_assoc]
    refine Option.bind_congr fun cs _ => ?_
    split
    · rfl
    · cases Method.ofName? named.1 <;> rfl

theorem readPath?_append_sign (cs rest : List Char) :
    readPath? (cs ++ '@' :: rest) = readPath? cs := by
  have hpath : isPathChar '@' = false := by decide
  have hsummary : (isWord '@' || isBlank '@') = false := by decide
  rw [readPath?, readPath?, bind_afterBlanks?_append_cons (by decide)]
  refine Option.bind_congr fun cs _ => ?_
  simp only [takeWhile_append_cons hpath, dropWhile_append_cons hpath,
    bind_afterBlanks?_append_cons (c := '@') (by decide),
    takeWhile_append_cons (p := fun c => isWord c || isBlank c) hsummary]

/-- A route declaration never goes beyond the sign of the next tag. -/
theorem read?_append_sign (cs rest : List Char) : read? (cs ++ '@' :: rest) = read? cs := by
  rw [read?_eq, read?_eq, after?_append_cons (by decide), Option.bind_map]
  refine Option.bind_congr fun cs _ => ?_
  simp only [Function.comp_apply]
  rw [word?_append_cons (by decide), Option.bind_map]
  refine Option.bind_congr fun named _ => ?_
  simp only [Function.comp_apply]
  rw [after?_append_cons (by decide), Option.bind_map]
  refine Option.bind_congr fun cs _ => ?_
  simp only [Function.comp_apply, readPath?_append_sign]

theorem read?_congr_name {name name' : List Char} (hname : ∀ c ∈ name, isWord c = true)
    (h : equalIgnoringCase name' name = true) (rest : List Char) :
    read? ('{' :: (name' ++ '}' :: rest)) = read? ('{' :: (name ++ '}' :: rest)) := by
  have hstop : ∀ c, ('}' :: rest).head? = some c → isWord c = false := by
    rintro c ⟨⟩
    decide
  have hopen : ∀ cs, after? ['{'] ('{' :: cs) = some cs := fun cs => after?_append ['{'] cs
  cases name with
  | nil =>
    obtain rfl : name' = [] := List.map_eq_nil_iff.mp (beq_iff_eq.mp h)
    rfl
  | cons c name =>
    have hne : name' ≠ [] := by
      rintro rfl
      cases beq_iff_eq.mp h
    rw [read?_eq, read?_eq, hopen, hopen, Option.bind_some, Option.bind_some,
      word?_append (isWord_of_equalIgnoringCase h hname) hne hstop,
      word?_append hname (List.cons_ne_nil c name) hstop, Option.bind_some, Option.bind_some,
      Method.ofName?_congr h]

end RouteHeader

/-! ### Route lines with another spelling of the method -/

/-- A line with a route tag and the name of a method between braces. -/
def routeLine (before : List Char) (blank : Char) (name rest : List Char) : String :=
  String.ofList (before ++ Tag.route.spelling ++ blank :: '{' :: (name ++ '}' :: rest))

theorem eq_of_append_cons_eq {c : Char} {cs ds rest rest' : List Char} (hrest : c ∉ rest)
    (hrest' : c ∉ rest') (h : cs ++ c :: rest = ds ++ c :: rest') : rest = rest' := by
  rw [List.append_eq_append_iff] at h
  obtain ⟨gap, -, hgap⟩ | ⟨gap, -, hgap⟩ := h
  · cases gap with
    | nil => exact (List.cons.inj hgap).2
    | cons d gap => exact absurd (by simp [(List.cons.inj hgap).2]) hrest
  · cases gap with
    | nil => exact (List.cons.inj hgap).2.symm
    | cons d gap => exact absurd (by simp [(List.cons.inj hgap).2]) hrest'

/-- The last route tag of a text that ends with one is followed by what ends the text. -/
theorem eq_of_mem_afterEach_route {before found : List Char} {blank : Char}
    (hblank : isBlank blank = true)
    (h : found ∈ afterEach Tag.route.spelling (before ++ Tag.route.spelling ++ [blank]))
    (hsign : '@' ∉ found) : found = [blank] := by
  obtain ⟨earlier, hearlier⟩ := mem_afterEach_iff.mp h
  have hstem : Tag.route.spelling = ['@', 'a', 'p', 'i'] := rfl
  have hne : '@' ≠ blank := by
    rintro rfl
    exact absurd hblank (by decide)
  have hlast : ['a', 'p', 'i'] ++ found = ['a', 'p', 'i'] ++ [blank] := by
    have hend : earlier ++ '@' :: (['a', 'p', 'i'] ++ found) =
        before ++ '@' :: (['a', 'p', 'i'] ++ [blank]) := by simpa [hstem] using hearlier.symm
    exact eq_of_append_cons_eq (by simpa using hsign) (by simpa using hne) hend
  exact List.append_cancel_left hlast

theorem scan_routeLine {name name' : List Char} (hname : ∀ c ∈ name, isWord c = true)
    (h : equalIgnoringCase name' name = true) {blank : Char} (hblank : isBlank blank = true)
    (before rest : List Char) :
    Tag.route.scan RouteHeader.read? (routeLine before blank name' rest) =
      Tag.route.scan RouteHeader.read? (routeLine before blank name rest) := by
  let start := before ++ Tag.route.spelling ++ [blank]
  -- what follows a tag is a tag in `start` with all that comes after it, or stands behind the name
  have hsplit : ∀ name : List Char, (∀ c ∈ name, isWord c = true) →
      afterEach Tag.route.spelling (routeLine before blank name rest).toList =
        (afterEach Tag.route.spelling start).map (· ++ '{' :: (name ++ '}' :: rest)) ++
          afterEach Tag.route.spelling ('}' :: rest) := by
    intro name hname
    have hline : (routeLine before blank name rest).toList =
        start ++ '{' :: (name ++ '}' :: rest) := by simp [routeLine, start]
    have hsign : '@' ∉ '{' :: name := by
      simp only [List.mem_cons, not_or]
      exact ⟨by decide, fun hc => absurd (hname _ hc) (by decide)⟩
    rw [hline]
    refine (afterEach_append_cons (by decide) start _).trans (congrArg _ ?_)
    exact afterEach_append_of_not_mem hsign ('}' :: rest)
  have hread : ∀ found ∈ afterEach Tag.route.spelling start,
      (afterBlank? (found ++ '{' :: (name' ++ '}' :: rest))).bind RouteHeader.read? =
        (afterBlank? (found ++ '{' :: (name ++ '}' :: rest))).bind RouteHeader.read? := by
    intro found hfound
    by_cases hsign : '@' ∈ found
    · obtain ⟨cs, ds, rfl⟩ := List.append_of_mem hsign
      have hsealed : ∀ tail, (afterBlank? (cs ++ '@' :: tail)).bind RouteHeader.read? =
          (afterBlank? cs).bind RouteHeader.read? := by
        intro tail
        rw [afterBlank?_append_cons (by decide), Option.bind_map]
        exact Option.bind_congr fun cs _ => RouteHeader.read?_append_sign cs tail
      rw [List.append_assoc, List.append_assoc, List.cons_append, List.cons_append, hsealed,
        hsealed]
    · -- the tag is the one before the braces
      obtain rfl := eq_of_mem_afterEach_route hblank hfound hsign
      have hafter : ∀ cs, afterBlank? (blank :: cs) = some cs := fun cs => if_pos hblank
      rw [List.singleton_append, List.singleton_append, hafter, hafter]
      exact RouteHeader.read?_congr_name hname h rest
  rw [Tag.scan_eq, Tag.scan_eq, scanFor, scanFor, hsplit name hname,
    hsplit name' (isWord_of_equalIgnoringCase h hname), List.findSome?_append,
    List.findSome?_append, List.findSome?_map, List.findSome?_map]
  exact congrArg (Option.or · _) (findSome?_congr hread)

namespace Draft

theorem exists_routeLine {b : Block} {d : Draft} (h : (ofBlock? b).result = .ok (some d)) :
    ∃ before blank name rest, b.firstLine = routeLine before blank name rest ∧
      isBlank blank = true ∧ (∀ c ∈ name, isWord c = true) ∧
      name.map Char.toLower = d.method.name.toList := by
  obtain ⟨header, hheader, hmethod, -⟩ := exists_routeHeader h
  rw [Block.routeHeader?, Tag.scan_eq] at hheader
  obtain ⟨before, text, ⟨blank, hblank, hline⟩, hread, -⟩ := scanFor_eq_some_iff.mp hheader
  rw [RouteHeader.read?_eq] at hread
  obtain ⟨inner, hopen, hread⟩ := Option.bind_eq_some_iff.mp hread
  obtain ⟨⟨name, tail⟩, hword, hread⟩ := Option.bind_eq_some_iff.mp hread
  obtain ⟨rest, hclose, hread⟩ := Option.bind_eq_some_iff.mp hread
  obtain ⟨parts, -, hread⟩ := Option.bind_eq_some_iff.mp hread
  obtain ⟨method, hname, rfl⟩ := Option.map_eq_some_iff.mp hread
  obtain ⟨rfl, rfl, -⟩ := word?_eq_some hword
  refine ⟨before, blank, word inner, rest, ?_, hblank, fun c hc => isWord_of_mem_word hc, ?_⟩
  · have hinner : inner = word inner ++ '}' :: rest := by
      rw [← List.singleton_append, ← after?_eq_some_iff.mp hclose, word_append_afterWord]
    rw [routeLine, ← hinner, ← String.toList_inj, String.toList_ofList, hline,
      after?_eq_some_iff.mp hopen]
    rfl
  · rw [hmethod]
    exact Method.ofName?_eq_some_iff.mp hname

theorem ofBlock?_congr {b b' : Block} (hheader : b.routeHeader? = b'.routeHeader?)
    (hbody : b.body = b'.body) (hsource : b.source = b'.source) : ofBlock? b = ofBlock? b' := by
  unfold ofBlock?
  simp only [hheader, hbody, hsource]

theorem routeHeader?_of_ofBlock? {b : Block} (h : (ofBlock? b).result = .ok none) :
    b.routeHeader? = none := by
  unfold ofBlock? at h
  split at h
  · assumption
  · obtain ⟨params, -, h⟩ := Reading.bind_eq_ok_iff.mp h
    cases h

/-! ### The table -/

/-- The key under which the route of a draft stands. -/
def key (d : Draft) : Method × String := (d.method, d.path)

/-- The drafts of the blocks that declare routes, in order. -/
def ofBlocks (blocks : List Block) : List Draft :=
  blocks.filterMap fun b => (ofBlock? b).result.toOption.join

end Draft

/-- The route but for the model of its body parameters. -/
def Route.withoutBodyModel (r : Route) : Route := { r with implicitModel := none }

theorem Catalog.routes_eq_map {c : Catalog} {routes : List Route}
    (h : c.routes.result = .ok routes) : routes = (Draft.ofBlocks c.candidates).map c.route := by
  obtain ⟨drafts, hdrafts, h⟩ := Reading.bind_eq_ok_iff.mp h
  cases h
  rw [← Reading.filterMap_of_mapM hdrafts, List.filterMap_filterMap]
  rfl

namespace Api

theorem keys_routes_ofRoutes (routes : List Route) (definitions : Table String Fields) :
    (ofRoutes routes definitions).routes.keys = (routes.map Route.key).eraseDups := by
  rw [ofRoutes, Table.keys_mapValues, Table.keys_ofList, List.map_map]
  rfl

theorem find?_routes_ofRoutes (routes : List Route) (definitions : Table String Fields)
    (key : Method × String) : (ofRoutes routes definitions).routes.find? key =
      (routes.filter (·.key = key)).getLast?.map Route.withBodyModel := by
  rw [ofRoutes, Table.find?_mapValues, find?_ofList_key]

/-- A block that declares no route can be left out. -/
theorem ofCatalog_without {c : Catalog} {before after : List Block} {b : Block}
    (hc : c.candidates = before ++ b :: after) (hb : (Draft.ofBlock? b).result = .ok none) :
    ofCatalog { c with candidates := before ++ after } = ofCatalog c := by
  have hheader := Draft.routeHeader?_of_ofBlock? hb
  rw [ofCatalog, ofCatalog, Catalog.routes_eq_filter, Catalog.routes_eq_filter, hc,
    List.filter_append, List.filter_append, List.filter_cons_of_neg (by simp [hheader])]
  rfl

/-- The table of routes, for all candidates that can be resolved. Its keys are the methods and paths
of the blocks that declare routes, each once and in the order of first appearance, and the route at
a key is that of the last draft with it, but for the name of its model. The name of a method stands
in the first line in any case, and in another case the block has the same draft. Leaving out a block
that declares no route changes nothing. -/
theorem route_table {c : Catalog} {api : Api} (h : (ofCatalog c).result = .ok api) :
    api.routes.keys = ((Draft.ofBlocks c.candidates).map Draft.key).eraseDups ∧
    api.routes.keys.Nodup ∧
    (∀ key, (api.routes.find? key).map Route.withoutBodyModel =
      ((Draft.ofBlocks c.candidates).filter (·.key = key)).getLast?.map c.route) ∧
    (∀ b ∈ c.candidates, ∀ d, (Draft.ofBlock? b).result = .ok (some d) →
      ∃ before blank name rest, b.firstLine = routeLine before blank name rest ∧
        equalIgnoringCase name d.method.name.toList = true ∧
        ∀ name', equalIgnoringCase name' name = true →
          Draft.ofBlock? ⟨routeLine before blank name' rest :: b.body, b.source⟩ =
            Draft.ofBlock? b) ∧
    ∀ before b after, c.candidates = before ++ b :: after → (Draft.ofBlock? b).result = .ok none →
      ofCatalog { c with candidates := before ++ after } = ofCatalog c := by
  obtain ⟨routes, hroutes, hapi⟩ := Reading.bind_eq_ok_iff.mp h
  cases hapi
  obtain rfl := Catalog.routes_eq_map hroutes
  refine ⟨?_, Table.nodup _, fun key => ?_, fun b _ d hd => ?_, fun before b after hc hb => ?_⟩
  · rw [keys_routes_ofRoutes, List.map_map]
    rfl
  · rw [find?_routes_ofRoutes, List.filter_map, List.getLast?_map, Option.map_map, Option.map_map]
    rfl
  · obtain ⟨before, blank, name, rest, hline, hblank, hname, hmethod⟩ := Draft.exists_routeLine hd
    refine ⟨before, blank, name, rest, hline, ?_, fun name' h => ?_⟩
    · rw [equalIgnoringCase, hmethod, d.method.lower_name, beq_self_eq_true]
    · refine Draft.ofBlock?_congr ?_ rfl rfl
      rw [Block.routeHeader?, Block.routeHeader?, hline]
      exact scan_routeLine hname h hblank before rest
  · exact ofCatalog_without hc hb

/-- Two blocks with one method, in two spellings, and one path, with a comment and another route
between them. -/
theorem route_table_two_spellings :
    let comment : Block := ⟨["a remark"], "s"⟩
    let c : Catalog := { candidates := [⟨["@api {get} /a Old one"], "s"⟩, comment,
      ⟨["@api {post} /a Other"], "s"⟩, ⟨["@api {GET} /a New one"], "t"⟩] }
    ∃ api, (ofCatalog c).result = .ok api ∧ api.routes.keys = [(.get, "/a"), (.post, "/a")] ∧
      (api.routes.find? (.get, "/a")).map (fun r => (r.summary, r.controller)) =
        some ("New one", "t") ∧
      ofCatalog { c with candidates := c.candidates.erase comment } = ofCatalog c := by
  intro comment c
  have hok : (ofCatalog c).result.toOption.isSome = true := by decide +kernel
  obtain ⟨api, hapi⟩ := Option.isSome_iff_exists.mp hok
  have hapi := except_eq_ok_of_toOption hapi
  obtain ⟨hkeys, -, hvalue, -, hwithout⟩ := route_table hapi
  refine ⟨api, hapi, ?_, ?_, ?_⟩
  · rw [hkeys]
    decide +kernel
  · have hsummary := congrArg (Option.map fun r : Route => (r.summary, r.controller))
      (hvalue (.get, "/a"))
    rw [Option.map_map] at hsummary
    refine hsummary.trans ?_
    decide +kernel
  · have hheader : comment.routeHeader? = none := by decide +kernel
    have hcomment : (Draft.ofBlock? comment).result = .ok none := by
      rw [Draft.ofBlock?, hheader]
      rfl
    exact hwithout [_] comment [_, _] rfl hcomment

end Api

end RouteDoc
