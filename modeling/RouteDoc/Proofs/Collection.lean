import RouteDoc.Document

/-! The two passes of generation as one equation. Collection reads the blocks that declare
definitions and only them, and what it leaves is fixed by the blocks of each role in their order.
The second pass reads the blocks that declare routes and only them. `generate_eq` puts the two
together: a document is generated from the definition blocks, the description blocks and the route
blocks, each taken by itself. -/

namespace RouteDoc

/-- What a block is read as. -/
inductive Role where
  | definition
  | description
  | route
  /-- A comment that declares nothing. -/
  | comment
  deriving DecidableEq, Repr

/-- The role of a block, which its first line decides. -/
def Block.role (b : Block) : Role :=
  if b.definitionName?.isSome then .definition
  else if b.descriptionName?.isSome then .description
  else if b.routeHeader?.isSome then .route
  else .comment

/-- The blocks of all sources, in order. -/
def allBlocks (sources : List Source) : List Block :=
  sources.flatMap Source.blocks

/-- The blocks of all sources with a role, in order. -/
def blocksOf (role : Role) (sources : List Source) : List Block :=
  (allBlocks sources).filter (·.role = role)

namespace Block

/-- The name and the fields that a definition block declares. -/
def definition (b : Block) : Reading (String × Fields) :=
  (Fields.ofLines b.body).inFile b.source >>= fun fields => pure (b.definitionName?.getD "", fields)

/-- The name and the lines that a description block declares. -/
def description (b : Block) : String × List String :=
  (b.descriptionName?.getD "", b.body)

theorem role_eq_definition {b : Block} : b.role = .definition ↔ b.definitionName?.isSome = true := by
  unfold role
  split
  · simp_all
  · split
    · simp_all
    · split <;> simp_all

theorem declaration_of_definition {b : Block} (h : b.role = .definition) :
    b.declaration = b.definition >>= fun e => pure (.definition e.1 e.2) := by
  obtain ⟨name, hn⟩ := Option.isSome_iff_exists.mp (role_eq_definition.mp h)
  simp only [declaration, definition, hn, Option.getD_some, bind_assoc, pure_bind]

theorem declaration_of_description {b : Block} (h : b.role = .description) :
    b.declaration = pure (.description b.description.1 b.description.2) := by
  unfold role at h
  split at h
  · cases h
  · rename_i hd
    split at h
    · rename_i hs
      obtain ⟨name, hn⟩ := Option.isSome_iff_exists.mp hs
      simp only [Option.not_isSome_iff_eq_none] at hd
      simp only [declaration, description, hd, hn, Option.getD_some]
    · split at h <;> cases h

/-- A block that is neither a definition nor a description may declare a route. -/
theorem declaration_of_candidate {b : Block} (h : b.role = .route ∨ b.role = .comment) :
    b.declaration = pure (.candidate b) := by
  unfold role at h
  split at h
  · simp at h
  · rename_i hd
    split at h
    · simp at h
    · rename_i hs
      simp only [Option.not_isSome_iff_eq_none] at hd hs
      simp only [declaration, hd, hs]

/-- Among blocks that are neither definitions nor descriptions the routes are those whose first
line declares one. -/
theorem role_eq_route {b : Block} (h : b.role = .route ∨ b.role = .comment) :
    b.role = .route ↔ b.routeHeader?.isSome = true := by
  unfold role at h ⊢
  split at h
  · simp at h
  · split at h
    · simp at h
    · split at h <;> simp_all

end Block

namespace Catalog

/-- Collects one block. -/
def addBlock (c : Catalog) (b : Block) : Reading Catalog :=
  b.declaration >>= fun declaration =>
    pure ({ c with blockCount := c.blockCount + 1 }.add declaration)

/-- The catalog with blocks collected, of which the definitions have been read as `entries`. -/
def after (c : Catalog) (blocks : List Block) (entries : List (String × Fields)) : Catalog where
  definitions := c.definitions.insertAll entries
  descriptions := c.descriptions.insertAll
    ((blocks.filter (·.role = .description)).map Block.description)
  candidates := c.candidates ++ blocks.filter fun b => b.role = .route ∨ b.role = .comment
  blockCount := c.blockCount + blocks.length

theorem addBlocks_eq (c : Catalog) (blocks : List Block) :
    ((c.addBlocks blocks).2 >>= fun _ => pure (c.addBlocks blocks).1) =
      blocks.foldlM addBlock c := by
  induction blocks generalizing c with
  | nil => rfl
  | cons b bs ih =>
    rw [List.foldlM_cons, addBlock, bind_assoc]
    simp only [pure_bind, ← ih]
    cases h : b.declaration with
    | mk warnings result =>
      cases result with
      | error fault =>
        simp only [addBlocks, h, Reading.error_bind]
      | ok declaration =>
        simp only [addBlocks, h, Reading.ok_bind]
        generalize addBlocks _ bs = collected
        obtain ⟨c', warnings', result⟩ := collected
        cases result
        · rfl
        · simp only [Reading.ok_bind, List.append_assoc]

theorem collect_eq_foldlM (sources : List Source) :
    collect sources = (allBlocks sources).foldlM addBlock {} := by
  unfold collect allBlocks
  generalize ({} : Catalog) = c
  induction sources generalizing c with
  | nil => rfl
  | cons s sources ih =>
    rw [List.foldlM_cons, List.flatMap_cons, List.foldlM_append, ← addBlocks_eq]
    simp only [addSource] at ih ⊢
    simp only [bind_assoc, pure_bind, ih]

theorem after_definition (c : Catalog) {b : Block} (h : b.role = .definition) (bs : List Block)
    (e : String × Fields) (es : List (String × Fields)) :
    ({ c with blockCount := c.blockCount + 1 }.add (.definition e.1 e.2)).after bs es =
      c.after (b :: bs) (e :: es) := by
  simp [after, add, h, Table.insertAll]
  omega

theorem after_description (c : Catalog) {b : Block} (h : b.role = .description) (bs : List Block)
    (es : List (String × Fields)) :
    ({ c with blockCount := c.blockCount + 1 }.add
      (.description b.description.1 b.description.2)).after bs es = c.after (b :: bs) es := by
  simp [after, add, h, Table.insertAll]
  omega

theorem after_candidate (c : Catalog) {b : Block} (h : b.role = .route ∨ b.role = .comment)
    (bs : List Block) (es : List (String × Fields)) :
    ({ c with blockCount := c.blockCount + 1 }.add (.candidate b)).after bs es =
      c.after (b :: bs) es := by
  have hs : b.role ≠ .description := by
    rcases h with h | h <;> rw [h] <;> decide
  simp [after, add, h, hs]
  omega

/-- Collection reads the definition blocks, and nothing else can stop it. -/
theorem foldlM_addBlock (c : Catalog) (blocks : List Block) :
    blocks.foldlM addBlock c =
      (blocks.filter (·.role = .definition)).mapM Block.definition >>= fun entries =>
        pure (c.after blocks entries) := by
  induction blocks generalizing c with
  | nil => simp [after, Table.insertAll]
  | cons b bs ih =>
    rw [List.foldlM_cons, addBlock]
    cases h : b.role with
    | definition =>
      rw [Block.declaration_of_definition h, List.filter_cons_of_pos (by simp [h]), List.mapM_cons]
      simp only [bind_assoc, pure_bind, ih, after_definition c h]
    | description =>
      rw [Block.declaration_of_description h, List.filter_cons_of_neg (by simp [h])]
      simp only [pure_bind, ih, after_description c h]
    | route =>
      rw [Block.declaration_of_candidate (.inl h), List.filter_cons_of_neg (by simp [h])]
      simp only [pure_bind, ih, after_candidate c (.inl h)]
    | comment =>
      rw [Block.declaration_of_candidate (.inr h), List.filter_cons_of_neg (by simp [h])]
      simp only [pure_bind, ih, after_candidate c (.inr h)]

theorem collect_eq (sources : List Source) :
    collect sources = (blocksOf .definition sources).mapM Block.definition >>= fun entries =>
      pure (after {} (allBlocks sources) entries) := by
  rw [collect_eq_foldlM, foldlM_addBlock, blocksOf]

/-- A block that declares no route gives no draft and raises nothing. -/
theorem drafts_filter (blocks : List Block) :
    (blocks.mapM Draft.ofBlock? >>= fun drafts => pure (drafts.filterMap id)) =
      (blocks.filter (·.routeHeader?.isSome)).mapM Draft.ofBlock? >>= fun drafts =>
        pure (drafts.filterMap id) := by
  induction blocks with
  | nil => rfl
  | cons b bs ih =>
    rw [List.mapM_cons, bind_assoc]
    simp only [bind_assoc, pure_bind]
    cases h : b.routeHeader? with
    | none =>
      have hb : Draft.ofBlock? b = pure none := by simp only [Draft.ofBlock?, h]
      rw [List.filter_cons_of_neg (by simp [h]), hb, pure_bind]
      exact ih
    | some header =>
      rw [List.filter_cons_of_pos (by simp [h]), List.mapM_cons]
      simp only [bind_assoc, pure_bind]
      refine bind_congr fun draft => ?_
      have hcons : ∀ drafts : List (Option Draft),
          (pure ((draft :: drafts).filterMap id) : Reading (List Draft)) =
            pure (drafts.filterMap id) >>= fun rest => pure (draft.toList ++ rest) := by
        intro drafts
        cases draft <;> simp
      simp only [hcons, ← bind_assoc, ih]

theorem routes_eq_filter (c : Catalog) :
    c.routes = (c.candidates.filter (·.routeHeader?.isSome)).mapM Draft.ofBlock? >>= fun drafts =>
      pure ((drafts.filterMap id).map c.route) := by
  have hroutes : c.routes =
      (c.candidates.mapM Draft.ofBlock? >>= fun drafts => pure (drafts.filterMap id)) >>=
        fun drafts => pure (drafts.map c.route) := by
    simp only [routes, bind_assoc, pure_bind]
  rw [hroutes, drafts_filter, bind_assoc]
  simp only [pure_bind]

/-- The candidates with a route declaration are the route blocks. -/
theorem filter_candidates (blocks : List Block) (entries : List (String × Fields)) :
    (after {} blocks entries).candidates.filter (·.routeHeader?.isSome) =
      blocks.filter (·.role = .route) := by
  simp only [after, List.nil_append, List.filter_filter]
  refine List.filter_congr fun b _ => ?_
  by_cases h : b.role = .route ∨ b.role = .comment
  · rw [decide_eq_true h, Bool.and_true, Bool.eq_iff_iff, decide_eq_true_iff]
    exact (Block.role_eq_route h).symm
  · have hr : b.role ≠ .route := fun hr => h (.inl hr)
    rw [decide_eq_false h, Bool.and_false, decide_eq_false hr]

end Catalog

/-- The API with declared models, descriptions and routes as their blocks give them. -/
def Api.ofParts (entries : List (String × Fields)) (descriptions : List (String × List String))
    (drafts : List Draft) : Api :=
  let catalog : Catalog := {
    definitions := Table.ofList entries
    descriptions := Table.ofList descriptions }
  Api.ofRoutes (drafts.map catalog.route) catalog.definitions

/-- A catalog describes the API of its route blocks, read one after the other. -/
theorem Api.ofCatalog_after (blocks : List Block) (entries : List (String × Fields)) :
    Api.ofCatalog (Catalog.after {} blocks entries) =
      (blocks.filter (·.role = .route)).mapM Draft.ofBlock? >>= fun drafts =>
        pure (Api.ofParts entries ((blocks.filter (·.role = .description)).map Block.description)
          (drafts.filterMap id)) := by
  rw [Api.ofCatalog, Catalog.routes_eq_filter, Catalog.filter_candidates]
  simp only [bind_assoc, pure_bind]
  rfl

/-- Generation reads the definition blocks, then the route blocks, and nothing else. -/
theorem generate_eq (settings : Settings) (sources : List Source) :
    generate settings sources =
      (blocksOf .definition sources).mapM Block.definition >>= fun entries =>
        (blocksOf .route sources).mapM Draft.ofBlock? >>= fun drafts =>
          pure ((Api.ofParts entries ((blocksOf .description sources).map Block.description)
            (drafts.filterMap id)).document settings sources.length (allBlocks sources).length) := by
  have hcount : ∀ entries, (Catalog.after {} (allBlocks sources) entries).blockCount =
      (allBlocks sources).length := fun _ => Nat.zero_add _
  rw [generate, Catalog.collect_eq]
  simp only [bind_assoc, pure_bind, Api.ofCatalog_after, hcount, blocksOf]

/-- The document depends on the definition blocks, the description blocks and the route blocks, each
in their order, and on nothing else in the sources: two lists of sources that agree on the three
give the same text and the same counts, or the same fault, with the same warnings on the way. How
blocks of different roles are mixed and spread over the sources, other comments, and the text
outside comments play no part. -/
theorem generate_congr_blocks (settings : Settings) {s t : List Source}
    (hdefinition : blocksOf .definition s = blocksOf .definition t)
    (hdescription : blocksOf .description s = blocksOf .description t)
    (hroute : blocksOf .route s = blocksOf .route t) :
    (generate settings s).warnings = (generate settings t).warnings ∧
    ((∃ g g', (generate settings s).result = .ok g ∧ (generate settings t).result = .ok g' ∧
        g.text = g'.text ∧ g.counts.routes = g'.counts.routes ∧
        g.counts.paths = g'.counts.paths ∧ g.counts.definitions = g'.counts.definitions ∧
        g.counts.implicitModels = g'.counts.implicitModels) ∨
      ∃ fault, (generate settings s).result = .error fault ∧
        (generate settings t).result = .error fault) := by
  rw [generate_eq, generate_eq, hdefinition, hdescription, hroute]
  obtain ⟨w, fault | entries⟩ := (blocksOf .definition t).mapM Block.definition
  · exact ⟨rfl, .inr ⟨fault, rfl, rfl⟩⟩
  obtain ⟨w', fault | drafts⟩ := (blocksOf .route t).mapM Draft.ofBlock?
  · exact ⟨rfl, .inr ⟨fault, rfl, rfl⟩⟩
  · exact ⟨rfl, .inl ⟨_, _, rfl, rfl, rfl, rfl, rfl, rfl, rfl⟩⟩

/-- A definition and a route in one source, and the route in a source before the definition's. -/
theorem generate_congr_blocks_spread :
    let s : List Source := [⟨"a", "/**\n@apiDefine P\n*/\n/**\n@api {get} /:i It\n*/"⟩]
    let t : List Source := [⟨"a", "/**\n@api {get} /:i It\n*/"⟩, ⟨"a", "x\n/**\n@apiDefine P\n*/"⟩]
    (blocksOf .route s).length = 1 ∧ ∃ g g',
      (generate { title := "T", host := "h" } s).result = .ok g ∧
      (generate { title := "T", host := "h" } t).result = .ok g' ∧ g.text = g'.text := by
  intro s t
  have hs : allBlocks s = [⟨["@apiDefine P"], "a"⟩, ⟨["@api {get} /:i It"], "a"⟩] := by
    decide +kernel
  have ht : allBlocks t = [⟨["@api {get} /:i It"], "a"⟩, ⟨["@apiDefine P"], "a"⟩] := by
    decide +kernel
  have hp : (⟨["@apiDefine P"], "a"⟩ : Block).role = .definition := by decide +kernel
  have hr : (⟨["@api {get} /:i It"], "a"⟩ : Block).role = .route := by decide +kernel
  refine ⟨by simp [blocksOf, hs, hp, hr], ?_⟩
  obtain ⟨-, ⟨g, g', h, h', htext, -⟩ | ⟨fault, hf, -⟩⟩ :=
    generate_congr_blocks { title := "T", host := "h" } (s := s) (t := t)
      (by simp [blocksOf, hs, ht, hp, hr]) (by simp [blocksOf, hs, ht, hp, hr])
      (by simp [blocksOf, hs, ht, hp, hr])
  · exact ⟨g, g', h, h', htext⟩
  · have hok : (generate { title := "T", host := "h" } s).result.isOk = true := by
      decide +kernel
    rw [hf] at hok
    cases hok

end RouteDoc
