import RouteDoc.Proofs.Failure
import RouteDoc.Proofs.Tables

/-! Sources that are added to one catalog one after the other, whether or not each can be read. A
source is taken up to its first block that fails, and that block is counted and nothing else. So the
catalog follows from the blocks that were taken, and its count from how many of each sort there were
and how many sources failed. -/

namespace RouteDoc

/-- The table keeps the first place of each key among the entries, and its last value. -/
structure Table.Keeps {κ α : Type} [DecidableEq κ] (t : Table κ α) (entries : List (κ × α)) :
    Prop where
  keys : t.keys = (entries.map Prod.fst).eraseDups
  values : ∀ key, t.find? key = (entries.filter (·.1 = key)).getLast?.map Prod.snd

theorem Table.keeps_ofList {κ α : Type} [DecidableEq κ] (entries : List (κ × α)) :
    (Table.ofList entries).Keeps entries :=
  ⟨keys_ofList entries, find?_ofList entries⟩

namespace Block

/-- Whether what the block declares cannot be read. -/
def fails (b : Block) : Bool := !b.declaration.result.isOk

/-- The name and the fields of a definition block, if they can be read. -/
def readDefinition? (b : Block) : Option (String × Fields) :=
  if b.role = .definition then b.definition.result.toOption else none

/-- The blocks up to the first that fails, with that one. -/
def taken (blocks : List Block) : List Block :=
  blocks.takeWhile (!·.fails) ++ (blocks.dropWhile (!·.fails)).take 1

theorem fails_of_definition {b : Block} (h : b.role = .definition) :
    b.fails = !b.definition.result.isOk := by
  rw [fails, declaration_of_definition h, Reading.result_bind]
  cases b.definition.result <;> rfl

theorem fails_of_not_definition {b : Block} (h : b.role ≠ .definition) : b.fails = false := by
  unfold fails
  cases hr : b.role with
  | definition => exact absurd hr h
  | description => rw [declaration_of_description hr]; rfl
  | route => rw [declaration_of_candidate (.inl hr)]; rfl
  | comment => rw [declaration_of_candidate (.inr hr)]; rfl

/-- A block fails if it is a definition with a fatal line. -/
theorem fails_iff {b : Block} : b.fails = true ↔ b.role = .definition ∧ b.IsBad := by
  by_cases h : b.role = .definition
  · rw [fails_of_definition h, ← exists_reports_iff]
    simp only [← definition_error_iff, h, true_and]
    cases b.definition.result <;> simp [Except.isOk, Except.toBool]
  · simp [fails_of_not_definition h, h]

theorem taken_cons_of_fails {b : Block} (h : b.fails = true) (bs : List Block) :
    taken (b :: bs) = [b] := by
  simp [taken, h]

theorem taken_cons {b : Block} (h : b.fails = false) (bs : List Block) :
    taken (b :: bs) = b :: taken bs := by
  simp [taken, h]

theorem taken_append {before : List Block} (h : ∀ b ∈ before, b.fails = false) (rest : List Block) :
    taken (before ++ rest) = before ++ taken rest := by
  induction before with
  | nil => rfl
  | cons b before ih =>
    rw [List.cons_append, taken_cons (h b (by simp)),
      ih fun x hx => h x (List.mem_cons_of_mem _ hx), List.cons_append]

/-- At most one of the blocks taken fails. -/
theorem countP_fails_taken (blocks : List Block) :
    (taken blocks).countP fails = if blocks.any fails then 1 else 0 := by
  induction blocks with
  | nil => rfl
  | cons b bs ih =>
    cases h : b.fails with
    | true => simp [taken_cons_of_fails h, h]
    | false => simp [taken_cons h, h, ih]

theorem isSome_readDefinition? {b : Block} (h : b.role = .definition) :
    b.readDefinition?.isSome = !b.fails := by
  rw [fails_of_definition h, readDefinition?, if_pos h, Bool.not_not]
  cases b.definition.result <;> rfl

/-- A block is a definition that is read, a description, a candidate, or one that fails. -/
theorem length_eq_sum (blocks : List Block) :
    blocks.length = (blocks.filterMap readDefinition?).length +
      (blocks.filter (·.role = .description)).length +
      (blocks.filter fun b => b.role = .route ∨ b.role = .comment).length +
      blocks.countP fails := by
  induction blocks with
  | nil => rfl
  | cons b bs ih =>
    cases h : b.role with
    | definition =>
      have hread := isSome_readDefinition? h
      cases hd : b.readDefinition? with
      | none =>
        have hfails : b.fails = true := by simpa [hd] using hread
        simp [-Bool.decide_or, List.filterMap_cons_none hd, h, hfails]
        omega
      | some e =>
        have hfails : b.fails = false := by simpa [hd] using hread
        simp [-Bool.decide_or, List.filterMap_cons_some hd, h, hfails]
        omega
    | _ =>
      have hread : b.readDefinition? = none := by simp [readDefinition?, h]
      have hfails : b.fails = false := fails_of_not_definition (by simp [h])
      simp [-Bool.decide_or, List.filterMap_cons_none hread, h, hfails]
      omega

end Block

/-- The blocks of a source that a catalog takes in. -/
def Source.taken (s : Source) : List Block := Block.taken s.blocks

namespace Catalog

/-- The catalog after one more block. -/
def step (c : Catalog) (b : Block) : Catalog :=
  let counted := { c with blockCount := c.blockCount + 1 }
  match b.declaration.result with
  | .error _ => counted
  | .ok declaration => counted.add declaration

theorem step_of_fails {c : Catalog} {b : Block} (h : b.fails = true) :
    c.step b = { c with blockCount := c.blockCount + 1 } := by
  unfold Block.fails at h
  unfold step
  cases hd : b.declaration.result with
  | error fault => rfl
  | ok declaration => rw [hd] at h; cases h

theorem after_step (c : Catalog) (b : Block) (bs : List Block) (es : List (String × Fields)) :
    (c.step b).after bs es = c.after (b :: bs) (b.readDefinition?.toList ++ es) := by
  unfold step Block.readDefinition?
  cases h : b.role with
  | definition =>
    rw [Block.declaration_of_definition h, Reading.result_bind]
    cases hd : b.definition.result with
    | error fault =>
      simp [after, h, bind, Except.bind, Except.toOption]
      omega
    | ok e => exact after_definition c h bs e es
  | description =>
    rw [Block.declaration_of_description h]
    exact after_description c h bs es
  | route =>
    rw [Block.declaration_of_candidate (.inl h)]
    exact after_candidate c (.inl h) bs es
  | comment =>
    rw [Block.declaration_of_candidate (.inr h)]
    exact after_candidate c (.inr h) bs es

theorem foldl_step (c : Catalog) (blocks : List Block) :
    blocks.foldl step c = c.after blocks (blocks.filterMap Block.readDefinition?) := by
  induction blocks generalizing c with
  | nil => simp [after, Table.insertAll]
  | cons b bs ih =>
    rw [List.foldl_cons, ih, after_step]
    cases h : b.readDefinition? with
    | none => rw [List.filterMap_cons_none h]; rfl
    | some e => rw [List.filterMap_cons_some h]; rfl

/-- Adding blocks steps through those that are taken, and fails if one of them does. -/
theorem addBlocks_eq_foldl (c : Catalog) (blocks : List Block) :
    (c.addBlocks blocks).1 = (Block.taken blocks).foldl step c ∧
      (!(c.addBlocks blocks).2.result.isOk) = blocks.any Block.fails := by
  induction blocks generalizing c with
  | nil => exact ⟨rfl, rfl⟩
  | cons b bs ih =>
    cases hd : b.declaration.result with
    | error fault =>
      have hfails : b.fails = true := by simp [Block.fails, hd, Except.isOk, Except.toBool]
      have hadd : c.addBlocks (b :: bs) =
          (c.step b, ⟨b.declaration.warnings, .error fault⟩) := by
        simp only [addBlocks, step, hd]
      rw [hadd, Block.taken_cons_of_fails hfails, List.any_cons, hfails]
      exact ⟨rfl, rfl⟩
    | ok declaration =>
      have hfails : b.fails = false := by simp [Block.fails, hd, Except.isOk, Except.toBool]
      have hadd : c.addBlocks (b :: bs) =
          (((c.step b).addBlocks bs).1,
            ⟨b.declaration.warnings ++ ((c.step b).addBlocks bs).2.warnings,
              ((c.step b).addBlocks bs).2.result⟩) := by
        simp only [addBlocks, step, hd]
      rw [hadd, Block.taken_cons hfails, List.any_cons, hfails, Bool.false_or]
      exact ih (c.step b)

/-- Adds sources one after the other, also after one that could not be read to its end. Gives the
catalog as it then stands, and how the reading of each went. -/
def addSources (c : Catalog) : List Source → Catalog × List (Reading Unit)
  | [] => (c, [])
  | s :: sources =>
    let (after, reading) := c.addSource s
    let (last, readings) := after.addSources sources
    (last, reading :: readings)

theorem addSources_eq_foldl (c : Catalog) (sources : List Source) :
    (c.addSources sources).1 = (sources.flatMap Source.taken).foldl step c ∧
      (c.addSources sources).2.countP (!·.result.isOk) =
        (sources.flatMap Source.taken).countP Block.fails := by
  induction sources generalizing c with
  | nil => exact ⟨rfl, rfl⟩
  | cons s sources ih =>
    obtain ⟨hcatalog, hfails⟩ := addBlocks_eq_foldl c s.blocks
    obtain ⟨hlast, hfailed⟩ := ih (c.addSource s).1
    constructor
    · rw [List.flatMap_cons, List.foldl_append, Source.taken, ← hcatalog]
      exact hlast
    · -- a source that fails brings one block that does, and any other source none
      rw [List.flatMap_cons, List.countP_append, Source.taken, Block.countP_fails_taken, ← hfails,
        ← hfailed, Nat.add_comm]
      exact List.countP_cons

/-- What a catalog holds of the blocks that it took in, from sources of which `failed` could not be
read to their end. -/
structure Holds (c : Catalog) (blocks : List Block) (failed : Nat) : Prop where
  definitions : c.definitions.Keeps (blocks.filterMap Block.readDefinition?)
  descriptions : c.descriptions.Keeps
    ((blocks.filter (·.role = .description)).map Block.description)
  candidates : c.candidates = blocks.filter fun b => b.role ≠ .definition ∧ b.role ≠ .description
  blockCount : c.blockCount = (blocks.filterMap Block.readDefinition?).length +
    (blocks.filter (·.role = .description)).length + c.candidates.length + failed

theorem holds_foldl_step (blocks : List Block) :
    (blocks.foldl step {}).Holds blocks (blocks.countP Block.fails) := by
  rw [foldl_step]
  have hcandidates : (blocks.filter fun b => b.role = .route ∨ b.role = .comment) =
      blocks.filter fun b => b.role ≠ .definition ∧ b.role ≠ .description := by
    refine List.filter_congr fun b _ => ?_
    cases b.role <;> rfl
  refine ⟨Table.keeps_ofList _, Table.keeps_ofList _, ?_, ?_⟩
  · rw [← hcandidates]
    rfl
  · simp only [after, List.nil_append, Nat.zero_add]
    exact Block.length_eq_sum blocks

/-- A source with a block that fails leaves what the blocks before it had left, and counts it. -/
theorem addSource_of_fails (c : Catalog) {s : Source} {before after : List Block} {b : Block}
    (hs : s.blocks = before ++ b :: after) (hbefore : ∀ x ∈ before, x.fails = false)
    (hb : b.fails = true) :
    (c.addSource s).1 = { (c.addBlocks before).1 with
      blockCount := (c.addBlocks before).1.blockCount + 1 } := by
  have hall : Block.taken before = before := by
    simpa [Block.taken] using Block.taken_append hbefore []
  rw [addSource, (addBlocks_eq_foldl c _).1, (addBlocks_eq_foldl c before).1, hs, hall,
    Block.taken_append hbefore, Block.taken_cons_of_fails hb, List.foldl_append]
  exact step_of_fails hb

/-- What any sequence of sources leaves in a catalog, failed ones included: the tables, candidates
and count of the blocks that were taken, and nothing else decides it. A source fails if one of its
definition blocks has a fatal line, and then the block that fails is counted and changes nothing
more. -/
theorem addSources_holds (sources : List Source) :
    let run := addSources {} sources
    run.1.Holds (sources.flatMap Source.taken) (run.2.countP (!·.result.isOk)) ∧
    (∀ others : List Source, others.flatMap Source.taken = sources.flatMap Source.taken →
      (addSources {} others).1 = run.1) ∧
    ∀ (c : Catalog) (s : Source),
      ((∃ fault, (c.addSource s).2.result = .error fault) ↔
        ∃ b ∈ s.blocks, b.role = .definition ∧ b.IsBad) ∧
      ∀ before b after, s.blocks = before ++ b :: after → (∀ x ∈ before, x.fails = false) →
        b.fails = true → (c.addSource s).1 = { (c.addBlocks before).1 with
          blockCount := (c.addBlocks before).1.blockCount + 1 } := by
  intro run
  obtain ⟨hcatalog, hfailed⟩ := addSources_eq_foldl {} sources
  refine ⟨?_, ?_, ?_⟩
  · rw [hcatalog, hfailed]
    exact holds_foldl_step _
  · intro others htaken
    rw [hcatalog, (addSources_eq_foldl {} others).1, htaken]
  · intro c s
    refine ⟨?_, fun before b after => c.addSource_of_fails⟩
    have hany := (addBlocks_eq_foldl c s.blocks).2
    simp only [← Block.fails_iff, ← List.any_eq_true, ← hany, addSource]
    cases (c.addBlocks s.blocks).2.result <;> simp [Except.isOk, Except.toBool]

/-- A model that is declared, declared again in a block that fails, and once more in a later source.
The definition after the block that fails is not taken. -/
theorem addSources_holds_after_failure :
    let first : Source := ⟨"a", "/**\n@apiModel A\n@apiParam {String} x\n*/"⟩
    let broken : Source := ⟨"b", "/**\n@apiDescribe D\nText\n*/\n" ++
      "/**\n@apiModel A\n@apiParam {!} y\n*/\n/**\n@apiModel B\n*/"⟩
    let cut : Source := ⟨"b", "/**\n@apiDescribe D\nText\n*/\n" ++
      "/**\n@apiModel A\n@apiParam {!} y\n*/"⟩
    let last : Source := ⟨"c", "/**\n@apiDefine A\n@apiParam {Number} z\n*/\n/**\nA remark\n*/"⟩
    let run := addSources {} [first, broken, last]
    run.1.definitions.keys = ["A"] ∧
    (run.1.definitions.find? "A").map Table.keys = some ["z"] ∧
    run.1.descriptions.keys = ["D"] ∧ run.1.candidates = [⟨["A remark"], "c"⟩] ∧
    run.1.blockCount = 5 ∧ (addSources {} [first, cut, last]).1 = run.1 ∧
    (∃ fault, (addSource {} broken).2.result = .error fault) ∧
    (addSource {} broken).1.definitions.keys = [] ∧ (addSource {} broken).1.blockCount = 2 := by
  intro first broken cut last run
  let text : Block := ⟨["@apiDescribe D", "Text"], "b"⟩
  let bad : Block := ⟨["@apiModel A", "@apiParam {!} y"], "b"⟩
  have hbad : bad.fails = true := by decide +kernel
  have hblocks : broken.blocks = [text] ++ bad :: [⟨["@apiModel B"], "b"⟩] := by decide +kernel
  have htaken : [first, broken, last].flatMap Source.taken =
      [⟨["@apiModel A", "@apiParam {String} x"], "a"⟩, text, bad,
        ⟨["@apiDefine A", "@apiParam {Number} z"], "c"⟩, ⟨["A remark"], "c"⟩] := by decide +kernel
  have hcut : [first, cut, last].flatMap Source.taken =
      [first, broken, last].flatMap Source.taken := by
    rw [htaken]
    decide +kernel
  have hfailed : run.2.countP (!·.result.isOk) = 1 := by decide +kernel
  obtain ⟨hrun, hothers, hsource⟩ := addSources_holds [first, broken, last]
  obtain ⟨hfails, hbroken⟩ := hsource {} broken
  have hleft := hbroken _ _ _ hblocks (by decide +kernel) hbad
  rw [htaken, hfailed] at hrun
  refine ⟨?_, ?_, ?_, ?_, ?_, hothers _ hcut, ?_, ?_, ?_⟩
  · rw [hrun.definitions.keys]
    decide +kernel
  · rw [hrun.definitions.values]
    decide +kernel
  · rw [hrun.descriptions.keys]
    decide +kernel
  · rw [hrun.candidates]
    decide +kernel
  · rw [hrun.blockCount, hrun.candidates]
    decide +kernel
  · exact hfails.mpr ⟨bad, by simp [hblocks], Block.fails_iff.mp hbad⟩
  · rw [hleft]
    decide +kernel
  · rw [hleft]
    decide +kernel

end Catalog

end RouteDoc
