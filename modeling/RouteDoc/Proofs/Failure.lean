import RouteDoc.Proofs.Collection

/-! When generation fails, and with which fault. Reading stops at the first line whose type token
cannot be read. The definition blocks of all sources are read before the route blocks, so the fault
is that of the first bad definition block, and only if there is none that of the first bad route
block; no other block is read for fields. -/

namespace RouteDoc

namespace Reading

variable {α β : Type}

/-- A value that is made of what has been read raises no fault. -/
theorem bind_pure_error_iff {r : Reading α} {f : α → β} {fault : TypeFault} :
    (r >>= fun a => pure (f a)).result = .error fault ↔ r.result = .error fault := by
  rw [result_bind]
  cases r.result <;> simp [bind, Except.bind]

theorem mapM_cons_of_error {f : α → Reading β} {a : α} {xs : List α} {fault : TypeFault}
    (h : (f a).result = .error fault) : ((a :: xs).mapM f).result = .error fault := by
  rw [List.mapM_cons, result_bind, h]
  rfl

theorem mapM_cons_error_iff {f : α → Reading β} {a : α} {value : β} (h : (f a).result = .ok value)
    {xs : List α} {fault : TypeFault} :
    ((a :: xs).mapM f).result = .error fault ↔ (xs.mapM f).result = .error fault := by
  rw [List.mapM_cons, result_bind, h]
  exact bind_pure_error_iff

/-- A list is read up to the first element that cannot be read, with the fault of that one. -/
theorem mapM_error_iff {f : α → Reading β} {xs : List α} {fault : TypeFault} :
    (xs.mapM f).result = .error fault ↔ ∃ before x after, xs = before ++ x :: after ∧
      (∀ y ∈ before, ¬∃ e, (f y).result = .error e) ∧ (f x).result = .error fault := by
  induction xs with
  | nil => simp
  | cons a xs ih =>
    cases ha : (f a).result with
    | error e =>
      rw [mapM_cons_of_error ha, Except.error.injEq]
      constructor
      · rintro rfl
        exact ⟨[], a, xs, rfl, by simp, ha⟩
      · rintro ⟨before, x, after, hxs, hbefore, hx⟩
        cases before with
        | nil =>
          obtain ⟨rfl, -⟩ := List.cons.inj hxs
          exact Except.error.inj (ha.symm.trans hx)
        | cons b before =>
          obtain ⟨rfl, -⟩ := List.cons.inj hxs
          exact absurd ⟨e, ha⟩ (hbefore a (by simp))
    | ok value =>
      rw [mapM_cons_error_iff ha, ih]
      constructor
      · rintro ⟨before, x, after, rfl, hbefore, hx⟩
        refine ⟨a :: before, x, after, rfl, ?_, hx⟩
        intro y hy
        rcases List.mem_cons.mp hy with rfl | hy
        · simp [ha]
        · exact hbefore y hy
      · rintro ⟨before, x, after, hxs, hbefore, hx⟩
        cases before with
        | nil =>
          obtain ⟨rfl, -⟩ := List.cons.inj hxs
          exact absurd (ha.symm.trans hx) (by simp)
        | cons b before =>
          obtain ⟨rfl, rfl⟩ := List.cons.inj hxs
          exact ⟨before, x, after, rfl, fun y hy => hbefore y (by simp [hy]), hx⟩

theorem exists_mapM_error_iff {f : α → Reading β} {xs : List α} :
    (∃ fault, (xs.mapM f).result = .error fault) ↔ ∃ x ∈ xs, ∃ fault, (f x).result = .error fault := by
  induction xs with
  | nil => simp
  | cons a xs ih =>
    cases ha : (f a).result with
    | error e => exact ⟨fun _ => ⟨a, by simp, e, ha⟩, fun _ => ⟨e, mapM_cons_of_error ha⟩⟩
    | ok value => simp only [mapM_cons_error_iff ha, ih, List.mem_cons, exists_eq_or_imp, ha,
        reduceCtorEq, exists_false, false_or]

/-- If a list can be read, what is read are the values of its elements. -/
theorem filterMap_of_mapM {f : α → Reading β} {xs : List α} {ys : List β}
    (h : (xs.mapM f).result = .ok ys) : xs.filterMap (fun x => (f x).result.toOption) = ys := by
  induction xs generalizing ys with
  | nil =>
    cases h
    rfl
  | cons x xs ih =>
    rw [List.mapM_cons] at h
    obtain ⟨value, hx, h⟩ := Reading.bind_eq_ok_iff.mp h
    obtain ⟨values, hxs, h⟩ := Reading.bind_eq_ok_iff.mp h
    cases h
    rw [List.filterMap_cons_some (b := value) (by rw [hx]; rfl), ih hxs]

theorem inFile_error_iff {r : Reading α} {file : String} {fault : TypeFault} :
    (r.inFile file).result = .error fault ↔
      ∃ cause, r.result = .error cause ∧ fault = cause.inFile file := by
  change r.result.mapError (·.inFile file) = .error fault ↔ _
  cases r.result with
  | error e =>
    constructor
    · intro h
      exact ⟨e, rfl, (Except.error.inj h).symm⟩
    · rintro ⟨cause, hcause, rfl⟩
      cases hcause
      rfl
  | ok a =>
    constructor
    · intro h
      cases h
    · rintro ⟨cause, hcause, -⟩
      cases hcause

end Reading

/-- Reading the field that the line declares fails. -/
def IsFatal (line : String) : Prop :=
  ∃ fault, (Field.ofLine? line).result = .error fault

/-- A line is fatal if it has the pieces of a field with a name without dots, and the text between
the outer braces of its type token is no type expression. -/
theorem Field.ofLine?_error_iff {line : String} {fault : TypeFault} :
    (Field.ofLine? line).result = .error fault ↔ ∃ pieces, FieldLine.ofLine? line = some pieces ∧
      '.' ∉ pieces.name ∧ FieldType.parse pieces.typeText = .error fault.cause ∧
      fault.file = "" ∧ fault.line = line := by
  unfold Field.ofLine?
  cases hp : FieldLine.ofLine? line with
  | none => simp
  | some pieces =>
    simp only [Option.some.injEq, exists_eq_left']
    by_cases hdot : '.' ∈ pieces.name
    · simp [hdot]
    · simp only [hdot, if_false, not_false_eq_true, true_and]
      cases ht : FieldType.parse pieces.typeText with
      | error cause =>
        obtain ⟨file, l, c⟩ := fault
        simp only [Reading.fail, Except.error.injEq, TypeFault.mk.injEq]
        constructor
        · rintro ⟨rfl, rfl, rfl⟩; exact ⟨rfl, rfl, rfl⟩
        · rintro ⟨rfl, rfl, rfl⟩; exact ⟨rfl, rfl, rfl⟩
      | ok type =>
        simp only [reduceCtorEq, false_and, iff_false]
        split <;> simp [Reading.warn, bind, Reading.andThen]

namespace Block

/-- A line of the block after the first is fatal. -/
def IsBad (b : Block) : Prop :=
  ∃ line ∈ b.body, IsFatal line

/-- The fault that a bad block is reported with: it names the source of the block and the first
fatal line, and says why that line has no type expression. -/
structure Reports (b : Block) (fault : TypeFault) : Prop where
  file : fault.file = b.source
  line : ∃ before after, b.body = before ++ fault.line :: after ∧
    (∀ l ∈ before, ¬IsFatal l) ∧ IsFatal fault.line
  cause : ∃ pieces, FieldLine.ofLine? fault.line = some pieces ∧
    FieldType.parse pieces.typeText = .error fault.cause

theorem Reports.isBad {b : Block} {fault : TypeFault} (h : b.Reports fault) : b.IsBad := by
  obtain ⟨before, after, hbody, -, hfatal⟩ := h.line
  exact ⟨fault.line, by simp [hbody], hfatal⟩

/-- The fields of a block are read up to its first fatal line. -/
theorem fields_error_iff {b : Block} {fault : TypeFault} :
    ((Fields.ofLines b.body).inFile b.source).result = .error fault ↔ b.Reports fault := by
  have hlines : ∀ cause, (Fields.ofLines b.body).result = .error cause ↔
      (b.body.mapM Field.ofLine?).result = .error cause := fun _ => Reading.bind_pure_error_iff
  simp only [Reading.inFile_error_iff, hlines, Reading.mapM_error_iff]
  constructor
  · rintro ⟨cause, ⟨before, line, after, hbody, hbefore, hline⟩, rfl⟩
    obtain ⟨pieces, hp, -, ht, -, hl⟩ := Field.ofLine?_error_iff.mp hline
    refine ⟨rfl, ⟨before, after, ?_, hbefore, ?_⟩, ⟨pieces, ?_, ht⟩⟩
    · rw [hbody]; exact hl ▸ rfl
    · exact ⟨cause, by rw [← hline]; exact hl ▸ rfl⟩
    · rw [← hp]; exact hl ▸ rfl
  · rintro ⟨hfile, ⟨before, after, hbody, hbefore, cause, hline⟩, pieces, hp, ht⟩
    refine ⟨cause, ⟨before, fault.line, after, hbody, hbefore, hline⟩, ?_⟩
    obtain ⟨pieces', hp', -, ht', -, hl⟩ := Field.ofLine?_error_iff.mp hline
    obtain rfl : pieces = pieces' := Option.some.inj (hp.symm.trans hp')
    have hcause : fault.cause = cause.cause := Except.error.inj (ht.symm.trans ht')
    obtain ⟨file, line, c⟩ := fault
    simp only [TypeFault.inFile, TypeFault.mk.injEq]
    exact ⟨hfile, hl.symm, hcause⟩

theorem definition_error_iff {b : Block} {fault : TypeFault} :
    b.definition.result = .error fault ↔ b.Reports fault :=
  Reading.bind_pure_error_iff.trans fields_error_iff

/-- A block with a route declaration fails as a definition would. -/
theorem draft_error_iff {b : Block} (h : b.routeHeader?.isSome = true) {fault : TypeFault} :
    (Draft.ofBlock? b).result = .error fault ↔ b.Reports fault := by
  obtain ⟨header, hh⟩ := Option.isSome_iff_exists.mp h
  unfold Draft.ofBlock?
  simp only [hh]
  exact Reading.bind_pure_error_iff.trans fields_error_iff

/-- A bad block has a fault to report. -/
theorem exists_reports_iff {b : Block} : (∃ fault, b.Reports fault) ↔ b.IsBad := by
  refine ⟨fun ⟨_, h⟩ => h.isBad, ?_⟩
  intro h
  obtain ⟨cause, hcause⟩ := Reading.exists_mapM_error_iff.mpr h
  exact ⟨cause.inFile b.source, fields_error_iff.mp (Reading.inFile_error_iff.mpr
    ⟨cause, Reading.bind_pure_error_iff.mpr hcause, rfl⟩)⟩

end Block

/-- The fault of the first bad block among those of the sources with a role. -/
def FirstFault (role : Role) (sources : List Source) (fault : TypeFault) : Prop :=
  ∃ before b after, blocksOf role sources = before ++ b :: after ∧
    (∀ earlier ∈ before, ¬earlier.IsBad) ∧ b.Reports fault

theorem mapM_firstFault_iff {β : Type} {f : Block → Reading β} {role : Role} {sources : List Source}
    (hf : ∀ b ∈ blocksOf role sources, ∀ e, (f b).result = .error e ↔ b.Reports e)
    {fault : TypeFault} :
    ((blocksOf role sources).mapM f).result = .error fault ↔ FirstFault role sources fault := by
  rw [Reading.mapM_error_iff]
  constructor
  · rintro ⟨before, b, after, hs, hbefore, hb⟩
    refine ⟨before, b, after, hs, fun y hy hbad => ?_, (hf b (by simp [hs]) fault).mp hb⟩
    obtain ⟨e, he⟩ := Block.exists_reports_iff.mpr hbad
    exact hbefore y hy ⟨e, (hf y (by simp [hs, hy]) e).mpr he⟩
  · rintro ⟨before, b, after, hs, hbefore, hb⟩
    refine ⟨before, b, after, hs, fun y hy ⟨e, he⟩ => ?_, (hf b (by simp [hs]) fault).mpr hb⟩
    exact hbefore y hy ((hf y (by simp [hs, hy]) e).mp he).isBad

theorem mem_blocksOf {role : Role} {sources : List Source} {b : Block} :
    b ∈ blocksOf role sources ↔ b ∈ allBlocks sources ∧ b.role = role := by
  simp [blocksOf]

theorem definitions_error_iff {sources : List Source} {fault : TypeFault} :
    ((blocksOf .definition sources).mapM Block.definition).result = .error fault ↔
      FirstFault .definition sources fault :=
  mapM_firstFault_iff fun _ _ _ => Block.definition_error_iff

theorem drafts_error_iff {sources : List Source} {fault : TypeFault} :
    ((blocksOf .route sources).mapM Draft.ofBlock?).result = .error fault ↔
      FirstFault .route sources fault := by
  refine mapM_firstFault_iff fun b hb _ => Block.draft_error_iff ?_
  have hrole := (mem_blocksOf.mp hb).2
  exact (Block.role_eq_route (.inl hrole)).mp hrole

theorem exists_firstFault_iff {role : Role} {sources : List Source} :
    (∃ fault, FirstFault role sources fault) ↔ ∃ b ∈ blocksOf role sources, b.IsBad := by
  -- read as definitions, the blocks of any role fail at the first bad one
  have hread : ∀ fault, ((blocksOf role sources).mapM Block.definition).result = .error fault ↔
      FirstFault role sources fault :=
    fun _ => mapM_firstFault_iff fun _ _ _ => Block.definition_error_iff
  simp only [← hread, Reading.exists_mapM_error_iff, Block.definition_error_iff,
    Block.exists_reports_iff]

/-- Generation fails with the fault of the first bad definition block, or else with that of the first
bad route block. -/
theorem generate_error_iff {settings : Settings} {sources : List Source} {fault : TypeFault} :
    (generate settings sources).result = .error fault ↔
      FirstFault .definition sources fault ∨
      (∀ b ∈ blocksOf .definition sources, ¬b.IsBad) ∧ FirstFault .route sources fault := by
  have hbad : (∃ fault, FirstFault .definition sources fault) ↔
      ∃ b ∈ blocksOf .definition sources, b.IsBad := exists_firstFault_iff
  rw [generate_eq, Reading.result_bind, ← definitions_error_iff]
  simp only [← definitions_error_iff] at hbad
  cases hd : ((blocksOf .definition sources).mapM Block.definition).result with
  | error e =>
    obtain ⟨b, hb, hbad⟩ := hbad.mp ⟨e, hd⟩
    have hnone : ¬∀ b ∈ blocksOf .definition sources, ¬b.IsBad := fun h => h b hb hbad
    simp only [hnone, false_and, or_false, bind, Except.bind, Except.error.injEq]
  | ok entries =>
    have hnone : ∀ b ∈ blocksOf .definition sources, ¬b.IsBad := by
      intro b hb h
      obtain ⟨e, he⟩ := hbad.mpr ⟨b, hb, h⟩
      exact absurd (hd.symm.trans he) (by simp)
    simp only [reduceCtorEq, false_or]
    rw [and_iff_right hnone]
    exact Reading.bind_pure_error_iff.trans drafts_error_iff

theorem Fragment.name_of_named {name : String} {slots : Slots} {f : Fragment}
    (h : Fragment.named name slots = .ok f) : f.name = name := by
  unfold Fragment.named at h
  split at h <;> cases h <;> rfl

/-- A fragment is refused only if it is asked for by a name that no fragment has. -/
theorem Fragment.named_error_iff {name : String} {slots : Slots} {e : UnknownFragment} :
    Fragment.named name slots = .error e ↔ (∀ f : Fragment, f.name ≠ name) ∧ e = ⟨name⟩ := by
  cases h : Fragment.named name slots with
  | ok f =>
    have hf := name_of_named h
    simp only [reduceCtorEq, false_iff, not_and]
    exact fun hnone => absurd hf (hnone f)
  | error e' =>
    unfold Fragment.named at h
    split at h <;> cases h
    rename_i hhead hpath hmethod hparameter hbody
    have hname : ∀ f : Fragment, f.name ≠ name := by
      rintro (_ | _ | _ | _ | _) rfl <;> contradiction
    rw [and_iff_right hname, Except.error.injEq, eq_comm]

/-- The exact law of failure. Generation fails if and only if some definition block, or some route
block, has a fatal line. The fault then names the source and the first fatal line of the first bad
definition block of all sources, and only if there is no such block those of the first bad route
block, wherever it stands. Descriptions and other comments never fail, nor do lines whose field name
has a dot; and no fragment of a document is ever refused. -/
theorem generate_failure (settings : Settings) (sources : List Source) :
    ((∃ fault, (generate settings sources).result = .error fault) ↔
      ∃ b ∈ allBlocks sources, (b.role = .definition ∨ b.role = .route) ∧
        ∃ line ∈ b.body, IsFatal line) ∧
    (∀ fault, (generate settings sources).result = .error fault ↔
      FirstFault .definition sources fault ∨
      (∀ b ∈ blocksOf .definition sources, ¬b.IsBad) ∧ FirstFault .route sources fault) ∧
    (∀ line pieces, FieldLine.ofLine? line = some pieces → '.' ∈ pieces.name → ¬IsFatal line) ∧
    (∀ (fragment : Fragment) (slots : Slots) (e : UnknownFragment),
      Fragment.named fragment.name slots ≠ .error e) := by
  refine ⟨?_, fun fault => generate_error_iff, ?_, ?_⟩
  · constructor
    · rintro ⟨fault, h⟩
      rcases generate_error_iff.mp h with hd | ⟨-, hr⟩
      · obtain ⟨b, hb, hbad⟩ := exists_firstFault_iff.mp ⟨fault, hd⟩
        exact ⟨b, (mem_blocksOf.mp hb).1, .inl (mem_blocksOf.mp hb).2, hbad⟩
      · obtain ⟨b, hb, hbad⟩ := exists_firstFault_iff.mp ⟨fault, hr⟩
        exact ⟨b, (mem_blocksOf.mp hb).1, .inr (mem_blocksOf.mp hb).2, hbad⟩
    · rintro ⟨b, hb, hrole, hbad⟩
      by_cases hd : ∃ b ∈ blocksOf .definition sources, b.IsBad
      · obtain ⟨fault, hfault⟩ := exists_firstFault_iff.mpr hd
        exact ⟨fault, generate_error_iff.mpr (.inl hfault)⟩
      · rcases hrole with hrole | hrole
        · exact absurd ⟨b, mem_blocksOf.mpr ⟨hb, hrole⟩, hbad⟩ hd
        · obtain ⟨fault, hfault⟩ := exists_firstFault_iff.mpr ⟨b, mem_blocksOf.mpr ⟨hb, hrole⟩, hbad⟩
          exact ⟨fault, generate_error_iff.mpr (.inr ⟨fun b hb h => hd ⟨b, hb, h⟩, hfault⟩)⟩
  · rintro line pieces hp hdot ⟨fault, hfault⟩
    obtain ⟨pieces', hp', hdot', -⟩ := Field.ofLine?_error_iff.mp hfault
    obtain rfl : pieces = pieces' := Option.some.inj (hp.symm.trans hp')
    exact hdot' hdot
  · intro fragment slots e h
    exact (Fragment.named_error_iff.mp h).1 fragment rfl

/-- A route block with a fatal line stands in an earlier file than such a definition block, and the
fault is that of the definition block. Without the later file it is that of the route block. -/
theorem generate_failure_later_definition :
    let settings : Settings := { title := "T", host := "h" }
    let route : Source := ⟨"a.js", "/**\n@api {get} /x It\n@apiParam {=} r\n*/"⟩
    let definition : Source := ⟨"b.js", "/**\n@apiDefine D\n@apiParam {=} d\n*/"⟩
    (∃ fault, (generate settings [route, definition]).result = .error fault ∧
      fault.file = "b.js" ∧ fault.line = "@apiParam {=} d") ∧
    ∃ fault, (generate settings [route]).result = .error fault ∧ fault.file = "a.js" := by
  intro settings route definition
  have hreports : ∀ (b : Block) (line : String), b.body = [line] →
      (Field.ofLine? line).result.toOption = none → ∃ fault, b.Reports fault ∧ fault.line = line := by
    intro b line hbody hnone
    have hfatal : IsFatal line := by
      cases h : (Field.ofLine? line).result with
      | error fault => exact ⟨fault, h⟩
      | ok field => simp [h, Except.toOption] at hnone
    have hbad : b.IsBad := ⟨line, by simp [hbody], hfatal⟩
    obtain ⟨fault, h⟩ := Block.exists_reports_iff.mpr hbad
    obtain ⟨before, after, hlines, -, -⟩ := h.line
    have hline : fault.line ∈ b.body := by simp [hlines]
    rw [hbody] at hline
    exact ⟨fault, h, List.mem_singleton.mp hline⟩
  constructor
  · have hblocks : blocksOf .definition [route, definition] =
        [⟨["@apiDefine D", "@apiParam {=} d"], "b.js"⟩] := by decide +kernel
    obtain ⟨fault, h, hline⟩ := hreports ⟨["@apiDefine D", "@apiParam {=} d"], "b.js"⟩
      "@apiParam {=} d" rfl (by decide +kernel)
    refine ⟨fault, ((generate_failure settings _).2.1 fault).mpr (.inl ?_), h.file, hline⟩
    exact ⟨[], _, [], hblocks, by simp, h⟩
  · have hnone : blocksOf .definition [route] = [] := by decide +kernel
    have hblocks : blocksOf .route [route] =
        [⟨["@api {get} /x It", "@apiParam {=} r"], "a.js"⟩] := by decide +kernel
    obtain ⟨fault, h, -⟩ := hreports ⟨["@api {get} /x It", "@apiParam {=} r"], "a.js"⟩
      "@apiParam {=} r" rfl (by decide +kernel)
    refine ⟨fault, ((generate_failure settings _).2.1 fault).mpr (.inr ⟨by simp [hnone], ?_⟩),
      h.file⟩
    exact ⟨[], _, [], hblocks, by simp, h⟩

end RouteDoc
