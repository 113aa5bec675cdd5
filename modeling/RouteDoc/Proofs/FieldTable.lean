import RouteDoc.Proofs.Failure
import RouteDoc.Proofs.Tables

/-! The table of the fields that lines declare. Of two declarations of one name the first counts,
and a line that cannot be read stops the reading whatever its name is. The main statement gives the
fault, or else the names in their order and the field of each, and how a table grows with more
lines. -/

namespace RouteDoc

/-- The line can be read, and declares the field under the name. -/
def Declares (line name : String) (field : Field) : Prop :=
  (Field.ofLine? line).result = .ok (some (name, field))

/-- What the line declares, if it can be read and declares something. -/
def declaration? (line : String) : Option (String × Field) :=
  (Field.ofLine? line).result.toOption.join

/-- The field is that of the first of the lines that declares the name. -/
def FirstDeclares (lines : List String) (name : String) (field : Field) : Prop :=
  ∃ before line after, lines = before ++ line :: after ∧ Declares line name field ∧
    ∀ earlier ∈ before, ∀ other, ¬Declares earlier name other

/-- The names that lines declare, in their order and as often as they are declared. -/
def declaredNames (lines : List String) : List String :=
  (lines.filterMap declaration?).map Prod.fst

theorem declaration?_eq_some_iff {line name : String} {field : Field} :
    declaration? line = some (name, field) ↔ Declares line name field := by
  rw [declaration?, Declares]
  cases (Field.ofLine? line).result with
  | error fault => simp [Except.toOption]
  | ok declared => simp [Except.toOption]

theorem any_declaration?_iff {line name : String} :
    (declaration? line).any (·.1 = name) = true ↔ ∃ field, Declares line name field := by
  simp only [← declaration?_eq_some_iff]
  cases declaration? line with
  | none => simp
  | some e => simp [Prod.ext_iff]

/-- Among the declarations the first of a name is that of the first line that declares the name. -/
theorem find?_declarations_eq_some_iff {lines : List String} {name : String} {field : Field} :
    ((lines.filterMap declaration?).find? (·.1 = name)).map Prod.snd = some field ↔
      FirstDeclares lines name field := by
  rw [List.find?_filterMap, Option.map_eq_some_iff]
  constructor
  · rintro ⟨⟨declared, found⟩, hfound, rfl⟩
    obtain ⟨line, hline, hdeclares⟩ := Option.bind_eq_some_iff.mp hfound
    obtain ⟨hname, before, after, hlines, hbefore⟩ := List.find?_eq_some_iff_append.mp hline
    have hdeclared : declared = name := by simpa [hdeclares] using hname
    refine ⟨before, line, after, hlines, declaration?_eq_some_iff.mp (hdeclared ▸ hdeclares), ?_⟩
    intro earlier hearlier other hother
    have hnot := hbefore earlier hearlier
    rw [any_declaration?_iff.mpr ⟨other, hother⟩] at hnot
    cases hnot
  · rintro ⟨before, line, after, hlines, hdeclares, hbefore⟩
    have hfind : lines.find? (fun l => (declaration? l).any (·.1 = name)) = some line := by
      refine List.find?_eq_some_iff_append.mpr ⟨any_declaration?_iff.mpr ⟨field, hdeclares⟩,
        before, after, hlines, fun earlier hearlier => ?_⟩
      rw [Bool.not_eq_true', Bool.eq_false_iff, ne_eq, any_declaration?_iff]
      rintro ⟨other, hother⟩
      exact hbefore earlier hearlier other hother
    exact ⟨(name, field), by rw [hfind]; exact declaration?_eq_some_iff.mpr hdeclares, rfl⟩

namespace Fields

theorem result_ofLines_eq_ok_iff {lines : List String} {fields : Fields} :
    (ofLines lines).result = .ok fields ↔ (∀ line ∈ lines, ¬IsFatal line) ∧
      fields = ofDeclarations (lines.filterMap declaration?) := by
  cases hread : (lines.mapM Field.ofLine?).result with
  | error fault =>
    have hfails : (ofLines lines).result = .error fault := Reading.bind_pure_error_iff.mpr hread
    obtain ⟨line, hline, hfatal⟩ := Reading.exists_mapM_error_iff.mp ⟨fault, hread⟩
    rw [hfails]
    constructor
    · intro h
      cases h
    · rintro ⟨hreadable, -⟩
      exact absurd hfatal (hreadable line hline)
  | ok declarations =>
    have hreadable : ∀ line ∈ lines, ¬IsFatal line := by
      intro line hline hfatal
      obtain ⟨fault, hfault⟩ := Reading.exists_mapM_error_iff.mpr ⟨line, hline, hfatal⟩
      rw [hread] at hfault
      cases hfault
    have hfields : (ofLines lines).result =
        .ok (ofDeclarations (lines.filterMap declaration?)) := by
      refine Reading.bind_eq_ok_iff.mpr ⟨declarations, hread, ?_⟩
      rw [← Reading.filterMap_of_mapM hread, List.filterMap_filterMap]
      rfl
    rw [hfields, Except.ok.injEq, and_iff_right hreadable, eq_comm]

theorem ofLines_error_iff {lines : List String} {fault : TypeFault} :
    (ofLines lines).result = .error fault ↔ ∃ before line after, lines = before ++ line :: after ∧
      (∀ earlier ∈ before, ¬IsFatal earlier) ∧ (Field.ofLine? line).result = .error fault :=
  Reading.bind_pure_error_iff.trans Reading.mapM_error_iff

theorem exists_ofLines_error_iff {lines : List String} :
    (∃ fault, (ofLines lines).result = .error fault) ↔ ∃ line ∈ lines, IsFatal line := by
  have hmapM : ∀ fault, (ofLines lines).result = .error fault ↔
      (lines.mapM Field.ofLine?).result = .error fault := fun _ => Reading.bind_pure_error_iff
  simp only [hmapM]
  exact Reading.exists_mapM_error_iff

/-- The table of two lists of lines is that of the first, with what the second adds at the end. -/
theorem result_ofLines_append_iff {lines more : List String} {fields : Fields} :
    (ofLines (lines ++ more)).result = .ok fields ↔ ∃ first second,
      (ofLines lines).result = .ok first ∧ (ofLines more).result = .ok second ∧
      fields.entries = first.entries ++ second.entries.filter (·.1 ∉ first.keys) := by
  simp only [result_ofLines_eq_ok_iff, List.mem_append, List.filterMap_append]
  constructor
  · rintro ⟨hreadable, rfl⟩
    exact ⟨_, _, ⟨fun line hline => hreadable line (.inl hline), rfl⟩,
      ⟨fun line hline => hreadable line (.inr hline), rfl⟩, entries_ofDeclarations_append _ _⟩
  · rintro ⟨_, _, ⟨hfirst, rfl⟩, ⟨hsecond, rfl⟩, hentries⟩
    refine ⟨fun line hline => hline.elim (hfirst line) (hsecond line), Table.ext ?_⟩
    rw [hentries, entries_ofDeclarations_append]

/-- Lines are read as fields up to the first that cannot be read, with the fault of that one, also
if another line declares the same name. If all can be read, the names are those that the lines
declare, in the order of their first declarations and each once, and a name has the field of its
first declaration. So lines that are read after others add the fields with new names at the end. -/
theorem ofLines_first_declarations :
    (∀ lines, (∃ fault, (ofLines lines).result = .error fault) ↔ ∃ line ∈ lines, IsFatal line) ∧
    (∀ lines fault, (ofLines lines).result = .error fault ↔
      ∃ before line after, lines = before ++ line :: after ∧
        (∀ earlier ∈ before, ¬IsFatal earlier) ∧ (Field.ofLine? line).result = .error fault) ∧
    (∀ lines, (∀ line ∈ lines, ¬IsFatal line) → ∃ fields, (ofLines lines).result = .ok fields ∧
      fields.keys = (declaredNames lines).eraseDups ∧ fields.keys.Nodup ∧
      ∀ name field, fields.find? name = some field ↔ FirstDeclares lines name field) ∧
    ∀ lines more fields, (ofLines (lines ++ more)).result = .ok fields ↔ ∃ first second,
      (ofLines lines).result = .ok first ∧ (ofLines more).result = .ok second ∧
      fields.entries = first.entries ++ second.entries.filter (·.1 ∉ first.keys) := by
  refine ⟨fun _ => exists_ofLines_error_iff, fun _ _ => ofLines_error_iff,
    fun lines hreadable => ?_, fun _ _ _ => result_ofLines_append_iff⟩
  refine ⟨_, result_ofLines_eq_ok_iff.mpr ⟨hreadable, rfl⟩, keys_ofDeclarations _,
    Table.nodup _, fun name field => ?_⟩
  rw [find?_ofDeclarations, find?_declarations_eq_some_iff]

/-- A second declaration of a name has no part in the table, but it has to be readable. -/
theorem ofLines_first_declarations_repeated :
    let lines := [" * @apiParam \x7bString\x7d id first", " * prose",
      "@apiParam \x7bNumber\x7d limit", "@apiHeader \x7bNumber\x7d id second"]
    (∀ line ∈ lines, ¬IsFatal line) ∧
    (∃ fields, (ofLines lines).result = .ok fields ∧ fields.keys = ["id", "limit"] ∧
      fields.find? "id" = some ⟨⟨.scalar "String", [], none⟩, false, "first", false⟩) ∧
    ∃ fault, (ofLines (lines ++ ["@apiParam \x7b$\x7d id"])).result = .error fault := by
  intro lines
  obtain ⟨hfails, -, hread, -⟩ := ofLines_first_declarations
  have hreadable : ∀ line ∈ lines, ¬IsFatal line := by
    have hok : ∀ line ∈ lines, (Field.ofLine? line).result.isOk = true := by decide +kernel
    rintro line hline ⟨fault, hfault⟩
    have hline := hok line hline
    rw [hfault] at hline
    cases hline
  obtain ⟨fields, hfields, hkeys, -, hfirst⟩ := hread lines hreadable
  have hid : FirstDeclares lines "id" ⟨⟨.scalar "String", [], none⟩, false, "first", false⟩ :=
    ⟨[], _, _, rfl, except_eq_ok_of_toOption (by decide +kernel), by simp⟩
  refine ⟨hreadable, ⟨fields, hfields, ?_, (hfirst _ _).mpr hid⟩, ?_⟩
  · rw [hkeys]
    decide +kernel
  · refine (hfails _).mpr ⟨"@apiParam \x7b$\x7d id", by simp, ?_⟩
    exact ⟨_, rfl⟩

end Fields

end RouteDoc
