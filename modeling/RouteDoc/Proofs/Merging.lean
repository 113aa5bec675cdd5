import RouteDoc.Api
import RouteDoc.Proofs.Tables

/-! What a route takes over from the definitions and descriptions that its draft names. Values and
places go opposite ways: of the fields with one name the last counts, and it stands where the first
stood. -/

namespace RouteDoc

theorem flatMap_getD {α β γ : Type} (find : α → Option β) (parts : β → List γ) (names : List α) :
    (names.flatMap fun name => ((find name).map parts).getD []) =
      (names.filterMap find).flatMap parts := by
  induction names with
  | nil => rfl
  | cons name names ih =>
    rw [List.flatMap_cons, ih]
    cases h : find name with
    | none => rw [List.filterMap_cons_none h, Option.map_none, Option.getD_none, List.nil_append]
    | some b =>
      rw [List.filterMap_cons_some h, Option.map_some, Option.getD_some, List.flatMap_cons]

theorem Table.filterMap_find?_filter {κ α : Type} [DecidableEq κ] (t : Table κ α) (names : List κ) :
    (names.filter t.contains).filterMap t.find? = names.filterMap t.find? := by
  rw [List.filterMap_filter]
  congr 1
  funext name
  unfold contains
  cases t.find? name <;> rfl

namespace Catalog

variable (c : Catalog) (d : Draft)

/-- The field with a name in the definition with a name. -/
def fieldOf? (definition name : String) : Option Field :=
  (c.definitions.find? definition).bind (·.find? name)

/-- The field with a name in the last of the definitions used that have one. -/
def LastUsed (uses : List String) (name : String) (field : Field) : Prop :=
  ∃ earlier use later, uses = earlier ++ use :: later ∧ c.fieldOf? use name = some field ∧
    ∀ other ∈ later, c.fieldOf? other name = none

theorem lastUsed_iff {uses : List String} {name : String} {field : Field} :
    c.LastUsed uses name field ↔ uses.reverse.findSome? (c.fieldOf? · name) = some field := by
  rw [List.findSome?_eq_some_iff]
  constructor
  · rintro ⟨earlier, use, later, rfl, hfield, hlater⟩
    exact ⟨later.reverse, use, earlier.reverse, by simp, hfield, by simpa using hlater⟩
  · rintro ⟨later, use, earlier, huses, hfield, hlater⟩
    refine ⟨earlier.reverse, use, later.reverse, ?_, hfield, by simpa using hlater⟩
    simpa using congrArg List.reverse huses

theorem usedFields_eq (names : List String) :
    c.usedFields names = (names.filterMap c.definitions.find?).flatMap Table.entries :=
  flatMap_getD _ _ names

theorem descriptionLines_eq :
    c.descriptionLines d = (d.descriptions.filterMap c.descriptions.find?).flatten := by
  have hlines := flatMap_getD c.descriptions.find? id d.descriptions
  simpa [descriptionLines] using hlines

theorem find?_params (name : String) :
    (c.params d).find? name =
      (d.params.find? name).or (d.uses.reverse.findSome? (c.fieldOf? · name)) := by
  have hlast : ∀ found : Option Field,
      ((found.map (name, ·)).toList.getLast?).map Prod.snd = found := by
    rintro (_ | field) <;> rfl
  have hused : (((c.usedFields d.uses).filter (·.1 = name)).getLast?).map Prod.snd =
      d.uses.reverse.findSome? (c.fieldOf? · name) := by
    rw [usedFields, List.filter_flatMap, List.getLast?_flatMap, List.map_findSome?]
    congr 1
    funext use
    rw [Function.comp_apply, fieldOf?]
    cases c.definitions.find? use with
    | none => rfl
    | some fields =>
      rw [Option.map_some, Option.getD_some, Table.filter_entries, hlast, Option.bind_some]
  rw [params, Table.find?_ofList, List.filter_append, List.getLast?_append, Table.filter_entries,
    ← hused]
  cases d.params.find? name <;> rfl

theorem keys_params :
    (c.params d).keys = ((d.uses.filterMap c.definitions.find?).flatMap Table.keys ++
      d.params.keys).eraseDups := by
  rw [params, Table.keys_ofList, List.map_append, usedFields_eq, List.map_flatMap]
  rfl

/-- What a route takes over, for all tables and drafts. The parameter with a name is the draft's
own, or else that of the last definition used that has one, and there is no other; parameters come
in the order in which their names first appear in the definitions used and then in the draft. The
description has the lines of the descriptions named, one after the other and as often as they are
named. Names that the tables do not have can be left out. -/
theorem route_merged (c : Catalog) (d : Draft) :
    (∀ name field, (c.route d).params.find? name = some field ↔
      d.params.find? name = some field ∨
      d.params.find? name = none ∧ c.LastUsed d.uses name field) ∧
    (c.route d).params.keys = ((d.uses.filterMap c.definitions.find?).flatMap Table.keys ++
      d.params.keys).eraseDups ∧
    (c.route d).description = (d.descriptions.filterMap c.descriptions.find?).flatten ∧
    c.route { d with
      uses := d.uses.filter c.definitions.contains
      descriptions := d.descriptions.filter c.descriptions.contains } = c.route d := by
  refine ⟨fun name field => ?_, c.keys_params d, c.descriptionLines_eq d, ?_⟩
  · rw [lastUsed_iff, ← Option.or_eq_some_iff, ← find?_params]
    rfl
  · simp only [route, params, usedFields_eq, descriptionLines_eq, Table.filterMap_find?_filter]

/-- A definition is used twice around another that has one of its fields. The value is that of the
second use, and the place that of the first. -/
theorem route_merged_used_around :
    let field := fun description : String => ({ (default : Field) with description } : Field)
    let fields := fun (names : List String) (description : String) =>
      (.ofList (names.map fun name => (name, field description)) : Fields)
    let c : Catalog := {
      definitions := .ofList [("A", fields ["k", "a"] "of A"), ("B", fields ["b", "k"] "of B")]
      descriptions := .ofList [("D", ["line"])] }
    let d : Draft := { (default : Draft) with
      uses := ["A", "B", "Z", "A"]
      params := fields ["b", "c"] "own"
      descriptions := ["D", "Z", "D"] }
    (c.route d).params.keys = ["k", "a", "b", "c"] ∧
    (c.route d).params.find? "k" = some (field "of A") ∧
    (c.route d).params.find? "b" = some (field "own") ∧
    (c.route { d with uses := ["A", "B"] }).params.find? "k" = some (field "of B") ∧
    (c.route d).description = ["line", "line"] := by
  intro field fields c d
  obtain ⟨hfind, hkeys, hdescription, -⟩ := route_merged c d
  have hsecond : c.LastUsed d.uses "k" (field "of A") :=
    ⟨["A", "B", "Z"], "A", [], rfl, by decide, by simp⟩
  have hlast : c.LastUsed ["A", "B"] "k" (field "of B") :=
    ⟨["A"], "B", [], rfl, by decide, by simp⟩
  refine ⟨hkeys.trans (by decide), (hfind _ _).mpr (.inr ⟨by decide, hsecond⟩),
    (hfind _ _).mpr (.inl (by decide)), ?_, hdescription.trans (by decide)⟩
  exact ((route_merged c { d with uses := ["A", "B"] }).1 _ _).mpr (.inr ⟨by decide, hlast⟩)

end Catalog

end RouteDoc
