import RouteDoc.Proofs.TypeExpression

/-! The grammar of type expressions. A text can be read as a type if and only if it is made of the
parts that the grammar names, the types that can be read are the well-formed ones, and each of these
has a spelling from which it is read again. -/

namespace RouteDoc

open Text

/-- The text of a head: its name between its marks. -/
def TypeHead.text (head : TypeHead) : List Char :=
  (if head.isReference then ['#'] else []) ++ head.name ++ (if head.isArray then ['[', ']'] else [])

/-- What can follow the head of a type expression: nothing, or any text after one of the three
openings of a constraint. -/
inductive ConstraintText : List Char → Prop
  | nothing : ConstraintText []
  | equals (cs : List Char) : ConstraintText ('=' :: cs)
  | beside (cs : List Char) : ConstraintText ('}' :: '{' :: cs)
  | nested (cs : List Char) : ConstraintText ('{' :: cs)

/-- A type expression is a head, whose name is a word that is not empty, and what can follow it. -/
structure TypeParts (expr : List Char) (head : TypeHead) (rest : List Char) : Prop where
  text : expr = head.text ++ rest
  name_ne_nil : head.name ≠ []
  isWord_name : ∀ c ∈ head.name, isWord c = true
  constraint : ConstraintText rest

theorem Constraint.exists_read?_iff {rest : List Char} :
    (∃ constraint, Constraint.read? rest = some constraint) ↔ ConstraintText rest := by
  constructor
  · rintro ⟨constraint, h⟩
    unfold Constraint.read? at h
    split at h
    · exact .nothing
    · exact .equals _
    · exact .beside _
    · exact .nested _
    · cases h
  · rintro (_ | cs | cs | cs)
    all_goals exact ⟨_, rfl⟩

/-- No constraint can be taken for a part of the head before it. -/
theorem ConstraintText.head? {rest : List Char} (h : ConstraintText rest) {c : Char}
    (hc : rest.head? = some c) : isWord c = false ∧ c ≠ '[' := by
  cases h with
  | nothing => cases hc
  | equals cs | beside cs | nested cs =>
    cases hc
    decide

theorem TypeParts.read? {expr rest : List Char} {head : TypeHead} (h : TypeParts expr head rest) :
    TypeHead.read? expr = some (head, rest) := by
  rw [h.text]
  exact TypeHead.read?_append head.isReference head.isArray h.name_ne_nil h.isWord_name
    fun c hc => h.constraint.head? hc

/-- The name of an expression is the longest word after its mark. -/
theorem TypeParts.name_eq {expr rest : List Char} {head : TypeHead} (h : TypeParts expr head rest) :
    head.name = word ((after? ['#'] expr).getD expr) := by
  have hread := h.read?
  simp only [TypeHead.read?, Option.bind_eq_bind, Option.bind_eq_some_iff] at hread
  obtain ⟨⟨name, after⟩, hname, hread⟩ := hread
  obtain ⟨rfl, -, -⟩ := word?_eq_some hname
  split at hread
  all_goals
    cases hread
    rfl

theorem TypeParts.parse_eq {expr rest : List Char} {head : TypeHead} (h : TypeParts expr head rest)
    {constraint : Constraint} (hread : Constraint.read? rest = some constraint) :
    FieldType.parse expr = .ok (constraint.apply head.kind) := by
  simp only [FieldType.parse, h.read?, hread]

theorem FieldType.exists_parse_iff {expr : List Char} :
    (∃ t, FieldType.parse expr = .ok t) ↔ ∃ head rest, TypeParts expr head rest := by
  constructor
  · rintro ⟨t, h⟩
    unfold FieldType.parse at h
    split at h
    · cases h
    · rename_i head rest hhead
      obtain ⟨hne, hword, htext⟩ := TypeHead.read?_eq_some hhead
      split at h
      · cases h
      · rename_i constraint hconstraint
        exact ⟨head, rest, htext, hne, hword, Constraint.exists_read?_iff.mp ⟨_, hconstraint⟩⟩
  · rintro ⟨head, rest, h⟩
    obtain ⟨constraint, hconstraint⟩ := Constraint.exists_read?_iff.mpr h.constraint
    exact ⟨constraint.apply head.kind, h.parse_eq hconstraint⟩

/-- The grammar of type expressions, exactly. A text can be read if and only if it is a name that
`#` may mark and `[]` may follow, and then nothing or an opened constraint, where the name is the
longest word there. The types that can be read are the well-formed ones, and the spelling of each of
these is read as it. -/
theorem FieldType.parse_grammar :
    (∀ expr, (∃ t, FieldType.parse expr = .ok t) ↔ ∃ head rest, TypeParts expr head rest) ∧
    (∀ expr head rest, TypeParts expr head rest →
      head.name = word ((after? ['#'] expr).getD expr)) ∧
    (∀ t : FieldType, (∃ expr, FieldType.parse expr = .ok t) ↔ t.WellFormed) ∧
    ∀ t : FieldType, t.WellFormed → FieldType.parse t.spelling = .ok t := by
  refine ⟨fun _ => exists_parse_iff, fun _ _ _ h => h.name_eq, fun t => ⟨?_, ?_⟩,
    fun _ h => parse_spelling h⟩
  · rintro ⟨expr, h⟩
    exact wellFormed_of_parse h
  · intro h
    exact ⟨t.spelling, parse_spelling h⟩

/-- An array of numbers from 1 to the greatest bound. -/
theorem FieldType.parse_grammar_bounded_array :
    FieldType.parse "Number[]\x7d\x7b1-9223372036854775807".toList =
      .ok ⟨.array (.scalar "Number"), [], some ⟨none, none, some 1, some greatestBound⟩⟩ := by
  have hitem : Kind.IsItem (.scalar "Number") :=
    ⟨by decide, by decide, fun c hc => by cases hc; decide, by decide⟩
  have hnone : IsBound none := fun n hn => by cases hn
  have hone : IsBound (some 1) := fun n hn => by cases hn; decide
  have hgreatest : IsBound (some greatestBound) := fun n hn => by cases hn; decide
  exact FieldType.parse_grammar.2.2.2
    ⟨.array (.scalar "Number"), [], some ⟨none, none, some 1, some greatestBound⟩⟩
    ⟨hitem, by simp, fun b hb => by
      cases hb
      exact ⟨⟨by decide, hnone, hnone, hone, hgreatest, .inr ⟨rfl, rfl⟩⟩, rfl⟩⟩

end RouteDoc
