import RouteDoc.Proofs.Scan

/-! Type expressions and the types that they write. Every type that can be read is well formed, and
every well-formed type has a spelling that reads back as that type. -/

namespace RouteDoc

open Text

/-! ### Well-formed types -/

/-- A kind that the items of an array can have. -/
def Kind.IsItem : Kind → Prop
  | .any => True
  | .reference name => IsWordText name ∧ name ≠ ""
  | .scalar name => IsWordText name ∧ name ≠ "" ∧
      (∀ c, name.toList.head? = some c → c.isLower = false) ∧
      equalIgnoringCase name.toList "any".toList = false
  | .array _ => False

/-- A kind that expressions can name: arrays do not nest. -/
def Kind.WellFormed : Kind → Prop
  | .array items => items.IsItem
  | kind => kind.IsItem

def IsBound (bound : Option Int) : Prop :=
  ∀ n, bound = some n → 1 ≤ n ∧ n ≤ greatestBound

/-- Bounds that ranges can set: at least one, and not both on lengths and on values. -/
structure Bounds.WellFormed (b : Bounds) : Prop where
  ne_empty : b ≠ {}
  minLength : IsBound b.minLength
  maxLength : IsBound b.maxLength
  min : IsBound b.min
  max : IsBound b.max
  one_sort : b.min = none ∧ b.max = none ∨ b.minLength = none ∧ b.maxLength = none

def IsChoice (value : String) : Prop :=
  value ≠ "" ∧ '\'' ∉ value.toList ∧ '"' ∉ value.toList ∧ ',' ∉ value.toList

/-- A type that expressions can write: it has choices or bounds, and not both. -/
structure FieldType.WellFormed (t : FieldType) : Prop where
  kind : t.kind.WellFormed
  choices : ∀ value ∈ t.choices, IsChoice value
  bounds : ∀ b, t.bounds = some b → b.WellFormed ∧ t.choices = []

/-! ### What can be read -/

theorem equalIgnoringCase_modifyHead_toUpper (name : List Char) (text : List Char) :
    equalIgnoringCase (name.modifyHead Char.toUpper) text = equalIgnoringCase name text := by
  cases name with
  | nil => rfl
  | cons c cs =>
    have hlower : c.toUpper.toLower = c.toLower := by
      rw [← Char.toNat_inj, toNat_toLower, toNat_toLower, toNat_toUpper]
      by_cases hc : 97 ≤ c.toNat ∧ c.toNat ≤ 122
      · rw [if_pos hc, if_pos (by omega), if_neg (by omega)]
        omega
      · rw [if_neg hc]
    simp [equalIgnoringCase, hlower]

theorem isLower_iff {c : Char} : c.isLower = true ↔ 97 ≤ c.toNat ∧ c.toNat ≤ 122 := by
  have hrange : c.isLower = (decide (97 ≤ c.toNat) && decide (c.toNat ≤ 122)) := rfl
  rw [hrange, Bool.and_eq_true, decide_eq_true_eq, decide_eq_true_eq]

theorem isLower_toUpper (c : Char) : c.toUpper.isLower = false := by
  rw [Bool.eq_false_iff, ne_eq, isLower_iff, toNat_toUpper]
  split <;> omega

theorem toUpper_of_not_isLower {c : Char} (h : c.isLower = false) : c.toUpper = c := by
  rw [Bool.eq_false_iff, ne_eq, isLower_iff] at h
  rw [← Char.toNat_inj, toNat_toUpper, if_neg h]

theorem Kind.IsItem.wellFormed {kind : Kind} (h : kind.IsItem) : kind.WellFormed := by
  cases kind with
  | array items => exact h.elim
  | any | scalar name | reference name => exact h

theorem Kind.WellFormed.item_or_array {kind : Kind} (h : kind.WellFormed) :
    kind.IsItem ∨ ∃ items, kind = .array items ∧ items.IsItem := by
  cases kind with
  | array items => exact .inr ⟨items, rfl, h⟩
  | any | scalar name | reference name => exact .inl h

theorem TypeHead.kind_wellFormed {head : TypeHead} (hne : head.name ≠ [])
    (hword : ∀ c ∈ head.name, isWord c = true) : head.kind.WellFormed := by
  obtain ⟨isReference, name, isArray⟩ := head
  obtain ⟨c, cs, rfl⟩ := List.exists_cons_of_ne_nil hne
  have hitem : Kind.IsItem (if isReference then .reference (String.ofList (c :: cs))
      else if equalIgnoringCase (c :: cs) "any".toList then .any
      else .scalar (String.ofList ((c :: cs).modifyHead Char.toUpper))) := by
    split
    · exact ⟨fun d hd => hword d (by simpa using hd), by simp⟩
    · split
      · trivial
      · rename_i hany
        refine ⟨fun d hd => ?_, by simp, ?_, ?_⟩
        · simp only [List.modifyHead_cons, String.toList_ofList, List.mem_cons] at hd
          rcases hd with rfl | hd
          · exact isWord_toUpper (hword c (by simp))
          · exact hword d (by simp [hd])
        · intro d hd
          simp only [List.modifyHead_cons, String.toList_ofList, List.head?_cons,
            Option.some.injEq] at hd
          exact hd ▸ isLower_toUpper c
        · rw [String.toList_ofList, equalIgnoringCase_modifyHead_toUpper]
          simpa using hany
  cases isArray with
  | true => exact hitem
  | false =>
    change Kind.WellFormed (if isReference then .reference (String.ofList (c :: cs))
      else if equalIgnoringCase (c :: cs) "any".toList then .any
      else .scalar (String.ofList ((c :: cs).modifyHead Char.toUpper)))
    exact Kind.IsItem.wellFormed hitem

/-- A head is written as its marks say, and what follows it does not matter. -/
theorem TypeHead.read?_eq_some {expr rest : List Char} {head : TypeHead}
    (h : TypeHead.read? expr = some (head, rest)) :
    head.name ≠ [] ∧ (∀ c ∈ head.name, isWord c = true) ∧
      expr = (if head.isReference then ['#'] else []) ++ head.name ++
        (if head.isArray then ['[', ']'] else []) ++ rest := by
  simp only [TypeHead.read?, Option.bind_eq_bind, Option.bind_eq_some_iff] at h
  obtain ⟨⟨name, after⟩, hname, hread⟩ := h
  obtain ⟨hfirst, hafter, hne⟩ := word?_eq_some hname
  have hword : ∀ c ∈ name, isWord c = true := fun c hc => isWord_of_mem_word (hfirst ▸ hc)
  have hmark : expr = (if (after? ['#'] expr).isSome then ['#'] else []) ++ name ++ after := by
    have hunmarked : name ++ after = (after? ['#'] expr).getD expr := by
      rw [hfirst, hafter, word_append_afterWord]
    rw [List.append_assoc, hunmarked]
    cases hhash : after? ['#'] expr with
    | none => rfl
    | some unmarked => exact after?_eq_some_iff.mp hhash
  split at hread
  · rename_i hbrackets
    cases hread
    have hafter : after = ['[', ']'] ++ rest := after?_eq_some_iff.mp hbrackets
    refine ⟨hne, hword, hmark.trans ?_⟩
    simp [hafter]
  · cases hread
    exact ⟨hne, hword, hmark.trans (by simp)⟩

theorem isBound_bound? (digits : List Char) : IsBound (bound? digits) := by
  intro n hn
  simp only [bound?] at hn
  split at hn
  · rename_i hrange
    cases hn
    omega
  · cases hn

theorem isChoice_of_mem_choicesOf {cs : List Char} {value : String} (h : value ∈ choicesOf cs) :
    IsChoice value := by
  simp only [choicesOf, List.mem_map, List.mem_filter, Bool.not_eq_true',
    List.isEmpty_eq_false_iff] at h
  obtain ⟨piece, ⟨hpiece, hne⟩, rfl⟩ := h
  have hquotes : ∀ c ∈ piece, c ≠ '\'' ∧ c ≠ '"' := by
    intro c hc
    simpa using (List.mem_filter.mp (mem_of_mem_splitOn hpiece c hc).1).2
  refine ⟨by simpa using hne, ?_, ?_, ?_⟩
  all_goals rw [String.toList_ofList]
  · exact fun hc => (hquotes _ hc).1 rfl
  · exact fun hc => (hquotes _ hc).2 rfl
  · exact fun hc => (mem_of_mem_splitOn hpiece _ hc).2 rfl

/-- Bounds that are read are on lengths or on values only. -/
theorem Bounds.read?_eq_some {cs : List Char} {b : Bounds} (h : Bounds.read? cs = some b) :
    (IsBound b.minLength ∧ IsBound b.maxLength ∧ IsBound b.min ∧ IsBound b.max) ∧
      (b.min = none ∧ b.max = none ∨ b.minLength = none ∧ b.maxLength = none) := by
  have hnone : IsBound none := fun n hn => by cases hn
  unfold Bounds.read? at h
  split at h
  · cases h
    exact ⟨⟨isBound_bound? _, isBound_bound? _, hnone, hnone⟩, .inl ⟨rfl, rfl⟩⟩
  · split at h
    · cases h
      exact ⟨⟨hnone, hnone, isBound_bound? _, isBound_bound? _⟩, .inr ⟨rfl, rfl⟩⟩
    · cases h

theorem Constraint.ofBraced_cases (cs : List Char) :
    (∃ b, Bounds.read? cs = some b ∧ ofBraced cs = .bounds b) ∨
      Bounds.read? cs = none ∧ ofBraced cs = .choices (choicesOf cs) := by
  unfold ofBraced
  cases h : Bounds.read? cs with
  | none => exact .inr ⟨rfl, rfl⟩
  | some b => exact .inl ⟨b, rfl, rfl⟩

/-- A constraint that is read is none, a list of values, or a range. -/
theorem Constraint.read?_cases {rest : List Char} {constraint : Constraint}
    (h : Constraint.read? rest = some constraint) :
    constraint = .nothing ∨ (∃ cs, constraint = .choices (choicesOf cs)) ∨
      ∃ cs b, Bounds.read? cs = some b ∧ constraint = .bounds b := by
  have hbraced : ∀ cs, ofBraced cs = constraint → (∃ cs, constraint = .choices (choicesOf cs)) ∨
      ∃ cs b, Bounds.read? cs = some b ∧ constraint = .bounds b := by
    rintro cs rfl
    rcases ofBraced_cases cs with ⟨b, hread, hb⟩ | ⟨-, hchoices⟩
    · exact .inr ⟨cs, b, hread, hb⟩
    · exact .inl ⟨cs, hchoices⟩
  unfold Constraint.read? at h
  split at h
  · exact .inl (Option.some.inj h).symm
  · exact .inr (.inl ⟨_, (Option.some.inj h).symm⟩)
  · exact .inr (hbraced _ (Option.some.inj h))
  · exact .inr (hbraced _ (Option.some.inj h))
  · cases h

/-- Every type that can be read is well formed. -/
theorem FieldType.wellFormed_of_parse {expr : List Char} {t : FieldType}
    (h : FieldType.parse expr = .ok t) : t.WellFormed := by
  unfold FieldType.parse at h
  split at h
  · cases h
  · rename_i head rest hhead
    obtain ⟨hne, hword, -⟩ := TypeHead.read?_eq_some hhead
    have hkind := TypeHead.kind_wellFormed hne hword
    split at h
    · cases h
    · rename_i constraint hconstraint
      cases h
      rcases Constraint.read?_cases hconstraint with rfl | ⟨cs, rfl⟩ | ⟨cs, b, hread, rfl⟩
      · exact ⟨hkind, by simp [Constraint.apply], by simp [Constraint.apply]⟩
      · exact ⟨hkind, fun v hv => isChoice_of_mem_choicesOf hv, by simp [Constraint.apply]⟩
      · refine ⟨hkind, by simp [Constraint.apply], fun b' hb' => ⟨?_, rfl⟩⟩
        obtain ⟨⟨hminLength, hmaxLength, hmin, hmax⟩, hsort⟩ := Bounds.read?_eq_some hread
        simp only [Constraint.apply] at hb'
        split at hb'
        · cases hb'
        · rename_i hempty
          cases hb'
          have hne : b ≠ {} := fun he => hempty (Bounds.isEmpty_iff.mpr he)
          exact ⟨hne, hminLength, hmaxLength, hmin, hmax, hsort⟩

/-! ### Spellings -/

def Kind.spelling : Kind → List Char
  | .any => "Any".toList
  | .reference name => '#' :: name.toList
  | .scalar name => name.toList
  | .array items => items.spelling ++ ['[', ']']

def boundSpelling (bound : Option Int) : List Char :=
  (bound.map fun n => Nat.toDigits 10 n.toNat).getD []

def Bounds.spelling (b : Bounds) : List Char :=
  if b.min = none ∧ b.max = none then
    boundSpelling b.minLength ++ ['.', '.'] ++ boundSpelling b.maxLength
  else boundSpelling b.min ++ ['-'] ++ boundSpelling b.max

def choicesSpelling (choices : List String) : List Char :=
  [','].intercalate (choices.map fun value => '\'' :: value.toList ++ ['\''])

/-- The constraint of a type as it follows the name. -/
def FieldType.constraintSpelling (t : FieldType) : List Char :=
  match t.bounds with
  | some b => ['}', '{'] ++ b.spelling
  | none => if t.choices = [] then [] else ['=', '{'] ++ choicesSpelling t.choices ++ ['}']

def FieldType.spelling (t : FieldType) : List Char :=
  t.kind.spelling ++ t.constraintSpelling

theorem TypeHead.read?_append {name rest : List Char} (isReference isArray : Bool)
    (hne : name ≠ []) (hword : ∀ c ∈ name, isWord c = true)
    (hrest : ∀ c, rest.head? = some c → isWord c = false ∧ c ≠ '[') :
    TypeHead.read? ((if isReference then ['#'] else []) ++ name ++
      (if isArray then ['[', ']'] else []) ++ rest) = some (⟨isReference, name, isArray⟩, rest) := by
  have hafter : ∀ c, ((if isArray then ['[', ']'] else []) ++ rest).head? = some c →
      isWord c = false := by
    intro c hc
    cases isArray with
    | true => cases hc; decide
    | false => exact (hrest c hc).1
  have hbrackets : after? ['[', ']'] ((if isArray then ['[', ']'] else []) ++ rest) =
      if isArray then some rest else none := by
    cases isArray with
    | true => exact after?_append ['[', ']'] rest
    | false =>
      cases rest with
      | nil => rfl
      | cons c rest => exact after?_eq_none (hrest c rfl).2.symm
  have hmark : ∀ tail, after? ['#'] ((if isReference then ['#'] else []) ++ (name ++ tail)) =
      if isReference then some (name ++ tail) else none := by
    intro tail
    cases isReference with
    | true => exact after?_append ['#'] (name ++ tail)
    | false =>
      obtain ⟨c, cs, rfl⟩ := List.exists_cons_of_ne_nil hne
      exact after?_eq_none (ne_of_isWord (hword c (by simp)) (by decide)).symm
  have hunmarked : ∀ tail, (if isReference then some (name ++ tail) else none).getD
      ((if isReference then ['#'] else []) ++ (name ++ tail)) = name ++ tail := by
    cases isReference <;> simp
  rw [List.append_assoc, List.append_assoc]
  simp only [TypeHead.read?, hmark, hunmarked, word?_append hword hne hafter, Option.bind_eq_bind,
    Option.bind_some, hbrackets]
  cases isReference <;> cases isArray <;> rfl

/-- A kind that the items of an array can have is spelled by a name, and the name gives it back. -/
theorem Kind.IsItem.exists_head {item : Kind} (h : item.IsItem) : ∃ isReference name,
    item.spelling = (if isReference then ['#'] else []) ++ name ∧ name ≠ [] ∧
      (∀ c ∈ name, isWord c = true) ∧
      ∀ isArray, TypeHead.kind ⟨isReference, name, isArray⟩ =
        if isArray then .array item else item := by
  cases item with
  | any =>
    exact ⟨false, "Any".toList, rfl, by decide, List.all_eq_true.mp (by decide), fun isArray => rfl⟩
  | reference name =>
    exact ⟨true, name.toList, rfl, by simpa using h.2, h.1, fun isArray => by simp [TypeHead.kind]⟩
  | scalar name =>
    obtain ⟨hword, hne, hupper, hany⟩ := h
    have hname : name.toList.modifyHead Char.toUpper = name.toList := by
      cases hcs : name.toList with
      | nil => rfl
      | cons c cs => rw [List.modifyHead_cons, toUpper_of_not_isLower (hupper c (by simp [hcs]))]
    refine ⟨false, name.toList, rfl, by simpa using hne, hword, fun isArray => ?_⟩
    simp only [TypeHead.kind, hany, hname, String.ofList_toList, Bool.false_eq_true, if_false]
  | array items => exact h.elim

/-- The spelling of a kind is read as that kind. -/
theorem Kind.read?_spelling {kind : Kind} (h : kind.WellFormed) {rest : List Char}
    (hrest : ∀ c, rest.head? = some c → isWord c = false ∧ c ≠ '[') :
    ∃ head, TypeHead.read? (kind.spelling ++ rest) = some (head, rest) ∧ head.kind = kind := by
  rcases h.item_or_array with hitem | ⟨items, rfl, hitem⟩
  · obtain ⟨isReference, name, hspelling, hne, hword, hkind⟩ := hitem.exists_head
    have hread := TypeHead.read?_append isReference false hne hword hrest
    rw [← hspelling, if_neg (by decide), List.append_nil] at hread
    exact ⟨⟨isReference, name, false⟩, hread, hkind false⟩
  · obtain ⟨isReference, name, hspelling, hne, hword, hkind⟩ := hitem.exists_head
    have hread := TypeHead.read?_append isReference true hne hword hrest
    rw [← hspelling] at hread
    exact ⟨⟨isReference, name, true⟩, hread, hkind true⟩

theorem bound?_boundSpelling {bound : Option Int} (h : IsBound bound) :
    bound? (boundSpelling bound) = bound := by
  cases bound with
  | none => rfl
  | some n =>
    obtain ⟨hpos, hle⟩ := h n rfl
    have hdecimal : decimal (boundSpelling (some n)) = n.toNat := by
      exact Nat.ofDigitChars_ten_toDigits
    simp only [bound?, hdecimal]
    rw [if_pos (by omega)]
    congr 1
    omega

theorem isDigit_boundSpelling (bound : Option Int) :
    ∀ c ∈ boundSpelling bound, c.isDigit = true := by
  cases bound with
  | none => simp [boundSpelling]
  | some n =>
    intro c hc
    exact Nat.isDigit_of_mem_toDigits (by decide) (by decide) hc

theorem range?_append {p : Char} (hp : p.isDigit = false) (ps : List Char) {low high : List Char}
    (hlow : ∀ c ∈ low, c.isDigit = true) (hhigh : ∀ c ∈ high, c.isDigit = true) :
    range? (p :: ps) (low ++ (p :: ps) ++ high) = some (low, high) := by
  have hseparator : p ∉ low := fun hc => by
    rw [hlow p hc] at hp
    cases hp
  have hdigits : (low.all Char.isDigit && high.all Char.isDigit) = true := by
    rw [Bool.and_eq_true, List.all_eq_true, List.all_eq_true]
    exact ⟨hlow, hhigh⟩
  simp only [range?, divide?_append hseparator, Option.bind_eq_bind, Option.bind_some, hdigits,
    if_true]

theorem range?_boundSpelling {p : Char} (hp : p.isDigit = false) (ps : List Char)
    (low high : Option Int) :
    range? (p :: ps) (boundSpelling low ++ (p :: ps) ++ boundSpelling high) =
      some (boundSpelling low, boundSpelling high) :=
  range?_append hp ps (isDigit_boundSpelling low) (isDigit_boundSpelling high)

theorem Bounds.read?_spelling {b : Bounds} (h : b.WellFormed) :
    Bounds.read? b.spelling = some b := by
  obtain ⟨minLength, maxLength, min, max⟩ := b
  have hsort := h.one_sort
  by_cases hvalues : min = none ∧ max = none
  · obtain ⟨rfl, rfl⟩ := hvalues
    rw [Bounds.spelling, if_pos ⟨rfl, rfl⟩, Bounds.read?, range?_boundSpelling (by decide)]
    simp only [bound?_boundSpelling h.minLength, bound?_boundSpelling h.maxLength]
  · obtain ⟨rfl, rfl⟩ := hsort.resolve_left hvalues
    have hdots : range? ['.', '.'] (boundSpelling min ++ ['-'] ++ boundSpelling max) = none := by
      have hnone : '.' ∉ boundSpelling min ++ ['-'] ++ boundSpelling max := by
        simp only [List.mem_append, List.mem_singleton, not_or]
        refine ⟨⟨fun hc => ?_, by decide⟩, fun hc => ?_⟩
        all_goals exact absurd (isDigit_boundSpelling _ _ hc) (by decide)
      simp only [range?, divide?_eq_none hnone, Option.bind_eq_bind, Option.bind_none]
    rw [Bounds.spelling, if_neg hvalues, Bounds.read?, hdots, range?_boundSpelling (by decide)]
    simp only [bound?_boundSpelling h.min, bound?_boundSpelling h.max]

theorem filter_choicesSpelling {choices : List String} (h : ∀ v ∈ choices, IsChoice v) :
    (choicesSpelling choices).filter (fun c => c != '\'' && c != '"') =
      [','].intercalate (choices.map String.toList) := by
  induction choices with
  | nil => rfl
  | cons v choices ih =>
    have hvalue : v.toList.filter (fun c => c != '\'' && c != '"') = v.toList := by
      obtain ⟨-, hsingle, hdouble, -⟩ := h v (by simp)
      refine List.filter_eq_self.mpr fun c hc => ?_
      have h₁ : c ≠ '\'' := fun he => hsingle (he ▸ hc)
      have h₂ : c ≠ '"' := fun he => hdouble (he ▸ hc)
      simp [h₁, h₂]
    have ih := ih fun w hw => h w (by simp [hw])
    cases choices with
    | nil => simp [choicesSpelling, hvalue]
    | cons w choices =>
      simp only [choicesSpelling, List.map_cons, List.intercalate_cons_cons] at ih ⊢
      rw [List.filter_append, ih]
      simp [hvalue]

theorem choicesOf_choicesSpelling {choices : List String} (h : ∀ v ∈ choices, IsChoice v) :
    choicesOf (choicesSpelling choices) = choices := by
  simp only [choicesOf, filter_choicesSpelling h]
  cases choices with
  | nil => rfl
  | cons v choices =>
    have hcommas : ∀ l ∈ (v :: choices).map String.toList, ',' ∉ l := by
      intro l hl
      obtain ⟨w, hw, rfl⟩ := List.mem_map.mp hl
      exact (h w hw).2.2.2
    have hkept : ((v :: choices).map String.toList).filter (!·.isEmpty) =
        (v :: choices).map String.toList := by
      refine List.filter_eq_self.mpr fun l hl => ?_
      obtain ⟨w, hw, rfl⟩ := List.mem_map.mp hl
      simpa using (h w hw).1
    rw [List.splitOn_intercalate ',' hcommas (by simp), hkept, List.map_map]
    simp

theorem choicesSpelling_eq_append {choices : List String} (h : choices ≠ []) :
    ∃ front, choicesSpelling choices = front ++ ['\''] := by
  induction choices with
  | nil => exact absurd rfl h
  | cons v choices ih =>
    cases choices with
    | nil => exact ⟨'\'' :: v.toList, by simp [choicesSpelling]⟩
    | cons w choices =>
      obtain ⟨front, hfront⟩ := ih (by simp)
      refine ⟨'\'' :: v.toList ++ ['\''] ++ [','] ++ front, ?_⟩
      simp only [choicesSpelling, List.map_cons, List.intercalate_cons_cons] at hfront ⊢
      rw [hfront]
      simp

theorem stripBraces_choicesSpelling {choices : List String} (h : choices ≠ []) :
    stripBraces ('{' :: choicesSpelling choices ++ ['}']) = choicesSpelling choices := by
  obtain ⟨front, hfront⟩ := choicesSpelling_eq_append h
  have hopen : after? ['{'] ('{' :: choicesSpelling choices ++ ['}']) =
      some (choicesSpelling choices ++ ['}']) := after?_append ['{'] _
  rw [stripBraces, hopen, Option.getD_some, dropEndWhile_append_of_all (by simp), hfront,
    dropEndWhile_append_singleton (by decide)]

theorem mem_boundsSpelling {b : Bounds} {c : Char} (h : c ∈ b.spelling) :
    c.isDigit = true ∨ c = '.' ∨ c = '-' := by
  unfold Bounds.spelling at h
  split at h
  all_goals
    simp only [List.mem_append, List.mem_cons, List.not_mem_nil, or_false] at h
    rcases h with (h | h) | h
    · exact .inl (isDigit_boundSpelling _ c h)
    · simp_all
    · exact .inl (isDigit_boundSpelling _ c h)

theorem stripBraces_boundsSpelling (b : Bounds) : stripBraces b.spelling = b.spelling := by
  have hbrace : ∀ d ∈ ['{', '}'], ∀ c ∈ b.spelling, c ≠ d := by
    rintro d hd c hc rfl
    simp only [List.mem_cons, List.not_mem_nil, or_false] at hd
    rcases mem_boundsSpelling hc with h | rfl | rfl
    · rcases hd with rfl | rfl <;> exact absurd h (by decide)
    · exact absurd hd (by decide)
    · exact absurd hd (by decide)
  have hopen : (after? ['{'] b.spelling).getD b.spelling = b.spelling := by
    cases hcs : b.spelling with
    | nil => rfl
    | cons c cs =>
      rw [after?_eq_none (hbrace '{' (by simp) c (by simp [hcs])).symm, Option.getD_none]
  rw [stripBraces, hopen]
  exact dropEndWhile_of_forall fun c hc => by simpa using hbrace '}' (by simp) c hc

theorem FieldType.read?_constraintSpelling {t : FieldType} (h : t.WellFormed) :
    ∃ constraint, Constraint.read? t.constraintSpelling = some constraint ∧
      constraint.apply t.kind = t := by
  obtain ⟨kind, choices, bounds⟩ := t
  cases bounds with
  | none =>
    by_cases hchoices : choices = []
    · subst hchoices
      exact ⟨.nothing, rfl, rfl⟩
    · refine ⟨.choices choices, ?_, rfl⟩
      have hread : Constraint.read? ('=' :: ('{' :: choicesSpelling choices ++ ['}'])) =
        some (.choices (choicesOf (stripBraces ('{' :: choicesSpelling choices ++ ['}'])))) := rfl
      rw [stripBraces_choicesSpelling hchoices, choicesOf_choicesSpelling h.choices] at hread
      simpa [constraintSpelling, hchoices] using hread
  | some b =>
    obtain ⟨hbounds, rfl⟩ := h.bounds b rfl
    refine ⟨.bounds b, ?_, ?_⟩
    · have hread : Constraint.read? ('}' :: '{' :: b.spelling) =
        some (.ofBraced (stripBraces b.spelling)) := rfl
      rw [stripBraces_boundsSpelling, Constraint.ofBraced, Bounds.read?_spelling hbounds] at hread
      exact hread
    · have hne : b.isEmpty = false := by
        rw [Bool.eq_false_iff, ne_eq, Bounds.isEmpty_iff]
        exact hbounds.ne_empty
      simp [Constraint.apply, hne]

theorem FieldType.WellFormed.spelling_ne_nil {t : FieldType} (h : t.WellFormed) :
    t.spelling ≠ [] := by
  intro hnil
  have hkind : t.kind.spelling = [] := (List.append_eq_nil_iff.mp hnil).1
  rcases h.kind.item_or_array with hitem | ⟨items, hitems, -⟩
  · obtain ⟨isReference, name, hspelling, hne, -⟩ := hitem.exists_head
    exact hne (List.append_eq_nil_iff.mp (hspelling ▸ hkind)).2
  · rw [hitems] at hkind
    exact absurd (List.append_eq_nil_iff.mp hkind).2 (by decide)

/-- The spelling of a well-formed type is read as that type. -/
theorem FieldType.parse_spelling {t : FieldType} (h : t.WellFormed) :
    FieldType.parse t.spelling = .ok t := by
  have hrest : ∀ c, t.constraintSpelling.head? = some c → isWord c = false ∧ c ≠ '[' := by
    intro c hc
    unfold constraintSpelling at hc
    split at hc
    · cases hc
      decide
    · split at hc <;> cases hc
      decide
  obtain ⟨head, hhead, hkind⟩ := Kind.read?_spelling h.kind hrest
  obtain ⟨constraint, hconstraint, happly⟩ := FieldType.read?_constraintSpelling h
  rw [FieldType.parse, FieldType.spelling, hhead]
  simp only [hconstraint]
  rw [hkind, happly]

end RouteDoc
