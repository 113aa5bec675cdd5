import RouteDoc.Proofs.TypeGrammar

/-! The constraints of type expressions. A range is two runs of digits around dots or a dash, and
each side sets the bound whose number it writes, unless that number is zero or too large. Any other
constraint is a list of values, and it does not matter in which of its four forms it is written. -/

namespace RouteDoc

open Text

/-! ### Numbers -/

/-- The digits write the number in decimal, with any number of zeros before it. -/
def WritesNumber (digits : List Char) (n : Nat) : Prop :=
  ∃ zeros, digits = List.replicate zeros '0' ++ Nat.toDigits 10 n

theorem decimal_eq_ofDigitChars (digits : List Char) :
    decimal digits = Nat.ofDigitChars 10 digits 0 := rfl

theorem WritesNumber.decimal_eq {digits : List Char} {n : Nat} (h : WritesNumber digits n) :
    decimal digits = n := by
  obtain ⟨zeros, rfl⟩ := h
  rw [decimal_eq_ofDigitChars, Nat.ofDigitChars_append, Nat.ofDigitChars_replicate_zero,
    Nat.mul_zero, Nat.ofDigitChars_ten_toDigits]

theorem toNat_of_isDigit {c : Char} (h : c.isDigit = true) : 48 ≤ c.toNat ∧ c.toNat ≤ 57 :=
  Char.isDigit_iff_toNat.mp h

theorem toDigits_of_isDigit {c : Char} (h : c.isDigit = true) :
    Nat.toDigits 10 (c.toNat - 48) = [c] := by
  have hc := toNat_of_isDigit h
  have hchar : (c.toNat - 48).digitChar = c := by
    rw [← Char.toNat_inj, Nat.toNat_digitChar_of_lt_ten (by omega)]
    omega
  rw [Nat.toDigits_of_lt_base (by omega), hchar]

/-- Digits that follow a number other than zero are the next digits of the whole. -/
theorem toDigits_ofDigitChars {start : Nat} (hstart : 0 < start) {digits : List Char}
    (h : ∀ c ∈ digits, c.isDigit = true) :
    Nat.toDigits 10 (Nat.ofDigitChars 10 digits start) = Nat.toDigits 10 start ++ digits := by
  induction digits generalizing start with
  | nil => simp
  | cons c digits ih =>
    have hdigit : c.isDigit = true := h c (by simp)
    have hc := toNat_of_isDigit hdigit
    have hnext : Nat.toDigits 10 (10 * start + (c.toNat - 48)) = Nat.toDigits 10 start ++ [c] := by
      rw [← Nat.toDigits_append_toDigits (by decide) hstart (by omega), toDigits_of_isDigit hdigit]
    rw [Nat.ofDigitChars_cons]
    change Nat.toDigits 10 (Nat.ofDigitChars 10 digits (10 * start + (c.toNat - 48))) = _
    rw [ih (by omega) fun d hd => h d (by simp [hd]), hnext, List.append_assoc,
      List.singleton_append]

/-- Digits write a number, if there are any. -/
theorem writesNumber_decimal {digits : List Char} (hne : digits ≠ [])
    (h : ∀ c ∈ digits, c.isDigit = true) : WritesNumber digits (decimal digits) := by
  induction digits with
  | nil => exact absurd rfl hne
  | cons c digits ih =>
    have hdigits : ∀ d ∈ digits, d.isDigit = true := fun d hd => h d (by simp [hd])
    have hc := toNat_of_isDigit (h c (by simp))
    have hvalue : decimal (c :: digits) = Nat.ofDigitChars 10 digits (c.toNat - 48) := by
      rw [decimal_eq_ofDigitChars, Nat.ofDigitChars_cons, Nat.mul_zero, Nat.zero_add]
      rfl
    by_cases hzero : c = '0'
    · subst hzero
      cases digits with
      | nil => exact ⟨0, rfl⟩
      | cons d digits =>
        obtain ⟨zeros, hzeros⟩ := ih (by simp) hdigits
        refine ⟨zeros + 1, ?_⟩
        rw [List.replicate_succ, List.cons_append, hvalue]
        exact congrArg ('0' :: ·) hzeros
    · have hpos : 0 < c.toNat - 48 := by
        have : c.toNat ≠ 48 := fun h48 => hzero (Char.toNat_inj.mp h48)
        omega
      refine ⟨0, ?_⟩
      rw [hvalue, toDigits_ofDigitChars hpos hdigits, toDigits_of_isDigit (h c (by simp))]
      rfl

/-- A side of a range sets the bound: it is the number that the digits write, if that is one of the
numbers from 1 to the greatest 64-bit integer with a sign, and else there is none. -/
def Sets (digits : List Char) (bound : Option Int) : Prop :=
  ∀ n, bound = some n ↔ ∃ v : Nat, WritesNumber digits v ∧ 1 ≤ v ∧ v ≤ Nat.pow 2 63 - 1 ∧ n = v

theorem sets_bound? {digits : List Char} (h : ∀ c ∈ digits, c.isDigit = true) :
    Sets digits (bound? digits) := by
  intro n
  simp only [bound?, Option.ite_none_right_eq_some, Option.some.injEq]
  constructor
  · rintro ⟨⟨hpos, hle⟩, rfl⟩
    have hne : digits ≠ [] := by
      rintro rfl
      exact absurd hpos (by decide)
    exact ⟨decimal digits, writesNumber_decimal hne h, hpos, hle, rfl⟩
  · rintro ⟨v, hv, hpos, hle, rfl⟩
    rw [hv.decimal_eq]
    exact ⟨⟨hpos, hle⟩, rfl⟩

/-! ### Ranges -/

/-- What a range bounds: the lengths of texts, or the values of numbers. -/
inductive RangeSort where
  | lengths
  | values

def RangeSort.separator : RangeSort → List Char
  | .lengths => ['.', '.']
  | .values => ['-']

/-- The text is a range: two runs of digits, which may be empty, around the separator. -/
structure RangeText (sort : RangeSort) (cs low high : List Char) : Prop where
  text : cs = low ++ sort.separator ++ high
  low : ∀ c ∈ low, c.isDigit = true
  high : ∀ c ∈ high, c.isDigit = true

/-- The bounds are what the sides of a range of the sort set, and no others. -/
def Bounds.Records (b : Bounds) (low high : List Char) : RangeSort → Prop
  | .lengths => Sets low b.minLength ∧ Sets high b.maxLength ∧ b.min = none ∧ b.max = none
  | .values => Sets low b.min ∧ Sets high b.max ∧ b.minLength = none ∧ b.maxLength = none

theorem RangeSort.separator_eq_cons (sort : RangeSort) :
    ∃ p ps, sort.separator = p :: ps ∧ p.isDigit = false := by
  cases sort with
  | lengths => exact ⟨'.', ['.'], rfl, by decide⟩
  | values => exact ⟨'-', [], rfl, by decide⟩

theorem range?_eq_some_iff {sort : RangeSort} {cs low high : List Char} :
    range? sort.separator cs = some (low, high) ↔ RangeText sort cs low high := by
  constructor
  · intro h
    simp only [range?, Option.bind_eq_bind, Option.bind_eq_some_iff] at h
    obtain ⟨⟨low', high'⟩, hdivide, h⟩ := h
    split at h
    · rename_i hdigits
      cases h
      rw [Bool.and_eq_true, List.all_eq_true, List.all_eq_true] at hdigits
      exact ⟨append_of_divide? hdivide, hdigits.1, hdigits.2⟩
    · cases h
  · rintro ⟨rfl, hlow, hhigh⟩
    obtain ⟨p, ps, hseparator, hp⟩ := sort.separator_eq_cons
    rw [hseparator]
    exact range?_append hp ps hlow hhigh

/-- The digits at the start of a range are its first side. -/
theorem RangeText.cut {sort : RangeSort} {cs low high : List Char}
    (h : RangeText sort cs low high) : cs.takeWhile Char.isDigit = low ∧
      cs.dropWhile Char.isDigit = sort.separator ++ high := by
  obtain ⟨p, ps, hseparator, hp⟩ := sort.separator_eq_cons
  rw [h.text, List.append_assoc]
  refine takeWhile_dropWhile_append h.low fun c hc => ?_
  rw [hseparator] at hc
  cases hc
  exact hp

/-- The first character after the digits at the start says which separator it is. -/
theorem RangeText.unique {sort sort' : RangeSort} {cs low high low' high' : List Char}
    (h : RangeText sort cs low high) (h' : RangeText sort' cs low' high') :
    sort = sort' ∧ low = low' ∧ high = high' := by
  have hlow : low = low' := h.cut.1.symm.trans h'.cut.1
  have hrest : sort.separator ++ high = sort'.separator ++ high' := h.cut.2.symm.trans h'.cut.2
  cases sort <;> cases sort'
  case lengths.lengths => exact ⟨rfl, hlow, List.append_cancel_left hrest⟩
  case values.values => exact ⟨rfl, hlow, List.append_cancel_left hrest⟩
  case lengths.values => cases hrest
  case values.lengths => cases hrest

/-- Bounds are read from a range as its sides set them. -/
theorem RangeText.exists_read? {sort : RangeSort} {cs low high : List Char}
    (h : RangeText sort cs low high) :
    ∃ b, Bounds.read? cs = some b ∧ b.Records low high sort := by
  have hrange : range? sort.separator cs = some (low, high) := range?_eq_some_iff.mpr h
  cases sort with
  | lengths =>
    have hread : Bounds.read? cs = some { minLength := bound? low, maxLength := bound? high } := by
      change range? ['.', '.'] cs = _ at hrange
      rw [Bounds.read?, hrange]
    exact ⟨_, hread, sets_bound? h.low, sets_bound? h.high, rfl, rfl⟩
  | values =>
    have hnone : range? ['.', '.'] cs = none := by
      rw [Option.eq_none_iff_forall_ne_some]
      rintro ⟨low', high'⟩ hread
      have hlengths : RangeText .lengths cs low' high' := range?_eq_some_iff.mp hread
      cases (h.unique hlengths).1
    have hread : Bounds.read? cs = some { min := bound? low, max := bound? high } := by
      change range? ['-'] cs = _ at hrange
      rw [Bounds.read?, hnone, hrange]
    exact ⟨_, hread, sets_bound? h.low, sets_bound? h.high, rfl, rfl⟩

theorem Bounds.exists_read?_iff {cs : List Char} :
    (∃ b, Bounds.read? cs = some b) ↔ ∃ sort low high, RangeText sort cs low high := by
  constructor
  · rintro ⟨b, h⟩
    unfold Bounds.read? at h
    split at h
    case h_1 low high hrange => exact ⟨.lengths, low, high, range?_eq_some_iff.mp hrange⟩
    case h_2 =>
      split at h
      case h_1 low high hrange => exact ⟨.values, low, high, range?_eq_some_iff.mp hrange⟩
      case h_2 => cases h
  · rintro ⟨sort, low, high, h⟩
    obtain ⟨b, hread, -⟩ := h.exists_read?
    exact ⟨b, hread⟩

/-! ### Constraints after a head -/

/-- The name of the head is a word that is not empty. -/
structure TypeHead.Fits (head : TypeHead) : Prop where
  name_ne_nil : head.name ≠ []
  isWord_name : ∀ c ∈ head.name, isWord c = true

theorem TypeHead.Fits.parse_eq {head : TypeHead} (h : head.Fits) {rest : List Char}
    {constraint : Constraint} (hread : Constraint.read? rest = some constraint) :
    FieldType.parse (head.text ++ rest) = .ok (constraint.apply head.kind) := by
  have hparts : TypeParts (head.text ++ rest) head rest :=
    { text := rfl
      name_ne_nil := h.name_ne_nil
      isWord_name := h.isWord_name
      constraint := Constraint.exists_read?_iff.mp ⟨constraint, hread⟩ }
  exact hparts.parse_eq hread

/-- Bounds are read from the texts that are ranges and from no others, a text is a range in one way
only, and each side of it sets its own bound: dots are between bounds on lengths, and a dash between
bounds on values. In a type expression a range that sets no bound is left out, and is not taken for
a list of values either. -/
theorem Bounds.read?_range :
    (∀ cs, (∃ b, Bounds.read? cs = some b) ↔ ∃ sort low high, RangeText sort cs low high) ∧
    (∀ cs sort low high sort' low' high', RangeText sort cs low high →
      RangeText sort' cs low' high' → sort = sort' ∧ low = low' ∧ high = high') ∧
    (∀ cs sort low high, RangeText sort cs low high →
      ∃ b, Bounds.read? cs = some b ∧ b.Records low high sort) ∧
    ∀ (head : TypeHead) (cs : List Char) (b : Bounds), head.Fits →
      Bounds.read? (stripBraces cs) = some b → ∀ opening ∈ [['}', '{'], ['{']],
        FieldType.parse (head.text ++ (opening ++ cs)) =
          .ok { kind := head.kind, choices := [], bounds := if b = {} then none else some b } := by
  refine ⟨fun _ => exists_read?_iff, fun _ _ _ _ _ _ _ h h' => h.unique h',
    fun _ _ _ _ h => h.exists_read?, ?_⟩
  intro head cs b hhead hread opening hopening
  have hbounds : Constraint.ofBraced (stripBraces cs) = .bounds b := by
    rw [Constraint.ofBraced, hread]
  have hconstraint : Constraint.read? (opening ++ cs) = some (.bounds b) := by
    rw [← hbounds]
    simp only [List.mem_cons, List.not_mem_nil, or_false] at hopening
    rcases hopening with rfl | rfl <;> rfl
  rw [hhead.parse_eq hconstraint]
  simp only [Constraint.apply, Bounds.isEmpty_iff]

/-- Zeros at the start are no part of a number, and a number that is too large sets no bound. The
range after the array sets none at all. -/
theorem Bounds.read?_range_zeros :
    RangeText .lengths "007..9223372036854775808".toList "007".toList "9223372036854775808".toList ∧
    (∃ b, Bounds.read? "007..9223372036854775808".toList = some b ∧
      b.Records "007".toList "9223372036854775808".toList .lengths ∧
      b.minLength = some 7 ∧ b.maxLength = none) ∧
    FieldType.parse "Number[]\x7b\x7b-0\x7d\x7d".toList =
      .ok { kind := .array (.scalar "Number") } := by
  have hrange : RangeText .lengths "007..9223372036854775808".toList "007".toList
      "9223372036854775808".toList :=
    ⟨by decide, List.all_eq_true.mp (by decide), List.all_eq_true.mp (by decide)⟩
  have hhead : TypeHead.Fits ⟨false, "Number".toList, true⟩ :=
    ⟨by decide, List.all_eq_true.mp (by decide)⟩
  obtain ⟨b, hread, hrecords⟩ := Bounds.read?_range.2.2.1 _ _ _ _ hrange
  have hb : some b = some { minLength := some 7 } := hread.symm.trans (by decide)
  obtain rfl := Option.some.inj hb
  refine ⟨hrange, ⟨_, hread, hrecords, rfl, rfl⟩, ?_⟩
  exact Bounds.read?_range.2.2.2 _ "\x7b-0\x7d\x7d".toList {} hhead (by decide) ['{'] (by decide)

/-! ### The forms of a constraint -/

theorem dropEndWhile_append_brace (cs : List Char) :
    dropEndWhile (· == '}') (cs ++ ['}']) = dropEndWhile (· == '}') cs :=
  dropEndWhile_append_of_all (by simp) cs

theorem stripBraces_brace_cons (cs : List Char) :
    stripBraces ('{' :: cs) = dropEndWhile (· == '}') cs := by
  have hopen : after? ['{'] ('{' :: cs) = some cs := after?_append ['{'] cs
  rw [stripBraces, hopen, Option.getD_some]

theorem stripBraces_of_head? {cs : List Char} (h : cs.head? ≠ some '{') :
    stripBraces cs = dropEndWhile (· == '}') cs := by
  have hopen : after? ['{'] cs = none := by
    cases cs with
    | nil => rfl
    | cons c cs => exact after?_eq_none fun hc => h (congrArg some hc.symm)
  rw [stripBraces, hopen, Option.getD_none]

theorem stripBraces_append_brace (cs : List Char) :
    stripBraces (cs ++ ['}']) = stripBraces cs := by
  by_cases h : cs.head? = some '{'
  · obtain ⟨rest, rfl⟩ := List.head?_eq_some_iff.mp h
    rw [List.cons_append, stripBraces_brace_cons, stripBraces_brace_cons, dropEndWhile_append_brace]
  · have happend : (cs ++ ['}']).head? ≠ some '{' := by
      cases cs with
      | nil => decide
      | cons c cs => exact h
    rw [stripBraces_of_head? happend, stripBraces_of_head? h, dropEndWhile_append_brace]

/-- Nothing but braces is stripped. -/
theorem mem_stripBraces {c : Char} (hopen : c ≠ '{') (hclose : c ≠ '}') {cs : List Char}
    (h : c ∈ cs) : c ∈ stripBraces cs := by
  have hkept : ∀ {cs : List Char}, c ∈ cs → c ∈ dropEndWhile (· == '}') cs :=
    mem_dropEndWhile (by simpa using hclose)
  by_cases hhead : cs.head? = some '{'
  · obtain ⟨rest, rfl⟩ := List.head?_eq_some_iff.mp hhead
    rw [stripBraces_brace_cons]
    exact hkept ((List.mem_cons.mp h).resolve_left hopen)
  · rw [stripBraces_of_head? hhead]
    exact hkept h

theorem RangeText.mem {sort : RangeSort} {cs low high : List Char} (h : RangeText sort cs low high)
    {c : Char} (hc : c ∈ cs) : c.isDigit = true ∨ c = '.' ∨ c = '-' := by
  rw [h.text, List.mem_append, List.mem_append] at hc
  rcases hc with (hc | hc) | hc
  · exact .inl (h.low c hc)
  · cases sort with
    | lengths => simp_all [RangeSort.separator]
    | values => simp_all [RangeSort.separator]
  · exact .inl (h.high c hc)

/-- A quote of either kind is in the text. -/
def HoldsQuote (cs : List Char) : Prop := '\'' ∈ cs ∨ '"' ∈ cs

theorem HoldsQuote.read?_eq_none {cs : List Char} (h : HoldsQuote cs) : Bounds.read? cs = none := by
  rw [Option.eq_none_iff_forall_ne_some]
  intro b hread
  obtain ⟨sort, low, high, hrange⟩ := Bounds.exists_read?_iff.mp ⟨b, hread⟩
  rcases h with hc | hc
  all_goals exact absurd (hrange.mem hc) (by decide)

theorem HoldsQuote.stripBraces {cs : List Char} (h : HoldsQuote cs) :
    HoldsQuote (stripBraces cs) :=
  h.imp (mem_stripBraces (by decide) (by decide)) (mem_stripBraces (by decide) (by decide))

/-- A constraint says the same beside the braces of its type as between its own, and a constraint
that is no range and opens no brace says the same after an equals sign, with braces or without. One
that holds a quote is no range. -/
theorem FieldType.parse_constraint_forms (head : TypeHead) (hhead : head.Fits) (cs : List Char) :
    ∃ t, FieldType.parse (head.text ++ (['}', '{'] ++ cs)) = .ok t ∧
      FieldType.parse (head.text ++ (['{'] ++ cs ++ ['}'])) = .ok t ∧
      (cs.head? ≠ some '{' → Bounds.read? (stripBraces cs) = none →
        FieldType.parse (head.text ++ (['=', '{'] ++ cs ++ ['}'])) = .ok t ∧
        FieldType.parse (head.text ++ (['='] ++ cs)) = .ok t) ∧
      (HoldsQuote cs → Bounds.read? cs = none ∧ t.bounds = none) := by
  have hbeside : Constraint.read? (['}', '{'] ++ cs) = some (.ofBraced (stripBraces cs)) := rfl
  have hnested : Constraint.read? (['{'] ++ cs ++ ['}']) = some (.ofBraced (stripBraces cs)) := by
    rw [← stripBraces_append_brace]
    rfl
  refine ⟨_, hhead.parse_eq hbeside, hhead.parse_eq hnested, fun hbrace hrange => ?_,
    fun hquote => ?_⟩
  · have hchoices : Constraint.ofBraced (stripBraces cs) =
        .choices (choicesOf (stripBraces cs)) := by
      rw [Constraint.ofBraced, hrange]
    have hequals : Constraint.read? (['='] ++ cs) = some (.choices (choicesOf (stripBraces cs))) :=
      rfl
    have hbraced : Constraint.read? (['=', '{'] ++ cs ++ ['}']) =
        some (.choices (choicesOf (stripBraces cs))) := by
      have hstrip : stripBraces ('{' :: (cs ++ ['}'])) = stripBraces cs := by
        rw [stripBraces_brace_cons, dropEndWhile_append_brace, stripBraces_of_head? hbrace]
      rw [← hstrip]
      rfl
    rw [hchoices]
    exact ⟨hhead.parse_eq hbraced, hhead.parse_eq hequals⟩
  · rw [Constraint.ofBraced, hquote.stripBraces.read?_eq_none]
    exact ⟨hquote.read?_eq_none, rfl⟩

/-- What is in quotes looks like a range, but is a value. -/
theorem FieldType.parse_constraint_forms_quotes :
    TypeHead.Fits ⟨true, "Size".toList, false⟩ ∧ HoldsQuote "'1-5'\x7d".toList ∧
    "'1-5'\x7d".toList.head? ≠ some '{' ∧ Bounds.read? (stripBraces "'1-5'\x7d".toList) = none ∧
    ∃ t : FieldType, t.bounds = none ∧ t.choices = ["1-5"] ∧
      FieldType.parse "#Size\x7d\x7b'1-5'\x7d".toList = .ok t ∧
      FieldType.parse "#Size\x7b'1-5'\x7d\x7d".toList = .ok t ∧
      FieldType.parse "#Size=\x7b'1-5'\x7d\x7d".toList = .ok t ∧
      FieldType.parse "#Size='1-5'\x7d".toList = .ok t := by
  have hhead : TypeHead.Fits ⟨true, "Size".toList, false⟩ :=
    ⟨by decide, List.all_eq_true.mp (by decide)⟩
  have hquote : HoldsQuote "'1-5'\x7d".toList := .inl (by decide)
  have hbrace : "'1-5'\x7d".toList.head? ≠ some '{' := by decide
  have hrange : Bounds.read? (stripBraces "'1-5'\x7d".toList) = none :=
    hquote.stripBraces.read?_eq_none
  obtain ⟨t, hbeside, hnested, hequals, hnone⟩ :=
    FieldType.parse_constraint_forms _ hhead "'1-5'\x7d".toList
  obtain ⟨hbraced, hbare⟩ := hequals hbrace hrange
  have hchoices : t.choices = ["1-5"] := by
    have hread : FieldType.parse "#Size\x7d\x7b'1-5'\x7d".toList =
        .ok { kind := .reference "Size", choices := ["1-5"] } := by rfl
    obtain rfl := Except.ok.inj (hbeside.symm.trans hread)
    rfl
  exact ⟨hhead, hquote, hbrace, hrange, t, (hnone hquote).2, hchoices, hbeside, hnested, hbraced,
    hbare⟩

end RouteDoc
