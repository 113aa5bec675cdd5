import RouteDoc.Text.Class

/-! Searching a text: removal of a given start, the text after each occurrence of a pattern, the
text after each match of a search that does not turn back, and the division at the first
occurrence. -/

namespace RouteDoc.Text

/-- What follows `start` in a text that begins with it. -/
def after? : List Char → List Char → Option (List Char)
  | [], cs => some cs
  | _ :: _, [] => none
  | p :: ps, c :: cs => if p = c then after? ps cs else none

/-- What follows a text's first character, if that is white space. -/
def afterBlank? : List Char → Option (List Char)
  | [] => none
  | c :: cs => if isBlank c then some cs else none

/-- What follows each occurrence of a pattern, from left to right. -/
def afterEach (pattern : List Char) : List Char → List (List Char)
  | [] => (after? pattern []).toList
  | c :: cs => (after? pattern (c :: cs)).toList ++ afterEach pattern cs

/-- What follows each match of a pattern, from left to right, in a search that goes on where a match
ends. The first `skip` characters belong to a match that has been found. -/
def afterMatches (pattern : List Char) : Nat → List Char → List (List Char)
  | 0, [] => (after? pattern []).toList
  | 0, c :: cs =>
    match after? pattern (c :: cs) with
    | some rest => rest :: afterMatches pattern (pattern.length - 1) cs
    | none => afterMatches pattern 0 cs
  | _ + 1, [] => []
  | skip + 1, _ :: cs => afterMatches pattern skip cs

def contains (pattern cs : List Char) : Bool :=
  !(afterEach pattern cs).isEmpty

/-- The text before and after the first occurrence of a pattern. -/
def divide? (pattern : List Char) : List Char → Option (List Char × List Char)
  | [] => (after? pattern []).map ([], ·)
  | c :: cs =>
    match after? pattern (c :: cs) with
    | some rest => some ([], rest)
    | none => (divide? pattern cs).map fun (low, high) => (c :: low, high)

theorem after?_eq_some_iff {start cs rest : List Char} :
    after? start cs = some rest ↔ cs = start ++ rest := by
  induction start generalizing cs with
  | nil => simp [after?]
  | cons p ps ih =>
    cases cs with
    | nil => simp [after?]
    | cons c cs =>
      by_cases h : p = c
      · simp [after?, h, ih]
      · simp [after?, h, Ne.symm h]

@[simp] theorem after?_append (start rest : List Char) : after? start (start ++ rest) = some rest :=
  after?_eq_some_iff.mpr rfl

theorem afterBlank?_eq_some_iff {cs rest : List Char} :
    afterBlank? cs = some rest ↔ ∃ c, isBlank c = true ∧ cs = c :: rest := by
  cases cs with
  | nil => simp [afterBlank?]
  | cons c cs =>
    simp only [afterBlank?, Option.ite_none_right_eq_some, Option.some.injEq, List.cons.injEq]
    constructor
    · rintro ⟨h, rfl⟩; exact ⟨c, h, rfl, rfl⟩
    · rintro ⟨_, h, rfl, rfl⟩; exact ⟨h, rfl⟩

/-- The texts after an occurrence are those that the pattern and some text before it lead to. -/
theorem mem_afterEach_iff {pattern cs rest : List Char} :
    rest ∈ afterEach pattern cs ↔ ∃ before, cs = before ++ pattern ++ rest := by
  induction cs with
  | nil =>
    simp only [afterEach, Option.mem_toList, after?_eq_some_iff]
    constructor
    · intro h; exact ⟨[], by simpa using h⟩
    · rintro ⟨before, h⟩
      have : before = [] := by
        have := congrArg List.length h; simp at this
        exact List.eq_nil_of_length_eq_zero (by omega)
      simpa [this] using h
  | cons c cs ih =>
    simp only [afterEach, List.mem_append, Option.mem_toList,
      after?_eq_some_iff, ih]
    constructor
    · rintro (h | ⟨before, h⟩)
      · exact ⟨[], by simpa using h⟩
      · exact ⟨c :: before, by simp [h]⟩
    · rintro ⟨before, h⟩
      cases before with
      | nil => exact .inl (by simpa using h)
      | cons b before =>
        obtain ⟨rfl, h⟩ := List.cons.inj (by simpa using h)
        exact .inr ⟨before, by simpa using h⟩

theorem contains_eq_true_iff {pattern cs : List Char} :
    contains pattern cs = true ↔ ∃ before rest, cs = before ++ pattern ++ rest := by
  simp only [contains, Bool.not_eq_true', List.isEmpty_eq_false_iff_exists_mem, mem_afterEach_iff]
  exact exists_comm

/-- A division puts the pattern between its two parts. -/
theorem append_of_divide? {pattern cs low high : List Char}
    (h : divide? pattern cs = some (low, high)) : cs = low ++ pattern ++ high := by
  induction cs generalizing low high with
  | nil =>
    obtain ⟨rest, hr, he⟩ := Option.map_eq_some_iff.mp h
    cases he
    simpa using after?_eq_some_iff.mp hr
  | cons c cs ih =>
    simp only [divide?] at h
    split at h
    · rename_i rest hr
      cases h
      simpa using after?_eq_some_iff.mp hr
    · obtain ⟨⟨l, r⟩, hd, he⟩ := Option.map_eq_some_iff.mp h
      cases he
      simp [ih hd]

end RouteDoc.Text
