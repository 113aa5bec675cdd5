import RouteDoc.Route.Draft

/-! The character classes of annotations, and what a scan for a tag can find: it reads the text
after some occurrence of the tag and one white space character, so all that it reads stands on the
line. As the sign that starts a tag stands nowhere else in it, the scan leaves no occurrence out, and
`scanMatches_leftmost` says that it reads from the smallest position from which it can. -/

namespace RouteDoc

namespace Text

/-! ### Character classes -/

theorem isWord_iff {c : Char} : isWord c = true ↔
    48 ≤ c.toNat ∧ c.toNat ≤ 57 ∨ 65 ≤ c.toNat ∧ c.toNat ≤ 90 ∨ 97 ≤ c.toNat ∧ c.toNat ≤ 122 ∨
      c.toNat = 95 := by
  have hunderscore : c = '_' ↔ c.toNat = 95 := by
    rw [← Char.toNat_inj]; rfl
  have hclass : isWord c = (decide (65 ≤ c.toNat ∧ c.toNat ≤ 90) ||
      (decide (97 ≤ c.toNat) && decide (c.toNat ≤ 122)) ||
      (decide (48 ≤ c.toNat) && decide (c.toNat ≤ 57)) || c == '_') := rfl
  simp only [hclass, Bool.or_eq_true, Bool.and_eq_true, decide_eq_true_eq, beq_iff_eq, hunderscore]
  omega

theorem isBlank_space : isBlank ' ' = true := by decide

theorem isBlank_of_isWord {c : Char} (h : isWord c = true) : isBlank c = false := by
  have h' := isWord_iff.mp h
  simp only [isBlank, Bool.or_eq_false_iff, Bool.and_eq_false_iff, decide_eq_false_iff_not,
    beq_eq_false_iff_ne]
  omega

theorem isBlank_of_all {cs : List Char} (h : cs.all (!isBlank ·) = true) :
    ∀ c ∈ cs, isBlank c = false := by
  intro c hc
  simpa using List.all_eq_true.mp h c hc

theorem ne_of_isWord {c d : Char} (h : isWord c = true) (hd : isWord d = false) : c ≠ d := by
  rintro rfl
  exact absurd (h.symm.trans hd) (by decide)

/-- Every character of the text is a word character. -/
def IsWordText (text : String) : Prop := ∀ c ∈ text.toList, isWord c = true

instance (text : String) : Decidable (IsWordText text) :=
  decidable_of_iff (text.toList.all isWord = true) List.all_eq_true

theorem toNat_toUpper (c : Char) :
    c.toUpper.toNat = if 97 ≤ c.toNat ∧ c.toNat ≤ 122 then c.toNat - 32 else c.toNat := by
  have hiff : ('a'.val ≤ c.val ∧ c.val ≤ 'z'.val) ↔ (97 ≤ c.toNat ∧ c.toNat ≤ 122) := Iff.rfl
  have hstep : ('A'.val - 'a'.val).toNat = 2 ^ 32 - 32 := by decide
  unfold Char.toUpper
  split
  · rename_i h
    have hc := hiff.mp h
    rw [if_pos hc, Char.toNat, UInt32.toNat_add, hstep]
    change (c.toNat + (2 ^ 32 - 32)) % 2 ^ 32 = _
    omega
  · rename_i h
    rw [if_neg fun h' => h (hiff.mpr h')]

theorem toNat_toLower (c : Char) :
    c.toLower.toNat = if 65 ≤ c.toNat ∧ c.toNat ≤ 90 then c.toNat + 32 else c.toNat := by
  have hiff : (c.val ≥ 'A'.val ∧ c.val ≤ 'Z'.val) ↔ (65 ≤ c.toNat ∧ c.toNat ≤ 90) := Iff.rfl
  have hstep : ('a'.val - 'A'.val).toNat = 32 := by decide
  unfold Char.toLower
  split
  · rename_i h
    have hc := hiff.mp h
    rw [if_pos hc, Char.toNat, UInt32.toNat_add, hstep]
    change (c.toNat + 32) % 2 ^ 32 = _
    omega
  · rename_i h
    rw [if_neg fun h' => h (hiff.mpr h')]

theorem isWord_toUpper {c : Char} (h : isWord c = true) : isWord c.toUpper = true := by
  rw [isWord_iff, toNat_toUpper]
  have := isWord_iff.mp h
  split <;> omega

theorem isWord_toLower {c : Char} (h : isWord c = true) : isWord c.toLower = true := by
  rw [isWord_iff, toNat_toLower]
  have := isWord_iff.mp h
  split <;> omega

/-! ### Parts of a text -/

/-- The pieces of a text between separators have its other characters only. -/
theorem mem_of_mem_splitOn {c : Char} {cs piece : List Char} (h : piece ∈ cs.splitOn c) :
    ∀ d ∈ piece, d ∈ cs ∧ d ≠ c := by
  induction cs generalizing piece with
  | nil => simp_all
  | cons e cs ih =>
    have hrest : ∀ {piece}, piece ∈ cs.splitOn c → ∀ d ∈ piece, d ∈ e :: cs ∧ d ≠ c :=
      fun hpiece d hd => ⟨List.mem_cons_of_mem _ (ih hpiece d hd).1, (ih hpiece d hd).2⟩
    rw [List.splitOn_cons_eq_if_modifyHead] at h
    split at h
    · rcases List.mem_cons.mp h with rfl | h
      · simp
      · exact hrest h
    · rename_i he
      obtain ⟨first, rest, hsplit⟩ := List.exists_cons_of_ne_nil (List.splitOn_ne_nil c cs)
      rw [hsplit, List.modifyHead_cons] at h
      rcases List.mem_cons.mp h with rfl | h
      · intro d hd
        rcases List.mem_cons.mp hd with rfl | hd
        · exact ⟨by simp, by simpa using he⟩
        · exact hrest (by simp [hsplit]) d hd
      · exact hrest (by simp [hsplit, h])

/-- A run of characters ends where one outside its class follows. -/
theorem takeWhile_dropWhile_append {p : Char → Bool} {cs rest : List Char}
    (hcs : ∀ c ∈ cs, p c = true) (hrest : ∀ c, rest.head? = some c → p c = false) :
    (cs ++ rest).takeWhile p = cs ∧ (cs ++ rest).dropWhile p = rest := by
  rw [List.takeWhile_append_of_pos hcs, List.dropWhile_append_of_pos hcs]
  cases rest with
  | nil => simp
  | cons c rest =>
    have hc : p c = false := hrest c rfl
    simp [hc]

theorem takeWhile_of_forall {p : Char → Bool} {cs : List Char} (h : ∀ c ∈ cs, p c = true) :
    cs.takeWhile p = cs := by
  have happend : (cs ++ []).takeWhile p = cs ++ [].takeWhile p := List.takeWhile_append_of_pos h
  simpa using happend

theorem word_append {w rest : List Char} (hw : ∀ c ∈ w, isWord c = true)
    (hrest : ∀ c, rest.head? = some c → isWord c = false) : word (w ++ rest) = w :=
  (takeWhile_dropWhile_append hw hrest).1

theorem word?_append {w rest : List Char} (hw : ∀ c ∈ w, isWord c = true) (hne : w ≠ [])
    (hrest : ∀ c, rest.head? = some c → isWord c = false) : word? (w ++ rest) = some (w, rest) := by
  have hafter : afterWord (w ++ rest) = rest := (takeWhile_dropWhile_append hw hrest).2
  rw [word?, word_append hw hrest, hafter, if_neg (by simpa using hne)]

theorem after?_eq_none {p c : Char} {ps cs : List Char} (h : p ≠ c) :
    after? (p :: ps) (c :: cs) = none := by
  rw [after?, if_neg h]

theorem afterEach_append_of_not_mem {p : Char} {ps start : List Char} (h : p ∉ start)
    (cs : List Char) : afterEach (p :: ps) (start ++ cs) = afterEach (p :: ps) cs := by
  induction start with
  | nil => rfl
  | cons c start ih =>
    simp only [List.mem_cons, not_or] at h
    rw [List.cons_append, afterEach, after?_eq_none h.1, ih h.2]
    rfl

/-- A pattern whose first character stands nowhere else in it has no two occurrences that overlap,
so that a search which goes on where a match ends meets every occurrence. -/
theorem afterMatches_eq_afterEach {p : Char} {ps : List Char} (h : p ∉ ps) (skip : Nat)
    (cs : List Char) : afterMatches (p :: ps) skip cs = afterEach (p :: ps) (cs.drop skip) := by
  induction cs generalizing skip with
  | nil => cases skip <;> rfl
  | cons c cs ih =>
    cases skip with
    | succ skip => rw [afterMatches, List.drop_succ_cons, ih]
    | zero =>
      rw [List.drop_zero, afterMatches, afterEach]
      cases hafter : after? (p :: ps) (c :: cs) with
      | none => simp only [ih, List.drop_zero, Option.toList_none, List.nil_append]
      | some rest =>
        have hcs : cs = ps ++ rest := (List.cons.inj (after?_eq_some_iff.mp hafter)).2
        have hskip : cs.drop ((p :: ps).length - 1) = rest := by
          rw [hcs]
          exact List.drop_left
        -- no occurrence starts inside the match, which the search passes over
        have hlater : afterEach (p :: ps) cs = afterEach (p :: ps) rest := by
          rw [hcs, afterEach_append_of_not_mem h]
        simp only [ih, hskip, hlater, Option.toList_some, List.singleton_append]

theorem divide?_append {p : Char} {ps low : List Char} (hlow : p ∉ low) (high : List Char) :
    divide? (p :: ps) (low ++ (p :: ps) ++ high) = some (low, high) := by
  induction low with
  | nil =>
    have hafter : after? (p :: ps) (p :: (ps ++ high)) = some high := after?_append (p :: ps) high
    simp [divide?, hafter]
  | cons c low ih =>
    simp only [List.mem_cons, not_or] at hlow
    simp only [List.cons_append, divide?, after?_eq_none hlow.1]
    rw [ih hlow.2]
    rfl

theorem divide?_eq_none {p : Char} {ps cs : List Char} (h : p ∉ cs) :
    divide? (p :: ps) cs = none := by
  induction cs with
  | nil => rfl
  | cons c cs ih =>
    simp only [List.mem_cons, not_or] at h
    simp [divide?, after?_eq_none h.1, ih h.2]

theorem afterEach_append (c : Char) (cs rest : List Char) :
    afterEach [c] (cs ++ rest) = (afterEach [c] cs).map (· ++ rest) ++ afterEach [c] rest := by
  induction cs with
  | nil => rfl
  | cons d cs ih =>
    by_cases hd : c = d
    · subst hd
      simp [afterEach, after?, ih]
    · simp [afterEach, after?, hd, ih]

theorem afterEach_eq_nil {c : Char} {cs : List Char} (h : c ∉ cs) : afterEach [c] cs = [] := by
  rw [List.eq_nil_iff_forall_not_mem]
  intro rest hrest
  obtain ⟨before, hbefore⟩ := mem_afterEach_iff.mp hrest
  exact h (by simp [hbefore])

theorem after?_append_cons {start : List Char} {c : Char} (hc : c ∉ start) (cs rest : List Char) :
    after? start (cs ++ c :: rest) = (after? start cs).map (· ++ c :: rest) := by
  induction start generalizing cs with
  | nil => rfl
  | cons p start ih =>
    simp only [List.mem_cons, not_or] at hc
    cases cs with
    | nil => simp [after?, Ne.symm hc.1]
    | cons d cs =>
      by_cases hp : p = d
      · simp [after?, hp, ih hc.2]
      · simp [after?, hp]

theorem afterEach_append_cons {p : Char} {ps : List Char} {c : Char} (hc : c ∉ p :: ps)
    (cs rest : List Char) : afterEach (p :: ps) (cs ++ c :: rest) =
      (afterEach (p :: ps) cs).map (· ++ c :: rest) ++ afterEach (p :: ps) (c :: rest) := by
  induction cs with
  | nil => rfl
  | cons d cs ih =>
    have hhere := after?_append_cons hc (d :: cs) rest
    have hcons : ∀ cs, afterEach (p :: ps) (d :: cs) =
        (after? (p :: ps) (d :: cs)).toList ++ afterEach (p :: ps) cs := fun _ => rfl
    rw [List.cons_append] at hhere ⊢
    rw [hcons, hcons, hhere, ih]
    cases after? (p :: ps) (d :: cs) <;> simp

theorem findSome?_congr {α β : Type} {f g : α → Option β} {xs : List α}
    (h : ∀ x ∈ xs, f x = g x) : xs.findSome? f = xs.findSome? g := by
  induction xs with
  | nil => rfl
  | cons x xs ih =>
    rw [List.findSome?_cons, List.findSome?_cons, h x (by simp),
      ih fun y hy => h y (List.mem_cons_of_mem _ hy)]

theorem dropEndWhile_of_forall {p : Char → Bool} {cs : List Char} (h : ∀ c ∈ cs, p c = false) :
    dropEndWhile p cs = cs := by
  cases hrev : cs.reverse with
  | nil => simp_all [dropEndWhile]
  | cons c rest =>
    have hc : p c = false := h c (by rw [← List.mem_reverse, hrev]; simp)
    rw [dropEndWhile, hrev, List.dropWhile_cons_of_neg (by simp [hc]), ← hrev, List.reverse_reverse]

theorem mem_dropEndWhile {p : Char → Bool} {c : Char} (hc : p c = false) {cs : List Char}
    (h : c ∈ cs) : c ∈ dropEndWhile p cs := by
  rw [dropEndWhile, List.mem_reverse]
  have hparts : c ∈ cs.reverse.takeWhile p ++ cs.reverse.dropWhile p := by
    rw [List.takeWhile_append_dropWhile, List.mem_reverse]
    exact h
  rcases List.mem_append.mp hparts with hend | hkept
  · rw [List.all_eq_true.mp List.all_takeWhile c hend] at hc
    cases hc
  · exact hkept

theorem after?_getD_suffix (start cs : List Char) : (after? start cs).getD cs <:+ cs := by
  cases h : after? start cs with
  | none => exact List.suffix_refl cs
  | some rest => exact ⟨start, (after?_eq_some_iff.mp h).symm⟩

theorem afterBlank?_suffix {cs rest : List Char} (h : afterBlank? cs = some rest) :
    rest <:+ cs := by
  obtain ⟨c, -, rfl⟩ := afterBlank?_eq_some_iff.mp h
  exact List.suffix_cons c rest

theorem afterBlank?_getD_suffix (cs : List Char) : (afterBlank? cs).getD cs <:+ cs := by
  cases h : afterBlank? cs with
  | none => exact List.suffix_refl cs
  | some rest => exact afterBlank?_suffix h

theorem trimEnd_subset {cs : List Char} {c : Char} (h : c ∈ trimEnd cs) : c ∈ cs := by
  simp only [trimEnd, dropEndWhile, List.mem_reverse] at h
  exact List.mem_reverse.mp ((List.dropWhile_suffix _).subset h)

theorem trim_subset {cs : List Char} {c : Char} (h : c ∈ trim cs) : c ∈ cs :=
  (List.dropWhile_suffix _).subset (trimEnd_subset h)

/-- What starts a word is the word. -/
theorem word?_eq_some {cs w rest : List Char} (h : word? cs = some (w, rest)) :
    w = word cs ∧ rest = afterWord cs ∧ w ≠ [] := by
  unfold word? at h
  split at h
  · cases h
  · rename_i hne
    cases h
    exact ⟨rfl, rfl, by simpa using hne⟩

end Text

open Text

/-- What `read` makes of the text after the first occurrence of the spelling that has one white
space character after it and can be read. Occurrences that overlap count each. -/
def scanFor {α : Type} (spelling : List Char) (read : List Char → Option α) (line : List Char) :
    Option α :=
  (afterEach spelling line).findSome? fun rest => (afterBlank? rest).bind read

/-- The scan for a tag leaves no occurrence out. -/
theorem scanMatches_eq_scanFor {α : Type} {p : Char} {ps : List Char} (h : p ∉ ps)
    (read : List Char → Option α) (line : List Char) :
    scanMatches (p :: ps) read line = scanFor (p :: ps) read line := by
  rw [scanMatches, scanFor, afterMatches_eq_afterEach h, List.drop_zero]

/-- The sign of tags starts every tag and stands nowhere else in it. -/
theorem Tag.exists_spelling (tag : Tag) : ∃ stem, tag.spelling = '@' :: stem ∧ '@' ∉ stem := by
  cases tag
  all_goals exact ⟨_, rfl, by decide⟩

theorem Tag.scan_eq {α : Type} (tag : Tag) (read : List Char → Option α) (line : String) :
    tag.scan read line = scanFor tag.spelling read line.toList := by
  obtain ⟨stem, hstem, hsign⟩ := tag.exists_spelling
  rw [scan, hstem, scanMatches_eq_scanFor hsign]

/-- A scan reads the end of the line after some occurrence of the tag. -/
theorem scanFor_eq_some {α : Type} {spelling line : List Char} {read : List Char → Option α} {a : α}
    (h : scanFor spelling read line = some a) : ∃ rest, rest <:+ line ∧ read rest = some a := by
  obtain ⟨found, hfound, hread⟩ := List.exists_of_findSome?_eq_some h
  obtain ⟨rest, hblank, hrest⟩ := Option.bind_eq_some_iff.mp hread
  obtain ⟨before, hline⟩ := mem_afterEach_iff.mp hfound
  exact ⟨rest, (afterBlank?_suffix hblank).trans ⟨before ++ spelling, hline.symm⟩, hrest⟩

theorem Tag.scan_eq_some {α : Type} {tag : Tag} {line : String} {read : List Char → Option α}
    {a : α} (h : tag.scan read line = some a) :
    ∃ rest, rest <:+ line.toList ∧ read rest = some a := by
  rw [scan_eq] at h
  exact scanFor_eq_some h

/-- The spelling stands on the line after `before`, and before one white space character and
`rest`. -/
def OccursAt (spelling line before rest : List Char) : Prop :=
  ∃ blank, isBlank blank = true ∧ line = before ++ spelling ++ blank :: rest

theorem occursAt_nil_iff {α : Type} {spelling line : List Char} {read : List Char → Option α}
    {a : α} :
    ((after? spelling line).bind fun rest => (afterBlank? rest).bind read) = some a ↔
      ∃ rest, OccursAt spelling line [] rest ∧ read rest = some a := by
  simp only [Option.bind_eq_some_iff, after?_eq_some_iff, afterBlank?_eq_some_iff]
  constructor
  · rintro ⟨_, rfl, rest, ⟨blank, hblank, rfl⟩, hread⟩
    exact ⟨rest, ⟨blank, hblank, rfl⟩, hread⟩
  · rintro ⟨rest, ⟨blank, hblank, rfl⟩, hread⟩
    exact ⟨blank :: rest, rfl, rest, ⟨blank, hblank, rfl⟩, hread⟩

theorem occursAt_cons_iff {spelling line before rest : List Char} {c d : Char} :
    OccursAt spelling (c :: line) (d :: before) rest ↔ c = d ∧ OccursAt spelling line before rest := by
  simp only [OccursAt, List.cons_append, List.cons.injEq]
  constructor
  · rintro ⟨blank, hblank, hc, hline⟩
    exact ⟨hc, blank, hblank, hline⟩
  · rintro ⟨hc, blank, hblank, hline⟩
    exact ⟨blank, hblank, hc, hline⟩

theorem scanFor_cons {α : Type} (spelling : List Char) (read : List Char → Option α) (c : Char)
    (line : List Char) : scanFor spelling read (c :: line) =
      ((after? spelling (c :: line)).bind fun rest => (afterBlank? rest).bind read).or
        (scanFor spelling read line) := by
  rw [scanFor, afterEach, List.findSome?_append]
  cases after? spelling (c :: line) with
  | none => rfl
  | some rest => simp [scanFor]

theorem scanFor_eq_none_iff {α : Type} {spelling line : List Char} {read : List Char → Option α} :
    scanFor spelling read line = none ↔
      ∀ before rest, OccursAt spelling line before rest → read rest = none := by
  simp only [scanFor, List.findSome?_eq_none_iff, mem_afterEach_iff, Option.bind_eq_none_iff,
    afterBlank?_eq_some_iff]
  constructor
  · rintro h before rest ⟨blank, hblank, hline⟩
    exact h _ ⟨before, hline⟩ rest ⟨blank, hblank, rfl⟩
  · rintro h _ ⟨before, hline⟩ rest ⟨blank, hblank, rfl⟩
    exact h before rest ⟨blank, hblank, hline⟩

/-- A scan reads after the leftmost of the occurrences after which something can be read. -/
theorem scanFor_eq_some_iff {α : Type} {spelling line : List Char} {read : List Char → Option α}
    {a : α} : scanFor spelling read line = some a ↔
      ∃ before rest, OccursAt spelling line before rest ∧ read rest = some a ∧
        ∀ before' rest', OccursAt spelling line before' rest' → (read rest').isSome = true →
          before.length ≤ before'.length := by
  induction line with
  | nil =>
    have hnone : ∀ before rest, ¬OccursAt spelling [] before rest := by
      rintro before rest ⟨blank, -, hline⟩
      simp at hline
    rw [scanFor_eq_none_iff.mpr fun before rest h => absurd h (hnone before rest)]
    simp [hnone]
  | cons c line ih =>
    rw [scanFor_cons, Option.or_eq_some_iff, occursAt_nil_iff, ih]
    constructor
    · rintro (⟨rest, hoccurs, hread⟩ | ⟨hnone, before, rest, hoccurs, hread, hfirst⟩)
      · exact ⟨[], rest, hoccurs, hread, fun _ _ _ _ => Nat.zero_le _⟩
      · refine ⟨c :: before, rest, occursAt_cons_iff.mpr ⟨rfl, hoccurs⟩, hread, ?_⟩
        intro before' rest' hoccurs' hread'
        cases before' with
        | nil =>
          obtain ⟨a', ha'⟩ := Option.isSome_iff_exists.mp hread'
          have hhere := occursAt_nil_iff.mpr ⟨rest', hoccurs', ha'⟩
          rw [hnone] at hhere
          cases hhere
        | cons d before' =>
          have hle := hfirst before' rest' (occursAt_cons_iff.mp hoccurs').2 hread'
          simpa using hle
    · rintro ⟨before, rest, hoccurs, hread, hfirst⟩
      cases before with
      | nil => exact .inl ⟨rest, hoccurs, hread⟩
      | cons d before =>
        obtain ⟨rfl, hlater⟩ := occursAt_cons_iff.mp hoccurs
        refine .inr ⟨?_, before, rest, hlater, hread, fun before' rest' hoccurs' hread' => ?_⟩
        · rw [Option.eq_none_iff_forall_ne_some]
          intro a' ha'
          obtain ⟨rest', hoccurs', hread'⟩ := occursAt_nil_iff.mp ha'
          have hle := hfirst [] rest' hoccurs' (by simp [hread'])
          simp at hle
        · have hle := hfirst (c :: before') rest' (occursAt_cons_iff.mpr ⟨rfl, hoccurs'⟩) hread'
          simpa using hle

/-- From position `p` on the line has the spelling and one white space character, and `read` makes
`a` of what follows. -/
def ReadsFrom {α : Type} (spelling : List Char) (read : List Char → Option α) (line : List Char)
    (p : Nat) (a : α) : Prop :=
  ∃ blank rest, isBlank blank = true ∧ line.drop p = spelling ++ blank :: rest ∧ read rest = some a

theorem readsFrom_iff {α : Type} {spelling line : List Char} {read : List Char → Option α} {p : Nat}
    {a : α} : ReadsFrom spelling read line p a ↔
      ∃ before rest, before.length = p ∧ OccursAt spelling line before rest ∧ read rest = some a := by
  constructor
  · rintro ⟨blank, rest, hblank, hline, hread⟩
    have hlength : (line.take p).length = p := by
      have hrest := congrArg List.length hline
      simp only [List.length_drop, List.length_append, List.length_cons] at hrest
      exact List.length_take_of_le (by omega)
    refine ⟨line.take p, rest, hlength, ⟨blank, hblank, ?_⟩, hread⟩
    rw [List.append_assoc, ← hline, List.take_append_drop]
  · rintro ⟨before, rest, rfl, ⟨blank, hblank, rfl⟩, hread⟩
    refine ⟨blank, rest, hblank, ?_, hread⟩
    rw [List.append_assoc, List.drop_left]

/-- A longer word goes on where white space would stand. -/
theorem not_readsFrom_of_isWord {α : Type} {spelling line rest : List Char}
    {read : List Char → Option α} {p : Nat} {c : Char} (hline : line.drop p = spelling ++ c :: rest)
    (hc : isWord c = true) (a : α) : ¬ReadsFrom spelling read line p a := by
  rintro ⟨blank, rest', hblank, hline', -⟩
  have hrest : c :: rest = blank :: rest' := List.append_cancel_left (hline.symm.trans hline')
  obtain ⟨rfl, -⟩ := List.cons.inj hrest
  rw [isBlank_of_isWord hc] at hblank
  cases hblank

theorem scanFor_eq_none_iff_readsFrom {α : Type} {spelling line : List Char}
    {read : List Char → Option α} :
    scanFor spelling read line = none ↔ ∀ p a, ¬ReadsFrom spelling read line p a := by
  rw [scanFor_eq_none_iff]
  constructor
  · intro hnone p a hp
    obtain ⟨before, rest, -, hoccurs, hread⟩ := readsFrom_iff.mp hp
    rw [hnone before rest hoccurs] at hread
    cases hread
  · intro hnone before rest hoccurs
    rw [Option.eq_none_iff_forall_ne_some]
    intro a hread
    exact hnone before.length a (readsFrom_iff.mpr ⟨before, rest, rfl, hoccurs, hread⟩)

theorem scanFor_eq_some_iff_readsFrom {α : Type} {spelling line : List Char}
    {read : List Char → Option α} {a : α} : scanFor spelling read line = some a ↔
      ∃ p, ReadsFrom spelling read line p a ∧ ∀ q b, ReadsFrom spelling read line q b → p ≤ q := by
  rw [scanFor_eq_some_iff]
  constructor
  · rintro ⟨before, rest, hoccurs, hread, hfirst⟩
    refine ⟨before.length, readsFrom_iff.mpr ⟨before, rest, rfl, hoccurs, hread⟩, ?_⟩
    intro q b hq
    obtain ⟨before', rest', rfl, hoccurs', hread'⟩ := readsFrom_iff.mp hq
    exact hfirst before' rest' hoccurs' (by simp [hread'])
  · rintro ⟨p, hp, hfirst⟩
    obtain ⟨before, rest, rfl, hoccurs, hread⟩ := readsFrom_iff.mp hp
    refine ⟨before, rest, hoccurs, hread, fun before' rest' hoccurs' hread' => ?_⟩
    obtain ⟨b, hb⟩ := Option.isSome_iff_exists.mp hread'
    exact hfirst before'.length b (readsFrom_iff.mpr ⟨before', rest', rfl, hoccurs', hb⟩)

/-- The scan for a tag, by the positions of the line. It gives what is read from the smallest position
at which the tag stands with white space after it and can be read on, and nothing if there is no such
position. So no position is lost to an occurrence before it, and the start of a longer word is not
taken for the tag. -/
theorem scanMatches_leftmost {α : Type} {stem : List Char} (h : '@' ∉ stem)
    (read : List Char → Option α) (line : List Char) :
    (∀ a, scanMatches ('@' :: stem) read line = some a ↔
      ∃ p, ReadsFrom ('@' :: stem) read line p a ∧
        ∀ q b, ReadsFrom ('@' :: stem) read line q b → p ≤ q) ∧
    (scanMatches ('@' :: stem) read line = none ↔
      ∀ p a, ¬ReadsFrom ('@' :: stem) read line p a) ∧
    ∀ p c rest, line.drop p = '@' :: stem ++ c :: rest → isWord c = true →
      ∀ a, ¬ReadsFrom ('@' :: stem) read line p a := by
  rw [scanMatches_eq_scanFor h]
  refine ⟨fun a => scanFor_eq_some_iff_readsFrom, scanFor_eq_none_iff_readsFrom, ?_⟩
  intro p c rest hline hc a
  exact not_readsFrom_of_isWord hline hc a

/-- The tag in front of another tag, of a longer word and of a text that cannot be read, and then the
tag that is read. -/
theorem scanMatches_leftmost_fourth :
    let line := "@api@apiName @api x @api {get}".toList
    '@' ∉ "api".toList ∧
    scanMatches "@api".toList (after? ['{']) line = some "get\x7d".toList ∧
    (∃ p, ReadsFrom "@api".toList (after? ['{']) line p "get\x7d".toList ∧
      ∀ q b, ReadsFrom "@api".toList (after? ['{']) line q b → p ≤ q) ∧
    ∀ p a, ¬ReadsFrom "@api".toList (after? ['{']) "@apis {get}".toList p a := by
  intro line
  have hscan : scanMatches "@api".toList (after? ['{']) line = some "get\x7d".toList := by decide
  have hnone : scanMatches "@api".toList (after? ['{']) "@apis {get}".toList = none := by decide
  have hstem : '@' ∉ "api".toList := by decide
  exact ⟨hstem, hscan, ((scanMatches_leftmost hstem _ line).1 _).mp hscan,
    (scanMatches_leftmost hstem _ _).2.1.mp hnone⟩

-- A pattern that can overlap itself is read at an occurrence which the search for it passes over.
example : scanMatches "aa".toList some "aaa b".toList = none ∧
    ReadsFrom "aa".toList some "aaa b".toList 1 ['b'] :=
  ⟨by decide, ' ', ['b'], by decide, by decide, rfl⟩

theorem Tag.isWord_of_word? {tag : Tag} {line w : String} (h : tag.word? line = some w) :
    ∀ c ∈ w.toList, isWord c = true := by
  obtain ⟨rest, -, hrest⟩ := Tag.scan_eq_some h
  cases hrest
  intro c hc
  exact isWord_of_mem_word (by simpa using hc)

/-! ### Field lines -/

/-- Takes apart what follows the type token of a field line. -/
def FieldLine.readName? (isHeader : Bool) (typeText cs : List Char) : Option FieldLine :=
  let inner := (after? ['['] cs).getD cs
  let bare := inner.takeWhile isNameChar
  if bare.isEmpty then none else
  let rest := inner.dropWhile isNameChar
  let name := if (after? ['[', ']'] rest).isSome then bare ++ ['[', ']'] else bare
  let rest := afterHints ((after? ['[', ']'] rest).getD rest)
  let closed := (after? [']'] rest).isSome
  let rest := (after? [']'] rest).getD rest
  let rest := (afterBlank? rest).getD rest
  some {
    typeText, name
    isBracketed := (after? ['['] cs).isSome && closed
    description := if isHeader then rest.takeWhile (· != '*') else rest
    isHeader }

theorem FieldLine.read?_eq (isHeader : Bool) (cs : List Char) :
    FieldLine.read? isHeader cs = (afterLocation? cs).bind fun cs =>
      (betweenBraces? (cs.takeWhile (!isBlank ·))).bind fun typeText =>
        (afterBlank? (cs.dropWhile (!isBlank ·))).bind fun cs =>
          FieldLine.readName? isHeader typeText cs := rfl

end RouteDoc
