import RouteDoc.Comment

/-! Where comment blocks stand. A block lies between an opening and a closing line with no other such
line between them, and the scan of a source finds all blocks of this form, once each and in order.
So what a scan gives does not depend on the state it goes through. -/

namespace RouteDoc.Block

open Text

/-- The line holds an opening marker. -/
def IsOpening (line : String) : Prop := "/**".toList <:+: line.toList

/-- The line holds a closing marker and no opening one. -/
def IsClosing (line : String) : Prop := "*/".toList <:+: line.toList ∧ ¬IsOpening line

/-- Lines `i` and `j` enclose a block: the first opens it, the second closes it, and no line between
them does either. -/
structure Encloses (ls : List String) (i j : Nat) : Prop where
  lt : i < j
  opening : ∃ line, ls[i]? = some line ∧ IsOpening line
  closing : ∃ line, ls[j]? = some line ∧ IsClosing line
  between : ∀ k line, i < k → k < j → ls[k]? = some line → ¬IsOpening line ∧ ¬IsClosing line

/-- The lines strictly between two lines. -/
def linesBetween (ls : List String) (i j : Nat) : List String := (ls.take j).drop (i + 1)

/-! ### Markers -/

theorem contains_iff_isInfix {pattern cs : List Char} :
    contains pattern cs = true ↔ pattern <:+: cs := by
  rw [contains_eq_true_iff]
  simp only [List.IsInfix, eq_comm]

theorem opens_iff {line : String} : opens line = true ↔ IsOpening line :=
  contains_iff_isInfix

theorem closes_iff {line : String} : closes line = true ↔ IsClosing line := by
  rw [closes, Bool.and_eq_true, Bool.not_eq_true', ← Bool.not_eq_true, opens_iff,
    contains_iff_isInfix, and_comm]
  rfl

/-! ### Enclosed lines -/

namespace Encloses

variable {ls : List String} {i i' j j' : Nat}

/-- Of two blocks, the one that ends later starts after the other has ended. -/
theorem disjoint (h : Encloses ls i j) (h' : Encloses ls i' j') (hlt : j < j') : j < i' := by
  obtain ⟨line, hline, hclosing⟩ := h.closing
  rcases Nat.lt_trichotomy j i' with hj | rfl | hj
  · exact hj
  · obtain ⟨line', hline', hopening⟩ := h'.opening
    obtain rfl : line = line' := Option.some.inj (hline.symm.trans hline')
    exact absurd hopening hclosing.2
  · exact absurd hclosing (h'.between j line hj hlt hline).2

/-- A line closes one block at most. -/
theorem start_unique (h : Encloses ls i j) (h' : Encloses ls i' j) : i = i' := by
  have hle : ∀ {a b : Nat}, Encloses ls a j → Encloses ls b j → ¬a < b := by
    intro a b ha hb hab
    obtain ⟨line, hline, hopening⟩ := hb.opening
    exact (ha.between b line hab hb.lt hline).1 hopening
  have := hle h h'
  have := hle h' h
  omega

end Encloses

/-- The blocks that end at line `n` or later, in order. -/
structure SpansFrom (ls : List String) (n : Nat) (spans : List (Nat × Nat)) : Prop where
  mem : ∀ i j, (i, j) ∈ spans ↔ Encloses ls i j ∧ n ≤ j
  ordered : spans.Pairwise fun p q => p.2 < q.1

namespace SpansFrom

variable {ls : List String} {n i : Nat} {spans : List (Nat × Nat)}

theorem nil (h : ls.length ≤ n) : SpansFrom ls n [] := by
  refine ⟨fun i j => iff_of_false (by simp) ?_, .nil⟩
  rintro ⟨hspan, hj⟩
  obtain ⟨line, hline, -⟩ := hspan.closing
  rw [List.getElem?_eq_none (by omega)] at hline
  cases hline

theorem skip (h : SpansFrom ls (n + 1) spans) (hnone : ∀ i, ¬Encloses ls i n) :
    SpansFrom ls n spans := by
  refine ⟨fun i j => ?_, h.ordered⟩
  rw [h.mem]
  refine and_congr_right fun hspan => ?_
  have hne : n ≠ j := fun hj => hnone i (hj ▸ hspan)
  omega

theorem cons (h : SpansFrom ls (n + 1) spans) (hspan : Encloses ls i n) :
    SpansFrom ls n ((i, n) :: spans) := by
  refine ⟨fun i' j' => ?_, List.pairwise_cons.mpr ⟨fun q hq => ?_, h.ordered⟩⟩
  · rw [List.mem_cons, Prod.mk.injEq, h.mem]
    constructor
    · rintro (⟨rfl, rfl⟩ | ⟨hspan', hj'⟩)
      · exact ⟨hspan, Nat.le_refl _⟩
      · exact ⟨hspan', by omega⟩
    · rintro ⟨hspan', hj'⟩
      rcases Nat.eq_or_lt_of_le hj' with rfl | hj'
      · exact .inl ⟨hspan'.start_unique hspan, rfl⟩
      · exact .inr ⟨hspan', hj'⟩
  · obtain ⟨hspan', hj'⟩ := (h.mem q.1 q.2).mp hq
    exact hspan.disjoint hspan' hj'

end SpansFrom

/-! ### What a scan holds -/

/-- Line `i` has opened a block that is still open after the lines. -/
structure IsOpenAt (before : List String) (i : Nat) : Prop where
  opening : ∃ line, before[i]? = some line ∧ IsOpening line
  after : ∀ k line, i < k → before[k]? = some line → ¬IsOpening line ∧ ¬IsClosing line

/-- What a scan holds after some lines: the lines of the open block, if there is one. -/
def Holds (before : List String) : Option (List String) → Prop
  | none => ∀ i, ¬IsOpenAt before i
  | some held => ∃ i, IsOpenAt before i ∧ held.reverse = before.drop (i + 1)

section Step

variable {before rest : List String} {line : String} {i : Nat}

/-- A line ends a block exactly if it closes the one that is open. -/
theorem encloses_length_iff :
    Encloses (before ++ line :: rest) i before.length ↔ IsOpenAt before i ∧ IsClosing line := by
  have hline : (before ++ line :: rest)[before.length]? = some line := by simp
  have hbefore : ∀ k, k < before.length → (before ++ line :: rest)[k]? = before[k]? :=
    fun k hk => List.getElem?_append_left hk
  constructor
  · intro h
    obtain ⟨closing, hclosing, hcloses⟩ := h.closing
    obtain rfl : line = closing := Option.some.inj (hline.symm.trans hclosing)
    refine ⟨⟨?_, fun k other hk hother => ?_⟩, hcloses⟩
    · rw [← hbefore i h.lt]
      exact h.opening
    · have hlt : k < before.length := (List.getElem?_eq_some_iff.mp hother).1
      exact h.between k other hk hlt ((hbefore k hlt).trans hother)
  · rintro ⟨hopen, hcloses⟩
    obtain ⟨opening, hopening, hopens⟩ := hopen.opening
    have hlt : i < before.length := (List.getElem?_eq_some_iff.mp hopening).1
    refine ⟨hlt, ⟨opening, (hbefore i hlt).trans hopening, hopens⟩, ⟨line, hline, hcloses⟩, ?_⟩
    intro k other hik hk hother
    exact hopen.after k other hik ((hbefore k hk).symm.trans hother)

/-- After one more line a block is open if the line opens it, or if it was open and the line has no
marker. -/
theorem isOpenAt_append_iff : IsOpenAt (before ++ [line]) i ↔
    (i = before.length ∧ IsOpening line) ∨
      (IsOpenAt before i ∧ ¬IsOpening line ∧ ¬IsClosing line) := by
  have hline : (before ++ [line])[before.length]? = some line := by simp
  have hbefore : ∀ k, k < before.length → (before ++ [line])[k]? = before[k]? :=
    fun k hk => List.getElem?_append_left hk
  have hcases : ∀ {k other}, (before ++ [line])[k]? = some other →
      k < before.length ∨ (k = before.length ∧ line = other) := by
    intro k other hother
    have hlt : k < (before ++ [line]).length := (List.getElem?_eq_some_iff.mp hother).1
    rw [List.length_append, List.length_singleton] at hlt
    rcases Nat.lt_or_eq_of_le (Nat.le_of_lt_succ hlt) with hk | rfl
    · exact .inl hk
    · exact .inr ⟨rfl, Option.some.inj (hline.symm.trans hother)⟩
  constructor
  · intro h
    obtain ⟨opening, hopening, hopens⟩ := h.opening
    rcases hcases hopening with hi | ⟨rfl, rfl⟩
    · refine .inr ⟨⟨⟨opening, (hbefore i hi).symm.trans hopening, hopens⟩, ?_⟩,
        h.after _ line hi hline⟩
      intro k other hik hother
      have hk : k < before.length := (List.getElem?_eq_some_iff.mp hother).1
      exact h.after k other hik ((hbefore k hk).trans hother)
    · exact .inl ⟨rfl, hopens⟩
  · rintro (⟨rfl, hopens⟩ | ⟨h, hplain⟩)
    · refine ⟨⟨line, hline, hopens⟩, fun k other hk hother => ?_⟩
      rcases hcases hother with hlt | ⟨rfl, -⟩ <;> omega
    · obtain ⟨opening, hopening, hopens⟩ := h.opening
      have hi : i < before.length := (List.getElem?_eq_some_iff.mp hopening).1
      refine ⟨⟨opening, (hbefore i hi).trans hopening, hopens⟩, fun k other hik hother => ?_⟩
      rcases hcases hother with hk | ⟨-, rfl⟩
      · exact h.after k other hik ((hbefore k hk).symm.trans hother)
      · exact hplain

theorem Holds.opened (hopening : IsOpening line) : Holds (before ++ [line]) (some []) :=
  ⟨before.length, isOpenAt_append_iff.mpr (.inl ⟨rfl, hopening⟩), by simp⟩

theorem Holds.outside (h : Holds before none) (hopening : ¬IsOpening line) :
    Holds (before ++ [line]) none := by
  intro i hi
  rcases isOpenAt_append_iff.mp hi with ⟨-, hopens⟩ | ⟨hi, -⟩
  · exact hopening hopens
  · exact h i hi

theorem Holds.closed (hclosing : IsClosing line) : Holds (before ++ [line]) none := by
  intro i hi
  rcases isOpenAt_append_iff.mp hi with ⟨-, hopens⟩ | ⟨-, -, hplain⟩
  · exact hclosing.2 hopens
  · exact hplain hclosing

theorem Holds.extended {held : List String} (h : Holds before (some held))
    (hopening : ¬IsOpening line) (hclosing : ¬IsClosing line) :
    Holds (before ++ [line]) (some (line :: held)) := by
  obtain ⟨i, hi, hheld⟩ := h
  obtain ⟨_, hline, -⟩ := hi.opening
  have hlt : i < before.length := (List.getElem?_eq_some_iff.mp hline).1
  refine ⟨i, isOpenAt_append_iff.mpr (.inr ⟨hi, hopening, hclosing⟩), ?_⟩
  rw [List.reverse_cons, hheld, List.drop_append_of_le_length hlt]

end Step

/-- A scan that holds what the lines before leave open gives the blocks that end in the lines to
come. -/
theorem scan_spans (source : String) {before : List String} {opened : Option (List String)}
    (rest : List String) (hholds : Holds before opened) :
    ∃ spans, SpansFrom (before ++ rest) before.length spans ∧
      scan source opened rest =
        spans.map fun p => ⟨linesBetween (before ++ rest) p.1 p.2, source⟩ := by
  induction rest generalizing before opened with
  | nil => exact ⟨[], .nil (by simp), rfl⟩
  | cons line rest ih =>
    have hsplit : before ++ [line] ++ rest = before ++ line :: rest := by simp
    -- The blocks of the lines after this one, which leave out a block that ends here.
    have hafter : ∀ {next : Option (List String)}, Holds (before ++ [line]) next →
        ∃ spans, SpansFrom (before ++ line :: rest) (before.length + 1) spans ∧
          scan source next rest =
            spans.map fun p => ⟨linesBetween (before ++ line :: rest) p.1 p.2, source⟩ := by
      intro next hnext
      simpa only [hsplit, List.length_append, List.length_singleton] using ih hnext
    unfold scan
    by_cases hopens : opens line = true
    · have hopening := opens_iff.mp hopens
      obtain ⟨spans, hspans, hscan⟩ := hafter (.opened hopening)
      rw [if_pos hopens, hscan]
      exact ⟨spans, hspans.skip fun i h => (encloses_length_iff.mp h).2.2 hopening, rfl⟩
    · have hopening : ¬IsOpening line := fun h => hopens (opens_iff.mpr h)
      rw [if_neg hopens]
      cases opened with
      | none =>
        obtain ⟨spans, hspans, hscan⟩ := hafter (hholds.outside hopening)
        exact ⟨spans, hspans.skip fun i h => hholds i (encloses_length_iff.mp h).1, hscan⟩
      | some held =>
        by_cases hcloses : closes line = true
        · have hclosing := closes_iff.mp hcloses
          obtain ⟨spans, hspans, hscan⟩ := hafter (.closed hclosing)
          obtain ⟨i, hi, hheld⟩ := hholds
          refine ⟨(i, before.length) :: spans,
            hspans.cons (encloses_length_iff.mpr ⟨hi, hclosing⟩), ?_⟩
          have hlines : linesBetween (before ++ line :: rest) i before.length = held.reverse := by
            rw [linesBetween, List.take_left, hheld]
          simp only [hcloses, if_true, hscan, List.map_cons, hlines]
        · have hclosing : ¬IsClosing line := fun h => hcloses (closes_iff.mpr h)
          obtain ⟨spans, hspans, hscan⟩ := hafter (hholds.extended hopening hclosing)
          refine ⟨spans, hspans.skip fun i h => hclosing (encloses_length_iff.mp h).2, ?_⟩
          simp only [hcloses, Bool.false_eq_true, if_false, hscan]

/-- No marker stands on a line that is enclosed. -/
theorem not_isInfix_of_mem_linesBetween {ls : List String} {i j : Nat} (h : Encloses ls i j)
    {line : String} (hline : line ∈ linesBetween ls i j) :
    ¬"/**".toList <:+: line.toList ∧ ¬"*/".toList <:+: line.toList := by
  obtain ⟨k, hk⟩ := List.mem_iff_getElem?.mp hline
  rw [linesBetween, List.getElem?_drop, List.getElem?_take] at hk
  split at hk
  · rename_i hlt
    obtain ⟨hopening, hclosing⟩ := h.between _ line (by omega) hlt hk
    exact ⟨hopening, fun hmarker => hclosing ⟨hmarker, hopening⟩⟩
  · cases hk

end RouteDoc.Block

namespace RouteDoc

open Text Block

/-- The blocks of a source, by its lines alone. There is one block for each pair of an opening and a
later closing line with no opening or closing line between them, it holds the lines between the two
and the identifier of the source, and the blocks stand in the order of their lines without overlap.
No line of a block holds a marker. -/
theorem Source.blocks_enclosed (s : Source) :
    ∃ spans : List (Nat × Nat),
      (∀ i j, (i, j) ∈ spans ↔ Encloses (lines s.content) i j) ∧
      (spans.Pairwise fun p q => p.2 < q.1) ∧
      s.blocks = (spans.map fun p => ⟨linesBetween (lines s.content) p.1 p.2, s.identifier⟩) ∧
      ∀ b ∈ s.blocks, ∀ line ∈ b.lines,
        ¬"/**".toList <:+: line.toList ∧ ¬"*/".toList <:+: line.toList := by
  have hstart : Holds [] none := by
    intro i hi
    obtain ⟨line, hline, -⟩ := hi.opening
    simp at hline
  obtain ⟨spans, hspans, hblocks⟩ := scan_spans s.identifier (lines s.content) hstart
  rw [List.nil_append] at hspans hblocks
  have hmem : ∀ i j, (i, j) ∈ spans ↔ Encloses (lines s.content) i j := by
    intro i j
    simpa using hspans.mem i j
  refine ⟨spans, hmem, hspans.ordered, hblocks, ?_⟩
  intro b hb line hline
  rw [Source.blocks, hblocks] at hb
  obtain ⟨p, hp, rfl⟩ := List.mem_map.mp hb
  exact not_isInfix_of_mem_linesBetween ((hmem p.1 p.2).mp hp) hline

/-- A line that closes nothing, a block that is opened again after a line with both markers, and one
that is left open. -/
theorem Source.blocks_enclosed_reopened :
    let s : Source := ⟨"s", "*/\n/** a */\nb\n/**\nc\n*/\nd\n*/\n/**\ne"⟩
    s.blocks = [⟨["c"], "s"⟩] ∧ Encloses (lines s.content) 3 5 ∧
      ¬Encloses (lines s.content) 1 5 := by
  intro s
  have hlines : lines s.content =
      ["*/", "/** a */", "b", "/**", "c", "*/", "d", "*/", "/**", "e"] := by decide +kernel
  have hspan : Encloses (lines s.content) 3 5 := by
    rw [hlines]
    refine ⟨by decide, ⟨"/**", rfl, opens_iff.mp (by decide)⟩,
      ⟨"*/", rfl, closes_iff.mp (by decide)⟩, fun k line hlt hgt hline => ?_⟩
    obtain rfl : k = 4 := by omega
    obtain rfl : "c" = line := Option.some.inj hline
    rw [← opens_iff, ← closes_iff]
    decide
  have hblocks : s.blocks = [⟨["c"], "s"⟩] := by decide +kernel
  obtain ⟨spans, hmem, -, hspans, -⟩ := blocks_enclosed s
  obtain ⟨p, rfl⟩ : ∃ p, spans = [p] := by
    rw [← List.length_eq_one_iff]
    simpa [hblocks] using (congrArg List.length hspans).symm
  have hp : (3, 5) = p := List.mem_singleton.mp ((hmem 3 5).mpr hspan)
  refine ⟨hblocks, hspan, fun h => ?_⟩
  have hother : (1, 5) = p := List.mem_singleton.mp ((hmem 1 5).mpr h)
  rw [← hp] at hother
  cases hother

end RouteDoc
