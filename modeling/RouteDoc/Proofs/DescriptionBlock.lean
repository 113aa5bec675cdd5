import Mathlib.Data.List.Forall2
import RouteDoc.Proofs.ParameterSection

/-! The block of a description. A description loses its gutter and its margin, and nothing else: each
raw line leaves one line of the body. A reader that knows of the block only where its text starts gets
these lines back from the lines of an operation. -/

namespace RouteDoc

open Text

namespace Description

/-- What a raw line is without its gutter. The white space at its end is left out and, if its first
character other than white space is a star, all up to the star and one space directly after it. -/
inductive Cleaned (line : List Char) : List Char → Prop
  | plain (no_star : line.find? (!isBlank ·) ≠ some '*') : Cleaned line (trimEnd line)
  | gutter {blanks text : List Char} (blank : isBlankText blanks = true)
      (split : trimEnd line = blanks ++ '*' :: ' ' :: text) : Cleaned line text
  | star {blanks text : List Char} (blank : isBlankText blanks = true)
      (split : trimEnd line = blanks ++ '*' :: text) (no_space : text.head? ≠ some ' ') :
      Cleaned line text

end Description

/-! ### The reader -/

/-- What follows `start` on the first line that starts with it, and the lines between this line and
the next one that starts with `stop`. -/
def between? (start stop : String) : List String → Option (String × List String)
  | [] => none
  | line :: rest =>
    match valueOf? start line with
    | none => between? start stop rest
    | some value =>
      if rest.any fun l => (valueOf? stop l).isSome then
        some (value, rest.takeWhile fun l => (valueOf? stop l).isNone)
      else none

/-- A line of a literal block whose text starts at a column. A line that is shorter is blank. -/
def literalLine? (column : Nat) (line : String) : Option String :=
  if column ≤ depth line then some (String.ofList (line.toList.drop column))
  else if isBlankText line.toList then some "" else none

/-- The column at which the text of a literal block starts: the eighth if the indicator says so, and
else that of its first line that is not blank. -/
def literalColumn (indicator : String) (lines : List String) : Nat :=
  if indicator = "2" then 8
  else ((lines.find? (!isBlankText ·.toList)).map depth).getD 0

/-- The description among the lines of an operation. -/
def readDescription? (lines : List String) : Option (List String) :=
  (between? "      description: |" "      operationId:" lines).bind fun (indicator, block) =>
    block.mapM (literalLine? (literalColumn indicator block))

/-! ### White space -/

namespace Text

theorem isBlankText_cons {c : Char} {cs : List Char} :
    isBlankText (c :: cs) = true ↔ isBlank c = true ∧ isBlankText cs = true := by
  rw [isBlankText, List.all_cons, Bool.and_eq_true]
  rfl

theorem find?_eq_none_of_isBlankText {cs : List Char} (h : isBlankText cs = true) :
    cs.find? (!isBlank ·) = none := by
  rw [List.find?_eq_none]
  intro c hc
  simp [List.all_eq_true.mp h c hc]

theorem exists_blanks_trimEnd (cs : List Char) :
    ∃ blanks, isBlankText blanks = true ∧ cs = trimEnd cs ++ blanks := by
  refine ⟨(cs.reverse.takeWhile isBlank).reverse, ?_, ?_⟩
  · rw [isBlankText, List.all_reverse]
    exact List.all_takeWhile
  · rw [trimEnd, dropEndWhile, ← List.reverse_append, List.takeWhile_append_dropWhile,
      List.reverse_reverse]

theorem find?_trimEnd (cs : List Char) :
    (trimEnd cs).find? (!isBlank ·) = cs.find? (!isBlank ·) := by
  obtain ⟨blanks, hblanks, hcs⟩ := exists_blanks_trimEnd cs
  calc (trimEnd cs).find? (!isBlank ·)
      = (trimEnd cs ++ blanks).find? (!isBlank ·) := by
        rw [List.find?_append, find?_eq_none_of_isBlankText hblanks, Option.or_none]
    _ = cs.find? (!isBlank ·) := by rw [← hcs]

theorem head?_trimStart (cs : List Char) : (trimStart cs).head? = cs.find? (!isBlank ·) := by
  induction cs with
  | nil => rfl
  | cons c cs ih =>
    rw [trimStart, List.dropWhile_cons, List.find?_cons]
    cases hc : isBlank c with
    | false => rfl
    | true => exact ih

theorem trimStart_append {blanks rest : List Char} (h : isBlankText blanks = true) {c : Char}
    (hc : isBlank c = false) : trimStart (blanks ++ c :: rest) = c :: rest := by
  rw [trimStart, List.dropWhile_append_of_pos (List.all_eq_true.mp h), List.dropWhile_cons_of_neg]
  simp [hc]

end Text

/-! ### Gutters -/

namespace Description

theorem cleaned_clean (line : List Char) : Cleaned line (clean line) := by
  have hsplit : trimEnd line = (trimEnd line).takeWhile isBlank ++ trimStart (trimEnd line) :=
    List.takeWhile_append_dropWhile.symm
  have hblank : isBlankText ((trimEnd line).takeWhile isBlank) = true := List.all_takeWhile
  unfold clean
  simp only
  split
  · rename_i text htext
    exact .gutter hblank (htext ▸ hsplit)
  · rename_i text hspace htext
    refine .star hblank (htext ▸ hsplit) fun hhead => ?_
    obtain ⟨rest, rfl⟩ := List.head?_eq_some_iff.mp hhead
    exact hspace rest rfl
  · rename_i hstar
    refine .plain fun hhead => ?_
    rw [← find?_trimEnd, ← head?_trimStart, List.head?_eq_some_iff] at hhead
    obtain ⟨rest, hrest⟩ := hhead
    exact hstar rest hrest

theorem Cleaned.eq_clean {line text : List Char} (h : Cleaned line text) : text = clean line := by
  have hstar : isBlank '*' = false := by decide
  cases h with
  | plain hfirst =>
    rw [← find?_trimEnd, ← head?_trimStart] at hfirst
    unfold clean
    simp only
    split
    · rename_i htext
      simp [htext] at hfirst
    · rename_i htext
      simp [htext] at hfirst
    · rfl
  | gutter hblank hsplit => simp only [clean, hsplit, trimStart_append hblank hstar]
  | star hblank hsplit hspace =>
    simp only [clean, hsplit, trimStart_append hblank hstar]
    cases text with
    | nil => rfl
    | cons c text =>
      have hc : c ≠ ' ' := by simpa using hspace
      simp [hc]

/-- Every line has exactly one text without its gutter. -/
theorem cleaned_iff {line text : List Char} : Cleaned line text ↔ text = clean line :=
  ⟨Cleaned.eq_clean, by rintro rfl; exact cleaned_clean line⟩

/-! ### Margins -/

@[simp] theorem byteLength_cons (c : Char) (cs : List Char) :
    byteLength (c :: cs) = c.utf8Size + byteLength cs := rfl

theorem leading_cons_of_blank {c : Char} (hc : isBlank c = true) (cs : List Char) :
    leading (c :: cs) = c.utf8Size + leading cs := by
  rw [leading, List.takeWhile_cons_of_pos hc, byteLength_cons, leading]

theorem leading_cons_of_not_blank {c : Char} (hc : isBlank c = false) (cs : List Char) :
    leading (c :: cs) = 0 := by
  rw [leading, List.takeWhile_cons_of_neg (by simp [hc])]
  rfl

/-- No more is dropped than the white space at the start. -/
theorem exists_blanks_of_dropBytes? {n : Nat} {cs rest : List Char}
    (h : dropBytes? n cs = some rest) (hn : n ≤ leading cs) :
    ∃ blanks, isBlankText blanks = true ∧ cs = blanks ++ rest := by
  fun_induction dropBytes? n cs with
  | case1 cs => exact ⟨[], rfl, (Option.some.inj h)⟩
  | case2 n => cases h
  | case3 n c cs hc ih =>
    cases hblank : isBlank c with
    | false =>
      rw [leading_cons_of_not_blank hblank] at hn
      omega
    | true =>
      rw [leading_cons_of_blank hblank] at hn
      obtain ⟨blanks, hblanks, rfl⟩ := ih h (by omega)
      exact ⟨c :: blanks, isBlankText_cons.mpr ⟨hblank, hblanks⟩, rfl⟩
  | case4 n c cs hc => cases h

@[simp] theorem dropBytes?_zero (cs : List Char) : dropBytes? 0 cs = some cs := by
  rw [dropBytes?]

theorem dropBytes?_add_cons (n : Nat) (c : Char) (cs : List Char) :
    dropBytes? (c.utf8Size + n) (c :: cs) = dropBytes? n cs := by
  obtain ⟨size, hsize⟩ : ∃ size, c.utf8Size = size + 1 :=
    ⟨c.utf8Size - 1, by have := c.utf8Size_pos; omega⟩
  have hsum : c.utf8Size + n = (size + n) + 1 := by omega
  rw [hsum, dropBytes?, if_pos (by omega), show size + n + 1 - c.utf8Size = n by omega]

/-- All the white space at the start can be dropped. -/
theorem dropBytes?_leading (cs : List Char) : dropBytes? (leading cs) cs = some (trimStart cs) := by
  induction cs with
  | nil => rfl
  | cons c cs ih =>
    cases hblank : isBlank c with
    | false =>
      rw [leading_cons_of_not_blank hblank, trimStart, List.dropWhile_cons_of_neg (by simp [hblank]),
        dropBytes?_zero]
    | true =>
      rw [leading_cons_of_blank hblank, dropBytes?_add_cons, ih, trimStart, trimStart,
        List.dropWhile_cons_of_pos hblank]

/-- Where every character of the white space has one byte, as many characters as bytes are dropped. -/
theorem exists_dropBytes? {n : Nat} {cs : List Char} (hn : n ≤ leading cs)
    (hsingle : ∀ c ∈ cs.takeWhile isBlank, c.utf8Size = 1) :
    ∃ blanks rest, dropBytes? n cs = some rest ∧ isBlankText blanks = true ∧ blanks.length = n ∧
      cs = blanks ++ rest := by
  induction cs generalizing n with
  | nil =>
    obtain rfl : n = 0 := Nat.le_zero.mp hn
    exact ⟨[], [], rfl, rfl, rfl, rfl⟩
  | cons c cs ih =>
    cases n with
    | zero => exact ⟨[], c :: cs, dropBytes?_zero _, rfl, rfl, rfl⟩
    | succ n =>
      cases hblank : isBlank c with
      | false =>
        rw [leading_cons_of_not_blank hblank] at hn
        omega
      | true =>
        rw [List.takeWhile_cons_of_pos hblank, List.forall_mem_cons] at hsingle
        rw [leading_cons_of_blank hblank] at hn
        obtain ⟨blanks, rest, hdrop, hblanks, hlength, rfl⟩ := ih (n := n) (by omega) hsingle.2
        refine ⟨c :: blanks, rest, ?_, isBlankText_cons.mpr ⟨hblank, hblanks⟩, by simp [hlength], rfl⟩
        rw [Nat.add_comm, ← hsingle.1, dropBytes?_add_cons, hdrop]

variable {lines : List (List Char)} {line : List Char}

theorem margin_le (hline : line ∈ lines) (hblank : isBlankText line = false) :
    margin lines ≤ leading line := by
  have hmem : leading line ∈ (lines.filter (!isBlankText ·)).map leading :=
    List.mem_map_of_mem (List.mem_filter.mpr ⟨hline, by simp [hblank]⟩)
  rw [margin]
  cases hmin : ((lines.filter (!isBlankText ·)).map leading).min? with
  | none => exact Nat.zero_le _
  | some least => exact (List.min?_eq_some_iff.mp hmin).2 _ hmem

/-- The margin is the white space of some line that is not blank. -/
theorem exists_leading_eq_margin (hline : line ∈ lines) (hblank : isBlankText line = false) :
    ∃ line ∈ lines, isBlankText line = false ∧ leading line = margin lines := by
  have hmem : leading line ∈ (lines.filter (!isBlankText ·)).map leading :=
    List.mem_map_of_mem (List.mem_filter.mpr ⟨hline, by simp [hblank]⟩)
  cases hmin : ((lines.filter (!isBlankText ·)).map leading).min? with
  | none =>
    rw [List.min?_eq_none_iff.mp hmin] at hmem
    cases hmem
  | some least =>
    obtain ⟨least, hleast, rfl⟩ := List.mem_map.mp (List.min?_mem hmin)
    obtain ⟨hin, hnot⟩ := List.mem_filter.mp hleast
    exact ⟨least, hin, by simpa using hnot, by rw [margin, hmin, Option.getD_some]⟩

/-- A line that is not blank loses only white space at its start. -/
theorem exists_blanks_of_dedent {n : Nat} (hn : n ≤ leading line)
    (hblank : isBlankText line = false) :
    ∃ blanks, isBlankText blanks = true ∧ line = blanks ++ dedent n line := by
  rw [dedent, if_neg (by simp [hblank])]
  cases hdrop : dropBytes? n line with
  | none =>
    exact ⟨line.takeWhile isBlank, List.all_takeWhile, List.takeWhile_append_dropWhile.symm⟩
  | some rest => exact exists_blanks_of_dropBytes? hdrop hn

theorem dedent_eq_nil_iff {n : Nat} (hn : isBlankText line = false → n ≤ leading line) :
    dedent n line = [] ↔ isBlankText line = true := by
  constructor
  · intro hnil
    by_contra hblank
    rw [Bool.not_eq_true] at hblank
    obtain ⟨blanks, hblanks, hline⟩ := exists_blanks_of_dedent (hn hblank) hblank
    rw [hnil, List.append_nil] at hline
    rw [hline, hblanks] at hblank
    cases hblank
  · intro hblank
    rw [dedent, if_pos hblank]

/-- The line whose white space is the margin starts with another character. -/
theorem exists_head_dedent (hline : line ∈ lines) (hblank : isBlankText line = false) :
    ∃ line ∈ lines, isBlankText line = false ∧
      ∃ c, (dedent (margin lines) line).head? = some c ∧ isBlank c = false := by
  obtain ⟨least, hleast, hnot, hmargin⟩ := exists_leading_eq_margin hline hblank
  obtain ⟨c, hc, hcblank⟩ := List.all_eq_false.mp hnot
  have hfirst : (least.find? (!isBlank ·)).isSome = true :=
    List.find?_isSome.mpr ⟨c, hc, by simpa using hcblank⟩
  obtain ⟨first, hfirst⟩ := Option.isSome_iff_exists.mp hfirst
  refine ⟨least, hleast, hnot, first, ?_, by simpa using List.find?_some hfirst⟩
  rw [dedent, if_neg (by simp [hnot]), ← hmargin, dropBytes?_leading, Option.getD_some,
    head?_trimStart, hfirst]

end Description

/-! ### Rows of a block -/

namespace Text

theorem EndsInText.isBlankText_iff {text : String} (h : EndsInText text) :
    isBlankText text.toList = true ↔ text = "" := by
  constructor
  · intro hblank
    by_contra hne
    have hne' : text.toList ≠ [] := by simpa using hne
    have hlast := h _ (List.getLast?_eq_some_getLast hne')
    rw [List.all_eq_true.mp hblank _ (List.getLast_mem hne')] at hlast
    cases hlast
  · rintro rfl
    rfl

theorem exists_splitOn_append {start : List Char} (h : '\n' ∉ start) (text : List Char) :
    ∃ first others, (start ++ text).splitOn '\n' = (start ++ first) :: others := by
  induction start with
  | nil => exact List.exists_cons_of_ne_nil (List.splitOn_ne_nil _ _)
  | cons c start ih =>
    rw [List.mem_cons, not_or] at h
    obtain ⟨first, others, hsplit⟩ := ih h.2
    refine ⟨first, others, ?_⟩
    rw [List.cons_append, List.splitOn_cons_eq_if_modifyHead, if_neg (by simpa using Ne.symm h.1),
      hsplit]
    rfl

/-- A layout starts as its first row does, whatever lines the rest of the row makes. -/
theorem exists_layout_cons {start : String} (honeLine : OneLine start) (hend : EndsInText start)
    (text : String) (rows : List String) :
    ∃ value rest, layout ((start ++ text) :: rows) = (start ++ value) :: rest := by
  obtain ⟨first, others, hsplit⟩ := exists_splitOn_append honeLine text.toList
  have hfirst : ∃ value, trimEnd (start.toList ++ first) = start.toList ++ value := by
    rw [trimEnd, dropEndWhile_append]
    split
    · exact ⟨[], by rw [← trimEnd, trimEnd_of_getLast? hend, List.append_nil]⟩
    · exact ⟨_, rfl⟩
  obtain ⟨value, hvalue⟩ := hfirst
  refine ⟨String.ofList value,
    (others.map fun line => String.ofList (trimEnd line)) ++ layout rows, ?_⟩
  rw [layout, List.flatMap_cons, String.toList_append, hsplit, List.map_cons, hvalue,
    String.ofList_append, String.ofList_toList, List.cons_append]
  rfl

end Text

/-- A line of the body as it stands in the block. -/
def blockLine (out : String) : String := trimmed ("        " ++ out)

section BlockLine

variable {out : String}

theorem blockLine_empty : blockLine "" = "" := by decide

theorem blockLine_eq (h : EndsInText out) (hne : out ≠ "") : blockLine out = "        " ++ out :=
  (h.append hne).trimmed

theorem literalLine?_blockLine (h : EndsInText out) {column : Nat}
    (hcolumn : out ≠ "" → column = 8) : literalLine? column (blockLine out) = some out := by
  by_cases hne : out = ""
  · subst hne
    rw [blockLine_empty, literalLine?]
    split
    · simp
    · rfl
  · have hdepth : 8 ≤ depth ("        " ++ out) :=
      indented_iff.mp ((show Indented 8 "        " by decide).append out)
    have hdrop : ("        " ++ out).toList.drop 8 = out.toList := by
      rw [String.toList_append]
      rfl
    rw [hcolumn hne, blockLine_eq h hne, literalLine?, if_pos hdepth, hdrop, String.ofList_toList]

theorem not_operationId_blockLine (out : String) :
    ¬ "      operationId:".toList <+: (blockLine out).toList := by
  intro h
  exact not_prefix_append (by decide) (by decide) out (h.trans (trimmed_isPrefix _))

theorem isBlankText_blockLine (h : EndsInText out) :
    isBlankText (blockLine out).toList = out.isEmpty := by
  by_cases hne : out = ""
  · subst hne
    decide
  · rw [blockLine_eq h hne, Bool.eq_iff_iff, (h.append hne).isBlankText_iff]
    simp [hne]

theorem find?_blockLine {lines : List String} (h : ∀ out ∈ lines, EndsInText out) :
    (lines.map blockLine).find? (!isBlankText ·.toList) =
      (lines.find? (!·.isEmpty)).map blockLine := by
  induction lines with
  | nil => rfl
  | cons out lines ih =>
    rw [List.forall_mem_cons] at h
    rw [List.map_cons, List.find?_cons, List.find?_cons, isBlankText_blockLine h.1]
    cases out.isEmpty with
    | false => rfl
    | true => exact ih h.2

/-- The reader finds the column at which the lines of a body start. -/
theorem literalColumn_blockLine {lines : List String} (h : ∀ out ∈ lines, EndsInText out)
    (hout : out ∈ lines) (hne : out ≠ "") :
    literalColumn (Description.indicator lines) (lines.map blockLine) = 8 := by
  have hfind : (lines.find? (!·.isEmpty)).isSome = true :=
    List.find?_isSome.mpr ⟨out, hout, by simpa using hne⟩
  obtain ⟨first, hfirst⟩ := Option.isSome_iff_exists.mp hfind
  have hfirstNe : first ≠ "" := by simpa using List.find?_some hfirst
  obtain ⟨c, cs, hcs⟩ := List.exists_cons_of_ne_nil (l := first.toList) (by simpa using hfirstNe)
  rw [Description.indicator, hfirst, literalColumn, find?_blockLine h, hfirst]
  cases hc : isBlank c with
  | true => simp [hcs, hc]
  | false =>
    have hline : ("        " ++ first).toList = List.replicate 8 ' ' ++ c :: cs := by
      rw [String.toList_append, hcs]
      rfl
    have hdepth := isAt_of_toList hline hc
    simp only [isAt, Bool.and_eq_true, beq_iff_eq] at hdepth
    simp [hcs, hc, blockLine_eq (h first (List.mem_of_find?_eq_some hfirst)) hfirstNe, hdepth.2]

end BlockLine

theorem between?_append {start stop : String} {before block : List String}
    (hbefore : ∀ l ∈ before, ¬ start.toList <+: l.toList)
    (hblock : ∀ l ∈ block, ¬ stop.toList <+: l.toList) (value value' : String)
    (rest : List String) :
    between? start stop (before ++ (start ++ value) :: (block ++ (stop ++ value') :: rest)) =
      some (value, block) := by
  induction before with
  | nil =>
    have hstop : (block ++ (stop ++ value') :: rest).any fun l => (valueOf? stop l).isSome := by
      simp [valueOf?_append]
    have hblock' : ∀ l ∈ block, (valueOf? stop l).isNone = true := fun l hl => by
      simp [valueOf?_eq_none (hblock l hl)]
    simp only [List.nil_append, between?, valueOf?_append, hstop, if_true]
    rw [List.takeWhile_append_of_pos hblock', List.takeWhile_cons_of_neg
      (by simp [valueOf?_append]), List.append_nil]
  | cons line before ih =>
    rw [List.forall_mem_cons] at hbefore
    simp only [List.cons_append, between?, valueOf?_eq_none hbefore.1]
    exact ih hbefore.2

theorem mapM_map_eq_some {α β : Type} {f : β → Option α} {g : α → β} {xs : List α}
    (h : ∀ x ∈ xs, f (g x) = some x) : (xs.map g).mapM f = some xs := by
  induction xs with
  | nil => rfl
  | cons x xs ih =>
    rw [List.forall_mem_cons] at h
    rw [List.map_cons, List.mapM_cons, h.1, ih h.2]
    rfl

namespace Description

variable {raw : List String}

theorem trimmed_indicator (lines : List String) :
    trimmed ("      description: |" ++ indicator lines) =
      "      description: |" ++ indicator lines := by
  unfold indicator
  split
  · split <;> decide
  · decide

theorem endsInText_body {out : String} (h : out ∈ body raw) : EndsInText out := by
  simp only [body, List.map_map, List.mem_map, Function.comp_apply] at h
  obtain ⟨line, -, rfl⟩ := h
  intro c hc
  rw [String.toList_ofList] at hc
  obtain ⟨start, hstart⟩ := (dedent_suffix (margin (raw.map fun line => clean line.toList))
    (clean line.toList)).trans (clean_suffix line.toList)
  have hlast : (trimEnd line.toList).getLast? = some c := by
    rw [← hstart, List.getLast?_append, hc, Option.some_or]
  exact getLast?_dropEndWhile hlast

end Description

namespace Route

variable {r : Route}

/-- The lines of an operation around its description. -/
theorem exists_description_lines (hsummary : OneLine r.summary)
    (hdescription : ∀ line ∈ r.description, OneLine line) :
    ∃ value rest, r.operation.lines =
      [methodLine r.method, trimmed ("      summary: " ++ r.summary)] ++
        ("      description: |" ++ Description.indicator (Description.body r.description)) ::
        ((Description.body r.description).map blockLine ++
          ("      operationId:" ++ value) :: rest) := by
  have hbody := Description.oneLine_body hdescription
  have hrows : ∃ rows, r.operation.lines = layout (methodLine r.method ::
      ("      summary: " ++ r.summary) ::
      ("      description: |" ++ Description.indicator (Description.body r.description)) ::
      ((Description.body r.description).map ("        " ++ ·) ++
        ("      operationId:" ++ (" " ++ r.operationId)) :: rows)) := by
    have hkey : "      operationId:" ++ (" " ++ r.operationId) =
        "      operationId: " ++ r.operationId := by
      rw [← String.append_assoc]
      rfl
    rw [hkey]
    refine ⟨"      consumes:" :: (r.consumes.map ("        - " ++ ·) ++ "      produces:" ::
      (r.produces.map ("        - " ++ ·) ++ "      tags:" :: ("        - " ++ r.tag) ::
        ((if r.parameterLines.isEmpty then [] else "      parameters:" :: r.parameterLines) ++
          "      responses:" :: r.operation.responseRows))), ?_⟩
    rw [Operation.lines_eq, Operation.headRows]
    simp only [List.append_assoc, List.cons_append, List.nil_append]
    rfl
  obtain ⟨rows, hrows⟩ := hrows
  obtain ⟨value, rest, hoperationId⟩ := exists_layout_cons
    (show OneLine "      operationId:" by decide) (by decide) (" " ++ r.operationId) rows
  refine ⟨value, rest, ?_⟩
  have hsummaryRow := (show OneLine "      summary: " by decide).append hsummary
  have hindicatorRow := (show OneLine "      description: |" by decide).append
    (Description.oneLine_indicator (Description.body r.description))
  have hbodyRows : ∀ row ∈ (Description.body r.description).map ("        " ++ ·), OneLine row := by
    intro row hrow
    obtain ⟨out, hout, rfl⟩ := List.mem_map.mp hrow
    exact (show OneLine "        " by decide).append (hbody out hout)
  rw [hrows, layout_cons (oneLine_methodLine _), layout_cons hsummaryRow,
    layout_cons hindicatorRow, layout_append, layout_eq hbodyRows, hoperationId, trimmed_methodLine,
    Description.trimmed_indicator, List.map_map]
  rfl

theorem readDescription?_operation (hsummary : OneLine r.summary)
    (hdescription : ∀ line ∈ r.description, OneLine line) :
    readDescription? r.operation.lines = some (Description.body r.description) := by
  obtain ⟨value, rest, hlines⟩ := exists_description_lines hsummary hdescription
  have hbefore : ∀ l ∈ [methodLine r.method, trimmed ("      summary: " ++ r.summary)],
      ¬ "      description: |".toList <+: l.toList := by
    simp only [List.mem_cons, List.not_mem_nil, or_false, forall_eq_or_imp, forall_eq]
    refine ⟨by cases r.method <;> decide, fun h => ?_⟩
    exact not_prefix_append (by decide) (by decide) _ (h.trans (trimmed_isPrefix _))
  have hblock : ∀ l ∈ (Description.body r.description).map blockLine,
      ¬ "      operationId:".toList <+: l.toList := by
    simp only [List.mem_map, forall_exists_index, and_imp, forall_apply_eq_imp_iff₂]
    exact fun out _ => not_operationId_blockLine out
  have hends : ∀ out ∈ Description.body r.description, EndsInText out :=
    fun out hout => Description.endsInText_body hout
  rw [readDescription?, hlines, between?_append hbefore hblock, Option.bind_some]
  exact mapM_map_eq_some fun out hout => literalLine?_blockLine (hends out hout) fun hne =>
    literalColumn_blockLine hends hout hne

end Route

/-- The text of a description, and the block in which an operation shows it. There is one line of the
body for each raw line. It is empty if the raw line is blank without its gutter, and else it lacks only
white space at the start. If all of that white space has one byte a character, every line loses the same
number of characters. If there is a line that is not blank, one of the body starts with a character
other than white space. Whatever route has the description, the reader finds the body in its operation. -/
theorem Description.body_laws {raw : List String} (hraw : ∀ line ∈ raw, OneLine line) :
    ∃ cleaned : List (List Char),
      List.Forall₂ (fun line text => Cleaned line.toList text) raw cleaned ∧
      List.Forall₂ (fun text out => (out = "" ↔ isBlankText text = true) ∧
        (isBlankText text = false →
          ∃ blanks, isBlankText blanks = true ∧ text = blanks ++ out.toList)) cleaned (body raw) ∧
      ((∀ text ∈ cleaned, isBlankText text = false → ∀ c ∈ text.takeWhile isBlank, c.utf8Size = 1) →
        ∃ n, List.Forall₂ (fun text out => isBlankText text = false →
          ∃ blanks, blanks.length = n ∧ isBlankText blanks = true ∧ text = blanks ++ out.toList)
          cleaned (body raw)) ∧
      ((∃ text ∈ cleaned, isBlankText text = false) →
        ∃ out ∈ body raw, ∃ c, out.toList.head? = some c ∧ isBlank c = false) ∧
      ∀ r : Route, r.description = raw → OneLine r.summary →
        readDescription? r.operation.lines = some (body raw) := by
  let cleaned := raw.map fun line => clean line.toList
  have hmargin : ∀ text ∈ cleaned, isBlankText text = false → margin cleaned ≤ leading text :=
    fun text htext hblank => margin_le htext hblank
  refine ⟨cleaned, ?_, ?_, fun hsingle => ⟨margin cleaned, ?_⟩, ?_, ?_⟩
  · exact List.forall₂_map_right_iff.mpr
      (List.forall₂_same.mpr fun line _ => cleaned_iff.mpr rfl)
  · refine List.forall₂_map_right_iff.mpr (List.forall₂_same.mpr fun text htext => ⟨?_, ?_⟩)
    · exact String.ofList_eq_empty_iff.trans (dedent_eq_nil_iff (hmargin text htext))
    · intro hblank
      rw [String.toList_ofList]
      exact exists_blanks_of_dedent (hmargin text htext hblank) hblank
  · refine List.forall₂_map_right_iff.mpr (List.forall₂_same.mpr fun text htext hblank => ?_)
    obtain ⟨blanks, rest, hdrop, hblanks, hlength, heq⟩ :=
      exists_dropBytes? (hmargin text htext hblank) (hsingle text htext hblank)
    refine ⟨blanks, hlength, hblanks, ?_⟩
    rw [String.toList_ofList, dedent, if_neg (by simp [hblank]), hdrop]
    exact heq
  · rintro ⟨text, htext, hblank⟩
    obtain ⟨least, hleast, -, c, hc, hcblank⟩ := exists_head_dedent htext hblank
    exact ⟨_, List.mem_map_of_mem hleast, c, by rw [String.toList_ofList, hc], hcblank⟩
  · rintro r rfl hsummary
    exact r.readDescription?_operation hsummary hraw

/-- The margin of one byte is inside the first character of the third line. -/
theorem Description.body_laws_straddled_margin :
    let raw := [" *   Two ", "", "\t* \u00a0wide", "*  one"]
    let r : Route := { (default : Route) with summary := "Get", description := raw }
    readDescription? r.operation.lines = some [" Two", "", "wide", "one"] ∧
      ∃ out ∈ body raw, ∃ c, out.toList.head? = some c ∧ isBlank c = false := by
  intro raw r
  have hbody : body raw = [" Two", "", "wide", "one"] := by decide +kernel
  obtain ⟨cleaned, -, -, -, -, hread⟩ := body_laws (show ∀ line ∈ raw, OneLine line by decide)
  rw [← hbody]
  exact ⟨hread r rfl (by decide), "wide", by rw [hbody]; decide, 'w', by decide, by decide⟩

/-- The reader finds the description of every route in the route's operation. -/
theorem Api.description_shown {sources : List Source} {catalog : Catalog} {api : Api}
    (hcatalog : (Catalog.collect sources).result = .ok catalog)
    (hapi : (Api.ofCatalog catalog).result = .ok api) {r : Route} (hr : r ∈ api.routes.values) :
    readDescription? r.operation.lines = some (Description.body r.description) := by
  have hsourced := Api.sourced_of_mem hcatalog hapi hr
  exact r.readDescription?_operation hsourced.plain.summary hsourced.plain.description

end RouteDoc
