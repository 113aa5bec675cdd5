import RouteDoc.Proofs.Optionality
import RouteDoc.Proofs.TaggedLine

/-! Texts that differ in which white space characters they have. No part of an annotation but the
description of a field tells them apart, so what a field line declares and the word after a tag stay
the same. -/

namespace RouteDoc

open Text

namespace Text

/-- The text with a space for each white space character. -/
def spaced (cs : List Char) : List Char := cs.map fun c => if isBlank c then ' ' else c

theorem spaced_cons (c : Char) (cs : List Char) :
    spaced (c :: cs) = (if isBlank c then ' ' else c) :: spaced cs := rfl

theorem spaced_append (cs ds : List Char) : spaced (cs ++ ds) = spaced cs ++ spaced ds :=
  List.map_append

theorem spaced_of_forall {cs : List Char} (h : ∀ c ∈ cs, isBlank c = false) : spaced cs = cs := by
  refine (List.map_congr_left fun c hc => ?_).trans (List.map_id cs)
  simp [h c hc]

/-- A class that does not tell white space apart is not changed by spacing. -/
def IgnoresBlanks (p : Char → Bool) : Prop := ∀ c, isBlank c = true → p c = p ' '

theorem IgnoresBlanks.comp {p : Char → Bool} (h : IgnoresBlanks p) :
    (p ∘ fun c => if isBlank c then ' ' else c) = p := by
  funext c
  simp only [Function.comp_apply]
  split
  · rename_i hc
    exact (h c hc).symm
  · rfl

theorem takeWhile_spaced {p : Char → Bool} (h : IgnoresBlanks p) (cs : List Char) :
    (spaced cs).takeWhile p = spaced (cs.takeWhile p) := by
  rw [spaced, List.takeWhile_map, h.comp]
  rfl

theorem dropWhile_spaced {p : Char → Bool} (h : IgnoresBlanks p) (cs : List Char) :
    (spaced cs).dropWhile p = spaced (cs.dropWhile p) := by
  rw [spaced, List.dropWhile_map, h.comp]
  rfl

theorem ignoresBlanks_of_not {p : Char → Bool} (h : ∀ c, p c = true → isBlank c = false) :
    IgnoresBlanks p := by
  have hfalse : ∀ c, isBlank c = true → p c = false := by
    intro c hc
    rw [Bool.eq_false_iff]
    intro hp
    exact absurd (hc.symm.trans (h c hp)) (by decide)
  intro c hc
  rw [hfalse c hc, hfalse ' ' (by decide)]

/-- A run of a class without white space stays as it is. -/
theorem takeWhile_spaced_of_not {p : Char → Bool} (h : ∀ c, p c = true → isBlank c = false)
    (cs : List Char) : (spaced cs).takeWhile p = cs.takeWhile p := by
  rw [takeWhile_spaced (ignoresBlanks_of_not h)]
  exact spaced_of_forall fun c hc => h c (List.all_eq_true.mp List.all_takeWhile c hc)

theorem after?_spaced {start : List Char} (h : ∀ c ∈ start, isBlank c = false) (cs : List Char) :
    after? start (spaced cs) = (after? start cs).map spaced := by
  induction start generalizing cs with
  | nil => rfl
  | cons p start ih =>
    cases cs with
    | nil => rfl
    | cons c cs =>
      have hp : isBlank p = false := h p (by simp)
      have hsame : (p = if isBlank c then ' ' else c) ↔ p = c := by
        split
        · rename_i hc
          refine iff_of_false ?_ ?_
          · rintro rfl
            exact absurd hp (by decide)
          · rintro rfl
            exact absurd (hc.symm.trans hp) (by decide)
        · rfl
      simp only [spaced_cons, after?, hsame]
      split
      · exact ih (fun c hc => h c (List.mem_cons_of_mem _ hc)) cs
      · rfl

theorem afterBlank?_spaced (cs : List Char) :
    afterBlank? (spaced cs) = (afterBlank? cs).map spaced := by
  cases cs with
  | nil => rfl
  | cons c cs =>
    cases hc : isBlank c <;> simp [spaced_cons, afterBlank?, hc, isBlank_space]

theorem afterEach_spaced {pattern : List Char} (h : ∀ c ∈ pattern, isBlank c = false)
    (cs : List Char) : afterEach pattern (spaced cs) = (afterEach pattern cs).map spaced := by
  induction cs with
  | nil => cases pattern <;> rfl
  | cons c cs ih =>
    have hafter := after?_spaced h (c :: cs)
    rw [spaced_cons] at hafter ⊢
    rw [afterEach, afterEach, hafter, ih]
    cases after? pattern (c :: cs) <;> simp

end Text

/-- A scan whose reading does not tell white space apart does not do so either. -/
theorem scanFor_spaced {α : Type} {spelling : List Char} {read : List Char → Option α}
    (hspelling : ∀ c ∈ spelling, isBlank c = false) (hread : ∀ cs, read (spaced cs) = read cs)
    (line : List Char) : scanFor spelling read (spaced line) = scanFor spelling read line := by
  have hrest : ∀ rest, ((afterBlank? (spaced rest)).bind read) = (afterBlank? rest).bind read := by
    intro rest
    rw [afterBlank?_spaced]
    cases afterBlank? rest with
    | none => rfl
    | some after => exact hread after
  rw [scanFor, afterEach_spaced hspelling, List.findSome?_map]
  exact congrArg (List.findSome? · _) (funext hrest)

theorem word_spaced (cs : List Char) : word (spaced cs) = word cs :=
  takeWhile_spaced_of_not (fun _ => isBlank_of_isWord) cs

/-! ### What a field line declares, but for its description -/

/-- The type, the name and the tag of a field line. -/
def FieldLine.heading (p : FieldLine) : List Char × List Char × Bool :=
  (p.typeText, p.name, p.isHeader)

theorem afterLocation?_spaced (cs : List Char) :
    afterLocation? (spaced cs) = (afterLocation? cs).map spaced := by
  unfold afterLocation?
  rw [after?_spaced (isBlank_of_all rfl)]
  cases after? ['('] cs with
  | none => rfl
  | some inner =>
    have hafter : afterWord (spaced inner) = spaced (afterWord inner) :=
      dropWhile_spaced (ignoresBlanks_of_not fun _ => isBlank_of_isWord) inner
    have hclose : after? [')'] (spaced (afterWord inner)) = (after? [')'] (afterWord inner)).map spaced :=
      after?_spaced (isBlank_of_all rfl) _
    simp only [Option.map_some, word?, word_spaced, hafter]
    split
    · rfl
    · simp only [Option.bind_eq_bind, Option.bind_some, hclose]
      cases after? [')'] (afterWord inner) with
      | none => rfl
      | some rest => exact afterBlank?_spaced rest

theorem FieldLine.heading_readName?_spaced (isHeader : Bool) (typeText cs : List Char) :
    (FieldLine.readName? isHeader typeText (spaced cs)).map heading =
      (FieldLine.readName? isHeader typeText cs).map heading := by
  have hinner : (after? ['['] (spaced cs)).getD (spaced cs) = spaced ((after? ['['] cs).getD cs) := by
    rw [after?_spaced (isBlank_of_all rfl)]
    cases after? ['['] cs <;> rfl
  have hname := takeWhile_spaced_of_not (fun _ => isBlank_of_isNameChar)
    ((after? ['['] cs).getD cs)
  have hrest := dropWhile_spaced (ignoresBlanks_of_not fun _ => isBlank_of_isNameChar)
    ((after? ['['] cs).getD cs)
  have hpair : (after? ['[', ']'] (spaced (((after? ['['] cs).getD cs).dropWhile isNameChar))).isSome =
      (after? ['[', ']'] (((after? ['['] cs).getD cs).dropWhile isNameChar)).isSome := by
    rw [after?_spaced (isBlank_of_all rfl), Option.isSome_map]
  simp only [FieldLine.readName?, hinner, hname, hrest]
  split
  · rfl
  · simp only [Option.map_some, heading, hpair]

theorem FieldLine.heading_read?_spaced (isHeader : Bool) (cs : List Char) :
    (FieldLine.read? isHeader (spaced cs)).map heading =
      (FieldLine.read? isHeader cs).map heading := by
  rw [FieldLine.read?_eq, FieldLine.read?_eq, afterLocation?_spaced]
  cases afterLocation? cs with
  | none => rfl
  | some cs =>
    have htoken := takeWhile_spaced_of_not (p := (!isBlank ·)) (fun c hc => by simpa using hc) cs
    have hrest := dropWhile_spaced (p := (!isBlank ·))
      (ignoresBlanks_of_not fun c hc => by simpa using hc) cs
    simp only [Option.map_some, Option.bind_some, htoken, hrest, afterBlank?_spaced]
    cases betweenBraces? (cs.takeWhile (!isBlank ·)) with
    | none => rfl
    | some typeText =>
      cases afterBlank? (cs.dropWhile (!isBlank ·)) with
      | none => rfl
      | some cs => exact heading_readName?_spaced isHeader typeText cs

/-- What follows a field tag, read but for the description. -/
def FieldLine.heading? (isHeader : Bool) (cs : List Char) : Option (List Char × List Char × Bool) :=
  (FieldLine.read? isHeader cs).map heading

theorem Tag.map_scan {α β : Type} (tag : Tag) (read : List Char → Option α) (f : α → β)
    (line : String) :
    (tag.scan read line).map f = tag.scan (fun cs => (read cs).map f) line := by
  rw [Tag.scan_eq, Tag.scan_eq, scanFor, scanFor, List.map_findSome?]
  congr 1
  funext rest
  exact Option.map_bind

theorem FieldLine.heading_ofLine? (line : String) :
    (FieldLine.ofLine? line).map heading =
      (Tag.header.scan (heading? true) line).or (Tag.param.scan (heading? false) line) := by
  unfold FieldLine.ofLine? heading?
  rw [← Tag.map_scan, ← Tag.map_scan]
  cases Tag.header.scan (FieldLine.read? true) line <;> rfl

/-- Two lines that declare the same, but for the description. -/
structure SameHeading (line line' : String) : Prop where
  heading : (FieldLine.ofLine? line).map FieldLine.heading =
    (FieldLine.ofLine? line').map FieldLine.heading
  brackets : ∀ name : List Char, name ≠ [] → (∀ c ∈ name, isBlank c = false) →
    precededByBracket name line.toList = precededByBracket name line'.toList

namespace SameHeading

variable {line line' line'' : String}

theorem symm (h : SameHeading line line') : SameHeading line' line :=
  ⟨h.heading.symm, fun name hne hname => (h.brackets name hne hname).symm⟩

theorem trans (h : SameHeading line line') (h' : SameHeading line' line'') :
    SameHeading line line'' :=
  ⟨h.heading.trans h'.heading, fun name hne hname =>
    (h.brackets name hne hname).trans (h'.brackets name hne hname)⟩

theorem exists_pieces (h : SameHeading line line') {p : FieldLine}
    (hp : FieldLine.ofLine? line = some p) :
    ∃ p', FieldLine.ofLine? line' = some p' ∧ p'.typeText = p.typeText ∧ p'.name = p.name ∧
      p'.isHeader = p.isHeader := by
  have hheading := h.heading
  rw [hp, Option.map_some, eq_comm, Option.map_eq_some_iff] at hheading
  obtain ⟨p', hp', hsame⟩ := hheading
  simp only [FieldLine.heading, Prod.mk.injEq] at hsame
  exact ⟨p', hp', hsame.1, hsame.2.1, hsame.2.2⟩

theorem exists_field (h : SameHeading line line') {name : String} {field : Field}
    (hfield : (Field.ofLine? line).result = .ok (some (name, field))) :
    ∃ field', (Field.ofLine? line').result = .ok (some (name, field')) ∧
      field'.type = field.type ∧ field'.isOptional = field.isOptional ∧
      field'.isHeader = field.isHeader := by
  obtain ⟨p, hp, hdot, htype, rfl, -, -, hheader⟩ := Field.ofLine?_eq_some hfield
  obtain ⟨p', hp', htypeText, hname, hflag⟩ := h.exists_pieces hp
  have hfield' := Field.result_ofLine?_of_parse hp' (hname ▸ hdot) (htypeText ▸ htype)
  have hoptional := Field.isOptional_eq hfield'
  rw [hname] at hfield' hoptional
  obtain ⟨hne, hblank⟩ := Field.name_of_ofLine? hfield
  refine ⟨_, hfield', rfl, ?_, hflag.trans hheader.symm⟩
  rw [Field.isOptional_eq hfield, h.brackets _ hne hblank]
  exact Field.isOptional_eq hfield'

theorem isFatal (h : SameHeading line line') (hfatal : IsFatal line) : IsFatal line' := by
  obtain ⟨fault, hfault⟩ := hfatal
  obtain ⟨p, hp, hdot, htype, -, -⟩ := Field.ofLine?_error_iff.mp hfault
  obtain ⟨p', hp', htypeText, hname, -⟩ := h.exists_pieces hp
  exact ⟨⟨"", line', fault.cause⟩, Field.ofLine?_error_iff.mpr
    ⟨p', hp', hname ▸ hdot, htypeText ▸ htype, rfl, rfl⟩⟩

end SameHeading

/-! ### One white space character for another -/

theorem precededByBracket_spaced {name : List Char} (hname : ∀ c ∈ name, isBlank c = false)
    (line : List Char) : precededByBracket name (spaced line) = precededByBracket name line := by
  have hblank : IgnoresBlanks isBlank := fun c hc => hc
  have hstart : ∀ rest, name.isPrefixOf (trimStart (spaced rest)) =
      name.isPrefixOf (trimStart rest) := by
    intro rest
    rw [trimStart, dropWhile_spaced hblank, ← isSome_after?, after?_spaced hname, Option.isSome_map,
      isSome_after?]
    rfl
  simp only [precededByBracket]
  rw [afterEach_spaced (isBlank_of_all rfl), List.any_map]
  exact congrArg (List.any _) (funext hstart)

/-- The line with a space for each white space character. -/
def respaced (line : String) : String := String.ofList (spaced line.toList)

theorem Tag.scan_respaced {α : Type} (tag : Tag) {read : List Char → Option α}
    (hread : ∀ cs, read (spaced cs) = read cs) (line : String) :
    tag.scan read (respaced line) = tag.scan read line := by
  rw [Tag.scan_eq, Tag.scan_eq, respaced, String.toList_ofList]
  exact scanFor_spaced tag.isBlank_spelling hread _

theorem sameHeading_respaced (line : String) : SameHeading line (respaced line) := by
  constructor
  · rw [FieldLine.heading_ofLine?, FieldLine.heading_ofLine?,
      Tag.scan_respaced _ (FieldLine.heading_read?_spaced true),
      Tag.scan_respaced _ (FieldLine.heading_read?_spaced false)]
  · intro name _ hname
    rw [respaced, String.toList_ofList, precededByBracket_spaced hname]

theorem SameHeading.of_respaced {line line' : String} (h : respaced line = respaced line') :
    SameHeading line line' :=
  (sameHeading_respaced line).trans (h ▸ (sameHeading_respaced line').symm)

end RouteDoc
