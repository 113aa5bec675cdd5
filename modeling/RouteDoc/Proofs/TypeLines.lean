import RouteDoc.Proofs.Quotation
import RouteDoc.Proofs.Rows

/-! The lines of a type. The starts of its lines tell those of the kind from those of the choices, of
the bounds and of the description, so the lines can be taken apart again, and two types with the same
lines say the same: their kinds differ in the case of scalar names at most, and what else a line is
written for is equal. -/

namespace RouteDoc

open Text

/-! ### Starts of lines -/

namespace Text

/-- Every line starts with one of some texts. -/
def StartIn (starts lines : List String) : Prop :=
  ∀ line ∈ lines, ∃ s ∈ starts, s.toList <+: line.toList

/-- No text of one list starts with a text of the other. -/
def Apart (starts starts' : List String) : Prop :=
  ∀ s ∈ starts, ∀ t ∈ starts', ¬ s.toList <+: t.toList ∧ ¬ t.toList <+: s.toList

instance (starts lines : List String) : Decidable (StartIn starts lines) :=
  inferInstanceAs (Decidable (∀ line ∈ lines, ∃ s ∈ starts, _))

instance (starts starts' : List String) : Decidable (Apart starts starts') :=
  inferInstanceAs (Decidable (∀ s ∈ starts, ∀ t ∈ starts', _ ∧ _))

variable {starts starts' lines lines' rest rest' : List String}

theorem StartIn.nil : StartIn starts [] := fun _ h => by cases h

theorem StartIn.append (h : StartIn starts lines) (h' : StartIn starts' lines') :
    StartIn (starts ++ starts') (lines ++ lines') := by
  intro line hline
  rcases List.mem_append.mp hline with hline | hline
  · obtain ⟨s, hs, hstart⟩ := h line hline
    exact ⟨s, List.mem_append_left _ hs, hstart⟩
  · obtain ⟨s, hs, hstart⟩ := h' line hline
    exact ⟨s, List.mem_append_right _ hs, hstart⟩

theorem StartIn.mono (h : StartIn starts lines) (hsub : starts ⊆ starts') : StartIn starts' lines :=
  fun line hline => (h line hline).imp fun _ hs => ⟨hsub hs.1, hs.2⟩

/-- A line keeps its start whatever is written after it. -/
theorem prefix_append {s start : String} (h : s.toList <+: start.toList) (text : String) :
    s.toList <+: (start ++ text).toList := by
  rw [String.toList_append]
  exact h.trans (List.prefix_append _ _)

theorem StartIn.append_text {start : String} (h : StartIn starts [start]) (text : String) :
    StartIn starts [start ++ text] := by
  intro line hline
  obtain ⟨s, hs, hstart⟩ := h start (List.mem_singleton.mpr rfl)
  rw [List.mem_singleton.mp hline]
  exact ⟨s, hs, prefix_append hstart text⟩

/-- A line cannot have starts that are apart. -/
theorem StartIn.not_starts (h : StartIn starts lines) {key : String} (hkey : Apart [key] starts) :
    ∀ line ∈ lines, ¬ key.toList <+: line.toList := by
  intro line hline hprefix
  obtain ⟨s, hs, hstart⟩ := h line hline
  obtain ⟨hks, hsk⟩ := hkey key (List.mem_singleton.mpr rfl) s hs
  exact (List.prefix_or_prefix_of_prefix hprefix hstart).elim hks hsk

/-- Lines whose starts are apart can be told from each other where they stand together. -/
theorem append_inj_of_startIn (hlines : StartIn starts lines) (hlines' : StartIn starts lines')
    (hrest : StartIn starts' rest) (hrest' : StartIn starts' rest') (hapart : Apart starts starts')
    (h : lines ++ rest = lines' ++ rest') : lines = lines' ∧ rest = rest' := by
  let p : String → Bool := fun line => starts.any fun s => s.toList.isPrefixOf line.toList
  have hp : ∀ {line}, p line = true ↔ ∃ s ∈ starts, s.toList <+: line.toList := by
    simp [p]
  have hkeep : ∀ {lines}, StartIn starts lines → lines.filter p = lines := fun h =>
    List.filter_eq_self.mpr fun line hline => hp.mpr (h line hline)
  have hdrop : ∀ {rest}, StartIn starts' rest → rest.filter p = [] := by
    intro rest h
    refine List.filter_eq_nil_iff.mpr fun line hline hline' => ?_
    obtain ⟨s, hs, hstart⟩ := hp.mp hline'
    refine h.not_starts (fun key hkey t ht => ?_) line hline hstart
    rw [List.mem_singleton.mp hkey]
    exact hapart s hs t ht
  have hfilter := congrArg (List.filter p) h
  rw [List.filter_append, List.filter_append, hkeep hlines, hkeep hlines', hdrop hrest, hdrop hrest',
    List.append_nil, List.append_nil] at hfilter
  exact ⟨hfilter, List.append_cancel_left (hfilter ▸ h)⟩

end Text

/-- Lists with the same images are the same, if only the same members have the same image. -/
theorem eq_of_map_eq {α β : Type} {f : α → β} {p : α → Prop}
    (hf : ∀ {a b}, p a → p b → f a = f b → a = b) {xs ys : List α} (hxs : ∀ x ∈ xs, p x)
    (hys : ∀ y ∈ ys, p y) (h : xs.map f = ys.map f) : xs = ys := by
  induction xs generalizing ys with
  | nil => exact (List.map_eq_nil_iff.mp h.symm).symm
  | cons x xs ih =>
    cases ys with
    | nil => cases h
    | cons y ys =>
      rw [List.forall_mem_cons] at hxs hys
      obtain ⟨hxy, hrest⟩ := List.cons.inj h
      rw [hf hxs.1 hys.1 hxy, ih hxs.2 hys.2 hrest]

namespace Text

theorem natRepr_injective : Function.Injective Nat.repr := by
  intro m n h
  have hdigits := congrArg (fun text : String => Nat.ofDigitChars 10 text.toList 0) h
  simpa only [Nat.toList_repr, Nat.ofDigitChars_ten_toDigits] using hdigits

theorem intRepr_injective : Function.Injective Int.repr := by
  -- the sign is no digit
  have hsign : ∀ m n : Nat, m.repr ≠ "-" ++ n.repr := by
    intro m n h
    have hmem : '-' ∈ m.repr.toList := by simp [h]
    rw [Nat.toList_repr] at hmem
    exact absurd (Nat.isDigit_of_mem_toDigits (by decide) (by decide) hmem) (by decide)
  intro m n h
  cases m with
  | ofNat m =>
    cases n with
    | ofNat n => exact congrArg Int.ofNat (natRepr_injective h)
    | negSucc n => exact absurd h (hsign m (n + 1))
  | negSucc m =>
    cases n with
    | ofNat n => exact absurd h.symm (hsign n (m + 1))
    | negSucc n =>
      have hsucc := natRepr_injective ((String.append_right_inj "-").mp h)
      exact congrArg Int.negSucc (Nat.succ.inj hsucc)

end Text

/-! ### Kinds -/

/-- The kind with the names of scalars in lower case. -/
def Kind.lowercase : Kind → Kind
  | .any => .any
  | .scalar name => .scalar (Case.lowercase name)
  | .reference name => .reference name
  | .array items => .array items.lowercase

/-- Whether the lines of a type with the kind show its constraints and its description. -/
def Kind.isConstrained : Kind → Bool
  | .scalar _ | .array _ => true
  | .any | .reference _ => false

/-- What the first line of a kind starts with. -/
def Kind.mark : Kind → String
  | .any => "\x7b"
  | .scalar _ | .array _ => "type: "
  | .reference _ => "$ref: "

/-- A line has one mark only. -/
theorem Kind.mark_eq {kind kind' : Kind} {line : String} (h : kind.mark.toList <+: line.toList)
    (h' : kind'.mark.toList <+: line.toList) : kind.mark = kind'.mark := by
  have hmarks : ∀ kind : Kind, kind.mark ∈ ["\x7b", "type: ", "$ref: "] := by
    intro kind
    cases kind <;> simp [mark]
  have hapart : ∀ s ∈ ["\x7b", "type: ", "$ref: "], ∀ t ∈ ["\x7b", "type: ", "$ref: "],
      s.toList <+: t.toList → s = t := by decide
  rcases List.prefix_or_prefix_of_prefix h h' with hp | hp
  · exact hapart _ (hmarks kind) _ (hmarks kind') hp
  · exact (hapart _ (hmarks kind') _ (hmarks kind) hp).symm

theorem Kind.isConstrained_iff_mark {kind : Kind} :
    kind.isConstrained = true ↔ kind.mark = "type: " := by
  cases kind <;> simp [isConstrained, mark]

theorem Kind.isConstrained_lowercase (kind : Kind) :
    kind.lowercase.isConstrained = kind.isConstrained := by
  cases kind <;> rfl

theorem Kind.isConstrained_iff {kind : Kind} :
    kind.isConstrained = true ↔ (∃ name, kind = .scalar name) ∨ ∃ items, kind = .array items := by
  cases kind <;> simp [isConstrained]

namespace Schema

theorem indent_injective (n : Nat) : Function.Injective (indent n) := fun _ _ h =>
  (List.map_inj_right fun _ _ => (String.append_right_inj (spaces n)).mp).mp h

theorem reference_injective : Function.Injective reference := by
  intro name name' h
  unfold reference at h
  rwa [String.append_left_inj, String.append_right_inj] at h

theorem mark_prefix_reference (name : String) : "$ref: ".toList <+: (reference name).toList :=
  prefix_append (prefix_append (by decide) name) "\""

/-- The first line of a kind starts with its mark. -/
theorem exists_mark_kindLines (kind : Kind) :
    ∃ line rest, kindLines kind = line :: rest ∧ kind.mark.toList <+: line.toList := by
  cases kind with
  | any => exact ⟨_, _, rfl, by decide⟩
  | scalar name =>
    have hmark : "type: ".toList <+: "type: ".toList := List.prefix_refl _
    exact ⟨_, _, rfl, prefix_append hmark _⟩
  | reference name => exact ⟨_, _, rfl, mark_prefix_reference name⟩
  | array items => exact ⟨_, _, rfl, show "type: ".toList <+: "type: array".toList by decide⟩

theorem mark_eq_of_kindLines_eq {kind kind' : Kind} (h : kindLines kind = kindLines kind') :
    kind.mark = kind'.mark := by
  obtain ⟨line, rest, hlines, hmark⟩ := exists_mark_kindLines kind
  obtain ⟨line', rest', hlines', hmark'⟩ := exists_mark_kindLines kind'
  rw [hlines, hlines'] at h
  exact Kind.mark_eq hmark ((List.cons.inj h).1 ▸ hmark')

/-- Kinds with the same lines are the same but for the case of scalar names. -/
theorem lowercase_of_kindLines_eq {kind kind' : Kind} (h : kindLines kind = kindLines kind') :
    kind.lowercase = kind'.lowercase := by
  -- the marks tell the sorts of kinds apart, but for a scalar and an array
  have hmark := mark_eq_of_kindLines_eq h
  induction kind generalizing kind' with
  | any =>
    cases kind' with
    | any => rfl
    | scalar name | reference name | array items => simp [Kind.mark] at hmark
  | scalar name =>
    cases kind' with
    | scalar name' =>
      have hname : "type: " ++ Case.lowercase name = "type: " ++ Case.lowercase name' :=
        (List.cons.inj h).1
      rw [Kind.lowercase, Kind.lowercase, (String.append_right_inj _).mp hname]
    | array items => exact absurd (List.cons.inj h).2 (by simp)
    | any | reference name' => simp [Kind.mark] at hmark
  | reference name =>
    cases kind' with
    | reference name' => rw [reference_injective (List.cons.inj h).1]
    | any | scalar name' | array items => simp [Kind.mark] at hmark
  | array items ih =>
    cases kind' with
    | array items' =>
      have hitems := indent_injective 2 (List.append_cancel_left h)
      rw [Kind.lowercase, Kind.lowercase, ih hitems (mark_eq_of_kindLines_eq hitems)]
    | scalar name => exact absurd (List.cons.inj h).2 (by simp)
    | any | reference name' => simp [Kind.mark] at hmark

theorem kindLines_eq_of_lowercase {kind kind' : Kind} (h : kind.lowercase = kind'.lowercase) :
    kindLines kind = kindLines kind' := by
  induction kind generalizing kind' with
  | any | scalar name | reference name =>
    cases kind' <;> simp_all [Kind.lowercase, kindLines]
  | array items ih =>
    cases kind' with
    | array items' => rw [kindLines, kindLines, ih (Kind.array.inj h)]
    | any | scalar name | reference name => cases h

/-! ### The parts of a type -/

/-- What the lines of a kind start with. -/
def kindStarts : List String := ["\x7b", "type: ", "$ref: ", "items:", "  "]

def boundStarts : List String := ["minLength: ", "maxLength: ", "min: ", "max: "]

theorem startIn_kindLines (kind : Kind) : StartIn kindStarts (kindLines kind) := by
  cases kind with
  | any => exact (show StartIn kindStarts ["\x7b\x7d"] by decide)
  | scalar name => exact StartIn.append_text (by decide) _
  | reference name => exact StartIn.append_text (StartIn.append_text (by decide) _) _
  | array items =>
    intro line hline
    rcases List.mem_append.mp hline with hline | hline
    · exact (show StartIn kindStarts ["type: array", "items:"] by decide) line hline
    · obtain ⟨line, -, rfl⟩ := List.mem_map.mp hline
      exact ⟨"  ", by decide, prefix_append (by decide) line⟩

theorem startIn_choiceLines (choices : List String) : StartIn ["enum: "] (choiceLines choices) := by
  unfold choiceLines
  split
  · exact StartIn.nil
  · exact StartIn.append_text (by decide) _

theorem startIn_boundLines (bounds : Option Bounds) : StartIn boundStarts (boundLines bounds) := by
  intro line hline
  obtain ⟨key, hkey, bound, rfl⟩ := exists_of_mem_boundLines hline
  have hkeys : ∀ key ∈ ["minLength", "maxLength", "min", "max"], key ++ ": " ∈ boundStarts := by
    decide
  exact ⟨key ++ ": ", hkeys key hkey, prefix_append (List.prefix_refl _) _⟩

theorem startIn_descriptionLines (description : String) :
    StartIn ["description: "] (descriptionLines description) := by
  unfold descriptionLines
  split
  · exact StartIn.nil
  · exact StartIn.append_text (StartIn.append_text (by decide) _) _

theorem choiceLines_injective : Function.Injective choiceLines := by
  intro choices choices' h
  unfold choiceLines at h
  split at h <;> split at h
  · simp_all
  · cases h
  · cases h
  · exact jsonArray_injective ((String.append_right_inj _).mp (List.cons.inj h).1)

theorem descriptionLines_injective : Function.Injective descriptionLines := by
  intro description description' h
  unfold descriptionLines at h
  split at h <;> split at h
  · simp_all
  · cases h
  · cases h
  · have htext := (String.append_left_inj _).mp (List.cons.inj h).1
    exact escape_injective ((String.append_right_inj _).mp htext)

theorem anyLine_injective : Function.Injective anyLine := by
  intro description description' h
  have hlength : ∀ text : String, anyLine "" ≠ "\x7b\"description\":" ++ jsonString text ++ "\x7d" := by
    intro text heq
    simpa [anyLine] using congrArg (·.toList.tail.head?) heq
  unfold anyLine at h
  split at h <;> split at h
  · simp_all
  · exact absurd h (hlength _)
  · exact absurd h.symm (hlength _)
  · have htext := (String.append_right_inj _).mp ((String.append_left_inj _).mp h)
    exact escape_injective (jsonString_injective htext)

/-- The bounds that are set. -/
def boundEntries (bounds : Option Bounds) : List (String × Int) :=
  (bounds.map Bounds.entries).getD []

/-- The line of a bound. -/
def boundLine (entry : String × Int) : String := entry.1 ++ ": " ++ entry.2.repr

theorem boundLines_eq_map (bounds : Option Bounds) :
    boundLines bounds = (boundEntries bounds).map boundLine := rfl

theorem colon_not_mem_of_mem_boundEntries {bounds : Option Bounds} {entry : String × Int}
    (h : entry ∈ boundEntries bounds) : ':' ∉ entry.1.toList := by
  have hkeys : ∀ key ∈ ["minLength", "maxLength", "min", "max"], ':' ∉ key.toList := by decide
  cases bounds with
  | none => cases h
  | some b =>
    obtain ⟨⟨key, bound⟩, hmem, heq⟩ := List.mem_filterMap.mp h
    obtain ⟨_, -, rfl⟩ := Option.map_eq_some_iff.mp heq
    exact hkeys _ (List.mem_map_of_mem (f := Prod.fst) hmem)

theorem boundLine_inj {entry entry' : String × Int} (h : ':' ∉ entry.1.toList)
    (h' : ':' ∉ entry'.1.toList) (heq : boundLine entry = boundLine entry') : entry = entry' := by
  have hread : ∀ {entry : String × Int}, ':' ∉ entry.1.toList →
      (boundLine entry).toList.takeWhile (· != ':') = entry.1.toList := by
    intro entry hkey
    rw [boundLine, String.append_assoc, String.toList_append, String.toList_append]
    refine (takeWhile_dropWhile_append (fun c hc => ?_) fun c hc => ?_).1
    · have hne : c ≠ ':' := fun h => hkey (h ▸ hc)
      simpa using hne
    · obtain rfl : ':' = c := by simpa using hc
      rfl
  have hkeys : entry.1 = entry'.1 := by
    rw [← String.toList_inj, ← hread h, heq, hread h']
  rw [boundLine, boundLine, hkeys, String.append_right_inj] at heq
  exact Prod.ext hkeys (intRepr_injective heq)

theorem boundLines_eq_iff {bounds bounds' : Option Bounds} :
    boundLines bounds = boundLines bounds' ↔ boundEntries bounds = boundEntries bounds' := by
  rw [boundLines_eq_map, boundLines_eq_map]
  refine ⟨fun h => ?_, fun h => by rw [h]⟩
  exact eq_of_map_eq boundLine_inj (fun _ he => colon_not_mem_of_mem_boundEntries he)
    (fun _ he => colon_not_mem_of_mem_boundEntries he) h

/-! ### Types -/

variable {t t' : FieldType} {description description' : String}

theorem typeLines_of_isConstrained (h : t.kind.isConstrained = true) (description : String) :
    typeLines t description = kindLines t.kind ++
      (choiceLines t.choices ++ (boundLines t.bounds ++ descriptionLines description)) := by
  obtain ⟨kind, choices, bounds⟩ := t
  cases kind with
  | scalar name | array items => simp [typeLines]
  | any | reference name => cases h

/-- What the lines of a type start with. -/
def typeStarts : List String := kindStarts ++ (["enum: "] ++ (boundStarts ++ ["description: "]))

theorem startIn_typeLines (t : FieldType) (description : String) :
    StartIn typeStarts (typeLines t description) := by
  by_cases h : t.kind.isConstrained = true
  · rw [typeLines_of_isConstrained h]
    exact (startIn_kindLines _).append ((startIn_choiceLines _).append
      ((startIn_boundLines _).append (startIn_descriptionLines _)))
  · obtain ⟨kind, choices, bounds⟩ := t
    cases kind with
    | any =>
      have hany : StartIn ["\x7b"] [anyLine description] := by
        unfold anyLine
        split
        · decide
        · exact StartIn.append_text (StartIn.append_text (by decide) _) _
      exact hany.mono (by decide)
    | reference name =>
      exact (startIn_kindLines (.reference name)).mono (List.subset_append_left _ _)
    | scalar name | array items => exact absurd rfl h

theorem exists_mark_typeLines (t : FieldType) (description : String) :
    ∃ line rest, typeLines t description = line :: rest ∧ t.kind.mark.toList <+: line.toList := by
  by_cases h : t.kind.isConstrained = true
  · obtain ⟨line, rest, hlines, hmark⟩ := exists_mark_kindLines t.kind
    exact ⟨line, _, by rw [typeLines_of_isConstrained h, hlines, List.cons_append], hmark⟩
  · obtain ⟨kind, choices, bounds⟩ := t
    cases kind with
    | any =>
      refine ⟨anyLine description, [], rfl, ?_⟩
      change "\x7b".toList <+: _
      unfold anyLine
      split
      · decide
      · exact prefix_append (prefix_append (by decide) _) _
    | reference name => exact ⟨_, [], rfl, mark_prefix_reference name⟩
    | scalar name | array items => exact absurd rfl h

theorem mark_eq_of_typeLines_eq (h : typeLines t description = typeLines t' description') :
    t.kind.mark = t'.kind.mark := by
  obtain ⟨line, rest, hlines, hmark⟩ := exists_mark_typeLines t description
  obtain ⟨line', rest', hlines', hmark'⟩ := exists_mark_typeLines t' description'
  rw [hlines, hlines'] at h
  exact Kind.mark_eq hmark ((List.cons.inj h).1 ▸ hmark')

/-- The lines of a scalar or an array come apart into those of its parts. -/
theorem parts_of_typeLines_eq (ht : t.kind.isConstrained = true)
    (ht' : t'.kind.isConstrained = true)
    (h : typeLines t description = typeLines t' description') :
    t.kind.lowercase = t'.kind.lowercase ∧ t.choices = t'.choices ∧
      boundEntries t.bounds = boundEntries t'.bounds ∧ description = description' := by
  rw [typeLines_of_isConstrained ht, typeLines_of_isConstrained ht'] at h
  have hdescription := startIn_descriptionLines description
  have hdescription' := startIn_descriptionLines description'
  have hbounds := (startIn_boundLines t.bounds).append hdescription
  have hbounds' := (startIn_boundLines t'.bounds).append hdescription'
  obtain ⟨hkind, h⟩ := append_inj_of_startIn (startIn_kindLines _) (startIn_kindLines _)
    ((startIn_choiceLines t.choices).append hbounds)
    ((startIn_choiceLines t'.choices).append hbounds') (by decide) h
  obtain ⟨hchoices, h⟩ := append_inj_of_startIn (startIn_choiceLines _) (startIn_choiceLines _)
    hbounds hbounds' (by decide) h
  obtain ⟨hbounds, h⟩ := append_inj_of_startIn (startIn_boundLines _) (startIn_boundLines _)
    hdescription hdescription' (by decide) h
  exact ⟨lowercase_of_kindLines_eq hkind, choiceLines_injective hchoices,
    boundLines_eq_iff.mp hbounds, descriptionLines_injective h⟩

/-- What types say that have the same lines. -/
theorem content_of_typeLines_eq (h : typeLines t description = typeLines t' description') :
    t.kind.lowercase = t'.kind.lowercase ∧
    (t.kind.isConstrained = true → t.choices = t'.choices ∧
      boundEntries t.bounds = boundEntries t'.bounds ∧ description = description') ∧
    (t.kind = .any → description = description') := by
  have hmark := mark_eq_of_typeLines_eq h
  by_cases ht : t.kind.isConstrained = true
  · have ht' : t'.kind.isConstrained = true := by
      rwa [Kind.isConstrained_iff_mark, ← hmark, ← Kind.isConstrained_iff_mark]
    obtain ⟨hkind, hparts⟩ := parts_of_typeLines_eq ht ht' h
    exact ⟨hkind, fun _ => hparts, fun _ => hparts.2.2⟩
  · obtain ⟨kind, choices, bounds⟩ := t
    obtain ⟨kind', choices', bounds'⟩ := t'
    cases kind with
    | any =>
      cases kind' with
      | any =>
        have hdescription := anyLine_injective (List.cons.inj h).1
        exact ⟨rfl, fun ht => absurd ht (by simp [Kind.isConstrained]), fun _ => hdescription⟩
      | scalar name | reference name | array items => simp [Kind.mark] at hmark
    | reference name =>
      cases kind' with
      | reference name' =>
        obtain rfl := reference_injective (List.cons.inj h).1
        exact ⟨rfl, fun ht => absurd ht (by simp [Kind.isConstrained]), nofun⟩
      | any | scalar name | array items => simp [Kind.mark] at hmark
    | scalar name | array items => exact absurd rfl ht

theorem typeLines_eq_of_content (hkind : t.kind.lowercase = t'.kind.lowercase)
    (hparts : t.kind.isConstrained = true → t.choices = t'.choices ∧
      boundEntries t.bounds = boundEntries t'.bounds ∧ description = description')
    (hany : t.kind = .any → description = description') :
    typeLines t description = typeLines t' description' := by
  by_cases ht : t.kind.isConstrained = true
  · have ht' : t'.kind.isConstrained = true := by
      rwa [← Kind.isConstrained_lowercase, ← hkind, Kind.isConstrained_lowercase]
    obtain ⟨hchoices, hbounds, rfl⟩ := hparts ht
    rw [typeLines_of_isConstrained ht, typeLines_of_isConstrained ht',
      kindLines_eq_of_lowercase hkind, hchoices, boundLines_eq_iff.mpr hbounds]
  · obtain ⟨kind, choices, bounds⟩ := t
    obtain ⟨kind', choices', bounds'⟩ := t'
    cases kind with
    | any =>
      obtain rfl := hany rfl
      cases kind' with
      | any => rfl
      | scalar name | reference name | array items => cases hkind
    | reference name =>
      cases kind' with
      | reference name' =>
        cases hkind
        rfl
      | any | scalar name | array items => cases hkind
    | scalar name | array items => exact absurd rfl ht

/-- When two types have the same lines, for all types with or without descriptions and at every
indentation: if and only if their kinds are the same but for the case of scalar names, and besides,
unless they are references, their descriptions are the same and, if they are scalars or arrays, so are
their choices and the bounds that are set. An empty description counts as none. -/
theorem typeLines_eq_iff (t t' : FieldType) (description description' : Option String) (n : Nat) :
    indent n (typeLines t (description.getD "")) = indent n (typeLines t' (description'.getD "")) ↔
      t.kind.lowercase = t'.kind.lowercase ∧
      ((∃ name, t.kind = .scalar name) ∨ (∃ items, t.kind = .array items) →
        t.choices = t'.choices ∧ boundEntries t.bounds = boundEntries t'.bounds ∧
        description.getD "" = description'.getD "") ∧
      (t.kind = .any → description.getD "" = description'.getD "") := by
  rw [← Kind.isConstrained_iff]
  constructor
  · intro h
    exact content_of_typeLines_eq (indent_injective n h)
  · rintro ⟨hkind, hparts, hany⟩
    rw [typeLines_eq_of_content hkind hparts hany]

/-- Arrays of arrays whose items are the same but for their case, arrays whose items are not, and a
scalar that is called as arrays are written. -/
theorem typeLines_eq_iff_nested :
    let nested (name : String) : FieldType := {
      kind := .array (.array (.scalar name))
      choices := ["a", "b"]
      bounds := some { max := some 5 } }
    indent 8 (typeLines (nested "String") "") = indent 8 (typeLines (nested "STRING") "") ∧
    indent 8 (typeLines (nested "String") "") ≠ indent 8 (typeLines (nested "Number") "") ∧
    indent 8 (typeLines { kind := .scalar "Array" } "") ≠
      indent 8 (typeLines { kind := .array .any } "") := by
  intro nested
  refine ⟨?_, fun h => ?_, fun h => ?_⟩
  · exact (typeLines_eq_iff (nested "String") (nested "STRING") none (some "") 8).mpr
      ⟨by decide, fun _ => ⟨rfl, rfl, rfl⟩, nofun⟩
  · have hkinds := ((typeLines_eq_iff (nested "String") (nested "Number") none none 8).mp h).1
    exact absurd hkinds (by decide)
  · have hkinds := ((typeLines_eq_iff _ _ none none 8).mp h).1
    exact absurd hkinds (by decide)

end Schema

end RouteDoc
