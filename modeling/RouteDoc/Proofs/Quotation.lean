import RouteDoc.Text.Escape

/-! Quotation. A text can be read back from a single-quoted scalar, from HTML entities and from a JSON
string literal, and what follows the quotation is left as it is. So no text can end its quotation, and
two texts with one quotation are the same. -/

namespace RouteDoc.Text

/-! ### Single quotes -/

/-- The text of a single-quoted scalar after its opening quote, and what follows the scalar. A doubled
quote stands for one quote, and a lone quote ends the scalar. -/
def scalarRest? : List Char → Option (List Char × List Char)
  | [] => none
  | '\'' :: '\'' :: cs => (scalarRest? cs).map fun read => ('\'' :: read.1, read.2)
  | '\'' :: cs => some ([], cs)
  | c :: cs => (scalarRest? cs).map fun read => (c :: read.1, read.2)

/-- The text of the single-quoted scalar at the start of a text, and what follows the scalar. -/
def readScalar? (text : String) : Option (String × String) :=
  match text.toList with
  | '\'' :: cs => (scalarRest? cs).map fun read => (String.ofList read.1, String.ofList read.2)
  | _ => none

theorem scalarRest?_cons {c : Char} (h : c ≠ '\'') (cs : List Char) :
    scalarRest? (c :: cs) = (scalarRest? cs).map fun read => (c :: read.1, read.2) := by
  rw [scalarRest?]
  · rintro rest rfl
    exact absurd rfl h
  · exact h

theorem scalarRest?_quote {rest : List Char} (h : rest.head? ≠ some '\'') :
    scalarRest? ('\'' :: rest) = some ([], rest) := by
  rw [scalarRest?]
  rintro after rfl
  exact h rfl

theorem scalarRest?_flatMap {rest : List Char} (h : rest.head? ≠ some '\'') (cs : List Char) :
    scalarRest? (cs.flatMap doubleQuote ++ '\'' :: rest) = some (cs, rest) := by
  induction cs with
  | nil => exact scalarRest?_quote h
  | cons c cs ih =>
    rw [List.flatMap_cons, List.append_assoc, doubleQuote]
    split
    · rename_i hc
      subst hc
      change scalarRest? ('\'' :: '\'' :: (cs.flatMap doubleQuote ++ '\'' :: rest)) = _
      rw [scalarRest?, ih]
      rfl
    · rename_i hc
      rw [List.singleton_append, scalarRest?_cons hc, ih]
      rfl

theorem readScalar?_quote {rest : String} (h : rest.toList.head? ≠ some '\'') (text : String) :
    readScalar? (quote text ++ rest) = some (text, rest) := by
  have hquoted : (quote text ++ rest).toList =
      '\'' :: (text.toList.flatMap doubleQuote ++ '\'' :: rest.toList) := by
    simp [quote]
  rw [readScalar?, hquoted]
  simp only [scalarRest?_flatMap h, Option.map_some, String.ofList_toList]

/-- A text without quotes is quoted as it is. -/
theorem quote_of_not_mem {text : String} (h : '\'' ∉ text.toList) : quote text = "'" ++ text ++ "'" := by
  have hdouble : ∀ cs : List Char, '\'' ∉ cs → cs.flatMap doubleQuote = cs := by
    intro cs hcs
    induction cs with
    | nil => rfl
    | cons c cs ih =>
      rw [List.mem_cons, not_or] at hcs
      rw [List.flatMap_cons, ih hcs.2, doubleQuote, if_neg (Ne.symm hcs.1), List.singleton_append]
  rw [quote, hdouble _ h, String.ofList_toList]

/-! ### Entities -/

/-- The five entities of markup. -/
def entities : List String := ["&amp;", "&lt;", "&gt;", "&quot;", "&#39;"]

/-- The characters with every entity decoded. -/
def decoded : List Char → List Char
  | [] => []
  | '&' :: 'a' :: 'm' :: 'p' :: ';' :: cs => '&' :: decoded cs
  | '&' :: 'l' :: 't' :: ';' :: cs => '<' :: decoded cs
  | '&' :: 'g' :: 't' :: ';' :: cs => '>' :: decoded cs
  | '&' :: 'q' :: 'u' :: 'o' :: 't' :: ';' :: cs => '"' :: decoded cs
  | '&' :: '#' :: '3' :: '9' :: ';' :: cs => '\'' :: decoded cs
  | c :: cs => c :: decoded cs

/-- The text with every entity decoded. -/
def unescape (text : String) : String := String.ofList (decoded text.toList)

/-- A character is written as one of the entities, or is none of the five and is left as it is. -/
theorem entity_cases (c : Char) : (∃ e ∈ entities, entity c = e.toList) ∨
    entity c = [c] ∧ c ∉ ['&', '<', '>', '"', '\''] := by
  unfold entity
  split
  case h_6 hamp hlt hgt hquot hapos =>
    refine .inr ⟨rfl, ?_⟩
    simp only [List.mem_cons, List.not_mem_nil, or_false, not_or]
    exact ⟨hamp, hlt, hgt, hquot, hapos⟩
  all_goals exact .inl (by decide)

theorem decoded_cons {c : Char} (h : c ≠ '&') (cs : List Char) :
    decoded (c :: cs) = c :: decoded cs := by
  rw [decoded]
  all_goals
    intros
    contradiction

theorem decoded_entity (c : Char) (cs : List Char) : decoded (entity c ++ cs) = c :: decoded cs := by
  unfold entity
  split
  case h_6 hamp _ _ _ _ => exact decoded_cons hamp cs
  all_goals rfl

theorem decoded_flatMap (cs : List Char) : decoded (cs.flatMap entity) = cs := by
  induction cs with
  | nil => rfl
  | cons c cs ih => rw [List.flatMap_cons, decoded_entity, ih]

theorem unescape_escape (text : String) : unescape (escape text) = text := by
  rw [unescape, escape, String.toList_ofList, decoded_flatMap, String.ofList_toList]

theorem escape_injective : Function.Injective escape :=
  Function.LeftInverse.injective unescape_escape

/-- None of the other four characters of markup is left. -/
theorem not_mem_escape {c : Char} (hc : c ∈ ['<', '>', '"', '\'']) (text : String) :
    c ∉ (escape text).toList := by
  have hentities : ∀ e ∈ entities, ∀ c ∈ ['<', '>', '"', '\''], c ∉ e.toList := by
    simp [entities]
  rw [escape, String.toList_ofList, List.mem_flatMap]
  rintro ⟨d, -, hd⟩
  rcases entity_cases d with ⟨e, he, heq⟩ | ⟨heq, hplain⟩
  · exact hentities e he c hc (heq ▸ hd)
  · rw [heq, List.mem_singleton] at hd
    exact hplain (hd ▸ List.mem_cons_of_mem _ hc)

theorem entity_prefix_of_flatMap {cs before after : List Char}
    (h : cs.flatMap entity = before ++ '&' :: after) :
    ∃ e ∈ entities, e.toList <+: '&' :: after := by
  have hentities : ∀ e ∈ entities, ∃ tail, e.toList = '&' :: tail ∧ '&' ∉ tail := by
    simp [entities]
  induction cs generalizing before with
  | nil => simp at h
  | cons c cs ih =>
    rw [List.flatMap_cons, List.append_eq_append_iff] at h
    rcases h with ⟨gap, -, hrest⟩ | ⟨gap, hfirst, hafter⟩
    · exact ih hrest
    -- the sign stands in the first entity, so it starts that entity
    cases gap with
    | nil =>
      have hrest : cs.flatMap entity = [] ++ '&' :: after := hafter.symm
      exact ih hrest
    | cons d gap =>
      obtain ⟨rfl, rfl⟩ := List.cons.inj hafter
      rcases entity_cases c with ⟨e, he, heq⟩ | ⟨heq, hplain⟩
      · obtain ⟨tail, htail, hnot⟩ := hentities e he
        refine ⟨e, he, ?_⟩
        rw [heq, htail] at hfirst
        cases before with
        | nil =>
          rw [htail, hfirst]
          exact List.prefix_append _ _
        | cons b before => exact absurd (by simp [(List.cons.inj hfirst).2]) hnot
      · have hc : '&' ∈ [c] := by
          rw [← heq, hfirst]
          simp
        exact absurd (List.mem_singleton.mp hc ▸ by decide) hplain

/-! ### JSON -/

/-- The value of a hexadecimal digit. -/
def hexValue (c : Char) : Nat :=
  if c.toNat < 58 then c.toNat - 48 else c.toNat - 87

/-- The character that a letter after a backslash stands for. -/
def unescaped : Char → Char
  | 'b' => '\x08'
  | 't' => '\t'
  | 'n' => '\n'
  | 'f' => '\x0c'
  | 'r' => '\r'
  | c => c

/-- The text of a JSON string literal after its opening quote, and what follows the literal. -/
def literalRest? : List Char → Option (List Char × List Char)
  | [] => none
  | '"' :: cs => some ([], cs)
  | '\\' :: 'u' :: '0' :: '0' :: high :: low :: cs =>
    (literalRest? cs).map fun read =>
      (Char.ofNat (16 * hexValue high + hexValue low) :: read.1, read.2)
  | '\\' :: c :: cs => (literalRest? cs).map fun read => (unescaped c :: read.1, read.2)
  | c :: cs => (literalRest? cs).map fun read => (c :: read.1, read.2)

theorem literalRest?_jsonChar (c : Char) (cs : List Char) :
    literalRest? (jsonChar c ++ cs) = (literalRest? cs).map fun read => (c :: read.1, read.2) := by
  have hhex : ∀ n < 32, Char.ofNat
      (16 * hexValue (hexDigit (n / 16)) + hexValue (hexDigit (n % 16))) = Char.ofNat n := by
    decide
  unfold jsonChar
  split
  case h_8 hquote hslash _ _ _ _ _ =>
    split
    · rename_i hcontrol
      change literalRest? ('\\' :: 'u' :: '0' :: '0' :: hexDigit (c.toNat / 16) ::
        hexDigit (c.toNat % 16) :: cs) = _
      rw [literalRest?, hhex c.toNat hcontrol, Char.ofNat_toNat]
    · rw [List.singleton_append, literalRest?]
      · exact hquote
      · exact fun _ _ _ hc _ => hslash hc
      · exact fun _ _ hc _ => hslash hc
  all_goals rfl

theorem literalRest?_flatMap (cs rest : List Char) :
    literalRest? (cs.flatMap jsonChar ++ '"' :: rest) = some (cs, rest) := by
  induction cs with
  | nil => rfl
  | cons c cs ih =>
    rw [List.flatMap_cons, List.append_assoc, literalRest?_jsonChar, ih]
    rfl

/-- Two texts that start with literals and are the same start with the same literal. -/
theorem jsonString_append_inj {s t x y : String} (h : jsonString s ++ x = jsonString t ++ y) :
    s = t ∧ x = y := by
  have htoList : ∀ s x : String, (jsonString s ++ x).toList =
      '"' :: (s.toList.flatMap jsonChar ++ '"' :: x.toList) := by
    simp [jsonString]
  have hrest := congrArg String.toList h
  rw [htoList, htoList] at hrest
  have hread := congrArg literalRest? (List.cons.inj hrest).2
  rw [literalRest?_flatMap, literalRest?_flatMap, Option.some.injEq, Prod.mk.injEq] at hread
  exact ⟨String.toList_inj.mp hread.1, String.toList_inj.mp hread.2⟩

theorem jsonString_injective : Function.Injective jsonString := by
  intro s t h
  exact (jsonString_append_inj (x := "") (y := "") (by rw [h])).1

/-- What follows the first item of an array. -/
def afterItem : List String → String
  | [] => "]"
  | text :: texts => "," ++ (jsonString text ++ afterItem texts)

theorem jsonArray_nil : jsonArray [] = "[]" := rfl

theorem jsonArray_cons (text : String) (texts : List String) :
    jsonArray (text :: texts) = "[" ++ (jsonString text ++ afterItem texts) := by
  have hitems : ",".intercalate ((text :: texts).map jsonString) ++ "]" =
      jsonString text ++ afterItem texts := by
    induction texts generalizing text with
    | nil => simp [afterItem]
    | cons next texts ih =>
      have hnext := ih next
      rw [List.map_cons] at hnext
      rw [List.map_cons, List.map_cons, String.intercalate_cons_cons, String.append_assoc, hnext,
        afterItem, String.append_assoc]
  rw [jsonArray, String.append_assoc, hitems]

theorem afterItem_injective : Function.Injective afterItem := by
  have hends : ∀ x : String, "]" ≠ "," ++ x := by
    intro x h
    simpa using congrArg (·.toList.head?) h
  intro texts texts' h
  induction texts generalizing texts' with
  | nil =>
    cases texts' with
    | nil => rfl
    | cons text' texts' => exact absurd h (hends _)
  | cons text texts ih =>
    cases texts' with
    | nil => exact absurd h.symm (hends _)
    | cons text' texts' =>
      obtain ⟨rfl, hrest⟩ := jsonString_append_inj ((String.append_right_inj ",").mp h)
      rw [ih hrest]

theorem jsonArray_injective : Function.Injective jsonArray := by
  have hempty : ∀ text texts, jsonArray [] ≠ jsonArray (text :: texts) := by
    intro text texts h
    rw [jsonArray_nil, jsonArray_cons] at h
    simpa [jsonString] using congrArg (·.toList.tail.head?) h
  intro texts texts' h
  cases texts with
  | nil =>
    cases texts' with
    | nil => rfl
    | cons text' texts' => exact absurd h (hempty _ _)
  | cons text texts =>
    cases texts' with
    | nil => exact absurd h.symm (hempty _ _)
    | cons text' texts' =>
      rw [jsonArray_cons, jsonArray_cons] at h
      obtain ⟨rfl, hrest⟩ := jsonString_append_inj ((String.append_right_inj "[").mp h)
      rw [afterItem_injective hrest]

/-! ### The law -/

/-- What is quoted, for every text. A scanner of single-quoted scalars gives the text of a scalar back
and leaves what follows, unless that starts with a quote, and the same holds of an escaped text between
quotes. An escaped text has none of the other characters of markup, each `&` in it starts an entity, and
decoding gives the text back, so no two texts are escaped alike. -/
theorem quotation_read_back (text : String) :
    (∀ rest : String, rest.toList.head? ≠ some '\'' →
      readScalar? (quote text ++ rest) = some (text, rest) ∧
      readScalar? ("'" ++ escape text ++ "'" ++ rest) = some (escape text, rest)) ∧
    (∀ c ∈ ['<', '>', '"', '\''], c ∉ (escape text).toList) ∧
    (∀ before after, (escape text).toList = before ++ '&' :: after →
      ∃ e ∈ entities, e.toList <+: '&' :: after) ∧
    unescape (escape text) = text ∧
    ∀ other, escape other = escape text → other = text := by
  have hquote : '\'' ∉ (escape text).toList := not_mem_escape (by decide) text
  refine ⟨fun rest hrest => ⟨readScalar?_quote hrest text, ?_⟩, fun c hc => not_mem_escape hc text,
    fun before after h => ?_, unescape_escape text, fun other h => escape_injective h⟩
  · rw [← quote_of_not_mem hquote]
    exact readScalar?_quote hrest (escape text)
  · rw [escape, String.toList_ofList] at h
    exact entity_prefix_of_flatMap h

/-- Quotes at both ends and in a row, and an entity in the text itself. -/
theorem quotation_read_back_quotes :
    readScalar? ("'''it''''s &amp; <b>'''" ++ ": x'") = some ("'it''s &amp; <b>'", ": x'") ∧
    unescape "&#39;it&#39;&#39;s &amp;amp; &lt;b&gt;&#39;" = "'it''s &amp; <b>'" := by
  obtain ⟨hscalar, -, -, hdecoded, -⟩ := quotation_read_back "'it''s &amp; <b>'"
  exact ⟨(hscalar ": x'" (by decide)).1, hdecoded⟩

end RouteDoc.Text
