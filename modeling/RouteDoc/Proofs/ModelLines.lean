import Mathlib.Data.List.Forall2
import RouteDoc.Proofs.ResponseKeys

/-! The lines of models. The depths of the lines say which model and which field each is for, so a
reader that knows the depths of the keys alone finds the names of the models, the fields that each
requires, and the fields that each has, with the lines of their types. Tables with the same lines have
the same models with the same fields, and the same fields of them are optional. -/

namespace RouteDoc

open Text

/-- A model as its lines show it. -/
structure ShownModel where
  name : String
  /-- The entries below the key of the required fields, if it is there. -/
  required : Option (List String)
  /-- The names below the key of the fields, each with the lines below it, if that key is there. -/
  properties : Option (List (String × List String))
  deriving DecidableEq, Repr

/-! ### The reader -/

/-- The lines below a key of a model, if it is there. -/
def below? (key : String) (lines : List String) : Option (List String) :=
  ((sections 4 lines).find? (·.1 = key)).map Prod.snd

/-- The model with a first line and the lines below it. -/
def ShownModel.ofSection (part : String × List String) : ShownModel where
  name := keyOf part.1
  required := (below? "    required:" part.2).map (·.filterMap (valueOf? "      - "))
  properties := (below? "    properties:" part.2).map fun lines =>
    (sections 6 lines).map fun part => (keyOf part.1, part.2)

/-- The models among lines. -/
def readModels (lines : List String) : List ShownModel :=
  (sections 2 lines).map ShownModel.ofSection

/-- The names of the fields, each with whether it is optional: it is if the model does not require
it. -/
def ShownModel.fields (m : ShownModel) : List (String × Bool) :=
  (m.properties.getD []).map fun part => (part.1, decide (part.1 ∉ m.required.getD []))

/-! ### Names -/

/-- A word, or a word that is marked as the name of a list. -/
def IsFieldName (name : String) : Prop :=
  ∃ word, IsName word ∧ (name = word ∨ name = word ++ "[]")

/-- The names of models are words, and so are those of their fields but for the mark of a list. -/
def Named (models : List (String × Fields)) : Prop :=
  ∀ m ∈ models, IsName m.1 ∧ ∀ e ∈ m.2.entries, IsFieldName e.1

theorem IsFieldName.isKey {name : String} (h : IsFieldName name) : IsKey name := by
  obtain ⟨word, hword, rfl | rfl⟩ := h
  · exact isKey_of_isName hword
  · obtain ⟨⟨hne, hblank⟩, hcolon⟩ := isKey_of_isName hword
    refine ⟨⟨by simp, fun c hc => ?_⟩, by simpa using hcolon⟩
    rw [String.toList_append, List.mem_append] at hc
    rcases hc with hc | hc
    · exact hblank c hc
    · have hmark : "[]".toList.all (!isBlank ·) = true := by decide
      simpa using List.all_eq_true.mp hmark c hc

/-! ### The sections of a model -/

namespace Schema

/-- The lines below the name of a model. -/
def modelRows (fields : Fields) : List String :=
  "    type: object" :: (requiredLines fields ++ propertiesLines fields)

theorem modelLines_eq_cons (name : String) (fields : Fields) :
    modelLines name fields = ("  " ++ name ++ ":") :: modelRows fields := rfl

/-- The sections of a model: its type, the fields that it requires, and its fields. -/
def modelParts (fields : Fields) : List (String × List String) :=
  ("    type: object", []) ::
    ((if requiredNames fields = [] then []
      else [("    required:", (requiredNames fields).map ("      - " ++ ·))]) ++
    if fields.entries = [] then []
    else [("    properties:", fields.entries.flatMap fun e => propertyLines e.1 e.2)])

/-- The section of a field. -/
def propertyPart (e : String × Field) : String × List String :=
  ("      " ++ e.1 ++ ":", indent 8 (typeLines e.2.type e.2.description))

theorem propertyLines_eq_flatMap (fields : Fields) :
    (fields.entries.flatMap fun e => propertyLines e.1 e.2) =
      (fields.entries.map propertyPart).flatMap fun part => part.1 :: part.2 := by
  rw [List.flatMap_map]
  rfl

theorem modelRows_eq_flatMap (fields : Fields) :
    modelRows fields = (modelParts fields).flatMap fun part => part.1 :: part.2 := by
  have hrequired : requiredLines fields =
      (if requiredNames fields = [] then []
        else [("    required:", (requiredNames fields).map ("      - " ++ ·))]).flatMap
        fun part => part.1 :: part.2 := by
    unfold requiredLines
    split <;> simp_all
  have hproperties : propertiesLines fields =
      (if fields.entries = [] then []
        else [("    properties:", fields.entries.flatMap fun e => propertyLines e.1 e.2)]).flatMap
        fun part => part.1 :: part.2 := by
    unfold propertiesLines
    split <;> simp_all [Table.isEmpty]
  rw [modelRows, modelParts, List.flatMap_cons, List.flatMap_append, hrequired, hproperties]
  rfl

theorem deep_propertyLines {fields : Fields} {line : String}
    (h : line ∈ fields.entries.flatMap fun e => propertyLines e.1 e.2) : Deep 6 line := by
  obtain ⟨e, -, hline⟩ := List.mem_flatMap.mp h
  rcases List.mem_cons.mp hline with rfl | hline
  · exact (((show Indented 6 "      " by decide).append e.1).append ":").deep
  · exact (indented_of_mem_indent hline).deep.mono (by decide)

theorem deep_modelParts {fields : Fields} {part : String × List String}
    (h : part ∈ modelParts fields) : isAt 4 part.1 = true ∧ ∀ line ∈ part.2, Deep 6 line := by
  rcases List.mem_cons.mp h with rfl | h
  · exact ⟨by decide, by simp⟩
  rcases List.mem_append.mp h with h | h
  · split at h
    · cases h
    · rw [List.mem_singleton.mp h]
      refine ⟨show isAt 4 "    required:" = true by decide, fun line hline => ?_⟩
      obtain ⟨name, -, rfl⟩ := List.mem_map.mp hline
      exact ((show Indented 6 "      - " by decide).append name).deep
  · split at h
    · cases h
    · rw [List.mem_singleton.mp h]
      exact ⟨show isAt 4 "    properties:" = true by decide,
        fun line hline => deep_propertyLines hline⟩

theorem sections_modelRows (fields : Fields) : sections 4 (modelRows fields) = modelParts fields := by
  rw [modelRows_eq_flatMap]
  exact sections_flatMap fun part hpart => ⟨(deep_modelParts hpart).1,
    fun line hline => isAt_of_deep ((deep_modelParts hpart).2 line hline) (by decide)⟩

theorem deep_modelRows {fields : Fields} {line : String} (h : line ∈ modelRows fields) :
    Deep 4 line := by
  rw [modelRows_eq_flatMap] at h
  obtain ⟨part, hpart, hline⟩ := List.mem_flatMap.mp h
  obtain ⟨hkey, hbelow⟩ := deep_modelParts hpart
  rcases List.mem_cons.mp hline with rfl | hline
  · exact deep_of_isAt hkey (by decide)
  · exact (hbelow line hline).mono (by decide)

theorem below?_required (fields : Fields) : below? "    required:" (modelRows fields) =
    if requiredNames fields = [] then none
    else some ((requiredNames fields).map ("      - " ++ ·)) := by
  rw [below?, sections_modelRows, modelParts]
  by_cases hnames : requiredNames fields = []
  · by_cases hentries : fields.entries = [] <;> simp [hnames, hentries]
  · simp [hnames]

theorem below?_properties (fields : Fields) : below? "    properties:" (modelRows fields) =
    if fields.entries = [] then none
    else some (fields.entries.flatMap fun e => propertyLines e.1 e.2) := by
  rw [below?, sections_modelRows, modelParts]
  by_cases hnames : requiredNames fields = []
  · by_cases hentries : fields.entries = [] <;> simp [hnames, hentries]
  · by_cases hentries : fields.entries = [] <;> simp [hnames, hentries]

/-- A line with a key at the depth of models or of fields. -/
theorem isAt_and_keyOf_line {n : Nat} {start key : String} (h : IsKey key)
    (hstart : start.toList = List.replicate n ' ') :
    isAt n (start ++ key ++ ":") = true ∧ keyOf (start ++ key ++ ":") = key := by
  refine isAt_and_keyOf h ?_
  rw [String.append_assoc, String.toList_append, String.toList_append, hstart]
  rfl

theorem sections_properties {fields : Fields} (h : ∀ e ∈ fields.entries, IsKey e.1) :
    (sections 6 (fields.entries.flatMap fun e => propertyLines e.1 e.2)).map
      (fun part => (keyOf part.1, part.2)) =
      fields.entries.map fun e => (e.1, indent 8 (typeLines e.2.type e.2.description)) := by
  have hkeys : ∀ e ∈ fields.entries, isAt 6 (propertyPart e).1 = true ∧ keyOf (propertyPart e).1 = e.1 :=
    fun e he => isAt_and_keyOf_line (h e he) (by decide)
  rw [propertyLines_eq_flatMap, sections_flatMap, List.map_map]
  · refine List.map_congr_left fun e he => ?_
    exact Prod.ext (hkeys e he).2 rfl
  · intro part hpart
    obtain ⟨e, he, rfl⟩ := List.mem_map.mp hpart
    exact ⟨(hkeys e he).1, fun line hline =>
      isAt_of_deep (indented_of_mem_indent hline).deep (by decide)⟩

theorem filterMap_required (names : List String) :
    (names.map ("      - " ++ ·)).filterMap (valueOf? "      - ") = names := by
  induction names with
  | nil => rfl
  | cons name names ih =>
    rw [List.map_cons, List.filterMap_cons_some (valueOf?_append "      - " name), ih]

end Schema

open Schema

/-! ### Reading models -/

/-- What the lines of a model show. -/
def ShownModel.ofModel (m : String × Fields) : ShownModel where
  name := m.1
  required := if requiredNames m.2 = [] then none else some (requiredNames m.2)
  properties :=
    if m.2.entries = [] then none
    else some (m.2.entries.map fun e => (e.1, indent 8 (typeLines e.2.type e.2.description)))

theorem ShownModel.ofSection_model {m : String × Fields} (hname : IsKey m.1)
    (hfields : ∀ e ∈ m.2.entries, IsKey e.1) :
    ofSection ("  " ++ m.1 ++ ":", modelRows m.2) = ofModel m := by
  have hkey : keyOf ("  " ++ m.1 ++ ":") = m.1 := (isAt_and_keyOf_line (n := 2) hname (by decide)).2
  rw [ofSection, ofModel, hkey, below?_required, below?_properties]
  congr 1
  · split
    · rfl
    · rw [Option.map_some, filterMap_required]
  · split
    · rfl
    · rw [Option.map_some, sections_properties hfields]

theorem isAt_modelRows {fields : Fields} : ∀ line ∈ modelRows fields, isAt 2 line = false :=
  fun _ hline => isAt_of_deep (deep_modelRows hline) (by decide)

theorem readModels_modelLines {m : String × Fields} (hname : IsKey m.1)
    (hfields : ∀ e ∈ m.2.entries, IsKey e.1) :
    readModels (modelLines m.1 m.2) = [.ofModel m] := by
  have hkey : isAt 2 ("  " ++ m.1 ++ ":") = true := (isAt_and_keyOf_line hname (by decide)).1
  rw [readModels, modelLines_eq_cons, sections_cons_of_forall hkey isAt_modelRows, List.map_singleton,
    ShownModel.ofSection_model hname hfields]

/-- The section of a model. -/
def modelPart (m : String × Fields) : String × List String :=
  ("  " ++ m.1 ++ ":", modelRows m.2)

/-- The section of the model of default responses. -/
def defaultPart : String × List String :=
  ("  " ++ defaultModel ++ ": \x7b\x7d", [])

theorem sections_definitionLines {models : List (String × Fields)} (h : ∀ m ∈ models, IsKey m.1) :
    sections 2 (definitionLines models) = models.map modelPart ++ [defaultPart] := by
  have hlines : definitionLines models = ["definitions:"] ++
      (models.map modelPart ++ [defaultPart]).flatMap fun part => part.1 :: part.2 := by
    rw [List.flatMap_append, List.flatMap_map]
    rfl
  rw [hlines, sections_append_of_forall (by decide), sections_flatMap]
  intro part hpart
  rcases List.mem_append.mp hpart with hpart | hpart
  · obtain ⟨m, hm, rfl⟩ := List.mem_map.mp hpart
    exact ⟨(isAt_and_keyOf_line (h m hm) (by decide)).1, isAt_modelRows⟩
  · rw [List.mem_singleton.mp hpart]
    decide

/-- The reader finds every model, and the model of default responses after them. -/
theorem readModels_definitionLines {models : List (String × Fields)}
    (h : ∀ m ∈ models, IsKey m.1 ∧ ∀ e ∈ m.2.entries, IsKey e.1) :
    readModels (definitionLines models) =
      models.map ShownModel.ofModel ++ [⟨defaultModel, none, none⟩] := by
  have hdefault : ShownModel.ofSection defaultPart = ⟨defaultModel, none, none⟩ := by decide
  rw [readModels, sections_definitionLines fun m hm => (h m hm).1, List.map_append, List.map_map,
    List.map_singleton, hdefault]
  congr 1
  exact List.map_congr_left fun m hm => ShownModel.ofSection_model (h m hm).1 (h m hm).2

/-- A field is required if and only if it is not optional. -/
theorem mem_requiredNames_iff {fields : Fields} {e : String × Field} (he : e ∈ fields.entries) :
    e.1 ∈ requiredNames fields ↔ e.2.isOptional = false := by
  constructor
  · intro hmem
    obtain ⟨e', he', hname⟩ := List.mem_map.mp hmem
    obtain ⟨hentry, hrequired⟩ := List.mem_filter.mp he'
    have hfield : e'.2 = e.2 := by
      have hfind := Table.find?_of_mem hentry
      rw [hname, Table.find?_of_mem he] at hfind
      exact (Option.some.inj hfind).symm
    simpa [hfield] using hrequired
  · intro hrequired
    exact List.mem_map_of_mem (List.mem_filter.mpr ⟨he, by simp [hrequired]⟩)

theorem required_ofModel (m : String × Fields) :
    (ShownModel.ofModel m).required.getD [] = requiredNames m.2 := by
  by_cases hnames : requiredNames m.2 = [] <;> simp [ShownModel.ofModel, hnames]

theorem properties_ofModel (m : String × Fields) : (ShownModel.ofModel m).properties.getD [] =
    m.2.entries.map fun e => (e.1, indent 8 (typeLines e.2.type e.2.description)) := by
  by_cases hentries : m.2.entries = [] <;> simp [ShownModel.ofModel, hentries]

theorem fields_ofModel (m : String × Fields) :
    (ShownModel.ofModel m).fields = m.2.entries.map fun e => (e.1, e.2.isOptional) := by
  rw [ShownModel.fields, required_ofModel, properties_ofModel, List.map_map]
  refine List.map_congr_left fun e he => Prod.ext rfl ?_
  have hiff := mem_requiredNames_iff he
  cases hoptional : e.2.isOptional <;> simp [hiff, hoptional]

/-! ### The law -/

/-- What a model shows of its fields. -/
structure ShownModel.Shows (shown : ShownModel) (m : String × Fields) : Prop where
  name : shown.name = m.1
  /-- Required are the fields that are not optional, in their order. -/
  required : shown.required.getD [] = (m.2.entries.filter fun e => !e.2.isOptional).map Prod.fst
  properties : (shown.properties.getD []).map Prod.fst = m.2.entries.map Prod.fst
  subset : ∀ field ∈ shown.required.getD [], field ∈ (shown.properties.getD []).map Prod.fst
  /-- The key of the required fields is there if and only if there is one. -/
  isSome_required : shown.required.isSome = true ↔ ∃ e ∈ m.2.entries, e.2.isOptional = false
  isSome_properties : shown.properties.isSome = true ↔ m.2.entries ≠ []

theorem ShownModel.shows_ofModel (m : String × Fields) : (ofModel m).Shows m where
  name := rfl
  required := required_ofModel m
  properties := by
    rw [properties_ofModel, List.map_map]
    rfl
  subset := by
    rw [required_ofModel, properties_ofModel, List.map_map]
    intro field hfield
    obtain ⟨e, he, rfl⟩ := List.mem_map.mp hfield
    exact List.mem_map_of_mem (List.mem_filter.mp he).1
  isSome_required := by
    have hnames : requiredNames m.2 = [] ↔ ¬ ∃ e ∈ m.2.entries, e.2.isOptional = false := by
      simp [requiredNames, Table.keys, Table.filter]
    by_cases h : requiredNames m.2 = []
    · simpa [ofModel, h] using hnames.mp h
    · simpa [ofModel, h] using not_not.mp (mt hnames.mpr h)
  isSome_properties := by
    by_cases h : m.2.entries = [] <;> simp [ofModel, h]

/-- Definitions can be read back, for any models whose names are words and whose fields' names are
words, with or without the mark of a list. Models with the same lines have the same names in the same
order, with the same fields in the same order, and the same of these are optional. The reader finds
each model: required are exactly its fields that are not optional, all of them stand among its fields,
and the keys of both lists are there if the lists are not empty. -/
theorem Schema.definitionLines_read_back {models models' : List (String × Fields)}
    (hnames : Named models) (hnames' : Named models')
    (h : definitionLines models = definitionLines models') :
    models.map Prod.fst = models'.map Prod.fst ∧
    models.map (fun m => m.2.entries.map fun e => (e.1, e.2.isOptional)) =
      models'.map (fun m => m.2.entries.map fun e => (e.1, e.2.isOptional)) ∧
    ∃ shown last, readModels (definitionLines models) = shown ++ [last] ∧
      List.Forall₂ ShownModel.Shows shown models := by
  have hkeys : ∀ {models : List (String × Fields)}, Named models →
      ∀ m ∈ models, IsKey m.1 ∧ ∀ e ∈ m.2.entries, IsKey e.1 := fun hnames m hm =>
    ⟨isKey_of_isName (hnames m hm).1, fun e he => ((hnames m hm).2 e he).isKey⟩
  have hread := readModels_definitionLines (hkeys hnames)
  have hshown : models.map ShownModel.ofModel = models'.map ShownModel.ofModel := by
    have hread' := readModels_definitionLines (hkeys hnames')
    rw [← h, hread] at hread'
    exact List.append_cancel_right hread'
  refine ⟨?_, ?_, _, _, hread, ?_⟩
  · have hmap := congrArg (List.map ShownModel.name) hshown
    rwa [List.map_map, List.map_map] at hmap
  · have hmap := congrArg (List.map ShownModel.fields) hshown
    rw [List.map_map, List.map_map] at hmap
    simpa only [Function.comp_def, fields_ofModel] using hmap
  · rw [List.forall₂_map_left_iff, List.forall₂_same]
    exact fun m _ => ShownModel.shows_ofModel m

/-- A model without fields, and one with a list that is optional and a field that is not. -/
theorem Schema.definitionLines_read_back_empty_model :
    let tags (type : String) : Field := {
      type := { kind := .array (.scalar type) }, isOptional := true, description := "all tags"
      isHeader := false }
    let id (type : String) : Field := {
      type := { kind := .scalar type }, isOptional := false, description := "", isHeader := false }
    let models (type : String) : List (String × Fields) :=
      [("Empty", ∅), ("Item", .ofList [("tags[]", tags type), ("id", id type)])]
    definitionLines (models "String") = definitionLines (models "STRING") ∧
    ∃ shown last, readModels (definitionLines (models "String")) = shown ++ [last] ∧
      List.Forall₂ ShownModel.Shows shown (models "String") ∧
      (models "String").map (fun m => m.2.entries.map fun e => (e.1, e.2.isOptional)) =
        [[], [("tags[]", true), ("id", false)]] := by
  intro tags id models
  have hnamed : ∀ type, Named (models type) := by
    intro type m hm
    simp only [models, List.mem_cons, List.not_mem_nil, or_false] at hm
    rcases hm with rfl | rfl
    · exact ⟨by decide, nofun⟩
    · refine ⟨show IsName "Item" by decide, fun e he => ?_⟩
      have he : e ∈ [("tags[]", tags type), ("id", id type)] := he
      simp only [List.mem_cons, List.not_mem_nil, or_false] at he
      rcases he with rfl | rfl
      · exact ⟨"tags", by decide, .inr (show "tags[]" = "tags" ++ "[]" by decide)⟩
      · exact ⟨"id", by decide, .inl rfl⟩
  have hlines : definitionLines (models "String") = definitionLines (models "STRING") := by
    decide +kernel
  have hfields : (models "String").map (fun m => m.2.entries.map fun e => (e.1, e.2.isOptional)) =
      [[], [("tags[]", true), ("id", false)]] := by decide +kernel
  obtain ⟨-, -, shown, last, hread, hshown⟩ :=
    Schema.definitionLines_read_back (hnamed "String") (hnamed "STRING") hlines
  exact ⟨hlines, shown, last, hread, hshown, hfields⟩

end RouteDoc
