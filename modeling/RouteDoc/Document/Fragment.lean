import RouteDoc.Route
import RouteDoc.Text.Class
import RouteDoc.Text.Escape

/-! The fragments of which a document is made, each a fixed layout that texts are put into. A text
with line feeds makes several lines, and no line keeps white space at its end. A fragment is rendered
under its name, with its values in slots that have names too. -/

namespace RouteDoc

open Text

/-- The lines of a layout: each is divided at its line feeds, and loses the white space at its
end. -/
def layout (rows : List String) : List String :=
  rows.flatMap fun row =>
    (row.toList.splitOn '\n').map fun line => String.ofList (trimEnd line)

/-- The start of a document. -/
structure Head where
  title : String
  host : String
  basePath : String
  deriving DecidableEq, Repr

def Head.rows (h : Head) : List String :=
  [ "swagger: \"2.0\"",
    "info:",
    "  version: \"0.0.1\"",
    "  title: " ++ quote h.title,
    "schemes:",
    "- http",
    "- https",
    "host: " ++ quote h.host,
    "basePath: " ++ h.basePath,
    "paths:" ]

/-- The start of a path, with the controller of its routes. -/
structure PathHeader where
  path : String
  controller : String
  /-- Whether the path has the mark of the default quota. -/
  hasQuota : Bool
  deriving DecidableEq, Repr

/-- The mark of the default quota. -/
def quotaRows : List String :=
  ["    x-a127-apply:", "      defaultQuota: \x7b\x7d"]

def PathHeader.rows (h : PathHeader) : List String :=
  ["  " ++ h.path ++ ":", "    x-swagger-router-controller: " ++ quote h.controller] ++
    if h.hasQuota then quotaRows else []

/-- One method of a path. -/
structure Operation where
  method : String
  summary : String
  /-- The indentation indicator of the description. -/
  indicator : String
  description : List String
  operationId : String
  consumes : List String
  produces : List String
  tag : String
  /-- The lines of the parameters. -/
  parameters : List String
  defaultModel : String
  responses : List Response
  deriving DecidableEq, Repr

def Response.rows (r : Response) : List String :=
  [ "        " ++ r.code ++ ":",
    "          description: '" ++ escape r.description ++ "'",
    "          schema:",
    "            $ref: \"#/definitions/" ++ r.model ++ "\"" ]

def Operation.rows (o : Operation) : List String :=
  [ "    " ++ o.method ++ ":",
    "      summary: " ++ o.summary,
    "      description: |" ++ o.indicator ] ++
  o.description.map ("        " ++ ·) ++
  ["      operationId: " ++ o.operationId, "      consumes:"] ++
  o.consumes.map ("        - " ++ ·) ++
  ["      produces:"] ++
  o.produces.map ("        - " ++ ·) ++
  ["      tags:", "        - " ++ o.tag] ++
  (if o.parameters.isEmpty then [] else "      parameters:" :: o.parameters) ++
  [ "      responses:",
    "        default:",
    "          description: Default Response",
    "          schema:",
    "            $ref: \"#/definitions/" ++ o.defaultModel ++ "\"" ] ++
  o.responses.flatMap Response.rows

/-- A parameter in a header, in the path or in the query. -/
structure ParameterEntry where
  location : String
  name : String
  description : String
  required : String
  /-- The lines of the type. -/
  typeLines : List String
  deriving DecidableEq, Repr

def ParameterEntry.rows (p : ParameterEntry) : List String :=
  [ "        - in: " ++ p.location,
    "          name: " ++ p.name,
    "          description: '" ++ escape p.description ++ "'",
    "          required: " ++ p.required ] ++
  p.typeLines

/-- A parameter in the body. -/
structure BodyEntry where
  name : String
  model : String
  deriving DecidableEq, Repr

def BodyEntry.rows (b : BodyEntry) : List String :=
  [ "        - in: body",
    "          name: " ++ b.name,
    "          schema:",
    "            $ref: \"#/definitions/" ++ b.model ++ "\"" ]

/-- A fragment of any sort. -/
inductive Fragment where
  | head (h : Head)
  | pathHeader (h : PathHeader)
  | operation (o : Operation)
  | parameter (p : ParameterEntry)
  | bodyParameter (b : BodyEntry)

namespace Fragment

/-- The rows of the layout, with the values put in. -/
def rows : Fragment → List String
  | head h => h.rows
  | pathHeader h => h.rows
  | operation o => o.rows
  | parameter p => p.rows
  | bodyParameter b => b.rows

/-- The name by which a fragment is asked for. -/
def name : Fragment → String
  | head _ => "head"
  | pathHeader _ => "path_header"
  | operation _ => "method"
  | parameter _ => "parameter"
  | bodyParameter _ => "body_parameter"

end Fragment

/-- The values to put into a fragment, by the names of its slots. -/
structure Slots where
  text : String → String := fun _ => ""
  flag : String → Bool := fun _ => false
  texts : String → List String := fun _ => []
  responses : String → List Response := fun _ => []

/-- The values of a fragment in the slots of its layout. -/
def Fragment.slots : Fragment → Slots
  | head h => {
      text := fun
        | "title" => h.title
        | "host" => h.host
        | "base_path" => h.basePath
        | _ => "" }
  | pathHeader h => {
      text := fun
        | "path" => h.path
        | "controller" => h.controller
        | _ => ""
      flag := fun
        | "quota" => h.hasQuota
        | _ => false }
  | operation o => {
      text := fun
        | "method" => o.method
        | "summary" => o.summary
        | "indicator" => o.indicator
        | "operation_id" => o.operationId
        | "tag" => o.tag
        | "default_model" => o.defaultModel
        | _ => ""
      texts := fun
        | "description" => o.description
        | "consumes" => o.consumes
        | "produces" => o.produces
        | "parameters" => o.parameters
        | _ => []
      responses := fun
        | "responses" => o.responses
        | _ => [] }
  | parameter p => {
      text := fun
        | "location" => p.location
        | "name" => p.name
        | "description" => p.description
        | "required" => p.required
        | _ => ""
      texts := fun
        | "type_lines" => p.typeLines
        | _ => [] }
  | bodyParameter b => {
      text := fun
        | "name" => b.name
        | "model" => b.model
        | _ => "" }

/-- A fragment is asked for by a name that none has. -/
structure UnknownFragment where
  name : String
  deriving DecidableEq, Repr

def UnknownFragment.message (e : UnknownFragment) : String :=
  "failed to render document template: template not found: template " ++ literal e.name ++
    " does not exist"

/-- The fragment with a name, with values in its slots. -/
def Fragment.named (name : String) (s : Slots) : Except UnknownFragment Fragment :=
  match name with
  | "head" => .ok <| .head {
      title := s.text "title"
      host := s.text "host"
      basePath := s.text "base_path" }
  | "path_header" => .ok <| .pathHeader {
      path := s.text "path"
      controller := s.text "controller"
      hasQuota := s.flag "quota" }
  | "method" => .ok <| .operation {
      method := s.text "method"
      summary := s.text "summary"
      indicator := s.text "indicator"
      description := s.texts "description"
      operationId := s.text "operation_id"
      consumes := s.texts "consumes"
      produces := s.texts "produces"
      tag := s.text "tag"
      parameters := s.texts "parameters"
      defaultModel := s.text "default_model"
      responses := s.responses "responses" }
  | "parameter" => .ok <| .parameter {
      location := s.text "location"
      name := s.text "name"
      description := s.text "description"
      required := s.text "required"
      typeLines := s.texts "type_lines" }
  | "body_parameter" => .ok <| .bodyParameter {
      name := s.text "name"
      model := s.text "model" }
  | _ => .error ⟨name⟩

/-- A fragment is found under its own name, with its own values. -/
theorem Fragment.named_name_slots (f : Fragment) : named f.name f.slots = .ok f := by
  cases f <;> rfl

/-- The lines of the fragment with a name, with values in its slots. -/
def renderLines (name : String) (s : Slots) : Except UnknownFragment (List String) := do
  return layout (← Fragment.named name s).rows

theorem renderLines_fragment (f : Fragment) : renderLines f.name f.slots = .ok (layout f.rows) := by
  rw [renderLines, Fragment.named_name_slots]
  rfl

/-- The lines of a fragment, rendered under its name, which is always known. -/
def Fragment.lines (f : Fragment) : List String :=
  (renderLines f.name f.slots).toOption.get (by rw [renderLines_fragment]; rfl)

theorem Fragment.lines_eq (f : Fragment) : f.lines = layout f.rows := by
  simp only [lines, renderLines_fragment]
  rfl

def Head.lines (h : Head) : List String :=
  (Fragment.head h).lines

def PathHeader.lines (h : PathHeader) : List String :=
  (Fragment.pathHeader h).lines

def Operation.lines (o : Operation) : List String :=
  (Fragment.operation o).lines

def ParameterEntry.lines (p : ParameterEntry) : List String :=
  (Fragment.parameter p).lines

def BodyEntry.lines (b : BodyEntry) : List String :=
  (Fragment.bodyParameter b).lines

theorem Head.lines_eq_layout (h : Head) : h.lines = layout h.rows :=
  Fragment.lines_eq (.head h)

theorem PathHeader.lines_eq_layout (h : PathHeader) : h.lines = layout h.rows :=
  Fragment.lines_eq (.pathHeader h)

theorem Operation.lines_eq_layout (o : Operation) : o.lines = layout o.rows :=
  Fragment.lines_eq (.operation o)

theorem ParameterEntry.lines_eq_layout (p : ParameterEntry) : p.lines = layout p.rows :=
  Fragment.lines_eq (.parameter p)

theorem BodyEntry.lines_eq_layout (b : BodyEntry) : b.lines = layout b.rows :=
  Fragment.lines_eq (.bodyParameter b)

end RouteDoc
