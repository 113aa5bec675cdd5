import RouteDoc.Field

/-! Routes: the operations of an API as sources declare them, with all references resolved. -/

namespace RouteDoc

/-! ### Methods -/

/-- The HTTP methods that a route can have. -/
inductive Method where
  | get | post | put | delete | patch | options | head
  deriving DecidableEq, Repr, Inhabited

namespace Method

def all : List Method := [get, post, put, delete, patch, options, head]

/-- The name of the method in a document. -/
def name : Method → String
  | get => "get"
  | post => "post"
  | put => "put"
  | delete => "delete"
  | patch => "patch"
  | options => "options"
  | head => "head"

/-- The method with a name in any case. -/
def ofName? (name : List Char) : Option Method :=
  all.find? fun m => m.name.toList == name.map Char.toLower

/-- Whether requests of the method carry a body. -/
def hasBody : Method → Bool
  | post | put | patch => true
  | get | delete | options | head => false

theorem mem_all (m : Method) : m ∈ all := by
  cases m <;> simp [all]

theorem ofName?_name (m : Method) : ofName? m.name.toList = some m := by
  cases m <;> rfl

end Method

/-! ### Paths

In a declared path a colon and a word mark a parameter, as in `/items/:id`, and in a document braces
do, as in `/items/{id}`. -/

namespace Path

open Text

/-- The names of the parameters of a declared path, in order and with repetitions. -/
def parameterNames (path : String) : List String :=
  (((path.toList.splitOn ':').tail.map word).filter (!·.isEmpty)).map String.ofList

/-- The text after a colon with the word at its start in braces. Where there is no word the colon
stays. -/
def placeholder (cs : List Char) : List Char :=
  match word? cs with
  | some (name, rest) => '{' :: name ++ '}' :: rest
  | none => ':' :: cs

/-- A declared path in the form of the document. -/
def documentForm (path : String) : String :=
  match path.toList.splitOn ':' with
  | [] => ""
  | start :: pieces => String.ofList (start ++ pieces.flatMap placeholder)

end Path

/-! ### Routes -/

/-- A parameter in the body of a request, by its name and its model. -/
structure BodyBinding where
  name : String
  model : String
  deriving DecidableEq, Repr, Inhabited

/-- A response, by its status code, its model and its description. -/
structure Response where
  code : String
  model : String
  description : String
  deriving DecidableEq, Repr, Inhabited

structure Route where
  /-- The identifier of the source that declares the route. -/
  controller : String
  method : Method
  /-- The path as declared. -/
  path : String
  operationId : String
  tag : String
  summary : String
  description : List String
  /-- The names of the parameters in the path. -/
  pathParameters : List String
  params : Fields
  body : List BodyBinding
  consumes : List String
  produces : List String
  responses : List Response
  /-- The model that is made of the parameters for the body, if there is one. -/
  implicitModel : Option String
  deriving DecidableEq, Inhabited

namespace Route

/-- The parameters that travel in headers. -/
def headerParams (r : Route) : Fields :=
  r.params.filter fun _ f => f.isHeader

/-- The parameters that travel in the path. -/
def pathParams (r : Route) : Fields :=
  r.params.filter fun name f => !f.isHeader && name ∈ r.pathParameters

/-- The parameters that travel neither in headers nor in the path. -/
def otherParams (r : Route) : Fields :=
  r.params.filter fun name f => !f.isHeader && name ∉ r.pathParameters

/-- The path in the form of the document. -/
def documentPath (r : Route) : String :=
  Path.documentForm r.path

/-- Routes are told apart by method and declared path. -/
def key (r : Route) : Method × String :=
  (r.method, r.path)

end Route

end RouteDoc
