import RouteDoc.Document.Description
import RouteDoc.Document.Fragment
import RouteDoc.Schema

/-! The paths of a document. Routes with one declared path share a fragment: a header made from the
first of them, and then one operation for each. -/

namespace RouteDoc

/-- The spelling of a truth value in a document. -/
def boolText (b : Bool) : String :=
  if b then "true" else "false"

namespace Route

/-- The entry of a parameter. A parameter of any type has no type lines. -/
def parameterEntry (location name : String) (field : Field) (required : Bool) : ParameterEntry where
  location := location
  name := name
  description := field.description
  required := boolText required
  typeLines :=
    if field.type.kind = .any then [] else Schema.indent 10 (Schema.typeLines field.type "")

/-- The parameters outside the body: those in headers, in the path, and in the query. Of the other
parameters those like objects travel in the body alone. -/
def plainEntries (r : Route) : List ParameterEntry :=
  r.headerParams.entries.map (fun (name, f) => parameterEntry "header" name f !f.isOptional) ++
  r.pathParams.entries.map (fun (name, f) => parameterEntry "path" name f true) ++
  (r.otherParams.entries.filter fun (_, f) => !f.type.isObjectLike).map fun (name, f) =>
    parameterEntry "query" name f !f.isOptional

/-- The parameters in the body, for a method that has one: those that the route declares, or else
the model made of its parameters. -/
def bodyEntries (r : Route) : List BodyEntry :=
  if r.method.hasBody then
    if r.body.isEmpty then r.implicitModel.toList.map fun model => { name := "body", model }
    else r.body.map fun b => { name := b.name, model := b.model }
  else []

/-- The lines of the parameters. A route without parameters has no entry at all. -/
def parameterLines (r : Route) : List String :=
  if r.params.isEmpty then []
  else r.plainEntries.flatMap ParameterEntry.lines ++ r.bodyEntries.flatMap BodyEntry.lines

/-- The operation of a route. -/
def operation (r : Route) : Operation where
  method := r.method.name
  summary := r.summary
  indicator := Description.indicator (Description.body r.description)
  description := Description.body r.description
  operationId := r.operationId
  consumes := r.consumes
  produces := r.produces
  tag := r.tag
  parameters := r.parameterLines
  defaultModel := Schema.defaultModel
  responses := r.responses

/-- The header of the path of a route. -/
def pathHeader (r : Route) (hasQuota : Bool) : PathHeader where
  path := r.documentPath
  controller := r.controller
  hasQuota := hasQuota

end Route

/-- The lines of paths, by declared path. -/
structure Paths where
  hasQuota : Bool
  fragments : Table String (List String) := ∅

namespace Paths

/-- The paths with one more route: its operation follows those of its path. -/
def add (p : Paths) (r : Route) : Paths :=
  let before := (p.fragments.find? r.path).getD (r.pathHeader p.hasQuota).lines
  { p with fragments := p.fragments.insert r.path (before ++ r.operation.lines) }

/-- The paths of routes, added in order. -/
def ofRoutes (hasQuota : Bool) (routes : List Route) : Paths :=
  routes.foldl add { hasQuota }

def count (p : Paths) : Nat :=
  p.fragments.size

/-- The lines of all paths. -/
def lines (p : Paths) : List String :=
  p.fragments.values.flatten

end Paths

end RouteDoc
