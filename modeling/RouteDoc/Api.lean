import RouteDoc.Catalog
import RouteDoc.Route.Draft
import RouteDoc.Text.Case

/-! The API that a catalog describes: its routes with all references resolved, its declared models,
and the models made of body parameters. -/

namespace RouteDoc

structure Api where
  /-- The routes by method and declared path. Of two with one key the later counts. -/
  routes : Table (Method × String) Route := ∅
  definitions : Table String Fields := ∅
  /-- The models made of the body parameters of routes. -/
  implicitModels : Table String Fields := ∅
  deriving Inhabited

namespace Catalog

/-- The fields of the definitions with the given names, one after the other. Unknown names give
none. -/
def usedFields (c : Catalog) (names : List String) : List (String × Field) :=
  names.flatMap fun name => ((c.definitions.find? name).map Table.entries).getD []

/-- The parameters of a draft: those of the definitions it uses, and then its own, the later of one
name counting. -/
def params (c : Catalog) (d : Draft) : Fields :=
  Table.ofList (c.usedFields d.uses ++ d.params.entries)

/-- The lines of the descriptions that a draft refers to. Unknown names give none. -/
def descriptionLines (c : Catalog) (d : Draft) : List String :=
  d.descriptions.flatMap fun name => (c.descriptions.find? name).getD []

/-- The route of a draft, with its references resolved. -/
def route (c : Catalog) (d : Draft) : Route where
  controller := d.controller
  method := d.method
  path := d.path
  operationId := Text.Case.camelCase d.name
  tag := d.group
  summary := d.summary
  description := c.descriptionLines d
  pathParameters := Path.parameterNames d.path
  params := c.params d
  body := d.body
  consumes := d.consumes
  produces := d.produces
  responses := d.responses
  implicitModel := none

/-- The routes that candidates declare, in order. -/
def routes (c : Catalog) : Reading (List Route) := do
  let drafts ← c.candidates.mapM Draft.ofBlock?
  return (drafts.filterMap id).map c.route

end Catalog

/-- The name and the fields of the model made of a route's body parameters. A route has one if its
method has a body, and it has an operation and parameters that travel neither in headers nor in
the path. -/
def Route.bodyModel? (r : Route) : Option (String × Fields) :=
  if r.method.hasBody && !r.operationId.isEmpty && !r.otherParams.isEmpty then
    some (Text.Case.pascalCase r.operationId, r.otherParams)
  else none

/-- The route with the name of the model made of its body parameters. -/
def Route.withBodyModel (r : Route) : Route :=
  { r with implicitModel := r.bodyModel?.map (·.1) }

namespace Api

/-- The API with the given routes and declared models. -/
def ofRoutes (routes : List Route) (definitions : Table String Fields) : Api :=
  let table := Table.ofList (routes.map fun r => (r.key, r))
  { routes := table.mapValues Route.withBodyModel
    definitions
    implicitModels := Table.ofList (table.values.filterMap Route.bodyModel?) }

/-- The API that a catalog describes. -/
def ofCatalog (c : Catalog) : Reading Api := do
  let routes ← c.routes
  return ofRoutes routes c.definitions

/-- The models of the document: the declared ones, and then those made of body parameters whose
name no declared model has. -/
def models (api : Api) : List (String × Fields) :=
  api.definitions.entries ++
    api.implicitModels.entries.filter fun m => !api.definitions.contains m.1

end Api

end RouteDoc
