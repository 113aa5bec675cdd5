import RouteDoc.Api
import RouteDoc.Document.Paths
import RouteDoc.Document.Settings

/-! Documents: the text that describes an API under given settings, and the whole way from sources
to it. -/

namespace RouteDoc

namespace Document

/-- The start of the document under given settings. -/
def head (settings : Settings) : Head where
  title := settings.title
  host := settings.host
  basePath := settings.basePath

/-- The lines of a document with given lines for its paths. -/
def lines (settings : Settings) (pathLines : List String) (models : List (String × Fields)) :
    List String :=
  (head settings).lines ++ pathLines ++ Schema.definitionLines models

/-- The text of a document with given lines for its paths. -/
def text (settings : Settings) (pathLines : List String) (models : List (String × Fields)) :
    String :=
  Text.unlines (lines settings pathLines models)

end Document

/-- How much went into a document. -/
structure Counts where
  sources : Nat
  blocks : Nat
  routes : Nat
  paths : Nat
  definitions : Nat
  implicitModels : Nat
  deriving DecidableEq, Repr, Inhabited

structure Generated where
  text : String
  counts : Counts
  deriving DecidableEq, Repr, Inhabited

/-- The paths of an API. -/
def Api.paths (api : Api) (hasQuota : Bool) : Paths :=
  .ofRoutes hasQuota api.routes.values

/-- The document of an API, which was read from `sources` sources with `blocks` blocks. -/
def Api.document (api : Api) (settings : Settings) (sources blocks : Nat) : Generated :=
  let paths := api.paths settings.includeQuota
  { text := Document.text settings paths.lines api.models
    counts := {
      sources
      blocks
      routes := api.routes.size
      paths := paths.count
      definitions := api.definitions.size
      implicitModels := api.implicitModels.size } }

/-- Generates the document of sources. -/
def generate (settings : Settings) (sources : List Source) : Reading Generated := do
  let catalog ← Catalog.collect sources
  let api ← Api.ofCatalog catalog
  return api.document settings sources.length catalog.blockCount

end RouteDoc
