import RouteDoc.Comment
import RouteDoc.Field.Line

/-! What comment blocks declare, and the catalog that collects it from all sources before any route
is read, so that a route may use what a later source declares. -/

namespace RouteDoc

open Text

/-- What a block declares. -/
inductive Declaration where
  /-- A definition or a model: fields under a name. -/
  | definition (name : String) (fields : Fields)
  /-- Lines of text under a name. -/
  | description (name : String) (lines : List String)
  /-- Anything else, which may turn out to be a route. -/
  | candidate (block : Block)

/-- The word after a tag and any white space, if it is not empty. -/
def Tag.declared? (tag : Tag) (line : String) : Option String :=
  tag.scan (fun rest => (Text.word? (trimStart rest)).map fun w => String.ofList w.1) line

/-- The name under which a first line declares fields. -/
def Block.definitionName? (b : Block) : Option String :=
  Tag.define.declared? b.firstLine <|> Tag.model.declared? b.firstLine

/-- The name under which a first line declares a description. -/
def Block.descriptionName? (b : Block) : Option String :=
  Tag.describe.word? b.firstLine

/-- Reads what a block declares. -/
def Block.declaration (b : Block) : Reading Declaration :=
  match b.definitionName? with
  | some name => (Fields.ofLines b.body).inFile b.source >>= fun fields =>
      pure (.definition name fields)
  | none =>
    match b.descriptionName? with
    | some name => pure (.description name b.body)
    | none => pure (.candidate b)

/-- What has been collected from sources. Of two declarations of one name the later counts. -/
structure Catalog where
  definitions : Table String Fields := ∅
  descriptions : Table String (List String) := ∅
  /-- The blocks that may declare routes. -/
  candidates : List Block := []
  /-- The number of blocks seen. -/
  blockCount : Nat := 0
  deriving Inhabited

namespace Catalog

def add (c : Catalog) : Declaration → Catalog
  | .definition name fields => { c with definitions := c.definitions.insert name fields }
  | .description name lines => { c with descriptions := c.descriptions.insert name lines }
  | .candidate block => { c with candidates := c.candidates ++ [block] }

/-- Collects blocks up to the first that cannot be read, which is counted. Gives the catalog as it
then stands, and how the reading went. -/
def addBlocks (c : Catalog) : List Block → Catalog × Reading Unit
  | [] => (c, pure ())
  | b :: bs =>
    let counted := { c with blockCount := c.blockCount + 1 }
    let declared := b.declaration
    match declared.result with
    | .error fault => (counted, ⟨declared.warnings, .error fault⟩)
    | .ok declaration =>
      let (after, rest) := addBlocks (counted.add declaration) bs
      (after, ⟨declared.warnings ++ rest.warnings, rest.result⟩)

/-- Collects the blocks of one source. -/
def addSource (c : Catalog) (s : Source) : Catalog × Reading Unit :=
  c.addBlocks s.blocks

/-- Collects the blocks of all sources, up to the first fault. -/
def collect (sources : List Source) : Reading Catalog :=
  sources.foldlM (fun c s =>
    let (after, reading) := c.addSource s
    reading >>= fun _ => pure after) {}

end Catalog

end RouteDoc
