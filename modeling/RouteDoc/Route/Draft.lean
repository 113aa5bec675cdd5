import RouteDoc.Comment
import RouteDoc.Field.Line
import RouteDoc.Route

/-! Route blocks. The first line declares method, path and summary; every other line may have one of
the route tags. A draft holds what a block says, with its references by name. -/

namespace RouteDoc

open Text

/-- A route as its block declares it, before its references are resolved. -/
structure Draft where
  controller : String
  method : Method
  path : String
  summary : String
  name : String
  group : String
  /-- The definitions that the route uses. -/
  uses : List String
  /-- The parameters declared in the block itself. -/
  params : Fields
  consumes : List String
  produces : List String
  body : List BodyBinding
  responses : List Response
  /-- The descriptions that the route refers to. -/
  descriptions : List String
  deriving DecidableEq, Inhabited

/-- What the first line of a route block declares. -/
structure RouteHeader where
  method : Method
  path : List Char
  summary : List Char
  deriving DecidableEq, Repr

/-- The characters of a declared path. -/
def isPathChar (c : Char) : Bool :=
  isWord c || c == '/' || c == ':' || c == '-'

/-- The characters of a media type. -/
def isMediaChar (c : Char) : Bool :=
  isWord c || c == '/' || c == '-' || c == '+' || c == '.'

/-- The text after a run of white space that is not empty. -/
def afterBlanks? (cs : List Char) : Option (List Char) :=
  (afterBlank? cs).map trimStart

/-- Reads `{method} path summary`. The summary runs to the first character that is neither a word
character nor white space, and has at least two characters. -/
def RouteHeader.read? (cs : List Char) : Option RouteHeader := do
  let cs ← after? ['{'] cs
  let (methodName, cs) ← word? cs
  let cs ← after? ['}'] cs
  let cs ← afterBlanks? cs
  let path := cs.takeWhile isPathChar
  if path.isEmpty then none else
  let cs ← afterBlanks? (cs.dropWhile isPathChar)
  let summary := trimEnd (cs.takeWhile fun c => isWord c || isBlank c)
  if summary.length < 2 then none else
  let method ← Method.ofName? methodName
  return { method, path, summary }

/-- A model name, which a `#` may mark, and what follows it. -/
def readModelName (cs : List Char) : List Char × List Char :=
  let unmarked := (after? ['#'] cs).getD cs
  (word unmarked, afterWord unmarked)

/-- Reads a name and a model with one white space character between them, and gives what follows. -/
def readBinding? (cs : List Char) : Option (String × String × List Char) := do
  let (name, cs) ← word? cs
  let cs ← afterBlank? cs
  let (model, cs) := readModelName cs
  if model.isEmpty then none else
  return (String.ofList name, String.ofList model, cs)

def BodyBinding.read? (cs : List Char) : Option BodyBinding :=
  (readBinding? cs).map fun (name, model, _) => { name, model }

/-- Reads a code, a model and a description, which runs to the end of the line. -/
def Response.read? (cs : List Char) : Option Response :=
  (readBinding? cs).map fun (code, model, rest) =>
    { code, model, description := String.ofList (trim rest) }

/-- The media type of a route that names none. -/
def defaultMediaType : String := "application/json"

/-- The media types that lines have after a tag. -/
def mediaTypes (tag : Tag) (lines : List String) : List String :=
  let found := lines.filterMap <| tag.scan fun cs =>
    let media := cs.takeWhile isMediaChar
    if media.isEmpty then none else some (String.ofList media)
  if found.isEmpty then [defaultMediaType] else found

/-- The names of descriptions that lines refer to. -/
def descriptionNames (lines : List String) : List String :=
  (lines.filterMap <| Tag.description.scan fun cs =>
    some (String.ofList (readModelName cs).1)).filter (!·.isEmpty)

/-- The route declaration on the first line of a block. -/
def Block.routeHeader? (b : Block) : Option RouteHeader :=
  Tag.route.scan RouteHeader.read? b.firstLine

/-- Reads a route block. A block whose first line declares no route is not read any further. -/
def Draft.ofBlock? (b : Block) : Reading (Option Draft) :=
  match b.routeHeader? with
  | none => pure none
  | some header =>
    (Fields.ofLines b.body).inFile b.source >>= fun params => pure <| some {
      controller := b.source
      method := header.method
      path := String.ofList header.path
      summary := String.ofList header.summary
      name := (b.body.findSome? Tag.name.word?).getD ""
      group := (b.body.findSome? Tag.group.word?).getD ""
      uses := Tag.use.words b.body
      params
      consumes := mediaTypes .consumes b.body
      produces := mediaTypes .produces b.body
      body := b.body.filterMap (Tag.body.scan BodyBinding.read?)
      responses := b.body.filterMap (Tag.response.scan Response.read?)
      descriptions := descriptionNames b.body }

end RouteDoc
