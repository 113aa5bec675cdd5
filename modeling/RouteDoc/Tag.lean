import RouteDoc.Text.Class
import RouteDoc.Text.Search

/-! The tags of annotations, and the scan for a tag: it tries the matches of the tag with white space
after them, from left to right, until what follows can be read. -/

namespace RouteDoc

open Text

/-- The tags of annotations. -/
inductive Tag where
  | route | define | model | describe
  | name | group | use
  | param | header
  | consumes | produces
  | body | response | description
  deriving DecidableEq, Repr

/-- The spelling of a tag. -/
def Tag.spelling : Tag → List Char
  | .route => "@api".toList
  | .define => "@apiDefine".toList
  | .model => "@apiModel".toList
  | .describe => "@apiDescribe".toList
  | .name => "@apiName".toList
  | .group => "@apiGroup".toList
  | .use => "@apiUse".toList
  | .param => "@apiParam".toList
  | .header => "@apiHeader".toList
  | .consumes => "@apiConsumes".toList
  | .produces => "@apiProduces".toList
  | .body => "@apiBody".toList
  | .response => "@apiResponse".toList
  | .description => "@apiDescription".toList

/-- What `read` makes of the text after the first match of the spelling that has one white space
character after it and can be read. -/
def scanMatches {α : Type} (spelling : List Char) (read : List Char → Option α) (line : List Char) :
    Option α :=
  (afterMatches spelling 0 line).findSome? fun rest => (afterBlank? rest).bind read

/-- The scan of a line for a tag. -/
def Tag.scan {α : Type} (tag : Tag) (read : List Char → Option α) (line : String) : Option α :=
  scanMatches tag.spelling read line.toList

/-- The word after a tag, which may be empty. -/
def Tag.word? (tag : Tag) (line : String) : Option String :=
  tag.scan (fun rest => some (String.ofList (word rest))) line

/-- The words that the lines have after a tag. -/
def Tag.words (tag : Tag) (lines : List String) : List String :=
  lines.filterMap tag.word?

end RouteDoc
