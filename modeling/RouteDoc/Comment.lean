import RouteDoc.Text.Line
import RouteDoc.Text.Search

/-! Comment blocks. A line with an opening marker opens a block, and the next line with a closing
marker and no opening marker closes it. A line with an opening marker opens a block also where one
is open, and what that one holds is dropped. -/

namespace RouteDoc

open Text

/-- A source text with the name by which its routes refer to it. -/
structure Source where
  identifier : String
  content : String
  deriving DecidableEq, Repr, Inhabited

/-- The lines between an opening and a closing line, with the identifier of their source. -/
structure Block where
  lines : List String
  source : String
  deriving DecidableEq, Repr, Inhabited

namespace Block

/-- The line that decides what a block declares. -/
def firstLine (b : Block) : String := b.lines.head?.getD ""

/-- The lines after the first. -/
def body (b : Block) : List String := b.lines.tail

def opens (line : String) : Bool := contains ['/', '*', '*'] line.toList

/-- Whether a line closes a block: it has a closing marker and no opening one. -/
def closes (line : String) : Bool :=
  !opens line && contains ['*', '/'] line.toList

/-- The blocks among lines. If a block is open, `opened` holds its lines so far in reverse. -/
def scan (source : String) (opened : Option (List String)) : List String → List Block
  | [] => []
  | line :: rest =>
    if opens line then scan source (some []) rest
    else match opened with
      | none => scan source none rest
      | some held =>
        if closes line then ⟨held.reverse, source⟩ :: scan source none rest
        else scan source (some (line :: held)) rest

end Block

/-- The comment blocks of a source, in order. -/
def Source.blocks (s : Source) : List Block :=
  Block.scan s.identifier none (lines s.content)

end RouteDoc
