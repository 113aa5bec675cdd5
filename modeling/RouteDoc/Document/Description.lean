import RouteDoc.Text.Class

/-! The text of a description. The gutter of stars that comments have is taken off each line, and
then the margin that all lines share. -/

namespace RouteDoc.Description

open Text

/-- The number of bytes of a text in UTF-8. -/
def byteLength (cs : List Char) : Nat :=
  cs.foldr (fun c n => c.utf8Size + n) 0

/-- The text without its first `n` bytes, where a character ends there. -/
def dropBytes? : Nat → List Char → Option (List Char)
  | 0, cs => some cs
  | _ + 1, [] => none
  | n + 1, c :: cs => if c.utf8Size ≤ n + 1 then dropBytes? (n + 1 - c.utf8Size) cs else none

/-- A line without white space at its end, and without its gutter: white space, a star, and one
space. -/
def clean (line : List Char) : List Char :=
  let trimmed := trimEnd line
  match trimStart trimmed with
  | '*' :: ' ' :: text => text
  | '*' :: text => text
  | _ => trimmed

/-- The bytes of white space at the start of a line. -/
def leading (line : List Char) : Nat :=
  byteLength (line.takeWhile isBlank)

/-- The least white space at the start of a line that is not blank. -/
def margin (lines : List (List Char)) : Nat :=
  (((lines.filter (!isBlankText ·)).map leading).min?).getD 0

/-- A line without the margin. A blank line becomes empty, and a line in which a character straddles
the margin loses all its leading white space. -/
def dedent (margin : Nat) (line : List Char) : List Char :=
  if isBlankText line then [] else (dropBytes? margin line).getD (trimStart line)

/-- The lines of a description without gutter and margin. -/
def body (raw : List String) : List String :=
  let cleaned := raw.map fun line => clean line.toList
  cleaned.map fun line => String.ofList (dedent (margin cleaned) line)

/-- The indentation indicator of a body: `2` where its first line that is not empty starts with
white space, which would else be taken for indentation. -/
def indicator (body : List String) : String :=
  match body.find? (!·.isEmpty) with
  | some line => if (line.toList.head?.map isBlank).getD false then "2" else ""
  | none => ""

end RouteDoc.Description
