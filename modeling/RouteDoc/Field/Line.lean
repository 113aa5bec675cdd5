import RouteDoc.Field
import RouteDoc.Reading
import RouteDoc.Tag

/-! Field lines, such as `@apiParam {String} [name] description`. A line is first taken apart into
its pieces; then the type token is read, and the brackets on the line decide whether the field is
optional. -/

namespace RouteDoc

open Text

/-- The pieces of a field line. -/
structure FieldLine where
  /-- The text between the outer braces of the type token. -/
  typeText : List Char
  name : List Char
  /-- Whether the name token opens and closes with brackets. -/
  isBracketed : Bool
  description : List Char
  isHeader : Bool
  deriving DecidableEq, Repr

/-- The characters of a field name: word characters and dots. -/
def isNameChar (c : Char) : Bool :=
  isWord c || c == '.'

/-- The text after a location such as `(query) `, which may be left out. A parenthesis that does not
open a location is refused. -/
def afterLocation? (cs : List Char) : Option (List Char) :=
  match after? ['('] cs with
  | none => some cs
  | some rest => do
    let (_, rest) ← word? rest
    let rest ← after? [')'] rest
    afterBlank? rest

/-- The text between the outer braces of a token, if it has them and something between them. -/
def betweenBraces? : List Char → Option (List Char)
  | '{' :: cs =>
    if cs.getLast? = some '}' ∧ cs.dropLast ≠ [] then some cs.dropLast else none
  | _ => none

/-- Drops a size hint such as `{1..3}` and a default such as `=10` from the end of a name token. -/
def afterHints (cs : List Char) : List Char :=
  let rest := cs.dropWhile fun c => c.isDigit || c == '.' || c == '{' || c == '}'
  match after? ['='] rest with
  | some rest => afterWord rest
  | none => rest

/-- Takes apart what follows a field tag and its white space. -/
def FieldLine.read? (isHeader : Bool) (cs : List Char) : Option FieldLine := do
  let cs ← afterLocation? cs
  let typeText ← betweenBraces? (cs.takeWhile (!isBlank ·))
  let cs ← afterBlank? (cs.dropWhile (!isBlank ·))
  let inner := (after? ['['] cs).getD cs
  let opened := (after? ['['] cs).isSome
  let bare := inner.takeWhile isNameChar
  if bare.isEmpty then none else
  let cs := inner.dropWhile isNameChar
  let name := if (after? ['[', ']'] cs).isSome then bare ++ ['[', ']'] else bare
  let cs := afterHints ((after? ['[', ']'] cs).getD cs)
  let closed := (after? [']'] cs).isSome
  let cs := (after? [']'] cs).getD cs
  let cs := (afterBlank? cs).getD cs
  let description := if isHeader then cs.takeWhile (· != '*') else cs
  return { typeText, name, isBracketed := opened && closed, description, isHeader }

/-- Takes a field line apart. A header tag goes before a parameter tag. -/
def FieldLine.ofLine? (line : String) : Option FieldLine :=
  Tag.header.scan (FieldLine.read? true) line <|> Tag.param.scan (FieldLine.read? false) line

/-- Whether the line has an opening bracket that, but for white space, the name follows. -/
def precededByBracket (name line : List Char) : Bool :=
  (afterEach ['['] line).any fun rest => name.isPrefixOf (trimStart rest)

/-- Reads the field that a line declares, if it declares one. A name with a dot declares nothing. -/
def Field.ofLine? (line : String) : Reading (Option (String × Field)) :=
  match FieldLine.ofLine? line with
  | none => pure none
  | some pieces =>
    if '.' ∈ pieces.name then pure none else
    match FieldType.parse pieces.typeText with
    | .error cause => .fail { file := "", line, cause }
    | .ok type => do
      let name := String.ofList pieces.name
      let preceded := precededByBracket pieces.name line.toList
      if preceded != pieces.isBracketed then
        Reading.warn (.strayBracket name line)
      return some (name, {
        type
        isOptional := pieces.isBracketed || preceded
        description := String.ofList pieces.description
        isHeader := pieces.isHeader })

/-- Reads the fields that lines declare. -/
def Fields.ofLines (lines : List String) : Reading Fields := do
  let declarations ← lines.mapM Field.ofLine?
  return .ofDeclarations (declarations.filterMap id)

end RouteDoc
