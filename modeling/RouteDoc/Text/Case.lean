import RouteDoc.Text.Case.Mapping
import RouteDoc.Text.Case.Property
import RouteDoc.Text.Class

/-! Letter case by the rules of Unicode, and the joining of words into one identifier. -/

namespace RouteDoc.Text.Case

/-- The image of the code point `n` under a run of a mapping. -/
def runImage? (n : Nat) : Nat × Nat × Nat × Nat → Option Nat
  | (first, last, step, image) =>
    if inRun n (first, last, step) then some (image + (n - first)) else none

/-- Whether the character has the property Lowercase. -/
def isLowercase (c : Char) : Bool :=
  if c.toNat < 128 then c.isLower else lowercaseRuns.any (inRun c.toNat)

/-- Whether the character is looked past when the letters beside a sigma are sought. -/
def isIgnorable (c : Char) : Bool :=
  if c.toNat < 128 then c ∈ ['\'', '.', ':', '^', '\x60'] else ignorableRuns.any (inRun c.toNat)

/-- Whether the character is a letter with case that is not looked past. -/
def isCased (c : Char) : Bool :=
  if c.toNat < 128 then c.isAlpha else casedRuns.any (inRun c.toNat)

/-- The lower case of a character by itself. The dotted capital I keeps its dot as a combining
mark. -/
def lower (c : Char) : List Char :=
  if c.toNat < 128 then [c.toLower]
  else if c = '\u0130' then ['i', '\u0307']
  else [((toLowerRuns.findSome? (runImage? c.toNat)).map Char.ofNat).getD c]

/-- The upper case of a character, which may have several characters. -/
def upper (c : Char) : List Char :=
  if c.toNat < 128 then [c.toUpper]
  else match toUpperSpecial.lookup c.toNat with
    | some image => image.map Char.ofNat
    | none => [((toUpperRuns.findSome? (runImage? c.toNat)).map Char.ofNat).getD c]

/-- Whether the first character that is not looked past is a letter with case. -/
def startsCased (cs : List Char) : Bool :=
  ((cs.dropWhile isIgnorable).head?.map isCased).getD false

/-- The lower case of the text that follows `before`, which is given in reverse. A capital sigma
becomes the final form where a word ends with it. -/
def lowerAfter : List Char → List Char → List Char
  | _, [] => []
  | before, c :: cs =>
    let image := if c = 'Σ' then
        if startsCased before && !startsCased cs then ['ς'] else ['σ']
      else lower c
    image ++ lowerAfter (c :: before) cs

/-- The lower case of a text. -/
def lowercase (text : String) : String :=
  String.ofList (lowerAfter [] text.toList)

/-- The characters that join the words of a name. -/
def isSeparator (c : Char) : Bool :=
  c == ' ' || c == '-' || c == '_'

/-- The words of a name run together. The next character is set in upper case if `capital`, and
else a separator is left out and calls for a capital; a letter is set in lower case unless a lower
case character comes before it. `before` is the character before the name. -/
def joinWords : (capital : Bool) → (before : Option Char) → List Char → List Char
  | _, _, [] => []
  | true, _, c :: cs => upper c ++ joinWords false (some c) cs
  | false, before, c :: cs =>
    if isSeparator c then joinWords true (some c) cs
    else if before.any isLowercase then c :: joinWords false (some c) cs
    else lower c ++ joinWords false (some c) cs

/-- The words of a name run together, each but the first with a capital: `getItem`. -/
def camelCase (name : String) : String :=
  String.ofList (joinWords false none name.toList)

/-- The words of a name run together, each with a capital: `GetItem`. -/
def pascalCase (name : String) : String :=
  String.ofList (joinWords true none name.toList)

end RouteDoc.Text.Case
