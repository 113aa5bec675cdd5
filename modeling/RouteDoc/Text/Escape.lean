import RouteDoc.Text.Class
import RouteDoc.Text.Escape.Property

/-! Four ways to put free text between delimiters: HTML entities, single-quoted YAML scalars, JSON
string literals, and literals in which every character can be seen. -/

namespace RouteDoc.Text

/-- The entity of a character that must not stand in HTML text, and any other character itself. -/
def entity : Char → List Char
  | '&' => "&amp;".toList
  | '<' => "&lt;".toList
  | '>' => "&gt;".toList
  | '"' => "&quot;".toList
  | '\'' => "&#39;".toList
  | c => [c]

/-- The text with the five characters of markup as entities, so that no quote is left in it. -/
def escape (text : String) : String :=
  String.ofList (text.toList.flatMap entity)

/-- A single quote stands twice inside single quotes. -/
def doubleQuote (c : Char) : List Char :=
  if c = '\'' then ['\'', '\''] else [c]

/-- The text as a single-quoted YAML scalar. -/
def quote (text : String) : String :=
  "'" ++ String.ofList (text.toList.flatMap doubleQuote) ++ "'"

/-- The hexadecimal digit of a number below sixteen. -/
def hexDigit (n : Nat) : Char :=
  if n < 10 then Char.ofNat (48 + n) else Char.ofNat (87 + n)

/-- A character inside a JSON string literal: quotes, backslashes and control characters are
escaped, and all others stand for themselves. -/
def jsonChar (c : Char) : List Char :=
  match c with
  | '"' => ['\\', '"']
  | '\\' => ['\\', '\\']
  | '\x08' => ['\\', 'b']
  | '\t' => ['\\', 't']
  | '\n' => ['\\', 'n']
  | '\x0c' => ['\\', 'f']
  | '\r' => ['\\', 'r']
  | c =>
    if c.toNat < 32 then ['\\', 'u', '0', '0', hexDigit (c.toNat / 16), hexDigit (c.toNat % 16)]
    else [c]

/-- The text as a JSON string literal. -/
def jsonString (text : String) : String :=
  "\"" ++ String.ofList (text.toList.flatMap jsonChar) ++ "\""

/-- The texts as a JSON array without white space. -/
def jsonArray (texts : List String) : String :=
  "[" ++ ",".intercalate (texts.map jsonString) ++ "]"

/-! ### Literals

A character that would not show, or would be drawn on its neighbour, is given by its code point. -/

namespace Literal

/-- Whether the character is a mark that is drawn on the character before it. -/
def isMark (c : Char) : Bool :=
  128 ≤ c.toNat && markRuns.any (inRun c.toNat)

/-- Whether the character leaves no trace where it is written, as controls and all white space but
the plain space do. -/
def isHidden (c : Char) : Bool :=
  if c.toNat < 128 then c.toNat < 32 || c.toNat == 127 else hiddenRuns.any (inRun c.toNat)

/-- A character given by its code point in hexadecimal digits. -/
def codePoint (c : Char) : List Char :=
  "\\u\x7b".toList ++ Nat.toDigits 16 c.toNat ++ "\x7d".toList

/-- A character inside a literal. -/
def shown (c : Char) : List Char :=
  match c with
  | '\x00' => ['\\', '0']
  | '\t' => ['\\', 't']
  | '\n' => ['\\', 'n']
  | '\r' => ['\\', 'r']
  | '"' => ['\\', '"']
  | '\\' => ['\\', '\\']
  | c => if isMark c || isHidden c then codePoint c else [c]

end Literal

/-- The text as a literal. -/
def literal (text : String) : String :=
  "\"" ++ String.ofList (text.toList.flatMap Literal.shown) ++ "\""

end RouteDoc.Text
