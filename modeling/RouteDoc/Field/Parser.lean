import RouteDoc.Field
import RouteDoc.Text.Search

/-! Type expressions such as `String`, `#User`, `Number[]`, `String}{1..10` or `String={'a','b'}`:
a name, which `#` marks as a reference and `[]` as an array, and then nothing or a constraint. -/

namespace RouteDoc

open Text

/-- Why a text is no type expression. -/
inductive TypeError where
  /-- It does not start with a name. -/
  | noName (expr : String)
  /-- What follows the name does not open a constraint. -/
  | trailing (rest name : String)
  deriving DecidableEq, Repr

def TypeError.message : TypeError → String
  | .noName expr => "expected a type name, found `" ++ expr ++ "`"
  | .trailing rest name => "unexpected `" ++ rest ++ "` after type `" ++ name ++ "`"

/-- The start of a type expression: a name and its two marks. -/
structure TypeHead where
  isReference : Bool
  name : List Char
  isArray : Bool
  deriving DecidableEq, Repr

/-- The kind that a head names. A name other than `any` names a scalar, with its first letter set
in upper case. -/
def TypeHead.kind (head : TypeHead) : Kind :=
  let item :=
    if head.isReference then .reference (String.ofList head.name)
    else if equalIgnoringCase head.name "any".toList then .any
    else .scalar (String.ofList (head.name.modifyHead Char.toUpper))
  if head.isArray then .array item else item

/-- Reads a head, and gives what follows it. -/
def TypeHead.read? (expr : List Char) : Option (TypeHead × List Char) := do
  let unmarked := (after? ['#'] expr).getD expr
  let (name, rest) ← word? unmarked
  match after? ['[', ']'] rest with
  | some rest => some (⟨(after? ['#'] expr).isSome, name, true⟩, rest)
  | none => some (⟨(after? ['#'] expr).isSome, name, false⟩, rest)

/-- The text of a constraint without one brace at its start and all braces at its end. -/
def stripBraces (cs : List Char) : List Char :=
  dropEndWhile (· == '}') ((after? ['{'] cs).getD cs)

/-- The number that a run of decimal digits writes. -/
def decimal (digits : List Char) : Nat :=
  digits.foldl (fun n d => 10 * n + (d.toNat - '0'.toNat)) 0

/-- The greatest bound: bounds are 64-bit integers with a sign. -/
def greatestBound : Nat := Nat.pow 2 63 - 1

/-- The bound that a run of digits sets: none if the number is zero or too large. -/
def bound? (digits : List Char) : Option Int :=
  let n := decimal digits
  if 0 < n ∧ n ≤ greatestBound then some n else none

/-- The two sides of a range, each a run of digits that may be empty. -/
def range? (separator cs : List Char) : Option (List Char × List Char) := do
  let (low, high) ← divide? separator cs
  if low.all Char.isDigit && high.all Char.isDigit then some (low, high) else none

/-- Reads `a..b` as bounds on lengths and `a-b` as bounds on values. -/
def Bounds.read? (cs : List Char) : Option Bounds :=
  match range? ['.', '.'] cs with
  | some (low, high) => some { minLength := bound? low, maxLength := bound? high }
  | none =>
    match range? ['-'] cs with
    | some (low, high) => some { min := bound? low, max := bound? high }
    | none => none

/-- The values in a list such as `'a','b'`: quotes of both sorts are left out everywhere, and so
are empty values. -/
def choicesOf (cs : List Char) : List String :=
  let values := (cs.filter fun c => c != '\'' && c != '"').splitOn ','
  (values.filter (!·.isEmpty)).map String.ofList

/-- What may follow the head of a type expression. -/
inductive Constraint where
  | nothing
  | choices (values : List String)
  | bounds (bounds : Bounds)
  deriving DecidableEq, Repr

/-- A constraint in braces is a range if it can be read as one, and else a list of values. -/
def Constraint.ofBraced (cs : List Char) : Constraint :=
  match Bounds.read? cs with
  | some b => .bounds b
  | none => .choices (choicesOf cs)

/-- Reads what follows the head of a type expression. -/
def Constraint.read? : List Char → Option Constraint
  | [] => some .nothing
  | '=' :: cs => some (.choices (choicesOf (stripBraces cs)))
  | '}' :: '{' :: cs => some (.ofBraced (stripBraces cs))
  | '{' :: cs => some (.ofBraced (stripBraces cs))
  | _ => none

/-- The type of a kind under a constraint. A range that sets no bound is no constraint. -/
def Constraint.apply (kind : Kind) : Constraint → FieldType
  | .nothing => { kind }
  | .choices values => { kind, choices := values }
  | .bounds b => { kind, bounds := if b.isEmpty then none else some b }

/-- Reads a type expression. -/
def FieldType.parse (expr : List Char) : Except TypeError FieldType :=
  match TypeHead.read? expr with
  | none => .error (.noName (String.ofList expr))
  | some (head, rest) =>
    match Constraint.read? rest with
    | none => .error (.trailing (String.ofList rest) (String.ofList head.name))
    | some constraint => .ok (constraint.apply head.kind)

end RouteDoc
