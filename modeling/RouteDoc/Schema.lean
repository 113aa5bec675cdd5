import RouteDoc.Field
import RouteDoc.Text.Case
import RouteDoc.Text.Escape

/-! Schemas: the lines that describe a type, a model and all models in a document. -/

namespace RouteDoc.Schema

open Text

def spaces (n : Nat) : String :=
  String.ofList (List.replicate n ' ')

/-- The lines with `n` spaces before each. -/
def indent (n : Nat) (lines : List String) : List String :=
  lines.map (spaces n ++ ·)

/-- The reference to the model with a name. -/
def reference (name : String) : String :=
  "$ref: \"#/definitions/" ++ name ++ "\""

/-- The lines of a kind by itself. -/
def kindLines : Kind → List String
  | .any => ["\x7b\x7d"]
  | .reference name => [reference name]
  | .scalar name => ["type: " ++ Case.lowercase name]
  | .array items => ["type: array", "items:"] ++ indent 2 (kindLines items)

/-- The line of the values that a type is limited to. -/
def choiceLines (choices : List String) : List String :=
  if choices.isEmpty then [] else ["enum: " ++ jsonArray choices]

/-- The lines of the bounds that are set. -/
def boundLines (bounds : Option Bounds) : List String :=
  ((bounds.map Bounds.entries).getD []).map fun (key, bound) => key ++ ": " ++ bound.repr

/-- The line of a description, which is left out where it is empty. -/
def descriptionLines (description : String) : List String :=
  if description.isEmpty then [] else ["description: '" ++ escape description ++ "'"]

/-- The value that stands for any type. -/
def anyLine (description : String) : String :=
  if description.isEmpty then "\x7b\x7d"
  else "\x7b\"description\":" ++ jsonString (escape description) ++ "\x7d"

/-- The lines of a type with a description, which may be empty. A reference has neither constraints
nor a description, and any type has a description only. -/
def typeLines (t : FieldType) (description : String) : List String :=
  match t.kind with
  | .any => [anyLine description]
  | .reference name => [reference name]
  | .scalar _ | .array _ =>
    kindLines t.kind ++ choiceLines t.choices ++ boundLines t.bounds ++
      descriptionLines description

/-- The names of the fields that a model requires. -/
def requiredNames (fields : Fields) : List String :=
  (fields.filter fun _ f => !f.isOptional).keys

/-- The lines of the required fields, which are left out where there are none. -/
def requiredLines (fields : Fields) : List String :=
  let names := requiredNames fields
  if names.isEmpty then [] else "    required:" :: names.map ("      - " ++ ·)

/-- The lines of one field. -/
def propertyLines (name : String) (field : Field) : List String :=
  ("      " ++ name ++ ":") :: indent 8 (typeLines field.type field.description)

/-- The lines of the fields, which are left out where there are none. -/
def propertiesLines (fields : Fields) : List String :=
  if fields.isEmpty then []
  else "    properties:" :: fields.entries.flatMap fun (name, field) => propertyLines name field

/-- The lines of a model. -/
def modelLines (name : String) (fields : Fields) : List String :=
  ["  " ++ name ++ ":", "    type: object"] ++ requiredLines fields ++ propertiesLines fields

/-- The model that default responses have. It says nothing. -/
def defaultModel : String := "DefaultResponse"

/-- The lines of all models, with the model of default responses at the end. -/
def definitionLines (models : List (String × Fields)) : List String :=
  "definitions:" :: (models.flatMap fun (name, fields) => modelLines name fields) ++
    ["  " ++ defaultModel ++ ": \x7b\x7d"]

end RouteDoc.Schema
