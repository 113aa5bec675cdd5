import RouteDoc.Table
import RouteDoc.Text.Class

/-! Fields of models and parameters of routes, and tables of them. The type of a field is a kind, the
values it is limited to, and bounds on numbers and lengths. -/

namespace RouteDoc

/-- The shape of a type. -/
inductive Kind where
  /-- No type information at all. -/
  | any
  /-- A scalar such as `String` or `Number`, by its name. -/
  | scalar (name : String)
  /-- A declared model, by its name. -/
  | reference (name : String)
  /-- An array whose items have the inner kind. -/
  | array (items : Kind)
  deriving DecidableEq, Repr, Inhabited

/-- Bounds on the length of a text and on the value of a number. -/
structure Bounds where
  minLength : Option Int := none
  maxLength : Option Int := none
  min : Option Int := none
  max : Option Int := none
  deriving DecidableEq, Repr, Inhabited

/-- The bounds that are set, by the names that schemas have for them. -/
def Bounds.entries (b : Bounds) : List (String × Int) :=
  [("minLength", b.minLength), ("maxLength", b.maxLength), ("min", b.min), ("max", b.max)].filterMap
    fun (key, bound) => bound.map (key, ·)

def Bounds.isEmpty (b : Bounds) : Bool :=
  b.entries.isEmpty

/-- A type: its kind, the only values allowed if there are any, and its bounds. -/
structure FieldType where
  kind : Kind
  choices : List String := []
  bounds : Option Bounds := none
  deriving DecidableEq, Repr, Inhabited

/-- Whether a value of the kind can only travel in a request body: one of any type, of a declared
model, or of the scalar type `Object` in any case. -/
def Kind.isObjectLike : Kind → Bool
  | .any | .reference _ => true
  | .scalar name => Text.equalIgnoringCase name.toList "object".toList
  | .array _ => false

def FieldType.isObjectLike (t : FieldType) : Bool :=
  t.kind.isObjectLike

theorem Bounds.isEmpty_iff {b : Bounds} : b.isEmpty = true ↔ b = {} := by
  obtain ⟨minLength, maxLength, min, max⟩ := b
  cases minLength <;> cases maxLength <;> cases min <;> cases max <;>
    simp [Bounds.isEmpty, Bounds.entries]

/-- A field of a model, or a parameter of a route. -/
structure Field where
  type : FieldType
  isOptional : Bool
  description : String
  /-- Whether the field travels in a header of the request. -/
  isHeader : Bool
  deriving DecidableEq, Repr, Inhabited

/-- Fields by name, in the order of their declaration. -/
abbrev Fields := Table String Field

/-- The fields of a list of declarations: of two with one name the first counts. -/
def Fields.ofDeclarations (declarations : List (String × Field)) : Fields :=
  declarations.foldl (fun fields d => fields.insertNew d.1 d.2) ∅

end RouteDoc
