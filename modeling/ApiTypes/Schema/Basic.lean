import ApiTypes.Json.Display

/-!
The shapes of data that an API description declares, and the table of properties of a shape.
-/

namespace ApiTypes

/-- The form of a shape. An empty shape declares nothing; a reference names a shared definition. -/
inductive Kind where
  | string
  | number
  | boolean
  | array
  | object
  | empty
  | reference
  deriving DecidableEq, Repr, Inhabited

namespace Kind

def word : Kind → String
  | .string => "string"
  | .number => "number"
  | .boolean => "boolean"
  | .array => "array"
  | .object => "object"
  | .empty => "empty"
  | .reference => "reference"

def isPrimitive : Kind → Bool
  | .string | .number | .boolean => true
  | .array | .object | .empty | .reference => false

end Kind

/-- The name of a property: a text, or the number or truth value that a parameter gives for its
name. -/
inductive PropertyName where
  | text (s : String)
  | scalar (value : Json)
  deriving Inhabited, Repr

namespace PropertyName

def ofJson : Json → Except Malformed PropertyName
  | .string s => .ok (.text s)
  | value => if value.isKey then .ok (.scalar value) else .error .key

def toJson : PropertyName → Json
  | .text s => .string s
  | .scalar value => value

def same : PropertyName → PropertyName → Bool
  | .text s, .text t => s == t
  | .scalar v, .scalar w => v.sameKey w
  | _, _ => false

theorem same_text (s t : String) : same (.text s) (.text t) = true ↔ s = t := by
  simp [same]

end PropertyName

/-- A shape of data. The kind says which of the other fields have a meaning:
an array has `items`; an object has `properties`, `additional` and `heritage`; a reference has
`name` and `indexPath`; strings, numbers and truth values have `enumValues`. -/
structure Schema where
  kind : Kind := .object
  /-- The definition that a reference names. -/
  name : String := ""
  /-- Any value is kept here; only a text is a description. -/
  description : Json := .string ""
  required : Bool := false
  deprecated : Bool := false
  nullable : Bool := false
  /-- The literals that the shape is restricted to, in order. -/
  enumValues : List Json := []
  /-- The shape of the elements. -/
  items : Option Schema := none
  properties : List (PropertyName × Schema) := []
  /-- The shape of the values of all other properties. -/
  additional : Option Schema := none
  /-- The definitions that the shape extends, in order. -/
  heritage : List String := []
  /-- The property names from the named definition down to the shape that is meant. -/
  indexPath : List String := []
  deriving Inhabited

abbrev Properties := List (PropertyName × Schema)

namespace Properties

def find? (name : PropertyName) : Properties → Option Schema
  | [] => none
  | (n, schema) :: rest => if n.same name then some schema else find? name rest

/-- The properties with one set. A name that is there keeps its place and its spelling. -/
def set (name : PropertyName) (schema : Schema) : Properties → Properties
  | [] => [(name, schema)]
  | (n, s) :: rest => if n.same name then (n, schema) :: rest else (n, s) :: set name schema rest

/-- The table of a list of properties, of which the last of a name counts. -/
def ofList (list : List (PropertyName × Schema)) : Properties :=
  list.foldl (fun table (name, schema) => set name schema table) []

end Properties

namespace Schema

def reference (name : String) : Schema :=
  { kind := .reference, name }

def empty : Schema :=
  { kind := .empty }

def openObject : Schema :=
  {}

def isEmpty (schema : Schema) : Bool :=
  schema.kind == .empty

/-- An empty shape becomes an object once something is put into it. -/
def opened (schema : Schema) : Schema :=
  if schema.kind = .empty then { schema with kind := .object } else schema

end Schema

end ApiTypes
