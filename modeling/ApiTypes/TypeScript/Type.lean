import ApiTypes.TypeScript.Name
import ApiTypes.Text.Blank

/-!
Shapes as inline type expressions.
-/

namespace ApiTypes.TypeScript

/-! ## Literals -/

/-- The types that the literals of one shape have to share. -/
inductive LiteralType where
  | boolean
  | string
  | other
  deriving DecidableEq, Repr

namespace LiteralType

def ofJson : Json → LiteralType
  | .bool _ => .boolean
  | .string _ => .string
  | _ => .other

end LiteralType

def checkLiterals (values : List Json) : Except Error Unit :=
  match values.map LiteralType.ofJson with
  | [] => .ok ()
  | first :: rest => if rest.all (· == first) then .ok () else .error (.literalsMixed values)

def literal : Json → Except Error String
  | .bool b => .ok (if b then "true" else "false")
  | .int i => .ok (toString i)
  | .double x => .ok x.text
  | .string s => .ok (Text.quoted s)
  | value => .error (.literalForm value)

/-! ## Fields -/

structure Field where
  key : String
  optional : Bool
  type : String
  comments : List String
  deriving DecidableEq, Repr

/-- The blanks before a line at a depth. There are none at a depth below zero. -/
def indent (depth : Int) : String :=
  String.ofList (List.replicate (2 * depth).toNat ' ')

def Field.line (field : Field) : String :=
  field.key ++ (if field.optional then "?" else "") ++ ": " ++ field.type ++ ";"

def Field.literalLines (depth : Int) (field : Field) : List String :=
  field.comments.map (fun comment =>
    String.ofList (Text.trimEnd (indent depth ++ "// " ++ comment).toList)) ++
    [indent depth ++ field.line]

/-- Fields as a type literal that begins on a line of the given depth. -/
def typeLiteral (depth : Int) (fields : List Field) : String :=
  String.intercalate "\n"
    (["\x7b"] ++ fields.flatMap (Field.literalLines (depth + 1)) ++ [indent depth ++ "\x7d"])

/-- The comments on a property: that it is deprecated, else the lines of its description. -/
def commentLines (deprecated : Bool) (description : Json) : Except Malformed (List String) :=
  if deprecated then .ok ["@deprecated"]
  else if !description.isTruthy then .ok []
  else
    match description with
    | .string s => .ok ((Text.lines s.toList).map fun line => String.ofList (Text.trim line))
    | _ => .error .lines

/-! ## Types -/

def openMap : String := "Record<string, any>"

def primitiveName : Kind → String
  | .string => "string"
  | .number => "number"
  | .boolean => "boolean"
  | _ => ""

/-- A primitive shape: the union of its literals, or the type of its kind. -/
def primitiveText (kind : Kind) (values : List Json) : Except Error String :=
  if values.isEmpty then .ok (primitiveName kind)
  else do
    checkLiterals values
    let alternatives ← values.mapM literal
    return String.intercalate " | " alternatives

/-- A reference: the name of its definition, indexed by the names of its path. -/
def referenceText (name : String) (indexPath : List String) : String :=
  identifier name ++ String.join (indexPath.map fun step => "[" ++ Text.quoted step ++ "]")

/-- An object: its type literal, if it has fields, intersected with its bases. -/
def objectText (depth : Int) (fields : List Field) (heritage : List String) : String :=
  if fields.isEmpty && heritage.isEmpty then openMap
  else
    let bases := heritage.map identifier
    String.intercalate " & " (if fields.isEmpty then bases else typeLiteral depth fields :: bases)

def isCompound (schema : Schema) : Bool :=
  if schema.nullable then true
  else if schema.kind.isPrimitive then 1 < schema.enumValues.length
  else if schema.kind = .object then
    let hasFields := !schema.properties.isEmpty || schema.additional.isSome
    1 < schema.heritage.length || (hasFields && !schema.heritage.isEmpty)
  else false

mutual

/-- A shape as a type expression that begins on a line of the given depth. -/
def typeText (depth : Int) : Schema → Except Error String
  | ⟨kind, name, _, _, _, nullable, enumValues, items, properties, additional, heritage,
      indexPath⟩ => do
    let node ←
      match kind with
      | .reference => pure (referenceText name indexPath)
      | .array => elementsText depth items
      | .object => do
        -- A type begins on the line of its field, one step further in than the braces.
        let fields ← propertyFields (depth + 1) properties
        let index ← indexFields (depth + 1) additional
        pure (objectText depth (fields ++ index) heritage)
      | .empty => pure "void"
      | .string | .number | .boolean => primitiveText kind enumValues
    return if nullable then node ++ " | null" else node

/-- The array of a shape of elements. Unions and intersections are put in parentheses. -/
def elementsText (depth : Int) : Option Schema → Except Error String
  | none => .ok "any[]"
  | some items => do
    let text ← typeText depth items
    return if isCompound items then "(" ++ text ++ ")[]" else text ++ "[]"

def propertyFields (depth : Int) : List (PropertyName × Schema) → Except Error (List Field)
  | [] => .ok []
  | (name, schema) :: rest => do
    let comments ← commentLines schema.deprecated schema.description
    let key ← keyText name
    let type ← typeText depth schema
    let fields ← propertyFields depth rest
    return { key, optional := !schema.required, type, comments } :: fields

def indexFields (depth : Int) : Option Schema → Except Error (List Field)
  | none => .ok []
  | some schema => do
    let type ← typeText depth schema
    return [{ key := "[index: string]", optional := false, type, comments := [] }]

end

def fields (depth : Int) (schema : Schema) : Except Error (List Field) := do
  let properties ← propertyFields depth schema.properties
  let index ← indexFields depth schema.additional
  return properties ++ index

end ApiTypes.TypeScript
