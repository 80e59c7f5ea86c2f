import ApiTypes.TypeScript.Type

/-!
Declarations of named shapes: interfaces, enumerations and type aliases; and comments.
-/

namespace ApiTypes.TypeScript

def comment (text : String) : String :=
  String.intercalate "\n" ((Text.split '\n' text).map fun line =>
    String.ofList (Text.trimEnd ("// " ++ line).toList))

def fileHeader (comment : String) : String :=
  if comment.isEmpty then "" else comment ++ "\n\n"

def Field.interfaceLines (field : Field) : List String :=
  field.comments.map (fun comment =>
    "  //" ++ if comment.isEmpty then "" else " " ++ comment) ++
    ["  " ++ field.line]

def interface (name : String) (bases : List String) (fields : List Field) : String :=
  let extension := if bases.isEmpty then "" else " extends " ++ String.intercalate ", " bases
  let body :=
    if fields.isEmpty then "\x7b\x7d"
    else String.intercalate "\n" (["\x7b"] ++ fields.flatMap Field.interfaceLines ++ ["\x7d"])
  "export interface " ++ name ++ extension ++ " " ++ body

def enumeration (name : String) (members : List (String × String)) : String :=
  String.intercalate "\n"
    (["export enum " ++ name ++ " \x7b"] ++
      members.map (fun (member, literal) => "  " ++ member ++ " = " ++ literal ++ ",") ++ ["\x7d"])

def typeAlias (name type : String) : String :=
  "export type " ++ name ++ " = " ++ type ++ ";"

def enumMembers (values : List Json) : Except Error (List (String × String)) := do
  let members ← values.mapM fun value => do
    let name ← memberName value
    let text ← literal value
    return (name, text)
  return (numbered (members.map (·.1))).zip (members.map (·.2))

/-- Whether a shape with literals is declared as an enumeration: where enumerations are wanted,
unless it is nullable or its literals are truth values. -/
def isEnumeration (emitEnums : Bool) (schema : Schema) : Except Error Bool :=
  if !schema.kind.isPrimitive || schema.enumValues.isEmpty || !emitEnums || schema.nullable then
    .ok false
  else do
    checkLiterals schema.enumValues
    return schema.enumValues.head?.map LiteralType.ofJson != some .boolean

/-- The fields of a shape that is declared as an interface: an object with fields or bases. -/
def interfaceFields? (schema : Schema) : Except Error (Option (List Field)) :=
  if schema.kind = .object then do
    let fields ← fields 1 schema
    return if fields.isEmpty && schema.heritage.isEmpty then none else some fields
  else .ok none

/-- The declaration of a shape under a name. An interface is never nullable. -/
def declaration (emitEnums : Bool) (schema : Schema) (name : String) : Except Error String := do
  let name := identifier name
  match ← interfaceFields? schema with
  | some fields => return interface name (schema.heritage.map identifier) fields
  | none =>
    if ← isEnumeration emitEnums schema then
      return enumeration name (← enumMembers schema.enumValues)
    else return typeAlias name (← typeText 0 schema)

end ApiTypes.TypeScript
