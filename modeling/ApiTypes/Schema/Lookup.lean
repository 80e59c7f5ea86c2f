import ApiTypes.Error

/-!
Following the tail of a reference through a shape. Through a reference a property name becomes one
more step of its index path.
-/

namespace ApiTypes

namespace Schema

/-- Follows the segments from a shape; `all` are the segments from the start, for messages. -/
def lookupFrom (all : List String) : List String → Schema → Except Error Schema
  | [], schema => .ok schema
  | "" :: rest, schema => lookupFrom all rest schema
  | ["properties"], _ => .error (.propertyNameMissing all)
  | "properties" :: name :: rest, schema =>
    match schema.kind with
    | .reference => lookupFrom all rest { schema with indexPath := schema.indexPath ++ [name] }
    | .object =>
      match Properties.find? (.text name) schema.properties with
      | some property => lookupFrom all rest property
      | none => .error (.unknownProperty name)
    | kind => .error (.propertyOf name kind)
  | "items" :: rest, schema =>
    match schema.kind with
    | .reference => .ok openObject
    | .array => lookupFrom all rest (schema.items.getD openObject)
    | kind => .error (.itemsOf kind)
  | segment :: _, _ => .error (.unknownSegment segment all)

def lookup (segments : List String) (schema : Schema) : Except Error Schema :=
  lookupFrom segments segments schema

end Schema

end ApiTypes
