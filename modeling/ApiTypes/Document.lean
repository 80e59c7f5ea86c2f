import ApiTypes.Error

/-!
API descriptions in their two dialects: where each keeps its shared fragments, and its operations
in order.
-/

namespace ApiTypes

inductive Dialect where
  | swagger2
  | openapi3
  deriving DecidableEq, Repr

namespace Dialect

/-- What every reference to a shared schema begins with. -/
def definitionsRoot : Dialect → String
  | .swagger2 => "#/definitions/"
  | .openapi3 => "#/components/schemas/"

def parametersRoot : Dialect → String
  | .swagger2 => "#/parameters/"
  | .openapi3 => "#/components/parameters/"

def responsesRoot : Dialect → String
  | .swagger2 => "#/responses/"
  | .openapi3 => "#/components/responses/"

/-- Only one dialect shares request bodies. -/
def requestBodiesRoot : Dialect → Option String
  | .swagger2 => none
  | .openapi3 => some "#/components/requestBodies/"

def skipsDeprecated : Dialect → Bool
  | .swagger2 => true
  | .openapi3 => false

end Dialect

/-- Whether a walk over a value meets the text `name`; in a text it is looked for as a part. -/
def Json.holds (name : String) : Json → Except Malformed Bool
  | .object members => .ok (Members.has members name)
  | .array items => .ok (items.any (Json.isText name))
  | .string s => .ok (Text.occursIn name.toList s.toList)
  | _ => .error .search

/-- The member of a value that holds its name. -/
def Json.at (name : String) : Json → Except Malformed Json
  | .object members => .ok (Members.get members name)
  | _ => .error .position

def methods : List String :=
  ["get", "put", "post", "delete", "options", "head", "patch", "trace"]

def isMethod (key : String) : Bool :=
  methods.contains key

structure Document where
  dialect : Dialect
  members : Members

def Dialect.detect (value : Json) : Except Error Dialect := do
  if ← value.holds "swagger" then
    let version := (← value.at "swagger").plain
    if version = "2.0" then return .swagger2 else .error (.version (some version))
  else if ← value.holds "openapi" then
    let version := (← value.at "openapi").plain
    if Text.startsWith "3." version then return .openapi3 else .error (.version (some version))
  else .error (.version none)

structure RawOperation where
  path : String
  method : String
  /-- The parameters that the path item shares among its operations. -/
  shared : Json
  members : Members

namespace Document

def ofJson (value : Json) : Except Error Document := do
  let dialect ← Dialect.detect value
  let members ← value.members
  return { dialect, members }

def definitions (document : Document) : Except Malformed Json :=
  match document.dialect with
  | .swagger2 => .ok ((Members.get document.members "definitions").orElse (.object []))
  | .openapi3 => do
    let components ← ((Members.get document.members "components").orElse (.object [])).members
    return (Members.get components "schemas").orElse (.object [])

def paths (document : Document) : Json :=
  (Members.get document.members "paths").orElse (.object [])

/-- The operation under a key of a path item, unless the key is no method or the operation is
left out. -/
def operation? (dialect : Dialect) (path : String) (item : Members) (key : String) (value : Json) :
    Except Malformed (Option RawOperation) :=
  if !isMethod key then .ok none
  else do
    let members ← (value.orElse (.object [])).members
    if (Members.get members "deprecated").isTruthy && dialect.skipsDeprecated then return none
    return some { path, method := key, shared := Members.get item "parameters", members }

/-- The operations of one path item. What is malformed stands as an error in its place. -/
def itemOperations (dialect : Dialect) (path : String) (item : Json) :
    List (Except Malformed RawOperation) :=
  match (item.orElse (.object [])).members with
  | .error cause => [.error cause]
  | .ok members =>
    members.filterMap fun (key, value) =>
      match operation? dialect path members key value with
      | .ok found => found.map .ok
      | .error cause => some (.error cause)

/-- The operations in the order of the description. What is malformed stands as an error in its
place, so that what comes before it can be worked on first. -/
def operations (document : Document) : List (Except Malformed RawOperation) :=
  match document.paths.members with
  | .error cause => [.error cause]
  | .ok items => items.flatMap fun (path, item) => itemOperations document.dialect path item

/-- The names from the root of a reference to the table it points into. -/
def rootSegments (root : String) : List String :=
  let rest := (root.toList.drop 2).reverse.dropWhile (· == '/')
  (Text.splitWhen (· == '/') rest.reverse).map String.ofList

/-- The value under a sequence of names; `null` where there is none. -/
def descend (value : Json) : List String → Json
  | [] => value
  | name :: names =>
    match value with
    | .object members => descend (Members.get members name) names
    | _ => .null

/-- The shared object that a reference under the given root points to. The rest of the reference
is the name of the object as it is. -/
def lookupShared (document : Document) (target : String) : Option String → Option Members
  | none => none
  | some root => do
    let name ← Text.after? root target
    match descend (.object document.members) (rootSegments root) with
    | .object table =>
      match Members.get table name with
      | .object members => some members
      | _ => none
    | _ => none

end Document

end ApiTypes
