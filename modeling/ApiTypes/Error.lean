import ApiTypes.Schema.Basic

/-!
The reasons for which a description has no declarations, each with its message.
-/

namespace ApiTypes

inductive FileError where
  | absent
  | throughFile
  | directory
  | nameTooLong
  deriving DecidableEq, Repr

namespace FileError

def reason : FileError → String
  | .absent => "[Errno 2] No such file or directory"
  | .throughFile => "[Errno 20] Not a directory"
  | .directory => "[Errno 21] Is a directory"
  | .nameTooLong => "[Errno 36] File name too long"

end FileError

/-- The seven families of reported errors, the use of an invalid address, and the misuse of a
malformed description. -/
inductive ErrorFamily where
  | version
  | reference
  | merge
  | enumeration
  | type
  | synthesis
  | load
  | address
  | malformed (cause : Malformed)
  deriving DecidableEq, Repr

inductive Error where
  /-- The version of the description, if it states one, is not supported. -/
  | version (found : Option String)
  /-- A schema reference does not begin with the root of the definitions. -/
  | foreignReference (root target : String)
  | unknownDefinition (name target : String)
  /-- A reference ends where a property name has to follow. -/
  | propertyNameMissing (segments : List String)
  | unknownProperty (name : String)
  /-- A property is looked up in a shape that has no properties. -/
  | propertyOf (name : String) (kind : Kind)
  /-- The items are looked up of a shape that is not an array. -/
  | itemsOf (kind : Kind)
  | unknownSegment (segment : String) (segments : List String)
  | unknownParameter (target : String)
  /-- A reference to a response or request body leads nowhere. -/
  | unknownContent (target : String)
  /-- A property is put into a shape that has no properties. -/
  | setProperty (name : Json) (kind : Kind)
  /-- A shape that is not an object is made to extend definitions. -/
  | extendKind (kind : Kind) (bases : List String)
  /-- A reference into a definition is made a base. -/
  | extendDerived (name : String) (path : List String)
  | mergeKinds (theirs mine : Kind)
  /-- A value cannot be an enumeration literal. -/
  | enumLiteral (value : Json)
  | enumMixed (kinds : List Kind) (values : List Json)
  /-- A schema is neither an object nor one of the values for any shape. -/
  | notSchema (value : Json)
  | typeUnion (tags : List Json)
  | unknownType (tag : Json)
  /-- The literals of a shape to be rendered are of several types. -/
  | literalsMixed (values : List Json)
  /-- A value has no literal. -/
  | literalForm (value : Json)
  /-- A value has no enumeration member name. -/
  | memberName (value : Json)
  | unreadable (location path : String) (cause : FileError)
  /-- A location cannot be fetched; the detail is what the connection reports. -/
  | unreachable (location : String) (detail : Option String)
  | invalidFile (location : String)
  | invalidResponse (location : String)
  /-- A location on the web is no address. -/
  | invalidAddress (location : String)
  /-- A location holds a value that is not an object. -/
  | notObject (location : String)
  | malformed (cause : Malformed)

namespace Error

def family : Error → ErrorFamily
  | .version _ => .version
  | .foreignReference .. | .unknownDefinition .. | .propertyNameMissing _ | .unknownProperty _
  | .propertyOf .. | .itemsOf _ | .unknownSegment .. | .unknownParameter _
  | .unknownContent _ => .reference
  | .setProperty .. | .extendKind .. | .extendDerived .. | .mergeKinds .. => .merge
  | .enumLiteral _ | .enumMixed .. => .enumeration
  | .notSchema _ | .typeUnion _ | .unknownType _ => .type
  | .literalsMixed _ | .literalForm _ | .memberName _ => .synthesis
  | .unreadable .. | .unreachable .. | .invalidFile _ | .invalidResponse _
  | .notObject _ => .load
  | .invalidAddress _ => .address
  | .malformed cause => .malformed cause

def formName : Json → String
  | .null => "NoneType"
  | .bool _ => "bool"
  | .int _ => "int"
  | .double _ => "float"
  | .string _ => "str"
  | .array _ => "list"
  | .object _ => "dict"

def displayValues (values : List Json) : String :=
  (Json.array values).display

def path (segments : List String) : String :=
  String.intercalate "/" segments

/-- The text of an error. An invalid address and the misuse of a malformed description have
none. -/
def message : Error → String
  | .version found => "unsupported document version: " ++ found.getD "missing"
  | .foreignReference root target =>
    "unsupported $ref (expected " ++ root ++ "...): " ++ target
  | .unknownDefinition name target =>
    "cannot find definition " ++ Text.display name ++ ": " ++ target
  | .propertyNameMissing segments => "$ref missing property name: " ++ path segments
  | .unknownProperty name => "cannot find property: " ++ name
  | .propertyOf name kind => "cannot find property " ++ Text.display name ++ " on " ++ kind.word
  | .itemsOf kind => "cannot get array item type from: " ++ kind.word
  | .unknownSegment segment segments =>
    "unsupported $ref segment " ++ Text.display segment ++ ": " ++ path segments
  | .unknownParameter target => "cannot resolve parameter $ref: " ++ target
  | .unknownContent target => "cannot resolve response or request body $ref: " ++ target
  | .setProperty name kind => "cannot set property " ++ name.display ++ " on " ++ kind.word
  | .extendKind kind bases =>
    "cannot extend " ++ kind.word ++ " with " ++ String.intercalate ", " bases
  | .extendDerived name path =>
    "cannot extend derived reference " ++ name ++ Text.displayList path
  | .mergeKinds theirs mine => "cannot merge " ++ theirs.word ++ " into " ++ mine.word
  | .enumLiteral value => "unsupported enum literal: " ++ value.display
  | .enumMixed kinds values =>
    "enum mixes literal types (" ++ String.intercalate ", " (kinds.map Kind.word) ++ "): " ++
      displayValues values
  | .notSchema value => "schema must be an object, got: " ++ value.display
  | .typeUnion tags => "unsupported type union: " ++ displayValues tags
  | .unknownType tag => "unsupported schema type: " ++ tag.display
  | .literalsMixed values => "enum mixes literal types: " ++ displayValues values
  | .literalForm value => "unsupported literal type: " ++ formName value
  | .memberName value => "cannot create enum member name for: " ++ value.display
  | .unreadable location path cause =>
    "cannot read " ++ location ++ ": " ++ cause.reason ++ ": " ++ Text.display path
  | .unreachable location detail =>
    "cannot fetch " ++ location ++ (detail.map (": " ++ ·)).getD ""
  | .invalidFile location => "invalid JSON in " ++ location
  | .invalidResponse location => "invalid JSON from " ++ location
  | .notObject location => location ++ " does not contain a JSON object"
  | .invalidAddress _ | .malformed _ => ""

end Error

instance : MonadLift (Except Malformed) (Except Error) where
  monadLift
    | .ok value => .ok value
    | .error cause => .error (.malformed cause)

end ApiTypes
