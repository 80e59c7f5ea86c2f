import ApiTypes.Schema.Merge
import ApiTypes.Scope

/-!
From the fragments of a description to shapes: schemas, parameters, responses and request bodies.
-/

namespace ApiTypes

/-- The first value of a media table that is for a JSON media type and is an object. -/
def jsonMedia? (table : Members) : Option Members :=
  table.findSome? fun (mediaType, media) =>
    match media with
    | .object members =>
      if Text.occursIn "json".toList (mediaType.toList.map Char.toLower) then some members else none
    | _ => none

namespace Kind

/-- The kinds that type tags stand for; some formats are taken as tags. -/
def tags : List (String × Kind) :=
  [("string", .string), ("binary", .string), ("byte", .string), ("date", .string),
    ("dateTime", .string), ("password", .string), ("file", .string), ("number", .number),
    ("integer", .number), ("float", .number), ("double", .number), ("boolean", .boolean),
    ("array", .array), ("object", .object)]

def ofTag : Json → Except Error Kind
  | .string tag =>
    match tags.lookup tag with
    | some kind => .ok kind
    | none => .error (.unknownType (.string tag))
  | tag => if tag.isKey then .error (.unknownType tag) else .error (.malformed .key)

def ofLiteral : Json → Except Error Kind
  | .bool _ => .ok .boolean
  | .int _ => .ok .number
  | .double _ => .ok .number
  | .string _ => .ok .string
  | value => .error (.enumLiteral value)

/-- The type tag of a fragment, and whether it comes in a list together with `"null"`. -/
def typeTag (members : Members) : Except Error (Json × Bool) :=
  match Members.get members "type" with
  | .array tags =>
    match tags.filter fun tag => !tag.isText "null" with
    | [tag] => .ok (tag, 1 < tags.length)
    | _ => .error (.typeUnion tags)
  | tag => .ok (tag, false)

/-- The kind of a fragment without a type tag: that of its first enumeration literal, else
object. -/
def untagged (members : Members) : Except Error Kind := do
  let values ← ((Members.get members "enum").orElse (.array [])).elements
  match values.find? (!·.isNull) with
  | some value => ofLiteral value
  | none => return .object

/-- The kind of a fragment, and whether its type tag makes it nullable. -/
def ofFragment (members : Members) : Except Error (Kind × Bool) := do
  let (tag, nullable) ← typeTag members
  let kind ← if tag.isNull then untagged members else ofTag tag
  return (kind, nullable)

end Kind

namespace Schema

/-- The literals of an enumeration, and whether null is among its values. The literals have to be
of one kind. -/
def literals (values : List Json) : Except Error (List Json × Bool) := do
  let found := values.filter (!·.isNull)
  let kinds ← found.mapM Kind.ofLiteral
  let present := [Kind.boolean, .number, .string].filter (kinds.contains ·)
  if 1 < present.length then .error (.enumMixed present values)
  else return (found, values.any (·.isNull))

def enumeration (members : Members) : Except Error (List Json × Bool) :=
  let value := Members.get members "enum"
  if value.isTruthy then do literals (← value.elements) else .ok ([], false)

def declaresNullable (members : Members) : Bool :=
  (Members.get members "nullable").isTruthy || (Members.get members "x-nullable").isTruthy

def requiredNames (members : Members) : Except Error (List String) := do
  let elements ← ((Members.get members "required").orElse (.array [])).elements
  Scope.namesOf elements

/-- A member of an object is smaller than the object. -/
theorem sizeOf_lookup_lt {members : List (String × Json)} {name : String} {value : Json}
    (h : members.lookup name = some value) : sizeOf value < sizeOf members := by
  induction members with
  | nil => simp at h
  | cons m ms ih =>
    obtain ⟨n, v⟩ := m
    rw [List.lookup_cons] at h
    split at h
    · cases h
      simp
      omega
    · have := ih h
      simp
      omega

def siblings (members : List (String × Json)) : List (String × Json) :=
  members.filter (·.1 != "allOf")

theorem sizeOf_siblings_le (members : List (String × Json)) :
    sizeOf (siblings members) ≤ sizeOf members := by
  unfold siblings
  induction members with
  | nil => simp
  | cons m ms ih =>
    rw [List.filter_cons]
    split
    · simp
      omega
    · simp
      omega

/-- A composition with the description and the flag of the schema that composes. -/
def composed (members : Members) (whole : Schema) : Schema :=
  { whole with
    description := (Members.get members "description").orElse whole.description
    nullable := whole.nullable || declaresNullable members }

/-- The composition of a value that is no list of schemas: nothing if the value is empty, and
otherwise its first element is no schema. -/
def ofNoBranches (value : Json) : Except Error Schema := do
  match ← value.elements with
  | [] => return empty
  | first :: _ => .error (.notSchema first)

def noTable (value : Json) : Except Error (List (PropertyName × Schema)) := do
  let _ ← (value.orElse (.object [])).members
  return []

mutual

def ofFragment (scope : Scope) : Json → Except Error Schema
  | .null => .ok openObject
  | .bool true => .ok openObject
  | .object members =>
    match (Json.object members).reference? with
    | some target => scope.resolve target
    | none =>
      if Members.has members "allOf" then composed members <$> ofComposition scope members
      else ofPlain scope members
  | value => .error (.notSchema value)
  -- Up to four steps look at one list of members before one of them goes into a part of it.
  termination_by value => 4 * sizeOf value
  decreasing_by
    all_goals simp
    all_goals omega

/-- The composition of the branches that the members of a schema list and, if there are any, the
properties beside them. -/
def ofComposition (scope : Scope) (members : List (String × Json)) : Except Error Schema := do
  let whole ← (match _h : members.lookup "allOf" with
    | some (.array branches) => ofBranches scope empty branches
    | other => ofNoBranches (other.getD .null))
  if Members.has members "properties" then
    let own ← ofPlain scope (siblings members)
    whole.merge own
  else return whole
  termination_by 4 * sizeOf members + 2
  decreasing_by
    · have := sizeOf_lookup_lt _h
      simp at this
      omega
    · have := sizeOf_siblings_le members
      omega

def ofBranches (scope : Scope) (whole : Schema) : List Json → Except Error Schema
  | [] => .ok whole
  | branch :: branches => do
    let part ← ofFragment scope branch
    let whole ← whole.merge part
    ofBranches scope whole branches
  termination_by branches => 4 * sizeOf branches

/-- The shape that the members of a schema describe, a composition left aside. -/
def ofPlain (scope : Scope) (members : List (String × Json)) : Except Error Schema := do
  let (kind, nullable) ← Kind.ofFragment members
  let items ← if kind = .array then ofItems scope members else pure none
  let (properties, additional) ← if kind = .object then ofTable scope members else pure ([], none)
  let (enumValues, admitsNull) ← enumeration members
  return {
    kind
    description := (Members.get members "description").orElse (.string "")
    deprecated := (Members.get members "deprecated").isTruthy
    nullable := nullable || declaresNullable members || admitsNull
    enumValues
    items
    properties
    additional }
  termination_by 4 * sizeOf members + 1

def ofItems (scope : Scope) (members : List (String × Json)) : Except Error (Option Schema) :=
  match _h : members.lookup "items" with
  | none => .ok none
  | some .null => .ok none
  | some items => some <$> ofFragment scope items
  termination_by 4 * sizeOf members
  decreasing_by
    have := sizeOf_lookup_lt _h
    omega

/-- The properties of an object and the shape of all others, as its members describe them. -/
def ofTable (scope : Scope) (members : List (String × Json)) :
    Except Error (Properties × Option Schema) := do
  let required ← requiredNames members
  let properties ← (match _h : members.lookup "properties" with
    | none => .ok []
    | some (.object table) => ofProperties scope required table
    | some value => noTable value)
  let additional ← (match _h : members.lookup "additionalProperties" with
    | some (.bool true) => .ok (some openObject)
    | some (.object fragment) => some <$> ofFragment scope (.object fragment)
    | _ => .ok none)
  return (Properties.ofList properties, additional)
  termination_by 4 * sizeOf members
  decreasing_by
    · have := sizeOf_lookup_lt _h
      simp at this ⊢
      omega
    · have := sizeOf_lookup_lt _h
      simp at this ⊢
      omega

/-- The shapes of a table of properties, of which the listed ones are required. -/
def ofProperties (scope : Scope) (required : List String) :
    List (String × Json) → Except Error (List (PropertyName × Schema))
  | [] => .ok []
  | (name, fragment) :: table => do
    let property ← ofFragment scope fragment
    let property := { property with required := property.required || required.contains name }
    let rest ← ofProperties scope required table
    return (.text name, property) :: rest
  termination_by table => 4 * sizeOf table

end

/-- The members of a fragment that describe the value of an inline parameter. -/
def inlineMembers (members : Members) : Members :=
  members.filter fun (name, _) => ["type", "items", "enum", "x-nullable"].contains name

/-- The schema of the value of a parameter: its schema, else that of its JSON media type, else the
members that describe it inline. -/
def parameterSchema (members : Members) : Json :=
  match members.lookup "schema" with
  | some fragment => fragment
  | none =>
    match Members.get members "content" with
    | .object table => Members.get ((jsonMedia? table).getD []) "schema"
    | _ => .object (inlineMembers members)

def parameterMembers (scope : Scope) (fragment : Json) : Except Error Members :=
  match fragment.reference? with
  | some target =>
    match scope.parameter? target with
    | some members => .ok members
    | none => .error (.unknownParameter target)
  | none =>
    match fragment with
    | .object members => .ok members
    | value => do
      if ← value.holds "schema" then .error (.malformed .position)
      else .error (.malformed .members)

/-- The shape that a parameter, or a reference to a shared one, describes. The flags and the
description of the parameter are laid over those of its schema. -/
def ofParameter (scope : Scope) (fragment : Json) : Except Error Schema := do
  let members ← parameterMembers scope fragment
  let schema ← ofFragment scope (parameterSchema members)
  return { schema with
    required := schema.required || (Members.get members "required").isTruthy
    description := (Members.get members "description").orElse schema.description
    deprecated := schema.deprecated || (Members.get members "deprecated").isTruthy }

def contentSchema (dialect : Dialect) (members : Members) : Except Malformed Json :=
  match dialect with
  | .swagger2 => .ok (Members.get members "schema")
  | .openapi3 => do
    let table ← ((Members.get members "content").orElse (.object [])).members
    return ((jsonMedia? table).map (Members.get · "schema")).getD .null

def contentMembers (scope : Scope) (fragment : Json) : Except Error Members :=
  match fragment.reference? with
  | some target => scope.content target
  | none => fragment.members

/-- The shape that a response or request body, or a reference to a shared one, describes. Without
a schema for JSON it is empty. -/
def ofContent (scope : Scope) (fragment : Json) : Except Error Schema := do
  let members ← contentMembers scope fragment
  let schema ← contentSchema scope.dialect members
  if schema.isNull then return empty else ofFragment scope schema

end Schema

end ApiTypes
