import ApiTypes.Proofs.Analysis
import ApiTypes.Proofs.Schema.Respelled

/-!
# From one dialect to the other

The transcription of a description from Swagger 2.0 to OpenAPI 3. The definitions move among the
components and their references follow them; what describes the value of a parameter moves under its
schema; and the schema of a response moves under a media type.
-/

namespace ApiTypes

def Json.mapMembers (f : String → Json → Json) : Json → Json
  | .object members => .object (Members.mapValues f members)
  | value => value

namespace Transcription

/-- The target of a reference to a definition, where definitions stand among the components. -/
def target (old : String) : String :=
  match Text.after? Dialect.swagger2.definitionsRoot old with
  | some tail => Dialect.openapi3.definitionsRoot ++ tail
  | none => old

def fragment : Json → Json :=
  Fragment.respelled target

def isInline (name : String) : Bool :=
  ["type", "items", "enum", "x-nullable"].contains name

/-- The members of a parameter; what describes its value is under its schema. -/
def parameterMembers (members : Members) : Members :=
  members.filter (fun member => !isInline member.1) ++
    [("schema", fragment (.object (Schema.inlineMembers members)))]

def parameter : Json → Json
  | .object members => .object (parameterMembers members)
  | value => value

def parameters : Json → Json
  | .array list => .array (list.map parameter)
  | value => value

/-- The members of a response; its schema is under a media type. -/
def responseMembers (members : Members) : Members :=
  match members.lookup "schema" with
  | some schema =>
    members.filter (fun member => member.1 != "schema") ++
      [("content", .object [("application/json", .object [("schema", fragment schema)])])]
  | none => members

def response : Json → Json
  | .object members => .object (responseMembers members)
  | value => value

def operationMember (name : String) (value : Json) : Json :=
  if name = "parameters" then parameters value
  else if name = "responses" then value.mapMembers fun _ => response
  else value

def pathItemMember (key : String) (value : Json) : Json :=
  if key = "parameters" then parameters value
  else if isMethod key then value.mapMembers operationMember
  else value

def paths : Json → Json :=
  Json.mapMembers fun _ => Json.mapMembers pathItemMember

def definitions : Json → Json :=
  Json.mapMembers fun _ => fragment

def isKept (name : String) : Bool :=
  !(["swagger", "openapi", "definitions", "components"].contains name)

def members (old : Members) : Members :=
  [("openapi", .string "3.0.0"),
    ("components", .object
      ((old.lookup "definitions").toList.map fun table => ("schemas", definitions table)))] ++
  Members.mapValues (fun name value => if name = "paths" then paths value else value)
    (old.filter fun member => isKept member.1)

def rawOperation (raw : RawOperation) : RawOperation where
  path := raw.path
  method := raw.method
  shared := parameters raw.shared
  members := Members.mapValues operationMember raw.members

end Transcription

/-! ## Members changed one by one -/

theorem Json.mapMembers_orElse (f : String → Json → Json) (value : Json) :
    (value.mapMembers f).orElse (.object []) = (value.orElse (.object [])).mapMembers f := by
  cases value with
  | object members => rw [mapMembers, orElse_object, orElse_object, mapMembers]
  | _ =>
    rw [mapMembers]
    · unfold orElse
      split <;> rfl
    · simp

theorem Json.members_mapMembers (f : String → Json → Json) (value : Json) :
    (value.mapMembers f).members = value.members.map (Members.mapValues f) := by
  cases value <;> rfl

namespace Transcription

/-- A transcribed document is of the newer dialect. -/
theorem detect_members (old : Members) :
    Dialect.detect (.object (members old)) = .ok .openapi3 := by
  -- The version of the old dialect would come first.
  have hswagger : (members old).lookup "swagger" = none := by
    have hkept : (old.filter fun member => isKept member.1).lookup "swagger" = none :=
      lookup_filter_of_not (by decide)
    rw [members, List.lookup_append, Members.lookup_mapValues, hkept]
    rfl
  have hopenapi : (members old).lookup "openapi" = some (.string "3.0.0") := rfl
  have hversion : Text.startsWith "3." (Json.string "3.0.0").plain = true := by decide
  simp [Dialect.detect, Json.holds, Json.at, Members.has, Members.get, hswagger, hopenapi, hversion]

/-! ## Definitions -/

theorem definitions_members (old : Members) :
    (⟨.openapi3, members old⟩ : Document).definitions =
      (⟨.swagger2, old⟩ : Document).definitions.map definitions := by
  have hcomponents : Members.get (members old) "components" = .object
      ((old.lookup "definitions").toList.map fun table => ("schemas", definitions table)) := rfl
  simp only [Document.definitions, hcomponents, Json.orElse_object, Json.members, ok_bind]
  rw [Members.get, Members.get]
  cases old.lookup "definitions" with
  | none => rfl
  | some table => exact congrArg Except.ok (Json.mapMembers_orElse _ table)

/-! ## Operations -/

theorem operation?_pathItemMember (path : String) (item : Members) (key : String) (value : Json) :
    Document.operation? .openapi3 path (Members.mapValues pathItemMember item) key
        (pathItemMember key value) =
      (Document.operation? .openapi3 path item key value).map (Option.map rawOperation) := by
  have hshared : Members.get (Members.mapValues pathItemMember item) "parameters" =
      parameters (Members.get item "parameters") :=
    Members.get_mapValues rfl
  cases hmethod : isMethod key with
  | false => simp [Document.operation?, hmethod, Except.map]
  | true =>
    -- The shared parameters are no operation, so a member is changed in one way only.
    have hkey : key ≠ "parameters" := by
      rintro rfl
      exact absurd hmethod (by decide)
    have hvalue : pathItemMember key value = value.mapMembers operationMember := by
      rw [pathItemMember, if_neg hkey, if_pos hmethod]
    simp only [Document.operation?, hmethod, hvalue, hshared, Json.mapMembers_orElse,
      Json.members_mapMembers]
    cases (value.orElse (.object [])).members with
    | error cause => rfl
    | ok members => simp [Except.map, Dialect.skipsDeprecated, rawOperation]

/-- The operations of a path are transcribed one by one. -/
theorem itemOperations_mapMembers (path : String) (item : Json) :
    Document.itemOperations .openapi3 path (item.mapMembers pathItemMember) =
      (Document.itemOperations .openapi3 path item).map (Except.map rawOperation) := by
  simp only [Document.itemOperations, Json.mapMembers_orElse, Json.members_mapMembers]
  cases (item.orElse (.object [])).members with
  | error cause => rfl
  | ok members =>
    simp only [Except.map, List.map_filterMap]
    rw [Members.mapValues, List.filterMap_map]
    refine List.filterMap_congr fun member _ => ?_
    have hfound := operation?_pathItemMember path members member.1 member.2
    rw [Members.mapValues] at hfound
    simp only [Function.comp, hfound]
    cases Document.operation? .openapi3 path members member.1 member.2 with
    | error cause => rfl
    | ok found => cases found <;> rfl

/-- The operations of a transcribed document are the transcribed ones. -/
theorem operations_members (old : Members) :
    (⟨.openapi3, members old⟩ : Document).operations =
      (⟨.openapi3, old⟩ : Document).operations.map (Except.map rawOperation) := by
  -- The paths are the one part of a document that holds operations.
  have hpaths : (⟨.openapi3, members old⟩ : Document).paths =
      paths (⟨.openapi3, old⟩ : Document).paths := by
    have hget : Members.get (members old) "paths" = paths (Members.get old "paths") := by
      have hkept : (old.filter fun member => isKept member.1).lookup "paths" = old.lookup "paths" :=
        lookup_filter (by decide)
      simp only [Members.get, members, List.cons_append, List.nil_append, List.lookup_cons,
        Members.lookup_mapValues, hkept]
      cases old.lookup "paths" <;> rfl
    rw [Document.paths, Document.paths, hget, paths, Json.mapMembers_orElse]
  simp only [Document.operations, hpaths, paths, Json.members_mapMembers]
  cases (⟨.openapi3, old⟩ : Document).paths.members with
  | error cause => rfl
  | ok items =>
    simp only [Except.map, Members.mapValues, List.flatMap_map, List.map_flatMap,
      itemOperations_mapMembers]

end Transcription

end ApiTypes
