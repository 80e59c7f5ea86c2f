import ApiTypes.CommandLine.Log
import ApiTypes.Generation

/-!
The progress of a run, for verbose output: which references to definitions are resolved, in order
and up to the first error, and which parts are done.
-/

namespace ApiTypes.CommandLine

open Schema

def succeeds {ε α : Type} : Except ε α → Bool
  | .ok _ => true
  | .error _ => false

def givesProperties (scope : Scope) (members : Members) : Bool :=
  match members.lookup "properties" with
  | some (.object table) => succeeds (ofProperties scope [] table)
  | some value => succeeds (noTable value)
  | none => true

def ofBranchesOf (scope : Scope) (members : Members) : Except Error Schema :=
  match members.lookup "allOf" with
  | some (.array branches) => ofBranches scope empty branches
  | other => ofNoBranches (other.getD .null)

mutual

/-- The references that are resolved while the shape of a schema is built. -/
def resolvedIn (scope : Scope) : Json → List String
  | .object members =>
    match (Json.object members).reference? with
    | some target => if succeeds (scope.resolve target) then [target] else []
    | none =>
      if Members.has members "allOf" then resolvedInComposition scope members
      else resolvedInPlain scope members
  | _ => []
  termination_by value => 4 * sizeOf value
  decreasing_by
    all_goals simp
    all_goals omega

def resolvedInComposition (scope : Scope) (members : List (String × Json)) : List String :=
  (match _h : members.lookup "allOf" with
    | some (.array branches) => resolvedInBranches scope empty branches
    | _ => []) ++
    -- What stands beside the branches is read only once all of them are composed.
    if Members.has members "properties" && succeeds (ofBranchesOf scope members) then
      resolvedInPlain scope (siblings members)
    else []
  termination_by 4 * sizeOf members + 2
  decreasing_by
    · have := sizeOf_lookup_lt _h
      simp at this
      omega
    · have := sizeOf_siblings_le members
      omega

def resolvedInBranches (scope : Scope) (whole : Schema) : List Json → List String
  | [] => []
  | branch :: branches =>
    resolvedIn scope branch ++
      match ofFragment scope branch >>= whole.merge with
      | .ok whole => resolvedInBranches scope whole branches
      | .error _ => []
  termination_by branches => 4 * sizeOf branches

def resolvedInPlain (scope : Scope) (members : List (String × Json)) : List String :=
  match Kind.ofFragment members with
  | .ok (.array, _) =>
    (match _h : members.lookup "items" with
    | some items => resolvedIn scope items
    | none => [])
  | .ok (.object, _) => resolvedInTable scope members
  | _ => []
  termination_by 4 * sizeOf members + 1
  decreasing_by
    · have := sizeOf_lookup_lt _h
      omega
    · omega

def resolvedInTable (scope : Scope) (members : List (String × Json)) : List String :=
  if !succeeds (requiredNames members) then []
  else
    (match _h : members.lookup "properties" with
    | some (.object table) => resolvedInProperties scope table
    | _ => []) ++
    if givesProperties scope members then
      (match _h : members.lookup "additionalProperties" with
      | some (.object fragment) => resolvedIn scope (.object fragment)
      | _ => [])
    else []
  termination_by 4 * sizeOf members
  decreasing_by
    · have := sizeOf_lookup_lt _h
      simp at this ⊢
      omega
    · have := sizeOf_lookup_lt _h
      simp at this ⊢
      omega

def resolvedInProperties (scope : Scope) : List (String × Json) → List String
  | [] => []
  | (_, fragment) :: table =>
    resolvedIn scope fragment ++
      if succeeds (ofFragment scope fragment) then resolvedInProperties scope table else []
  termination_by table => 4 * sizeOf table

end

def resolvedInParameter (scope : Scope) (parameter : Json) : List String :=
  match Exchange.destination scope parameter with
  | .ok (some (_, _, members)) =>
    match parameterMembers scope (.object members) with
    | .ok members => resolvedIn scope (parameterSchema members)
    | .error _ => []
  | _ => []

/-- The references that are resolved while parameters are added to an exchange, and the exchange
if all can be added. -/
def resolvedInParameters (scope : Scope) (exchange : Exchange) :
    List Json → List String × Option Exchange
  | [] => ([], some exchange)
  | parameter :: parameters =>
    let resolved := resolvedInParameter scope parameter
    match exchange.add scope parameter with
    | .error _ => (resolved, none)
    | .ok exchange =>
      let (more, last) := resolvedInParameters scope exchange parameters
      (resolved ++ more, last)

def resolvedInParameterList (scope : Scope) (exchange : Exchange) (list : Json) :
    List String × Option Exchange :=
  match (list.orElse (.array [])).elements with
  | .ok parameters => resolvedInParameters scope exchange parameters
  | .error _ => ([], none)

def resolvedInContent (scope : Scope) (fragment : Json) : List String :=
  if fragment.isNull then []
  else
    match contentMembers scope fragment with
    | .error _ => []
    | .ok members =>
      match contentSchema scope.dialect members with
      | .ok schema => resolvedIn scope schema
      | .error _ => []

def resolvedInOperation (scope : Scope) (raw : RawOperation) : List String :=
  match resolvedInParameterList scope {} raw.shared with
  | (shared, none) => shared
  | (shared, some exchange) =>
    match resolvedInParameterList scope exchange (Members.get raw.members "parameters") with
    | (own, none) => shared ++ own
    | (own, some _) =>
      let request := Members.get raw.members "requestBody"
      let body := resolvedInContent scope request
      if !request.isNull && !succeeds (ofContent scope request) then shared ++ own ++ body
      else
        let responses := (Members.get raw.members "responses").orElse (.object [])
        match Exchange.successResponse responses with
        | .ok success => shared ++ own ++ body ++ resolvedInContent scope success
        | .error _ => shared ++ own ++ body

def resolvedLines (targets : List String) : List LogLine :=
  targets.map fun target => .detail .references ("Resolved " ++ target)

def definitionLines (scope : Scope) : Members → List LogLine
  | [] => []
  | (_, fragment) :: table =>
    resolvedLines (resolvedIn scope fragment) ++
      if succeeds (ofFragment scope fragment) then definitionLines scope table else []

def operationLines (scope : Scope) : List (Except Malformed RawOperation) → List LogLine
  | [] => []
  | .error _ :: _ => []
  | .ok raw :: rest =>
    resolvedLines (resolvedInOperation scope raw) ++
      if succeeds (Analysis.ofRawOperation scope (.ok raw)) then
        .detail .analyzer ("Analyzed " ++ raw.method.map Char.toUpper ++ " " ++ raw.path) ::
          operationLines scope rest
      else []

/-- The details of the analysis of a description, up to the first error. -/
def analysisLines (value : Json) : List LogLine :=
  match Document.ofJson value with
  | .error _ => []
  | .ok document =>
    match Scope.ofDocument document, document.definitions >>= Json.members with
    | .ok scope, .ok table =>
      let lines := definitionLines scope table
      if succeeds (Analysis.ofDefinitions scope table) then
        lines ++
          [.detail .analyzer ("Built " ++ toString table.length ++ " definitions")] ++
          operationLines scope document.operations
      else lines
    | _, _ => []

/-- The detail of a part that loses its null: a nullable shape that becomes an interface. -/
def blockLines : Block → List LogLine
  | .comment _ => []
  | .declaration name schema =>
    match TypeScript.interfaceFields? schema with
    | .ok (some _) =>
      if schema.nullable then
        [.detail .declarations ("Interface " ++ TypeScript.identifier name ++
          " cannot be nullable, dropping | null")]
      else []
    | _ => []

/-- The details of the rendering of parts, up to the first error; `count` parts came before. -/
def renderLines (emitEnums : Bool) (count : Nat) : List Block → List LogLine
  | [] => [.detail .generator ("Rendered " ++ toString count ++ " blocks")]
  | block :: blocks =>
    match block.text emitEnums with
    | .error _ => []
    | .ok _ => blockLines block ++ renderLines emitEnums (count + 1) blocks

end ApiTypes.CommandLine
