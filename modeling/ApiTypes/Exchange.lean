import ApiTypes.Schema.Fragment

/-!
The request and response shapes of an operation. Its parameters are sorted into one shape for each
place they are sent in; the body and the success response make two more.
-/

namespace ApiTypes

structure Exchange where
  header : Schema := .empty
  path : Schema := .empty
  query : Schema := .empty
  body : Schema := .empty
  form : Schema := .empty
  response : Schema := .empty
  /-- The parameters that have no place, as they are written. -/
  skipped : List Json := []
  deriving Inhabited

/-- A shape of an exchange that parameters become properties of. -/
inductive Slot where
  | header
  | path
  | query
  | body
  | form
  deriving DecidableEq, Repr

namespace Slot

def ofLocation? : Json → Option Slot
  | .string "header" => some .header
  | .string "path" => some .path
  | .string "query" => some .query
  | .string "formData" => some .form
  | _ => none

end Slot

inductive Placement where
  /-- Nothing: the parameter has no place. -/
  | skipped (raw : Json)
  /-- The whole body. -/
  | body (schema : Schema)
  /-- One property of a slot. -/
  | property (slot : Slot) (name : Json) (schema : Schema)

namespace Exchange

def slot (exchange : Exchange) : Slot → Schema
  | .header => exchange.header
  | .path => exchange.path
  | .query => exchange.query
  | .body => exchange.body
  | .form => exchange.form

def withSlot (exchange : Exchange) (schema : Schema) : Slot → Exchange
  | .header => { exchange with header := schema }
  | .path => { exchange with path := schema }
  | .query => { exchange with query := schema }
  | .body => { exchange with body := schema }
  | .form => { exchange with form := schema }

/-- What a parameter stands for, once a reference to a shared one is replaced by it; `null` for a
reference that leads nowhere. -/
def resolved (scope : Scope) (raw : Json) : Json :=
  match raw.reference? with
  | some target => ((scope.parameter? target).map Json.object).getD .null
  | none => raw

/-- Where a parameter belongs: the slot, its name and its members. It belongs nowhere if it is no
object, has no name, or has an unknown location. -/
def destination (scope : Scope) (raw : Json) : Except Malformed (Option (Slot × Json × Members)) :=
  match resolved scope raw with
  | .object members =>
    let name := Members.get members "name"
    let location := Members.get members "in"
    if !name.isTruthy then .ok none
    else if location.isText "body" then .ok (some (.body, name, members))
    else if !location.isKey then .error .key
    else .ok ((Slot.ofLocation? location).map fun slot => (slot, name, members))
  | _ => .ok none

/-- What a parameter adds to an exchange. A body parameter of the name `body` is the whole
body. -/
def place (scope : Scope) (raw : Json) : Except Error Placement := do
  match ← destination scope raw with
  | none => return .skipped raw
  | some (slot, name, members) =>
    let schema ← Schema.ofParameter scope (.object members)
    return if slot = .body ∧ name.isText "body" then .body schema else .property slot name schema

/-- The exchange with something added. A later property of a name replaces an earlier one. -/
def put (exchange : Exchange) : Placement → Except Error Exchange
  | .skipped raw => .ok { exchange with skipped := exchange.skipped ++ [raw] }
  | .body schema => .ok { exchange with body := schema }
  | .property slot name schema => do
    let filled ← (exchange.slot slot).setProperty name schema
    return exchange.withSlot filled slot

def add (scope : Scope) (exchange : Exchange) (raw : Json) : Except Error Exchange := do
  exchange.put (← place scope raw)

def addAll (scope : Scope) (exchange : Exchange) (list : Json) : Except Error Exchange := do
  let parameters ← (list.orElse (.array [])).elements
  parameters.foldlM (add scope) exchange

/-- The response for success: the one for 200, else the first whose code begins with a 2; `null`
where there is none. -/
def successResponse (responses : Json) : Except Malformed Json := do
  if ← responses.holds "200" then responses.at "200"
  else
    let table ← responses.members
    return ((table.find? fun (code, _) => Text.startsWith "2" code).map (·.2)).getD .null

/-- The exchange of an operation; `shared` are the parameters of its path item. -/
def ofOperation (scope : Scope) (operation shared : Json) : Except Error Exchange := do
  -- The operation's own parameters come second and so win over shared ones of their names.
  let exchange ← addAll scope {} shared
  let members ← operation.members
  let exchange ← addAll scope exchange (Members.get members "parameters")
  let request := Members.get members "requestBody"
  let body ← if request.isNull then pure exchange.body else Schema.ofContent scope request
  let success ← successResponse ((Members.get members "responses").orElse (.object []))
  let response ←
    if success.isNull then pure exchange.response else Schema.ofContent scope success
  return { exchange with body, response }

end Exchange

end ApiTypes
