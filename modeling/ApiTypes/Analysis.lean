import ApiTypes.Exchange

/-!
The analysis of a description: the shape of every definition and the exchange of every operation,
in the order of the description.
-/

namespace ApiTypes

structure Operation where
  path : String
  method : String
  exchange : Exchange

structure Analysis where
  definitions : List (String × Schema)
  operations : List Operation

namespace Analysis

def ofDefinitions (scope : Scope) (table : Members) : Except Error (List (String × Schema)) :=
  table.mapM fun (name, fragment) => do
    let schema ← Schema.ofFragment scope fragment
    return (name, schema)

def ofRawOperation (scope : Scope) (raw : Except Malformed RawOperation) :
    Except Error Operation := do
  let raw ← raw
  let exchange ← Exchange.ofOperation scope (.object raw.members) raw.shared
  return { path := raw.path, method := raw.method, exchange }

def ofDocument (document : Document) : Except Error Analysis := do
  -- The names alone are asked for first: they may come from a value that is no table.
  let scope ← Scope.ofDocument document
  let table ← (← document.definitions).members
  let definitions ← ofDefinitions scope table
  let operations ← document.operations.mapM (ofRawOperation scope)
  return { definitions, operations }

def ofJson (value : Json) : Except Error Analysis := do
  ofDocument (← Document.ofJson value)

def skipped (analysis : Analysis) : List (Operation × Json) :=
  analysis.operations.flatMap fun operation => operation.exchange.skipped.map (operation, ·)

end Analysis

end ApiTypes
