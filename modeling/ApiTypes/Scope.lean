import ApiTypes.Document
import ApiTypes.Schema.Lookup

/-!
What the references of a description can point to: the names of its definitions, and its shared
parameters, responses and request bodies. A reference to a definition is recorded and never
followed.
-/

namespace ApiTypes

structure Scope where
  document : Document
  names : List String

namespace Scope

/-- The names among the elements of a table. All elements have to be usable as keys. -/
def namesOf : List Json → Except Malformed (List String)
  | [] => .ok []
  | .string s :: rest => do return s :: (← namesOf rest)
  | value :: rest => if value.isKey then namesOf rest else .error .key

def ofDocument (document : Document) : Except Error Scope := do
  let definitions ← document.definitions
  let elements ← definitions.elements
  let names ← namesOf elements
  return { document, names }

def dialect (scope : Scope) : Dialect :=
  scope.document.dialect

def resolve (scope : Scope) (target : String) : Except Error Schema :=
  let root := scope.dialect.definitionsRoot
  match Text.after? root target with
  | none => .error (.foreignReference root target)
  | some tail =>
    match Text.pointerSegments tail with
    | [] => .error (.unknownDefinition "" target)
    | name :: segments =>
      if name ∈ scope.names then (Schema.reference name).lookup segments
      else .error (.unknownDefinition name target)

def parameter? (scope : Scope) (target : String) : Option Members :=
  scope.document.lookupShared target (some scope.dialect.parametersRoot)

def content (scope : Scope) (target : String) : Except Error Members :=
  match scope.document.lookupShared target (some scope.dialect.responsesRoot) with
  | some members => .ok members
  | none =>
    match scope.document.lookupShared target scope.dialect.requestBodiesRoot with
    | some members => .ok members
    | none => .error (.unknownContent target)

end Scope

end ApiTypes
