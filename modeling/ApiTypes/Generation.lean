import ApiTypes.Analysis
import ApiTypes.Formatter
import ApiTypes.OperationName
import ApiTypes.TypeScript.Declaration

/-!
The generated file: the declarations of the definitions, then for each operation a comment and the
declarations of its shapes.
-/

namespace ApiTypes

inductive Block where
  | comment (text : String)
  | declaration (name : String) (schema : Schema)

namespace Block

def text (emitEnums : Bool) : Block → Except Error String
  | .comment text => .ok (TypeScript.comment text)
  | .declaration name schema => TypeScript.declaration emitEnums schema name

end Block

namespace Operation

def typeStem (operation : Operation) : String :=
  (OperationName.infer operation.method operation.path).pascal

/-- The shapes of an operation that are declared where they are not empty. -/
def groups (operation : Operation) : List (String × Schema) :=
  let exchange := operation.exchange
  [("Headers", exchange.header), ("Path", exchange.path), ("Query", exchange.query),
    ("Body", exchange.body), ("FormData", exchange.form)]

/-- The shape of a whole request: it extends the query and the path and has the body as a property;
there is none if all three are empty. -/
def request? (operation : Operation) : Option Schema :=
  let exchange := operation.exchange
  let stem := operation.typeStem
  let query := if exchange.query.isEmpty then [] else [stem ++ "Query"]
  let path := if exchange.path.isEmpty then [] else [stem ++ "Path"]
  let body : Properties :=
    if exchange.body.isEmpty then []
    else [(.text "body", { Schema.reference (stem ++ "Body") with required := true })]
  if query.isEmpty && path.isEmpty && body.isEmpty then none
  else some { properties := body, heritage := query ++ path }

def blocks (operation : Operation) : List Block :=
  let stem := operation.typeStem
  let groups := operation.groups.filter fun (_, schema) => !schema.isEmpty
  let request := operation.request?.toList
  [.comment (operation.method.map Char.toUpper ++ " " ++ operation.path)] ++
    groups.map (fun (suffix, schema) => .declaration (stem ++ suffix) schema) ++
    [.declaration (stem ++ "Response") operation.exchange.response] ++
    request.map (.declaration (stem ++ "Request"))

end Operation

namespace Analysis

def blocks (analysis : Analysis) : List Block :=
  analysis.definitions.map (fun (name, schema) => .declaration name schema) ++
    analysis.operations.flatMap Operation.blocks

end Analysis

namespace Generation

def programName : String := "openapi_to_ts"

def version : String := "1.0.0"

/-- The head of the generated file: how it was made, if the settings ask for it. -/
def header (settings : Settings) (commandLine : String) : String :=
  if settings.generationComment.isTruthy then
    TypeScript.fileHeader (TypeScript.comment
      ("Generated by " ++ programName ++ " v" ++ version ++ " : " ++ commandLine))
  else TypeScript.fileHeader ""

/-- The parts of a file below each other, a blank line between two. -/
def layout (texts : List String) : String :=
  if texts.isEmpty then "" else String.intercalate "\n\n" texts ++ "\n"

def texts (settings : Settings) (analysis : Analysis) : Except Error (List String) :=
  analysis.blocks.mapM (Block.text settings.emitEnums.isTruthy)

def code (settings : Settings) (commandLine : String) (analysis : Analysis) :
    Except Error String := do
  let texts ← texts settings analysis
  return header settings commandLine ++ layout texts

/-- The generated file after the formatting step, if that is enabled. -/
def finish (settings : Settings) (session : Session) (code : String) :
    Except Malformed String × Session :=
  match settings.formatterOptions with
  | .error cause => (.error cause, session)
  | .ok options =>
    if options.enabled.isTruthy then session.format options code else (.ok code, session)

def ofAnalysis (settings : Settings) (commandLine : String) (session : Session)
    (analysis : Analysis) : Except Error String × Session :=
  match code settings commandLine analysis with
  | .error error => (.error error, session)
  | .ok code =>
    match finish settings session code with
    | (.ok code, session) => (.ok code, session)
    | (.error cause, session) => (.error (.malformed cause), session)

end Generation

end ApiTypes
