import ApiTypes.Proofs.Analysis
import ApiTypes.Proofs.TypeScript.Rendering

/-!
# What is analysed is rendered

The shapes of an analysis have literals of one kind at every depth, so their rendering meets no
reported error. It ends in a text where all descriptions and names are texts.
-/

namespace ApiTypes

open Schema

namespace Operation

variable (operation : Operation)

/-- The request of an operation, composed step by step: the references to the query and the path are
merged into an empty shape, then the body becomes a property. -/
def composedRequest : Except Error Schema := do
  let stem := operation.typeStem
  let exchange := operation.exchange
  let withQuery ←
    if exchange.query.isEmpty then pure .empty else Schema.empty.merge (.reference (stem ++ "Query"))
  let withPath ←
    if exchange.path.isEmpty then pure withQuery else withQuery.merge (.reference (stem ++ "Path"))
  if exchange.body.isEmpty then return withPath
  else
    withPath.setProperty (.string "body") { Schema.reference (stem ++ "Body") with required := true }

theorem merge_request_reference {request : Schema} {name : String}
    (h : request.opened.kind = .object) : request.merge (.reference name) =
      .ok { request.opened with heritage := addBase request.opened.heritage name } :=
  (merge_reference rfl).mpr ⟨h, rfl, rfl⟩

/-- The step by step composition never fails, and it ends in the request as it is declared. -/
theorem composedRequest_eq :
    operation.composedRequest = .ok (operation.request?.getD .empty) := by
  have hbases : operation.typeStem ++ "Path" ≠ operation.typeStem ++ "Query" := by
    intro h
    simpa using congrArg String.toList h
  unfold composedRequest request?
  by_cases hquery : operation.exchange.query.isEmpty = true <;>
    by_cases hpath : operation.exchange.path.isEmpty = true <;>
      by_cases hbody : operation.exchange.body.isEmpty = true <;>
        simp [hquery, hpath, hbody, hbases, merge_request_reference, opened, Schema.empty, addBase,
          setProperty, PropertyName.ofJson, Properties.set]

end Operation

namespace Analysis

variable {document : Document} {analysis : Analysis}

/-- The descriptions of an analysis are texts, and so are the names that its parameters give to
properties. -/
structure Texts (analysis : Analysis) : Prop where
  definitions : ∀ definition ∈ analysis.definitions, Everywhere TextDescription definition.2
  exchanges : ∀ operation ∈ analysis.operations, ∀ shape ∈ operation.exchange.shapes,
    Everywhere TextDescription shape
  names : ∀ operation ∈ analysis.operations, ∀ shape ∈ operation.exchange.shapes, shape.TextKeys

theorem request?_everywhere {operation : Operation} {request : Schema} {P : Schema → Prop}
    (hrequest : request ∈ operation.request?) (hhere : P request)
    (hbody : ∀ name, P { Schema.reference name with required := true }) :
    Everywhere P request := by
  rw [Operation.request?_eq_some hrequest] at hhere ⊢
  refine .intro hhere (by simp) (fun entry hmem => ?_) (by simp)
  dsimp only at hmem
  split at hmem
  · cases hmem
  · rw [List.mem_singleton.mp hmem]
    exact .leaf (hbody _) rfl rfl rfl

/-- Every enumeration that is declared has literals of one kind. -/
theorem uniform_of_ofDocument (h : ofDocument document = .ok analysis) {name : String}
    {schema : Schema} (hblock : .declaration name schema ∈ analysis.blocks) :
    Everywhere Uniform schema := by
  obtain ⟨hdefinitions, hexchanges⟩ := shapes_of_ofDocument h
    (fun scope _ => inherent_uniform scope)
    (Exchange.Filled.everywhere kept_uniform (uniform_of_nil rfl) fun huniform => huniform)
  rcases origin_of_declaration hblock with
    ⟨definition, hmem, rfl⟩ | ⟨operation, hmem, hshape | hrequest⟩
  · exact hdefinitions definition hmem
  · exact hexchanges operation hmem schema hshape
  · refine request?_everywhere hrequest (uniform_of_nil ?_) fun _ => uniform_of_nil rfl
    rw [Operation.request?_eq_some hrequest]

/-- With text descriptions and names, every declaration is legible at every depth. -/
theorem legible_of_ofDocument (h : ofDocument document = .ok analysis) (htexts : analysis.Texts)
    {name : String} {schema : Schema} (hblock : .declaration name schema ∈ analysis.blocks) :
    Everywhere TypeScript.Legible schema := by
  obtain ⟨hdefinitions, hexchanges⟩ := shapes_of_ofDocument h
    (fun scope _ => inherent_textKeys scope) (Exchange.filled_inside TextKeys)
  rcases origin_of_declaration hblock with
    ⟨definition, hmem, rfl⟩ | ⟨operation, hmem, hshape | hrequest⟩
  · exact (htexts.definitions definition hmem).and (hdefinitions definition hmem)
  · have hkeys := (hexchanges operation hmem schema hshape).everywhere
      (htexts.names operation hmem schema hshape)
    exact (htexts.exchanges operation hmem schema hshape).and hkeys
  · -- A request has no description, and its only property is the body.
    refine request?_everywhere hrequest ?_ fun _ => ⟨⟨"", rfl⟩, by simp [TextKeys, Schema.reference]⟩
    rw [Operation.request?_eq_some hrequest]
    refine ⟨⟨"", rfl⟩, fun entry hmem => ?_⟩
    dsimp only at hmem
    split at hmem
    · cases hmem
    · exact ⟨"body", by rw [List.mem_singleton.mp hmem]⟩

/-- Only the descriptions and the names of a document can keep its analysis from being written. -/
theorem code_rendered (h : ofDocument document = .ok analysis) (settings : Settings)
    (commandLine : String) :
    FailsOnMalformed analysis.Texts (Generation.code settings commandLine analysis) := by
  refine .bind (.mapM fun block hblock => ?_) fun _ _ => .ok _
  cases block with
  | comment text => exact .ok _
  | declaration name schema =>
    exact TypeScript.declaration_rendered (uniform_of_ofDocument h hblock)
      (fun htexts => legible_of_ofDocument h htexts hblock) _ name

/-- The generation from an analysis meets no reported error, and no composition of a request fails.
Without the formatting step it ends in a text, if all descriptions and names are texts. The command
line of the header is any text here. A run makes it from what is at its paths; where it cannot look at
one of them, it is stopped by that and not by the generation. -/
theorem generated (h : ofDocument document = .ok analysis) (settings : Settings)
    (commandLine : String) (session : Session) :
    (∀ error, (Generation.ofAnalysis settings commandLine session analysis).1 = .error error →
      ∃ cause, error = .malformed cause) ∧
    (∀ operation ∈ analysis.operations,
      operation.composedRequest = .ok (operation.request?.getD .empty)) ∧
    (analysis.Texts →
      (∃ options, settings.formatterOptions = .ok options ∧ options.enabled.isTruthy = false) →
        ∃ text, (Generation.ofAnalysis settings commandLine session analysis).1 = .ok text) := by
  have hcode := code_rendered h settings commandLine
  refine ⟨?_, fun operation _ => operation.composedRequest_eq, ?_⟩
  · intro error herror
    unfold Generation.ofAnalysis at herror
    -- Printing fails only as said, and after it only the options of the formatter can be malformed.
    cases hresult : Generation.code settings commandLine analysis with
    | error cause =>
      rw [hresult] at herror
      cases herror
      exact (hcode _ hresult).2
    | ok code =>
      rw [hresult] at herror
      dsimp only at herror
      split at herror
      · cases herror
      · cases herror
        exact ⟨_, rfl⟩
  · rintro htexts ⟨options, hoptions, hdisabled⟩
    obtain ⟨code, hok⟩ := hcode.exists_ok htexts
    refine ⟨code, ?_⟩
    unfold Generation.ofAnalysis Generation.finish
    simp [hok, hoptions, hdisabled]

/-- A description with an enumeration among its definitions and another one in a parameter. -/
def moods : Document where
  dialect := .swagger2
  members := [
    ("definitions", .object [
      ("Mood", .object [("type", .string "string"), ("enum", .array [.string "calm", .string "mad"])]),
      ("Day", .object [("properties", .object [("mood", .object [
        ("$ref", .string "#/definitions/Mood")])])])]),
    ("paths", .object [("/days", .object [("get", .object [("parameters", .array [
      .object [("name", .string "limit"), ("in", .string "query"), ("type", .string "integer"),
        ("enum", .array [.int 1, .int 2]), ("description", .string "how many")]])])])])]

/-- The theorem where literals are declared as an enumeration and as a union of numbers. -/
theorem generated_moods :
    ∃ analysis text, ofDocument moods = .ok analysis ∧ analysis.Texts ∧
      (Generation.ofAnalysis { emitEnums := .bool true } "openapi_to_ts" {} analysis).1 =
        .ok text := by
  have hchecked : ((fun analysis : Analysis =>
      (analysis.definitions.all (fun definition => Everywhere TextDescription definition.2),
        analysis.operations.all fun operation => operation.exchange.shapes.all fun shape =>
          Everywhere TextDescription shape ∧ shape.TextKeys)) <$>
      ofDocument moods).toOption = some (true, true) := by
    decide +kernel
  obtain ⟨analysis, hanalysis, hparts⟩ := map_eq_ok.mp (eq_ok_of_toOption hchecked)
  obtain ⟨hdefinitions, hoperations⟩ := Prod.mk.inj hparts
  have hshapes : ∀ operation ∈ analysis.operations, ∀ shape ∈ operation.exchange.shapes,
      Everywhere TextDescription shape ∧ shape.TextKeys := by
    intro operation hmem shape hshape
    have hall := List.all_eq_true.mp hoperations operation hmem
    exact of_decide_eq_true (List.all_eq_true.mp hall shape hshape)
  have htexts : analysis.Texts := {
    definitions := fun definition hmem =>
      of_decide_eq_true (List.all_eq_true.mp hdefinitions definition hmem)
    exchanges := fun operation hmem shape hshape => (hshapes operation hmem shape hshape).1
    names := fun operation hmem shape hshape => (hshapes operation hmem shape hshape).2 }
  obtain ⟨_, _, htext⟩ := generated hanalysis { emitEnums := .bool true } "openapi_to_ts" {}
  obtain ⟨text, htext⟩ := htext htexts ⟨{}, rfl, rfl⟩
  exact ⟨analysis, text, hanalysis, htexts, htext⟩

end Analysis

end ApiTypes
