import ApiTypes.Proofs.Analysis
import ApiTypes.Proofs.Naming
import ApiTypes.Proofs.Schema.References

/-!
# Every name that is referred to is declared

The shapes of an analysis refer to its definitions, and the request of an operation to the groups
of that operation. So whatever a declaration refers to is declared in the same file.
-/

namespace ApiTypes

theorem Exchange.filled_references (allowed : String → Prop) :
    Filled (fun schema => ∀ name ∈ schema.references, allowed name)
      (Schema.RefersWithin allowed) :=
  .everywhere (Schema.kept_references allowed) (by simp [Schema.references, Schema.empty])
    (fun h => h)

namespace Operation

variable {operation : Operation}

def DeclaresGroup (operation : Operation) (name : String) : Prop :=
  ∃ suffix schema, (suffix, schema) ∈ operation.groups ∧ schema.isEmpty = false ∧
    name = operation.typeStem ++ suffix ∧ .declaration name schema ∈ operation.blocks

theorem declaresGroup {suffix : String} {schema : Schema}
    (hmem : (suffix, schema) ∈ operation.groups) (hfull : schema.isEmpty = false) :
    operation.DeclaresGroup (operation.typeStem ++ suffix) :=
  ⟨suffix, schema, hmem, hfull, rfl, mem_blocks.mpr (.inl ⟨suffix, hmem, hfull, rfl⟩)⟩

/-- The request shape of an operation refers only to groups that the operation declares. -/
theorem request?_references {request : Schema} (h : operation.request? = some request) :
    request.RefersWithin operation.DeclaresGroup := by
  -- Query and path are bases of the request, the body is the type of its only property.
  have hgroup : ∀ suffix schema, (suffix, schema) ∈ operation.groups →
      ∀ name ∈ (if schema.isEmpty then [] else [operation.typeStem ++ suffix]),
        operation.DeclaresGroup name := by
    intro suffix schema hmem name hname
    split at hname
    · cases hname
    · rename_i hfull
      rw [List.mem_singleton.mp hname]
      exact declaresGroup hmem (Bool.eq_false_iff.mpr hfull)
  rw [request?_eq_some h]
  refine .intro ?_ (by simp) ?_ (by simp)
  · intro name hname
    rcases List.mem_append.mp hname with hquery | hpath
    · exact hgroup "Query" _ (by simp [groups]) name hquery
    · exact hgroup "Path" _ (by simp [groups]) name hpath
  · intro entry hentry
    dsimp only at hentry
    split at hentry
    · cases hentry
    · rename_i hfull
      have hbody : ("Body", operation.exchange.body) ∈ operation.groups := by simp [groups]
      rw [List.mem_singleton.mp hentry]
      refine .leaf ?_ rfl rfl rfl
      intro name hname
      rw [List.mem_singleton.mp hname]
      exact declaresGroup hbody (Bool.eq_false_iff.mpr hfull)

end Operation

namespace Analysis

variable {document : Document} {analysis : Analysis}

theorem declaredName_mem {name : String} {schema : Schema}
    (h : .declaration name schema ∈ analysis.blocks) :
    TypeScript.identifier name ∈ analysis.declaredNames :=
  List.mem_filterMap.mpr ⟨_, h, rfl⟩

/-- The name of every definition is declared under its identifier. -/
theorem definition_declared {name : String} (h : name ∈ analysis.definitions.map (·.1)) :
    TypeScript.identifier name ∈ analysis.declaredNames := by
  obtain ⟨definition, hmem, rfl⟩ := List.mem_map.mp h
  exact declaredName_mem (mem_blocks.mpr (.inl hmem))

/-- The shapes of an analysis refer to its definitions. -/
theorem references_of_ofDocument (h : ofDocument document = .ok analysis) :
    (∀ definition ∈ analysis.definitions,
      definition.2.RefersWithin (· ∈ analysis.definitions.map (·.1))) ∧
    ∀ operation ∈ analysis.operations, ∀ shape ∈ operation.exchange.shapes,
      shape.RefersWithin (· ∈ analysis.definitions.map (·.1)) :=
  shapes_of_ofDocument h (fun scope hnames => hnames ▸ Schema.inherent_references scope)
    (Exchange.filled_references (· ∈ analysis.definitions.map (·.1)))

/-- What is declared refers to definitions only, unless it is the request of an operation. -/
theorem refersWithin_or_request (h : ofDocument document = .ok analysis) {name : String}
    {schema : Schema} (hblock : .declaration name schema ∈ analysis.blocks) :
    schema.RefersWithin (· ∈ analysis.definitions.map (·.1)) ∨
      ∃ operation ∈ analysis.operations, operation.request? = some schema := by
  obtain ⟨hdefinitions, hexchanges⟩ := references_of_ofDocument h
  rcases origin_of_declaration hblock with
    ⟨definition, hmem, rfl⟩ | ⟨operation, hmem, hshape | hrequest⟩
  · exact .inl (hdefinitions definition hmem)
  · exact .inl (hexchanges operation hmem schema hshape)
  · exact .inr ⟨operation, hmem, hrequest⟩

/-- Definitions and exchanges refer to definitions only, a request to the groups of its operation,
and all of that is declared under the name by which a type refers to it: one of the texts of the file
exports that name. -/
theorem references_declared (h : ofDocument document = .ok analysis) :
    (∀ definition ∈ analysis.definitions,
      definition.2.RefersWithin (· ∈ analysis.definitions.map (·.1))) ∧
    (∀ operation ∈ analysis.operations,
      (∀ shape ∈ operation.exchange.shapes,
        shape.RefersWithin (· ∈ analysis.definitions.map (·.1))) ∧
      ∀ request ∈ operation.request?, request.RefersWithin operation.DeclaresGroup) ∧
    ∀ name schema, .declaration name schema ∈ analysis.blocks →
      schema.RefersWithin (TypeScript.identifier · ∈ analysis.declaredNames) ∧
      ∀ settings texts, Generation.texts settings analysis = .ok texts →
        schema.RefersWithin fun other =>
          ∃ text ∈ texts, TypeScript.exportedName? text = some (TypeScript.identifier other) := by
  obtain ⟨hdefinitions, hexchanges⟩ := references_of_ofDocument h
  have hrequests : ∀ operation ∈ analysis.operations, ∀ request ∈ operation.request?,
      request.RefersWithin operation.DeclaresGroup :=
    fun operation _ request hrequest => Operation.request?_references hrequest
  have hdeclared : ∀ name schema, .declaration name schema ∈ analysis.blocks →
      schema.RefersWithin (TypeScript.identifier · ∈ analysis.declaredNames) := by
    intro name schema hblock
    -- Only a request refers to anything but definitions, namely to the groups of its operation.
    rcases refersWithin_or_request h hblock with hwithin | ⟨operation, hmem, hrequest⟩
    · exact hwithin.imp fun _ => definition_declared
    · refine (hrequests operation hmem schema hrequest).imp ?_
      rintro other ⟨suffix, group, _, _, _, hgroup⟩
      exact declaredName_mem (mem_blocks.mpr (.inr ⟨operation, hmem, hgroup⟩))
  refine ⟨hdefinitions, fun operation hmem => ⟨hexchanges operation hmem, hrequests operation hmem⟩,
    fun name schema hblock => ⟨hdeclared name schema hblock, fun settings texts htexts => ?_⟩⟩
  rw [← exportedNames_of_texts htexts] at hdeclared
  exact (hdeclared name schema hblock).imp fun other hmem => List.mem_filterMap.mp hmem

/-- A description in which one definition composes another and refers into it, and one operation
has a query and a body. -/
def dogs : Document where
  dialect := .swagger2
  members := [
    ("definitions", .object [
      ("Pet", .object [("properties", .object [("name", .object [("type", .string "string")])])]),
      ("Dog", .object [("allOf", .array [
        .object [("$ref", .string "#/definitions/Pet")],
        .object [("properties", .object [
          ("owner", .object [("$ref", .string "#/definitions/Pet/properties/name")])])]])])]),
    ("paths", .object [("/dogs", .object [("post", .object [("parameters", .array [
      .object [("name", .string "limit"), ("in", .string "query"), ("type", .string "integer")],
      .object [("name", .string "body"), ("in", .string "body"),
        ("schema", .object [("$ref", .string "#/definitions/Dog")])]])])])])]

/-- The theorem where a definition, a slot and a request all refer to something. -/
theorem references_declared_dogs :
    ∃ analysis, ofDocument dogs = .ok analysis ∧
      analysis.definitions.map (fun definition => (definition.1, definition.2.references)) =
        [("Pet", []), ("Dog", ["Pet"])] ∧
      (∀ definition ∈ analysis.definitions, definition.2.RefersWithin (· ∈ ["Pet", "Dog"])) ∧
      ∀ operation ∈ analysis.operations,
        operation.exchange.body.references = ["Dog"] ∧
        operation.request?.map Schema.references = some ["PostDogsQuery"] ∧
        ∀ request ∈ operation.request?, request.RefersWithin operation.DeclaresGroup := by
  have hsummary : ((fun analysis : Analysis =>
      (analysis.definitions.map fun definition => (definition.1, definition.2.references),
        analysis.operations.all fun operation =>
          operation.exchange.body.references = ["Dog"] ∧
            operation.request?.map Schema.references = some ["PostDogsQuery"])) <$>
      ofDocument dogs).toOption = some ([("Pet", []), ("Dog", ["Pet"])], true) := by
    decide +kernel
  obtain ⟨analysis, hanalysis, hparts⟩ := map_eq_ok.mp (eq_ok_of_toOption hsummary)
  obtain ⟨hdefinitions, hoperations⟩ := Prod.mk.inj hparts
  obtain ⟨hshapes, hexchanges, _⟩ := references_declared hanalysis
  have hnames : analysis.definitions.map (·.1) = ["Pet", "Dog"] := by
    have hfirst := congrArg (List.map (·.1)) hdefinitions
    rwa [List.map_map] at hfirst
  rw [hnames] at hshapes
  refine ⟨analysis, hanalysis, hdefinitions, hshapes, fun operation hmem => ?_⟩
  obtain ⟨hbody, hrequest⟩ := of_decide_eq_true (List.all_eq_true.mp hoperations operation hmem)
  exact ⟨hbody, hrequest, (hexchanges operation hmem).2⟩

end Analysis

end ApiTypes
