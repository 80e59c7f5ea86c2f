import ApiTypes.Proofs.Analysis
import ApiTypes.Proofs.Naming
import ApiTypes.Proofs.TypeScript.Bodies

/-!
# Groups and requests

A group of parameters is either nothing or an object with properties, so that it is declared as an
interface wherever it is declared. Which groups are declared and what the request is made of are
decided apart from each other, and in the same way.
-/

namespace ApiTypes

open TypeScript (interface identifier)

/-! ## Groups -/

/-- What a group of parameters is: nothing, or an object that has properties, extends nothing and is
not nullable. -/
def Schema.IsGroup (schema : Schema) : Prop :=
  (schema.kind = .empty ∧ schema.properties = []) ∨
    (schema.kind = .object ∧ schema.nullable = false ∧ schema.properties ≠ [] ∧
      schema.heritage = [])

theorem Schema.Grouped.isGroup {schema : Schema} (h : schema.Grouped) : schema.IsGroup := by
  rcases h with rfl | ⟨table, htable, rfl⟩
  · exact .inl ⟨rfl, rfl⟩
  · exact .inr ⟨rfl, rfl, htable, rfl⟩

namespace TypeScript

/-- An object with properties is declared as an interface with fields. If it extends nothing and is
not nullable, the interface is a header and the type literal of the object. -/
theorem declaration_of_properties {emitEnums : Bool} {schema : Schema} {name text : String}
    (hobject : schema.kind = .object) (hproperties : schema.properties ≠ [])
    (hheritage : schema.heritage = []) (hnullable : schema.nullable = false)
    (h : declaration emitEnums schema name = .ok text) :
    (∃ list, list ≠ [] ∧ text = interface (identifier name) [] list) ∧
    ∃ body, typeText 0 schema = .ok body ∧
      text = "export interface " ++ identifier name ++ " " ++ body := by
  have hne : ∀ list, fields 1 schema = .ok list → list ≠ [] :=
    fun list hlist hnil => hproperties ((fields_eq_nil_iff hlist).mp hnil).1
  constructor
  · obtain ⟨list, hlist, htext⟩ :=
      declaration_of_object hobject (fun list h => .inl (hne list h)) h
    rw [hheritage, List.map_nil] at htext
    exact ⟨list, hne list hlist, htext⟩
  · -- Without bases and null there is nothing to leave out of the shape.
    have hsame : { schema with heritage := [], nullable := false } = schema := by
      cases schema
      cases hheritage
      cases hnullable
      rfl
    rw [declaration_eq_body hobject (.inl hproperties), interfaceBody, if_neg (by simp [hproperties]),
      hsame, hheritage] at h
    obtain ⟨body, hbody, htext⟩ := bind_eq_ok.mp h
    exact ⟨body, hbody, by simpa [extendsText] using (Except.ok.inj htext).symm⟩

end TypeScript

/-! ## What an operation declares -/

/-- The suffix of the name under which a slot is declared. -/
def Slot.suffix : Slot → String
  | .header => "Headers"
  | .path => "Path"
  | .query => "Query"
  | .body => "Body"
  | .form => "FormData"

namespace Operation

variable {operation : Operation}

def emits (operation : Operation) (suffix : String) : Bool :=
  operation.declaredNames.contains (operation.typeStem ++ suffix)

theorem emits_iff (h : operation.method ∈ methods) (suffix : String) :
    operation.emits suffix = true ↔ suffix ∈ operation.suffixes := by
  rw [emits, List.contains_iff_mem, declaredNames_eq h, List.mem_map]
  constructor
  · rintro ⟨other, hother, hsame⟩
    exact (String.append_right_inj _).mp hsame ▸ hother
  · exact fun hmem => ⟨suffix, hmem, rfl⟩

theorem emits_slot (h : operation.method ∈ methods) (slot : Slot) :
    operation.emits slot.suffix = true ↔ (operation.exchange.slot slot).isEmpty = false := by
  rw [emits_iff h]
  cases slot <;> simp [suffixes, groups, Slot.suffix, Exchange.slot]

theorem emits_request (h : operation.method ∈ methods) :
    operation.emits "Request" = true ↔ operation.request?.isSome = true := by
  rw [emits_iff h, suffixes]
  cases operation.request? <;> simp [groups]

/-- There is a request exactly if a group of the query, the path or the body is not empty. -/
theorem request?_isSome : operation.request?.isSome = true ↔
    operation.exchange.query.isEmpty = false ∨ operation.exchange.path.isEmpty = false ∨
      operation.exchange.body.isEmpty = false := by
  cases hquery : operation.exchange.query.isEmpty <;>
    cases hpath : operation.exchange.path.isEmpty <;>
      cases hbody : operation.exchange.body.isEmpty <;>
        simp [request?, hquery, hpath, hbody]

theorem request_mem_blocks {request : Schema}
    (h : .declaration (operation.typeStem ++ "Request") request ∈ operation.blocks) :
    operation.request? = some request := by
  -- Neither a group nor the response has the suffix of the request.
  rcases mem_blocks.mp h with ⟨suffix, hgroup, _, hname⟩ | ⟨hname, _⟩ | ⟨hrequest, _⟩
  · have hsuffix := (String.append_right_inj _).mp hname
    subst hsuffix
    simp [groups] at hgroup
  · exact absurd ((String.append_right_inj _).mp hname) (by decide)
  · exact hrequest

/-- The names of the types with these suffixes that the operation declares. -/
def emitted (operation : Operation) (suffixes : List String) : List String :=
  (suffixes.filter operation.emits).map (operation.typeStem ++ ·)

theorem emitted_singleton (h : operation.method ∈ methods) (slot : Slot) :
    operation.emitted [slot.suffix] =
      if (operation.exchange.slot slot).isEmpty then []
      else [operation.typeStem ++ slot.suffix] := by
  have hemits : operation.emits slot.suffix = !(operation.exchange.slot slot).isEmpty := by
    rw [Bool.eq_iff_iff, emits_slot h, Bool.not_eq_true']
  rw [emitted, List.filter_singleton, hemits]
  cases (operation.exchange.slot slot).isEmpty <;> rfl

theorem emitted_append (operation : Operation) (first second : List String) :
    operation.emitted (first ++ second) = operation.emitted first ++ operation.emitted second := by
  rw [emitted, List.filter_append, List.map_append]
  rfl

/-- The property of a request for the body of this type, and the field that it is declared as. -/
def bodyProperty (name : String) : PropertyName × Schema :=
  (.text "body", { Schema.reference name with required := true })

def bodyField (type : String) : TypeScript.Field :=
  { key := "body", optional := false, type, comments := [] }

/-- A request is made of the types that are declared for the query, the path and the body. -/
theorem request?_eq_emitted (h : operation.method ∈ methods) {request : Schema}
    (hrequest : operation.request? = some request) :
    request = {
      heritage := operation.emitted ["Query", "Path"]
      properties := (operation.emitted ["Body"]).map bodyProperty } := by
  have hbases : operation.emitted ["Query", "Path"] =
      operation.emitted [Slot.query.suffix] ++ operation.emitted [Slot.path.suffix] :=
    operation.emitted_append ["Query"] ["Path"]
  have hbody : operation.emitted ["Body"] = operation.emitted [Slot.body.suffix] := rfl
  rw [request?_eq_some hrequest, hbases, hbody, emitted_singleton h, emitted_singleton h,
    emitted_singleton h, Exchange.slot, Exchange.slot, Exchange.slot]
  cases operation.exchange.body.isEmpty <;> rfl

/-- A request has a base or a body. -/
theorem emitted_ne_nil_of_request (h : operation.method ∈ methods) {request : Schema}
    (hrequest : operation.request? = some request) :
    operation.emitted ["Query", "Path"] ≠ [] ∨ operation.emitted ["Body"] ≠ [] := by
  have hname : ∀ {suffix} {suffixes : List String}, suffix ∈ suffixes →
      operation.emits suffix = true → operation.emitted suffixes ≠ [] := by
    intro suffix suffixes hmem hemits
    exact List.ne_nil_of_mem (List.mem_map_of_mem (List.mem_filter.mpr ⟨hmem, hemits⟩))
  rcases request?_isSome.mp (Option.isSome_of_eq_some hrequest) with hquery | hpath | hbody
  · exact .inl (hname (by decide) ((emits_slot h .query).mpr hquery))
  · exact .inl (hname (by decide) ((emits_slot h .path).mpr hpath))
  · exact .inr (hname (by decide) ((emits_slot h .body).mpr hbody))

theorem map_identifier_emitted (h : operation.method ∈ methods) (suffixes : List String)
    (hsuffixes : ∀ suffix ∈ suffixes, suffix ∈ allSuffixes) :
    (operation.emitted suffixes).map identifier = operation.emitted suffixes := by
  rw [emitted, List.map_map]
  refine List.map_congr_left fun suffix hsuffix => ?_
  rw [Function.comp_apply]
  exact identifier_typeStem h (hsuffixes suffix (List.mem_filter.mp hsuffix).1)

theorem propertyFields_bodyProperty (depth : Int) (names : List String) :
    TypeScript.propertyFields depth (names.map bodyProperty) =
      .ok ((names.map identifier).map bodyField) := by
  have hkey : TypeScript.keyText (.text "body") = .ok "body" := by
    rw [TypeScript.keyText, if_pos (by decide)]
  induction names with
  | nil => rfl
  | cons name names ih =>
    rw [List.map_cons, bodyProperty, TypeScript.propertyFields, ih, hkey]
    simp [TypeScript.commentLines, TypeScript.typeText, Schema.reference, TypeScript.referenceText,
      bodyField, Json.isTruthy]

/-- The declaration of a request: an interface that extends the query and the path and has the body
as a field, as far as these are declared. -/
theorem declaration_of_request (h : operation.method ∈ methods) {request : Schema}
    (hrequest : operation.request? = some request) (emitEnums : Bool) :
    TypeScript.declaration emitEnums request (operation.typeStem ++ "Request") =
      .ok (interface (operation.typeStem ++ "Request") (operation.emitted ["Query", "Path"])
        ((operation.emitted ["Body"]).map bodyField)) := by
  have hname : identifier (operation.typeStem ++ "Request") = operation.typeStem ++ "Request" :=
    identifier_typeStem h (by decide)
  have hbases := map_identifier_emitted h ["Query", "Path"] (by decide)
  have hbody := map_identifier_emitted h ["Body"] (by decide)
  -- Bases or a body there are, since a request is only made where one of them is not empty.
  have hfields : TypeScript.interfaceFields? request =
      .ok (some ((operation.emitted ["Body"]).map bodyField)) := by
    have hfull := emitted_ne_nil_of_request h hrequest
    rw [request?_eq_emitted h hrequest]
    simp only [TypeScript.interfaceFields?, if_true, TypeScript.fields, TypeScript.indexFields,
      propertyFields_bodyProperty, hbody, ok_bind, pure_eq_ok, List.append_nil]
    rw [if_neg]
    simp only [List.isEmpty_map, Bool.and_eq_true, List.isEmpty_iff]
    rintro ⟨hnoBody, hnoBases⟩
    exact hfull.elim (absurd hnoBases) (absurd hnoBody)
  have hheritage : request.heritage = operation.emitted ["Query", "Path"] :=
    congrArg Schema.heritage (request?_eq_emitted h hrequest)
  rw [TypeScript.declaration, hfields, hname, hheritage, ok_bind, hbases]
  rfl

/-- The text of the declaration of a request. -/
def requestText (operation : Operation) : String :=
  let bases := operation.emitted ["Query", "Path"]
  "export interface " ++ (operation.typeStem ++ "Request") ++
    (if bases.isEmpty then "" else " extends " ++ ", ".intercalate bases) ++ " " ++
    if operation.emits "Body" then
      "\x7b\n  body: " ++ (operation.typeStem ++ "Body") ++ ";\n\x7d"
    else "\x7b\x7d"

/-- The text of a request: the groups that it extends, and its body as the only field. -/
theorem interface_request (operation : Operation) :
    interface (operation.typeStem ++ "Request") (operation.emitted ["Query", "Path"])
      ((operation.emitted ["Body"]).map bodyField) = operation.requestText := by
  have hbody : operation.emitted ["Body"] =
      if operation.emits "Body" then [operation.typeStem ++ "Body"] else [] := by
    rw [emitted, List.filter_singleton]
    cases operation.emits "Body" <;> rfl
  unfold interface requestText
  rw [hbody]
  cases operation.emits "Body" with
  | false => rfl
  | true =>
    rw [← String.toList_inj]
    simp [bodyField, TypeScript.Field.interfaceLines, TypeScript.Field.line]

end Operation

namespace Analysis

variable {document : Document} {analysis : Analysis} {operation : Operation}

/-- The group of an operation is declared as an interface that extends nothing and has fields. -/
theorem interface_of_group (hmethod : operation.method ∈ methods) {slot : Slot}
    (hgroup : (operation.exchange.slot slot).IsGroup)
    (hemits : operation.emits slot.suffix = true) {emitEnums : Bool} {text : String}
    (h : TypeScript.declaration emitEnums (operation.exchange.slot slot)
      (operation.typeStem ++ slot.suffix) = .ok text) :
    (∃ list, list ≠ [] ∧ text = interface (operation.typeStem ++ slot.suffix) [] list) ∧
    ∃ body, TypeScript.typeText 0 (operation.exchange.slot slot) = .ok body ∧
      text = "export interface " ++ (operation.typeStem ++ slot.suffix) ++ " " ++ body := by
  have hsuffix : slot.suffix ∈ Operation.allSuffixes := by cases slot <;> decide
  have hname := Operation.identifier_typeStem hmethod hsuffix
  have hfull := (Operation.emits_slot hmethod slot).mp hemits
  rcases hgroup with ⟨hkind, _⟩ | ⟨hobject, hnullable, hproperties, hheritage⟩
  · simp [Schema.isEmpty, hkind] at hfull
  · rw [← hname]
    exact TypeScript.declaration_of_properties hobject hproperties hheritage hnullable h

/-- Every group of an operation but the body is nothing or an object with properties, which is then
declared as an interface, a header with the type literal of the group. A request is declared if and
only if the query, the path or the body is not empty. It extends the declared ones of the first two,
and has the body as a field if that is declared. -/
theorem groups_and_request (h : ofDocument document = .ok analysis)
    (hoperation : operation ∈ analysis.operations) :
    (∀ slot, operation.emits slot.suffix = true ↔
      (operation.exchange.slot slot).isEmpty = false) ∧
    (∀ slot, slot ≠ .body → (operation.exchange.slot slot).IsGroup ∧
      (operation.emits slot.suffix = true → ∀ emitEnums text,
        TypeScript.declaration emitEnums (operation.exchange.slot slot)
          (operation.typeStem ++ slot.suffix) = .ok text →
        (∃ list, list ≠ [] ∧ text = interface (operation.typeStem ++ slot.suffix) [] list) ∧
        ∃ body, TypeScript.typeText 0 (operation.exchange.slot slot) = .ok body ∧
          text = "export interface " ++ (operation.typeStem ++ slot.suffix) ++ " " ++ body)) ∧
    (operation.emits "Request" = true ↔
      operation.exchange.query.isEmpty = false ∨ operation.exchange.path.isEmpty = false ∨
        operation.exchange.body.isEmpty = false) ∧
    ∀ request, .declaration (operation.typeStem ++ "Request") request ∈ operation.blocks →
      request.heritage = operation.emitted ["Query", "Path"] ∧
      request.properties = (operation.emitted ["Body"]).map Operation.bodyProperty ∧
      (∀ emitEnums, TypeScript.declaration emitEnums request (operation.typeStem ++ "Request") =
        .ok (interface (operation.typeStem ++ "Request") (operation.emitted ["Query", "Path"])
          ((operation.emitted ["Body"]).map Operation.bodyField))) ∧
      ∀ emitEnums, TypeScript.declaration emitEnums request (operation.typeStem ++ "Request") =
        .ok operation.requestText := by
  have hmethod := method_of_ofDocument h operation hoperation
  have hgrouped := grouped_of_ofDocument h operation hoperation
  refine ⟨Operation.emits_slot hmethod, fun slot hslot => ?_, ?_, fun request hblock => ?_⟩
  · have hgroup := (hgrouped slot hslot).isGroup
    exact ⟨hgroup, fun hemits _ _ => interface_of_group hmethod hgroup hemits⟩
  · rw [Operation.emits_request hmethod, Operation.request?_isSome]
  · have hrequest := Operation.request_mem_blocks hblock
    have hschema := Operation.request?_eq_emitted hmethod hrequest
    have hinterface := Operation.declaration_of_request hmethod hrequest
    refine ⟨congrArg Schema.heritage hschema, congrArg Schema.properties hschema, hinterface,
      fun emitEnums => ?_⟩
    rw [hinterface, operation.interface_request]

/-- A description with an operation that has parameters in all places of a request. -/
def walks : Document where
  dialect := .swagger2
  members := [
    ("definitions", .object [
      ("Walk", .object [("properties", .object [
        ("length", .object [("type", .string "number")])])])]),
    ("paths", .object [("/dogs/\x7bid\x7d", .object [("put", .object [("parameters", .array [
      .object [("name", .string "token"), ("in", .string "header"), ("type", .string "string")],
      .object [("name", .string "id"), ("in", .string "path"), ("type", .string "string")],
      .object [("name", .string "limit"), ("in", .string "query"), ("type", .string "integer")],
      .object [("name", .string "body"), ("in", .string "body"),
        ("schema", .object [("$ref", .string "#/definitions/Walk")])]])])])])]

/-- The theorem at a request that is made of a query, a path and a body. -/
theorem groups_and_request_walks : ∃ analysis operation, ofDocument walks = .ok analysis ∧
    operation ∈ analysis.operations ∧ operation.exchange.header.isEmpty = false ∧
    operation.exchange.header.IsGroup ∧ operation.exchange.form.IsGroup ∧
    operation.emits "Request" = true ∧
    ∃ request, .declaration "PutDogsRequest" request ∈ operation.blocks ∧
      TypeScript.declaration false request "PutDogsRequest" = .ok
        (interface "PutDogsRequest" ["PutDogsQuery", "PutDogsPath"]
          [Operation.bodyField "PutDogsBody"]) ∧
      TypeScript.declaration false request "PutDogsRequest" = .ok
        ("export interface PutDogsRequest extends " ++ "PutDogsQuery, PutDogsPath " ++
          "\x7b\n  body: PutDogsBody;\n\x7d") := by
  have hsummary : ((fun analysis : Analysis => analysis.operations.map fun operation =>
      decide (operation.typeStem = "PutDogs" ∧ operation.exchange.header.isEmpty = false ∧
        operation.request?.isSome = true ∧ operation.emitted ["Body"] = ["PutDogsBody"] ∧
        operation.emitted ["Query", "Path"] = ["PutDogsQuery", "PutDogsPath"])) <$>
      ofDocument walks).toOption = some [true] := by
    decide +kernel
  obtain ⟨analysis, hanalysis, hparts⟩ := map_eq_ok.mp (eq_ok_of_toOption hsummary)
  obtain ⟨operation, rest, hoperations, hfacts, _⟩ := List.map_eq_cons_iff.mp hparts
  obtain ⟨hstem, hheader, hsome, hbody, hbases⟩ := of_decide_eq_true hfacts
  have hmem : operation ∈ analysis.operations := hoperations ▸ List.mem_cons_self
  obtain ⟨_, hgroups, hemits, hrequests⟩ := groups_and_request hanalysis hmem
  obtain ⟨request, hrequest⟩ := Option.isSome_iff_exists.mp hsome
  have hblock : .declaration (operation.typeStem ++ "Request") request ∈ operation.blocks :=
    Operation.mem_blocks.mpr (.inr (.inr ⟨hrequest, rfl⟩))
  obtain ⟨_, _, hinterface, htext⟩ := hrequests request hblock
  have hfield : operation.emits "Body" = true := by
    by_contra hnone
    simp [Operation.emitted, hnone] at hbody
  have hshown : operation.requestText = "export interface PutDogsRequest extends " ++
      "PutDogsQuery, PutDogsPath " ++ "\x7b\n  body: PutDogsBody;\n\x7d" := by
    unfold Operation.requestText
    rw [hbases, hstem, hfield]
    decide +kernel
  have hname : operation.typeStem ++ "Request" = "PutDogsRequest" := by
    rw [hstem]
    rfl
  rw [hname] at hblock hinterface htext
  rw [hbases, hbody] at hinterface
  rw [hshown] at htext
  exact ⟨analysis, operation, hanalysis, hmem, hheader, (hgroups .header (by decide)).1,
    (hgroups .form (by decide)).1, hemits.mpr (Operation.request?_isSome.mp hsome), request, hblock,
    hinterface false, htext false⟩

end Analysis

end ApiTypes
