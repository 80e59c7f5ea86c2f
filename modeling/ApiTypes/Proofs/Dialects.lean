import ApiTypes.Proofs.Text.Cutting
import ApiTypes.Proofs.Transcription
import ApiTypes.Proofs.TwoRuns

/-!
# The two dialects agree

A description in Swagger 2.0 and its transcription to OpenAPI 3 have the same generated file, if all
parameters and responses are written in place, no operation is deprecated and all references are to
definitions.
-/

namespace ApiTypes

open Transcription

/-! ## The descriptions that are transcribed -/

def RefersToDefinitions (fragment : Json) : Prop :=
  ∀ inner, Fragment.Within inner fragment → ∀ target, inner.reference? = some target →
    Text.startsWith Dialect.swagger2.definitionsRoot target = true

structure InlineParameter (members : Members) : Prop where
  names : ∀ member ∈ members, member.1 ∈ ["name", "in", "required", "description", "deprecated",
    "type", "items", "enum", "x-nullable"]
  references : RefersToDefinitions (.object (Schema.inlineMembers members))

structure InlineResponse (members : Members) : Prop where
  names : ∀ member ∈ members, member.1 ∈ ["description", "schema"]
  references : ∀ fragment, members.lookup "schema" = some fragment → RefersToDefinitions fragment

/-- An operation that is not deprecated and has nothing but parameters and responses, all of them
written in place. -/
structure InlineOperation (raw : RawOperation) : Prop where
  current : (Members.get raw.members "deprecated").isTruthy = false
  bodiless : Members.get raw.members "requestBody" = .null
  shared : ∀ list, raw.shared = .array list → ∀ members, .object members ∈ list →
    InlineParameter members
  parameters : ∀ list, Members.get raw.members "parameters" = .array list →
    ∀ members, .object members ∈ list → InlineParameter members
  responses : ∀ table, Members.get raw.members "responses" = .object table →
    ∀ code members, (code, .object members) ∈ table → InlineResponse members

/-- All operations of a description. Only Swagger 2.0 leaves the deprecated ones out. -/
def Document.everyOperation (document : Document) : List (Except Malformed RawOperation) :=
  { document with dialect := .openapi3 }.operations

/-- A Swagger 2.0 description by its members, with references to definitions only and with inline
operations. -/
structure Transcribable (old : Members) : Prop where
  version : Dialect.detect (.object old) = .ok .swagger2
  definitions : ∀ table, Members.get old "definitions" = .object table →
    ∀ name fragment, (name, fragment) ∈ table → RefersToDefinitions fragment
  operations : ∀ raw, .ok raw ∈ (⟨.swagger2, old⟩ : Document).everyOperation → InlineOperation raw

/-! ## Fragments -/

/-- Two scopes of the two dialects with the same names. -/
structure Scope.Transcribed (scope other : Scope) : Prop where
  swagger : scope.dialect = .swagger2
  openapi : other.dialect = .openapi3
  names : other.names = scope.names

section Fragments

variable {scope other : Scope} (h : Scope.Transcribed scope other)
include h

theorem resolve_transcribed {old : String}
    (hroot : Text.startsWith Dialect.swagger2.definitionsRoot old = true) (schema : Schema) :
    other.resolve (target old) = .ok schema ↔ scope.resolve old = .ok schema := by
  obtain ⟨tail, rfl⟩ := Text.exists_of_startsWith hroot
  simp only [Scope.resolve, target, h.swagger, h.openapi, h.names, Text.after?_append]
  cases Text.pointerSegments tail with
  | nil => simp
  | cons name segments =>
    simp only
    split <;> simp

/-- Transcribing a fragment that refers only to definitions leaves the shape that it describes as it
was. -/
theorem ofFragment_transcribed {old : Json} (hreferences : RefersToDefinitions old) :
    Matches Eq (Schema.ofFragment scope old) (Schema.ofFragment other (fragment old)) :=
  Matches.eq_iff.mpr fun schema => (Schema.ofFragment_respelled old
    (fun inner hwithin _ htarget schema =>
      resolve_transcribed h (hreferences inner hwithin _ htarget) schema) schema).symm

theorem ofDefinitions_transcribed {table : Members}
    (hreferences : ∀ name fragment, (name, fragment) ∈ table → RefersToDefinitions fragment) :
    Matches Eq (Analysis.ofDefinitions scope table)
      (Analysis.ofDefinitions other (Members.mapValues (fun _ => fragment) table)) := by
  have hsame : ∀ first second : List (String × Schema), List.Forall₂ Eq first second → first = second :=
    fun _ _ hsame => List.forall₂_eq_eq_eq ▸ hsame
  refine (Matches.mapM ?_).imp hsame
  rw [Members.mapValues, List.forall₂_map_right_iff, List.forall₂_same]
  rintro ⟨name, old⟩ hmem
  exact (ofFragment_transcribed h (hreferences name old hmem)).bind_eq fun schema => .refl _

end Fragments

/-! ## Parameters -/

section Names

variable {members : Members} {names : List String}

theorem lookup_of_names (hnames : ∀ member ∈ members, member.1 ∈ names) {name : String}
    (h : name ∉ names) : members.lookup name = none := by
  rw [List.lookup_eq_none_iff]
  intro member hmem
  exact bne_iff_ne.mpr fun hsame => h (hsame ▸ hnames member hmem)

theorem reference?_of_names (hnames : ∀ member ∈ members, member.1 ∈ names) (h : "$ref" ∉ names) :
    (Json.object members).reference? = none := by
  rw [Json.reference?, lookup_of_names hnames h]

end Names

namespace Exchange

variable {scope other : Scope}

theorem place_of_not_object {raw : Json} (hraw : ∀ members, raw ≠ .object members) :
    place scope raw = .ok (.skipped raw) := by
  have hdestination : destination scope raw = .ok none := by
    cases raw <;> first | rfl | exact absurd rfl (hraw _)
  rw [place, hdestination]
  rfl

theorem elements_not_object {value : Json} (hvalue : ∀ list, value ≠ .array list)
    {elements : List Json} (h : value.elements = .ok elements) :
    ∀ element ∈ elements, ∀ members, element ≠ .object members := by
  cases value with
  | array list => exact absurd rfl (hvalue list)
  | string s =>
    cases h
    simp
  | object members =>
    cases h
    intro element hmem
    obtain ⟨_, _, rfl⟩ := List.mem_map.mp hmem
    simp
  | _ => cases h

end Exchange

section Parameters

variable {scope other : Scope} {members : Members}

theorem lookup_parameterMembers {name : String} (hinline : isInline name = false)
    (hschema : name ≠ "schema") :
    (parameterMembers members).lookup name = members.lookup name := by
  have hkept : (members.filter fun member => !isInline member.1).lookup name = members.lookup name :=
    lookup_filter (p := fun name => !isInline name) (by simp [hinline])
  rw [parameterMembers, List.lookup_append, hkept]
  simp [List.lookup_cons, beq_false_of_ne hschema]

theorem lookup_schema_parameterMembers (hschema : members.lookup "schema" = none) :
    (parameterMembers members).lookup "schema" =
      some (fragment (.object (Schema.inlineMembers members))) := by
  have hkept : (members.filter fun member => !isInline member.1).lookup "schema" = none :=
    (lookup_filter (p := fun name => !isInline name) (by decide)).trans hschema
  rw [parameterMembers, List.lookup_append, hkept]
  rfl

theorem get_parameterMembers {name : String} (hinline : isInline name = false)
    (hschema : name ≠ "schema") :
    Members.get (parameterMembers members) name = Members.get members name := by
  rw [Members.get, Members.get, lookup_parameterMembers hinline hschema]

theorem reference?_parameterMembers :
    (Json.object (parameterMembers members)).reference? = (Json.object members).reference? := by
  rw [Json.reference?, Json.reference?, lookup_parameterMembers (by decide) (by decide)]

variable (h : Scope.Transcribed scope other) (hinline : InlineParameter members)
include h hinline

/-- A parameter written with its type beside its name describes what the transcribed one describes
under its schema. -/
theorem ofParameter_transcribed :
    Matches Eq (Schema.ofParameter scope (.object members))
      (Schema.ofParameter other (.object (parameterMembers members))) := by
  have href : (Json.object members).reference? = none := reference?_of_names hinline.names (by decide)
  have hother := reference?_parameterMembers.trans href
  have hschema : members.lookup "schema" = none := lookup_of_names hinline.names (by decide)
  have hcontent : members.lookup "content" = none := lookup_of_names hinline.names (by decide)
  -- What is picked from the members in one dialect is the schema in the other.
  have hplace : Schema.parameterSchema members = .object (Schema.inlineMembers members) := by
    rw [Schema.parameterSchema, hschema, Members.get, hcontent]
    rfl
  have hmoved : Schema.parameterSchema (parameterMembers members) =
      fragment (.object (Schema.inlineMembers members)) := by
    rw [Schema.parameterSchema, lookup_schema_parameterMembers hschema]
  have hrequired : Members.get (parameterMembers members) "required" =
      Members.get members "required" := get_parameterMembers (by decide) (by decide)
  have hdescription : Members.get (parameterMembers members) "description" =
      Members.get members "description" := get_parameterMembers (by decide) (by decide)
  have hdeprecated : Members.get (parameterMembers members) "deprecated" =
      Members.get members "deprecated" := get_parameterMembers (by decide) (by decide)
  simp only [Schema.ofParameter, Schema.parameterMembers, href, hother, ok_bind, hplace, hmoved,
    hrequired, hdescription, hdeprecated]
  exact (ofFragment_transcribed h hinline.references).bind_eq fun schema => .refl _

/-- Transcribing a parameter does not move it to another slot. -/
theorem place_transcribed :
    Matches Placement.Alike (Exchange.place scope (.object members))
      (Exchange.place other (.object (parameterMembers members))) := by
  have href : (Json.object members).reference? = none := reference?_of_names hinline.names (by decide)
  have hother := reference?_parameterMembers.trans href
  have hname : Members.get (parameterMembers members) "name" = Members.get members "name" :=
    get_parameterMembers (by decide) (by decide)
  have hlocation : Members.get (parameterMembers members) "in" = Members.get members "in" :=
    get_parameterMembers (by decide) (by decide)
  have hparameter := ofParameter_transcribed h hinline
  simp only [Exchange.place, Exchange.destination, Exchange.resolved, href, hother, hname, hlocation]
  -- Both parameters belong to one slot, if to any.
  split
  · exact .ok (.skipped _ _)
  split
  · exact hparameter.bind_eq fun schema => .ok (.same _)
  split
  · exact .error _ _
  cases Slot.ofLocation? (Members.get members "in") with
  | none => exact .ok (.skipped _ _)
  | some slot => exact hparameter.bind_eq fun schema => .ok (.same _)

omit hinline

/-- A list of parameters and its transcription add the same to an exchange. -/
theorem parametersAlike_transcribed {list : Json}
    (hlist : ∀ items, list = .array items → ∀ members, .object members ∈ items →
      InlineParameter members) :
    Exchange.ParametersAlike scope other list (parameters list) := by
  have hskipped : ∀ raw : Json, (∀ members, raw ≠ .object members) →
      Matches Placement.Alike (Exchange.place scope raw) (Exchange.place other raw) := by
    intro raw hraw
    rw [Exchange.place_of_not_object hraw, Exchange.place_of_not_object hraw]
    exact .ok (.skipped _ _)
  by_cases harray : ∃ items, list = .array items
  · obtain ⟨items, rfl⟩ := harray
    have horElse : ∀ items : List Json, (Json.array items).orElse (.array []) = .array items := by
      intro items
      cases items <;> rfl
    rw [Exchange.ParametersAlike, parameters, horElse, horElse]
    refine .ok (List.forall₂_map_right_iff.mpr (List.forall₂_same.mpr fun raw hmem => ?_))
    cases raw with
    | object members => exact place_transcribed h (hlist items rfl members hmem)
    | _ => exact hskipped _ (by simp)
  -- A value that is no list may have elements, but no parameters among them.
  · have hlist : ∀ items, list ≠ .array items := fun items hitems => harray ⟨items, hitems⟩
    have hsame : parameters list = list := by
      cases list <;> first | rfl | exact absurd rfl (hlist _)
    rw [Exchange.ParametersAlike, hsame, Json.orElse]
    split
    · cases helements : list.elements with
      | error cause => exact .error _ _
      | ok elements =>
        refine .ok (List.forall₂_same.mpr fun raw hmem => hskipped raw ?_)
        exact Exchange.elements_not_object hlist helements raw hmem
    · exact .ok .nil

end Parameters

/-! ## Responses -/

theorem Json.eq_of_orElse {value : Json} {table : Members} {entry : String × Json}
    (h : value.orElse (.object []) = .object table) (hmem : entry ∈ table) :
    value = .object table := by
  rw [orElse] at h
  split at h
  · exact h
  · cases h
    cases hmem

theorem fragment_isNull (value : Json) : (fragment value).isNull = value.isNull := by
  cases value <;> simp [fragment, Fragment.respelled, Json.isNull]

section Responses

variable {scope other : Scope} {members : Members}

theorem reference?_responseMembers :
    (Json.object (responseMembers members)).reference? = (Json.object members).reference? := by
  unfold responseMembers
  split
  · have hkept : (members.filter fun member => member.1 != "schema").lookup "$ref" =
        members.lookup "$ref" :=
      lookup_filter (p := fun name => name != "schema") (by decide)
    have hcontent : ("$ref" == "content") = false := by decide
    rw [Json.reference?, Json.reference?, List.lookup_append, hkept, List.lookup_cons, hcontent,
      List.lookup_nil, Option.or_none]
  · rfl

/-- Under its media type a schema is found as it was beside the description. -/
theorem contentSchema_responseMembers (hnames : ∀ member ∈ members,
    member.1 ∈ ["description", "schema"]) :
    Schema.contentSchema .openapi3 (responseMembers members) =
      (Schema.contentSchema .swagger2 members).map fragment := by
  have hcontent : members.lookup "content" = none := lookup_of_names hnames (by decide)
  rw [responseMembers]
  cases hschema : members.lookup "schema" with
  -- Without a schema there is no content, and null is found in both.
  | none =>
    simp [Schema.contentSchema, Members.get, hschema, hcontent, Json.orElse, Json.isTruthy,
      Json.members, jsonMedia?, Except.map, fragment, Fragment.respelled]
  | some schema =>
    have hmedia : jsonMedia? [("application/json", .object [("schema", fragment schema)])] =
        some [("schema", fragment schema)] := by
      have hjson : Text.occursIn "json".toList ("application/json".toList.map Char.toLower) = true := by
        decide
      simp only [jsonMedia?, List.findSome?_cons, hjson, if_true]
    have hkept : (members.filter fun member => member.1 != "schema").lookup "content" = none :=
      (lookup_filter (p := fun name => name != "schema") (by decide)).trans hcontent
    simp [Schema.contentSchema, Members.get, hschema, hkept, List.lookup_append,
      Json.orElse, Json.isTruthy, Json.members, hmedia, Except.map]

theorem ofContent_object {schema : Json} (href : (Json.object members).reference? = none)
    (hcontent : Schema.contentSchema scope.dialect members = .ok schema) :
    Schema.ofContent scope (.object members) =
      if schema.isNull then .ok .empty else Schema.ofFragment scope schema := by
  simp only [Schema.ofContent, Schema.contentMembers, href, Json.members, lift_ok, ok_bind, hcontent,
    pure_eq_ok]

variable (h : Scope.Transcribed scope other)
include h

theorem contentOr_transcribed {value : Json}
    (hvalue : ∀ members, value = .object members → InlineResponse members) (schema : Schema) :
    Matches Eq (Exchange.contentOr scope schema value)
      (Exchange.contentOr other schema (response value)) := by
  cases value with
  | object members =>
    have hinline := hvalue members rfl
    have href : (Json.object members).reference? = none :=
      reference?_of_names hinline.names (by decide)
    have hother := reference?_responseMembers.trans href
    -- A shape stands beside the description in the old form, and under a media type in the new.
    have hfound : Schema.contentSchema scope.dialect members =
        .ok (Members.get members "schema") := by
      rw [h.swagger, Schema.contentSchema]
    have hmoved : Schema.contentSchema other.dialect (responseMembers members) =
        .ok (fragment (Members.get members "schema")) := by
      rw [h.openapi, contentSchema_responseMembers hinline.names]
      rfl
    have hobject : ∀ (scope : Scope) (members : Members),
        Exchange.contentOr scope schema (.object members) =
          Schema.ofContent scope (.object members) := fun _ _ => rfl
    rw [response, hobject, hobject, ofContent_object href hfound, ofContent_object hother hmoved,
      fragment_isNull]
    split
    · exact .refl _
    · rename_i hnull
      refine ofFragment_transcribed h ?_
      cases hschema : members.lookup "schema" with
      | none => exact absurd (by rw [Members.get, hschema]; rfl) hnull
      | some old =>
        rw [Members.get, hschema]
        exact hinline.references old hschema
  | null => exact .refl _
  | _ => exact .error _ _

/-- The response that counts as the success is the transcription of the one that counted before, as
the codes are kept. -/
theorem successResponse_transcribed {responses : Json}
    (hresponses : ∀ table, responses = .object table → ∀ code members,
      (code, .object members) ∈ table → InlineResponse members) :
    Matches (fun success next => ∀ schema,
        Matches Eq (Exchange.contentOr scope schema success) (Exchange.contentOr other schema next))
      (Exchange.successResponse responses)
      (Exchange.successResponse (responses.mapMembers fun _ => response)) := by
  cases responses with
  | object table =>
    have hentry : ∀ code value, (code, value) ∈ table → ∀ schema,
        Matches Eq (Exchange.contentOr scope schema value)
          (Exchange.contentOr other schema (response value)) :=
      fun code value hmem schema => contentOr_transcribed h
        (fun members hobject => hresponses table rfl code members (hobject ▸ hmem)) schema
    -- The response is chosen by its code only, and the codes stay.
    have hlookup := Members.lookup_mapValues (fun _ => response) table "200"
    simp only [Exchange.successResponse, Json.mapMembers, Json.holds, Json.at, Json.members, ok_bind,
      Members.has, Members.get, hlookup, Option.isSome_map]
    cases hfound : table.lookup "200" with
    | some value => exact .ok (hentry _ value (mem_of_lookup hfound))
    | none =>
      have hfind : (Members.mapValues (fun _ => response) table).find?
          (fun member => Text.startsWith "2" member.1) =
          (table.find? fun member => Text.startsWith "2" member.1).map
            fun member => (member.1, response member.2) := by
        rw [Members.mapValues, List.find?_map]
        rfl
      simp only [Option.isSome_none, Bool.false_eq_true, if_false, hfind]
      cases hsuccess : table.find? fun member => Text.startsWith "2" member.1 with
      | none => exact .ok fun schema => .refl _
      | some entry => exact .ok (hentry entry.1 entry.2 (List.mem_of_find?_eq_some hsuccess))
  | array items | string s =>
    simp only [Exchange.successResponse, Json.mapMembers, Json.holds, Json.at, Json.members, ok_bind]
    split <;> exact .error _ _
  | _ => exact .error _ _

/-- An operation and its transcription have the same shapes. -/
theorem ofRawOperation_transcribed {raw : RawOperation} (hinline : InlineOperation raw) :
    Matches Operation.Alike (Analysis.ofRawOperation scope (.ok raw))
      (Analysis.ofRawOperation other (.ok (rawOperation raw))) := by
  have hparameters : Members.get (rawOperation raw).members "parameters" =
      parameters (Members.get raw.members "parameters") :=
    Members.get_mapValues rfl
  have hbody : Members.get (rawOperation raw).members "requestBody" = .null :=
    (Members.get_mapValues rfl).trans hinline.bodiless
  have hresponses : Members.get (rawOperation raw).members "responses" =
      (Members.get raw.members "responses").mapMembers fun _ => response :=
    Members.get_mapValues rfl
  refine Analysis.ofRawOperation_matches rfl rfl (Exchange.ofOperation_matches
    (parametersAlike_transcribed h hinline.shared) ?_ ?_ ?_)
  · rw [hparameters]
    exact parametersAlike_transcribed h hinline.parameters
  · intro schema
    rw [hbody, hinline.bodiless]
    exact .refl _
  · rw [hresponses, Json.mapMembers_orElse]
    refine successResponse_transcribed h fun table htable code members hmem => ?_
    exact hinline.responses table (Json.eq_of_orElse htable hmem) code members hmem

end Responses

/-! ## Descriptions -/

/-- The two dialects differ over an operation only if it is deprecated, which the older one
skips. -/
theorem operation?_of_current {path key : String} {item : Members} {value : Json}
    (hcurrent : ∀ raw, Document.operation? .openapi3 path item key value = .ok (some raw) →
      (Members.get raw.members "deprecated").isTruthy = false) :
    Document.operation? .swagger2 path item key value =
      Document.operation? .openapi3 path item key value := by
  unfold Document.operation? at hcurrent ⊢
  split
  · rfl
  · rename_i hmethod
    -- The flag is the only difference, and the operation at hand does not set it.
    rw [if_neg hmethod] at hcurrent
    cases hmembers : (value.orElse (.object [])).members with
    | error cause => rfl
    | ok members =>
      have hdeprecated := hcurrent { path, method := key, shared := Members.get item "parameters", members }
        (by rw [hmembers]; simp [Dialect.skipsDeprecated])
      simp [Dialect.skipsDeprecated, hdeprecated]

theorem itemOperations_of_current {path : String} {item : Json}
    (hcurrent : ∀ raw, .ok raw ∈ Document.itemOperations .openapi3 path item →
      (Members.get raw.members "deprecated").isTruthy = false) :
    Document.itemOperations .swagger2 path item = Document.itemOperations .openapi3 path item := by
  unfold Document.itemOperations at hcurrent ⊢
  cases hmembers : (item.orElse (.object [])).members with
  | error cause => rfl
  | ok members =>
    simp only [hmembers] at hcurrent ⊢
    refine List.filterMap_congr fun member hmem => ?_
    rw [operation?_of_current]
    intro raw hraw
    exact hcurrent raw (List.mem_filterMap.mpr ⟨member, hmem, by rw [hraw]; rfl⟩)

/-- A document with no deprecated operation has the same operations in both dialects. -/
theorem operations_of_current {old : Members}
    (hcurrent : ∀ raw, .ok raw ∈ (⟨.swagger2, old⟩ : Document).everyOperation →
      (Members.get raw.members "deprecated").isTruthy = false) :
    (⟨.swagger2, old⟩ : Document).operations = (⟨.openapi3, old⟩ : Document).operations := by
  have hpaths : (⟨.swagger2, old⟩ : Document).paths = (⟨.openapi3, old⟩ : Document).paths := rfl
  unfold Document.everyOperation at hcurrent
  unfold Document.operations at hcurrent ⊢
  rw [hpaths]
  cases hitems : (⟨.openapi3, old⟩ : Document).paths.members with
  | error cause => rfl
  | ok items =>
    simp only [hitems] at hcurrent ⊢
    refine List.flatMap_congr fun item hmem => itemOperations_of_current fun raw hraw => ?_
    exact hcurrent raw (List.mem_flatMap.mpr ⟨item, hmem, hraw⟩)

/-- A description and its transcription are analysed alike. -/
theorem Analysis.ofJson_matches {old : Members} (h : Transcribable old) :
    Matches Analysis.Alike (Analysis.ofJson (.object old))
      (Analysis.ofJson (.object (Transcription.members old))) := by
  have hdocument : Document.ofJson (.object old) = .ok ⟨.swagger2, old⟩ := by
    simp [Document.ofJson, h.version, Json.members]
  have hother : Document.ofJson (.object (Transcription.members old)) =
      .ok ⟨.openapi3, Transcription.members old⟩ := by
    simp [Document.ofJson, detect_members old, Json.members]
  simp only [Analysis.ofJson, hdocument, hother, ok_bind]
  have hdefinitions := definitions_members old
  have hvalue : (⟨.swagger2, old⟩ : Document).definitions =
      .ok ((Members.get old "definitions").orElse (.object [])) := rfl
  by_cases hobject : ∃ table, (Members.get old "definitions").orElse (.object []) = .object table
  · obtain ⟨table, horElse⟩ := hobject
    rw [horElse] at hvalue
    rw [hvalue] at hdefinitions
    have hscopes : Scope.Transcribed ⟨⟨.swagger2, old⟩, table.map (·.1)⟩
        ⟨⟨.openapi3, Transcription.members old⟩,
          (Members.mapValues (fun _ => fragment) table).map (·.1)⟩ :=
      ⟨rfl, rfl, by rw [Members.mapValues, List.map_map]; rfl⟩
    refine Analysis.ofDocument_matches hvalue hdefinitions ?_ ?_
    · refine ofDefinitions_transcribed hscopes fun name fragment hmem => ?_
      exact h.definitions table (Json.eq_of_orElse horElse hmem) name fragment hmem
    · rw [operations_of_current fun raw hmem => (h.operations raw hmem).current,
        operations_members]
      refine Matches.mapM (List.forall₂_map_right_iff.mpr (List.forall₂_same.mpr fun raw hmem => ?_))
      cases raw with
      | error cause => exact .error _ _
      | ok raw => exact ofRawOperation_transcribed hscopes (h.operations raw hmem)
  -- Definitions that are no table stay as they are, and then neither analysis has a result.
  · refine .of_ne_ok (fun analysis hok => ?_) (fun analysis hok => ?_)
    · obtain ⟨table, htable, _⟩ := Analysis.ofDocument_eq_ok.mp hok
      exact hobject ⟨table, Except.ok.inj (hvalue.symm.trans htable)⟩
    · obtain ⟨table, htable, _⟩ := Analysis.ofDocument_eq_ok.mp hok
      rw [hdefinitions, hvalue] at htable
      generalize (Members.get old "definitions").orElse (.object []) = value at htable hobject
      cases value with
      | object table => exact hobject ⟨table, rfl⟩
      | _ => cases htable

/-- The generated file for a description. -/
def Generation.ofJson (settings : Settings) (commandLine : String) (session : Session)
    (description : Json) : Except Error String := do
  let analysis ← Analysis.ofJson description
  (ofAnalysis settings commandLine session analysis).1

/-- A description and its transcription to the other dialect have the same generated file, and none
if one of them has none. -/
theorem Generation.ofJson_transcribed {old : Members} (h : Transcribable old) (settings : Settings)
    (commandLine : String) (session : Session) (text : String) :
    ofJson settings commandLine session (.object old) = .ok text ↔
      ofJson settings commandLine session (.object (Transcription.members old)) = .ok text := by
  refine Matches.eq_iff.mp ((Analysis.ofJson_matches h).bind fun first second hsame => ?_) text
  rw [ofAnalysis_congr hsame.blocks]
  exact .refl _

/-- The members of a description with a reference in an array of a parameter, in a property and in a
response. -/
def catalogMembers : Members :=
  [("swagger", .string "2.0"),
    ("definitions", .object [
      ("Tag", .object [("type", .string "string")]),
      ("Pet", .object [("properties", .object [
        ("tag", .object [("$ref", .string "#/definitions/Tag")])])])]),
    ("paths", .object [("/pets/{id}", .object [
      ("parameters", .array [.object [("name", .string "id"), ("in", .string "path"),
        ("required", .bool true), ("type", .string "integer")]]),
      ("get", .object [
        ("parameters", .array [.object [("name", .string "tags"), ("in", .string "query"),
          ("type", .string "array"), ("items", .object [("$ref", .string "#/definitions/Tag")]),
          ("x-nullable", .bool true)]]),
        ("responses", .object [("200", .object [("description", .string "the pet"),
          ("schema", .object [("$ref", .string "#/definitions/Pet")])])])])])])]

theorem refersToDefinitions_reference {target : String}
    (h : Text.startsWith Dialect.swagger2.definitionsRoot target = true) :
    RefersToDefinitions (.object [("$ref", .string target)]) := by
  refine Fragment.forall_within ?_ fun middle hchild => ?_
  · rintro _ ⟨⟩
    exact h
  · exact absurd hchild (Fragment.not_child (by simp [Fragment.nestingNames, Members.has]) middle)

theorem refersToDefinitions_type (type : String) :
    RefersToDefinitions (.object [("type", .string type)]) := by
  refine Fragment.forall_within ?_ fun middle hchild => ?_
  · rintro _ ⟨⟩
  · exact absurd hchild (Fragment.not_child (by simp [Fragment.nestingNames, Members.has]) middle)

/-- The fragment of a pet and the schema of its tags. -/
theorem refersToDefinitions_pet :
    RefersToDefinitions (.object [("properties", .object [
      ("tag", .object [("$ref", .string "#/definitions/Tag")])])]) ∧
    RefersToDefinitions (.object [("type", .string "array"),
      ("items", .object [("$ref", .string "#/definitions/Tag")]), ("x-nullable", .bool true)]) := by
  have htag : RefersToDefinitions (.object [("$ref", .string "#/definitions/Tag")]) :=
    refersToDefinitions_reference (by decide)
  constructor
  · refine Fragment.forall_within (by rintro _ ⟨⟩) fun middle hchild => ?_
    cases hchild with
    | item h | further h | branch h | beside h => cases h
    | property h hmem =>
      cases h
      cases List.mem_singleton.mp hmem
      exact htag
  · refine Fragment.forall_within (by rintro _ ⟨⟩) fun middle hchild => ?_
    cases hchild with
    | property h | further h | branch h | beside h => cases h
    | item h =>
      cases h
      exact htag

theorem transcribable_catalog : Transcribable catalogMembers where
  version := rfl
  definitions := by
    rintro _ ⟨⟩ name fragment hmem
    rcases List.mem_pair.mp hmem with h | h <;> cases h
    · exact refersToDefinitions_type "string"
    · exact refersToDefinitions_pet.1
  operations := by
    intro raw hmem
    cases List.mem_singleton.mp hmem
    exact {
      current := rfl
      bodiless := rfl
      shared := by
        rintro _ ⟨⟩ members hmem
        cases List.mem_singleton.mp hmem
        exact ⟨by decide, refersToDefinitions_type "integer"⟩
      parameters := by
        rintro _ ⟨⟩ members hmem
        cases List.mem_singleton.mp hmem
        exact ⟨by decide, refersToDefinitions_pet.2⟩
      responses := by
        rintro _ ⟨⟩ code members hmem
        cases List.mem_singleton.mp hmem
        refine ⟨by decide, ?_⟩
        rintro _ ⟨⟩
        exact refersToDefinitions_reference (by decide) }

/-- The theorem at this description. -/
theorem Generation.ofJson_transcribed_catalog : Transcribable catalogMembers ∧
    ∃ text, ofJson {} "openapi_to_ts" {} (.object catalogMembers) = .ok text ∧
      ofJson {} "openapi_to_ts" {} (.object (Transcription.members catalogMembers)) = .ok text := by
  have hgenerated : (ofJson {} "openapi_to_ts" {} (.object catalogMembers)).toOption.isSome = true := by
    decide +kernel
  obtain ⟨text, htext⟩ := exists_ok_of_isSome hgenerated
  exact ⟨transcribable_catalog, text, htext,
    (ofJson_transcribed transcribable_catalog {} "openapi_to_ts" {} text).mp htext⟩

end ApiTypes
