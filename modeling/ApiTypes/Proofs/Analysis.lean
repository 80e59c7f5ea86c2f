import ApiTypes.Generation
import ApiTypes.Proofs.Schema.Attached
import ApiTypes.Proofs.Schema.Everywhere

/-!
# The shapes of an analysis

Every shape of an analysis is built from a fragment of the description, or it is filled with such
shapes property by property. What holds of the one and is kept by the other holds of all.
-/

namespace ApiTypes

/-! ## Exchanges -/

namespace Exchange

variable {scope : Scope} {exchange next : Exchange}

def shapes (exchange : Exchange) : List Schema :=
  [exchange.header, exchange.path, exchange.query, exchange.body, exchange.form, exchange.response]

theorem slot_mem_shapes (exchange : Exchange) (slot : Slot) : exchange.slot slot ∈ exchange.shapes := by
  cases slot <;> simp [Exchange.slot, shapes]

theorem mem_shapes_withSlot {exchange : Exchange} {schema shape : Schema} {slot : Slot}
    (h : shape ∈ (exchange.withSlot schema slot).shapes) : shape = schema ∨ shape ∈ exchange.shapes := by
  cases slot <;> simp only [withSlot, shapes, List.mem_cons] at h ⊢ <;> tauto

/-- A parameter adds nothing, or the shape that it describes. -/
theorem place_eq_ok {raw : Json} {placement : Placement} (h : place scope raw = .ok placement) :
    placement = .skipped raw ∨
      ∃ fragment schema, Schema.ofParameter scope fragment = .ok schema ∧
        (placement = .body schema ∨ ∃ slot name, placement = .property slot name schema) := by
  rw [place, bind_eq_ok] at h
  obtain ⟨found, _, h⟩ := h
  cases found with
  | none => exact .inl (Except.ok.inj h).symm
  | some found =>
    obtain ⟨slot, name, members⟩ := found
    obtain ⟨schema, hschema, h⟩ := bind_eq_ok.mp h
    have hplacement := (Except.ok.inj h).symm
    refine .inr ⟨.object members, schema, hschema, ?_⟩
    split at hplacement
    · exact .inl hplacement
    · exact .inr ⟨slot, name, hplacement⟩

/-- A parameter is left aside, is the whole body, or becomes a property of a slot. -/
theorem add_eq_ok {raw : Json} (h : add scope exchange raw = .ok next) :
    next = { exchange with skipped := exchange.skipped ++ [raw] } ∨
      ∃ fragment schema, Schema.ofParameter scope fragment = .ok schema ∧
        (next = exchange.withSlot schema .body ∨
          ∃ slot name filled, (exchange.slot slot).setProperty name schema = .ok filled ∧
            next = exchange.withSlot filled slot) := by
  rw [add, bind_eq_ok] at h
  obtain ⟨placement, hplacement, hput⟩ := h
  rcases place_eq_ok hplacement with rfl | ⟨fragment, schema, hschema, rfl | ⟨slot, name, rfl⟩⟩
  · exact .inl (Except.ok.inj hput).symm
  · exact .inr ⟨fragment, schema, hschema, .inl (Except.ok.inj hput).symm⟩
  · rw [put, bind_eq_ok] at hput
    obtain ⟨filled, hfilled, hnext⟩ := hput
    exact .inr ⟨fragment, schema, hschema, .inr ⟨slot, name, filled, hfilled,
      (Except.ok.inj hnext).symm⟩⟩

theorem addAll_invariant {I : Exchange → Prop}
    (hstep : ∀ {exchange next : Exchange} {raw : Json}, I exchange →
      add scope exchange raw = .ok next → I next) {list : Json} (hexchange : I exchange)
    (h : addAll scope exchange list = .ok next) : I next := by
  rw [addAll, bind_eq_ok] at h
  obtain ⟨parameters, _, hfold⟩ := h
  exact foldlM_invariant (fun _ _ _ _ => hstep) hexchange hfold

/-- What parameters keep holds of an exchange, up to the body and the response: these are built from
the description where it has them. -/
theorem ofOperation_invariant {I : Exchange → Prop}
    (hstep : ∀ {exchange next : Exchange} {raw : Json}, I exchange →
      add scope exchange raw = .ok next → I next) (hempty : I {}) {operation shared : Json}
    (h : ofOperation scope operation shared = .ok exchange) :
    ∃ filled body response, I filled ∧ exchange = { filled with body, response } ∧
      (body = filled.body ∨ ∃ fragment, Schema.ofContent scope fragment = .ok body) ∧
      (response = filled.response ∨ ∃ fragment, Schema.ofContent scope fragment = .ok response) := by
  simp only [ofOperation, bind_eq_ok] at h
  obtain ⟨first, hfirst, members, _, filled, hfilled, h⟩ := h
  -- Body and response come after the parameters, and each is kept or made anew.
  obtain ⟨body, hbody, h⟩ := ite_bind_eq_ok.mp h
  obtain ⟨success, _, h⟩ := bind_eq_ok.mp h
  obtain ⟨response, hresponse, h⟩ := ite_bind_eq_ok.mp h
  have hslots : I filled := addAll_invariant hstep (addAll_invariant hstep hempty hfirst) hfilled
  refine ⟨filled, body, response, hslots, (Except.ok.inj h).symm, ?_, ?_⟩
  · split at hbody
    · exact .inl (Except.ok.inj hbody).symm
    · exact .inr ⟨_, hbody⟩
  · split at hresponse
    · exact .inl (Except.ok.inj hresponse).symm
    · exact .inr ⟨_, hresponse⟩

/-- A property of the shapes of an exchange: it holds of what is built from a fragment, if `P` holds
of that at every depth, and is kept where a parameter becomes a property of a shape. -/
structure Filled (P R : Schema → Prop) : Prop where
  empty : R .empty
  whole : ∀ {schema : Schema}, Schema.Everywhere P schema → R schema
  attached : ∀ {self schema result : Schema} {name : Json}, R self → Schema.Everywhere P schema →
    self.setProperty name schema = .ok result → R result

/-- What holds inside a shape still does where a parameter has become one of its properties. -/
theorem filled_inside (P : Schema → Prop) : Filled P (Schema.Everywhere.Inside P) where
  empty := ⟨by simp [Schema.empty], by simp [Schema.empty], by simp [Schema.empty]⟩
  whole := fun h => h.inside
  attached := by
    intro self schema result name hself hschema h
    obtain ⟨_, key, _, rfl⟩ := Schema.setProperty_eq_ok.mp h
    have hopened : Schema.Everywhere.Inside P self.opened := by
      unfold Schema.opened
      split
      · exact ⟨hself.items, hself.properties, hself.additional⟩
      · exact hself
    refine ⟨hopened.items, fun entry hmem => ?_, hopened.additional⟩
    rcases Properties.mem_set hmem with hold | hsame
    · exact hopened.properties entry hold
    · exact hsame ▸ hschema

/-- A property that does not look at the properties of a shape goes on at every depth. -/
theorem Filled.everywhere {P : Schema → Prop} (hP : Schema.Kept P) (hempty : P .empty)
    (htable : ∀ {schema : Schema} {table : Properties}, P schema →
      P { schema with properties := table }) : Filled P (Schema.Everywhere P) where
  empty := .leaf hempty rfl rfl rfl
  whole := id
  attached := by
    intro self schema result name hself hschema h
    refine ((filled_inside P).attached hself.inside hschema h).everywhere ?_
    obtain ⟨_, key, _, rfl⟩ := Schema.setProperty_eq_ok.mp h
    exact htable (hP.opened hself.here)

section Shapes

variable {P R : Schema → Prop} (hR : Filled P R) (hP : Schema.Inherent scope P)
include hR hP

/-- A property of shapes that the parameters have and that survives their placing goes on to the
exchange. -/
theorem shapes_of_add {raw : Json} (hexchange : ∀ shape ∈ exchange.shapes, R shape)
    (h : add scope exchange raw = .ok next) : ∀ shape ∈ next.shapes, R shape := by
  intro shape hshape
  rcases add_eq_ok h with rfl | ⟨_, schema, hschema, rfl | ⟨slot, name, filled, hfilled, rfl⟩⟩
  · exact hexchange shape hshape
  · rcases mem_shapes_withSlot hshape with rfl | hold
    · exact hR.whole (Schema.everywhere_ofParameter hP hschema)
    · exact hexchange shape hold
  · rcases mem_shapes_withSlot hshape with rfl | hold
    · exact hR.attached (hexchange _ (slot_mem_shapes exchange slot))
        (Schema.everywhere_ofParameter hP hschema) hfilled
    · exact hexchange shape hold

/-- So every shape of an operation's exchange has it. -/
theorem shapes_of_ofOperation {operation shared : Json}
    (h : ofOperation scope operation shared = .ok exchange) : ∀ shape ∈ exchange.shapes, R shape := by
  have hempty : ∀ shape ∈ ({} : Exchange).shapes, R shape := by
    simp [shapes, hR.empty]
  obtain ⟨filled, body, response, hslots, rfl, hbody, hresponse⟩ :=
    ofOperation_invariant (shapes_of_add hR hP) hempty h
  have hcontent : ∀ {fragment schema}, Schema.ofContent scope fragment = .ok schema → R schema :=
    fun hschema => hR.whole (Schema.everywhere_ofContent hP hschema)
  -- Body and response may have been made anew; the other slots are those of the parameters.
  simp only [shapes, List.forall_mem_cons] at hslots ⊢
  obtain ⟨hheader, hpath, hquery, hbodySlot, hform, hresponseSlot, hnil⟩ := hslots
  refine ⟨hheader, hpath, hquery, ?_, hform, ?_, hnil⟩
  · rcases hbody with rfl | ⟨_, hdescribed⟩
    · exact hbodySlot
    · exact hcontent hdescribed
  · rcases hresponse with rfl | ⟨_, hdescribed⟩
    · exact hresponseSlot
    · exact hcontent hdescribed

end Shapes

end Exchange

/-! ## Slots -/

/-- What parameters make of a slot by their names: nothing, or an object with properties and with
nothing else. -/
def Schema.Grouped (schema : Schema) : Prop :=
  schema = .empty ∨ ∃ table : Properties, table ≠ [] ∧ schema = { properties := table }

/-- A property given to a group keeps it a group, as the groups take no bases. -/
theorem Schema.Grouped.setProperty {self schema result : Schema} {name : Json} (h : self.Grouped)
    (hset : self.setProperty name schema = .ok result) : result.Grouped := by
  obtain ⟨_, key, _, rfl⟩ := Schema.setProperty_eq_ok.mp hset
  refine .inr ⟨Properties.set key schema self.opened.properties, Properties.set_ne_nil, ?_⟩
  rcases h with rfl | ⟨table, _, rfl⟩ <;> rfl

namespace Exchange

variable {scope : Scope} {exchange next : Exchange}

/-- All slots are grouped, except for the body: one parameter may be the whole of it. -/
def Grouped (exchange : Exchange) : Prop :=
  ∀ slot, slot ≠ .body → (exchange.slot slot).Grouped

theorem slot_withSlot (exchange : Exchange) (schema : Schema) (slot other : Slot) :
    (exchange.withSlot schema slot).slot other =
      if other = slot then schema else exchange.slot other := by
  cases slot <;> cases other <;> rfl

/-- Adding a parameter keeps every slot but a replaced body a group of properties. -/
theorem Grouped.add {raw : Json} (h : exchange.Grouped)
    (hadd : Exchange.add scope exchange raw = .ok next) : next.Grouped := by
  intro other hother
  rcases add_eq_ok hadd with rfl | ⟨_, schema, _, rfl | ⟨slot, name, filled, hfilled, rfl⟩⟩
  · cases other <;> exact h _ hother
  · rw [slot_withSlot, if_neg hother]
    exact h other hother
  · rw [slot_withSlot]
    split
    · rename_i hsame
      exact (hsame ▸ h other hother).setProperty hfilled
    · exact h other hother

theorem grouped_of_ofOperation {operation shared : Json}
    (h : ofOperation scope operation shared = .ok exchange) : exchange.Grouped := by
  have hempty : ({} : Exchange).Grouped := fun slot _ => by cases slot <;> exact .inl rfl
  obtain ⟨filled, body, response, hslots, rfl, _⟩ := ofOperation_invariant Grouped.add hempty h
  intro slot hslot
  cases slot
  case body => exact absurd rfl hslot
  all_goals exact hslots _ hslot

end Exchange

/-! ## Descriptions -/

theorem Json.members_eq_ok {value : Json} {members : Members} :
    value.members = .ok members ↔ value = .object members := by
  cases value <;> simp [Json.members]

theorem Json.orElse_object (members : Members) :
    (Json.object members).orElse (.object []) = .object members := by
  cases members <;> rfl

namespace Scope

theorem namesOf_strings (names : List String) : namesOf (names.map .string) = .ok names := by
  induction names with
  | nil => rfl
  | cons name names ih =>
    rw [List.map_cons, namesOf, ih]
    rfl

/-- The names of a scope are those of the table of definitions. -/
theorem ofDocument_table {document : Document} {table : Members}
    (h : document.definitions = .ok (.object table)) :
    ofDocument document = .ok ⟨document, table.map (·.1)⟩ := by
  have helements : (Json.object table).elements = .ok ((table.map (·.1)).map .string) := by
    rw [List.map_map]
    rfl
  simp only [ofDocument, h, lift_ok, ok_bind, helements, namesOf_strings, pure_eq_ok]

end Scope

namespace Analysis

variable {scope : Scope} {document : Document} {analysis : Analysis}

/-- The definitions stand in the order of their table, each built from its fragment. -/
theorem ofDefinitions_eq_ok {table : Members} {definitions : List (String × Schema)} :
    ofDefinitions scope table = .ok definitions ↔
      List.Forall₂ (fun entry definition => ∃ schema,
        Schema.ofFragment scope entry.2 = .ok schema ∧ (entry.1, schema) = definition)
        table definitions := by
  simp only [ofDefinitions, mapM_eq_ok, bind_eq_ok, pure_eq_ok, Except.ok.injEq]

theorem names_of_ofDefinitions {table : Members} {definitions : List (String × Schema)}
    (h : ofDefinitions scope table = .ok definitions) :
    table.map (·.1) = definitions.map (·.1) := by
  replace h := ofDefinitions_eq_ok.mp h
  induction h with
  | nil => rfl
  | cons hfirst _ ih =>
    obtain ⟨schema, _, rfl⟩ := hfirst
    rw [List.map_cons, List.map_cons, ih]

theorem exchange_of_ofRawOperation {raw : Except Malformed RawOperation} {operation : Operation}
    (h : ofRawOperation scope raw = .ok operation) :
    ∃ source shared, Exchange.ofOperation scope source shared = .ok operation.exchange := by
  simp only [ofRawOperation, bind_eq_ok] at h
  obtain ⟨source, _, exchange, hexchange, h⟩ := h
  cases h
  exact ⟨_, _, hexchange⟩

/-- A description is analysed in the scope of the names of its definitions. -/
theorem ofDocument_eq_ok : ofDocument document = .ok analysis ↔
    ∃ table, document.definitions = .ok (.object table) ∧
      ofDefinitions ⟨document, table.map (·.1)⟩ table = .ok analysis.definitions ∧
      document.operations.mapM (ofRawOperation ⟨document, table.map (·.1)⟩) =
        .ok analysis.operations := by
  simp only [ofDocument, bind_eq_ok, lift_eq_ok]
  constructor
  · rintro ⟨scope, hscope, value, hvalue, table, htable, definitions, hdefinitions, operations,
      hoperations, h⟩
    cases h
    rw [Json.members_eq_ok.mp htable] at hvalue
    cases hscope.symm.trans (Scope.ofDocument_table hvalue)
    exact ⟨table, hvalue, hdefinitions, hoperations⟩
  · rintro ⟨table, hvalue, hdefinitions, hoperations⟩
    exact ⟨_, Scope.ofDocument_table hvalue, _, hvalue, table, rfl, _, hdefinitions, _,
      hoperations, rfl⟩

/-- The analysis of a document is that of its table of definitions and that of its operations, in
the scope of the names of the table. -/
theorem parts_of_table {table : Members} (htable : document.definitions = .ok (.object table))
    (h : ofDocument document = .ok analysis) :
    ofDefinitions ⟨document, table.map (·.1)⟩ table = .ok analysis.definitions ∧
      document.operations.mapM (ofRawOperation ⟨document, table.map (·.1)⟩) =
        .ok analysis.operations := by
  obtain ⟨_, hvalue, hparts⟩ := ofDocument_eq_ok.mp h
  cases htable.symm.trans hvalue
  exact hparts

/-- The parts of an analysis: each definition is built from a fragment and each operation from the
place where it is written, in the scope of the names of the definitions. -/
theorem parts_of_ofDocument (h : ofDocument document = .ok analysis) :
    ∃ scope : Scope, scope.names = analysis.definitions.map (·.1) ∧
      (∀ definition ∈ analysis.definitions, ∃ fragment,
        Schema.ofFragment scope fragment = .ok definition.2) ∧
      ∀ operation ∈ analysis.operations, ∃ source shared,
        Exchange.ofOperation scope source shared = .ok operation.exchange := by
  obtain ⟨table, _, hdefinitions, hoperations⟩ := ofDocument_eq_ok.mp h
  refine ⟨⟨document, table.map (·.1)⟩, names_of_ofDefinitions hdefinitions, ?_, ?_⟩
  · intro definition hmem
    have hbuilt := ofDefinitions_eq_ok.mp hdefinitions
    obtain ⟨entry, _, schema, hschema, rfl⟩ := exists_of_forall₂ hbuilt.flip hmem
    exact ⟨entry.2, hschema⟩
  · intro operation hmem
    obtain ⟨raw, _, hraw⟩ := exists_of_forall₂ (mapM_eq_ok.mp hoperations).flip hmem
    exact exchange_of_ofRawOperation hraw

/-- What is inherent in built shapes holds of every definition at every depth, and what fillings keep
of it holds of every shape of an exchange. -/
theorem shapes_of_ofDocument {P R : Schema → Prop} (h : ofDocument document = .ok analysis)
    (hP : ∀ scope : Scope, scope.names = analysis.definitions.map (·.1) → Schema.Inherent scope P)
    (hR : Exchange.Filled P R) :
    (∀ definition ∈ analysis.definitions, Schema.Everywhere P definition.2) ∧
      ∀ operation ∈ analysis.operations, ∀ shape ∈ operation.exchange.shapes, R shape := by
  obtain ⟨scope, hnames, hdefinitions, hoperations⟩ := parts_of_ofDocument h
  constructor
  · intro definition hmem
    obtain ⟨fragment, hbuilt⟩ := hdefinitions definition hmem
    exact (Schema.built_ofFragment hbuilt).everywhere (hP scope hnames)
  · intro operation hmem
    obtain ⟨source, shared, hexchange⟩ := hoperations operation hmem
    exact Exchange.shapes_of_ofOperation hR (hP scope hnames) hexchange

end Analysis

theorem Analysis.grouped_of_ofDocument {document : Document} {analysis : Analysis}
    (h : ofDocument document = .ok analysis) :
    ∀ operation ∈ analysis.operations, operation.exchange.Grouped := by
  obtain ⟨scope, _, _, hoperations⟩ := parts_of_ofDocument h
  intro operation hmem
  obtain ⟨source, shared, hexchange⟩ := hoperations operation hmem
  exact Exchange.grouped_of_ofOperation hexchange

/-! ## The parts of a generated file -/

theorem Operation.shape_of_mem_groups {operation : Operation} {suffix : String} {schema : Schema}
    (h : (suffix, schema) ∈ operation.groups) : schema ∈ operation.exchange.shapes := by
  simp only [groups, List.mem_cons, Prod.mk.injEq] at h
  simp only [Exchange.shapes, List.mem_cons]
  tauto

/-- A request extends the query and the path that are not empty, and has the body as a property. -/
theorem Operation.request?_eq_some {operation : Operation} {request : Schema}
    (h : operation.request? = some request) :
    request =
      { properties :=
          if operation.exchange.body.isEmpty then []
          else [(.text "body",
            { Schema.reference (operation.typeStem ++ "Body") with required := true })]
        heritage :=
          (if operation.exchange.query.isEmpty then [] else [operation.typeStem ++ "Query"]) ++
            if operation.exchange.path.isEmpty then [] else [operation.typeStem ++ "Path"] } := by
  simp only [request?, Option.ite_none_left_eq_some, Option.some.injEq] at h
  exact h.2.symm

/-- A declaration among the parts of an operation is that of a group, of the response or of the
request. -/
theorem Operation.mem_blocks {operation : Operation} {name : String} {schema : Schema} :
    .declaration name schema ∈ operation.blocks ↔
      (∃ suffix, (suffix, schema) ∈ operation.groups ∧ schema.isEmpty = false ∧
        name = operation.typeStem ++ suffix) ∨
      (name = operation.typeStem ++ "Response" ∧ schema = operation.exchange.response) ∨
      (operation.request? = some schema ∧ name = operation.typeStem ++ "Request") := by
  simp only [blocks, List.mem_append, List.mem_map, List.mem_filter, List.mem_singleton,
    Option.mem_toList, Block.declaration.injEq, reduceCtorEq, false_or, Prod.exists]
  constructor
  · rintro ((⟨suffix, _, ⟨hmem, hfull⟩, rfl, rfl⟩ | hresponse) | ⟨_, hrequest, rfl, rfl⟩)
    · exact .inl ⟨suffix, hmem, by simpa using hfull, rfl⟩
    · exact .inr (.inl hresponse)
    · exact .inr (.inr ⟨hrequest, rfl⟩)
  · rintro (⟨suffix, hmem, hfull, rfl⟩ | hresponse | ⟨hrequest, rfl⟩)
    · exact .inl (.inl ⟨suffix, schema, ⟨hmem, by simpa using hfull⟩, rfl, rfl⟩)
    · exact .inl (.inr hresponse)
    · exact .inr ⟨schema, hrequest, rfl, rfl⟩

/-- A declaration is written for a definition of the document or for an operation. -/
theorem Analysis.mem_blocks {analysis : Analysis} {name : String} {schema : Schema} :
    .declaration name schema ∈ analysis.blocks ↔
      (name, schema) ∈ analysis.definitions ∨
        ∃ operation ∈ analysis.operations, .declaration name schema ∈ operation.blocks := by
  simp [blocks]

/-- What is declared is the shape of a definition, a shape of an exchange, or a request. -/
theorem Analysis.origin_of_declaration {analysis : Analysis} {name : String} {schema : Schema}
    (h : .declaration name schema ∈ analysis.blocks) :
    (∃ definition ∈ analysis.definitions, definition.2 = schema) ∨
      ∃ operation ∈ analysis.operations,
        schema ∈ operation.exchange.shapes ∨ operation.request? = some schema := by
  rcases mem_blocks.mp h with hmem | ⟨operation, hoperation, hmem⟩
  · exact .inl ⟨_, hmem, rfl⟩
  · refine .inr ⟨operation, hoperation, ?_⟩
    rcases Operation.mem_blocks.mp hmem with ⟨suffix, hgroup, _⟩ | ⟨_, rfl⟩ | ⟨hrequest, _⟩
    · exact .inl (Operation.shape_of_mem_groups hgroup)
    · exact .inl (by simp [Exchange.shapes])
    · exact .inr hrequest

end ApiTypes
