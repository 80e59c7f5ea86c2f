import Mathlib.Data.Fintype.Pigeonhole
import Mathlib.Logic.Relation
import Mathlib.Order.Monotone.Basic
import Mathlib.Order.WellFounded
import ApiTypes.Proofs.Closure

/-!
# What interfaces extend

The base of an interface is a group of the operation that the interface is the request of, or it is
a definition. A definition that is a plain reference stands for the one it refers to. Whether the
last definition that is reached so is an object is up to the description: a reference is recorded
without a look at what it leads to.
-/

namespace ApiTypes

open TypeScript (identifier interface)

/-! ## Declarations as interfaces -/

theorem TypeScript.declaration_of_heritage {emitEnums : Bool} {schema : Schema} {name text : String}
    (hobject : schema.kind = .object) (hbases : schema.heritage ≠ [])
    (h : declaration emitEnums schema name = .ok text) :
    ∃ fields, text = interface (identifier name) (schema.heritage.map identifier) fields := by
  obtain ⟨list, _, htext⟩ := declaration_of_object hobject (fun _ _ => .inr hbases) h
  exact ⟨list, htext⟩

theorem Generation.text_of_declaration {settings : Settings} {analysis : Analysis}
    {texts : List String} (htexts : Generation.texts settings analysis = .ok texts) {block : Block}
    (h : block ∈ analysis.blocks) :
    ∃ text ∈ texts, block.text settings.emitEnums.isTruthy = .ok text :=
  exists_of_forall₂ (mapM_eq_ok.mp htexts) h

/-! ## The bases of a request -/

/-- A name is declared for the query or the path of an operation, as an object with properties. -/
def Operation.DeclaresObject (operation : Operation) (name : String) : Prop :=
  ∃ suffix group, suffix ∈ ["Query", "Path"] ∧ name = operation.typeStem ++ suffix ∧
    .declaration name group ∈ operation.blocks ∧ group.kind = .object ∧ group.properties ≠ []

/-- What a request extends is a group of the same operation, and those are objects. -/
theorem Operation.declaresObject_of_request {operation : Operation} {request : Schema}
    (hgrouped : operation.exchange.Grouped) (hrequest : operation.request? = some request) :
    ∀ base ∈ request.heritage, operation.DeclaresObject base := by
  have hslot : ∀ suffix ∈ ["Query", "Path"], ∀ slot, slot ≠ .body →
      (suffix, operation.exchange.slot slot) ∈ operation.groups →
      ∀ base ∈ (if (operation.exchange.slot slot).isEmpty then [] else [operation.typeStem ++ suffix]),
        operation.DeclaresObject base := by
    intro suffix hsuffix slot hslot hgroup base hbase
    split at hbase
    · cases hbase
    · rename_i hfull
      rw [List.mem_singleton.mp hbase]
      have hblock := mem_blocks.mpr (.inl ⟨suffix, hgroup, Bool.eq_false_iff.mpr hfull, rfl⟩)
      -- A slot that is not empty holds a table of parameters.
      rcases hgrouped slot hslot with hempty | ⟨table, htable, hobject⟩
      · exact absurd (by rw [hempty]; rfl) hfull
      · exact ⟨suffix, _, hsuffix, rfl, hblock, by rw [hobject], by rw [hobject]; exact htable⟩
  intro base hbase
  rw [request?_eq_some hrequest] at hbase
  rcases List.mem_append.mp hbase with hquery | hpath
  · exact hslot "Query" (by simp) .query (by simp) (by simp [groups, Exchange.slot]) base hquery
  · exact hslot "Path" (by simp) .path (by simp) (by simp [groups, Exchange.slot]) base hpath

namespace Analysis

variable {document : Document} {analysis : Analysis}

/-! ## Chains of plain references -/

/-- The definition that another one stands for: it is a plain reference to it. -/
def alias? (analysis : Analysis) (name : String) : Option String := do
  let schema ← analysis.definitions.lookup name
  if schema.kind = .reference ∧ schema.indexPath = [] then some schema.name else none

/-- The plain references from a name end at a definition of this shape. -/
def EndsIn (analysis : Analysis) (name : String) (last : Schema) : Prop :=
  ∃ other, Relation.ReflTransGen (analysis.alias? · = some ·) name other ∧
    analysis.definitions.lookup other = some last ∧ analysis.alias? other = none

/-- The plain references from a name come to a definition from which they go round in a circle. -/
def Circles (analysis : Analysis) (name : String) : Prop :=
  ∃ other, Relation.ReflTransGen (analysis.alias? · = some ·) name other ∧
    Relation.TransGen (analysis.alias? · = some ·) other other

theorem exists_lookup {name : String} (h : name ∈ analysis.definitions.map (·.1)) :
    ∃ schema, analysis.definitions.lookup name = some schema := by
  rw [← Option.isSome_iff_exists, List.lookup_isSome_iff]
  obtain ⟨definition, hmem, rfl⟩ := List.mem_map.mp h
  exact ⟨definition, hmem, beq_self_eq_true _⟩

/-- What a definition stands for is defined again. -/
theorem alias?_defined
    (hclosed : ∀ definition ∈ analysis.definitions,
      definition.2.RefersWithin (· ∈ analysis.definitions.map (·.1)))
    {name other : String} (h : analysis.alias? name = some other) :
    other ∈ analysis.definitions.map (·.1) := by
  unfold alias? at h
  obtain ⟨schema, hlookup, h⟩ := Option.bind_eq_some_iff.mp h
  obtain ⟨⟨hreference, _⟩, hname⟩ := Option.ite_none_right_eq_some.mp h
  have hmem := mem_of_lookup hlookup
  refine (hclosed _ hmem).here other (Schema.mem_references.mpr (.inl ⟨hreference, ?_⟩))
  exact (Option.some.inj hname).symm

/-- A chain of plain references without end comes back to where it has been: it is a map from the
naturals into finitely many names. -/
theorem exists_circle {chain : ℕ → String}
    (hdefined : ∀ n, chain n ∈ analysis.definitions.map (·.1))
    (hstep : ∀ n, analysis.alias? (chain n) = some (chain (n + 1))) :
    ∃ n, Relation.TransGen (analysis.alias? · = some ·) (chain n) (chain n) := by
  have hlater : ∀ {m n}, m < n → Relation.TransGen (analysis.alias? · = some ·) (chain m) (chain n) :=
    fun hlt => Nat.rel_of_forall_rel_succ_of_lt _ (fun n => .single (hstep n)) hlt
  obtain ⟨i, j, hne, hsame⟩ := Finite.exists_ne_map_eq_of_infinite
    fun n => (⟨chain n, hdefined n⟩ : { name // name ∈ analysis.definitions.map (·.1) })
  have hsame : chain i = chain j := congrArg Subtype.val hsame
  rcases lt_or_gt_of_ne hne with hlt | hlt
  · have hcircle := hlater hlt
    rw [← hsame] at hcircle
    exact ⟨i, hcircle⟩
  · have hcircle := hlater hlt
    rw [hsame] at hcircle
    exact ⟨j, hcircle⟩

/-- A chain of plain references never leaves the definitions, and it ends or comes to a circle. -/
theorem ends_or_circles
    (hclosed : ∀ definition ∈ analysis.definitions,
      definition.2.RefersWithin (· ∈ analysis.definitions.map (·.1)))
    {name : String} (hname : name ∈ analysis.definitions.map (·.1)) :
    (∃ last, analysis.EndsIn name last) ∨ analysis.Circles name := by
  -- The chain of aliases ends where following it is well-founded. Otherwise it never ends, and as
  -- there are finitely many definitions it comes back.
  by_cases hacc : Acc (fun other name => analysis.alias? name = some other) name
  · left
    induction hacc with
    | intro name _ ih =>
      cases halias : analysis.alias? name with
      | none =>
        obtain ⟨last, hlast⟩ := exists_lookup hname
        exact ⟨last, name, .refl, hlast, halias⟩
      | some other =>
        obtain ⟨last, final, hchain, hend⟩ := ih other halias (alias?_defined hclosed halias)
        exact ⟨last, final, .head halias hchain, hend⟩
  · right
    obtain ⟨chain, hstart, hstep⟩ := not_acc_iff_exists_descending_chain.mp hacc
    have hdefined : ∀ n, chain n ∈ analysis.definitions.map (·.1) := by
      intro n
      cases n with
      | zero => exact hstart ▸ hname
      | succ n => exact alias?_defined hclosed (hstep n)
    have hreaches : ∀ n, Relation.ReflTransGen (analysis.alias? · = some ·) name (chain n) := by
      intro n
      induction n with
      | zero => rw [hstart]
      | succ n ih => exact ih.tail (hstep n)
    obtain ⟨n, hcircle⟩ := exists_circle hdefined hstep
    exact ⟨chain n, hreaches n, hcircle⟩

/-! ## Interfaces -/

/-- Every base of an interface is declared in the same file. The bases of a request are objects with
properties; every other base is a definition, from which the plain references end at a definition,
whatever its shape is, or go round in a circle. -/
theorem bases_declared (h : ofDocument document = .ok analysis) {settings : Settings}
    {texts : List String} (htexts : Generation.texts settings analysis = .ok texts) {name : String}
    {schema : Schema} (hblock : .declaration name schema ∈ analysis.blocks)
    (hobject : schema.kind = .object) (hbases : schema.heritage ≠ []) :
    (∃ fields, interface (identifier name) (schema.heritage.map identifier) fields ∈ texts) ∧
    (∀ base ∈ schema.heritage, identifier base ∈ analysis.declaredNames) ∧
    ((∃ operation ∈ analysis.operations, operation.request? = some schema ∧
        ∀ base ∈ schema.heritage, operation.DeclaresObject base) ∨
      ∀ base ∈ schema.heritage, base ∈ analysis.definitions.map (·.1) ∧
        ((∃ last, analysis.EndsIn base last) ∨ analysis.Circles base)) := by
  have hkinds := refersWithin_or_request h hblock
  -- A shape that refers to definitions only has bases from which the chains stay among these.
  have hshape : schema.RefersWithin (· ∈ analysis.definitions.map (·.1)) →
      ∀ base ∈ schema.heritage, base ∈ analysis.definitions.map (·.1) ∧
        ((∃ last, analysis.EndsIn base last) ∨ analysis.Circles base) := by
    intro hwithin base hbase
    have hdefined := hwithin.here base (Schema.mem_references.mpr (.inr hbase))
    exact ⟨hdefined, ends_or_circles (references_of_ofDocument h).1 hdefined⟩
  refine ⟨?_, ?_, ?_⟩
  · obtain ⟨text, hmem, htext⟩ := Generation.text_of_declaration htexts hblock
    obtain ⟨fields, rfl⟩ := TypeScript.declaration_of_heritage hobject hbases htext
    exact ⟨fields, hmem⟩
  · intro base hbase
    rcases hkinds with hwithin | ⟨operation, hmem, hrequest⟩
    · exact definition_declared (hshape hwithin base hbase).1
    · obtain ⟨_, group, _, _, hdeclared, _⟩ := Operation.declaresObject_of_request
        (grouped_of_ofDocument h operation hmem) hrequest base hbase
      exact declaredName_mem (mem_blocks.mpr (.inr ⟨operation, hmem, hdeclared⟩))
  · rcases hkinds with hwithin | ⟨operation, hmem, hrequest⟩
    · exact .inr (hshape hwithin)
    · exact .inl ⟨operation, hmem, hrequest,
        Operation.declaresObject_of_request (grouped_of_ofDocument h operation hmem) hrequest⟩

/-- A description with an object, a definition in question and one that extends the latter. -/
def extending (base : Json) : Document where
  dialect := .swagger2
  members := [
    ("definitions", .object [
      ("Pet", .object [("properties", .object [("name", .object [("type", .string "string")])])]),
      ("Base", base),
      ("Dog", .object [("allOf", .array [
        .object [("$ref", .string "#/definitions/Base")],
        .object [("properties", .object [("tail", .object [("type", .string "boolean")])])]])])])]

/-- A base can stand for itself, so that no chain from it ends. -/
example : (alias? · "Base") <$> (ofDocument
    (extending (.object [("$ref", .string "#/definitions/Base")]))).toOption =
      some (some "Base") := by
  decide +kernel

/-- The theorem where the base of an interface stands for an object. -/
theorem bases_declared_alias :
    ∃ analysis texts schema,
      ofDocument (extending (.object [("$ref", .string "#/definitions/Pet")])) = .ok analysis ∧
      Generation.texts {} analysis = .ok texts ∧ .declaration "Dog" schema ∈ analysis.blocks ∧
      schema.kind = .object ∧ schema.heritage = ["Base"] ∧
      identifier "Base" ∈ analysis.declaredNames ∧ analysis.alias? "Base" = some "Pet" := by
  have hsummary : (do
      let analysis ← ofDocument (extending (.object [("$ref", .string "#/definitions/Pet")]))
      let _ ← Generation.texts {} analysis
      return (analysis.alias? "Base", analysis.definitions.map fun definition =>
        (definition.1, definition.2.kind, definition.2.heritage)) : Except Error _).toOption =
        some (some "Pet", [("Pet", .object, []), ("Base", .reference, []),
          ("Dog", .object, ["Base"])]) := by
    decide +kernel
  obtain ⟨analysis, hanalysis, hrest⟩ := bind_eq_ok.mp (eq_ok_of_toOption hsummary)
  obtain ⟨texts, htexts, hrest⟩ := bind_eq_ok.mp hrest
  obtain ⟨halias, hdefinitions⟩ := Prod.mk.inj (Except.ok.inj hrest)
  obtain ⟨⟨name, schema⟩, hmem, hdog⟩ := List.mem_map.mp
    (hdefinitions ▸ (by simp) : ("Dog", Kind.object, ["Base"]) ∈ analysis.definitions.map
      fun definition => (definition.1, definition.2.kind, definition.2.heritage))
  simp only [Prod.mk.injEq] at hdog
  obtain ⟨rfl, hobject, hbases⟩ := hdog
  have hblock := mem_blocks.mpr (.inl hmem)
  have hdeclared := bases_declared hanalysis htexts hblock hobject (by simp [hbases])
  exact ⟨analysis, texts, schema, hanalysis, htexts, hblock, hobject, hbases,
    hdeclared.2.1 "Base" (by simp [hbases]), halias⟩

/-- A string is extended: the reference to it is recorded without a look at the definition. -/
theorem extends_string :
    ∃ analysis texts,
      ofDocument (extending (.object [("type", .string "string")])) = .ok analysis ∧
      Generation.texts {} analysis = .ok texts ∧
      "export interface Dog extends Base \x7b\n  tail?: boolean;\n\x7d" ∈ texts ∧
      (analysis.definitions.lookup "Base").map (·.kind) = some .string := by
  have hsummary : (do
      let analysis ← ofDocument (extending (.object [("type", .string "string")]))
      let texts ← Generation.texts {} analysis
      return (texts[2]?, (analysis.definitions.lookup "Base").map (·.kind)) :
        Except Error _).toOption =
        some (some "export interface Dog extends Base \x7b\n  tail?: boolean;\n\x7d",
          some .string) := by
    decide +kernel
  obtain ⟨analysis, hanalysis, hrest⟩ := bind_eq_ok.mp (eq_ok_of_toOption hsummary)
  obtain ⟨texts, htexts, hrest⟩ := bind_eq_ok.mp hrest
  obtain ⟨htext, hkind⟩ := Prod.mk.inj (Except.ok.inj hrest)
  exact ⟨analysis, texts, hanalysis, htexts, List.mem_of_getElem? htext, hkind⟩

end Analysis

end ApiTypes
