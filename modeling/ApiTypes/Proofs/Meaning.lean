import Mathlib.Data.List.Perm.Subperm
import ApiTypes.Proofs.Acceptance
import ApiTypes.Proofs.Schema.Built

/-!
# Building keeps the meaning

A fragment that composes nothing is built, and its shape accepts exactly the values that the
fragment accepts.
-/

namespace ApiTypes

open Schema (tableEntries propertyNames)

/-! ## Kinds -/

/-- The type that a fragment declares is the kind of its shape. -/
theorem kind_of_typeTag {members : Members} {kind : Kind} {listed : Bool}
    (h : TypeTag members kind listed) : Kind.ofFragment members = .ok (kind, listed) := by
  have hnull : Kind.tags.lookup "null" = none := by decide
  -- No kind has the tag of the null value, so the two tags of a list can be told apart.
  have htag : ∀ {tag : String} {kind : Kind}, Kind.tags.lookup tag = some kind →
      Kind.ofTag (.string tag) = .ok kind ∧ (tag == "null") = false := by
    intro tag kind hkind
    have hne : tag ≠ "null" := by
      intro hsame
      subst hsame
      rw [hnull] at hkind
      cases hkind
    exact ⟨by simp only [Kind.ofTag, hkind], beq_false_of_ne hne⟩
  cases h with
  | single hkind h =>
    unfold Kind.ofFragment Kind.typeTag Members.get
    rw [h]
    simp [(htag hkind).1, Json.isNull]
  | beforeNull hkind h =>
    unfold Kind.ofFragment Kind.typeTag Members.get
    rw [h]
    simp [Json.isText, (htag hkind).1, (htag hkind).2, Json.isNull]
  | afterNull hkind h =>
    unfold Kind.ofFragment Kind.typeTag Members.get
    rw [h]
    simp [Json.isText, (htag hkind).1, (htag hkind).2, Json.isNull]

theorem kind_ne_reference {members : Members} {kind : Kind} {listed : Bool}
    (h : TypeTag members kind listed) : kind ≠ .reference := by
  intro hsame
  subst hsame
  have hknown := Schema.kind_of_ofFragment (kind_of_typeTag h)
  simp [Kind.isClosed] at hknown

theorem typeTag_unique {members : Members} {kind other : Kind} {listed also : Bool}
    (h : TypeTag members kind listed) (hother : TypeTag members other also) :
    kind = other ∧ listed = also := by
  have hsame := (kind_of_typeTag h).symm.trans (kind_of_typeTag hother)
  exact Prod.mk.inj (Except.ok.inj hsame)

theorem ofLiteral_of_hasKind {kind : Kind} {value : Json} (hprimitive : kind.isPrimitive = true)
    (h : HasKind kind value) : Kind.ofLiteral value = .ok kind := by
  cases h <;> first | rfl | cases hprimitive

theorem isNull_iff {value : Json} : value.isNull = true ↔ value = .null := by
  cases value <;> simp [Json.isNull]

/-- An enumeration whose literals are of one kind passes the check, which sets the null aside. -/
theorem literals_of_kind {kind : Kind} {values : List Json} (hprimitive : kind.isPrimitive = true)
    (h : ∀ literal ∈ values, literal ≠ .null → HasKind kind literal) :
    Schema.literals values = .ok (values.filter (!·.isNull), values.any (·.isNull)) := by
  have hkinds : (values.filter (!·.isNull)).mapM Kind.ofLiteral =
      .ok ((values.filter (!·.isNull)).map fun _ => kind) := by
    rw [mapM_eq_ok, List.forall₂_map_right_iff, List.forall₂_same]
    intro literal hmem
    have hsome : literal ≠ .null := by
      intro hnull
      rw [hnull] at hmem
      simp [Json.isNull] at hmem
    exact ofLiteral_of_hasKind hprimitive (h literal (List.mem_of_mem_filter hmem) hsome)
  -- All literals are of one kind, so that of the three kinds that are counted at most one is found.
  have honly : ∀ other, ((values.filter (!·.isNull)).map fun _ => kind).contains other = true →
      other = kind := by
    intro other hother
    rcases List.mem_map.mp (List.contains_iff_mem.mp hother) with ⟨_, _, hsame⟩
    exact hsame.symm
  unfold Schema.literals
  simp only [hkinds, ok_bind]
  generalize ((values.filter (!·.isNull)).map fun _ => kind) = kinds at honly
  have hlength : ([Kind.boolean, .number, .string].filter (kinds.contains ·)).length ≤ 1 := by
    have hnodup : ([Kind.boolean, .number, .string].filter (kinds.contains ·)).Nodup :=
      List.Nodup.sublist List.filter_sublist (by decide)
    have hsubset : [Kind.boolean, .number, .string].filter (kinds.contains ·) ⊆ [kind] := by
      intro other hother
      rw [honly other (List.mem_filter.mp hother).2]
      exact List.mem_singleton_self kind
    exact (hnodup.subperm hsubset).length_le
  rw [if_neg (by omega)]
  rfl

/-! ## The parts of a typed fragment -/

section Parts

variable {members : Members} {kind : Kind} {listed : Bool}

/-- The names that are read as required are those that the fragment requires, and it declares each
of them. -/
theorem requiredNames_of_typed (h : Fragment.Typed members kind listed) :
    ∃ names, Schema.requiredNames members = .ok names ∧
      (∀ name, name ∈ names ↔ Requires members name) ∧
      ∀ name ∈ names, name ∈ propertyNames members := by
  have hnames : ∀ names : List String, Scope.namesOf (names.map .string) = .ok names := by
    intro names
    induction names with
    | nil => rfl
    | cons name names ih =>
      rw [List.map_cons, Scope.namesOf, ih]
      rfl
  unfold Schema.requiredNames Members.get Requires
  cases hlookup : members.lookup "required" with
  | none => exact ⟨[], rfl, by simp, by simp⟩
  | some value =>
    rcases h.required value hlookup with ⟨names, rfl, hdeclared⟩
    have helements : ((Json.array (names.map .string)).orElse (.array [])).elements =
        .ok (names.map .string) := by
      cases names <;> rfl
    refine ⟨names, ?_, by simp, hdeclared⟩
    rw [Option.getD_some, helements, lift_ok, ok_bind, hnames]
    rfl

theorem Fragment.Typed.exists_of_requires (h : Fragment.Typed members kind listed) {name : String}
    (hname : Requires members name) :
    ∃ entry ∈ tableEntries (members.lookup "properties"), entry.1 = name := by
  rcases requiredNames_of_typed h with ⟨names, _, hnames, hdeclared⟩
  exact List.mem_map.mp (hdeclared name ((hnames name).mpr hname))

/-- The literals of the shape and the null that it admits are those that the fragment lists. -/
theorem enumeration_of_typed (h : Fragment.Typed members kind listed) :
    ∃ literals, Schema.enumeration members = .ok literals ∧
      (literals.2 = true ↔
        ∃ values, members.lookup "enum" = some (.array values) ∧ .null ∈ values) ∧
      ∀ value, value ≠ .null → ((literals.1 ≠ [] → value ∈ literals.1) ↔
        ∀ values, members.lookup "enum" = some (.array values) → value ∈ values) := by
  unfold Schema.enumeration Members.get
  cases hlookup : members.lookup "enum" with
  | none => exact ⟨([], false), rfl, by simp, by simp⟩
  | some value =>
    rcases h.literals value hlookup with
      ⟨hprimitive, values, rfl, ⟨literal, hliteral, hsome⟩, hkinds⟩
    have htruthy : (Json.array values).isTruthy = true := by
      cases values with
      | nil => cases hliteral
      | cons _ _ => rfl
    -- One literal is not null, so that the list kept is not empty and does restrict.
    have hfound : values.filter (!·.isNull) ≠ [] := by
      intro hnil
      have hnull := List.filter_eq_nil_iff.mp hnil literal hliteral
      exact hsome (isNull_iff.mp (by simpa using hnull))
    refine ⟨_, (if_pos htruthy).trans (literals_of_kind hprimitive hkinds), ?_, ?_⟩
    · simp [isNull_iff]
    · intro value hvalue
      have hvalue : value.isNull = false := by
        rw [Bool.eq_false_iff]
        exact fun h => hvalue (isNull_iff.mp h)
      simp [hfound, hvalue]

end Parts

/-! ## Shapes that mean what fragments mean -/

/-- A shape accepts exactly the values that a fragment accepts, whatever the definitions accept. -/
def Means (scope : Scope) (schema : Schema) (fragment : Json) : Prop :=
  ∀ rho value, schema.Accepts rho value ↔ Fragment.Accepts scope rho fragment value

structure MeansProperty (scope : Scope) (members : Members) (entry : String × Json)
    (property : PropertyName × Schema) : Prop where
  name : property.1 = .text entry.1
  shape : Means scope property.2 entry.2
  required : property.2.required = true ↔ Requires members entry.1

/-- The fragment under `additionalProperties`, where a flag stands for none. -/
def furtherFragment : Option Json → Option Json
  | some (.object fragment) => some (.object fragment)
  | _ => none

/-- A shape whose parts mean what the parts of a typed fragment mean. The kind decides which parts
there are. -/
structure Reads (scope : Scope) (members : Members) (kind : Kind) (schema : Schema) : Prop where
  form : schema.kind = kind
  nullable : schema.nullable = true ↔ AdmitsNull members
  literals : ∀ value, value ≠ .null →
    ((schema.enumValues ≠ [] → value ∈ schema.enumValues) ↔
      ∀ values, members.lookup "enum" = some (.array values) → value ∈ values)
  heritage : schema.heritage = []
  items : kind = .array → Option.Rel (Means scope) schema.items (members.lookup "items")
  properties : kind = .object → List.Forall₂ (MeansProperty scope members)
    (tableEntries (members.lookup "properties")) schema.properties
  additional : kind = .object → Option.Rel (Means scope) schema.additional
    (furtherFragment (members.lookup "additionalProperties"))

theorem exists_of_rel {α β : Type} {related : α → β → Prop} {x : Option α} {y : Option β}
    (h : Option.Rel related x y) {a : α} (ha : a ∈ x) : ∃ b ∈ y, related a b := by
  cases h with
  | some hrelated =>
    cases ha
    exact ⟨_, rfl, hrelated⟩
  | none => cases ha

theorem exists_of_rel_right {α β : Type} {related : α → β → Prop} {x : Option α} {y : Option β}
    (h : Option.Rel related x y) {b : β} (hb : b ∈ y) : ∃ a ∈ x, related a b := by
  cases h with
  | some hrelated =>
    cases hb
    exact ⟨_, rfl, hrelated⟩
  | none => cases hb

theorem furtherFragment_eq_some {value : Option Json} {fragment : Json} :
    furtherFragment value = some fragment ↔
      ∃ members, value = some (.object members) ∧ fragment = .object members := by
  unfold furtherFragment
  split
  · simp [eq_comm]
  · rename_i hobject
    simp only [reduceCtorEq, false_iff]
    intro h
    rcases h with ⟨members, hvalue, _⟩
    exact hobject members hvalue

namespace Reads

variable {scope : Scope} {members : Members} {kind : Kind} {listed : Bool} {schema : Schema}
  {rho : String → Json → Prop} {value : Json}

/-- What the shape accepts the fragment accepts: no keyword of the class is lost. -/
theorem fragment_accepts (h : Reads scope members kind schema)
    (htyped : Fragment.Typed members kind listed) (haccepts : schema.Accepts rho value) :
    Fragment.Accepts scope rho (.object members) value := by
  cases haccepts with
  | reference hkind =>
    have hform := kind_ne_reference htyped.tag
    exact absurd (h.form.symm.trans hkind) hform
  | null hnull => exact .null htyped.reference (h.nullable.mp hnull)
  | shaped hkind hliteral _ hitems hrequired hproperties hadditional =>
    rw [h.form] at hkind
    -- In each case below the form of the value fixes the kind, and with it the parts that are read.
    have hvalue : value ≠ .null := by
      intro hsame
      subst hsame
      cases hkind
    apply Fragment.Accepts.typed htyped.reference htyped.tag hkind
      ((h.literals value hvalue).mp hliteral)
    · intro elements hvalue fragment hfragment element helement
      subst hvalue
      cases hkind
      rcases exists_of_rel_right (h.items rfl) hfragment with ⟨item, hitem, hmeans⟩
      exact (hmeans rho element).mp (hitems elements rfl item hitem element helement)
    · intro entries hvalue name hname
      subst hvalue
      cases hkind
      rcases htyped.exists_of_requires hname with ⟨source, hsource, rfl⟩
      rcases exists_of_forall₂ (h.properties rfl) hsource with ⟨shape, hshape, hmeans⟩
      rcases hrequired entries rfl shape hshape (hmeans.required.mpr hname) with
        ⟨entry, hentry, hsame⟩
      have hname : source.1 = entry.1 := PropertyName.text.inj (hmeans.name.symm.trans hsame)
      rw [hname]
      exact List.mem_map_of_mem hentry
    · intro entries hvalue entry hentry property hproperty hsame
      subst hvalue
      cases hkind
      rcases exists_of_forall₂ (h.properties rfl) hproperty with ⟨shape, hshape, hmeans⟩
      exact (hmeans.shape rho entry.2).mp (hproperties entries rfl entry hentry shape hshape
        (hmeans.name.trans (congrArg _ hsame)))
    · intro entries hvalue entry hentry hother fragment hfragment
      subst hvalue
      cases hkind
      rcases exists_of_rel_right (h.additional rfl)
        (furtherFragment_eq_some.mpr ⟨fragment, hfragment, rfl⟩) with ⟨rest, hrest, hmeans⟩
      apply (hmeans rho entry.2).mp
      -- A key that is no property of the fragment is none of the shape.
      apply hadditional entries rfl entry hentry _ rest hrest
      intro property hproperty hsame
      rcases exists_of_forall₂ (h.properties rfl).flip hproperty with ⟨source, hsource, hmeans⟩
      have hname : source.1 = entry.1 := PropertyName.text.inj (hmeans.name.symm.trans hsame)
      exact hother (hname ▸ List.mem_map_of_mem hsource)

/-- What the fragment accepts the shape accepts: each clause of the shape comes from a keyword. -/
theorem accepts (h : Reads scope members kind schema)
    (htyped : Fragment.Typed members kind listed)
    (haccepts : Fragment.Accepts scope rho (.object members) value) :
    schema.Accepts rho value := by
  -- What is built is a shaped type: a value is accepted by its parts, each of them by the fragment
  -- that the part was read from.
  cases haccepts with
  | reference href =>
    rcases href with ⟨target, _, htarget, _⟩
    rw [htyped.reference] at htarget
    cases htarget
  | null _ hnull => exact .null (h.nullable.mpr hnull)
  | typed _ htag hkind hliteral hitems hrequired hproperties hadditional =>
    cases (typeTag_unique htag htyped.tag).1
    have hvalue : value ≠ .null := by
      intro hsame
      subst hsame
      cases hkind
    apply Schema.Accepts.shaped (h.form.symm ▸ hkind) ((h.literals value hvalue).mpr hliteral)
    · rw [h.heritage]
      simp
    · intro elements hvalue item hitem element helement
      subst hvalue
      cases hkind
      rcases exists_of_rel (h.items rfl) hitem with ⟨fragment, hfragment, hmeans⟩
      exact (hmeans rho element).mpr (hitems elements rfl fragment hfragment element helement)
    · intro entries hvalue shape hshape hflag
      subst hvalue
      cases hkind
      rcases exists_of_forall₂ (h.properties rfl).flip hshape with ⟨source, _, hmeans⟩
      rcases List.mem_map.mp (hrequired entries rfl source.1 (hmeans.required.mp hflag)) with
        ⟨entry, hentry, hsame⟩
      exact ⟨entry, hentry, hmeans.name.trans (congrArg _ hsame.symm)⟩
    · intro entries hvalue entry hentry shape hshape hsame
      subst hvalue
      cases hkind
      rcases exists_of_forall₂ (h.properties rfl).flip hshape with ⟨source, hsource, hmeans⟩
      have hname : source.1 = entry.1 := PropertyName.text.inj (hmeans.name.symm.trans hsame)
      exact (hmeans.shape rho entry.2).mpr
        (hproperties entries rfl entry hentry source hsource hname)
    · intro entries hvalue entry hentry hother rest hrest
      subst hvalue
      cases hkind
      rcases exists_of_rel (h.additional rfl) hrest with ⟨fragment, hfragment, hmeans⟩
      rcases furtherFragment_eq_some.mp hfragment with ⟨inner, hinner, rfl⟩
      apply (hmeans rho entry.2).mpr
      apply hadditional entries rfl entry hentry _ inner hinner
      intro hname
      rcases List.mem_map.mp hname with ⟨source, hsource, hsame⟩
      rcases exists_of_forall₂ (h.properties rfl) hsource with ⟨shape, hshape, hmeans⟩
      exact hother shape hshape (hmeans.name.trans (congrArg _ hsame))

end Reads

/-! ## Building the parts -/

/-- The mark of being required says nothing about the values of a property itself. -/
theorem Schema.accepts_required {schema : Schema} {required : Bool} {rho : String → Json → Prop}
    {value : Json} :
    Schema.Accepts rho { schema with required } value ↔ schema.Accepts rho value := by
  constructor
  · intro h
    cases h with
    | reference hkind hpath h => exact .reference hkind hpath h
    | null h => exact .null h
    | shaped hkind hliteral hheritage hitems hrequired hproperties hadditional =>
      exact .shaped hkind hliteral hheritage hitems hrequired hproperties hadditional
  · intro h
    cases h with
    | reference hkind hpath h => exact .reference hkind hpath h
    | null h => exact .null h
    | shaped hkind hliteral hheritage hitems hrequired hproperties hadditional =>
      exact .shaped hkind hliteral hheritage hitems hrequired hproperties hadditional

/-- A fragment is built to a shape that means what it means. -/
def Preserved (scope : Scope) (fragment : Json) : Prop :=
  ∃ schema, Schema.ofFragment scope fragment = .ok schema ∧ Means scope schema fragment

section Build

variable {scope : Scope} {members : Members} {kind : Kind} {listed : Bool}

theorem exists_itemsShape {value : Option Json}
    (h : ∀ fragment ∈ value, fragment ≠ .null ∧ Preserved scope fragment) :
    ∃ items, Schema.itemsShape scope value = .ok items ∧
      Option.Rel (Means scope) items value := by
  cases value with
  | none => exact ⟨none, rfl, .none⟩
  | some fragment =>
    rcases h fragment rfl with ⟨hne, schema, hschema, hmeans⟩
    refine ⟨some schema, ?_, .some hmeans⟩
    rw [Schema.itemsShape_some hne, hschema]
    rfl

theorem exists_furtherShape {value : Option Json}
    (hform : ∀ fragment ∈ value, fragment = .bool false ∨ ∃ members, fragment = .object members)
    (h : ∀ members, value = some (.object members) → Preserved scope (.object members)) :
    ∃ rest, Schema.furtherShape scope value = .ok rest ∧
      Option.Rel (Means scope) rest (furtherFragment value) := by
  cases value with
  | none => exact ⟨none, rfl, .none⟩
  | some fragment =>
    rcases hform fragment rfl with rfl | ⟨members, rfl⟩
    · exact ⟨none, rfl, .none⟩
    · rcases h members rfl with ⟨schema, hschema, hmeans⟩
      refine ⟨some schema, ?_, .some hmeans⟩
      rw [Schema.furtherShape, hschema]
      rfl

theorem exists_ofProperties {names : List String}
    (hnames : ∀ name, name ∈ names ↔ Requires members name) {table : Members}
    (h : ∀ entry ∈ table, Preserved scope entry.2) :
    ∃ properties, Schema.ofProperties scope names table = .ok properties ∧
      List.Forall₂ (MeansProperty scope members) table properties := by
  induction table with
  | nil => exact ⟨[], by rw [Schema.ofProperties], .nil⟩
  | cons entry table ih =>
    rcases List.forall_mem_cons.mp h with ⟨⟨schema, hschema, hmeans⟩, htable⟩
    rcases ih htable with ⟨properties, hproperties, hrest⟩
    refine ⟨_, Schema.ofProperties_eq_ok.mpr
      (.cons ⟨schema, hschema, rfl⟩ (Schema.ofProperties_eq_ok.mp hproperties)), .cons ?_ hrest⟩
    refine ⟨rfl, fun rho value => Schema.accepts_required.trans (hmeans rho value), ?_⟩
    show (schema.required || names.contains entry.1) = true ↔ _
    rw [Schema.required_of_ofFragment hschema, Bool.false_or, List.contains_iff_mem, hnames]

theorem distinct_of_names {table : Members} {properties : List (PropertyName × Schema)}
    (h : List.Forall₂ (fun entry property => property.1 = PropertyName.text entry.1) table
      properties) (hnames : (table.map (·.1)).Nodup) : Properties.Distinct properties := by
  induction h with
  | nil => exact Properties.distinct_nil
  | @cons entry property table properties hname hrest ih =>
    rw [List.map_cons, List.nodup_cons] at hnames
    rw [Properties.distinct_cons, hname]
    refine ⟨(PropertyName.same_text _ _).mpr rfl, ?_, ih hnames.2⟩
    -- A second property of the name would come from a second entry of that name.
    rw [Properties.find?_eq_none]
    intro other hother
    rcases exists_of_forall₂ hrest.flip hother with ⟨source, hsource, hsame⟩
    rw [hsame, Bool.eq_false_iff]
    intro htext
    apply hnames.1
    rw [← (PropertyName.same_text _ _).mp htext]
    exact List.mem_map_of_mem hsource

/-- A shape admits the null exactly if the type, the mark or the enumeration of the fragment
does. -/
theorem nullable_iff (h : TypeTag members kind listed) {admits : Bool}
    (hadmits : admits = true ↔
      ∃ values, members.lookup "enum" = some (.array values) ∧ .null ∈ values) :
    (listed || Schema.declaresNullable members || admits) = true ↔ AdmitsNull members := by
  have hlisted : listed = true ↔ ∃ kind, TypeTag members kind true := by
    constructor
    · intro hsame
      subst hsame
      exact ⟨kind, h⟩
    · intro h
      rcases h with ⟨other, hother⟩
      exact (typeTag_unique h hother).2
  unfold Schema.declaresNullable AdmitsNull
  rw [Bool.or_eq_true, Bool.or_eq_true, Bool.or_eq_true, hlisted, hadmits]
  tauto

/-- A fragment with a type means what its shape means, if its parts do. -/
theorem preserved_of_typed (h : Fragment.Typed members kind listed)
    (hitems : ∀ fragment ∈ members.lookup "items", fragment ≠ .null ∧ Preserved scope fragment)
    (hproperties : ∀ entry ∈ tableEntries (members.lookup "properties"), Preserved scope entry.2)
    (hadditional : ∀ fragment, members.lookup "additionalProperties" = some (.object fragment) →
      Preserved scope (.object fragment)) : Preserved scope (.object members) := by
  rcases requiredNames_of_typed h with ⟨names, hrequired, hnames, _⟩
  rcases enumeration_of_typed h with ⟨literals, hliterals, hadmits, hvalues⟩
  rcases exists_itemsShape hitems with ⟨items, hitems, hitemsRel⟩
  rcases exists_ofProperties hnames hproperties with ⟨properties, hbuilt, hmeans⟩
  rcases exists_furtherShape h.additional hadditional with ⟨rest, hrest, hrestRel⟩
  have htable : Schema.ofTable scope members = .ok (Properties.ofList properties, rest) :=
    Schema.ofTable_eq_ok.mpr ⟨names, hrequired, properties,
      (Schema.tableShapes_of_object h.table).trans hbuilt, rest, hrest, rfl⟩
  -- No name stands twice in the fragment, so that no property replaces another one.
  have hlist : Properties.ofList properties = properties :=
    (distinct_of_names (hmeans.imp fun _ _ hmeans => hmeans.name) h.distinct).ofList
  refine ⟨Schema.plainShape members kind listed (if kind = .array then items else none)
    (if kind = .object then (Properties.ofList properties, rest) else ([], none)) literals, ?_, ?_⟩
  · rw [Schema.ofFragment_plain h.reference h.composition]
    refine Schema.ofPlain_eq_ok.mpr
      ⟨kind, listed, kind_of_typeTag h.tag, _, ?_, _, ?_, literals, hliterals, rfl⟩
    · rw [Schema.ofItems_eq, hitems]
      split <;> rfl
    · rw [htable]
      split <;> rfl
  · have hreads : Reads scope members kind (Schema.plainShape members kind listed
        (if kind = .array then items else none)
        (if kind = .object then (Properties.ofList properties, rest) else ([], none))
        literals) := by
      constructor
      case form => rfl
      case nullable => exact nullable_iff h.tag hadmits
      case literals => exact hvalues
      case heritage => rfl
      case items =>
        intro hsame
        subst hsame
        exact hitemsRel
      case properties =>
        intro hsame
        subst hsame
        show List.Forall₂ _ _ (Properties.ofList properties)
        rw [hlist]
        exact hmeans
      case additional =>
        intro hsame
        subst hsame
        exact hrestRel
    exact fun rho value => ⟨hreads.fragment_accepts h, hreads.accepts h⟩

/-- A reference means what the definition of its name means. -/
theorem preserved_of_reference {name : String} (href : RefersTo scope members name)
    (hname : name ∈ scope.names) : Preserved scope (.object members) := by
  rcases href with ⟨target, tail, htarget, htail, hsegments⟩
  have hresolved : scope.resolve target = .ok (Schema.reference name) := by
    unfold Scope.resolve
    simp only [htail, hsegments, if_pos hname]
    rfl
  refine ⟨Schema.reference name, ?_, ?_⟩
  · rw [Schema.ofFragment_reference htarget, hresolved]
  · -- On both sides only the rule for references can apply.
    intro rho value
    constructor
    · intro h
      cases h with
      | reference _ _ h => exact .reference ⟨target, tail, htarget, htail, hsegments⟩ h
      | null h => cases h
      | shaped hkind => cases hkind
    · intro h
      cases h with
      | @reference _ other _ hother h =>
        rcases hother with ⟨target', tail', htarget', htail', hsegments'⟩
        cases htarget.symm.trans htarget'
        cases htail.symm.trans htail'
        cases hsegments.symm.trans hsegments'
        exact .reference rfl rfl h
      | null hnone =>
        rw [htarget] at hnone
        cases hnone
      | typed hnone =>
        rw [htarget] at hnone
        cases hnone

/-- A fragment that composes nothing is built to a shape that accepts exactly the values that the
fragment accepts. -/
theorem ofFragment_accepts_iff {fragment : Json} (h : Fragment.Basic scope fragment) :
    ∃ schema, Schema.ofFragment scope fragment = .ok schema ∧
      ∀ rho value, schema.Accepts rho value ↔ Fragment.Accepts scope rho fragment value := by
  induction h with
  | reference href hname => exact preserved_of_reference href hname
  | typed h items properties additional ihItems ihProperties ihAdditional =>
    apply preserved_of_typed h _ ihProperties ihAdditional
    intro fragment hfragment
    refine ⟨?_, ihItems fragment hfragment⟩
    intro hsame
    subst hsame
    cases items _ hfragment

end Build

/-! ## A nullable object with an owner -/

def ownerScope : Scope where
  document := { dialect := .openapi3, members := [] }
  names := ["Owner"]

def ownerReference : Members :=
  [("$ref", .string "#/components/schemas/Owner")]

def sizeLiterals : Members :=
  [("type", .string "integer"), ("enum", .array [.int 1, .int 2, .null])]

def petMembers : Members :=
  [("type", .array [.string "object", .string "null"]), ("required", .array [.string "owner"]),
    ("properties", .object [("owner", .object ownerReference), ("size", .object sizeLiterals)]),
    ("additionalProperties", .object ownerReference)]

theorem basic_ownerReference : Fragment.Basic ownerScope (.object ownerReference) :=
  .reference ⟨_, "Owner", rfl, rfl, rfl⟩ (List.mem_singleton_self _)

theorem basic_sizeLiterals : Fragment.Basic ownerScope (.object sizeLiterals) := by
  have hkind : ∀ literal ∈ [Json.int 1, .int 2, .null], literal ≠ .null →
      HasKind .number literal := by
    simp only [List.forall_mem_cons]
    exact ⟨fun _ => .int 1, fun _ => .int 2, fun h => absurd rfl h, by simp⟩
  have htyped : Fragment.Typed sizeLiterals .number false := by
    constructor
    case reference => rfl
    case composition => rfl
    case tag => exact .single rfl rfl
    case table => exact fun _ h => nomatch h
    case distinct => exact List.nodup_nil
    case required => exact fun _ h => nomatch h
    case additional => exact fun _ h => nomatch h
    case literals =>
      intro value h
      cases h
      exact ⟨rfl, _, rfl, ⟨.int 1, by simp, by simp⟩, hkind⟩
  exact .typed htyped (fun _ h => nomatch h) (fun _ h => nomatch h) (fun _ h => nomatch h)

theorem basic_petMembers : Fragment.Basic ownerScope (.object petMembers) := by
  have htyped : Fragment.Typed petMembers .object true := by
    constructor
    case reference => rfl
    case composition => rfl
    case tag => exact .beforeNull rfl rfl
    case table =>
      intro value h
      cases h
      exact ⟨_, rfl⟩
    case distinct => decide
    case required =>
      intro value h
      cases h
      exact ⟨["owner"], rfl, by decide⟩
    case additional =>
      intro value h
      cases h
      exact .inr ⟨_, rfl⟩
    case literals => exact fun _ h => nomatch h
  apply Fragment.Basic.typed htyped (fun _ h => nomatch h)
  · show ∀ property ∈ [("owner", Json.object ownerReference), ("size", .object sizeLiterals)],
      Fragment.Basic ownerScope property.2
    simp only [List.forall_mem_cons]
    exact ⟨basic_ownerReference, basic_sizeLiterals, by simp⟩
  · intro fragment h
    cases h
    exact basic_ownerReference

/-- The theorem at a nullable object, of which null is a value and an object without a required
property is none. -/
theorem ofFragment_accepts_iff_pet :
    ∃ schema, Schema.ofFragment ownerScope (.object petMembers) = .ok schema ∧
      schema.Accepts (fun _ _ => True) .null ∧
      ¬schema.Accepts (fun _ _ => True) (.object [("size", .int 1)]) := by
  rcases ofFragment_accepts_iff basic_petMembers with ⟨schema, hschema, haccepts⟩
  refine ⟨schema, hschema, ?_, ?_⟩
  · rw [haccepts]
    exact .null rfl (.inr (.inr (.inl ⟨.object, .beforeNull rfl rfl⟩)))
  · rw [haccepts]
    intro h
    cases h with
    | reference href =>
      rcases href with ⟨target, _, htarget, _⟩
      cases htarget
    | typed _ _ _ _ _ hrequired =>
      have howner := hrequired _ rfl "owner" ⟨_, rfl, List.mem_singleton_self _⟩
      simp at howner

end ApiTypes
