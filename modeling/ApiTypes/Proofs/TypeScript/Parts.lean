import ApiTypes.Proofs.Outcome
import ApiTypes.TypeScript.Type

/-!
# The parts of a type

What a type expression is made of, said once for all proofs about its text: the node that its kind
gives, and for an object the fields. Each property becomes one field, in order, and the shape of all
other properties becomes a last one.
-/

namespace ApiTypes.TypeScript

variable {depth : Int} {schema : Schema} {list : List Field} {text : String}

/-! ## Fields -/

/-- A field that is made of a property, with its type on a line of the given depth. -/
structure FieldOf (depth : Int) (property : PropertyName × Schema) (field : Field) : Prop where
  key : keyText property.1 = .ok field.key
  optional : field.optional = !property.2.required
  type : typeText depth property.2 = .ok field.type
  comments : commentLines property.2.deprecated property.2.description = .ok field.comments

def indexField (type : String) : Field :=
  { key := "[index: string]", optional := false, type, comments := [] }

/-- The fields of a table, one to each property. -/
theorem propertyFields_eq_ok {table : Properties} :
    propertyFields depth table = .ok list ↔ List.Forall₂ (FieldOf depth) table list := by
  induction table generalizing list with
  | nil => simp [propertyFields, eq_comm]
  | cons entry table ih =>
    obtain ⟨name, schema⟩ := entry
    simp only [propertyFields, bind_eq_ok, lift_eq_ok, ih, List.forall₂_cons_left_iff]
    constructor
    · rintro ⟨comments, hcomments, key, hkey, type, htype, rest, hrest, h⟩
      cases h
      exact ⟨_, rest, ⟨hkey, rfl, htype, hcomments⟩, hrest, rfl⟩
    · rintro ⟨⟨key, optional, type, comments⟩, rest, hfield, hrest, rfl⟩
      obtain ⟨hkey, hoptional, htype, hcomments⟩ := hfield
      subst hoptional
      exact ⟨comments, hcomments, key, hkey, type, htype, rest, hrest, rfl⟩

/-- At most one field stands for all further properties. -/
theorem indexFields_eq_ok {additional : Option Schema} :
    indexFields depth additional = .ok list ↔
      List.Forall₂ (fun rest field => ∃ type, typeText depth rest = .ok type ∧
        indexField type = field) additional.toList list := by
  cases additional with
  | none => simp [indexFields, eq_comm]
  | some rest =>
    simp only [indexFields, bind_eq_ok, Option.toList_some, List.forall₂_cons_left_iff,
      List.forall₂_nil_left_iff, pure_eq_ok, Except.ok.injEq]
    constructor
    · rintro ⟨type, htype, rfl⟩
      exact ⟨indexField type, [], ⟨type, htype, rfl⟩, rfl, rfl⟩
    · rintro ⟨_, _, ⟨type, htype, rfl⟩, rfl, rfl⟩
      exact ⟨type, htype, rfl⟩

/-- The fields of an object are those of its properties and, last, that for further ones. -/
theorem fields_eq_ok :
    fields depth schema = .ok list ↔ ∃ own index,
      List.Forall₂ (FieldOf depth) schema.properties own ∧
      List.Forall₂ (fun rest field => ∃ type, typeText depth rest = .ok type ∧
        indexField type = field) schema.additional.toList index ∧
      own ++ index = list := by
  simp only [fields, bind_eq_ok, propertyFields_eq_ok, indexFields_eq_ok, pure_eq_ok,
    Except.ok.injEq]
  constructor
  · rintro ⟨own, hown, index, hindex, hlist⟩
    exact ⟨own, index, hown, hindex, hlist⟩
  · rintro ⟨own, index, hown, hindex, hlist⟩
    exact ⟨own, hown, index, hindex, hlist⟩

/-- What holds of the fields that are made of properties, and of the one for all others, holds of all
fields of an object. -/
theorem forall_field_of_fields {P : Field → Prop} (h : fields depth schema = .ok list)
    (hown : ∀ property ∈ schema.properties, ∀ field, FieldOf depth property field → P field)
    (hindex : ∀ rest ∈ schema.additional, ∀ type, typeText depth rest = .ok type →
      P (indexField type)) : ∀ field ∈ list, P field := by
  obtain ⟨own, index, hfields, hrest, rfl⟩ := fields_eq_ok.mp h
  refine List.forall_mem_append.mpr ⟨fun field hmem => ?_, fun field hmem => ?_⟩
  · obtain ⟨property, hproperty, hfield⟩ := exists_of_forall₂ hfields.flip hmem
    exact hown property hproperty field hfield
  · obtain ⟨rest, hadditional, type, htype, rfl⟩ := exists_of_forall₂ hrest.flip hmem
    exact hindex rest (Option.mem_toList.mp hadditional) type htype

theorem fields_eq_nil_iff (h : fields depth schema = .ok list) :
    list = [] ↔ schema.properties = [] ∧ schema.additional = none := by
  obtain ⟨own, index, hfields, hrest, rfl⟩ := fields_eq_ok.mp h
  rw [← List.length_eq_zero_iff, List.length_append, ← hfields.length_eq, ← hrest.length_eq,
    Nat.add_eq_zero_iff, List.length_eq_zero_iff, List.length_eq_zero_iff, Option.toList_eq_nil_iff]

theorem isEmpty_of_fields (h : fields depth schema = .ok list) :
    list.isEmpty = (schema.properties.isEmpty && schema.additional.isNone) := by
  rw [Bool.eq_iff_iff, Bool.and_eq_true, List.isEmpty_iff, List.isEmpty_iff,
    Option.isNone_iff_eq_none, fields_eq_nil_iff h]

/-! ## Nodes -/

/-- A type expression but for the alternative of a nullable shape, as the kind of the shape gives
it. -/
inductive NodeOf (depth : Int) (schema : Schema) : String → Prop
  | reference (hkind : schema.kind = .reference) :
      NodeOf depth schema (referenceText schema.name schema.indexPath)
  | elements (hkind : schema.kind = .array) {node : String}
      (hnode : elementsText depth schema.items = .ok node) : NodeOf depth schema node
  | object (hkind : schema.kind = .object) {list : List Field}
      (hlist : fields (depth + 1) schema = .ok list) :
      NodeOf depth schema (objectText depth list schema.heritage)
  | void (hkind : schema.kind = .empty) : NodeOf depth schema "void"
  | primitive (hkind : schema.kind.isPrimitive = true) {node : String}
      (hnode : primitiveText schema.kind schema.enumValues = .ok node) : NodeOf depth schema node

/-- The type of an object is written from its fields, one step further in, and its bases. -/
theorem typeText_object (hobject : schema.kind = .object) (depth : Int) :
    typeText depth schema = (do
      let list ← fields (depth + 1) schema
      let node := objectText depth list schema.heritage
      return if schema.nullable then node ++ " | null" else node) := by
  obtain ⟨kind⟩ := schema
  subst hobject
  simp only [typeText, fields, bind_assoc, pure_bind]

/-- The type of an array is written from that of its elements. -/
theorem typeText_array (harray : schema.kind = .array) (depth : Int) :
    typeText depth schema = (do
      let node ← elementsText depth schema.items
      return if schema.nullable then node ++ " | null" else node) := by
  obtain ⟨kind⟩ := schema
  subst harray
  rw [typeText]

/-- The type of a primitive shape is written from its literals. -/
theorem typeText_primitive (hprimitive : schema.kind.isPrimitive = true) (depth : Int) :
    typeText depth schema = (do
      let node ← primitiveText schema.kind schema.enumValues
      return if schema.nullable then node ++ " | null" else node) := by
  obtain ⟨kind⟩ := schema
  cases kind
  case string | number | boolean => rw [typeText]
  all_goals cases hprimitive

/-- The type of a primitive shape with literals is their union. -/
theorem typeText_literals (hprimitive : schema.kind.isPrimitive = true)
    (hsome : schema.enumValues ≠ []) (depth : Int) :
    typeText depth schema = (do
      checkLiterals schema.enumValues
      let alternatives ← schema.enumValues.mapM literal
      let node := String.intercalate " | " alternatives
      return if schema.nullable then node ++ " | null" else node) := by
  have hlisted : ¬schema.enumValues.isEmpty = true := by rwa [List.isEmpty_iff]
  rw [typeText_primitive hprimitive, primitiveText, if_neg hlisted]
  simp only [bind_assoc, pure_bind]

/-- A type expression is a node, and `null` beside it if the shape is nullable. -/
theorem exists_node (h : typeText depth schema = .ok text) :
    ∃ node, NodeOf depth schema node ∧
      text = if schema.nullable then node ++ " | null" else node := by
  -- The text of an object has an equation of its own; the other kinds are unfolded.
  by_cases hobject : schema.kind = .object
  · rw [typeText_object hobject, bind_eq_ok] at h
    obtain ⟨list, hlist, h⟩ := h
    exact ⟨_, .object hobject hlist, (Except.ok.inj h).symm⟩
  · obtain ⟨kind, name, _, _, _, nullable, enumValues, items⟩ := schema
    unfold typeText at h
    cases kind
    case object => exact absurd rfl hobject
    case reference => exact ⟨_, .reference rfl, (Except.ok.inj h).symm⟩
    case empty => exact ⟨_, .void rfl, (Except.ok.inj h).symm⟩
    case array =>
      obtain ⟨node, hnode, h⟩ := bind_eq_ok.mp h
      exact ⟨node, .elements rfl hnode, (Except.ok.inj h).symm⟩
    all_goals
      obtain ⟨node, hnode, h⟩ := bind_eq_ok.mp h
      exact ⟨node, .primitive rfl hnode, (Except.ok.inj h).symm⟩

/-- The elements of an array are written in parentheses if their type is compound. -/
theorem elementsText_some_eq_ok {item : Schema} {node : String} :
    elementsText depth (some item) = .ok node ↔ ∃ element, typeText depth item = .ok element ∧
      (if isCompound item then "(" ++ element ++ ")[]" else element ++ "[]") = node := by
  simp only [elementsText, bind_eq_ok, pure_eq_ok, Except.ok.injEq]

end ApiTypes.TypeScript
