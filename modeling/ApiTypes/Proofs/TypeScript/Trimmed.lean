import ApiTypes.Proofs.Schema.Trimmed
import ApiTypes.TypeScript.Declaration

/-!
# Only what has a meaning is rendered

Shapes that agree on the fields with a meaning have the same type expression at every depth, and
the same declaration under every name.
-/

namespace ApiTypes.TypeScript

open Schema

theorem isEmpty_trimmedTable (table : Properties) :
    (trimmedTable table).isEmpty = table.isEmpty := by
  cases table <;> rfl

theorem isCompound_trimmed (schema : Schema) : isCompound schema.trimmed = isCompound schema := by
  rcases schema with ⟨kind⟩
  simp only [trimmed, isCompound, trimmedOption_eq]
  cases kind <;> simp [Kind.isPrimitive, isEmpty_trimmedTable]

theorem elementsText_trimmed {items : Option Schema}
    (h : ∀ item ∈ items, ∀ depth, typeText depth item.trimmed = typeText depth item) (depth : Int) :
    elementsText depth (trimmedOption items) = elementsText depth items := by
  cases items with
  | none => rfl
  | some item =>
    rw [trimmedOption, elementsText, elementsText, h item rfl, isCompound_trimmed]

theorem indexFields_trimmed {additional : Option Schema}
    (h : ∀ rest ∈ additional, ∀ depth, typeText depth rest.trimmed = typeText depth rest)
    (depth : Int) :
    indexFields depth (trimmedOption additional) = indexFields depth additional := by
  cases additional with
  | none => rfl
  | some rest => rw [trimmedOption, indexFields, indexFields, h rest rfl]

theorem propertyFields_trimmed {table : Properties}
    (h : ∀ entry ∈ table, ∀ depth, typeText depth entry.2.trimmed = typeText depth entry.2)
    (depth : Int) :
    propertyFields depth (trimmedTable table) = propertyFields depth table := by
  induction table with
  | nil => rfl
  | cons entry table ih =>
    rcases List.forall_mem_cons.mp h with ⟨hentry, htable⟩
    rcases entry with ⟨name, schema⟩
    rw [trimmedTable, propertyFields, propertyFields, ih htable, hentry]
    cases schema
    rfl

/-- What is trimmed away has no part in the type: by induction over the shape. -/
theorem typeText_trimmed (schema : Schema) (depth : Int) :
    typeText depth schema.trimmed = typeText depth schema := by
  induction schema using Schema.induct generalizing depth with
  | step schema ihItems ihProperties ihAdditional =>
    rcases schema with ⟨kind⟩
    simp only [trimmed, typeText]
    cases kind
    case array => simp only [if_true, elementsText_trimmed ihItems]
    case object =>
      simp only [if_true, propertyFields_trimmed ihProperties, indexFields_trimmed ihAdditional]
    all_goals simp [Kind.isPrimitive]

/-! ## Declarations -/

theorem interfaceFields?_trimmed (schema : Schema) :
    interfaceFields? schema.trimmed = interfaceFields? schema := by
  rcases schema with ⟨kind⟩
  by_cases h : kind = .object
  · simp only [interfaceFields?, fields, trimmed, if_pos h]
    rw [propertyFields_trimmed (fun entry _ => typeText_trimmed entry.2),
      indexFields_trimmed (fun rest _ => typeText_trimmed rest)]
  · simp only [interfaceFields?, trimmed, if_neg h]

theorem isEnumeration_trimmed (emitEnums : Bool) (schema : Schema) :
    isEnumeration emitEnums schema.trimmed = isEnumeration emitEnums schema := by
  rcases schema with ⟨kind⟩
  by_cases h : kind.isPrimitive = true
  · simp only [isEnumeration, trimmed, if_pos h]
  · simp [isEnumeration, trimmed, h]

theorem declaration_trimmed (emitEnums : Bool) (schema : Schema) (name : String) :
    declaration emitEnums schema.trimmed name = declaration emitEnums schema name := by
  simp only [declaration, interfaceFields?_trimmed, isEnumeration_trimmed, typeText_trimmed]
  rcases schema with ⟨kind⟩
  by_cases hobject : kind = .object
  · simp [trimmed, isEnumeration, hobject, Kind.isPrimitive]
  · by_cases hprimitive : kind.isPrimitive = true
    · simp only [interfaceFields?, trimmed, if_neg hobject, if_pos hprimitive, ok_bind]
    · simp [interfaceFields?, trimmed, isEnumeration, hobject, hprimitive]

end ApiTypes.TypeScript
