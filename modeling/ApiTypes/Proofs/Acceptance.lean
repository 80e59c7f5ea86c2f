import ApiTypes.Proofs.Schema.Fragment

/-!
# The values that shapes and fragments accept

A shape stands for a set of values, and so does the fragment that it is built from. Both relations
are given here side by side; `rho` says which values each definition accepts, so that nothing is
said about the definitions themselves.
-/

namespace ApiTypes

/-- The values of a kind. No value is of an empty shape or of a reference by its form. -/
inductive HasKind : Kind → Json → Prop where
  | string (s : String) : HasKind .string (.string s)
  | int (i : Int) : HasKind .number (.int i)
  | double (x : Binary64) : HasKind .number (.double x)
  | boolean (b : Bool) : HasKind .boolean (.bool b)
  | array (elements : List Json) : HasKind .array (.array elements)
  | object (entries : Members) : HasKind .object (.object entries)

namespace Schema

inductive Accepts (rho : String → Json → Prop) : Schema → Json → Prop where
  | reference {schema : Schema} {value : Json} (hkind : schema.kind = .reference)
      (hpath : schema.indexPath = []) (h : rho schema.name value) : Accepts rho schema value
  | null {schema : Schema} (h : schema.nullable = true) : Accepts rho schema .null
  | shaped {schema : Schema} {value : Json} (hkind : HasKind schema.kind value)
      (hliteral : schema.enumValues ≠ [] → value ∈ schema.enumValues)
      (hheritage : ∀ base ∈ schema.heritage, rho base value)
      (hitems : ∀ elements, value = .array elements → ∀ item ∈ schema.items,
        ∀ element ∈ elements, Accepts rho item element)
      (hrequired : ∀ entries, value = .object entries → ∀ property ∈ schema.properties,
        property.2.required = true → ∃ entry ∈ entries, property.1 = .text entry.1)
      (hproperties : ∀ entries, value = .object entries → ∀ entry ∈ entries,
        ∀ property ∈ schema.properties, property.1 = .text entry.1 → Accepts rho property.2 entry.2)
      (hadditional : ∀ entries, value = .object entries → ∀ entry ∈ entries,
        (∀ property ∈ schema.properties, property.1 ≠ .text entry.1) →
          ∀ rest ∈ schema.additional, Accepts rho rest entry.2) : Accepts rho schema value

end Schema

/-! ## Fragments -/

open Schema (tableEntries propertyNames)

/-- Whether members are a reference to the definition of this name, and not into it. -/
def RefersTo (scope : Scope) (members : Members) (name : String) : Prop :=
  ∃ target tail, (Json.object members).reference? = some target ∧
    Text.after? scope.dialect.definitionsRoot target = some tail ∧
    Text.pointerSegments tail = [name]

/-- The kind of the type tag of members, which may stand in a list together with `"null"`. -/
inductive TypeTag (members : Members) : Kind → Bool → Prop where
  | single {tag : String} {kind : Kind} (hkind : Kind.tags.lookup tag = some kind)
      (h : members.lookup "type" = some (.string tag)) : TypeTag members kind false
  | beforeNull {tag : String} {kind : Kind} (hkind : Kind.tags.lookup tag = some kind)
      (h : members.lookup "type" = some (.array [.string tag, .string "null"])) :
      TypeTag members kind true
  | afterNull {tag : String} {kind : Kind} (hkind : Kind.tags.lookup tag = some kind)
      (h : members.lookup "type" = some (.array [.string "null", .string tag])) :
      TypeTag members kind true

/-- Whether members admit null: by a flag, in the list of type tags, or among the literals. -/
def AdmitsNull (members : Members) : Prop :=
  (Members.get members "nullable").isTruthy = true ∨
    (Members.get members "x-nullable").isTruthy = true ∨
    (∃ kind, TypeTag members kind true) ∨
    ∃ values, members.lookup "enum" = some (.array values) ∧ .null ∈ values

def Requires (members : Members) (name : String) : Prop :=
  ∃ elements, members.lookup "required" = some (.array elements) ∧ .string name ∈ elements

namespace Fragment

inductive Accepts (scope : Scope) (rho : String → Json → Prop) : Json → Json → Prop where
  | reference {members : Members} {name : String} {value : Json}
      (href : RefersTo scope members name) (h : rho name value) : Accepts scope rho (.object members) value
  | null {members : Members} (href : (Json.object members).reference? = none)
      (h : AdmitsNull members) : Accepts scope rho (.object members) .null
  | typed {members : Members} {kind : Kind} {listed : Bool} {value : Json}
      (href : (Json.object members).reference? = none) (htag : TypeTag members kind listed)
      (hkind : HasKind kind value)
      (hliteral : ∀ values, members.lookup "enum" = some (.array values) → value ∈ values)
      (hitems : ∀ elements, value = .array elements → ∀ fragment,
        members.lookup "items" = some fragment → ∀ element ∈ elements,
          Accepts scope rho fragment element)
      (hrequired : ∀ entries, value = .object entries → ∀ name, Requires members name →
        name ∈ entries.map (·.1))
      (hproperties : ∀ entries, value = .object entries → ∀ entry ∈ entries,
        ∀ property ∈ tableEntries (members.lookup "properties"), property.1 = entry.1 →
          Accepts scope rho property.2 entry.2)
      (hadditional : ∀ entries, value = .object entries → ∀ entry ∈ entries,
        entry.1 ∉ propertyNames members → ∀ fragment,
          members.lookup "additionalProperties" = some (.object fragment) →
            Accepts scope rho (.object fragment) entry.2) :
      Accepts scope rho (.object members) value

/-- The members of a fragment with a type tag, apart from the fragments among them. -/
structure Typed (members : Members) (kind : Kind) (listed : Bool) : Prop where
  reference : (Json.object members).reference? = none
  composition : Members.has members "allOf" = false
  tag : TypeTag members kind listed
  table : ∀ value, members.lookup "properties" = some value → ∃ table, value = .object table
  distinct : (propertyNames members).Nodup
  required : ∀ value, members.lookup "required" = some value →
    ∃ names : List String, value = .array (names.map .string) ∧
      ∀ name ∈ names, name ∈ propertyNames members
  additional : ∀ value, members.lookup "additionalProperties" = some value →
    value = .bool false ∨ ∃ fragment, value = .object fragment
  literals : ∀ value, members.lookup "enum" = some value → kind.isPrimitive = true ∧
    ∃ values, value = .array values ∧ (∃ literal ∈ values, literal ≠ .null) ∧
      ∀ literal ∈ values, literal ≠ .null → HasKind kind literal

/-- Fragments that compose nothing: references to declared definitions, and fragments with a type
tag whose own fragments are such fragments again. -/
inductive Basic (scope : Scope) : Json → Prop where
  | reference {members : Members} {name : String} (href : RefersTo scope members name)
      (hname : name ∈ scope.names) : Basic scope (.object members)
  | typed {members : Members} {kind : Kind} {listed : Bool} (h : Typed members kind listed)
      (items : ∀ fragment, members.lookup "items" = some fragment → Basic scope fragment)
      (properties : ∀ property ∈ tableEntries (members.lookup "properties"),
        Basic scope property.2)
      (additional : ∀ fragment,
        members.lookup "additionalProperties" = some (.object fragment) →
          Basic scope (.object fragment)) : Basic scope (.object members)

end Fragment

end ApiTypes
