import ApiTypes.Proofs.Schema.Associative
import ApiTypes.Proofs.Schema.Everywhere

/-!
# The names that shapes refer to

A shape refers to definitions as a reference and by its bases. Whatever is built in a scope refers
to names of the scope only, at every depth.
-/

namespace ApiTypes

namespace Schema

/-- The names that a shape itself refers to: the one that it is a reference to, and its bases. -/
def references (schema : Schema) : List String :=
  if schema.kind = .reference then schema.name :: schema.heritage else schema.heritage

theorem mem_references {schema : Schema} {name : String} :
    name ∈ schema.references ↔
      (schema.kind = .reference ∧ name = schema.name) ∨ name ∈ schema.heritage := by
  unfold references
  split <;> simp_all

/-- Every name that a shape refers to, at any depth, has the property `allowed`. -/
def RefersWithin (allowed : String → Prop) (schema : Schema) : Prop :=
  Everywhere (fun inner => ∀ name ∈ inner.references, allowed name) schema

theorem RefersWithin.imp {allowed other : String → Prop} (h : ∀ name, allowed name → other name)
    {schema : Schema} (hschema : RefersWithin allowed schema) : RefersWithin other schema :=
  Everywhere.imp (fun _ hinner name hmem => h name (hinner name hmem)) hschema

theorem references_opened (schema : Schema) : schema.opened.references = schema.references := by
  unfold opened references
  split <;> simp_all

/-- Merging brings no reference that neither shape had. -/
theorem kept_references (allowed : String → Prop) :
    Kept fun schema => ∀ name ∈ schema.references, allowed name where
  openObject := by simp [references, Schema.openObject]
  reflagged := fun _ _ _ _ h => h
  opened := fun h => by rwa [references_opened]
  extended := by
    intro schema base hobject hreference hschema hbase name hname
    -- An object refers to its bases, and the reference that extends it becomes one.
    have hname : name ∈ schema.heritage ∨ name = base.name := by
      simpa [mem_references, hobject, mem_addBase] using hname
    rcases hname with hold | rfl
    · exact hschema name (mem_references.mpr (.inr hold))
    · exact hbase base.name (mem_references.mpr (.inl ⟨hreference, rfl⟩))
  united := by
    intro a b table additional _ _ ha hb name hname
    simp only [mem_references, mem_foldl_addBase] at hname
    rcases hname with hreference | hmine | htheirs
    · exact ha name (mem_references.mpr (.inl hreference))
    · exact ha name (mem_references.mpr (.inr hmine))
    · exact hb name (mem_references.mpr (.inr htheirs))

/-- A shape that is built refers only to names in scope. -/
theorem inherent_references (scope : Scope) :
    Inherent scope fun schema => ∀ name ∈ schema.references, name ∈ scope.names where
  toKept := kept_references (· ∈ scope.names)
  empty := by simp [references, Schema.empty]
  derived := by
    intro name hname path other hother
    have hsame : other = name := by simpa [references, Schema.derived] using hother
    exact hsame ▸ hname
  plain := by
    intro members kind listed items table literals hkind _ _ name hname
    have hreference : kind ≠ .reference := by
      rintro rfl
      simpa [Kind.isClosed] using kind_of_ofFragment hkind
    simp [references, plainShape, hreference] at hname

end Schema

end ApiTypes
