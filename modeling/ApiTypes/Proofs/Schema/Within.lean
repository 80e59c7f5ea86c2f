import Mathlib.Logic.Relation
import ApiTypes.Proofs.Schema.Fragment
import ApiTypes.Proofs.Schema.Table

/-!
# The fragments inside a fragment

Building a shape goes from a fragment to the fragments directly inside it, and on from there. What a
statement asks of a whole fragment it asks of all fragments inside.
-/

namespace ApiTypes

namespace Fragment

/-- `Child inner outer`: the building of `outer` builds `inner`. What stands beside the branches of a
composition is a fragment of its own. -/
inductive Child : Json → Json → Prop where
  | item {members : Members} {inner : Json} (h : members.lookup "items" = some inner) :
      Child inner (.object members)
  | property {members table : Members} {name : String} {inner : Json}
      (h : members.lookup "properties" = some (.object table)) (hmem : (name, inner) ∈ table) :
      Child inner (.object members)
  | further {members : Members} {inner : Json}
      (h : members.lookup "additionalProperties" = some inner) : Child inner (.object members)
  | branch {members : Members} {branches : List Json} {inner : Json}
      (h : members.lookup "allOf" = some (.array branches)) (hmem : inner ∈ branches) :
      Child inner (.object members)
  | beside {members : Members} (h : Members.has members "allOf" = true) :
      Child (.object (Schema.siblings members)) (.object members)

/-- `Within inner outer`: a fragment is another one or stands inside it, at any depth. -/
def Within : Json → Json → Prop :=
  Relation.ReflTransGen Child

/-- What stands beside a composition is smaller than the whole fragment. -/
theorem sizeOf_siblings_lt {members : Members} (h : Members.has members "allOf" = true) :
    sizeOf (Schema.siblings members) < sizeOf members := by
  induction members with
  | nil => cases h
  | cons member members ih =>
    have hrest := Schema.sizeOf_siblings_le members
    unfold Schema.siblings at hrest ih ⊢
    -- It is enough that one member is left out; of the others none becomes larger.
    by_cases hname : member.1 = "allOf"
    · rw [List.filter_cons_of_neg (by simp [hname])]
      simp
      omega
    · have hlater : Members.has members "allOf" = true := by
        have hne : ("allOf" == member.1) = false := beq_false_of_ne (Ne.symm hname)
        rwa [Members.has, List.lookup_cons, hne] at h
      have := ih hlater
      rw [List.filter_cons_of_pos (by simp [hname])]
      simp
      omega

/-- A fragment inside another is smaller, which the inductions over fragments rest on. -/
theorem Child.sizeOf_lt {inner outer : Json} (h : Child inner outer) :
    sizeOf inner < sizeOf outer := by
  -- What is looked up is smaller than the members, and an entry of it smaller still.
  cases h with
  | item h | further h =>
    have := Schema.sizeOf_lookup_lt h
    simp
    omega
  | property h hmem =>
    have htable := Schema.sizeOf_lookup_lt h
    have hentry := List.sizeOf_lt_of_mem hmem
    simp at htable hentry ⊢
    omega
  | branch h hmem =>
    have hbranches := Schema.sizeOf_lookup_lt h
    have hbranch := List.sizeOf_lt_of_mem hmem
    simp at hbranches ⊢
    omega
  | beside h =>
    have := sizeOf_siblings_lt h
    simp
    omega

def nestingNames : List String :=
  ["items", "properties", "additionalProperties", "allOf"]

theorem Child.exists_name {inner : Json} {members : Members} (h : Child inner (.object members)) :
    ∃ name ∈ nestingNames, Members.has members name = true := by
  cases h with
  | item h => exact ⟨"items", by decide, by rw [Members.has, h]; rfl⟩
  | property h => exact ⟨"properties", by decide, by rw [Members.has, h]; rfl⟩
  | further h => exact ⟨"additionalProperties", by decide, by rw [Members.has, h]; rfl⟩
  | branch h => exact ⟨"allOf", by decide, by rw [Members.has, h]; rfl⟩
  | beside h => exact ⟨"allOf", by decide, h⟩

/-- A fragment without such members has no other fragment inside. -/
theorem not_child {members : Members}
    (h : ∀ name ∈ nestingNames, Members.has members name = false) (inner : Json) :
    ¬Child inner (.object members) := by
  intro hchild
  obtain ⟨name, hname, hhas⟩ := hchild.exists_name
  rw [h name hname] at hhas
  cases hhas

/-- A property of a table is the shape of a fragment directly inside, but for being required. -/
theorem exists_child_of_ofTable {scope : Scope} {members : Members}
    {table : Properties × Option Schema} (h : Schema.ofTable scope members = .ok table)
    {entry : PropertyName × Schema} (hmem : entry ∈ table.1) :
    ∃ inner built required, Child inner (.object members) ∧
      Schema.ofFragment scope inner = .ok built ∧ entry.2 = { built with required } := by
  obtain ⟨names, _, list, hlist, _, _, rfl⟩ := Schema.ofTable_eq_ok.mp h
  obtain ⟨source, hsource, hsame⟩ := Properties.mem_ofList hmem
  have hbuilt := Schema.ofProperties_eq_ok.mp (Schema.tableShapes_eq_ok hlist)
  obtain ⟨⟨name, inner⟩, hinner, built, hschema, rfl⟩ := exists_of_forall₂ hbuilt.flip hsource
  have hchild : Child inner (.object members) := by
    unfold Schema.tableEntries at hinner
    split at hinner
    · exact .property ‹_› hinner
    · cases hinner
  exact ⟨inner, built, _, hchild, hschema, hsame⟩

/-- Induction from the fragments directly inside a fragment to the fragment. -/
theorem induct {motive : Json → Prop}
    (step : ∀ fragment, (∀ inner, Child inner fragment → motive inner) → motive fragment)
    (fragment : Json) : motive fragment :=
  WellFounded.induction (measure (sizeOf : Json → Nat)).wf fragment
    fun fragment ih => step fragment fun inner hchild => ih inner hchild.sizeOf_lt

theorem Within.refl (fragment : Json) : Within fragment fragment :=
  Relation.ReflTransGen.refl

theorem Within.child {inner middle outer : Json} (hchild : Child inner middle)
    (h : Within middle outer) : Within inner outer :=
  Relation.ReflTransGen.head hchild h

/-- What holds of all fragments inside holds of the fragment itself and of all that are inside one
directly inside it. -/
theorem forall_within {P : Json → Prop} {fragment : Json} (here : P fragment)
    (inside : ∀ middle, Child middle fragment → ∀ inner, Within inner middle → P inner) :
    ∀ inner, Within inner fragment → P inner := by
  intro inner hwithin
  -- The last step of the chain is the one into the fragment itself.
  rcases Relation.ReflTransGen.cases_tail hwithin with rfl | ⟨middle, hinner, hchild⟩
  · exact here
  · exact inside middle hchild inner hinner

end Fragment

end ApiTypes
