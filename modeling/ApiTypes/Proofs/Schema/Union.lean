import ApiTypes.Proofs.Schema.Associative

/-!
# A composition, name by name

A composition has the properties and the bases of both sides. A property that only one side has is
taken as it is; one that both have is merged in turn.
-/

namespace ApiTypes

namespace Schema

/-- What becomes of the property of a name, from what the two sides and the whole have there. -/
inductive JoinedAt : Option Schema → Option Schema → Option Schema → Prop where
  | absent : JoinedAt none none none
  | mine (schema : Schema) : JoinedAt (some schema) none (some schema)
  | theirs (schema : Schema) : JoinedAt none (some schema) (some schema)
  | both {mine theirs whole : Schema} (h : joined mine theirs = .ok whole) :
      JoinedAt (some mine) (some theirs) (some whole)

theorem joinedAt_none (mine : Option Schema) : JoinedAt mine none mine := by
  cases mine with
  | none => exact .absent
  | some schema => exact .mine schema

theorem eq_of_joinedAt_none {theirs whole : Option Schema} (h : JoinedAt none theirs whole) :
    whole = theirs := by
  cases h <;> rfl

/-! ## Tables -/

/-- Merging a property in joins it with its namesake. -/
theorem joinedAt_withProperty {table next : Properties} {entry : PropertyName × Schema}
    (h : withProperty table entry = .ok next) {name : PropertyName}
    (hsame : entry.1.same name = true) :
    JoinedAt (Properties.find? name table) (some entry.2) (Properties.find? name next) := by
  rw [← Properties.find?_of_same hsame, ← Properties.find?_of_same hsame]
  have hself : entry.1.same entry.1 = true :=
    PropertyName.same_trans hsame (PropertyName.same_comm entry.1 name ▸ hsame)
  cases hfound : Properties.find? entry.1 table with
  | none =>
    cases (withProperty_none hfound).symm.trans h
    rw [Properties.find?_set, if_pos hself]
    exact .theirs entry.2
  | some mine =>
    obtain ⟨whole, hwhole, rfl⟩ := (withProperty_some hfound).mp h
    rw [Properties.find?_set, if_pos hself]
    exact .both hwhole

/-- Merging a table in joins each property of it with its namesake. -/
theorem joinedAt_foldlM {table result : Properties} {theirs : List (PropertyName × Schema)}
    (hdistinct : Properties.Distinct theirs) (h : theirs.foldlM withProperty table = .ok result)
    (name : PropertyName) :
    JoinedAt (Properties.find? name table) (Properties.find? name theirs)
      (Properties.find? name result) := by
  induction theirs generalizing table with
  | nil =>
    rw [← Except.ok.inj h]
    exact joinedAt_none _
  | cons entry theirs ih =>
    obtain ⟨_, hnew, hrest⟩ := Properties.distinct_cons.mp hdistinct
    rw [List.foldlM_cons, bind_eq_ok] at h
    obtain ⟨next, hnext, h⟩ := h
    rw [Properties.find?_cons]
    by_cases hsame : entry.1.same name = true
    · -- The name is there once, so that the steps after this one leave its property alone.
      have hgone : Properties.find? name theirs = none := by
        rw [← Properties.find?_of_same hsame, hnew]
      rw [if_pos hsame, find?_foldlM_withProperty hgone h]
      exact joinedAt_withProperty hnext hsame
    · rw [if_neg hsame, ← find?_withProperty (Bool.eq_false_iff.mpr hsame) hnext]
      exact ih hrest h

/-! ## Shapes -/

/-- The bases that a shape brings into a composition: its own, or the definition that it is a
reference to. -/
def bases (schema : Schema) : List String :=
  if schema.kind = .reference then [schema.name] else schema.heritage

/-- A shape that unites two others, name by name. -/
structure Unites (mine theirs whole : Schema) : Prop where
  bases : ∀ base, base ∈ whole.heritage ↔ base ∈ mine.bases ∨ base ∈ theirs.bases
  properties : ∀ name, JoinedAt (Properties.find? name mine.properties)
    (Properties.find? name theirs.properties) (Properties.find? name whole.properties)

variable {mine theirs whole : Schema}

theorem bases_of_ne (h : mine.kind ≠ .reference) : mine.bases = mine.heritage :=
  if_neg h

/-- All that is neither a reference nor an object leaves what it is merged into as it is. -/
theorem eq_opened_of_merge (hreference : theirs.kind ≠ .reference) (hobject : theirs.kind ≠ .object)
    (h : mine.merge theirs = .ok whole) : whole = mine.opened := by
  cases hkind : theirs.kind
  case reference => exact absurd hkind hreference
  case object => exact absurd hkind hobject
  case empty => exact (Except.ok.inj ((merge_empty hkind).symm.trans h)).symm
  all_goals exact ((merge_closed (by rw [hkind]; rfl)).mp h).2

/-- Whatever the two kinds, a merge adds the bases of the other side one by one, and merges its
properties in by the fold over its table. -/
theorem parts_of_merge (hmine : Regular mine) (htheirs : Regular theirs)
    (hkind : mine.kind ≠ .reference) (h : mine.merge theirs = .ok whole) :
    whole.heritage = theirs.bases.foldl addBase mine.bases ∧
      theirs.properties.foldlM withProperty mine.properties = .ok whole.properties := by
  rw [bases_of_ne hkind]
  -- Each kind of the merged-in side adds to the bases or to the properties, or to neither.
  by_cases hreference : theirs.kind = .reference
  · obtain ⟨_, _, rfl⟩ := (merge_reference hreference).mp h
    rw [bases, if_pos hreference, (htheirs.bare (by simp [hreference])).1, opened_heritage,
      opened_properties]
    exact ⟨rfl, rfl⟩
  · rw [bases_of_ne hreference]
    by_cases hobject : theirs.kind = .object
    · by_cases hopen : mine.opened.kind = .object
      · obtain ⟨merged, hmerged, _, rfl⟩ := (merge_object hobject).mp h
        rw [hopen, mergeProperties_object, opened_properties] at hmerged
        exact ⟨by rw [opened_heritage], hmerged⟩
      · obtain ⟨hnil, hnone, rfl⟩ := (hmine.merge_object_closed hobject hopen).mp h
        rw [hnil, hnone]
        exact ⟨opened_heritage mine, congrArg Except.ok (opened_properties mine).symm⟩
    · obtain ⟨hnil, hnone⟩ := htheirs.bare hobject
      rw [hnil, hnone, eq_opened_of_merge hreference hobject h, opened_heritage, opened_properties]
      exact ⟨rfl, rfl⟩

/-- A merge unites the bases and the properties of the two shapes. -/
theorem unites_of_merge (hmine : Regular mine) (htheirs : Regular theirs)
    (hkind : mine.kind ≠ .reference) (h : mine.merge theirs = .ok whole) :
    Unites mine theirs whole := by
  obtain ⟨hbases, htable⟩ := parts_of_merge hmine htheirs hkind h
  refine ⟨fun base => ?_, joinedAt_foldlM htheirs.distinct htable⟩
  rw [hbases, mem_foldl_addBase]

/-- A shape and the object that it becomes before another is merged into it have the same bases and
properties. -/
theorem same_of_asTarget (hmine : Regular mine) {target : Schema} (h : asTarget mine = .ok target) :
    target.bases = mine.bases ∧ target.properties = mine.properties := by
  rw [asTarget_eq_ok] at h
  split at h
  · rename_i hkind
    have hbare := hmine.bare (by simp [hkind])
    rw [h.2, bases, bases, if_pos hkind, hbare.1]
    exact ⟨rfl, rfl⟩
  · rw [h]
    exact ⟨rfl, rfl⟩

theorem unites_of_joined (hmine : Regular mine) (htheirs : Regular theirs)
    (h : joined mine theirs = .ok whole) : Unites mine theirs whole := by
  obtain ⟨target, merged, htarget, hmerged, rfl⟩ := joined_eq_ok.mp h
  obtain ⟨hbases, hproperties⟩ := same_of_asTarget hmine htarget
  have hunites := unites_of_merge (hmine.asTarget htarget) htheirs (asTarget_kind_ne htarget) hmerged
  exact ⟨hbases ▸ hunites.bases, hproperties ▸ hunites.properties⟩

end Schema

end ApiTypes
