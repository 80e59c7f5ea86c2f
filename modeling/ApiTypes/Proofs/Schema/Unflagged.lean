import ApiTypes.Proofs.Schema.Order
import ApiTypes.Proofs.Schema.Paths
import ApiTypes.Proofs.Schema.Within

/-!
# References without flags

A reference stands in a built shape as it was resolved: what a schema says beside its composition
never goes to a reference, since a composition gives none. So no reference among the properties is
nullable or deprecated.
-/

namespace ApiTypes

namespace Schema

open Fragment

variable {scope : Scope} {members : Members} {mine theirs result schema : Schema}

/-- The references among the properties of a shape are neither nullable nor deprecated. -/
def Unflagged (schema : Schema) : Prop :=
  ∀ path inner, schema.at? path = some inner → inner.kind = .reference →
    inner.nullable = false ∧ inner.deprecated = false

theorem Unflagged.inside (h : Unflagged mine) {name : PropertyName} {inner : Schema}
    (hinner : Properties.find? name mine.properties = some inner) : Unflagged inner := by
  intro path deeper hdeeper
  apply h (name :: path)
  rw [at?_cons, hinner]
  exact hdeeper

theorem unflagged_of_properties
    (here : schema.kind = .reference → schema.nullable = false ∧ schema.deprecated = false)
    (h : ∀ entry ∈ schema.properties, Unflagged entry.2) : Unflagged schema := by
  intro path inner hinner
  cases path with
  | nil =>
    cases hinner
    exact here
  | cons name path =>
    obtain ⟨property, hproperty, hinner⟩ := Option.bind_eq_some_iff.mp hinner
    obtain ⟨entry, hmem, rfl⟩ := Properties.mem_of_find? hproperty
    exact h entry hmem path inner hinner

/-- A shape with the same properties that is no reference, or one without flags. -/
theorem Unflagged.remade (h : Unflagged mine) (hproperties : result.properties = mine.properties)
    (here : result.kind = .reference → result.nullable = false ∧ result.deprecated = false) :
    Unflagged result := by
  intro path inner hinner
  cases path with
  | nil =>
    cases hinner
    exact here
  | cons name path =>
    rw [at?_cons, hproperties] at hinner
    exact h (name :: path) inner hinner

/-! ## Composition -/

theorem joined_kind_ne (h : joined mine theirs = .ok result) : result.kind ≠ .reference := by
  obtain ⟨target, merged, htarget, hmerged, rfl⟩ := joined_eq_ok.mp h
  show merged.kind ≠ .reference
  exact merge_kind_ne (asTarget_kind_ne htarget) hmerged

/-- A merge of unflagged shapes is unflagged. -/
theorem Unflagged.merge (h : Unflagged mine) (hother : Unflagged theirs) (hmine : Regular mine)
    (htheirs : Regular theirs) (hkind : mine.kind ≠ .reference)
    (hmerge : mine.merge theirs = .ok result) : Unflagged result := by
  intro path inner hinner hreference
  by_cases hroot : path = []
  · subst hroot
    cases hinner
    exact absurd hreference (merge_kind_ne hkind hmerge)
  · have hjoined := joinedAt_at? hmine htheirs (unites_of_merge hmine htheirs hkind hmerge) hroot
    rw [hinner] at hjoined
    generalize hleft : mine.at? path = left at hjoined
    generalize hright : theirs.at? path = right at hjoined
    cases hjoined with
    | mine => exact h path inner hleft hreference
    | theirs => exact hother path inner hright hreference
    | both hwhole =>
      -- What two properties become is never a reference.
      exact absurd hreference (joined_kind_ne hwhole)

/-- What is known of a composition while its branches are merged one by one. -/
structure Composing (schema : Schema) : Prop where
  regular : Regular schema
  kind : schema.kind ≠ .reference
  unflagged : Unflagged schema

theorem composing_empty : Composing empty :=
  ⟨regular_empty, by decide, unflagged_of_properties (by simp [empty]) (by simp [empty])⟩

theorem Composing.merge (h : Composing mine) (htheirs : Regular theirs) (hother : Unflagged theirs)
    (hmerge : mine.merge theirs = .ok result) : Composing result :=
  ⟨h.regular.merge htheirs hmerge, merge_kind_ne h.kind hmerge,
    h.unflagged.merge hother h.regular htheirs h.kind hmerge⟩

/-! ## What is built -/

section Parts

variable (ih : ∀ inner, Child inner (.object members) → ∀ {built},
  ofFragment scope inner = .ok built → Unflagged built)
include ih

/-- The shape of a fragment without a composition carries no flag on a reference. -/
theorem unflagged_ofPlain (h : ofPlain scope members = .ok schema) : Unflagged schema := by
  obtain ⟨kind, listed, hkind, items, _, table, htable, literals, _, rfl⟩ := ofPlain_eq_ok.mp h
  refine unflagged_of_properties (fun hreference => ?_) fun entry hmem => ?_
  · -- Only a resolved reference has the kind of one.
    have hknown := kind_of_ofFragment hkind
    cases hreference
    simp [Kind.isClosed] at hknown
  · split at htable
    · obtain ⟨inner, built, required, hchild, hbuilt, hsame⟩ := exists_child_of_ofTable htable hmem
      have hunflagged := ih inner hchild hbuilt
      rw [hsame]
      exact hunflagged.remade rfl (hunflagged [] built rfl)
    · cases htable
      cases hmem

/-- A composition is an object, and its properties carry no such flag. -/
theorem composing_ofComposition (href : (Json.object members).reference? = none)
    (hall : Members.has members "allOf" = true) (h : ofComposition scope members = .ok schema) :
    Composing schema := by
  obtain ⟨whole, hwhole, hown⟩ := ofComposition_eq_ok.mp h
  -- The branches are merged into an object, and then what stands beside them.
  have hbranches : Composing whole := by
    unfold branchesShape at hwhole
    split at hwhole
    · obtain ⟨parts, hparts, hfold⟩ := ofBranches_eq_ok.mp hwhole
      have hstep : ∀ part ∈ parts, ∀ self next : Schema, Composing self →
          self.merge part = .ok next → Composing next := by
        intro part hpart self next hself hnext
        obtain ⟨branch, hbranch, hbuilt⟩ := exists_of_forall₂ hparts.flip hpart
        exact hself.merge (built_ofFragment hbuilt).regular (ih branch (.branch ‹_› hbranch) hbuilt)
          hnext
      exact foldlM_invariant hstep composing_empty hfold
    · rw [ofNoBranches_eq_ok hwhole]
      exact composing_empty
  split at hown
  · obtain ⟨own, hplain, hmerge⟩ := hown
    have hbeside := (ofFragment_siblings href).trans hplain
    exact hbranches.merge (built_ofFragment hbeside).regular (ih _ (.beside hall) hbeside) hmerge
  · exact hown ▸ hbranches

end Parts

/-- No shape of a fragment carries a flag on a reference. -/
theorem unflagged_ofFragment {fragment : Json} (h : ofFragment scope fragment = .ok schema) :
    Unflagged schema := by
  induction fragment using Fragment.induct generalizing schema with
  | step fragment ih =>
    -- What is not built from other fragments has neither flags nor properties.
    have hleaf : ∀ {leaf : Schema}, leaf.properties = [] → leaf.nullable = false →
        leaf.deprecated = false → Unflagged leaf := by
      intro leaf hproperties hnullable hdeprecated
      exact unflagged_of_properties (fun _ => ⟨hnullable, hdeprecated⟩) (by simp [hproperties])
    rcases ofFragment_cases h with ⟨_, rfl⟩ | ⟨members, rfl, ⟨target, _, h⟩ | ⟨href, h⟩⟩
    · exact hleaf rfl rfl rfl
    · rcases resolve_eq_ok h with rfl | ⟨_, _, _, rfl⟩ <;> exact hleaf rfl rfl rfl
    · have hinner : ∀ inner, Child inner (.object members) → ∀ {built},
          ofFragment scope inner = .ok built → Unflagged built :=
        fun inner hchild _ hbuilt => ih inner hchild hbuilt
      split at h
      · obtain ⟨whole, hwhole, rfl⟩ := h
        have hcomposing := composing_ofComposition hinner href ‹_› hwhole
        exact hcomposing.unflagged.remade rfl fun hreference => absurd hreference hcomposing.kind
      · exact unflagged_ofPlain hinner h

end Schema

end ApiTypes
