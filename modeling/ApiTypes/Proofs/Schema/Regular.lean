import ApiTypes.Proofs.Schema.Merge

/-!
# Regular shapes

The invariant of the shapes that are built from a description: at every depth the names of a table
are there once, only objects have properties and bases, and an empty shape has nothing at all.
Composition keeps it.
-/

namespace ApiTypes

namespace Schema

inductive Regular : Schema → Prop where
  | intro {schema : Schema} (distinct : Properties.Distinct schema.properties)
      (bare : schema.kind ≠ .object → schema.properties = [] ∧ schema.heritage = [])
      (void : schema.kind = .empty → schema.additional = none)
      (items : ∀ item ∈ schema.items, Regular item)
      (properties : ∀ entry ∈ schema.properties, Regular entry.2)
      (additional : ∀ rest ∈ schema.additional, Regular rest) : Regular schema

structure RegularTable (table : Properties) : Prop where
  distinct : Properties.Distinct table
  shapes : ∀ entry ∈ table, Regular entry.2

namespace Regular

variable {a b result : Schema}

theorem distinct : Regular a → Properties.Distinct a.properties
  | intro distinct .. => distinct

theorem bare : Regular a → a.kind ≠ .object → a.properties = [] ∧ a.heritage = []
  | intro _ bare .. => bare

theorem void : Regular a → a.kind = .empty → a.additional = none
  | intro _ _ void .. => void

theorem items : Regular a → ∀ item ∈ a.items, Regular item
  | intro _ _ _ items .. => items

theorem properties : Regular a → ∀ entry ∈ a.properties, Regular entry.2
  | intro _ _ _ _ properties _ => properties

theorem additional : Regular a → ∀ rest ∈ a.additional, Regular rest
  | intro _ _ _ _ _ additional => additional

theorem table (h : Regular a) : RegularTable a.properties :=
  ⟨h.distinct, h.properties⟩

theorem entries (h : Regular a) :
    ∀ entry ∈ a.properties, entry.1.same entry.1 = true ∧ Regular entry.2 :=
  fun entry hmem => ⟨h.distinct.usable entry hmem, h.properties entry hmem⟩

/-- A shape without any other shape in it, and without bases. -/
theorem leaf (hitems : a.items = none) (hproperties : a.properties = [])
    (hadditional : a.additional = none) (hheritage : a.heritage = []) : Regular a :=
  intro (hproperties ▸ Properties.distinct_nil) (fun _ => ⟨hproperties, hheritage⟩)
    (fun _ => hadditional) (by simp [hitems]) (by simp [hproperties]) (by simp [hadditional])

/-- The flags, the description and the literals of a shape do not matter. -/
theorem reflagged (h : Regular a) {b : Schema} (hkind : b.kind = a.kind)
    (hitems : b.items = a.items) (hproperties : b.properties = a.properties)
    (hadditional : b.additional = a.additional) (hheritage : b.heritage = a.heritage) :
    Regular b := by
  apply intro
  · rw [hproperties]
    exact h.distinct
  · rw [hkind, hproperties, hheritage]
    exact h.bare
  · rw [hkind, hadditional]
    exact h.void
  · rw [hitems]
    exact h.items
  · rw [hproperties]
    exact h.properties
  · rw [hadditional]
    exact h.additional

theorem settle (h : Regular a) (theirs : Schema) : Regular (settle theirs a) :=
  h.reflagged rfl rfl rfl rfl rfl

theorem opened (h : Regular a) : Regular a.opened := by
  unfold Schema.opened
  split
  · exact intro h.distinct (by simp) (by simp) h.items h.properties h.additional
  · exact h

theorem asTarget (h : Regular a) (hresult : asTarget a = .ok result) : Regular result := by
  unfold Schema.asTarget at hresult
  split at hresult
  · simp only [extend] at hresult
    split at hresult
    · cases hresult
    · split at hresult <;> cases hresult
      exact intro Properties.distinct_nil (by simp) (by simp) (by simp) (by simp) (by simp)
  · cases hresult
    exact h

end Regular

namespace RegularTable

variable {table : Properties} {entry : PropertyName × Schema}

theorem find? (h : RegularTable table) {name : PropertyName} {property : Schema}
    (hfound : Properties.find? name table = some property) : Regular property := by
  rcases Properties.mem_of_find? hfound with ⟨entry, hmem, rfl⟩
  exact h.shapes entry hmem

theorem set (h : RegularTable table) {name : PropertyName} (hname : name.same name = true)
    {schema : Schema} (hschema : Regular schema) :
    RegularTable (Properties.set name schema table) := by
  refine ⟨h.distinct.set hname schema, fun entry hmem => ?_⟩
  rcases Properties.mem_set hmem with hold | hnew
  · exact h.shapes entry hold
  · rw [hnew]
    exact hschema

/-- What a step keeps, if merging the one property into regular shapes gives regular ones. -/
theorem withProperty_of_merge (h : RegularTable table)
    (hmerge : ∀ mine result, Regular mine → mine.merge entry.2 = .ok result → Regular result)
    (hname : entry.1.same entry.1 = true) (hentry : Regular entry.2) {merged : Properties}
    (hmerged : withProperty table entry = .ok merged) : RegularTable merged := by
  cases hfound : Properties.find? entry.1 table with
  | none =>
    cases (withProperty_none hfound).symm.trans hmerged
    exact h.set hname hentry
  | some property =>
    rcases (withProperty_some hfound).mp hmerged with ⟨whole, hwhole, rfl⟩
    rcases joined_eq_ok.mp hwhole with ⟨target, result, htarget, hresult, rfl⟩
    exact h.set hname ((hmerge target result ((h.find? hfound).asTarget htarget) hresult).settle _)

end RegularTable

namespace Regular

variable {a b result : Schema}

/-- All that an object gives to a shape that is no object is its shape of further properties. -/
theorem merge_object_closed (ha : Regular a) (hb : b.kind = .object)
    (hclosed : a.opened.kind ≠ .object) :
    a.merge b = .ok result ↔ b.properties = [] ∧ b.heritage = [] ∧
      result = { a.opened with additional := a.opened.additional.or b.additional } := by
  have hbare := ha.opened.bare hclosed
  have hmerged : ∀ merged, mergeProperties a.opened.kind a.opened.properties b.properties =
      .ok merged ↔ b.properties = [] ∧ merged = [] := by
    intro merged
    rw [hbare.1, mergeProperties_nil hclosed]
  rw [merge_object hb]
  simp only [hmerged]
  -- A record with its own fields set again is itself only once its fields are known.
  generalize a.opened = target at hclosed hbare
  cases target
  simp only at hclosed hbare
  rcases hbare with ⟨rfl, rfl⟩
  constructor
  · intro h
    rcases h with ⟨_, ⟨hproperties, rfl⟩, hheritage, rfl⟩
    have hnone := hheritage.resolve_right hclosed
    exact ⟨hproperties, hnone, by rw [hnone, List.foldl_nil]⟩
  · intro h
    rcases h with ⟨hproperties, hheritage, rfl⟩
    exact ⟨[], ⟨hproperties, rfl⟩, .inl hheritage, by rw [hheritage, List.foldl_nil]⟩

/-- A merge of regular shapes is regular: by induction over the shape that is merged in. -/
theorem merge (ha : Regular a) (hb : Regular b) (h : a.merge b = .ok result) :
    Regular result := by
  induction b using induct generalizing a result with
  | step b ihItems ihProperties ihAdditional =>
    have hopened := ha.opened
    cases hkind : b.kind
    case reference =>
      rcases (merge_reference hkind).mp h with ⟨hobject, _, rfl⟩
      exact intro hopened.distinct (absurd hobject) hopened.void hopened.items hopened.properties
        hopened.additional
    case empty =>
      cases (merge_empty hkind).symm.trans h
      exact hopened
    case object =>
      -- A shape that is no object takes the shape of further properties too.
      have hadditional : ∀ rest ∈ a.opened.additional.or b.additional, Regular rest := by
        cases hmine : a.opened.additional with
        | none => exact hb.additional
        | some rest => simpa [hmine] using hopened.additional
      by_cases hobject : a.opened.kind = .object
      · rcases (merge_object hkind).mp h with ⟨merged, hmerged, _, rfl⟩
        rw [hobject, mergeProperties_object] at hmerged
        have htable := foldlM_invariant (fun entry hmem _ _ htable hstep =>
            RegularTable.withProperty_of_merge htable
              (fun _ _ hmine => ihProperties entry hmem hmine (hb.properties entry hmem))
              (hb.distinct.usable entry hmem) (hb.properties entry hmem) hstep)
          hopened.table hmerged
        exact intro htable.distinct (absurd hobject)
          (fun hempty => absurd hempty (opened_kind_ne a)) hopened.items htable.shapes hadditional
      · rcases (ha.merge_object_closed hkind hobject).mp h with ⟨_, _, rfl⟩
        exact intro hopened.distinct hopened.bare (fun hempty => absurd hempty (opened_kind_ne a))
          hopened.items hopened.properties hadditional
    all_goals
      rcases (merge_closed (by rw [hkind]; rfl)).mp h with ⟨_, rfl⟩
      exact hopened

theorem foldlM_merge {a result : Schema} {parts : List Schema} (ha : Regular a)
    (hparts : ∀ part ∈ parts, Regular part) (h : parts.foldlM Schema.merge a = .ok result) :
    Regular result :=
  foldlM_invariant (fun part hmem _ _ hself => hself.merge (hparts part hmem)) ha h

theorem joined (ha : Regular a) (hb : Regular b) (h : joined a b = .ok result) :
    Regular result := by
  rcases joined_eq_ok.mp h with ⟨target, merged, htarget, hmerged, rfl⟩
  exact ((ha.asTarget htarget).merge hb hmerged).settle b

end Regular

namespace RegularTable

variable {mine merged : Properties} {entry : PropertyName × Schema}

theorem withProperty (h : RegularTable mine) (hname : entry.1.same entry.1 = true)
    (hentry : Regular entry.2) (hmerged : Schema.withProperty mine entry = .ok merged) :
    RegularTable merged :=
  h.withProperty_of_merge (fun _ _ hself => hself.merge hentry) hname hentry hmerged

theorem foldlM_withProperty {theirs : List (PropertyName × Schema)} (hmine : RegularTable mine)
    (htheirs : ∀ entry ∈ theirs, entry.1.same entry.1 = true ∧ Regular entry.2)
    (h : theirs.foldlM Schema.withProperty mine = .ok merged) : RegularTable merged :=
  foldlM_invariant (fun entry hmem _ _ htable hstep =>
    htable.withProperty (htheirs entry hmem).1 (htheirs entry hmem).2 hstep) hmine h

end RegularTable

end Schema

end ApiTypes
