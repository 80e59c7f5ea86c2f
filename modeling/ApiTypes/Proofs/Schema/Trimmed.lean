import ApiTypes.Proofs.Schema.Regular

/-!
# What of a shape has a meaning

The kind of a shape says which of its fields are looked at. `trimmed` clears all others at every
depth, so that two shapes agree on what has a meaning if they are the same once they are trimmed.
Merging keeps shapes in agreement.
-/

namespace ApiTypes

namespace Schema

mutual

/-- The shape with those fields cleared that its kind gives no meaning. -/
def trimmed : Schema → Schema
  | ⟨kind, name, description, required, deprecated, nullable, enumValues, items, properties,
      additional, heritage, indexPath⟩ =>
    { kind, description, required, deprecated, nullable
      name := if kind = .reference then name else ""
      indexPath := if kind = .reference then indexPath else []
      enumValues := if kind.isPrimitive then enumValues else []
      items := if kind = .array then trimmedOption items else none
      properties := if kind = .object then trimmedTable properties else []
      additional := if kind = .object then trimmedOption additional else none
      heritage := if kind = .object then heritage else [] }

def trimmedOption : Option Schema → Option Schema
  | none => none
  | some schema => some (trimmed schema)

def trimmedTable : List (PropertyName × Schema) → List (PropertyName × Schema)
  | [] => []
  | (name, schema) :: table => (name, trimmed schema) :: trimmedTable table

end

theorem trimmedOption_eq (inner : Option Schema) : trimmedOption inner = inner.map trimmed := by
  cases inner <;> rfl

/-- The fields that the kind of a shape gives a meaning, compared after the shapes in them are
trimmed. -/
structure Agree (a b : Schema) : Prop where
  kind : a.kind = b.kind
  description : a.description = b.description
  required : a.required = b.required
  deprecated : a.deprecated = b.deprecated
  nullable : a.nullable = b.nullable
  target : a.kind = .reference → a.name = b.name ∧ a.indexPath = b.indexPath
  enumValues : a.kind.isPrimitive → a.enumValues = b.enumValues
  items : a.kind = .array → a.items.map trimmed = b.items.map trimmed
  properties : a.kind = .object → trimmedTable a.properties = trimmedTable b.properties
  additional : a.kind = .object → a.additional.map trimmed = b.additional.map trimmed
  heritage : a.kind = .object → a.heritage = b.heritage

/-- Two shapes agree in all that means something exactly if they are equal once trimmed. -/
theorem trimmed_eq_iff {a b : Schema} : a.trimmed = b.trimmed ↔ Agree a b := by
  rcases a with ⟨kind⟩
  rcases b with ⟨kind'⟩
  constructor
  · intro h
    simp only [trimmed, trimmedOption_eq, mk.injEq] at h
    rcases h with
      ⟨rfl, hname, hdescription, hrequired, hdeprecated, hnullable, hvalues, hitems, hproperties,
        hadditional, hheritage, hpath⟩
    constructor <;> first | assumption | rfl | (intro hkind; simp_all)
  · intro h
    rcases h with
      ⟨hkind, hdescription, hrequired, hdeprecated, hnullable, htarget, hvalues, hitems,
        hproperties, hadditional, hheritage⟩
    cases hkind
    simp only [trimmed, trimmedOption_eq, mk.injEq]
    grind

/-- An empty shape that becomes an object brings no content along that had no meaning before. -/
theorem Regular.agree_opened {a b : Schema} (ha : Regular a) (hb : Regular b) (h : Agree a b) :
    Agree a.opened b.opened := by
  unfold Schema.opened
  -- Opening changes void shapes only, and these have no parts.
  by_cases hempty : a.kind = .empty
  · have hemptyB : b.kind = .empty := h.kind ▸ hempty
    have hbareA := ha.bare (by simp [hempty])
    have hbareB := hb.bare (by simp [hemptyB])
    have hvoidA := ha.void hempty
    have hvoidB := hb.void hemptyB
    rw [if_pos hempty, if_pos hemptyB]
    exact { h with
      kind := rfl
      target := by simp
      enumValues := by simp [Kind.isPrimitive]
      items := by simp
      properties := fun _ => by simp [hbareA, hbareB]
      additional := fun _ => by simp [hvoidA, hvoidB]
      heritage := fun _ => by simp [hbareA, hbareB] }
  · rw [if_neg hempty, if_neg (h.kind ▸ hempty)]
    exact h

/-! ## Tables -/

theorem find?_trimmed (name : PropertyName) (table : Properties) :
    Properties.find? name (trimmedTable table) = (Properties.find? name table).map trimmed := by
  induction table with
  | nil => rfl
  | cons entry table ih =>
    rw [trimmedTable, Properties.find?_cons, Properties.find?_cons, ih]
    split <;> rfl

theorem trimmed_set (name : PropertyName) (schema : Schema) (table : Properties) :
    trimmedTable (Properties.set name schema table) =
      Properties.set name schema.trimmed (trimmedTable table) := by
  induction table with
  | nil => rfl
  | cons entry table ih =>
    rw [Properties.set_cons, trimmedTable, Properties.set_cons]
    split
    · rfl
    · rw [trimmedTable, ih]

/-- Two regular tables that agree, property for property. -/
structure AgreeTables (mine other : Properties) : Prop where
  left : RegularTable mine
  right : RegularTable other
  same : trimmedTable mine = trimmedTable other

theorem AgreeTables.find? {mine other : Properties} (h : AgreeTables mine other)
    (name : PropertyName) :
    (Properties.find? name mine = none ∧ Properties.find? name other = none) ∨
      ∃ a b, Properties.find? name mine = some a ∧ Properties.find? name other = some b ∧
        Agree a b := by
  have hfound := find?_trimmed name mine
  rw [h.same, find?_trimmed] at hfound
  cases hmine : Properties.find? name mine with
  | none =>
    rw [hmine] at hfound
    exact .inl ⟨rfl, Option.map_eq_none_iff.mp hfound⟩
  | some a =>
    rw [hmine] at hfound
    rcases Option.map_eq_some_iff.mp hfound with ⟨b, hb, hab⟩
    exact .inr ⟨a, b, rfl, hb, trimmed_eq_iff.mp hab.symm⟩

theorem AgreeTables.set {mine other : Properties} (h : AgreeTables mine other)
    {name : PropertyName} (hname : name.same name = true) {a b : Schema} (ha : Regular a)
    (hb : Regular b) (hab : Agree a b) :
    AgreeTables (Properties.set name a mine) (Properties.set name b other) :=
  ⟨h.left.set hname ha, h.right.set hname hb, by
    rw [trimmed_set, trimmed_set, h.same, trimmed_eq_iff.mpr hab]⟩

theorem AgreeTables.refl {table : Properties} (h : RegularTable table) : AgreeTables table table :=
  ⟨h, h, rfl⟩

theorem AgreeTables.trans {a b c : Properties} (hab : AgreeTables a b) (hbc : AgreeTables b c) :
    AgreeTables a c :=
  ⟨hab.left, hbc.right, hab.same.trans hbc.same⟩

/-! ## Merging into shapes that agree -/

theorem Agree.refl (schema : Schema) : Agree schema schema :=
  trimmed_eq_iff.mp rfl

theorem Agree.trans {a b c : Schema} (hab : Agree a b) (hbc : Agree b c) : Agree a c :=
  trimmed_eq_iff.mp ((trimmed_eq_iff.mpr hab).trans (trimmed_eq_iff.mpr hbc))

theorem Agree.settle {a b : Schema} (h : Agree a b) (theirs : Schema) :
    Agree (settle theirs a) (settle theirs b) :=
  { h with
    description := by simp only [Schema.settle, h.description]
    required := by simp only [Schema.settle, h.required] }

theorem Agree.asTarget {a b target : Schema} (h : Agree a b) (htarget : asTarget a = .ok target) :
    ∃ other, asTarget b = .ok other ∧ Agree target other := by
  unfold Schema.asTarget at htarget ⊢
  split at htarget
  · rename_i hkind
    rcases h.target hkind with ⟨hname, hpath⟩
    rw [if_pos (h.kind ▸ hkind), ← h.description, ← h.required]
    refine ⟨target, ?_, .refl _⟩
    rw [← htarget]
    simp only [extend, hname, hpath]
  · rename_i hkind
    cases htarget
    exact ⟨b, if_neg (h.kind ▸ hkind), h⟩

/-- A property is merged into tables that agree, if merging its shape keeps agreement. -/
theorem AgreeTables.withProperty {mine other next : Properties} {entry : PropertyName × Schema}
    (h : AgreeTables mine other) (hname : entry.1.same entry.1 = true) (hentry : Regular entry.2)
    (hmerge : ∀ {a b result : Schema}, Regular a → Regular b → Agree a b →
      a.merge entry.2 = .ok result → ∃ other, b.merge entry.2 = .ok other ∧ Agree result other)
    (hstep : Schema.withProperty mine entry = .ok next) :
    ∃ result, Schema.withProperty other entry = .ok result ∧ AgreeTables next result := by
  -- Both tables have the name or neither has.
  rcases h.find? entry.1 with ⟨hmine, hother⟩ | ⟨a, b, hmine, hother, hab⟩
  · cases (withProperty_none hmine).symm.trans hstep
    exact ⟨_, withProperty_none hother, h.set hname hentry hentry (.refl _)⟩
  · rcases (withProperty_some hmine).mp hstep with ⟨whole, hwhole, rfl⟩
    rcases joined_eq_ok.mp hwhole with ⟨target, merged, htarget, hmerged, rfl⟩
    rcases hab.asTarget htarget with ⟨target', htarget', hagree⟩
    have hleft := (h.left.find? hmine).asTarget htarget
    have hright := (h.right.find? hother).asTarget htarget'
    rcases hmerge hleft hright hagree hmerged with ⟨merged', hmerged', hresult⟩
    refine ⟨_, (withProperty_some hother).mpr
      ⟨_, joined_eq_ok.mpr ⟨target', merged', htarget', hmerged', rfl⟩, rfl⟩, ?_⟩
    exact h.set hname ((hleft.merge hentry hmerged).settle _)
      ((hright.merge hentry hmerged').settle _) (hresult.settle _)

/-- Merging one table into two that agree gives two that agree. -/
theorem AgreeTables.foldlM_withProperty {mine other result : Properties}
    {theirs : List (PropertyName × Schema)} (h : AgreeTables mine other)
    (htheirs : ∀ entry ∈ theirs, entry.1.same entry.1 = true ∧ Regular entry.2)
    (hmerge : ∀ entry ∈ theirs, ∀ {a b result : Schema}, Regular a → Regular b → Agree a b →
      a.merge entry.2 = .ok result → ∃ other, b.merge entry.2 = .ok other ∧ Agree result other)
    (hresult : theirs.foldlM Schema.withProperty mine = .ok result) :
    ∃ last, theirs.foldlM Schema.withProperty other = .ok last ∧ AgreeTables result last :=
  foldlM_simulation (fun entry hmem _ _ _ htables hstep => htables.withProperty
    (htheirs entry hmem).1 (htheirs entry hmem).2 (hmerge entry hmem) hstep) h hresult

/-- Merging one shape into two that agree succeeds for both and gives two that agree. -/
theorem agree_merge {a b c result : Schema} (ha : Regular a) (hb : Regular b) (hc : Regular c)
    (hab : Agree a b) (h : a.merge c = .ok result) :
    ∃ other, b.merge c = .ok other ∧ Agree result other := by
  -- The induction is on the shape that is merged in: a property of it is merged into properties
  -- that agree, and those are regular again.
  induction c using induct generalizing a b result with
  | step c ihItems ihProperties ihAdditional =>
    have hopened := ha.agree_opened hb hab
    have hkinds := hopened.kind
    cases hkind : c.kind
    case reference =>
      rcases (merge_reference hkind).mp h with ⟨hobject, hpath, rfl⟩
      refine ⟨_, (merge_reference hkind).mpr ⟨hkinds ▸ hobject, hpath, rfl⟩, ?_⟩
      exact { hopened with heritage := fun hkind => by simp only [hopened.heritage hkind] }
    case empty =>
      cases (merge_empty hkind).symm.trans h
      exact ⟨_, merge_empty hkind, hopened⟩
    case object =>
      by_cases hobject : a.opened.kind = .object
      · rcases (merge_object hkind).mp h with ⟨merged, hmerged, hheritage, rfl⟩
        rw [hobject, mergeProperties_object] at hmerged
        have hstart : AgreeTables a.opened.properties b.opened.properties :=
          ⟨ha.opened.table, hb.opened.table, hopened.properties hobject⟩
        rcases hstart.foldlM_withProperty hc.entries
            (fun entry hmem _ _ _ hleft hright =>
            ihProperties entry hmem hleft hright (hc.properties entry hmem)) hmerged with
          ⟨merged', hmerged', hagree⟩
        refine ⟨_, (merge_object hkind).mpr ⟨merged', ?_, .inr (hkinds ▸ hobject), rfl⟩, ?_⟩
        · rw [← hkinds, hobject, mergeProperties_object, hmerged']
        · exact { hopened with
            properties := fun _ => hagree.same
            additional := fun hkind => by
              simp only [Option.map_or, hopened.additional hkind]
            heritage := fun hkind => by simp only [hopened.heritage hkind] }
      · rcases (ha.merge_object_closed hkind hobject).mp h with ⟨hproperties, hheritage, rfl⟩
        refine ⟨_, (hb.merge_object_closed hkind (hkinds ▸ hobject)).mpr
          ⟨hproperties, hheritage, rfl⟩, ?_⟩
        exact { hopened with additional := fun hkind => absurd hkind hobject }
    all_goals
      rcases (merge_closed (by rw [hkind]; rfl)).mp h with ⟨hsame, rfl⟩
      exact ⟨_, (merge_closed (by rw [hkind]; rfl)).mpr ⟨hkinds ▸ hsame, rfl⟩, hopened⟩

/-- Shapes that agree stay in agreement while the same shapes are merged into them in turn. -/
theorem agree_foldlM_merge {a b result : Schema} {parts : List Schema} (ha : Regular a)
    (hb : Regular b) (hparts : ∀ part ∈ parts, Regular part) (hab : Agree a b)
    (h : parts.foldlM merge a = .ok result) :
    ∃ other, parts.foldlM merge b = .ok other ∧ Agree result other := by
  have hstep : ∀ part ∈ parts, ∀ x y next, Regular x ∧ Regular y ∧ Agree x y →
      x.merge part = .ok next →
      ∃ other, y.merge part = .ok other ∧ Regular next ∧ Regular other ∧ Agree next other := by
    intro part hmem x y next hboth hnext
    rcases hboth with ⟨hx, hy, hxy⟩
    rcases agree_merge hx hy (hparts part hmem) hxy hnext with ⟨other, hother, hagree⟩
    exact ⟨other, hother, hx.merge (hparts part hmem) hnext, hy.merge (hparts part hmem) hother,
      hagree⟩
  rcases foldlM_simulation hstep ⟨ha, hb, hab⟩ h with ⟨other, hother, _, _, hagree⟩
  exact ⟨other, hother, hagree⟩

end Schema

end ApiTypes
