import ApiTypes.Proofs.Schema.Built

/-!
# What holds at every depth

A property of single shapes that composition keeps holds at every depth of what is built, if it
holds of what the building starts from.
-/

namespace ApiTypes

namespace Schema

/-- `P` holds of a shape and of all shapes inside it. -/
inductive Everywhere (P : Schema → Prop) : Schema → Prop where
  | intro {schema : Schema} (here : P schema) (items : ∀ item ∈ schema.items, Everywhere P item)
      (properties : ∀ entry ∈ schema.properties, Everywhere P entry.2)
      (additional : ∀ rest ∈ schema.additional, Everywhere P rest) : Everywhere P schema

/-- A property of single shapes that composition keeps. The flags and the description play no part
in it, and what a shape gains by a merge it has from what is merged in. -/
structure Kept (P : Schema → Prop) : Prop where
  openObject : P openObject
  reflagged : ∀ {schema : Schema} (description : Json) (required deprecated nullable : Bool),
    P schema → P { schema with description, required, deprecated, nullable }
  opened : ∀ {schema : Schema}, P schema → P schema.opened
  extended : ∀ {schema base : Schema}, schema.kind = .object → base.kind = .reference →
    P schema → P base → P { schema with heritage := addBase schema.heritage base.name }
  united : ∀ {a b : Schema} {table : Properties} {additional : Option Schema}, b.kind = .object →
    (∀ entry ∈ table, ∃ old ∈ a.properties ++ b.properties, old.1 = entry.1) → P a → P b →
    P { a with
      properties := table
      additional
      heritage := b.heritage.foldl addBase a.heritage }

/-- What a merge has to keep of a property of single shapes, if whatever is merged into has `Target`.
The steps of the merge are at hand. -/
structure Mergeable (Target P : Schema → Prop) : Prop where
  reflagged : ∀ {schema : Schema} (description : Json) (required deprecated nullable : Bool),
    P schema → P { schema with description, required, deprecated, nullable }
  opened : ∀ {schema : Schema}, P schema → P schema.opened
  target : ∀ {schema target : Schema}, asTarget schema = .ok target → Target target
  based : ∀ {schema : Schema}, schema.kind = .reference → P schema →
    P { description := schema.description, required := schema.required, heritage := [schema.name] }
  extended : ∀ {schema base : Schema}, schema.kind = .object → base.kind = .reference →
    P schema → P base → P { schema with heritage := addBase schema.heritage base.name }
  united : ∀ {a b : Schema} {merged : Properties}, Target a → b.kind = .object →
    mergeProperties a.opened.kind a.opened.properties b.properties = .ok merged →
    (∀ entry ∈ merged, ∃ old ∈ a.opened.properties ++ b.properties, old.1 = entry.1) →
    (b.heritage = [] ∨ a.opened.kind = .object) → P a.opened → P b →
    P { a.opened with
      properties := merged
      additional := a.opened.additional.or b.additional
      heritage := b.heritage.foldl addBase a.opened.heritage }

/-- A property that every change of a shape keeps is kept by a merge. -/
theorem Kept.mergeable {P : Schema → Prop} (hP : Kept P) : Mergeable (fun _ => True) P where
  reflagged := hP.reflagged
  opened := hP.opened
  target := fun _ => trivial
  based := fun {schema} hkind h =>
    have hopen : P { description := schema.description, required := schema.required } :=
      hP.reflagged _ _ _ _ hP.openObject
    hP.extended rfl hkind hopen h
  extended := hP.extended
  united := fun _ hkind _ hnames _ ha hb => hP.united hkind hnames ha hb

namespace Everywhere

variable {Target P Q : Schema → Prop} {a b result : Schema}

theorem here : Everywhere P a → P a
  | intro here .. => here

theorem items : Everywhere P a → ∀ item ∈ a.items, Everywhere P item
  | intro _ items .. => items

theorem properties : Everywhere P a → ∀ entry ∈ a.properties, Everywhere P entry.2
  | intro _ _ properties _ => properties

theorem additional : Everywhere P a → ∀ rest ∈ a.additional, Everywhere P rest
  | intro _ _ _ additional => additional

/-- A shape without any other shape in it. -/
theorem leaf (h : P a) (hitems : a.items = none) (hproperties : a.properties = [])
    (hadditional : a.additional = none) : Everywhere P a :=
  intro h (by simp [hitems]) (by simp [hproperties]) (by simp [hadditional])

/-- A shape with the same shapes in it. -/
theorem remade (h : Everywhere P a) (hb : P b) (hitems : b.items = a.items)
    (hproperties : b.properties = a.properties) (hadditional : b.additional = a.additional) :
    Everywhere P b :=
  intro hb (hitems ▸ h.items) (hproperties ▸ h.properties) (hadditional ▸ h.additional)

/-- `P` holds of all shapes inside a shape. -/
structure Inside (P : Schema → Prop) (schema : Schema) : Prop where
  items : ∀ item ∈ schema.items, Everywhere P item
  properties : ∀ entry ∈ schema.properties, Everywhere P entry.2
  additional : ∀ rest ∈ schema.additional, Everywhere P rest

theorem inside (h : Everywhere P a) : Inside P a :=
  ⟨h.items, h.properties, h.additional⟩

theorem Inside.everywhere (h : Inside P a) (hhere : P a) : Everywhere P a :=
  intro hhere h.items h.properties h.additional

theorem imp (hPQ : ∀ schema, P schema → Q schema) (h : Everywhere P a) : Everywhere Q a := by
  induction h with
  | intro here _ _ _ ihItems ihProperties ihAdditional =>
    exact intro (hPQ _ here) ihItems ihProperties ihAdditional

theorem and (hP : Everywhere P a) (hQ : Everywhere Q a) :
    Everywhere (fun schema => P schema ∧ Q schema) a := by
  induction hP with
  | intro here _ _ _ ihItems ihProperties ihAdditional =>
    exact intro ⟨here, hQ.here⟩ (fun item hmem => ihItems item hmem (hQ.items item hmem))
      (fun entry hmem => ihProperties entry hmem (hQ.properties entry hmem))
      (fun rest hmem => ihAdditional rest hmem (hQ.additional rest hmem))

/-! ## Composition -/

/-- A property that is kept does not look at the flags. -/
theorem reflagged (hP : Kept P) (h : Everywhere P a) (description : Json)
    (required deprecated nullable : Bool) :
    Everywhere P { a with description, required, deprecated, nullable } :=
  h.remade (hP.reflagged _ _ _ _ h.here) rfl rfl rfl

/-- Opening a void shape keeps what is true everywhere in it. -/
theorem opened (hP : Mergeable Target P) (h : Everywhere P a) : Everywhere P a.opened := by
  apply h.remade (hP.opened h.here)
  all_goals
    unfold Schema.opened
    split <;> rfl

theorem asTarget (hP : Mergeable Target P) (h : Everywhere P a) (htarget : asTarget a = .ok result) :
    Everywhere P result := by
  rw [asTarget_eq_ok] at htarget
  split at htarget
  · rw [htarget.2]
    exact leaf (hP.based ‹_› h.here) rfl rfl rfl
  · rw [htarget]
    exact h

/-- A table whose names come from `sources` and whose shapes have `P` at every depth. -/
structure Table (P : Schema → Prop) (sources table : Properties) : Prop where
  names : ∀ entry ∈ table, ∃ old ∈ sources, old.1 = entry.1
  shapes : ∀ entry ∈ table, Everywhere P entry.2

/-- Setting a property of a table keeps its names among those of the sources. -/
theorem Table.set {sources table : Properties} {name : PropertyName} {schema : Schema}
    (htable : Table P sources table) (hname : ∃ old ∈ sources, old.1 = name)
    (hschema : Everywhere P schema) : Table P sources (Properties.set name schema table) where
  names := by
    intro new hnew
    rcases Properties.name_of_mem_set hnew with hsame | ⟨old, hold, hsame⟩
    · exact hsame ▸ hname
    · exact hsame ▸ htable.names old hold
  shapes := by
    intro new hnew
    rcases Properties.mem_set hnew with hold | hsame
    · exact htable.shapes new hold
    · exact hsame ▸ hschema

/-- One more property keeps a table, if merging the shapes of that property keeps them. -/
theorem Table.withProperty (hP : Mergeable Target P) {sources table next : Properties}
    {entry : PropertyName × Schema} (hname : ∃ old ∈ sources, old.1 = entry.1)
    (hentry : Everywhere P entry.2)
    (hmerge : ∀ mine result, Everywhere P mine → Target mine → mine.merge entry.2 = .ok result →
      Everywhere P result)
    (htable : Table P sources table) (h : withProperty table entry = .ok next) :
    Table P sources next := by
  cases hfound : Properties.find? entry.1 table with
  | none =>
    cases (withProperty_none hfound).symm.trans h
    exact htable.set hname hentry
  | some property =>
    obtain ⟨whole, hwhole, rfl⟩ := (withProperty_some hfound).mp h
    obtain ⟨target, result, htarget, hresult, rfl⟩ := joined_eq_ok.mp hwhole
    obtain ⟨source, hsource, rfl⟩ := Properties.mem_of_find? hfound
    have hmine := (htable.shapes source hsource).asTarget hP htarget
    have hmerged := hmerge target result hmine (hP.target htarget) hresult
    have hwhole : P (settle entry.2 result) := hP.reflagged _ _ _ _ hmerged.here
    exact htable.set hname (hmerged.remade hwhole rfl rfl rfl)

/-- What is true everywhere in two shapes is true everywhere in their merge. -/
theorem merge (hP : Mergeable Target P) (ha : Everywhere P a) (htarget : Target a)
    (hb : Everywhere P b) (h : a.merge b = .ok result) : Everywhere P result := by
  induction b using induct generalizing a result with
  | step b _ ihProperties _ =>
    have hopened := ha.opened hP
    cases hkind : b.kind
    case reference =>
      obtain ⟨hobject, _, rfl⟩ := (merge_reference hkind).mp h
      exact hopened.remade (hP.extended hobject hkind hopened.here hb.here) rfl rfl rfl
    case empty =>
      cases (merge_empty hkind).symm.trans h
      exact hopened
    case object =>
      obtain ⟨merged, hmerged, hbases, rfl⟩ := (merge_object hkind).mp h
      -- The tables are united one entry at a time, which keeps the property at every entry.
      have hstart : Table P (a.opened.properties ++ b.properties) a.opened.properties :=
        ⟨fun entry hmem => ⟨entry, List.mem_append_left _ hmem, rfl⟩, hopened.properties⟩
      have hstep : ∀ entry ∈ b.properties, ∀ table next,
          Table P (a.opened.properties ++ b.properties) table →
            Schema.withProperty table entry = .ok next →
              Table P (a.opened.properties ++ b.properties) next := by
        intro entry hmem table next htable hnext
        have hentry := hb.properties entry hmem
        exact htable.withProperty hP ⟨entry, List.mem_append_right _ hmem, rfl⟩ hentry
          (fun _ _ hmine hinner => ihProperties entry hmem hmine hinner hentry) hnext
      have htable := foldlM_invariant hstep hstart (foldlM_of_mergeProperties hmerged)
      have hhere := hP.united htarget hkind hmerged htable.names hbases hopened.here hb.here
      refine intro hhere hopened.items htable.shapes ?_
      show ∀ rest ∈ a.opened.additional.or b.additional, Everywhere P rest
      cases hmine : a.opened.additional with
      | none => exact hb.additional
      | some rest => simpa [hmine] using hopened.additional
    all_goals
      obtain ⟨_, rfl⟩ := (merge_closed (by rw [hkind]; rfl)).mp h
      exact hopened

end Everywhere

/-! ## Checking -/

mutual

/-- Whether a test succeeds on a shape and on all shapes inside it. -/
def all (test : Schema → Bool) : Schema → Bool
  | ⟨kind, name, description, required, deprecated, nullable, enumValues, items, properties,
      additional, heritage, indexPath⟩ =>
    test ⟨kind, name, description, required, deprecated, nullable, enumValues, items, properties,
      additional, heritage, indexPath⟩ &&
    (allOption test items && allTable test properties && allOption test additional)

def allOption (test : Schema → Bool) : Option Schema → Bool
  | none => true
  | some schema => schema.all test

def allTable (test : Schema → Bool) : List (PropertyName × Schema) → Bool
  | [] => true
  | (_, schema) :: rest => schema.all test && allTable test rest

end

theorem allOption_eq_true {test : Schema → Bool} {inner : Option Schema} :
    allOption test inner = true ↔ ∀ schema ∈ inner, schema.all test = true := by
  cases inner <;> simp [allOption]

theorem allTable_eq_true {test : Schema → Bool} {table : Properties} :
    allTable test table = true ↔ ∀ entry ∈ table, entry.2.all test = true := by
  induction table with
  | nil => simp [allTable]
  | cons entry table ih => rw [allTable, Bool.and_eq_true, ih, List.forall_mem_cons]

/-- What is true everywhere can be decided. -/
theorem all_eq_true {P : Schema → Prop} [DecidablePred P] {schema : Schema} :
    schema.all (decide <| P ·) = true ↔ Everywhere P schema := by
  induction schema using induct with
  | step schema ihItems ihProperties ihAdditional =>
    have hunfold : schema.all (decide <| P ·) = true ↔ P schema ∧
        ((∀ item ∈ schema.items, item.all (decide <| P ·) = true) ∧
          ∀ entry ∈ schema.properties, entry.2.all (decide <| P ·) = true) ∧
        ∀ rest ∈ schema.additional, rest.all (decide <| P ·) = true := by
      rw [← allOption_eq_true, ← allOption_eq_true, ← allTable_eq_true]
      obtain ⟨_⟩ := schema
      simp only [all, Bool.and_eq_true, decide_eq_true_eq]
    rw [hunfold]
    constructor
    · rintro ⟨hhere, ⟨hitems, hproperties⟩, hadditional⟩
      exact .intro hhere (fun item hmem => (ihItems item hmem).mp (hitems item hmem))
        (fun entry hmem => (ihProperties entry hmem).mp (hproperties entry hmem))
        (fun rest hmem => (ihAdditional rest hmem).mp (hadditional rest hmem))
    · intro h
      exact ⟨h.here, ⟨fun item hmem => (ihItems item hmem).mpr (h.items item hmem),
        fun entry hmem => (ihProperties entry hmem).mpr (h.properties entry hmem)⟩,
        fun rest hmem => (ihAdditional rest hmem).mpr (h.additional rest hmem)⟩

instance {P : Schema → Prop} [DecidablePred P] : DecidablePred (Everywhere P) :=
  fun _ => decidable_of_iff _ all_eq_true

/-! ## What is built -/

/-- A property that composition keeps, and that all shapes have from which a fragment is built. -/
structure Inherent (scope : Scope) (P : Schema → Prop) : Prop extends Kept P where
  empty : P empty
  derived : ∀ name ∈ scope.names, ∀ path, P (derived name path)
  plain : ∀ {members : Members} {kind : Kind} {listed : Bool} {items : Option Schema}
    {table : Properties × Option Schema} {literals : List Json × Bool},
    Kind.ofFragment members = .ok (kind, listed) → enumeration members = .ok literals →
      (∀ entry ∈ table.1, ∃ name, entry.1 = .text name) →
        P (plainShape members kind listed items table literals)

variable {scope : Scope} {P : Schema → Prop}

/-- What the builders establish and a merge keeps is true everywhere in a shape that is built. -/
theorem Built.everywhere (hP : Inherent scope P) {schema : Schema} (h : Built scope schema) :
    Everywhere P schema := by
  induction h with
  | openObject => exact .leaf hP.openObject rfl rfl rfl
  | empty => exact .leaf hP.empty rfl rfl rfl
  | resolved h =>
    rcases resolve_eq_ok h with rfl | ⟨name, hname, path, rfl⟩
    · exact .leaf hP.openObject rfl rfl rfl
    · exact .leaf (hP.derived name hname path) rfl rfl rfl
  | @plain members kind listed items additional properties literals hkind hliterals _ _ hnames _ _ _
      ihItems ihProperties ihAdditional =>
    have hhere : P (plainShape members kind listed items
        (Properties.ofList properties, additional) literals) := by
      -- A table made of the entries has no other names than they have.
      apply hP.plain hkind hliterals
      intro entry hmem
      obtain ⟨source, hsource, hsame⟩ := Properties.name_of_mem_ofList hmem
      exact hsame ▸ hnames source hsource
    refine .intro hhere ihItems (fun entry hmem => ?_) ihAdditional
    obtain ⟨source, hsource, heq⟩ := Properties.mem_ofList hmem
    exact heq ▸ ihProperties source hsource
  | merged _ _ h ihSelf ihOther => exact ihSelf.merge hP.mergeable trivial ihOther h
  | composed _ members ih => exact ih.reflagged hP.toKept _ _ _ _
  | property _ required ih => exact ih.reflagged hP.toKept _ _ _ _

theorem everywhere_ofParameter (hP : Inherent scope P) {fragment : Json} {schema : Schema}
    (h : ofParameter scope fragment = .ok schema) : Everywhere P schema := by
  simp only [ofParameter, bind_eq_ok] at h
  obtain ⟨members, _, built, hbuilt, h⟩ := h
  cases h
  exact ((built_ofFragment hbuilt).everywhere hP).reflagged hP.toKept _ _ _ _

theorem everywhere_ofContent (hP : Inherent scope P) {fragment : Json} {schema : Schema}
    (h : ofContent scope fragment = .ok schema) : Everywhere P schema := by
  simp only [ofContent, bind_eq_ok] at h
  obtain ⟨members, _, value, _, h⟩ := h
  split at h
  · cases h
    exact .leaf hP.empty rfl rfl rfl
  · exact (built_ofFragment h).everywhere hP

end Schema

end ApiTypes
