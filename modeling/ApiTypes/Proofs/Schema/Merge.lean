import ApiTypes.Proofs.Outcome
import ApiTypes.Proofs.Schema.Table
import ApiTypes.Schema.Merge

/-!
# What a composition does

Which kind is merged in decides what a merge does: one lemma for each says when it succeeds and
with which shape. The properties of an object are merged by a fold over its table.
-/

namespace ApiTypes

/-- Strings, numbers, truth values and arrays: shapes that take neither properties nor bases. -/
def Kind.isClosed : Kind → Bool
  | .string | .number | .boolean | .array => true
  | .object | .empty | .reference => false

namespace Schema

/-- Induction over a shape and the shapes inside it. -/
theorem induct {motive : Schema → Prop}
    (step : ∀ schema : Schema, (∀ item ∈ schema.items, motive item) →
      (∀ entry ∈ schema.properties, motive entry.2) →
      (∀ rest ∈ schema.additional, motive rest) → motive schema)
    (schema : Schema) : motive schema := by
  -- The recursor has one case for each way of nesting: under `items` and `additional` alone, in the
  -- table of properties with a name.
  refine @Schema.rec motive (fun inner => ∀ schema ∈ inner, motive schema)
    (fun table => ∀ entry ∈ table, motive entry.2) (fun entry => motive entry.2)
    ?_ ?_ ?_ ?_ ?_ ?_ schema
  · intro _ _ _ _ _ _ _ _ _ _ _ _ ihItems ihProperties ihAdditional
    exact step _ ihItems ihProperties ihAdditional
  · simp
  · intro schema ih
    simpa using ih
  · simp
  · intro entry table ihEntry ihTable
    exact List.forall_mem_cons.mpr ⟨ihEntry, ihTable⟩
  · intro name schema ih
    exact ih

/-! ## Opening -/

@[simp] theorem opened_of_ne {self : Schema} (h : self.kind ≠ .empty) : self.opened = self :=
  if_neg h

theorem opened_kind_ne (self : Schema) : self.opened.kind ≠ .empty := by
  unfold opened
  split
  · simp
  · assumption

@[simp] theorem opened_opened (self : Schema) : self.opened.opened = self.opened :=
  opened_of_ne (opened_kind_ne self)

@[simp] theorem opened_properties (schema : Schema) :
    schema.opened.properties = schema.properties := by
  unfold opened
  split <;> rfl

@[simp] theorem opened_heritage (schema : Schema) : schema.opened.heritage = schema.heritage := by
  unfold opened
  split <;> rfl

theorem opened_additional (schema : Schema) :
    schema.opened.additional = schema.additional := by
  unfold opened
  split <;> rfl

/-! ## One lemma for each kind that is merged in -/

section Cases

variable {self other result : Schema}

/-- A reference is merged in as a base, which only an object takes and only a plain reference
gives. -/
theorem merge_reference (h : other.kind = .reference) :
    self.merge other = .ok result ↔
      self.opened.kind = .object ∧ other.indexPath = [] ∧
        result = { self.opened with heritage := addBase self.opened.heritage other.name } := by
  cases other
  cases h
  simp only [merge, extend]
  -- Only an object is extended, and only by a definition as a whole.
  split
  · simp_all
  · split <;> simp_all [eq_comm]

/-- Merging a void shape in does no more than open the one it is merged into. -/
theorem merge_empty (h : other.kind = .empty) : self.merge other = .ok self.opened := by
  cases other
  cases h
  simp only [merge]

/-- An object is merged in property by property, and its bases are taken over. -/
theorem merge_object (h : other.kind = .object) :
    self.merge other = .ok result ↔
      ∃ merged, mergeProperties self.opened.kind self.opened.properties other.properties =
          .ok merged ∧
        (other.heritage = [] ∨ self.opened.kind = .object) ∧
        result = { self.opened with
          properties := merged
          additional := self.opened.additional.or other.additional
          heritage := other.heritage.foldl addBase self.opened.heritage } := by
  cases other
  cases h
  simp only [merge, bind_eq_ok]
  refine exists_congr fun merged => and_congr_right fun _ => ?_
  split
  · simp_all
  · simp_all [eq_comm, Classical.or_iff_not_imp_left]

/-- A closed shape is merged only into its like, and brings nothing. -/
theorem merge_closed (h : other.kind.isClosed) :
    self.merge other = .ok result ↔ self.opened.kind = other.kind ∧ result = self.opened := by
  rcases other with ⟨kind⟩
  cases kind <;> cases h <;> simp only [merge] <;> split <;> simp_all [eq_comm]

/-- Two shapes that differ at most in the properties, the bases and the shape of further
properties. -/
structure SameFrame (a b : Schema) : Prop where
  kind : a.kind = b.kind
  name : a.name = b.name
  description : a.description = b.description
  required : a.required = b.required
  deprecated : a.deprecated = b.deprecated
  nullable : a.nullable = b.nullable
  enumValues : a.enumValues = b.enumValues
  items : a.items = b.items
  indexPath : a.indexPath = b.indexPath

/-- A merge changes only the properties, the bases and the shape of further properties. -/
theorem merge_frame (h : self.merge other = .ok result) : SameFrame result self.opened := by
  cases hkind : other.kind
  case reference =>
    rcases (merge_reference hkind).mp h with ⟨_, _, rfl⟩
    constructor <;> rfl
  case empty =>
    cases (merge_empty hkind).symm.trans h
    constructor <;> rfl
  case object =>
    rcases (merge_object hkind).mp h with ⟨merged, _, _, rfl⟩
    constructor <;> rfl
  all_goals
    rcases (merge_closed (by rw [hkind]; rfl)).mp h with ⟨_, rfl⟩
    constructor <;> rfl

/-- Only an object brings a shape of further properties, and only where there is none yet. -/
theorem merge_additional (h : self.merge other = .ok result) :
    result.additional =
      if other.kind = .object then self.additional.or other.additional else self.additional := by
  cases hkind : other.kind
  case reference =>
    rcases (merge_reference hkind).mp h with ⟨_, _, rfl⟩
    exact opened_additional self
  case empty =>
    rw [← Except.ok.inj ((merge_empty hkind).symm.trans h)]
    exact opened_additional self
  case object =>
    rcases (merge_object hkind).mp h with ⟨merged, _, _, rfl⟩
    rw [if_pos rfl, opened_additional]
  all_goals
    rw [((merge_closed (by rw [hkind]; rfl)).mp h).2]
    exact opened_additional self

/-- Only an object brings properties. -/
theorem merge_properties_of_ne (hother : other.kind ≠ .object) (h : self.merge other = .ok result) :
    result.properties = self.opened.properties := by
  cases hkind : other.kind
  case reference =>
    rcases (merge_reference hkind).mp h with ⟨_, _, rfl⟩
    rfl
  case empty =>
    rw [← Except.ok.inj ((merge_empty hkind).symm.trans h)]
  case object => exact absurd hkind hother
  all_goals rw [((merge_closed (by rw [hkind]; rfl)).mp h).2]

end Cases

/-! ## What properties are merged into -/

/-- A property that is a reference is made an object with that base before another is merged into
it. -/
theorem asTarget_eq_ok {self target : Schema} : asTarget self = .ok target ↔
    if self.kind = .reference then
      self.indexPath = [] ∧ target =
        { description := self.description, required := self.required, heritage := [self.name] }
    else target = self := by
  unfold asTarget
  split
  · by_cases hpath : self.indexPath = []
    · simp [extend, addBase, hpath, eq_comm]
    · simp [extend, hpath]
  · simp [eq_comm]

theorem asTarget_kind_ne {self target : Schema} (h : asTarget self = .ok target) :
    target.kind ≠ .reference := by
  rw [asTarget_eq_ok] at h
  split at h
  · rw [h.2]
    simp
  · rw [h]
    assumption

/-- The flags that settle a property come through a merge unchanged. -/
theorem merge_flags {self other result : Schema} (h : self.merge other = .ok result) :
    result.required = self.required ∧ result.description = self.description := by
  have hopened : self.opened.required = self.required ∧
      self.opened.description = self.description := by
    unfold opened
    split <;> exact ⟨rfl, rfl⟩
  rw [(merge_frame h).required, (merge_frame h).description]
  exact hopened

/-- The flags that settle a property come through the making of a target and the merge into it. -/
theorem flags_of_asTarget_merge {self other target result : Schema}
    (htarget : asTarget self = .ok target) (h : target.merge other = .ok result) :
    result.required = self.required ∧ result.description = self.description := by
  rw [(merge_flags h).1, (merge_flags h).2]
  rw [asTarget_eq_ok] at htarget
  split at htarget
  · rw [htarget.2]
    exact ⟨rfl, rfl⟩
  · rw [htarget]
    exact ⟨rfl, rfl⟩

/-! ## The fold over a table -/

/-- What a property becomes when another of its name is merged into it. -/
def joined (mine theirs : Schema) : Except Error Schema := do
  let target ← asTarget mine
  let merged ← target.merge theirs
  return settle theirs merged

def withProperty (table : Properties) (entry : PropertyName × Schema) : Except Error Properties :=
  match Properties.find? entry.1 table with
  | none => .ok (Properties.set entry.1 entry.2 table)
  | some property => do return Properties.set entry.1 (← joined property entry.2) table

/-- The three steps of joining two properties: target, merge, settlement. -/
theorem joined_eq_ok {mine theirs result : Schema} :
    joined mine theirs = .ok result ↔
      ∃ target merged, asTarget mine = .ok target ∧ target.merge theirs = .ok merged ∧
        settle theirs merged = result := by
  simp [joined, bind_eq_ok]

theorem joined_required {mine theirs whole : Schema} (h : joined mine theirs = .ok whole) :
    whole.required = (mine.required || theirs.required) := by
  rcases joined_eq_ok.mp h with ⟨target, merged, htarget, hmerged, rfl⟩
  show (merged.required || theirs.required) = (mine.required || theirs.required)
  rw [(flags_of_asTarget_merge htarget hmerged).1]

/-- A property without a namesake is added as it is. -/
theorem withProperty_none {table : Properties} {entry : PropertyName × Schema}
    (h : Properties.find? entry.1 table = none) :
    withProperty table entry = .ok (Properties.set entry.1 entry.2 table) := by
  rw [withProperty, h]

/-- A property with a namesake is joined with it, in its place. -/
theorem withProperty_some {table result : Properties} {entry : PropertyName × Schema}
    {property : Schema} (h : Properties.find? entry.1 table = some property) :
    withProperty table entry = .ok result ↔
      ∃ whole, joined property entry.2 = .ok whole ∧
        Properties.set entry.1 whole table = result := by
  simp [withProperty, h, bind_eq_ok]

/-- Into an object, properties are merged in one after the other. -/
theorem mergeProperties_object (mine : Properties) (theirs : List (PropertyName × Schema)) :
    mergeProperties .object mine theirs = theirs.foldlM withProperty mine := by
  induction theirs generalizing mine with
  | nil => rfl
  | cons entry theirs ih =>
    rcases entry with ⟨name, schema⟩
    rw [mergeProperties, List.foldlM_cons, withProperty]
    cases Properties.find? name mine with
    | none => simp [ih]
    | some property => simp [joined, ih]

/-- Where the properties of another object are merged in, whatever the kind, it is by that fold. -/
theorem foldlM_of_mergeProperties {kind : Kind} {mine merged : Properties}
    {theirs : List (PropertyName × Schema)} (h : mergeProperties kind mine theirs = .ok merged) :
    theirs.foldlM withProperty mine = .ok merged := by
  induction theirs generalizing mine with
  | nil => exact h
  | cons entry theirs ih =>
    obtain ⟨name, schema⟩ := entry
    rw [mergeProperties] at h
    rw [List.foldlM_cons, bind_eq_ok]
    -- A name that is there is joined, a new one is added at the end.
    cases hfound : Properties.find? name mine with
    | none =>
      simp only [hfound] at h
      split at h
      · cases h
      · exact ⟨_, withProperty_none hfound, ih h⟩
    | some property =>
      simp only [hfound, bind_eq_ok] at h
      obtain ⟨target, htarget, merged, hmerged, h⟩ := h
      exact ⟨_, (withProperty_some hfound).mpr
        ⟨_, joined_eq_ok.mpr ⟨target, merged, htarget, hmerged, rfl⟩, rfl⟩, ih h⟩

/-- A shape that is no object takes no new property. -/
theorem mergeProperties_nil {kind : Kind} (h : kind ≠ .object) {merged : Properties}
    {theirs : List (PropertyName × Schema)} :
    mergeProperties kind [] theirs = .ok merged ↔ theirs = [] ∧ merged = [] := by
  cases theirs with
  | nil => simp [mergeProperties, eq_comm]
  | cons entry theirs => simp [mergeProperties, Properties.find?, h]

end Schema

end ApiTypes
