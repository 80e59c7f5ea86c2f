import ApiTypes.Proofs.Schema.Built

/-!
# Required properties of a composition

A composition is put together from fragments that compose nothing: its branches, their branches in
turn, and the schemas beside them. Each of these parts requires properties on its own. A name that
a part lists without declaring it requires nothing, whatever the other parts declare.
-/

namespace ApiTypes

namespace Schema

variable {scope : Scope}

/-! ## The flag of a property under a merge -/

/-- Whether the property of a name is required; nothing where there is none. -/
def mark (name : PropertyName) (table : Properties) : Option Bool :=
  (Properties.find? name table).map (·.required)

theorem mark_cons (name : PropertyName) (entry : PropertyName × Schema) (table : Properties) :
    mark name (entry :: table) =
      if entry.1.same name then some entry.2.required else mark name table := by
  unfold mark
  rw [Properties.find?_cons]
  split <;> rfl

theorem mark_set (name : PropertyName) (other : PropertyName) (schema : Schema)
    (table : Properties) :
    mark name (Properties.set other schema table) =
      if other.same name then some schema.required else mark name table := by
  unfold mark
  rw [Properties.find?_set]
  split <;> rfl

theorem mark_of_same {name other : PropertyName} (hsame : other.same name = true)
    (table : Properties) :
    mark name table = (Properties.find? other table).map (·.required) := by
  rw [Properties.find?_of_same hsame]
  rfl

theorem merge_or_none (flag : Option Bool) : Option.merge or flag none = flag := by
  cases flag <;> rfl

/-- Merging a property in leaves it required if it was so on either side. -/
theorem mark_withProperty {table next : Properties} {entry : PropertyName × Schema}
    (h : withProperty table entry = .ok next) (name : PropertyName) :
    mark name next = Option.merge or (mark name table) (mark name [entry]) := by
  rw [mark_cons]
  -- An entry changes the mark of its own name only, and there it is added to the old one.
  cases hfound : Properties.find? entry.1 table with
  | none =>
    cases (withProperty_none hfound).symm.trans h
    rw [mark_set]
    by_cases hsame : entry.1.same name = true
    · rw [if_pos hsame, if_pos hsame, mark_of_same hsame, hfound]
      rfl
    · rw [if_neg hsame, if_neg hsame]
      exact (merge_or_none _).symm
  | some property =>
    rcases (withProperty_some hfound).mp h with ⟨whole, hwhole, rfl⟩
    rw [mark_set]
    by_cases hsame : entry.1.same name = true
    · rw [if_pos hsame, if_pos hsame, mark_of_same hsame, hfound, joined_required hwhole]
      rfl
    · rw [if_neg hsame, if_neg hsame]
      exact (merge_or_none _).symm

theorem mark_foldlM {table result : Properties} {theirs : List (PropertyName × Schema)}
    (hdistinct : Properties.Distinct theirs) (h : theirs.foldlM withProperty table = .ok result)
    (name : PropertyName) :
    mark name result = Option.merge or (mark name table) (mark name theirs) := by
  -- A name of the table is there once, so that it is merged in at most one step.
  induction theirs generalizing table with
  | nil =>
    rw [← Except.ok.inj h]
    exact (merge_or_none _).symm
  | cons entry theirs ih =>
    rcases Properties.distinct_cons.mp hdistinct with ⟨_, hnew, hrest⟩
    rw [List.foldlM_cons, bind_eq_ok] at h
    rcases h with ⟨next, hnext, h⟩
    rw [ih hrest h, mark_withProperty hnext name, mark_cons, mark_cons]
    by_cases hsame : entry.1.same name = true
    · rw [if_pos hsame, if_pos hsame, mark_of_same hsame theirs, hnew]
      exact merge_or_none _
    · rw [if_neg hsame, if_neg hsame]
      show Option.merge or (Option.merge or (mark name table) none) (mark name theirs) = _
      rw [merge_or_none]

/-- A property of a merge is required if it is on either side. -/
theorem mark_merge {a b result : Schema} (ha : Regular a) (hb : Regular b)
    (h : a.merge b = .ok result) (name : PropertyName) :
    mark name result.properties =
      Option.merge or (mark name a.properties) (mark name b.properties) := by
  have hnone : b.properties = [] → result.properties = a.opened.properties →
      mark name result.properties =
        Option.merge or (mark name a.properties) (mark name b.properties) := by
    intro hnil hsame
    rw [hnil, hsame, opened_properties]
    exact (merge_or_none _).symm
  -- Only an object that is merged into an object brings properties.
  by_cases hkind : b.kind = .object
  · by_cases hobject : a.opened.kind = .object
    · rcases (merge_object hkind).mp h with ⟨merged, hmerged, _, rfl⟩
      rw [hobject, mergeProperties_object] at hmerged
      show mark name merged = _
      rw [mark_foldlM hb.distinct hmerged name, opened_properties]
    · rcases (ha.merge_object_closed hkind hobject).mp h with ⟨hnil, _, rfl⟩
      exact hnone hnil rfl
  · exact hnone (hb.bare hkind).1 (merge_properties_of_ne hkind h)

/-! ## The parts of a fragment -/

/-- A fragment that composes nothing goes into a fragment: as itself, through a branch, or as what
stands beside the branches. -/
inductive Part : Json → Members → Prop where
  | plain {members : Members} (href : (Json.object members).reference? = none)
      (hall : Members.has members "allOf" = false) : Part (.object members) members
  | branch {members part : Members} {branches : List Json} {branch : Json}
      (href : (Json.object members).reference? = none)
      (hall : members.lookup "allOf" = some (.array branches)) (hmem : branch ∈ branches)
      (h : Part branch part) : Part (.object members) part
  | beside {members : Members} (href : (Json.object members).reference? = none)
      (hall : Members.has members "allOf" = true)
      (hproperties : Members.has members "properties" = true) :
      Part (.object members) (siblings members)

theorem part_reference {members part : Members} {target : String}
    (href : (Json.object members).reference? = some target) : ¬Part (.object members) part := by
  intro h
  cases h <;> simp_all

theorem part_plain {members part : Members} (href : (Json.object members).reference? = none)
    (hall : Members.has members "allOf" = false) :
    Part (.object members) part ↔ part = members := by
  constructor
  · intro h
    cases h with
    | plain => rfl
    | branch _ hlookup =>
      rw [Members.has, hlookup] at hall
      cases hall
    | beside _ hthere =>
      rw [hall] at hthere
      cases hthere
  · intro hsame
    subst hsame
    exact .plain href hall

/-- The parts of a composition are those of its branches and its own properties. -/
theorem part_composition {members part : Members}
    (href : (Json.object members).reference? = none)
    (hall : Members.has members "allOf" = true) :
    Part (.object members) part ↔
      (∃ branches, members.lookup "allOf" = some (.array branches) ∧
        ∃ branch ∈ branches, Part branch part) ∨
      (Members.has members "properties" = true ∧ part = siblings members) := by
  constructor
  · intro h
    cases h with
    | plain _ hnone =>
      rw [hall] at hnone
      cases hnone
    | branch _ hlookup hmem h => exact .inl ⟨_, hlookup, _, hmem, h⟩
    | beside _ _ hproperties => exact .inr ⟨hproperties, rfl⟩
  · intro h
    rcases h with ⟨branches, hlookup, branch, hmem, h⟩ | ⟨hproperties, rfl⟩
    · exact .branch href hlookup hmem h
    · exact .beside href hall hproperties

/-- A question about the flag of a property that a merge answers from its two sides. -/
structure Splits (P : Option Bool → Prop) : Prop where
  nothing : ¬P none
  merge : ∀ a b, P (Option.merge or a b) ↔ P a ∨ P b

theorem splits_isSome : Splits fun flag => flag.isSome = true where
  nothing := by simp
  merge := by
    intro a b
    cases a <;> cases b <;> simp [Option.merge]

theorem splits_true : Splits fun flag => flag = some true where
  nothing := by simp
  merge := by
    intro a b
    cases a <;> cases b <;> simp [Option.merge]

section Question

variable {P : Option Bool → Prop} {name : PropertyName}

/-- A question that splits over a merge splits over all the shapes of a list that are merged in
turn. -/
theorem Splits.foldlM_merge (hP : Splits P) {a result : Schema} {parts : List Schema}
    (ha : Regular a) (hparts : ∀ part ∈ parts, Regular part)
    (h : parts.foldlM Schema.merge a = .ok result) :
    P (mark name result.properties) ↔
      P (mark name a.properties) ∨ ∃ part ∈ parts, P (mark name part.properties) := by
  induction parts generalizing a with
  | nil =>
    rw [← Except.ok.inj h]
    simp
  | cons part parts ih =>
    rcases List.forall_mem_cons.mp hparts with ⟨hpart, hparts⟩
    rw [List.foldlM_cons, bind_eq_ok] at h
    rcases h with ⟨next, hnext, h⟩
    rw [ih (ha.merge hpart hnext) hparts h, mark_merge ha hpart hnext, hP.merge,
      List.exists_mem_cons_iff, or_assoc]

/-- So it splits over the branches of a composition. -/
theorem Splits.ofBranches {Q : Json → Prop} (hP : Splits P) {branches : List Json}
    {whole : Schema}
    (hbranch : ∀ branch ∈ branches, ∀ {part}, ofFragment scope branch = .ok part →
      (P (mark name part.properties) ↔ Q branch))
    (h : Schema.ofBranches scope empty branches = .ok whole) :
    P (mark name whole.properties) ↔ ∃ branch ∈ branches, Q branch := by
  rcases ofBranches_eq_ok.mp h with ⟨parts, hparts, hfold⟩
  have hempty : Regular empty := .leaf rfl rfl rfl rfl
  -- The composition begins with nothing, which has no mark.
  rw [hP.foldlM_merge hempty (regular_of_parts hparts) hfold]
  constructor
  · intro h
    rcases h with hnone | ⟨part, hmem, hpart⟩
    · exact absurd hnone hP.nothing
    · rcases exists_of_forall₂ hparts.flip hmem with ⟨branch, hbranchMem, hbuilt⟩
      exact ⟨branch, hbranchMem, (hbranch branch hbranchMem hbuilt).mp hpart⟩
  · intro h
    rcases h with ⟨branch, hmem, hQ⟩
    rcases exists_of_forall₂ hparts hmem with ⟨part, hpartMem, hbuilt⟩
    exact .inr ⟨part, hpartMem, (hbranch branch hmem hbuilt).mpr hQ⟩

theorem Splits.branchesShape {Q : Json → Prop} (hP : Splits P) {value : Option Json}
    {whole : Schema}
    (hbranch : ∀ branches, value = some (.array branches) → ∀ branch ∈ branches, ∀ {part},
      ofFragment scope branch = .ok part → (P (mark name part.properties) ↔ Q branch))
    (h : Schema.branchesShape scope value = .ok whole) :
    P (mark name whole.properties) ↔
      ∃ branches, value = some (.array branches) ∧ ∃ branch ∈ branches, Q branch := by
  unfold Schema.branchesShape at h
  split at h
  · rename_i branches
    rw [hP.ofBranches (hbranch branches rfl) h]
    simp
  · rename_i hother
    rw [ofNoBranches_eq_ok h]
    constructor
    · intro hnone
      exact absurd hnone hP.nothing
    · intro h
      rcases h with ⟨branches, hvalue, _⟩
      exact absurd hvalue (hother branches)

/-- With the properties beside the branches, it splits over the parts of a composition. -/
theorem Splits.ofComposition {Q : Members → Prop} (hP : Splits P)
    (hplain : ∀ {members schema}, ofPlain scope members = .ok schema →
      (P (mark name schema.properties) ↔ Q members))
    {members : Members} {whole : Schema} (href : (Json.object members).reference? = none)
    (hall : Members.has members "allOf" = true)
    (hbranch : ∀ branches, members.lookup "allOf" = some (.array branches) →
      ∀ branch ∈ branches, ∀ {part}, Schema.ofFragment scope branch = .ok part →
        (P (mark name part.properties) ↔ ∃ part, Part branch part ∧ Q part))
    (h : Schema.ofComposition scope members = .ok whole) :
    P (mark name whole.properties) ↔ ∃ part, Part (.object members) part ∧ Q part := by
  rcases ofComposition_eq_ok.mp h with ⟨base, hbase, hown⟩
  have hbranches := hP.branchesShape hbranch hbase
  -- Beside the branches a fragment is a part of its own only where it declares properties.
  have hwhole : P (mark name whole.properties) ↔
      P (mark name base.properties) ∨
        (Members.has members "properties" = true ∧ Q (siblings members)) := by
    by_cases hproperties : Members.has members "properties" = true
    · rw [if_pos hproperties] at hown
      rcases hown with ⟨own, hplainOwn, hmerge⟩
      have hregular : Regular own :=
        (built_ofFragment ((ofFragment_siblings href).trans hplainOwn)).regular
      rw [mark_merge (regular_of_branchesShape hbase) hregular hmerge, hP.merge,
        hplain hplainOwn, and_iff_right hproperties]
    · rw [if_neg hproperties] at hown
      rw [← hown, or_iff_left fun h => hproperties h.1]
  rw [hwhole, hbranches]
  simp only [part_composition href hall]
  constructor
  · intro h
    rcases h with ⟨branches, hlookup, branch, hmem, part, hpart, hQ⟩ | ⟨hproperties, hQ⟩
    · exact ⟨part, .inl ⟨branches, hlookup, branch, hmem, hpart⟩, hQ⟩
    · exact ⟨siblings members, .inr ⟨hproperties, rfl⟩, hQ⟩
  · intro h
    rcases h with ⟨part, ⟨branches, hlookup, branch, hmem, hpart⟩ | ⟨hproperties, rfl⟩, hQ⟩
    · exact .inl ⟨branches, hlookup, branch, hmem, part, hpart, hQ⟩
    · exact .inr ⟨hproperties, hQ⟩

/-- Such a question about a built shape is put to the parts of its fragment. -/
theorem Splits.ofFragment {Q : Members → Prop} (hP : Splits P)
    (hplain : ∀ {members schema}, ofPlain scope members = .ok schema →
      (P (mark name schema.properties) ↔ Q members))
    (fragment : Json) {schema : Schema} (h : Schema.ofFragment scope fragment = .ok schema) :
    P (mark name schema.properties) ↔ ∃ part, Part fragment part ∧ Q part := by
  have hnothing : schema.properties = [] → (∀ part, ¬Part fragment part) →
      (P (mark name schema.properties) ↔ ∃ part, Part fragment part ∧ Q part) := by
    intro hnil hpart
    rw [hnil]
    constructor
    · intro hnone
      exact absurd hnone hP.nothing
    · intro h
      rcases h with ⟨part, h, _⟩
      exact absurd h (hpart part)
  rcases ofFragment_cases h with
    ⟨hvalue, rfl⟩ | ⟨members, hfragment, ⟨target, href, h⟩ | ⟨href, h⟩⟩
  · apply hnothing rfl
    intro part hpart
    rcases hvalue with rfl | rfl <;> cases hpart
  · apply hnothing
    · rcases resolve_eq_ok h with rfl | ⟨_, _, _, rfl⟩ <;> rfl
    · rw [hfragment]
      exact fun part => part_reference href
  · by_cases hall : Members.has members "allOf" = true
    · rw [if_pos hall] at h
      rcases h with ⟨whole, hwhole, rfl⟩
      -- Only the description and a flag of the composition are changed after it.
      show P (mark name whole.properties) ↔ _
      rw [hfragment]
      exact hP.ofComposition hplain href hall (fun branches hlookup branch hmem part hpart =>
        hP.ofFragment hplain branch hpart) hwhole
    · rw [if_neg hall] at h
      rw [hplain h, hfragment]
      simp [part_plain href (by simpa using hall)]
  termination_by sizeOf fragment
  decreasing_by
    have hbranch := List.sizeOf_lt_of_mem hmem
    have hlist := sizeOf_lookup_lt hlookup
    rw [hfragment]
    simp at hlist ⊢
    omega

end Question

/-! ## What a part requires -/

/-- Whether members that compose nothing describe an object with a property of this name. -/
def DeclaresProperty (members : Members) (name : String) : Prop :=
  (∃ listed, Kind.ofFragment members = .ok (.object, listed)) ∧ name ∈ propertyNames members

def ListsRequired (members : Members) (name : String) : Prop :=
  ∃ names, requiredNames members = .ok names ∧ name ∈ names

/-- A property that is declared is required exactly if its name is listed beside it. -/
theorem mark_ofProperties {required : List String} {table : List (String × Json)}
    {properties : List (PropertyName × Schema)}
    (h : ofProperties scope required table = .ok properties) (name : String) :
    mark (.text name) (Properties.ofList properties) =
      if name ∈ table.map (·.1) then some (required.contains name) else none := by
  have hbuilt := ofProperties_eq_ok.mp h
  unfold mark
  rw [Properties.find?_ofList]
  cases hfound : properties.reverse.find? (·.1.same (.text name)) with
  | none =>
    have hnone := List.find?_eq_none.mp hfound
    have hnew : name ∉ table.map (·.1) := by
      intro hmem
      rcases List.mem_map.mp hmem with ⟨entry, hentry, rfl⟩
      rcases exists_of_forall₂ hbuilt hentry with ⟨_, hproperty, schema, _, rfl⟩
      apply hnone _ (List.mem_reverse.mpr hproperty)
      exact (PropertyName.same_text _ _).mpr rfl
    rw [if_neg hnew]
    rfl
  | some property =>
    have hmem := List.mem_reverse.mp (List.mem_of_find?_eq_some hfound)
    have hsame := List.find?_some hfound
    rcases exists_of_forall₂ hbuilt.flip hmem with ⟨entry, hentry, schema, hschema, rfl⟩
    have hname : entry.1 = name := (PropertyName.same_text _ _).mp hsame
    rw [← hname, if_pos (List.mem_map_of_mem hentry)]
    -- The flag of the shape itself is not set yet, so the list of the parent decides.
    show some (schema.required || required.contains entry.1) = some (required.contains entry.1)
    rw [required_of_ofFragment hschema, Bool.false_or]

/-- In a plain fragment a property is declared and required as the two keywords say. -/
theorem mark_ofPlain {members : Members} {schema : Schema}
    (h : ofPlain scope members = .ok schema) (name : String) :
    ((mark (.text name) schema.properties).isSome = true ↔ DeclaresProperty members name) ∧
      (mark (.text name) schema.properties = some true ↔
        DeclaresProperty members name ∧ ListsRequired members name) := by
  rcases ofPlain_eq_ok.mp h with ⟨kind, listed, hkind, items, _, table, htable, literals, _, rfl⟩
  show ((mark (.text name) table.1).isSome = true ↔ _) ∧ (mark (.text name) table.1 = some true ↔ _)
  by_cases hobject : kind = .object
  · rw [if_pos hobject] at htable
    rcases ofTable_eq_ok.mp htable with ⟨required, hrequired, properties, hshapes, _, _, rfl⟩
    have hlists : ListsRequired members name ↔ required.contains name = true := by
      unfold ListsRequired
      simp [hrequired]
    have hdeclares : DeclaresProperty members name ↔ name ∈ propertyNames members :=
      and_iff_right ⟨listed, hobject ▸ hkind⟩
    have hmark : mark (.text name) (Properties.ofList properties) =
        if name ∈ propertyNames members then some (required.contains name) else none :=
      mark_ofProperties (tableShapes_eq_ok hshapes) name
    rw [hmark, hlists, hdeclares]
    by_cases hmem : name ∈ propertyNames members
    · simp [hmem]
    · simp [hmem]
  · rw [if_neg hobject] at htable
    cases htable
    -- A part of another kind has no properties, even if a table of them is given.
    have hnot : ¬DeclaresProperty members name := by
      intro h
      rcases h with ⟨⟨listed', hobject'⟩, _⟩
      rw [hkind] at hobject'
      cases hobject'
      exact hobject rfl
    simp [hnot, mark, Properties.find?]

/-- A property is there if a part of the fragment declares it, and required if a part both declares
it and lists it as required. -/
theorem ofFragment_required_iff {fragment : Json} {schema : Schema}
    (h : ofFragment scope fragment = .ok schema) (name : String) :
    ((∃ property, Properties.find? (.text name) schema.properties = some property) ↔
        ∃ part, Part fragment part ∧ DeclaresProperty part name) ∧
      ((∃ property, Properties.find? (.text name) schema.properties = some property ∧
          property.required = true) ↔
        ∃ part, Part fragment part ∧ DeclaresProperty part name ∧ ListsRequired part name) := by
  have hthere := splits_isSome.ofFragment (fun hplain => (mark_ofPlain hplain name).1) fragment h
  have hrequired := splits_true.ofFragment (fun hplain => (mark_ofPlain hplain name).2) fragment h
  rw [← hthere, ← hrequired]
  unfold mark
  rw [Option.isSome_map, Option.isSome_iff_exists, Option.map_eq_some_iff]
  exact ⟨Iff.rfl, Iff.rfl⟩

/-- A description that declares nothing. -/
def bareScope : Scope where
  document := { dialect := .swagger2, members := [("swagger", .string "2.0")] }
  names := []

def declaring : Members :=
  [("properties", .object [("a", .object [])])]

def listing : Members :=
  [("required", .array [.string "a"])]

theorem ofFragment_members_nil : ofFragment bareScope (.object []) = .ok openObject := by
  rw [ofFragment_plain rfl rfl]
  exact ofPlain_eq_ok.mpr ⟨.object, false, rfl, none, rfl, ([], none),
    ofTable_eq_ok.mpr ⟨[], rfl, [], rfl, none, rfl, rfl⟩, ([], false), rfl, rfl⟩

theorem ofFragment_listing : ofFragment bareScope (.object listing) = .ok openObject := by
  rw [ofFragment_plain rfl rfl]
  exact ofPlain_eq_ok.mpr ⟨.object, false, rfl, none, rfl, ([], none),
    ofTable_eq_ok.mpr ⟨["a"], rfl, [], rfl, none, rfl, rfl⟩, ([], false), rfl, rfl⟩

/-- The theorem at a composition in which a branch declares a property and lists it. -/
theorem ofFragment_required_iff_listing :
    ∃ schema,
      ofFragment bareScope (allOf [.object listing, .object (declaring ++ listing)]) =
        .ok schema ∧
      ∃ part, Part (allOf [.object listing, .object (declaring ++ listing)]) part ∧
        DeclaresProperty part "a" ∧ ListsRequired part "a" := by
  have hboth : ofFragment bareScope (.object (declaring ++ listing)) =
      .ok { properties := [(.text "a", { required := true })] } := by
    rw [ofFragment_plain rfl rfl]
    exact ofPlain_eq_ok.mpr ⟨.object, false, rfl, none, rfl, (_, none),
      ofTable_eq_ok.mpr ⟨["a"], rfl, _, ofProperties_eq_ok.mpr
        (.cons ⟨_, ofFragment_members_nil, rfl⟩ .nil), none, rfl, rfl⟩, ([], false), rfl, rfl⟩
  have hwhole : ofFragment bareScope (allOf [.object listing, .object (declaring ++ listing)]) =
      .ok { properties := [(.text "a", { required := true })] } := by
    rw [ofFragment_allOf]
    simp only [ofBranches, ofFragment_listing, hboth, ok_bind]
    rfl
  exact ⟨_, hwhole, (ofFragment_required_iff hwhole "a").2.mp ⟨_, rfl, rfl⟩⟩

/-- A property that one branch declares is not required because another branch lists its name. -/
theorem not_required_where_listed_apart :
    DeclaresProperty declaring "a" ∧ ListsRequired listing "a" ∧
      ∃ schema property,
        ofFragment bareScope (allOf [.object declaring, .object listing]) = .ok schema ∧
        Properties.find? (.text "a") schema.properties = some property ∧
        property.required = false := by
  have hdeclaring : ofFragment bareScope (.object declaring) =
      .ok { properties := [(.text "a", openObject)] } := by
    rw [ofFragment_plain rfl rfl]
    exact ofPlain_eq_ok.mpr ⟨.object, false, rfl, none, rfl, (_, none),
      ofTable_eq_ok.mpr ⟨[], rfl, _, ofProperties_eq_ok.mpr
        (.cons ⟨_, ofFragment_members_nil, rfl⟩ .nil), none, rfl, rfl⟩, ([], false), rfl, rfl⟩
  refine ⟨⟨⟨false, rfl⟩, List.mem_singleton.mpr rfl⟩, ⟨["a"], rfl, by simp⟩,
    { properties := [(.text "a", openObject)] }, openObject, ?_, rfl, rfl⟩
  rw [ofFragment_allOf]
  simp only [ofBranches, hdeclaring, ofFragment_listing, ok_bind]
  rfl

end Schema

end ApiTypes
