import ApiTypes.Proofs.Schema.Fitting

/-!
# A composition, path by path

What a composition has at a path of property names, from what its two sides have there. Nothing is
lost and nothing is added: what only one side has is taken as it is, and where both have a shape the
names and the bases of the one side are followed by those that the other side adds.
-/

namespace ApiTypes

namespace Properties

def names (table : Properties) : List PropertyName :=
  table.map (·.1)

/-- The names of a table that another table does not have, in order. -/
def newNames (theirs mine : Properties) : List PropertyName :=
  (names theirs).filter fun name => (find? name mine).isNone

theorem names_cons (entry : PropertyName × Schema) (table : Properties) :
    names (entry :: table) = entry.1 :: names table :=
  rfl

/-- A property that is set takes the place of its namesake, or else comes last. -/
theorem names_set (name : PropertyName) (schema : Schema) (table : Properties) :
    names (set name schema table) =
      if (find? name table).isSome then names table else names table ++ [name] := by
  induction table with
  | nil => rfl
  | cons entry table ih =>
    rw [set_cons, find?_cons]
    split
    · rfl
    · rw [names_cons, names_cons, ih]
      split <;> rfl

theorem find?_eq_none_names {name : PropertyName} {table : Properties} :
    find? name table = none ↔ ∀ other ∈ names table, other.same name = false := by
  rw [find?_eq_none, names, List.forall_mem_map]

end Properties

namespace Schema

variable {mine theirs whole : Schema}

/-! ## The order of names and bases -/

/-- Bases are added behind those there are, each once. -/
theorem foldl_addBase (bases more : List String) :
    more.foldl addBase bases = bases ++ (more.filter (· ∉ bases)).eraseDups := by
  induction more generalizing bases with
  | nil => simp
  | cons base more ih =>
    rw [List.foldl_cons, ih, addBase]
    by_cases hmem : base ∈ bases
    · rw [if_pos hmem, List.filter_cons_of_neg (by simpa using hmem)]
    · -- What is left of the others is neither in the list nor the new base itself.
      have hrest : more.filter (· ∉ bases ++ [base]) =
          (more.filter (· ∉ bases)).filter fun other => !other == base := by
        rw [List.filter_filter]
        refine List.filter_congr fun other _ => ?_
        simp [Bool.and_comm, Bool.beq_eq_decide_eq]
      rw [if_neg hmem, List.filter_cons_of_pos (by simpa using hmem), List.eraseDups_cons, hrest,
        List.append_assoc, List.singleton_append]

/-- Merging a property in adds its name behind the others unless it is there. -/
theorem names_withProperty {table next : Properties} {entry : PropertyName × Schema}
    (h : withProperty table entry = .ok next) :
    Properties.names next =
      if (Properties.find? entry.1 table).isSome then Properties.names table
      else Properties.names table ++ [entry.1] := by
  cases hfound : Properties.find? entry.1 table with
  | none =>
    cases (withProperty_none hfound).symm.trans h
    rw [Properties.names_set, hfound]
  | some property =>
    obtain ⟨_, _, rfl⟩ := (withProperty_some hfound).mp h
    rw [Properties.names_set, hfound]

/-- The names of a merged table: those of the one, then the new ones of the other. -/
theorem names_foldlM {table result : Properties} {theirs : List (PropertyName × Schema)}
    (hdistinct : Properties.Distinct theirs) (h : theirs.foldlM withProperty table = .ok result) :
    Properties.names result =
      Properties.names table ++ Properties.newNames theirs table := by
  induction theirs generalizing table with
  | nil =>
    rw [← Except.ok.inj h]
    exact (List.append_nil _).symm
  | cons entry theirs ih =>
    obtain ⟨_, hnew, hrest⟩ := Properties.distinct_cons.mp hdistinct
    rw [List.foldlM_cons, bind_eq_ok] at h
    obtain ⟨next, hnext, h⟩ := h
    -- The later names are other ones, so that they are new to both tables or to none.
    have hlater : Properties.newNames theirs next = Properties.newNames theirs table := by
      refine List.filter_congr fun name hname => ?_
      obtain ⟨other, hother, rfl⟩ := List.mem_map.mp hname
      rw [find?_withProperty ?_ hnext]
      rw [PropertyName.same_comm]
      exact Properties.find?_eq_none.mp hnew other hother
    rw [ih hrest h, hlater, names_withProperty hnext, Properties.newNames, Properties.newNames,
      Properties.names_cons]
    cases hfound : Properties.find? entry.1 table with
    | none => simp [hfound]
    | some property => simp [hfound]

/-- A shape composed of two others has their names and their bases, those of the first one in
front, and each of the others once. -/
structure Adds (mine theirs whole : Schema) : Prop where
  names : Properties.names whole.properties =
    Properties.names mine.properties ++ Properties.newNames theirs.properties mine.properties
  heritage : whole.heritage = mine.bases ++ (theirs.bases.filter (· ∉ mine.bases)).eraseDups

/-- A merge adds the names and the bases that are new, in their order. -/
theorem adds_of_merge (hmine : Regular mine) (htheirs : Regular theirs)
    (hkind : mine.kind ≠ .reference) (h : mine.merge theirs = .ok whole) :
    Adds mine theirs whole := by
  obtain ⟨hbases, htable⟩ := parts_of_merge hmine htheirs hkind h
  exact ⟨names_foldlM htheirs.distinct htable, hbases.trans (foldl_addBase _ _)⟩

theorem adds_of_joined (hmine : Regular mine) (htheirs : Regular theirs)
    (h : joined mine theirs = .ok whole) : Adds mine theirs whole := by
  obtain ⟨target, merged, htarget, hmerged, rfl⟩ := joined_eq_ok.mp h
  obtain ⟨hbases, hproperties⟩ := same_of_asTarget hmine htarget
  have hadds := adds_of_merge (hmine.asTarget htarget) htheirs (asTarget_kind_ne htarget) hmerged
  exact ⟨hproperties ▸ hadds.names, hbases ▸ hadds.heritage⟩

theorem joined_description (h : joined mine theirs = .ok whole) :
    whole.description = mine.description.orElse theirs.description := by
  obtain ⟨target, merged, htarget, hmerged, rfl⟩ := joined_eq_ok.mp h
  show merged.description.orElse theirs.description = _
  rw [(flags_of_asTarget_merge htarget hmerged).2]

/-! ## Paths -/

theorem at?_cons (name : PropertyName) (path : List PropertyName) (schema : Schema) :
    schema.at? (name :: path) = (Properties.find? name schema.properties).bind (at? path) :=
  rfl

theorem joinedAt_none_left (theirs : Option Schema) : JoinedAt none theirs theirs := by
  cases theirs with
  | none => exact .absent
  | some schema => exact .theirs schema

/-- Below its root a composition is joined at every path, as it is at every name. -/
theorem joinedAt_at? (hmine : Regular mine) (htheirs : Regular theirs) (h : Unites mine theirs whole)
    {path : List PropertyName} (hpath : path ≠ []) :
    JoinedAt (mine.at? path) (theirs.at? path) (whole.at? path) := by
  induction path generalizing mine theirs whole with
  | nil => exact absurd rfl hpath
  | cons name path ih =>
    have hname := h.properties name
    rw [at?_cons, at?_cons, at?_cons]
    -- The first name of the path is joined, and the rest of it is a path inside what was joined.
    generalize hleft : Properties.find? name mine.properties = left at hname
    generalize hright : Properties.find? name theirs.properties = right at hname
    generalize Properties.find? name whole.properties = found at hname
    cases hname with
    | absent => exact .absent
    | mine schema => exact joinedAt_none _
    | theirs schema => exact joinedAt_none_left _
    | both hwhole =>
      have hregular := hmine.table.find? hleft
      have hpartner := htheirs.table.find? hright
      cases path with
      | nil => exact .both hwhole
      | cons inner path =>
        exact ih hregular hpartner (unites_of_joined hregular hpartner hwhole)
          (List.cons_ne_nil inner path)

theorem Regular.at? (h : Regular mine) {path : List PropertyName} {inner : Schema}
    (hinner : mine.at? path = some inner) : Regular inner := by
  induction path generalizing mine with
  | nil => exact Option.some.inj hinner ▸ h
  | cons name path ih =>
    obtain ⟨property, hfound, hinner⟩ := Option.bind_eq_some_iff.mp hinner
    exact ih (h.table.find? hfound) hinner

/-- A property that two properties of one name become. -/
structure Settles (mine theirs whole : Schema) : Prop where
  required : whole.required = (mine.required || theirs.required)
  description : whole.description = mine.description.orElse theirs.description

/-- What is at a path of a composition, from what the two sides have there. -/
inductive ComposedAt (path : List PropertyName) :
    Option Schema → Option Schema → Option Schema → Prop where
  | absent : ComposedAt path none none none
  | mine (schema : Schema) : ComposedAt path (some schema) none (some schema)
  | theirs (schema : Schema) : ComposedAt path none (some schema) (some schema)
  | both {mine theirs whole : Schema} (adds : Adds mine theirs whole)
      (settles : path ≠ [] → Settles mine theirs whole) :
      ComposedAt path (some mine) (some theirs) (some whole)

namespace ComposedAt

variable {path : List PropertyName} {left right found : Option Schema}

theorem isSome (h : ComposedAt path left right found) : found.isSome ↔ left.isSome ∨ right.isSome := by
  cases h <;> simp

theorem eq_mine (h : ComposedAt path left right found) (hnone : right = none) : found = left := by
  subst hnone
  cases h <;> rfl

theorem eq_theirs (h : ComposedAt path left right found) (hnone : left = none) : found = right := by
  subst hnone
  cases h <;> rfl

end ComposedAt

/-- Along every path a merge finds what the one shape has there, what the other has, or the two
joined. -/
theorem composedAt (hmine : Regular mine) (htheirs : Regular theirs) (hkind : mine.kind ≠ .reference)
    (h : mine.merge theirs = .ok whole) (path : List PropertyName) :
    ComposedAt path (mine.at? path) (theirs.at? path) (whole.at? path) := by
  by_cases hroot : path = []
  · subst hroot
    exact .both (adds_of_merge hmine htheirs hkind h) fun hpath => absurd rfl hpath
  · have hjoined := joinedAt_at? hmine htheirs (unites_of_merge hmine htheirs hkind h) hroot
    generalize hleft : mine.at? path = left at hjoined
    generalize hright : theirs.at? path = right at hjoined
    generalize whole.at? path = found at hjoined
    cases hjoined with
    | absent => exact .absent
    | mine schema => exact .mine schema
    | theirs schema => exact .theirs schema
    | both hwhole =>
      exact .both (adds_of_joined (hmine.at? hleft) (htheirs.at? hright) hwhole)
        fun _ => ⟨joined_required hwhole, joined_description hwhole⟩

theorem opened_flags (schema : Schema) :
    schema.opened.name = schema.name ∧ schema.opened.description = schema.description ∧
      schema.opened.required = schema.required ∧ schema.opened.deprecated = schema.deprecated ∧
      schema.opened.nullable = schema.nullable := by
  unfold opened
  split <;> exact ⟨rfl, rfl, rfl, rfl, rfl⟩

/-- A composition loses nothing and adds nothing. A path is there if one of the sides has it, and
what only one side has is unchanged. Where both have a shape, the names and the bases of the one
side are followed by those that the other side adds, and a property is settled from both. The name,
the description and the flags of the root stay. -/
theorem composed_paths (hmine : Regular mine) (htheirs : Regular theirs) (hkind : mine.kind ≠ .reference)
    (h : mine.merge theirs = .ok whole) :
    (∀ path, (whole.at? path).isSome ↔ (mine.at? path).isSome ∨ (theirs.at? path).isSome) ∧
    (∀ path, theirs.at? path = none → whole.at? path = mine.at? path) ∧
    (∀ path, mine.at? path = none → whole.at? path = theirs.at? path) ∧
    (∀ path left right, mine.at? path = some left → theirs.at? path = some right →
      ∃ union, whole.at? path = some union ∧ Adds left right union ∧
        (path ≠ [] → Settles left right union)) ∧
    whole.name = mine.name ∧ whole.description = mine.description ∧
      whole.required = mine.required ∧ whole.deprecated = mine.deprecated ∧
      whole.nullable = mine.nullable := by
  have hat := composedAt hmine htheirs hkind h
  refine ⟨fun path => (hat path).isSome, fun path => (hat path).eq_mine,
    fun path => (hat path).eq_theirs, fun path left right hleft hright => ?_, ?_⟩
  · have hpath := hat path
    rw [hleft, hright] at hpath
    generalize whole.at? path = found at hpath ⊢
    cases hpath with
    | both hadds hsettles => exact ⟨_, rfl, hadds, hsettles⟩
  · have hframe := merge_frame h
    rw [hframe.name, hframe.description, hframe.required, hframe.deprecated, hframe.nullable]
    exact opened_flags mine

/-- An owner with a pet of a shared definition. -/
def owner : Schema :=
  { properties := [(.text "name", { kind := .string }),
      (.text "pet", { kind := .reference, name := "Pet", description := .string "the pet" })] }

def collared : Schema :=
  { description := .string "a pet", required := true, heritage := ["Animal", "Pet"],
    properties := [(.text "collar", empty)] }

def keeper : Schema :=
  { description := .string "a keeper", heritage := ["Person"],
    properties := [(.text "pet", collared), (.text "since", { kind := .number })] }

theorem regular_owner : Regular owner :=
  .intro ⟨by decide, by decide⟩ (by decide) (by decide) (by simp [owner])
    (by simpa [owner] using ⟨.leaf rfl rfl rfl rfl, .leaf rfl rfl rfl rfl⟩) (by simp [owner])

theorem regular_keeper : Regular keeper := by
  have hcollared : Regular collared :=
    .intro ⟨by decide, by decide⟩ (by decide) (by decide) (by simp [collared])
      (by simpa [collared] using .leaf rfl rfl rfl rfl) (by simp [collared])
  exact .intro ⟨by decide, by decide⟩ (by decide) (by decide) (by simp [keeper])
    (by simpa [keeper] using ⟨hcollared, .leaf rfl rfl rfl rfl⟩) (by simp [keeper])

/-- The theorem where a reference and an object of one name meet. -/
theorem composed_paths_keeper :
    Regular owner ∧ Regular keeper ∧ owner.kind ≠ .reference ∧
    ∃ whole pet, owner.merge keeper = .ok whole ∧ whole.at? [.text "pet"] = some pet ∧
      Adds owner keeper whole ∧ whole.heritage = ["Person"] ∧
      pet.heritage = ["Pet", "Animal"] ∧ pet.required = true ∧
      pet.description = .string "the pet" ∧
      whole.at? [.text "pet", .text "collar"] = some empty ∧
      whole.at? [.text "name", .text "first"] = none ∧ whole.description = .string "" := by
  obtain ⟨whole, hwhole⟩ : ∃ whole, owner.merge keeper = .ok whole :=
    exists_ok_of_isSome (by decide)
  obtain ⟨_, hmine, htheirs, hboth, _, hdescription, _⟩ :=
    composed_paths regular_owner regular_keeper (by decide) hwhole
  obtain ⟨root, hroot, hadds, _⟩ := hboth [] owner keeper rfl rfl
  obtain ⟨pet, hpet, hpetAdds, hpetSettles⟩ := hboth [.text "pet"] _ collared rfl rfl
  cases hroot
  refine ⟨regular_owner, regular_keeper, by decide, whole, pet, hwhole, hpet, hadds, hadds.heritage,
    hpetAdds.heritage, (hpetSettles (by simp)).required, (hpetSettles (by simp)).description, ?_, ?_,
    hdescription⟩
  · exact htheirs [.text "pet", .text "collar"] rfl
  · exact hmine [.text "name", .text "first"] rfl

end Schema

end ApiTypes
