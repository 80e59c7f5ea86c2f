import ApiTypes.Proofs.Schema.Associative
import ApiTypes.Proofs.Schema.Built
import ApiTypes.Proofs.TypeScript.Trimmed

/-!
# Nested compositions

A composition among the branches of another can be replaced by its own branches. Where the first
is built the second is too, with the same meaning and the same text.
-/

namespace ApiTypes

namespace Schema

variable {scope : Scope}

/-- Branches are merged in succession, so a list of them may be cut anywhere. -/
theorem ofBranches_append {whole result : Schema} {before after : List Json} :
    ofBranches scope whole (before ++ after) = .ok result ↔
      ∃ mid, ofBranches scope whole before = .ok mid ∧ ofBranches scope mid after = .ok result := by
  induction before generalizing whole with
  | nil => simp [ofBranches]
  | cons branch before ih =>
    rw [List.cons_append, ofBranches, ofBranches]
    simp only [bind_eq_ok, ih]
    tauto

theorem foldlM_merge_kind_ne {a result : Schema} {parts : List Schema} (ha : a.kind ≠ .reference)
    (h : parts.foldlM merge a = .ok result) : result.kind ≠ .reference :=
  foldlM_invariant (fun _ _ _ _ => merge_kind_ne) ha h

/-- Merging what parts make together gives what merging them in turn gives. -/
theorem merge_foldlM {a inner result : Schema} {parts : List Schema} (ha : Regular a)
    (hparts : ∀ part ∈ parts, Regular part) (hinner : parts.foldlM merge empty = .ok inner)
    (h : a.merge inner = .ok result) :
    ∃ other, parts.foldlM merge a.opened = .ok other ∧ Agree result other := by
  -- The last part is split off: the parts before it make a shape of their own, to which the
  -- induction hypothesis applies once the three are regrouped.
  induction parts using List.reverseRecOn generalizing inner result with
  | nil =>
    cases hinner
    cases (merge_empty rfl).symm.trans h
    exact ⟨a.opened, rfl, .refl _⟩
  | append_singleton parts last ih =>
    rw [List.forall_mem_append, List.forall_mem_singleton] at hparts
    rw [List.foldlM_append, bind_eq_ok] at hinner
    rcases hinner with ⟨first, hfirst, hlast⟩
    have hstep : first.merge last = .ok inner := (bind_pure _).symm.trans hlast
    have hempty : Regular empty := .leaf rfl rfl rfl rfl
    rcases hparts.2.regroups ha
        (hempty.foldlM_merge hparts.1 hfirst) (foldlM_merge_kind_ne (by decide) hfirst) hstep h with
      ⟨both, hboth, other, hother, hagree⟩
    rcases ih hparts.1 hfirst hboth with ⟨turn, hturn, hagreeTurn⟩
    rcases agree_merge
        (ha.merge (hempty.foldlM_merge hparts.1 hfirst) hboth)
        (ha.opened.foldlM_merge hparts.1 hturn) hparts.2 hagreeTurn hother with
      ⟨final, hfinal, hagreeFinal⟩
    refine ⟨final, ?_, hagree.trans hagreeFinal⟩
    rw [List.foldlM_append, hturn, ok_bind]
    exact (bind_pure _).trans hfinal

/-- The same without opening what is merged into, as there is a part that opens it. -/
theorem merge_foldlM_cons {a inner result part : Schema} {parts : List Schema} (ha : Regular a)
    (hparts : ∀ other ∈ part :: parts, Regular other)
    (hinner : (part :: parts).foldlM merge empty = .ok inner) (h : a.merge inner = .ok result) :
    ∃ other, (part :: parts).foldlM merge a = .ok other ∧ Agree result other := by
  rcases merge_foldlM ha hparts hinner h with ⟨other, hother, hagree⟩
  rw [List.foldlM_cons, merge_opened] at hother
  exact ⟨other, hother, hagree⟩

/-- Composing a composition gives what composing its branches in its place gives. -/
theorem ofBranches_nested {start whole : Schema} {inner : List Json} (hstart : Regular start)
    (hinner : inner ≠ []) (h : ofBranches scope start [allOf inner] = .ok whole) :
    ∃ other, ofBranches scope start inner = .ok other ∧ Agree whole other := by
  rcases List.exists_cons_of_ne_nil hinner with ⟨first, rest, rfl⟩
  rw [ofBranches, bind_eq_ok] at h
  rcases h with ⟨part, hpart, h⟩
  rcases bind_eq_ok.mp h with ⟨next, hmerge, h⟩
  rw [ofBranches] at h
  cases h
  rw [ofFragment_allOf] at hpart
  rcases ofBranches_eq_ok.mp hpart with ⟨parts, hparts, hfold⟩
  have hregular := regular_of_parts hparts
  cases hparts with
  | cons hfirst hrest =>
    rcases merge_foldlM_cons hstart hregular hfold hmerge with ⟨other, hother, hagree⟩
    exact ⟨other, ofBranches_eq_ok.mpr ⟨_, .cons hfirst hrest, hother⟩, hagree⟩

/-- A nested composition can be flattened: the branches of a branch take its place. -/
theorem ofFragment_nested_allOf {before inner after : List Json} {schema : Schema}
    (hinner : inner ≠ [])
    (h : ofFragment scope (allOf (before ++ [allOf inner] ++ after)) = .ok schema) :
    ∃ flat, ofFragment scope (allOf (before ++ inner ++ after)) = .ok flat ∧
      flat.trimmed = schema.trimmed ∧
      (∀ depth, TypeScript.typeText depth flat = TypeScript.typeText depth schema) ∧
      ∀ emitEnums name, TypeScript.declaration emitEnums flat name =
        TypeScript.declaration emitEnums schema name := by
  -- Text and declaration depend on the trimmed shape alone, so that agreement is all there is to show.
  suffices hflat : ∃ flat, ofFragment scope (allOf (before ++ inner ++ after)) = .ok flat ∧
      Agree schema flat by
    rcases hflat with ⟨flat, hflat, hagree⟩
    have htrimmed := (trimmed_eq_iff.mpr hagree).symm
    refine ⟨flat, hflat, htrimmed, fun depth => ?_, fun emitEnums name => ?_⟩
    · rw [← TypeScript.typeText_trimmed, htrimmed, TypeScript.typeText_trimmed]
    · rw [← TypeScript.declaration_trimmed, htrimmed, TypeScript.declaration_trimmed]
  rw [ofFragment_allOf, ofBranches_append] at h
  rcases h with ⟨whole, hwhole, hafter⟩
  rcases ofBranches_append.mp hwhole with ⟨start, hstart, hnested⟩
  have hregular : Regular start := Regular.ofBranches (.leaf rfl rfl rfl rfl) hstart
  rcases ofBranches_nested hregular hinner hnested with ⟨other, hother, hagree⟩
  rcases ofBranches_eq_ok.mp hafter with ⟨parts, hparts, hfold⟩
  rcases agree_foldlM_merge (hregular.ofBranches hnested)
      (hregular.ofBranches hother) (regular_of_parts hparts) hagree hfold with
    ⟨flat, hflat, hagreeFlat⟩
  refine ⟨flat, ?_, hagreeFlat⟩
  rw [ofFragment_allOf, List.append_assoc, ofBranches_append]
  refine ⟨start, hstart, ofBranches_append.mpr ⟨other, hother, ?_⟩⟩
  exact ofBranches_eq_ok.mpr ⟨parts, hparts, hflat⟩

/-! ## A composition in a composition -/

/-- A description that declares one definition. -/
def petScope : Scope where
  document := { dialect := .swagger2, members := [] }
  names := ["Pet"]

def petReference : Json :=
  .object [("$ref", .string "#/definitions/Pet")]

def named : Json :=
  .object [("properties", .object [("name", .object [("type", .string "string")])])]

theorem ofFragment_named : ofFragment petScope named =
    .ok { properties := [(.text "name", { kind := .string })] } := by
  have hname : ofFragment petScope (.object [("type", .string "string")]) =
      .ok { kind := .string } := by
    rw [ofFragment_plain rfl rfl, ofPlain]
    rfl
  rw [named, ofFragment_plain rfl rfl]
  exact ofPlain_eq_ok.mpr ⟨.object, false, rfl, none, rfl, (_, none),
    ofTable_eq_ok.mpr ⟨[], rfl, _, ofProperties_eq_ok.mpr (.cons ⟨_, hname, rfl⟩ .nil), none, rfl,
      rfl⟩, ([], false), rfl, rfl⟩

theorem ofFragment_named_pet :
    ofFragment petScope (allOf ([named] ++ [allOf [petReference, named]] ++ [])) =
      .ok { properties := [(.text "name", { kind := .string })], heritage := ["Pet"] } := by
  have hreference : ofFragment petScope petReference = .ok (Schema.reference "Pet") := by
    rw [petReference, ofFragment_reference rfl]
    rfl
  simp only [List.append_nil, List.cons_append, List.nil_append, ofFragment_allOf, ofBranches,
    ofFragment_named, hreference, ok_bind]
  rfl

/-- The theorem at a composition whose branches declare a property twice. -/
theorem ofFragment_nested_allOf_pet :
    ∃ schema flat,
      ofFragment petScope (allOf ([named] ++ [allOf [petReference, named]] ++ [])) = .ok schema ∧
      ofFragment petScope (allOf ([named] ++ [petReference, named] ++ [])) = .ok flat ∧
      flat.trimmed = schema.trimmed := by
  rcases ofFragment_nested_allOf (List.cons_ne_nil _ _) ofFragment_named_pet with
    ⟨flat, hflat, htrimmed, _⟩
  exact ⟨_, flat, ofFragment_named_pet, hflat, htrimmed⟩

end Schema

end ApiTypes
