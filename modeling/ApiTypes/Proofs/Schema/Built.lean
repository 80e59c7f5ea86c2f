import ApiTypes.Proofs.Schema.Fragment
import ApiTypes.Proofs.Schema.Lookup
import ApiTypes.Proofs.Schema.Regular

/-!
# The shapes that can be built

`Built` has one case for each way in which a shape comes about while a fragment is built. An
invariant of the built shapes is an induction over it; the recursion over fragments is gone through
once, in `built_ofFragment`.
-/

namespace ApiTypes

namespace Schema

inductive Built (scope : Scope) : Schema → Prop where
  | openObject : Built scope openObject
  | empty : Built scope empty
  | resolved {target : String} {schema : Schema} (h : scope.resolve target = .ok schema) :
      Built scope schema
  /-- A fragment that is no reference and no composition. -/
  | plain {members : Members} {kind : Kind} {listed : Bool} {items additional : Option Schema}
      {properties : List (PropertyName × Schema)} {literals : List Json × Bool}
      (hkind : Kind.ofFragment members = .ok (kind, listed))
      (hliterals : enumeration members = .ok literals)
      (harray : kind ≠ .array → items = none)
      (hobject : kind ≠ .object → properties = [] ∧ additional = none)
      (hnames : ∀ entry ∈ properties, ∃ name, entry.1 = .text name)
      (hitems : ∀ item ∈ items, Built scope item)
      (hproperties : ∀ entry ∈ properties, Built scope entry.2)
      (hadditional : ∀ rest ∈ additional, Built scope rest) :
      Built scope (plainShape members kind listed items
        (Properties.ofList properties, additional) literals)
  | merged {self other result : Schema} (hself : Built scope self) (hother : Built scope other)
      (h : self.merge other = .ok result) : Built scope result
  /-- A composition with the description and the flag of the schema that composes. -/
  | composed {schema : Schema} (h : Built scope schema) (members : Members) :
      Built scope (composed members schema)
  /-- A property that its parent may list as required. -/
  | property {schema : Schema} (h : Built scope schema) (required : Bool) :
      Built scope { schema with required }

variable {scope : Scope}

/-- The entries of a table before the last of a name is chosen. -/
def BuiltEntries (scope : Scope) (list : List (PropertyName × Schema)) : Prop :=
  ∀ entry ∈ list, (∃ name, entry.1 = .text name) ∧ Built scope entry.2

def BuiltTable (scope : Scope) (table : Properties × Option Schema) : Prop :=
  ∃ list, Properties.ofList list = table.1 ∧ BuiltEntries scope list ∧
    ∀ rest ∈ table.2, Built scope rest

theorem built_ofPlain {members : List (String × Json)} {schema : Schema}
    (ihItems : ∀ {items}, ofItems scope members = .ok items → ∀ item ∈ items, Built scope item)
    (ihTable : ∀ {table}, ofTable scope members = .ok table → BuiltTable scope table)
    (h : ofPlain scope members = .ok schema) : Built scope schema := by
  rcases ofPlain_eq_ok.mp h with
    ⟨kind, listed, hkind, items, hitems, ⟨properties, additional⟩, htable, literals, hliterals, rfl⟩
  -- Only an array has items, and only an object has a table.
  have harray : (kind ≠ .array → items = none) ∧ ∀ item ∈ items, Built scope item := by
    split at hitems
    · exact ⟨fun hne => absurd ‹_› hne, ihItems hitems⟩
    · cases hitems
      exact ⟨fun _ => rfl, by simp⟩
  split at htable
  · rename_i hobject
    rcases ihTable htable with ⟨list, hlist, hentries, hrest⟩
    cases hlist
    exact .plain hkind hliterals harray.1 (absurd hobject)
      (fun entry hmem => (hentries entry hmem).1) harray.2
      (fun entry hmem => (hentries entry hmem).2) hrest
  · cases htable
    show Built scope (plainShape members kind listed items (Properties.ofList [], none) literals)
    exact .plain hkind hliterals harray.1 (fun _ => ⟨rfl, rfl⟩) (by simp) harray.2 (by simp)
      (by simp)

theorem built_ofTable {members : List (String × Json)} {table : Properties × Option Schema}
    (ihProperties : ∀ required fragments, members.lookup "properties" = some (.object fragments) →
      ∀ {list}, ofProperties scope required fragments = .ok list → BuiltEntries scope list)
    (ihAdditional : ∀ fragment, members.lookup "additionalProperties" = some (.object fragment) →
      ∀ {rest}, ofFragment scope (.object fragment) = .ok rest → Built scope rest)
    (h : ofTable scope members = .ok table) : BuiltTable scope table := by
  rcases ofTable_eq_ok.mp h with ⟨required, _, list, hlist, additional, hadditional, rfl⟩
  refine ⟨list, rfl, ?_, ?_⟩
  · unfold tableShapes at hlist
    split at hlist
    · cases hlist
      simp [BuiltEntries]
    · exact ihProperties required _ ‹_› hlist
    · simp [BuiltEntries, noTable_eq_ok hlist]
  · unfold furtherShape at hadditional
    split at hadditional
    · cases hadditional
      simpa using .openObject
    · rcases map_eq_ok.mp hadditional with ⟨rest, hrest, rfl⟩
      simpa using ihAdditional _ ‹_› hrest
    · cases hadditional
      simp

theorem built_ofComposition {members : List (String × Json)} {schema : Schema}
    (ihBranches : ∀ branches, members.lookup "allOf" = some (.array branches) →
      ∀ {whole}, ofBranches scope empty branches = .ok whole → Built scope whole)
    (ihSiblings : ∀ {own}, ofPlain scope (siblings members) = .ok own → Built scope own)
    (h : ofComposition scope members = .ok schema) : Built scope schema := by
  rcases ofComposition_eq_ok.mp h with ⟨whole, hwhole, h⟩
  have hbuilt : Built scope whole := by
    unfold branchesShape at hwhole
    split at hwhole
    · exact ihBranches _ ‹_› hwhole
    · exact ofNoBranches_eq_ok hwhole ▸ .empty
  split at h
  · rcases h with ⟨own, hown, h⟩
    exact hbuilt.merged (ihSiblings hown) h
  · exact h ▸ hbuilt

/-- Every shape of a fragment is built: by induction on the fragment, a case to each way of reading
it. -/
theorem built_ofFragment {value : Json} {schema : Schema}
    (h : ofFragment scope value = .ok schema) : Built scope schema := by
  revert schema
  refine (ofFragment.mutual_induct
    (fun value => ∀ {schema}, ofFragment scope value = .ok schema → Built scope schema)
    (fun members => ∀ {schema}, ofPlain scope members = .ok schema → Built scope schema)
    (fun members => ∀ {items}, ofItems scope members = .ok items → ∀ item ∈ items, Built scope item)
    (fun members => ∀ {table}, ofTable scope members = .ok table → BuiltTable scope table)
    (fun required table => ∀ {list}, ofProperties scope required table = .ok list →
      BuiltEntries scope list)
    (fun members => ∀ {schema}, ofComposition scope members = .ok schema → Built scope schema)
    (fun whole branches => ∀ {schema}, Built scope whole →
      ofBranches scope whole branches = .ok schema → Built scope schema)
    ?_ ?_ ?_ ?_ ?_ ?_ ?_ ?_ ?_ ?_ ?_ ?_ ?_ ?_ ?_ ?_).1 value
  -- `ofFragment`
  · intro schema h
    rw [ofFragment] at h
    exact Except.ok.inj h ▸ .openObject
  · intro schema h
    rw [ofFragment] at h
    exact Except.ok.inj h ▸ .openObject
  · intro members target href schema h
    exact .resolved (ofFragment_reference href ▸ h)
  · intro members href hall ih schema h
    rw [ofFragment_composition href hall, map_eq_ok] at h
    rcases h with ⟨whole, hwhole, rfl⟩
    exact (ih hwhole).composed members
  · intro members href hall ih schema h
    exact ih (ofFragment_plain href (by simpa using hall) ▸ h)
  · intro value hnull htrue hobject schema h
    rw [ofFragment] at h
    · cases h
    · exact hnull
    · exact htrue
    · exact hobject
  -- `ofPlain` and `ofItems`
  · intro members ihTable ihItems schema h
    exact built_ofPlain ihItems ihTable h
  · intro members hnone items h
    rw [ofItems_eq, hnone] at h
    cases h
    simp
  · intro members hnull items h
    rw [ofItems_eq, hnull] at h
    cases h
    simp
  · intro members fragment hne hsome ih items h
    rw [ofItems_eq, hsome, itemsShape_some hne, map_eq_ok] at h
    rcases h with ⟨item, hitem, rfl⟩
    simpa using ih hitem
  -- `ofTable` and `ofProperties`
  · intro members ihProperties ihAdditional table h
    exact built_ofTable ihProperties ihAdditional h
  · intro required list h
    rw [ofProperties] at h
    cases h
    simp [BuiltEntries]
  · intro required name fragment table ihFragment ihTable list h
    rw [ofProperties, bind_eq_ok] at h
    rcases h with ⟨property, hproperty, h⟩
    rcases bind_eq_ok.mp h with ⟨rest, hrest, h⟩
    cases h
    exact List.forall_mem_cons.mpr
      ⟨⟨⟨name, rfl⟩, (ihFragment hproperty).property _⟩, ihTable hrest⟩
  -- `ofComposition` and `ofBranches`
  · intro members ihBranches ihSiblings schema h
    exact built_ofComposition (fun branches hlookup _ => ihBranches branches hlookup .empty)
      ihSiblings h
  · intro whole schema hwhole h
    rw [ofBranches] at h
    exact Except.ok.inj h ▸ hwhole
  · intro whole branch branches ihBranch ihBranches schema hwhole h
    rw [ofBranches, bind_eq_ok] at h
    rcases h with ⟨part, hpart, h⟩
    rcases bind_eq_ok.mp h with ⟨next, hnext, h⟩
    exact ihBranches next (hwhole.merged (ihBranch hpart) hnext) h

/-! ## The flag of a shape itself -/

theorem merge_foldlM_required {a result : Schema} {parts : List Schema}
    (h : parts.foldlM merge a = .ok result) : result.required = a.required := by
  have hstep : ∀ part ∈ parts, ∀ self next : Schema, self.required = a.required →
      self.merge part = .ok next → next.required = a.required := by
    intro part _ self next hself hnext
    rw [(merge_flags hnext).1, hself]
  exact foldlM_invariant hstep rfl h

/-- What a fragment is built to is not required until it becomes a property. -/
theorem required_of_ofFragment {value : Json} {schema : Schema}
    (h : ofFragment scope value = .ok schema) : schema.required = false := by
  have hbranches : ∀ {value whole}, branchesShape scope value = .ok whole →
      whole.required = false := by
    intro value whole h
    unfold branchesShape at h
    split at h
    · rcases ofBranches_eq_ok.mp h with ⟨parts, _, hfold⟩
      exact merge_foldlM_required hfold
    · rw [ofNoBranches_eq_ok h]
      rfl
  -- A merge keeps the flag of what is merged into, so that of a composition is that of `empty`.
  rcases ofFragment_cases h with ⟨_, rfl⟩ | ⟨members, _, ⟨target, _, h⟩ | ⟨href, h⟩⟩
  · rfl
  · rcases resolve_eq_ok h with rfl | ⟨_, _, _, rfl⟩ <;> rfl
  · split at h
    · rcases h with ⟨whole, hwhole, rfl⟩
      rcases ofComposition_eq_ok.mp hwhole with ⟨base, hbase, hown⟩
      show whole.required = false
      split at hown
      · rcases hown with ⟨own, _, hmerge⟩
        rw [(merge_flags hmerge).1, hbranches hbase]
      · rw [← hown, hbranches hbase]
    · rcases ofPlain_eq_ok.mp h with ⟨_, _, _, _, _, _, _, _, _, rfl⟩
      rfl

/-! ## Regularity -/

theorem kind_of_tag {tag : Json} {kind : Kind} (h : Kind.ofTag tag = .ok kind) :
    kind.isClosed ∨ kind = .object := by
  have htags : ∀ entry ∈ Kind.tags, entry.2.isClosed ∨ entry.2 = .object := by decide
  unfold Kind.ofTag at h
  split at h
  · split at h
    · rename_i hlookup
      cases h
      exact htags _ (mem_of_lookup hlookup)
    · cases h
  · split at h <;> cases h

theorem kind_of_literal {value : Json} {kind : Kind} (h : Kind.ofLiteral value = .ok kind) :
    kind.isClosed := by
  unfold Kind.ofLiteral at h
  split at h <;> cases h <;> rfl

/-- A declared type is a closed kind or the object, never the void or a reference. -/
theorem kind_of_ofFragment {members : Members} {kind : Kind} {listed : Bool}
    (h : Kind.ofFragment members = .ok (kind, listed)) : kind.isClosed ∨ kind = .object := by
  rw [Kind.ofFragment, bind_eq_ok] at h
  rcases h with ⟨⟨tag, nullable⟩, _, h⟩
  rcases ite_bind_eq_ok.mp h with ⟨found, hfound, h⟩
  cases h
  split at hfound
  · rcases bind_eq_ok.mp hfound with ⟨values, _, hfound⟩
    split at hfound
    · exact .inl (kind_of_literal hfound)
    · exact .inr (Except.ok.inj hfound).symm
  · exact kind_of_tag hfound

/-- Whatever is built is regular, which is what merging asks for. -/
theorem Built.regular {schema : Schema} (h : Built scope schema) : Regular schema := by
  induction h with
  | openObject => exact .leaf rfl rfl rfl rfl
  | empty => exact .leaf rfl rfl rfl rfl
  | resolved h =>
    rcases resolve_eq_ok h with rfl | ⟨_, _, _, rfl⟩
    · exact .leaf rfl rfl rfl rfl
    · exact .leaf rfl rfl rfl rfl
  | @plain members kind listed items additional properties literals hkind _ _ hobject hnames _ _ _
      ihItems ihProperties ihAdditional =>
    have husable : ∀ entry ∈ properties, entry.1.same entry.1 = true := by
      intro entry hmem
      rcases hnames entry hmem with ⟨name, hname⟩
      rw [hname, PropertyName.same_text]
    -- No tag and no literal makes an empty shape or a reference, so that `plain` is an object or
    -- closed.
    refine .intro (Properties.distinct_ofList husable) (fun hne => ?_) (fun hempty => ?_) ihItems
      (fun entry hmem => ?_) ihAdditional
    · cases (hobject hne).1
      exact ⟨rfl, rfl⟩
    · have hknown := kind_of_ofFragment hkind
      cases hempty
      simp [Kind.isClosed] at hknown
    · rcases Properties.mem_ofList hmem with ⟨source, hsource, heq⟩
      exact heq ▸ ihProperties source hsource
  | merged _ _ h ihSelf ihOther => exact ihSelf.merge ihOther h
  | composed _ members ih => exact ih.reflagged rfl rfl rfl rfl rfl
  | property _ required ih => exact ih.reflagged rfl rfl rfl rfl rfl

theorem regular_ofParameter {fragment : Json} {schema : Schema}
    (h : ofParameter scope fragment = .ok schema) : Regular schema := by
  simp only [ofParameter, bind_eq_ok] at h
  obtain ⟨members, _, built, hbuilt, h⟩ := h
  cases h
  exact (built_ofFragment hbuilt).regular.reflagged rfl rfl rfl rfl rfl

theorem regular_of_parts {branches : List Json} {parts : List Schema}
    (h : List.Forall₂ (fun branch part => ofFragment scope branch = .ok part) branches parts) :
    ∀ part ∈ parts, Regular part := by
  induction h with
  | nil => simp
  | cons hpart _ ih => exact List.forall_mem_cons.mpr ⟨(built_ofFragment hpart).regular, ih⟩

/-- Merging branches into a regular shape leaves it regular. -/
theorem Regular.ofBranches {a result : Schema} {branches : List Json} (ha : Regular a)
    (h : Schema.ofBranches scope a branches = .ok result) : Regular result := by
  rcases ofBranches_eq_ok.mp h with ⟨parts, hparts, hfold⟩
  exact ha.foldlM_merge (regular_of_parts hparts) hfold

theorem regular_of_branchesShape {value : Option Json} {whole : Schema}
    (h : branchesShape scope value = .ok whole) : Regular whole := by
  have hempty : Regular empty := .leaf rfl rfl rfl rfl
  unfold branchesShape at h
  split at h
  · exact hempty.ofBranches h
  · rw [ofNoBranches_eq_ok h]
    exact hempty

end Schema

end ApiTypes
