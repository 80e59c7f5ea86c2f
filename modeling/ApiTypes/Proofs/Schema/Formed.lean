import ApiTypes.Proofs.Schema.Legible
import ApiTypes.Proofs.Schema.References
import ApiTypes.Proofs.Schema.Within

/-!
# Which fields a built shape has

A shape is one record for all kinds. In what is built from a fragment, the kind of a shape decides
which of its fields hold anything, at every depth. Two fields need a look at the fragment: a merge
hands the shape of further properties on to whatever it merges into, and literals are not compared
with a type tag.
-/

namespace ApiTypes

namespace Fragment

/-- Whether a composition stands in a fragment, at any depth. -/
def Composes (root : Json) : Prop :=
  ∃ members, Within (.object members) root ∧ (Json.object members).reference? = none ∧
    Members.has members "allOf" = true

/-- Whether a fragment within the root gives a shape this kind and these literals: its enumeration
without null, all of one kind. The kind of the shape is that of the type tag, if there is one, and
that of the literals otherwise. -/
def Enumerates (root : Json) (kind : Kind) (literals : List Json) : Prop :=
  ∃ members values tag listed literalKind, Within (.object members) root ∧
    (Members.get members "enum").elements = .ok values ∧ literals = values.filter (!·.isNull) ∧
    (∀ literal ∈ literals, Kind.ofLiteral literal = .ok literalKind) ∧
    Kind.typeTag members = .ok (tag, listed) ∧
    if tag.isNull then kind = literalKind else Kind.ofTag tag = .ok kind

/-- Whether every enumeration beside a type tag has literals of the kind of that tag only. -/
def Conforms (root : Json) : Prop :=
  ∀ members tag listed kind values, Within (.object members) root →
    Kind.typeTag members = .ok (tag, listed) → Kind.ofTag tag = .ok kind →
      (Members.get members "enum").elements = .ok values → ∀ literal ∈ values,
        literal.isNull = false → Kind.ofLiteral literal = .ok kind

theorem Enumerates.kind {root : Json} {kind : Kind} {literals : List Json}
    (h : Enumerates root kind literals) (hsome : literals ≠ []) : kind.isClosed ∨ kind = .object := by
  obtain ⟨members, values, tag, listed, literalKind, _, _, _, hliterals, _, hkind⟩ := h
  split at hkind
  · obtain ⟨literal, hmem⟩ := List.exists_mem_of_ne_nil literals hsome
    exact .inl (hkind ▸ Schema.kind_of_literal (hliterals literal hmem))
  · exact Schema.kind_of_tag hkind

/-- The literals of a conforming document are of the kind of their enumeration. -/
theorem Enumerates.conforming {root : Json} {kind : Kind} {literals : List Json}
    (h : Enumerates root kind literals) (hroot : Conforms root) :
    ∀ literal ∈ literals, Kind.ofLiteral literal = .ok kind := by
  obtain ⟨members, values, tag, listed, literalKind, hwithin, hvalues, rfl, hliterals, htag, hkind⟩ :=
    h
  intro literal hmem
  split at hkind
  · exact hkind ▸ hliterals literal hmem
  · obtain ⟨hvalue, hnull⟩ := List.mem_filter.mp hmem
    exact hroot members tag listed kind values hwithin htag hkind hvalues literal hvalue
      (by simpa using hnull)

end Fragment

namespace Schema

open Fragment

/-- The fields of a shape that go with its kind, in what is built from the root. -/
structure Formed (root : Json) (schema : Schema) : Prop where
  items : schema.items ≠ none → schema.kind = .array
  properties : schema.properties ≠ [] → schema.kind = .object
  heritage : schema.heritage ≠ [] → schema.kind = .object
  distinct : schema.heritage.Nodup
  indexPath : schema.indexPath ≠ [] → schema.kind = .reference
  additional : schema.additional ≠ none →
    schema.kind = .object ∨ (schema.kind.isClosed = true ∧ Composes root)
  literals : schema.enumValues ≠ [] → Enumerates root schema.kind schema.enumValues

variable {scope : Scope} {root : Json} {a b result : Schema}

namespace Formed

/-- A shape without any of the fields that go with a kind. -/
theorem bare (hitems : a.items = none) (hproperties : a.properties = [])
    (hheritage : a.heritage = []) (hpath : a.indexPath = []) (hadditional : a.additional = none)
    (hliterals : a.enumValues = []) : Everywhere (Formed root) a := by
  refine .leaf ?_ hitems hproperties hadditional
  constructor <;> simp [hitems, hproperties, hheritage, hpath, hadditional, hliterals]

theorem reflagged (h : Formed root a) (description : Json) (required deprecated nullable : Bool) :
    Formed root { a with description, required, deprecated, nullable } :=
  ⟨h.items, h.properties, h.heritage, h.distinct, h.indexPath, h.additional, h.literals⟩

theorem opened (h : Formed root a) : Formed root a.opened := by
  by_cases hempty : a.kind = .empty
  · -- The fields of an object stay as they are; those of any other kind an empty shape has not.
    unfold Schema.opened
    rw [if_pos hempty]
    refine ⟨fun hsome => ?_, fun _ => rfl, fun _ => rfl, h.distinct, fun hsome => ?_,
      fun _ => .inl rfl, fun hsome => ?_⟩
    · exact absurd (hempty.symm.trans (h.items hsome)) (by decide)
    · exact absurd (hempty.symm.trans (h.indexPath hsome)) (by decide)
    · have hkind := (h.literals hsome).kind hsome
      simp [hempty, Kind.isClosed] at hkind
  · rwa [opened_of_ne hempty]

end Formed

theorem nodup_addBase {bases : List String} (h : bases.Nodup) (base : String) :
    (addBase bases base).Nodup := by
  unfold addBase
  split
  · exact h
  · rename_i hnew
    refine List.nodup_append.mpr ⟨h, by simp, fun old hold new hmem => ?_⟩
    rw [List.mem_singleton.mp hmem]
    exact fun hsame => hnew (hsame ▸ hold)

theorem nodup_foldl_addBase {bases : List String} (h : bases.Nodup) (more : List String) :
    (more.foldl addBase bases).Nodup := by
  induction more generalizing bases with
  | nil => exact h
  | cons base more ih => exact ih (nodup_addBase h base)

/-! ## Composition -/

namespace Formed

/-- Where a composition stands in the root, a merge keeps shapes formed. What is merged into is no
reference: as a property, a reference gives way to an object that extends it. -/
theorem mergeable (hroot : Composes root) :
    Mergeable (fun target => target.kind ≠ .reference) (Formed root) where
  reflagged := fun description required deprecated nullable h =>
    h.reflagged description required deprecated nullable
  opened := opened
  target := asTarget_kind_ne
  based := fun _ _ => by constructor <;> simp
  extended := fun {schema base} hobject _ h _ =>
    ⟨h.items, h.properties, fun _ => hobject, nodup_addBase h.distinct base.name, h.indexPath,
      h.additional, h.literals⟩
  united := by
    intro a b merged hself _ hmerged _ hbases ha _
    refine ⟨ha.items, fun hsome => ?_, fun hsome => ?_, nodup_foldl_addBase ha.distinct b.heritage,
      ha.indexPath, fun _ => ?_, ha.literals⟩
    · by_contra hobject
      have hnone : a.opened.properties = [] := not_not.mp (mt ha.properties hobject)
      rw [hnone] at hmerged
      exact hsome ((mergeProperties_nil hobject).mp hmerged).2
    · by_contra hobject
      have hnone : a.opened.heritage = [] := not_not.mp (mt ha.heritage hobject)
      have hnothing : b.heritage = [] := hbases.resolve_right hobject
      exact hsome (by rw [hnone, hnothing]; rfl)
    -- The shape of further properties goes on to a target of any kind.
    · by_cases hobject : a.opened.kind = .object
      · exact .inl hobject
      · exact .inr ⟨Kind.isClosed_of_ne hobject (opened_kind_ne a) (opened_kind_ne_reference hself),
          hroot⟩

end Formed

/-! ## Fragments -/

section Fragments

variable {fragment : Json} {schema : Schema} {members : Members}

/-- Without a declared type, the kind is that of the literals. -/
theorem kind_of_untagged {values : List Json} {kind literalKind : Kind}
    (htruthy : (Members.get members "enum").isTruthy = true)
    (hvalues : (Members.get members "enum").elements = .ok values)
    (hall : ∀ literal ∈ values.filter (!·.isNull), Kind.ofLiteral literal = .ok literalKind)
    (hsome : values.filter (!·.isNull) ≠ []) (h : Kind.untagged members = .ok kind) :
    kind = literalKind := by
  rw [Kind.untagged, Json.orElse, if_pos htruthy, hvalues, lift_ok, ok_bind] at h
  -- The kind is that of the first value that is not null, and there is one.
  cases hfound : values.find? (!·.isNull) with
  | none =>
    rw [List.find?_eq_none] at hfound
    exact absurd (List.filter_eq_nil_iff.mpr hfound) hsome
  | some value =>
    rw [hfound] at h
    have hliteral := List.find?_some hfound
    have hmem : value ∈ values.filter (!·.isNull) :=
      List.mem_filter.mpr ⟨List.mem_of_find?_eq_some hfound, hliteral⟩
    exact Except.ok.inj (h.symm.trans (hall value hmem))

theorem literals_eq_ok {values : List Json} {found : List Json × Bool}
    (h : literals values = .ok found) : found.1 = values.filter (!·.isNull) := by
  rw [literals, bind_eq_ok] at h
  obtain ⟨kinds, _, h⟩ := h
  dsimp only at h
  split at h
  · cases h
  · rw [← Except.ok.inj h]

/-- The literals of a plain shape are those of the fragment that it is built from. -/
theorem enumerates_of_members {kind : Kind} {listed : Bool} {literals : List Json × Bool}
    (hwithin : Within (.object members) root) (hkind : Kind.ofFragment members = .ok (kind, listed))
    (hliterals : enumeration members = .ok literals) (hsome : literals.1 ≠ []) :
    Enumerates root kind literals.1 := by
  obtain ⟨literalKind, hall⟩ := kind_of_enumeration hliterals
  -- Only an enumeration that counts as true has literals.
  unfold enumeration at hliterals
  dsimp only at hliterals
  split at hliterals
  · rename_i htruthy
    obtain ⟨values, hvalues, hfound⟩ := bind_eq_ok.mp hliterals
    rw [lift_eq_ok] at hvalues
    rw [literals_eq_ok hfound] at hall hsome ⊢
    rw [Kind.ofFragment, bind_eq_ok] at hkind
    obtain ⟨⟨tag, nullable⟩, htag, hkind⟩ := hkind
    obtain ⟨found, hfound, hsame⟩ := ite_bind_eq_ok.mp hkind
    cases hsame
    refine ⟨members, values, tag, listed, literalKind, hwithin, hvalues, rfl, hall, htag, ?_⟩
    by_cases hnull : tag.isNull = true
    · rw [if_pos hnull] at hfound ⊢
      exact kind_of_untagged htruthy hvalues hall hsome hfound
    · rw [if_neg hnull] at hfound ⊢
      exact hfound
  · cases hliterals
    exact absurd rfl hsome

section Parts

variable (ih : ∀ inner, Child inner (.object members) → ∀ {built},
  ofFragment scope inner = .ok built → Everywhere (Formed root) built)
include ih

theorem formed_ofItems {items : Option Schema} (h : ofItems scope members = .ok items) :
    ∀ item ∈ items, Everywhere (Formed root) item := by
  rw [ofItems_eq] at h
  unfold itemsShape at h
  split at h
  · cases h
    simp
  · cases h
    simp
  · obtain ⟨item, hbuilt, rfl⟩ := map_eq_ok.mp h
    simpa using ih _ (.item ‹_›) hbuilt

theorem formed_ofTable {table : Properties × Option Schema} (h : ofTable scope members = .ok table) :
    (∀ entry ∈ table.1, Everywhere (Formed root) entry.2) ∧
      ∀ rest ∈ table.2, Everywhere (Formed root) rest := by
  refine ⟨fun entry hmem => ?_, ?_⟩
  · obtain ⟨inner, built, required, hchild, hbuilt, hsame⟩ := exists_child_of_ofTable h hmem
    have hformed := ih inner hchild hbuilt
    rw [hsame]
    exact hformed.remade (hformed.here.reflagged _ _ _ _) rfl rfl rfl
  · obtain ⟨_, _, _, _, additional, hadditional, rfl⟩ := ofTable_eq_ok.mp h
    unfold furtherShape at hadditional
    split at hadditional
    · cases hadditional
      simpa using (Formed.bare rfl rfl rfl rfl rfl rfl : Everywhere (Formed root) openObject)
    · obtain ⟨rest, hrest, rfl⟩ := map_eq_ok.mp hadditional
      simpa using ih _ (.further ‹_›) hrest
    · cases hadditional
      simp

/-- A fragment without a composition gives a well-formed shape, if its parts do. -/
theorem formed_ofPlain (hwithin : Within (.object members) root)
    (h : ofPlain scope members = .ok schema) : Everywhere (Formed root) schema := by
  obtain ⟨kind, listed, hkind, items, hitems, table, htable, literals, hliterals, rfl⟩ :=
    ofPlain_eq_ok.mp h
  -- Only an array gets items, and only an object a table.
  have hitem : (items ≠ none → kind = .array) ∧ ∀ item ∈ items, Everywhere (Formed root) item := by
    split at hitems
    · exact ⟨fun _ => ‹_›, formed_ofItems ih hitems⟩
    · cases hitems
      simp
  have hentries : (kind ≠ .object → table = ([], none)) ∧
      (∀ entry ∈ table.1, Everywhere (Formed root) entry.2) ∧
        ∀ rest ∈ table.2, Everywhere (Formed root) rest := by
    split at htable
    · exact ⟨fun hne => absurd ‹_› hne, formed_ofTable ih htable⟩
    · cases htable
      simp
  obtain ⟨hnone, hproperties, hadditional⟩ := hentries
  refine .intro ?_ hitem.2 hproperties hadditional
  refine ⟨hitem.1, fun hsome => ?_, fun hsome => absurd rfl hsome, List.nodup_nil,
    fun hsome => absurd rfl hsome, fun hsome => .inl ?_,
    enumerates_of_members hwithin hkind hliterals⟩
  · by_contra hne
    exact hsome (congrArg Prod.fst (hnone hne))
  · by_contra hne
    exact hsome (congrArg Prod.snd (hnone hne))

/-- A composition gives a well-formed shape, if its branches do. -/
theorem formed_ofComposition (hwithin : Within (.object members) root)
    (href : (Json.object members).reference? = none) (hall : Members.has members "allOf" = true)
    (h : ofComposition scope members = .ok schema) : Everywhere (Formed root) schema := by
  have hmergeable := Formed.mergeable ⟨members, hwithin, href, hall⟩
  obtain ⟨whole, hwhole, hown⟩ := ofComposition_eq_ok.mp h
  have hempty : Everywhere (Formed root) empty ∧ empty.kind ≠ .reference :=
    ⟨Formed.bare rfl rfl rfl rfl rfl rfl, by decide⟩
  -- What is composed so far is no reference, since it begins as an empty shape.
  have hbranches : Everywhere (Formed root) whole ∧ whole.kind ≠ .reference := by
    unfold branchesShape at hwhole
    split at hwhole
    · obtain ⟨parts, hparts, hfold⟩ := ofBranches_eq_ok.mp hwhole
      have hstep : ∀ part ∈ parts, ∀ self next : Schema,
          Everywhere (Formed root) self ∧ self.kind ≠ .reference → self.merge part = .ok next →
            Everywhere (Formed root) next ∧ next.kind ≠ .reference := by
        intro part hpart self next hself hnext
        obtain ⟨branch, hbranch, hbuilt⟩ := exists_of_forall₂ hparts.flip hpart
        exact ⟨hself.1.merge hmergeable hself.2 (ih branch (.branch ‹_› hbranch) hbuilt) hnext,
          merge_kind_ne hself.2 hnext⟩
      exact foldlM_invariant hstep hempty hfold
    · rw [ofNoBranches_eq_ok hwhole]
      exact hempty
  split at hown
  · obtain ⟨own, hplain, hmerge⟩ := hown
    have hbeside := ih _ (.beside hall) ((ofFragment_siblings href).trans hplain)
    exact hbranches.1.merge hmergeable hbranches.2 hbeside hmerge
  · exact hown ▸ hbranches.1

end Parts

/-- Every fragment within the document gives a well-formed shape: by induction on the fragment. -/
theorem formed_of_within (hwithin : Within fragment root)
    (h : ofFragment scope fragment = .ok schema) : Everywhere (Formed root) schema := by
  induction fragment using Fragment.induct generalizing schema with
  | step fragment ih =>
    -- A fragment that allows anything and a reference give shapes with no other shape inside.
    rcases ofFragment_cases h with ⟨_, rfl⟩ | ⟨members, rfl, ⟨target, _, h⟩ | ⟨href, h⟩⟩
    · exact Formed.bare rfl rfl rfl rfl rfl rfl
    · rcases resolve_eq_ok h with rfl | ⟨name, _, path, rfl⟩
      · exact Formed.bare rfl rfl rfl rfl rfl rfl
      · refine .leaf ?_ rfl rfl rfl
        constructor <;> simp [derived]
    · have hinner : ∀ inner, Child inner (.object members) → ∀ {built},
          ofFragment scope inner = .ok built → Everywhere (Formed root) built :=
        fun inner hchild _ hbuilt => ih inner hchild (.child hchild hwithin) hbuilt
      split at h
      · obtain ⟨whole, hwhole, rfl⟩ := h
        have hformed := formed_ofComposition hinner hwithin href ‹_› hwhole
        exact hformed.remade (hformed.here.reflagged _ _ _ _) rfl rfl rfl
      · exact formed_ofPlain hinner hwithin h

/-- Every shape in what is built from a fragment is formed. Where enumerations beside a type tag have
literals of the kind of that tag only, the literals of every shape are of its kind. -/
theorem formed_ofFragment (h : ofFragment scope fragment = .ok schema) :
    Everywhere (Formed fragment) schema ∧
      (Conforms fragment → Everywhere (fun inner =>
        ∀ literal ∈ inner.enumValues, Kind.ofLiteral literal = .ok inner.kind) schema) := by
  have hformed := formed_of_within (.refl fragment) h
  refine ⟨hformed, fun hconforms => hformed.imp fun inner hinner literal hmem => ?_⟩
  exact (hinner.literals (List.ne_nil_of_mem hmem)).conforming hconforms literal hmem

end Fragments

/-- The scope of a description without definitions. -/
def noDefinitions : Scope :=
  { document := { dialect := .swagger2, members := [] }, names := [] }

def moodMembers : Members :=
  [("type", .string "string"), ("enum", .array [.string "calm", .null])]

def dayMembers : Members :=
  [("properties", .object [("mood", .object moodMembers)])]

theorem within_day {inner : Json} (h : Within inner (allOf [.object dayMembers])) :
    inner = allOf [.object dayMembers] ∨ inner = .object [] ∨ inner = .object dayMembers ∨
      inner = .object moodMembers := by
  induction h using Relation.ReflTransGen.head_induction_on with
  | refl => exact .inl rfl
  | head hchild _ ih =>
    -- The composition has two fragments inside, of which its branch has one more.
    rcases ih with rfl | rfl | rfl | rfl
    · cases hchild with
      | item h | property h | further h => cases h
      | branch h hmem =>
        cases h
        exact .inr (.inr (.inl (List.mem_singleton.mp hmem)))
      | beside => exact .inr (.inl rfl)
    · exact absurd hchild (not_child (by decide) _)
    · cases hchild with
      | item h | further h | branch h | beside h => cases h
      | property h hmem =>
        cases h
        exact .inr (.inr (.inr (Prod.mk.inj (List.mem_singleton.mp hmem)).2))
    · exact absurd hchild (not_child (by decide) _)

theorem conforms_day : Conforms (allOf [.object dayMembers]) := by
  intro members tag listed kind values hwithin htag hkind hvalues literal hmem hnull
  rcases within_day hwithin with h | h | h | h
  all_goals cases h
  all_goals try cases hvalues
  cases htag
  cases hkind
  rcases List.mem_cons.mp hmem with rfl | hlast
  · rfl
  · rw [List.mem_singleton.mp hlast] at hnull
    cases hnull

/-- The theorem at a composition of an object with the enumeration. -/
theorem formed_ofFragment_day :
    ∃ schema, ofFragment noDefinitions (allOf [.object dayMembers]) = .ok schema ∧
      Conforms (allOf [.object dayMembers]) ∧
      Everywhere (Formed (allOf [.object dayMembers])) schema ∧
      Everywhere (fun inner => ∀ literal ∈ inner.enumValues,
        Kind.ofLiteral literal = .ok inner.kind) schema := by
  have hbuilt : (ofFragment noDefinitions (allOf [.object dayMembers])).toOption.isSome = true := by
    decide +kernel
  obtain ⟨schema, hschema⟩ := exists_ok_of_isSome hbuilt
  obtain ⟨hformed, hliterals⟩ := formed_ofFragment hschema
  exact ⟨schema, hschema, conforms_day, hformed, hliterals conforms_day⟩

/-- The fields of a shape, each of which only shapes of certain kinds have, with literals of the kind
of the shape. -/
structure Exclusive (schema : Schema) : Prop where
  items : schema.items ≠ none → schema.kind = .array
  properties : schema.properties ≠ [] → schema.kind = .object
  additional : schema.additional ≠ none → schema.kind = .object
  heritage : schema.heritage ≠ [] → schema.kind = .object
  distinct : schema.heritage.Nodup
  indexPath : schema.indexPath ≠ [] → schema.kind = .reference
  literals : schema.enumValues ≠ [] → schema.kind.isPrimitive = true
  literalKinds : ∀ literal ∈ schema.enumValues, Kind.ofLiteral literal = .ok schema.kind

/-- A number is a literal of a string, if the fragment says so. -/
theorem not_exclusive_of_number :
    ∃ schema, ofFragment noDefinitions
        (.object [("type", .string "string"), ("enum", .array [.int 1])]) = .ok schema ∧
      ¬Everywhere Exclusive schema := by
  refine ⟨{ kind := .string, enumValues := [.int 1] }, ?_, fun h => ?_⟩
  · rw [ofFragment_plain rfl rfl]
    exact ofPlain_eq_ok.mpr ⟨.string, false, rfl, none, rfl, ([], none), rfl, ([.int 1], false), rfl,
      rfl⟩
  · cases h.here.literalKinds (.int 1) (by simp)

end Schema

end ApiTypes
