import ApiTypes.Proofs.Schema.Everywhere

/-!
# What can be written down

The literals of a built shape are of one kind, and the properties of what is built from a fragment
have texts for names, at every depth.
-/

namespace ApiTypes

namespace Schema

/-! ## Literals -/

/-- The literals of a shape are all of one kind. -/
def Uniform (schema : Schema) : Prop :=
  ∃ kind, ∀ value ∈ schema.enumValues, Kind.ofLiteral value = .ok kind

theorem uniform_of_nil {schema : Schema} (h : schema.enumValues = []) : schema.Uniform :=
  ⟨.string, by simp [h]⟩

theorem mem_literalKinds {value : Json} {kind : Kind} (h : Kind.ofLiteral value = .ok kind) :
    kind ∈ [Kind.boolean, .number, .string] := by
  cases value <;> cases h <;> simp

/-- The literals of an enumeration that is taken are of one kind. -/
theorem kind_of_literals {values : List Json} {found : List Json × Bool}
    (h : literals values = .ok found) :
    ∃ kind, ∀ value ∈ found.1, Kind.ofLiteral value = .ok kind := by
  rw [literals, bind_eq_ok] at h
  obtain ⟨kinds, hkinds, h⟩ := h
  dsimp only at h
  split at h
  · cases h
  · rename_i hfew
    cases h
    have hpresent : ∀ value ∈ values.filter (!·.isNull), ∃ kind,
        Kind.ofLiteral value = .ok kind ∧
          kind ∈ [Kind.boolean, .number, .string].filter (kinds.contains ·) := by
      intro value hvalue
      obtain ⟨kind, hmem, hkind⟩ := exists_of_forall₂ (mapM_eq_ok.mp hkinds) hvalue
      exact ⟨kind, hkind, List.mem_filter.mpr
        ⟨mem_literalKinds hkind, List.contains_iff_mem.mpr hmem⟩⟩
    generalize [Kind.boolean, .number, .string].filter (kinds.contains ·) = present at hfew hpresent
    match present with
    | [] => exact ⟨.string, fun value hvalue => by simpa using hpresent value hvalue⟩
    | [kind] => exact ⟨kind, fun value hvalue => by simpa using hpresent value hvalue⟩
    | _ :: _ :: _ => simp at hfew

/-- The literals of an enumeration that was read are of one kind. -/
theorem kind_of_enumeration {members : Members} {found : List Json × Bool}
    (h : enumeration members = .ok found) :
    ∃ kind, ∀ value ∈ found.1, Kind.ofLiteral value = .ok kind := by
  unfold enumeration at h
  dsimp only at h
  split at h
  · obtain ⟨values, _, h⟩ := bind_eq_ok.mp h
    exact kind_of_literals h
  · cases h
    exact ⟨.string, by simp⟩

theorem kept_uniform : Kept Uniform where
  openObject := uniform_of_nil rfl
  reflagged := fun _ _ _ _ h => h
  opened := by
    intro schema h
    unfold opened
    split <;> exact h
  extended := fun _ _ h _ => h
  united := fun _ _ h _ => h

/-- In every shape that is built the literals of each enumeration are of one kind. -/
theorem inherent_uniform (scope : Scope) : Inherent scope Uniform where
  toKept := kept_uniform
  empty := uniform_of_nil rfl
  derived := fun _ _ _ => uniform_of_nil rfl
  plain := fun _ hliterals _ => kind_of_enumeration hliterals

/-! ## Names of properties -/

/-- The properties of a shape have texts for names. -/
def TextKeys (schema : Schema) : Prop :=
  ∀ entry ∈ schema.properties, ∃ name, entry.1 = .text name

theorem kept_textKeys : Kept TextKeys where
  openObject := by simp [TextKeys, Schema.openObject]
  reflagged := fun _ _ _ _ h => h
  opened := by
    intro schema h
    unfold opened
    split <;> exact h
  extended := fun _ _ h _ => h
  united := by
    intro a b table additional _ hnames ha hb entry hmem
    obtain ⟨old, hold, hsame⟩ := hnames entry hmem
    rw [← hsame]
    rcases List.mem_append.mp hold with hmine | htheirs
    · exact ha old hmine
    · exact hb old htheirs

theorem inherent_textKeys (scope : Scope) : Inherent scope TextKeys where
  toKept := kept_textKeys
  empty := by simp [TextKeys, Schema.empty]
  derived := by simp [TextKeys, Schema.derived]
  plain := fun _ _ hnames => hnames

def TextDescription (schema : Schema) : Prop :=
  ∃ text, schema.description = .string text

instance (value : Json) : Decidable (∃ text, value = .string text) :=
  match value with
  | .string text => isTrue ⟨text, rfl⟩
  | .null | .bool _ | .int _ | .double _ | .array _ | .object _ => isFalse (by simp)

instance (key : PropertyName) : Decidable (∃ name, key = .text name) :=
  match key with
  | .text name => isTrue ⟨name, rfl⟩
  | .scalar _ => isFalse (by simp)

instance : DecidablePred TextDescription :=
  fun schema => inferInstanceAs (Decidable (∃ text, schema.description = .string text))

instance : DecidablePred TextKeys :=
  fun schema =>
    inferInstanceAs (Decidable (∀ entry ∈ schema.properties, ∃ name, entry.1 = .text name))

end Schema

end ApiTypes
