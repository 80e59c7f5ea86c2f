import ApiTypes.Proofs.Outcome
import ApiTypes.TypeScript.Declaration

/-!
# The forms of a declaration

A shape is declared as an interface, as an enumeration or as a name for its type. Which of the three
is decided once; proofs about the text of a declaration go by these cases.
-/

namespace ApiTypes.TypeScript

variable {emitEnums : Bool} {schema : Schema} {name text : String}

theorem interfaceFields?_eq_ok {found : Option (List Field)} (hobject : schema.kind = .object) :
    interfaceFields? schema = .ok found ↔ ∃ list, fields 1 schema = .ok list ∧
      (if list.isEmpty && schema.heritage.isEmpty then none else some list) = found := by
  rw [interfaceFields?, if_pos hobject]
  simp only [bind_eq_ok, pure_eq_ok, Except.ok.injEq]

theorem fields_of_interfaceFields? {list : List Field}
    (h : interfaceFields? schema = .ok (some list)) : fields 1 schema = .ok list := by
  by_cases hobject : schema.kind = .object
  · obtain ⟨own, hown, hfound⟩ := (interfaceFields?_eq_ok hobject).mp h
    obtain ⟨_, hsame⟩ := Option.ite_none_left_eq_some.mp hfound
    cases hsame
    exact hown
  · rw [interfaceFields?, if_neg hobject] at h
    cases h

/-- A declaration is an interface, or else an enumeration or a name for a type. -/
theorem declaration_cases (h : declaration emitEnums schema name = .ok text) :
    (∃ list, interfaceFields? schema = .ok (some list) ∧
      text = interface (identifier name) (schema.heritage.map identifier) list) ∨
    interfaceFields? schema = .ok none ∧
      ((∃ members, enumMembers schema.enumValues = .ok members ∧
        text = enumeration (identifier name) members) ∨
      ∃ type, typeText 0 schema = .ok type ∧ text = typeAlias (identifier name) type) := by
  obtain ⟨found, hfound, h⟩ := bind_eq_ok.mp h
  cases found with
  | some list => exact .inl ⟨list, hfound, (Except.ok.inj h).symm⟩
  | none =>
    obtain ⟨wanted, _, h⟩ := bind_eq_ok.mp h
    cases wanted with
    | true =>
      obtain ⟨members, hmembers, h⟩ := bind_eq_ok.mp h
      exact .inr ⟨hfound, .inl ⟨members, hmembers, (Except.ok.inj h).symm⟩⟩
    | false =>
      obtain ⟨type, htype, h⟩ := bind_eq_ok.mp h
      exact .inr ⟨hfound, .inr ⟨type, htype, (Except.ok.inj h).symm⟩⟩

/-- An object that has fields or bases is declared as an interface. -/
theorem declaration_of_object (hobject : schema.kind = .object)
    (hfull : ∀ list, fields 1 schema = .ok list → list ≠ [] ∨ schema.heritage ≠ [])
    (h : declaration emitEnums schema name = .ok text) :
    ∃ list, fields 1 schema = .ok list ∧
      text = interface (identifier name) (schema.heritage.map identifier) list := by
  rcases declaration_cases h with ⟨list, hlist, htext⟩ | ⟨hnone, _⟩
  · exact ⟨list, fields_of_interfaceFields? hlist, htext⟩
  · obtain ⟨list, hlist, hfound⟩ := (interfaceFields?_eq_ok hobject).mp hnone
    split at hfound
    · rename_i hempty
      rw [Bool.and_eq_true, List.isEmpty_iff, List.isEmpty_iff] at hempty
      exact absurd (hfull list hlist) (by simp [hempty])
    · cases hfound

end ApiTypes.TypeScript
