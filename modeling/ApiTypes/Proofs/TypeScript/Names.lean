import ApiTypes.Proofs.Text.Letters
import ApiTypes.Proofs.Text.Paragraphs
import ApiTypes.TypeScript.Name

/-!
# Names are identifiers

Type names and the names of enumeration members are identifiers, whatever they are made from.
-/

namespace ApiTypes.TypeScript

/-! ## Identifiers -/

theorem isNameChar_of_isAlphanum {c : Char} (h : c.isAlphanum = true) : isNameChar c = true := by
  simp only [isNameChar, h, Bool.true_or]

theorem isIdentifier_cons {first : Char} {rest : List Char} :
    isIdentifier (first :: rest) = true ↔
      (∀ c ∈ first :: rest, isNameChar c = true) ∧ first.isDigit = false := by
  simp only [isIdentifier, Bool.and_eq_true, Bool.not_eq_true', List.all_eq_true,
    List.forall_mem_cons]
  tauto

theorem nameChars_of_isIdentifier {cs : List Char} (h : isIdentifier cs = true) :
    ∀ c ∈ cs, isNameChar c = true := by
  cases cs with
  | nil => cases h
  | cons first rest => exact (isIdentifier_cons.mp h).1

theorem onOneLine_of_isIdentifier {text : String} (h : isIdentifier text.toList = true) :
    Text.OnOneLine text :=
  fun hmem => absurd (nameChars_of_isIdentifier h '\n' hmem) (by decide)

theorem isIdentifier_append {cs rest : List Char} (h : isIdentifier cs = true)
    (hrest : ∀ c ∈ rest, isNameChar c = true) : isIdentifier (cs ++ rest) = true := by
  cases cs with
  | nil => cases h
  | cons first cs =>
    obtain ⟨hchars, hdigit⟩ := isIdentifier_cons.mp h
    exact isIdentifier_cons.mpr ⟨List.forall_mem_append.mpr ⟨hchars, hrest⟩, hdigit⟩

/-- Whatever the name, its identifier is one. -/
theorem isIdentifier_identifier (name : String) : isIdentifier (identifier name).toList = true := by
  have hchars : ∀ c ∈ name.toList.map (fun c => if isNameChar c then c else '_'),
      isNameChar c = true := by
    refine List.forall_mem_map.mpr fun c _ => ?_
    split
    · assumption
    · rfl
  unfold identifier
  generalize name.toList.map _ = cs at hchars
  -- A digit in front is the only thing that is left to repair, and an underscore does it.
  cases cs with
  | nil => decide
  | cons first cs =>
    dsimp only
    split
    · rw [String.toList_ofList]
      exact isIdentifier_cons.mpr ⟨List.forall_mem_cons.mpr ⟨rfl, hchars⟩, rfl⟩
    · rename_i hdigit
      rw [String.toList_ofList]
      exact isIdentifier_cons.mpr ⟨hchars, by simpa using hdigit⟩

/-! ## Names of enumeration members -/

def IsMemberName (name : String) : Prop :=
  isIdentifier name.toList = true ∧ ∃ first ∈ name.toList.head?, first.isAlpha = true

instance : DecidablePred IsMemberName :=
  fun name => @instDecidableAnd _ _ inferInstance (Option.decidableExistsMem name.toList.head?)

theorem isMemberName_of_cons {first : Char} {rest : List Char} (hfirst : first.isAlpha = true)
    (hrest : ∀ c ∈ rest, isNameChar c = true) : IsMemberName (String.ofList (first :: rest)) := by
  have halphanum : first.isAlphanum = true := by rw [Char.isAlphanum, hfirst, Bool.true_or]
  rw [IsMemberName, String.toList_ofList]
  refine ⟨isIdentifier_cons.mpr ⟨?_, Text.isDigit_of_isAlpha hfirst⟩, first, rfl, hfirst⟩
  exact List.forall_mem_cons.mpr ⟨isNameChar_of_isAlphanum halphanum, hrest⟩

theorem IsMemberName.append {name rest : String} (h : IsMemberName name)
    (hrest : ∀ c ∈ rest.toList, isNameChar c = true) : IsMemberName (name ++ rest) := by
  obtain ⟨hidentifier, first, hfirst, hletter⟩ := h
  rw [IsMemberName, String.toList_append]
  refine ⟨isIdentifier_append hidentifier hrest, first, ?_, hletter⟩
  rw [List.head?_append, hfirst]
  rfl

/-- Whatever the text, the name of its member is proper. -/
theorem isMemberName_memberWord (text : String) : IsMemberName (memberWord text) := by
  have hchars : ∀ c ∈ (Text.squeeze (fun c => !c.isAlphanum) '_' text.toList).map Char.toUpper,
      isNameChar c = true := by
    refine List.forall_mem_map.mpr fun c hc => ?_
    rcases Text.mem_squeezeFrom hc with rfl | halphanum
    · rfl
    · exact isNameChar_of_isAlphanum (Text.isAlphanum_toUpper (by simpa using halphanum))
  unfold memberWord
  generalize List.map Char.toUpper _ = cs at hchars
  -- The first character must be a letter, or one is put in front.
  cases cs with
  | nil => decide
  | cons first cs =>
    dsimp only
    split
    · rename_i hletter
      exact isMemberName_of_cons hletter (List.forall_mem_cons.mp hchars).2
    · exact isMemberName_of_cons rfl hchars

theorem isMemberName_of_memberName {value : Json} {name : String}
    (h : memberName value = .ok name) : IsMemberName name := by
  cases value <;> cases h
  case bool b => cases b <;> decide
  all_goals exact isMemberName_memberWord _

end ApiTypes.TypeScript
