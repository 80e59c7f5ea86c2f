import ApiTypes.Json.Binary64
import ApiTypes.Proofs.Text.Letters

/-!
# The characters of numbers

Integers and double-precision numbers are written with letters, digits, points and signs, whatever
their value is.
-/

namespace ApiTypes

namespace Text

def isNumeralChar (c : Char) : Bool :=
  c.isAlphanum || c == '.' || c == '-' || c == '+'

/-- A text of letters, digits, points and signs. -/
def IsNumeral (text : String) : Prop :=
  ∀ c ∈ text.toList, isNumeralChar c = true

instance : DecidablePred IsNumeral :=
  fun text => List.decidableBAll _ text.toList

variable {first second : String}

theorem isNumeral_ofList {cs : List Char} :
    IsNumeral (String.ofList cs) ↔ ∀ c ∈ cs, isNumeralChar c = true := by
  rw [IsNumeral, String.toList_ofList]

theorem isNumeral_append : IsNumeral (first ++ second) ↔ IsNumeral first ∧ IsNumeral second := by
  rw [IsNumeral, String.toList_append, List.forall_mem_append]
  rfl

theorem isNumeralChar_of_isDigit {c : Char} (h : c.isDigit = true) : isNumeralChar c = true := by
  simp only [isNumeralChar, isAlphanum_of_isDigit h, Bool.true_or]

theorem isNumeral_nat (n : Nat) : IsNumeral (toString n) :=
  fun _ hc => isNumeralChar_of_isDigit (isDigit_of_mem_nat hc)

theorem isNumeral_int (i : Int) : IsNumeral (toString i) := by
  rw [Int.toString_eq_repr, Int.repr_eq_if]
  split
  · exact isNumeral_nat i.toNat
  · exact isNumeral_append.mpr ⟨by decide, isNumeral_nat (-i).toNat⟩

end Text

namespace Binary64

open Text (isNumeralChar isNumeralChar_of_isDigit IsNumeral isNumeral_append isNumeral_ofList)

theorem isNumeralChar_of_leadingDigits (d : Decimal) :
    ∀ c ∈ leadingDigits d, isNumeralChar c = true := by
  intro c hc
  rw [leadingDigits, List.mem_reverse] at hc
  have hmem := List.mem_reverse.mp ((List.dropWhile_sublist _).subset hc)
  exact isNumeralChar_of_isDigit (Nat.isDigit_of_mem_toDigits (by decide) (by decide) hmem)

theorem isNumeral_exponentText (order : Int) : IsNumeral (exponentText order) := by
  unfold exponentText
  simp only [isNumeral_append]
  refine ⟨⟨?_, ?_⟩, Text.isNumeral_nat _⟩ <;> split <;> decide

/-- A decimal is written in the characters of numerals, whichever layout it has. -/
theorem isNumeral_decimalText (d : Decimal) : IsNumeral (decimalText d) := by
  have hdigits := isNumeralChar_of_leadingDigits d
  have htake : ∀ n, ∀ c ∈ (leadingDigits d).take n, isNumeralChar c = true :=
    fun n c hmem => hdigits c (List.mem_of_mem_take hmem)
  have hdrop : ∀ n, ∀ c ∈ (leadingDigits d).drop n, isNumeralChar c = true :=
    fun n c hmem => hdigits c (List.mem_of_mem_drop hmem)
  have hzeros : ∀ n, ∀ c ∈ List.replicate n '0', isNumeralChar c = true :=
    fun n c hmem => List.eq_of_mem_replicate hmem ▸ rfl
  unfold decimalText
  extract_lets digits place order whole fraction point
  -- In each layout the text is made of digits, zeros and a point, with or without an exponent.
  split
  · split
    · simp only [isNumeral_ofList, List.forall_mem_append]
      exact ⟨⟨List.all_eq_true.mp rfl, hzeros _⟩, hdigits⟩
    · simp only [isNumeral_ofList, List.forall_mem_append]
      refine ⟨⟨⟨htake _, hzeros _⟩, List.all_eq_true.mp rfl⟩, ?_⟩
      split
      · exact List.all_eq_true.mp rfl
      · exact hdrop _
  · simp only [isNumeral_append, isNumeral_ofList, List.forall_mem_append]
    refine ⟨⟨⟨htake _, ?_⟩, by decide⟩, isNumeral_exponentText order⟩
    unfold point
    split
    · exact List.all_eq_true.mp rfl
    · exact List.forall_mem_cons.mpr ⟨rfl, hdrop 1⟩

/-- Every number is written in those characters, the infinities and the missing one included. -/
theorem isNumeral_text (x : Binary64) : IsNumeral x.text := by
  have hsign : IsNumeral (if x.negative then "-" else "") := by split <;> decide
  unfold text
  split
  · decide
  · refine isNumeral_append.mpr ⟨hsign, ?_⟩
    split
    · decide
    · split
      · decide
      · exact isNumeral_decimalText _

end Binary64

end ApiTypes
