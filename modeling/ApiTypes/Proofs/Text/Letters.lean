import Mathlib.Data.List.Basic
import ApiTypes.Text.Case
import ApiTypes.Text.Split

/-!
# Letters and digits

The letters and digits are ASCII characters, so what is to be shown of all of them is checked on the
first 128 characters.
-/

namespace ApiTypes.Text

theorem toNat_lt_of_isAlphanum {c : Char} (h : c.isAlphanum = true) : c.toNat < 128 := by
  have hval : c.val.toNat ≤ 122 := by
    delta Char.isAlphanum Char.isAlpha Char.isUpper Char.isLower Char.isDigit at h
    simp only [Bool.or_eq_true, Bool.and_eq_true, decide_eq_true_eq, ge_iff_le,
      UInt32.le_iff_toNat_le] at h
    have hZ : 'Z'.val.toNat = 90 := rfl
    have hz : 'z'.val.toNat = 122 := rfl
    have h9 : '9'.val.toNat = 57 := rfl
    omega
  exact Nat.lt_of_le_of_lt hval (by decide)

/-- What holds of the first 128 characters holds of every letter and digit. -/
theorem of_isAlphanum {P : Char → Prop} (h : ∀ n < 128, P (Char.ofNat n)) {c : Char}
    (hc : c.isAlphanum = true) : P c := by
  have hchar : Char.ofNat c.toNat = c := Char.ofNat_toNat c
  rw [← hchar]
  exact h c.toNat (toNat_lt_of_isAlphanum hc)

theorem isAlphanum_toUpper {c : Char} (h : c.isAlphanum = true) : c.toUpper.isAlphanum = true := by
  have hascii : ∀ n < 128, (Char.ofNat n).isAlphanum = true →
      (Char.ofNat n).toUpper.isAlphanum = true := by
    with_unfolding_all decide
  exact of_isAlphanum (P := fun c => c.isAlphanum = true → c.toUpper.isAlphanum = true) hascii h h

theorem upperChar_of_isAlphanum {c : Char} (h : c.isAlphanum = true) : upperChar c = [c.toUpper] :=
  if_pos (toNat_lt_of_isAlphanum h)

theorem isAlphanum_of_capitalize {cs : List Char} (h : ∀ c ∈ cs, c.isAlphanum = true) :
    ∀ c ∈ capitalize cs, c.isAlphanum = true := by
  cases cs with
  | nil => exact h
  | cons first cs =>
    rcases List.forall_mem_cons.mp h with ⟨hfirst, hrest⟩
    rw [capitalize, upperChar_of_isAlphanum hfirst, List.singleton_append]
    exact List.forall_mem_cons.mpr ⟨isAlphanum_toUpper hfirst, hrest⟩

/-- No letter is a digit. -/
theorem isDigit_of_isAlpha {c : Char} (h : c.isAlpha = true) : c.isDigit = false := by
  have hascii : ∀ n < 128, (Char.ofNat n).isAlpha = true → (Char.ofNat n).isDigit = false := by
    with_unfolding_all decide
  have halphanum : c.isAlphanum = true := by rw [Char.isAlphanum, h, Bool.true_or]
  exact of_isAlphanum (P := fun c => c.isAlpha = true → c.isDigit = false) hascii halphanum h

theorem isAlphanum_of_isDigit {c : Char} (h : c.isDigit = true) : c.isAlphanum = true := by
  rw [Char.isAlphanum, h, Bool.or_true]

/-! ## Case -/

theorem lowerChar_of_isAlphanum {c : Char} (h : c.isAlphanum = true) : lowerChar c = [c.toLower] :=
  if_pos (toNat_lt_of_isAlphanum h)

/-- On letters and digits alone no sigma needs a second look, so lower case goes letter by
letter. -/
theorem lowerFrom_of_isAlphanum {cs : List Char} (h : ∀ c ∈ cs, c.isAlphanum = true)
    (afterCased : Bool) : lowerFrom afterCased cs = cs.map Char.toLower := by
  induction cs generalizing afterCased with
  | nil => rfl
  | cons c cs ih =>
    obtain ⟨hc, hcs⟩ := List.forall_mem_cons.mp h
    have hsigma : (c == 'Σ') = false := by
      rw [beq_eq_false_iff_ne]
      rintro rfl
      exact absurd hc (by decide)
    rw [lowerFrom, ih hcs, hsigma, Bool.false_and, Bool.false_and, lowerChar_of_isAlphanum hc]
    rfl

theorem lower_of_isAlphanum {cs : List Char} (h : ∀ c ∈ cs, c.isAlphanum = true) :
    lower cs = cs.map Char.toLower :=
  lowerFrom_of_isAlphanum h false

/-- Letters and digits in lower case are lower-case letters and digits. -/
theorem toLower_of_isAlphanum {c : Char} (h : c.isAlphanum = true) :
    (c.toLower.isLower || c.toLower.isDigit) = true := by
  have hascii : ∀ n < 128, (Char.ofNat n).isAlphanum = true →
      ((Char.ofNat n).toLower.isLower || (Char.ofNat n).toLower.isDigit) = true := by
    with_unfolding_all decide
  exact of_isAlphanum (P := fun c => c.isAlphanum = true →
    (c.toLower.isLower || c.toLower.isDigit) = true) hascii h h

theorem toLower_toUpper {c : Char} (h : c.isAlphanum = true) : c.toUpper.toLower = c.toLower := by
  have hascii : ∀ n < 128, (Char.ofNat n).isAlphanum = true →
      (Char.ofNat n).toUpper.toLower = (Char.ofNat n).toLower := by
    with_unfolding_all decide
  exact of_isAlphanum (P := fun c => c.isAlphanum = true → c.toUpper.toLower = c.toLower) hascii h h

/-- The first character of a word in upper case is lost in lower case. -/
theorem map_toLower_capitalize {cs : List Char} (h : ∀ c ∈ cs, c.isAlphanum = true) :
    (capitalize cs).map Char.toLower = cs.map Char.toLower := by
  cases cs with
  | nil => rfl
  | cons c cs =>
    have hc := h c List.mem_cons_self
    rw [capitalize, upperChar_of_isAlphanum hc, List.singleton_append, List.map_cons, List.map_cons,
      toLower_toUpper hc]

/-! ## Runs -/

/-- Squeezing leaves only marks and characters that were kept. -/
theorem mem_squeezeFrom {p : Char → Bool} {mark c : Char} {inRun : Bool} {cs : List Char}
    (h : c ∈ squeezeFrom p mark inRun cs) : c = mark ∨ p c = false := by
  fun_induction squeezeFrom p mark inRun cs with
  | case1 => cases h
  | case2 first cs hfirst ih => exact ih h
  | case3 inRun first cs hfirst hrun ih =>
    rcases List.mem_cons.mp h with rfl | hmem
    · exact .inl rfl
    · exact ih hmem
  | case4 inRun first cs hfirst ih =>
    rcases List.mem_cons.mp h with rfl | hmem
    · exact .inr (by simpa using hfirst)
    · exact ih hmem

/-! ## Numbers -/

theorem isDigit_of_mem_nat {n : Nat} {c : Char} (h : c ∈ (toString n).toList) :
    c.isDigit = true := by
  rw [Nat.toString_eq_repr, Nat.toList_repr] at h
  exact Nat.isDigit_of_mem_toDigits (by decide) (by decide) h

theorem nat_inj {m n : Nat} (h : toString m = toString n) : m = n := by
  have hdigits := congrArg String.toList h
  rw [Nat.toString_eq_repr, Nat.toString_eq_repr, Nat.toList_repr, Nat.toList_repr] at hdigits
  calc m = Nat.ofDigitChars 10 (Nat.toDigits 10 m) 0 := Nat.ofDigitChars_ten_toDigits.symm
    _ = Nat.ofDigitChars 10 (Nat.toDigits 10 n) 0 := by rw [hdigits]
    _ = n := Nat.ofDigitChars_ten_toDigits

end ApiTypes.Text
