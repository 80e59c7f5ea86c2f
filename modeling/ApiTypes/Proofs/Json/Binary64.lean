import ApiTypes.Json.Binary64
import Mathlib.Algebra.Order.Field.Power
import Mathlib.Algebra.Order.Field.Rat
import Mathlib.Data.Int.Log
import Mathlib.Data.Rat.Floor
import Mathlib.Tactic.GCongr
import Mathlib.Tactic.NormNum
import Mathlib.Tactic.Positivity
import Mathlib.Tactic.Ring

/-!
# Decimals are read back

The number nearest to a decimal depends on the value of the decimal only, not on how the value is
split into digits and a power of ten. So a finite number is read back from the decimal with the
fewest digits that is found for it, and as well from the number written out in full.
-/

namespace ApiTypes

namespace Decimal

variable {d : Decimal}

def value (d : Decimal) : ℚ :=
  d.digits * 10 ^ d.exponent

theorem value_pos (h : d.digits ≠ 0) : 0 < d.value := by
  have := Nat.pos_of_ne_zero h
  unfold value
  positivity

theorem value_eq_zero : d.value = 0 ↔ d.digits = 0 := by
  have hpower : (10 : ℚ) ^ d.exponent ≠ 0 := zpow_ne_zero _ (by norm_num)
  rw [value, mul_eq_zero_iff_right hpower, Nat.cast_eq_zero]

end Decimal

namespace Binary64

/-! ## Quotients -/

def ratio (quotient : Nat × Nat) : ℚ :=
  quotient.1 / quotient.2

variable {base num den : Nat} {quotient other : Nat × Nat}

theorem zpow_eq (hbase : 0 < base) (k : Int) :
    (base : ℚ) ^ k = (base : ℚ) ^ k.toNat / (base : ℚ) ^ (-k).toNat := by
  have hne : (base : ℚ) ≠ 0 := Nat.cast_ne_zero.mpr hbase.ne'
  rw [← zpow_natCast, ← zpow_natCast, ← zpow_sub₀ hne]
  congr 1
  omega

theorem ratio_inUnits (hbase : 0 < base) (k : Int) (num den : Nat) :
    ratio (inUnits base k num den) = ratio (num, den) / base ^ k := by
  simp only [ratio, inUnits, Nat.pow_eq, Nat.cast_mul, Nat.cast_pow, zpow_eq hbase k]
  rw [div_div_div_eq]

theorem inUnits_pos (hbase : 0 < base) (k : Int) (num : Nat) (hden : 0 < den) :
    0 < (inUnits base k num den).2 :=
  Nat.mul_pos hden (Nat.pow_pos hbase)

theorem ratio_pos (hnum : 0 < quotient.1) (hden : 0 < quotient.2) : 0 < ratio quotient := by
  unfold ratio
  positivity

theorem ratio_eq_iff (hden : 0 < quotient.2) (hother : 0 < other.2) :
    ratio quotient = ratio other ↔ quotient.1 * other.2 = other.1 * quotient.2 := by
  rw [ratio, ratio, div_eq_div_iff (by positivity) (by positivity)]
  exact_mod_cast Iff.rfl

theorem one_le_ratio (hden : 0 < quotient.2) : 1 ≤ ratio quotient ↔ quotient.2 ≤ quotient.1 := by
  rw [ratio, one_le_div (by positivity)]
  exact_mod_cast Iff.rfl

/-- The order of a quotient is the difference of the orders of its parts, or one less. -/
theorem ratio_bounds (hnum : 0 < num) (hden : 0 < den) :
    (2 : ℚ) ^ ((num.log2 : Int) - den.log2 - 1) ≤ ratio (num, den) ∧
      ratio (num, den) < 2 ^ ((num.log2 : Int) - den.log2 + 1) := by
  have hnumLow : (2 : ℚ) ^ num.log2 ≤ num := by exact_mod_cast Nat.log2_self_le hnum.ne'
  have hnumHigh : (num : ℚ) < 2 ^ (num.log2 + 1) := by exact_mod_cast Nat.lt_log2_self
  have hdenLow : (2 : ℚ) ^ den.log2 ≤ den := by exact_mod_cast Nat.log2_self_le hden.ne'
  have hdenHigh : (den : ℚ) < 2 ^ (den.log2 + 1) := by exact_mod_cast Nat.lt_log2_self
  have hpos : (0 : ℚ) < den := by positivity
  -- The order of the quotient may be negative, those of the two numbers are not.
  have hpower : ∀ (i : Int) (m n : Nat), i + m = n → (2 : ℚ) ^ i * 2 ^ m = 2 ^ n := by
    intro i m n hsum
    rw [← zpow_natCast, ← zpow_natCast, ← zpow_add₀ two_ne_zero, hsum]
  unfold ratio
  constructor
  · rw [le_div_iff₀ hpos]
    calc
      (2 : ℚ) ^ ((num.log2 : Int) - den.log2 - 1) * den
        ≤ 2 ^ ((num.log2 : Int) - den.log2 - 1) * 2 ^ (den.log2 + 1) := by gcongr
      _ = 2 ^ num.log2 := hpower _ _ _ (by omega)
      _ ≤ num := hnumLow
  · rw [div_lt_iff₀ hpos]
    calc
      (num : ℚ) < 2 ^ (num.log2 + 1) := hnumHigh
      _ = 2 ^ ((num.log2 : Int) - den.log2 + 1) * 2 ^ den.log2 :=
        (hpower _ _ _ (by omega)).symm
      _ ≤ 2 ^ ((num.log2 : Int) - den.log2 + 1) * den := by gcongr

/-- The binary order of a quotient is the logarithm that its name says. -/
theorem binaryOrder_eq (hnum : 0 < num) (hden : 0 < den) :
    binaryOrder num den = Int.log 2 (ratio (num, den)) := by
  have hpos : 0 < ratio (num, den) := ratio_pos hnum hden
  obtain ⟨hlow, hhigh⟩ := ratio_bounds hnum hden
  have hleast := (Int.zpow_le_iff_le_log (b := 2) one_lt_two hpos).mp (by rwa [Nat.cast_ofNat])
  have hmost := (Int.lt_zpow_iff_log_lt (b := 2) one_lt_two hpos).mp (by rwa [Nat.cast_ofNat])
  -- The lengths give the order up to one, and a comparison decides which of the two it is.
  have hestimate : (inUnits 2 ((num.log2 : Int) - den.log2) num den).2 ≤
      (inUnits 2 ((num.log2 : Int) - den.log2) num den).1 ↔
        (num.log2 : Int) - den.log2 ≤ Int.log 2 (ratio (num, den)) := by
    rw [← one_le_ratio (inUnits_pos two_pos _ _ hden), ratio_inUnits two_pos,
      one_le_div (by positivity), ← Int.zpow_le_iff_le_log one_lt_two hpos]
  unfold binaryOrder
  dsimp only
  split
  · rename_i hcase
    have := hestimate.mp hcase
    omega
  · rename_i hcase
    have := hestimate.not.mp hcase
    omega

theorem roundQuotient_mul {factor : Nat} (hfactor : 0 < factor) :
    roundQuotient (num * factor) (den * factor) = roundQuotient num den := by
  have hless : 2 * (num % den * factor) < den * factor ↔ 2 * (num % den) < den := by
    rw [← Nat.mul_assoc, Nat.mul_lt_mul_right hfactor]
  have hmore : den * factor < 2 * (num % den * factor) ↔ den < 2 * (num % den) := by
    rw [← Nat.mul_assoc, Nat.mul_lt_mul_right hfactor]
  unfold roundQuotient
  simp only [Nat.mul_div_mul_right num den hfactor, Nat.mul_mod_mul_right, hless, hmore]

theorem roundQuotient_congr (hden : 0 < quotient.2) (hother : 0 < other.2)
    (h : ratio quotient = ratio other) :
    roundQuotient quotient.1 quotient.2 = roundQuotient other.1 other.2 := by
  rw [← roundQuotient_mul hother, (ratio_eq_iff hden hother).mp h, Nat.mul_comm quotient.2,
    roundQuotient_mul hden]

/-- The number nearest to a quotient depends on the value of the quotient only. -/
theorem ofQuotient_congr (negative : Bool) (hden : 0 < quotient.2) (hother : 0 < other.2)
    (h : ratio quotient = ratio other) :
    ofQuotient negative quotient.1 quotient.2 = ofQuotient negative other.1 other.2 := by
  have hcross := (ratio_eq_iff hden hother).mp h
  have hzero : quotient.1 = 0 ↔ other.1 = 0 := by
    constructor
    · intro hnum
      rw [hnum, Nat.zero_mul] at hcross
      exact (Nat.mul_eq_zero.mp hcross.symm).resolve_right hden.ne'
    · intro hnum
      rw [hnum, Nat.zero_mul] at hcross
      exact (Nat.mul_eq_zero.mp hcross).resolve_right hother.ne'
  by_cases hnum : quotient.1 = 0
  · rw [ofQuotient, ofQuotient, if_pos hnum, if_pos (hzero.mp hnum)]
  · have hnumOther := hzero.not.mp hnum
    -- Order and rounding are functions of the quotient alone.
    have horder : binaryOrder quotient.1 quotient.2 = binaryOrder other.1 other.2 := by
      rw [binaryOrder_eq (Nat.pos_of_ne_zero hnum) hden,
        binaryOrder_eq (Nat.pos_of_ne_zero hnumOther) hother, Prod.mk.eta, Prod.mk.eta, h]
    unfold ofQuotient
    rw [if_neg hnum, if_neg hnumOther, horder]
    dsimp only
    rw [roundQuotient_congr (inUnits_pos two_pos _ _ hden) (inUnits_pos two_pos _ _ hother)]
    rw [ratio_inUnits two_pos, ratio_inUnits two_pos, Prod.mk.eta, Prod.mk.eta, h]

/-! ## Exact quotients -/

/-- The value of the magnitude of a finite number. -/
def value (x : Binary64) : ℚ :=
  x.significand * 2 ^ x.unit

variable {x : Binary64}

theorem significand_lt (x : Binary64) : x.significand < 2 ^ 53 := by
  have := x.fraction.isLt
  unfold significand
  split <;> omega

theorem unit_bounds (h : x.isFinite = true) : -1074 ≤ x.unit ∧ x.unit ≤ 971 := by
  have := x.exponent.isLt
  have : x.exponent.val ≠ 2047 := by simpa [isFinite] using h
  unfold unit
  omega

theorem value_pos (h : x.significand ≠ 0) : 0 < x.value := by
  have := Nat.pos_of_ne_zero h
  unfold value
  positivity

/-- The unit of the numbers that are nearest to the value of a number is the unit of the number. -/
theorem unit_eq (hfinite : x.isFinite = true) (h : x.significand ≠ 0) :
    max (Int.log 2 x.value - 52) (-1074) = x.unit := by
  have hpos := value_pos h
  have hunit := unit_bounds hfinite
  -- A normal significand has all 53 bits, which ties the unit to the order; the unit of a
  -- subnormal number is the least one.
  have hbelow : Int.log 2 x.value < 53 + x.unit := by
    have hlt : (x.significand : ℚ) < 2 ^ (53 : Int) := by exact_mod_cast x.significand_lt
    rw [← Int.lt_zpow_iff_log_lt one_lt_two hpos, value, Nat.cast_ofNat, zpow_add₀ two_ne_zero]
    gcongr
  by_cases hexponent : x.exponent.val = 0
  · have hleast : x.unit = -1074 := by
      unfold unit
      omega
    omega
  · have hle : (2 : ℚ) ^ (52 : Int) ≤ x.significand := by
      have : 2 ^ 52 ≤ x.significand := by
        unfold significand
        rw [if_neg hexponent]
        exact Nat.le_add_right _ _
      exact_mod_cast this
    have habove : 52 + x.unit ≤ Int.log 2 x.value := by
      rw [← Int.zpow_le_iff_le_log one_lt_two hpos, value, Nat.cast_ofNat, zpow_add₀ two_ne_zero]
      gcongr
    omega

theorem fields_eq (x : Binary64) :
    (x.unit + 1074).toNat * 0x10000000000000 + x.significand =
      x.exponent * 0x10000000000000 + x.fraction := by
  unfold unit significand
  split <;> omega

theorem ofFields_fields (h : x.isFinite = true) :
    ofFields x.negative (x.exponent * 0x10000000000000 + x.fraction) = x := by
  obtain ⟨negative, ⟨exponent, hexponent⟩, ⟨fraction, hfraction⟩⟩ := x
  have hne : exponent ≠ 2047 := by simpa [isFinite] using h
  unfold ofFields
  dsimp only
  rw [dif_pos (by omega)]
  simp only [mk.injEq, Fin.mk.injEq, true_and]
  omega

theorem roundQuotient_exact {n : Nat} (hden : 0 < quotient.2) (h : ratio quotient = n) :
    roundQuotient quotient.1 quotient.2 = n := by
  have hwhole : ratio quotient = ratio (n, 1) := by rw [h, ratio, Nat.cast_one, div_one]
  rw [roundQuotient_congr hden one_pos hwhole]
  simp [roundQuotient, Nat.mod_one]

/-- A quotient that is the value of a number rounds to that number. -/
theorem ofQuotient_exact (hfinite : x.isFinite = true) (hsignificand : x.significand ≠ 0)
    (hden : 0 < quotient.2) (h : ratio quotient = x.value) :
    ofQuotient x.negative quotient.1 quotient.2 = x := by
  have hnum : quotient.1 ≠ 0 := by
    intro hzero
    have hpos := value_pos hsignificand
    rw [← h, ratio, hzero, Nat.cast_zero, zero_div] at hpos
    exact absurd hpos (lt_irrefl 0)
  -- The quotient is a multiple of the unit, so that nothing is rounded.
  have hround : roundQuotient (inUnits 2 x.unit quotient.1 quotient.2).1
      (inUnits 2 x.unit quotient.1 quotient.2).2 = x.significand := by
    apply roundQuotient_exact (inUnits_pos two_pos _ _ hden)
    rw [ratio_inUnits two_pos, Prod.mk.eta, h, value, Nat.cast_ofNat,
      mul_div_cancel_right₀ _ (zpow_ne_zero _ two_ne_zero)]
  unfold ofQuotient
  rw [if_neg hnum, binaryOrder_eq (Nat.pos_of_ne_zero hnum) hden, Prod.mk.eta, h,
    unit_eq hfinite hsignificand]
  dsimp only
  rw [hround, fields_eq, ofFields_fields hfinite]

/-! ## Decimals -/

/-- The count of decimal digits is one more than the logarithm. -/
theorem digitCount_eq {n : Nat} (h : n ≠ 0) : (digitCount n : Int) = Int.log 10 (n : ℚ) + 1 := by
  have hcount : ∀ k, 0 < k → (digitCount n ≤ k ↔ Nat.log 10 n < k) := by
    intro k hk
    rw [digitCount, Nat.length_toDigits_le_iff (by decide) hk,
      Nat.log_lt_iff_lt_pow (by decide) h]
  have hself := (hcount (digitCount n) Nat.length_toDigits_pos).mp le_rfl
  have hnext := (hcount (Nat.log 10 n + 1) (Nat.succ_pos _)).mpr (Nat.lt_succ_self _)
  rw [Int.log_natCast]
  omega

/-- How many digits a decimal has before the point is a matter of its value. -/
theorem place_eq {d : Decimal} (h : d.digits ≠ 0) :
    (digitCount d.digits : Int) + d.exponent = Int.log 10 d.value + 1 := by
  have hpos : (0 : ℚ) < d.digits := Nat.cast_pos.mpr (Nat.pos_of_ne_zero h)
  rw [digitCount_eq h]
  suffices hlog : Int.log 10 d.value = Int.log 10 (d.digits : ℚ) + d.exponent by omega
  apply eq_of_forall_le_iff
  intro k
  rw [← Int.zpow_le_iff_le_log (by decide) (Decimal.value_pos h), ← sub_le_iff_le_add,
    ← Int.zpow_le_iff_le_log (by decide) hpos, Decimal.value, Nat.cast_ofNat,
    zpow_sub₀ (by norm_num), div_le_iff₀ (by positivity)]

/-- The quotient that a decimal is. -/
def quotientOf (d : Decimal) : Nat × Nat :=
  inUnits 10 (-d.exponent) d.digits 1

theorem quotientOf_pos (d : Decimal) : 0 < (quotientOf d).2 :=
  inUnits_pos (by decide) _ _ one_pos

theorem ratio_quotientOf (d : Decimal) : ratio (quotientOf d) = d.value := by
  rw [quotientOf, ratio_inUnits (by decide), ratio, Decimal.value, Nat.cast_one, div_one,
    Nat.cast_ofNat, zpow_neg, div_inv_eq_mul]

/-- The three ways of reading a decimal: zero, out of range, and rounding its quotient. -/
theorem ofDecimal_eq (negative : Bool) (d : Decimal) :
    ofDecimal negative d =
      if d.value = 0 then zero negative
      else if 310 < Int.log 10 d.value + 1 then infinity negative
      else if Int.log 10 d.value + 1 < -330 then zero negative
      else ofQuotient negative (quotientOf d).1 (quotientOf d).2 := by
  unfold ofDecimal quotientOf
  by_cases hzero : d.digits = 0
  · rw [if_pos hzero, if_pos (Decimal.value_eq_zero.mpr hzero)]
  · rw [if_neg hzero, if_neg (Decimal.value_eq_zero.not.mpr hzero), place_eq hzero]

/-- The number nearest to a decimal depends on the value of the decimal only. -/
theorem ofDecimal_congr (negative : Bool) {d other : Decimal} (h : d.value = other.value) :
    ofDecimal negative d = ofDecimal negative other := by
  have hratio : ratio (quotientOf d) = ratio (quotientOf other) := by
    rw [ratio_quotientOf, ratio_quotientOf, h]
  rw [ofDecimal_eq, ofDecimal_eq, h,
    ofQuotient_congr negative (quotientOf_pos d) (quotientOf_pos other) hratio]

/-! ## Reading back -/

theorem eq_zero_of_significand (h : x.significand = 0) : x = zero x.negative := by
  obtain ⟨negative, ⟨exponent, hexponent⟩, ⟨fraction, hfraction⟩⟩ := x
  unfold significand at h
  dsimp only at h
  split at h
  · rename_i hzero
    subst hzero h
    rfl
  · omega

/-- The least positive number of the format is above the least power of ten that is looked at. -/
theorem least_bound : (10 : ℚ) ^ (-330 : Int) ≤ 2 ^ (-1074 : Int) := by
  have hpower : (2 : ℚ) ^ 1074 ≤ 10 ^ 330 := by
    exact_mod_cast (show 2 ^ 1074 ≤ 10 ^ 330 by decide +kernel)
  rw [zpow_neg, zpow_neg, zpow_ofNat, zpow_ofNat]
  exact inv_anti₀ (by positivity) hpower

/-- The infinity of the format is below the greatest power of ten that is looked at. -/
theorem greatest_bound : (2 : ℚ) ^ (1024 : Int) ≤ 10 ^ (309 : Int) := by
  rw [zpow_ofNat, zpow_ofNat]
  exact_mod_cast (show 2 ^ 1024 ≤ 10 ^ 309 by decide +kernel)

/-- No finite number falls outside the range within which decimals are rounded. -/
theorem log_value_bounds (hfinite : x.isFinite = true) (h : x.significand ≠ 0) :
    -330 ≤ Int.log 10 x.value ∧ Int.log 10 x.value < 309 := by
  have hpos := value_pos h
  obtain ⟨hunitLow, hunitHigh⟩ := unit_bounds hfinite
  have hone : (1 : ℚ) ≤ x.significand := by exact_mod_cast Nat.one_le_iff_ne_zero.mpr h
  have hlt : (x.significand : ℚ) < 2 ^ (53 : Int) := by exact_mod_cast x.significand_lt
  rw [← Int.zpow_le_iff_le_log (by decide) hpos, ← Int.lt_zpow_iff_log_lt (by decide) hpos,
    Nat.cast_ofNat, value]
  constructor
  · calc
      (10 : ℚ) ^ (-330 : Int) ≤ 2 ^ (-1074 : Int) := least_bound
      _ ≤ 2 ^ x.unit := zpow_le_zpow_right₀ one_le_two hunitLow
      _ ≤ x.significand * 2 ^ x.unit := le_mul_of_one_le_left (by positivity) hone
  · calc
      (x.significand : ℚ) * 2 ^ x.unit < 2 ^ (53 : Int) * 2 ^ x.unit := by gcongr
      _ = 2 ^ (53 + x.unit) := (zpow_add₀ two_ne_zero _ _).symm
      _ ≤ 2 ^ (1024 : Int) := zpow_le_zpow_right₀ one_le_two (by omega)
      _ ≤ 10 ^ (309 : Int) := greatest_bound

/-- A decimal that has the value of a finite number is read as that number. -/
theorem ofDecimal_exact (hfinite : x.isFinite = true) {d : Decimal} (h : d.value = x.value) :
    ofDecimal x.negative d = x := by
  rw [ofDecimal_eq, h]
  by_cases hzero : x.significand = 0
  · rw [if_pos, ← eq_zero_of_significand hzero]
    rw [value, hzero, Nat.cast_zero, zero_mul]
  · obtain ⟨hleast, hmost⟩ := log_value_bounds hfinite hzero
    rw [if_neg (value_pos hzero).ne', if_neg (by omega), if_neg (by omega)]
    apply ofQuotient_exact hfinite hzero (quotientOf_pos d)
    rw [ratio_quotientOf, h]

/-- The exact decimal has the value of the number. -/
theorem value_exactDecimal (x : Binary64) : x.exactDecimal.value = x.value := by
  unfold exactDecimal value Decimal.value
  split
  · rename_i hunit
    rw [Nat.pow_eq, Nat.cast_mul, Nat.cast_pow, zpow_zero, mul_one, ← zpow_natCast,
      Int.toNat_of_nonneg hunit, Nat.cast_ofNat]
  · rename_i hunit
    have hneg : ((-x.unit).toNat : Int) = -x.unit := Int.toNat_of_nonneg (by omega)
    rw [Nat.pow_eq, Nat.cast_mul, Nat.cast_pow, ← zpow_natCast, hneg, Nat.cast_ofNat, mul_assoc,
      show (10 : ℚ) = 5 * 2 by norm_num, mul_zpow, ← mul_assoc (_ ^ _), ← zpow_add₀ (by norm_num),
      neg_add_cancel, zpow_zero, one_mul]

/-- A decimal that was chosen for a number reads back as it, since the choice checks just that. -/
theorem ofDecimal_nearestDecimal? {count : Nat} {d : Decimal}
    (h : nearestDecimal? x count = some d) : ofDecimal x.negative d = x := by
  unfold nearestDecimal? at h
  dsimp only at h
  -- Whichever neighbour is taken, it was taken because it reads back.
  split at h
  · rename_i hlow hhigh
    split at h
    · rw [← Option.some.inj h]
      exact beq_iff_eq.mp hlow
    · rw [← Option.some.inj h]
      exact beq_iff_eq.mp hhigh
  · rename_i hlow _
    rw [← Option.some.inj h]
    exact beq_iff_eq.mp hlow
  · rename_i _ hhigh
    rw [← Option.some.inj h]
    exact beq_iff_eq.mp hhigh
  · cases h

/-- The decimal that a finite number is written as is read as that number. -/
theorem ofDecimal_shortestDecimal (h : x.isFinite = true) :
    ofDecimal x.negative x.shortestDecimal = x := by
  unfold shortestDecimal
  cases hfound : (List.range 17).findSome? fun n => nearestDecimal? x (n + 1) with
  | none => exact ofDecimal_exact h x.value_exactDecimal
  | some d =>
    obtain ⟨n, _, hnearest⟩ := List.exists_of_findSome?_eq_some hfound
    exact ofDecimal_nearestDecimal? hnearest

end Binary64

end ApiTypes
