import ApiTypes.Json.Reader
import ApiTypes.Proofs.Json.Binary64
import ApiTypes.Proofs.Text.Letters
import Mathlib.Data.List.TakeWhile

/-!
# Numerals are read as they were written

A number is written as a numeral: digits, perhaps a fraction, perhaps an exponent. Whatever notation
is chosen for a decimal, the parts that are read off its text have the value of the decimal.
-/

namespace ApiTypes

namespace Text

/-! ## Digits -/

theorem digitsValue_eq (cs : List Char) : digitsValue cs = Nat.ofDigitChars 10 cs 0 := by
  rw [digitsValue, Nat.ofDigitChars_eq_foldl]
  simp only [Nat.mul_comm]

/-- Reading the digits of two texts in succession shifts the first by the length of the second. -/
theorem digitsValue_append (first second : List Char) :
    digitsValue (first ++ second) = digitsValue first * 10 ^ second.length + digitsValue second := by
  rw [digitsValue_eq, Nat.ofDigitChars_append, Nat.ofDigitChars_eq_ofDigitChars_zero, Nat.mul_comm,
    ← digitsValue_eq, ← digitsValue_eq]

theorem digitsValue_zeros (n : Nat) : digitsValue (List.replicate n '0') = 0 := by
  rw [digitsValue_eq, Nat.ofDigitChars_replicate_zero, Nat.mul_zero]

theorem digitsValue_toDigits (n : Nat) : digitsValue (Nat.toDigits 10 n) = n := by
  rw [digitsValue_eq, Nat.ofDigitChars_ten_toDigits]

theorem isDigit_of_mem_toDigits {n : Nat} {c : Char} (h : c ∈ Nat.toDigits 10 n) :
    c.isDigit = true :=
  Nat.isDigit_of_mem_toDigits (by decide) (by decide) h

/-- The digits of a positive number do not begin with a zero. -/
theorem head_toDigits {n : Nat} (h : n ≠ 0) : (Nat.toDigits 10 n).head? ≠ some '0' := by
  induction n using Nat.strongRecOn with
  | ind n ih =>
    rw [Nat.toDigits_eq_if (by decide)]
    split
    · rename_i hsmall
      have hdigit : ∀ n < 10, n ≠ 0 → n.digitChar ≠ '0' := by decide
      rw [List.head?_cons]
      exact fun hzero => hdigit n hsmall h (Option.some.inj hzero)
    · have hrest := ih (n / 10) (by omega) (by omega)
      rwa [List.head?_append_of_ne_nil _ Nat.toDigits_ne_nil]

/-- What may follow a run of digits: it does not begin with a digit. -/
def EndsDigits (tail : List Char) : Prop :=
  ∀ c ∈ tail.head?, c.isDigit = false

variable {digits tail : List Char}

theorem span_isDigit (h : ∀ c ∈ digits, c.isDigit = true) (htail : EndsDigits tail) :
    (digits ++ tail).span Char.isDigit = (digits, tail) := by
  rw [List.span_eq_takeWhile_dropWhile, List.takeWhile_append_of_pos h,
    List.dropWhile_append_of_pos h]
  cases tail with
  | nil => rw [List.takeWhile_nil, List.dropWhile_nil, List.append_nil]
  | cons c tail =>
    have hc : ¬c.isDigit = true := by simp [htail c rfl]
    rw [List.takeWhile_cons_of_neg hc, List.dropWhile_cons_of_neg hc, List.append_nil]

/-! ## The parts of a numeral -/

/-- The digits of a numeral before the point: a single zero, or digits that do not begin with
one. -/
def IsWhole (digits : List Char) : Prop :=
  digits = ['0'] ∨
    digits ≠ [] ∧ digits.head? ≠ some '0' ∧ ∀ c ∈ digits, c.isDigit = true

theorem isWhole_toDigits (n : Nat) : IsWhole (Nat.toDigits 10 n) := by
  by_cases h : n = 0
  · exact .inl (by rw [h, Nat.toDigits_zero])
  · exact .inr ⟨Nat.toDigits_ne_nil, head_toDigits h, fun _ => isDigit_of_mem_toDigits⟩

/-- A whole number is read up to the first character that is no digit. -/
theorem readWhole_append (h : IsWhole digits) (htail : EndsDigits tail) :
    Json.readWhole (digits ++ tail) = some (digits, tail) := by
  rcases h with rfl | ⟨hne, hzero, hdigits⟩
  · rfl
  · cases digits with
    | nil => exact absurd rfl hne
    | cons c digits =>
      have hc : c ≠ '0' := fun hsame => hzero (congrArg some hsame)
      rw [List.cons_append, Json.readWhole]
      · rw [if_pos (hdigits c List.mem_cons_self), ← List.cons_append, span_isDigit hdigits htail]
      · exact hc

theorem readFraction_append (hne : digits ≠ []) (h : ∀ c ∈ digits, c.isDigit = true)
    (htail : EndsDigits tail) :
    Json.readFraction ('.' :: (digits ++ tail)) = some (digits, tail) := by
  cases digits with
  | nil => exact absurd rfl hne
  | cons c digits =>
    rw [List.cons_append, Json.readFraction, if_pos (h c List.mem_cons_self), ← List.cons_append,
      span_isDigit h htail]

theorem readExponentDigits_eq (hne : digits ≠ []) (h : ∀ c ∈ digits, c.isDigit = true) :
    Json.readExponentDigits digits = some (digitsValue digits, []) := by
  have hspan : (digits ++ []).span Char.isDigit = (digits, []) :=
    span_isDigit h (by simp [EndsDigits])
  rw [List.append_nil] at hspan
  unfold Json.readExponentDigits
  rw [hspan]
  cases digits with
  | nil => exact absurd rfl hne
  | cons c digits => rfl

end Text

namespace Binary64

open Text

/-- An exponent is written as a sign and the digits of a number, perhaps with a zero before them. -/
theorem toList_exponentText (order : Int) : ∃ zeros, (exponentText order).toList =
    (if order < 0 then '-' else '+') :: (List.replicate zeros '0' ++ Nat.toDigits 10 order.natAbs) := by
  have hdigits : (toString order.natAbs).toList = Nat.toDigits 10 order.natAbs := by
    rw [Nat.toString_eq_repr, Nat.toList_repr]
  have hsign : (if order < 0 then "-" else "+").toList = [if order < 0 then '-' else '+'] := by
    split <;> rfl
  have hzeros : ∃ zeros, (if (toString order.natAbs).length < 2 then "0" else "").toList =
      List.replicate zeros '0' := by
    split
    · exact ⟨1, rfl⟩
    · exact ⟨0, rfl⟩
  obtain ⟨zeros, hzeros⟩ := hzeros
  refine ⟨zeros, ?_⟩
  unfold exponentText
  dsimp only
  rw [String.toList_append, String.toList_append, hdigits, hsign, hzeros]
  rfl

/-- The power of ten is read as it was written, sign and leading zero included. -/
theorem readExponent_exponentText (order : Int) :
    Json.readExponent ('e' :: (exponentText order).toList) = some (order, []) := by
  obtain ⟨zeros, htext⟩ := toList_exponentText order
  have hne : List.replicate zeros '0' ++ Nat.toDigits 10 order.natAbs ≠ [] :=
    List.append_ne_nil_of_right_ne_nil _ Nat.toDigits_ne_nil
  have hdigits : ∀ c ∈ List.replicate zeros '0' ++ Nat.toDigits 10 order.natAbs,
      c.isDigit = true := by
    intro c hc
    rcases List.mem_append.mp hc with hmem | hmem
    · rw [List.eq_of_mem_replicate hmem]
      rfl
    · exact isDigit_of_mem_toDigits hmem
  -- Leading zeros do not change what the digits are worth.
  have hread := readExponentDigits_eq hne hdigits
  rw [digitsValue_append, digitsValue_zeros, digitsValue_toDigits, Nat.zero_mul, Nat.zero_add]
    at hread
  by_cases hnegative : order < 0
  · have hvalue : -(order.natAbs : Int) = order := by omega
    rw [htext, if_pos hnegative, Json.readExponent, if_pos (.inl rfl), hread, Option.map_some]
    simp only [hvalue]
  · have hvalue : (order.natAbs : Int) = order := by omega
    rw [htext, if_neg hnegative, Json.readExponent, if_pos (.inl rfl), hread, Option.map_some]
    simp only [hvalue]

end Binary64

/-! ## Numerals -/

/-- A numeral without its sign: the digits before the point, those behind it if there is a point, and
the exponent if there is one. -/
structure Numeral where
  whole : List Char
  fraction : Option (List Char)
  exponent : Option Int

namespace Numeral

def read? (cs : List Char) : Option Numeral := do
  let (whole, rest) ← Json.readWhole cs
  let fraction := Json.readFraction rest
  let rest := (fraction.map (·.2)).getD rest
  let exponent := Json.readExponent rest
  let rest := (exponent.map (·.2)).getD rest
  if rest.isEmpty then some ⟨whole, fraction.map (·.1), exponent.map (·.1)⟩ else none

def decimal (numeral : Numeral) : Decimal :=
  let fraction := numeral.fraction.getD []
  ⟨Text.digitsValue (numeral.whole ++ fraction), numeral.exponent.getD 0 - fraction.length⟩

/-- The number that a numeral writes: an integer, if there is neither a point nor an exponent. -/
def number (negative : Bool) (numeral : Numeral) : Json :=
  if numeral.fraction.isNone && numeral.exponent.isNone then
    let n := (Text.digitsValue numeral.whole : Int)
    .int (if negative then -n else n)
  else .double (.ofDecimal negative numeral.decimal)

def pointText : Option (List Char) → List Char
  | none => []
  | some digits => '.' :: digits

def powerText : Option Int → List Char
  | none => []
  | some order => 'e' :: (Binary64.exponentText order).toList

def text (numeral : Numeral) : List Char :=
  numeral.whole ++ (pointText numeral.fraction ++ powerText numeral.exponent)

/-- There are digits on each side of the point, and no zero stands before other digits. -/
structure WellFormed (numeral : Numeral) : Prop where
  whole : Text.IsWhole numeral.whole
  fraction : ∀ digits ∈ numeral.fraction, digits ≠ [] ∧ ∀ c ∈ digits, c.isDigit = true

variable {numeral : Numeral} {fraction : Option (List Char)}

theorem endsDigits_powerText (exponent : Option Int) : Text.EndsDigits (powerText exponent) := by
  cases exponent <;> simp [powerText, Text.EndsDigits]

theorem endsDigits_pointText (fraction : Option (List Char)) (exponent : Option Int) :
    Text.EndsDigits (pointText fraction ++ powerText exponent) := by
  cases fraction with
  | none => exact endsDigits_powerText exponent
  | some digits => simp [pointText, Text.EndsDigits]

theorem readExponent_powerText (exponent : Option Int) :
    Json.readExponent (powerText exponent) = exponent.map fun order => (order, []) := by
  cases exponent with
  | none => rfl
  | some order => exact Binary64.readExponent_exponentText order

theorem readFraction_pointText
    (h : ∀ digits ∈ fraction, digits ≠ [] ∧ ∀ c ∈ digits, c.isDigit = true)
    (exponent : Option Int) :
    Json.readFraction (pointText fraction ++ powerText exponent) =
      fraction.map fun digits => (digits, powerText exponent) := by
  cases fraction with
  | none => cases exponent <;> rfl
  | some digits =>
    obtain ⟨hne, hdigits⟩ := h digits rfl
    exact Text.readFraction_append hne hdigits (endsDigits_powerText exponent)

/-- A numeral falls into the parts of which it was written. -/
theorem read?_text (h : numeral.WellFormed) : read? numeral.text = some numeral := by
  obtain ⟨whole, fraction, exponent⟩ := numeral
  have hrest : ((fraction.map fun digits => (digits, powerText exponent)).map (·.2)).getD
      (pointText fraction ++ powerText exponent) = powerText exponent := by
    cases fraction <;> rfl
  have hend : ((exponent.map fun order => (order, ([] : List Char))).map (·.2)).getD
      (powerText exponent) = [] := by
    cases exponent <;> rfl
  unfold read? text
  rw [Text.readWhole_append h.whole (endsDigits_pointText fraction exponent)]
  simp only [Option.bind_eq_bind, Option.bind_some]
  rw [readFraction_pointText h.fraction, hrest, readExponent_powerText, hend,
    if_pos List.isEmpty_nil]
  cases fraction <;> cases exponent <;> rfl

end Numeral

/-! ## Decimals -/

namespace Decimal

/-- A factor of ten among the digits is as good as one in the exponent. -/
theorem value_mul_pow (n k : Nat) (exponent : Int) :
    value ⟨n * 10 ^ k, exponent⟩ = value ⟨n, exponent + k⟩ := by
  rw [value, value, Nat.cast_mul, Nat.cast_pow, Nat.cast_ofNat, add_comm exponent,
    zpow_add₀ (by norm_num), zpow_natCast, mul_assoc]

/-- How many digits a decimal has before its point; a negative number counts the zeros behind it. -/
def place (d : Decimal) : Int :=
  Binary64.digitCount d.digits + d.exponent

end Decimal

namespace Binary64

open Text

variable {d : Decimal}

theorem exists_toDigits_eq (d : Decimal) :
    ∃ zeros, Nat.toDigits 10 d.digits = leadingDigits d ++ List.replicate zeros '0' := by
  let digits := Nat.toDigits 10 d.digits
  let isZero : Char → Bool := (· == '0')
  have hzeros : ∀ c ∈ digits.reverse.takeWhile isZero, c = '0' :=
    fun c hc => beq_iff_eq.mp (List.mem_takeWhile_imp (p := isZero) hc)
  refine ⟨(digits.reverse.takeWhile isZero).length, ?_⟩
  calc
    digits = (digits.reverse.takeWhile isZero ++ digits.reverse.dropWhile isZero).reverse := by
      rw [List.takeWhile_append_dropWhile, List.reverse_reverse]
    _ = leadingDigits d ++ (digits.reverse.takeWhile isZero).reverse := List.reverse_append
    _ = _ := by
      conv_lhs => rw [List.eq_replicate_of_mem hzeros, List.reverse_replicate]

theorem isDigit_of_mem_leadingDigits {c : Char} (h : c ∈ leadingDigits d) : c.isDigit = true := by
  obtain ⟨zeros, hdigits⟩ := exists_toDigits_eq d
  exact isDigit_of_mem_toDigits (hdigits ▸ List.mem_append_left _ h)

theorem leadingDigits_ne_nil (h : d.digits ≠ 0) : leadingDigits d ≠ [] := by
  obtain ⟨zeros, hdigits⟩ := exists_toDigits_eq d
  intro hnil
  have hvalue := digitsValue_toDigits d.digits
  rw [hdigits, hnil, List.nil_append, digitsValue_zeros] at hvalue
  exact h hvalue.symm

theorem head_leadingDigits (h : d.digits ≠ 0) : (leadingDigits d).head? ≠ some '0' := by
  obtain ⟨zeros, hdigits⟩ := exists_toDigits_eq d
  have hhead := head_toDigits h
  rwa [hdigits, List.head?_append_of_ne_nil _ (leadingDigits_ne_nil h)] at hhead

/-- The zeros at the end of a decimal count for its place only. -/
theorem value_leadingDigits (d : Decimal) :
    Decimal.value ⟨digitsValue (leadingDigits d), d.place - (leadingDigits d).length⟩ = d.value := by
  obtain ⟨zeros, hdigits⟩ := exists_toDigits_eq d
  have hvalue := digitsValue_toDigits d.digits
  rw [hdigits, digitsValue_append, digitsValue_zeros, List.length_replicate, Nat.add_zero] at hvalue
  have hplace : d.place = (leadingDigits d).length + zeros + d.exponent := by
    rw [Decimal.place, digitCount, hdigits, List.length_append, List.length_replicate, Nat.cast_add]
  have hexponent : d.place - (leadingDigits d).length = d.exponent + zeros := by omega
  rw [hexponent, ← Decimal.value_mul_pow, hvalue]

/-- The numeral as which a decimal is written. -/
def numeralOf (d : Decimal) : Numeral :=
  let digits := leadingDigits d
  if isPositional (d.place - 1) then
    if d.place ≤ 0 then
      ⟨['0'], some (List.replicate (-d.place).toNat '0' ++ digits), none⟩
    else
      let whole := digits.take d.place.toNat
      let fraction := digits.drop d.place.toNat
      ⟨whole ++ List.replicate (d.place.toNat - whole.length) '0',
        some (if fraction.isEmpty then ['0'] else fraction), none⟩
  else
    ⟨digits.take 1, if digits.length < 2 then none else some (digits.drop 1),
      some (d.place - 1)⟩

/-- The text of a decimal is that of its numeral. -/
theorem toList_decimalText (d : Decimal) : (decimalText d).toList = (numeralOf d).text := by
  unfold decimalText numeralOf
  rw [← Decimal.place]
  dsimp only
  split
  · split
    · rw [String.toList_ofList]
      simp [Numeral.text, Numeral.pointText, Numeral.powerText]
    · rw [String.toList_ofList]
      simp [Numeral.text, Numeral.pointText, Numeral.powerText]
  · rw [String.toList_append, String.toList_append, String.toList_ofList]
    simp only [Numeral.text, Numeral.powerText, List.append_assoc]
    split <;> rfl

theorem isWhole_take {count : Nat} (h : d.digits ≠ 0) (hcount : 0 < count) (zeros : Nat) :
    IsWhole ((leadingDigits d).take count ++ List.replicate zeros '0') := by
  have hne : (leadingDigits d).take count ≠ [] := by
    rw [Ne, List.take_eq_nil_iff]
    exact not_or.mpr ⟨hcount.ne', leadingDigits_ne_nil h⟩
  refine .inr ⟨List.append_ne_nil_of_left_ne_nil hne _, ?_, ?_⟩
  · rw [List.head?_append_of_ne_nil _ hne, List.head?_take, if_neg hcount.ne']
    exact head_leadingDigits h
  · intro c hc
    rcases List.mem_append.mp hc with hmem | hmem
    · exact isDigit_of_mem_leadingDigits (List.mem_of_mem_take hmem)
    · rw [List.eq_of_mem_replicate hmem]
      rfl

/-- The numeral of a decimal is one that the reader takes: no empty part and no leading zero. -/
theorem wellFormed_numeralOf (h : d.digits ≠ 0) : (numeralOf d).WellFormed := by
  have hdrop : ∀ count, ∀ c ∈ (leadingDigits d).drop count, c.isDigit = true :=
    fun count c hc => isDigit_of_mem_leadingDigits (List.mem_of_mem_drop hc)
  unfold numeralOf
  dsimp only
  -- The cases are those of the layout: a fraction below one, one with a point inside, and one with
  -- an exponent.
  split
  · split
    · refine ⟨.inl rfl, fun digits hdigits => ?_⟩
      rw [← Option.mem_some.mp hdigits]
      refine ⟨List.append_ne_nil_of_right_ne_nil _ (leadingDigits_ne_nil h), fun c hc => ?_⟩
      rcases List.mem_append.mp hc with hmem | hmem
      · rw [List.eq_of_mem_replicate hmem]
        rfl
      · exact isDigit_of_mem_leadingDigits hmem
    · refine ⟨isWhole_take h (by omega) _, fun digits hdigits => ?_⟩
      rw [← Option.mem_some.mp hdigits]
      split
      · exact ⟨List.cons_ne_nil _ _, List.forall_mem_singleton.mpr rfl⟩
      · rename_i hfraction
        exact ⟨fun hnil => hfraction (List.isEmpty_iff.mpr hnil), hdrop _⟩
  · refine ⟨?_, fun digits hdigits => ?_⟩
    · have hwhole := isWhole_take h one_pos 0
      rwa [List.replicate_zero, List.append_nil] at hwhole
    · dsimp only at hdigits
      split at hdigits
      · cases hdigits
      · rename_i hlong
        rw [← Option.mem_some.mp hdigits]
        refine ⟨fun hnil => hlong ?_, hdrop 1⟩
        have := List.drop_eq_nil_iff.mp hnil
        omega

/-- A decimal is always written with a point or an exponent. -/
theorem numeralOf_ne_integer (d : Decimal) :
    ((numeralOf d).fraction.isNone && (numeralOf d).exponent.isNone) = false := by
  unfold numeralOf
  dsimp only
  split
  · split <;> rfl
  · exact Bool.and_false _

/-- Zeros before the digits of a decimal do not count, and those behind them for the exponent only. -/
theorem value_decimal {numeral : Numeral} (before behind : Nat)
    (hdigits : numeral.whole ++ numeral.fraction.getD [] =
      List.replicate before '0' ++ (leadingDigits d ++ List.replicate behind '0'))
    (hexponent : numeral.exponent.getD 0 - (numeral.fraction.getD []).length + behind =
      d.place - (leadingDigits d).length) : numeral.decimal.value = d.value := by
  rw [Numeral.decimal, hdigits, digitsValue_append, digitsValue_zeros, Nat.zero_mul, Nat.zero_add,
    digitsValue_append, digitsValue_zeros, List.length_replicate, Nat.add_zero,
    Decimal.value_mul_pow, hexponent, value_leadingDigits]

/-- A numeral may have its point anywhere among the digits of a decimal. -/
theorem value_cut {numeral : Numeral}
    (hdigits : numeral.whole ++ numeral.fraction.getD [] = leadingDigits d)
    (hexponent : numeral.exponent.getD 0 - (numeral.fraction.getD []).length =
      d.place - (leadingDigits d).length) : numeral.decimal.value = d.value := by
  apply value_decimal 0 0
  · rw [hdigits, List.replicate_zero, List.nil_append, List.append_nil]
  · rw [hexponent.symm, Nat.cast_zero, add_zero]

/-- The numeral of a decimal has its value, in the plain as in the scientific layout. -/
theorem value_numeralOf (h : d.digits ≠ 0) : (numeralOf d).decimal.value = d.value := by
  have hlength := List.length_pos_of_ne_nil (leadingDigits_ne_nil h)
  unfold numeralOf
  dsimp only
  -- In every layout the digits are the leading digits, some zeros apart, and the exponent makes up
  -- for the place of the point.
  split
  · split
    · apply value_decimal ((-d.place).toNat + 1) 0
      · simp [List.replicate_succ]
      · simp only [Option.getD_none, Option.getD_some, List.length_append, List.length_replicate]
        omega
    · by_cases hfraction : (leadingDigits d).length ≤ d.place.toNat
      · rw [List.take_of_length_le hfraction, List.drop_of_length_le hfraction,
          List.isEmpty_nil, if_pos rfl]
        apply value_decimal 0 (d.place.toNat - (leadingDigits d).length + 1)
        · simp [List.replicate_succ']
        · simp only [Option.getD_none, Option.getD_some, List.length_singleton]
          omega
      · have hne : ¬((leadingDigits d).drop d.place.toNat).isEmpty = true := by
          rw [List.isEmpty_iff, List.drop_eq_nil_iff]
          exact hfraction
        have hnone : d.place.toNat - ((leadingDigits d).take d.place.toNat).length = 0 := by
          rw [List.length_take]
          omega
        rw [if_neg hne, hnone, List.replicate_zero, List.append_nil]
        refine value_cut (List.take_append_drop _ _) ?_
        simp only [Option.getD_none, Option.getD_some, List.length_drop]
        omega
  · split
    · rename_i hshort
      refine value_cut ?_ ?_
      · rw [List.take_of_length_le (by omega), Option.getD_none, List.append_nil]
      · simp only [Option.getD_none, Option.getD_some, List.length_nil]
        omega
    · refine value_cut (List.take_append_drop _ _) ?_
      simp only [Option.getD_some, List.length_drop]
      omega

end Binary64

/-! ## Numbers -/

namespace Json

/-- The number that a text writes: a numeral, perhaps with a minus before it. -/
def readNumber? : List Char → Option Json
  | '-' :: cs => (Numeral.read? cs).map (Numeral.number true)
  | cs => (Numeral.read? cs).map (Numeral.number false)

def signText (negative : Bool) : List Char :=
  if negative then ['-'] else []

/-- A well-formed numeral is read as the number that it spells. -/
theorem readNumber?_text {numeral : Numeral} (h : numeral.WellFormed) (negative : Bool) :
    readNumber? (signText negative ++ numeral.text) = some (numeral.number negative) := by
  have hread := Numeral.read?_text h
  cases negative with
  | true => exact congrArg (Option.map (Numeral.number true)) hread
  | false =>
    have hsign : ∀ cs, numeral.text ≠ '-' :: cs := by
      intro cs hcs
      rw [hcs] at hread
      cases hread
    rw [signText, if_neg Bool.false_ne_true, List.nil_append, readNumber?, hread, Option.map_some]
    exact hsign

theorem toList_int (i : Int) :
    (toString i).toList = signText (i < 0) ++ Nat.toDigits 10 i.natAbs := by
  rw [Int.toString_eq_repr, Int.repr_eq_if, signText]
  split
  · rename_i hpositive
    rw [if_neg (by simpa using hpositive), List.nil_append, Nat.toList_repr]
    congr 1
    omega
  · rename_i hnegative
    rw [if_pos (by simpa using hnegative), String.toList_append, Nat.toList_repr]
    congr 2
    omega

/-- An integer reads back as itself. -/
theorem readNumber?_int (i : Int) : readNumber? (toString i).toList = some (.int i) := by
  let numeral : Numeral := ⟨Nat.toDigits 10 i.natAbs, none, none⟩
  have hformed : numeral.WellFormed := ⟨Text.isWhole_toDigits _, fun _ h => nomatch h⟩
  have htext : numeral.text = Nat.toDigits 10 i.natAbs := List.append_nil _
  have hvalue : numeral.number (i < 0) = .int i := by
    have hdigits : Text.digitsValue numeral.whole = i.natAbs := Text.digitsValue_toDigits _
    rw [Numeral.number, hdigits]
    simp only [decide_eq_true_eq]
    refine (if_pos rfl).trans (congrArg Json.int ?_)
    omega
  rw [toList_int, ← htext, readNumber?_text hformed, hvalue]

end Json

namespace Binary64

variable {x : Binary64}

/-- The numeral as which the magnitude of a finite number is written. -/
def numeral (x : Binary64) : Numeral :=
  if x.isZero then ⟨['0'], some ['0'], none⟩ else numeralOf x.shortestDecimal

theorem toList_text (h : x.isFinite = true) :
    x.text.toList = Json.signText x.negative ++ x.numeral.text := by
  have hexponent : (x.exponent.val == 2047) = false := by
    simpa [isFinite] using h
  have hsign : (if x.negative then "-" else "").toList = Json.signText x.negative := by
    cases x.negative <;> rfl
  have hinfinite : ¬(!x.isFinite) = true := by simp [h]
  rw [text, isNaN, hexponent, Bool.false_and, if_neg Bool.false_ne_true, if_neg hinfinite,
    String.toList_append, hsign, numeral]
  split
  · rfl
  · rw [toList_decimalText]

/-- The infinities and what is no number are written as words. -/
theorem text_nonfinite (h : x.isFinite = false) : x.text ∈ ["nan", "inf", "-inf"] := by
  rw [text]
  split
  · decide
  · rw [h, if_pos (show (!false) = true from rfl)]
    cases x.negative <;> decide

theorem digits_shortestDecimal (hfinite : x.isFinite = true) (hzero : ¬x.isZero = true) :
    x.shortestDecimal.digits ≠ 0 := by
  intro hdigits
  have hread := ofDecimal_shortestDecimal hfinite
  rw [ofDecimal, if_pos hdigits] at hread
  exact hzero (by rw [← hread]; rfl)

theorem wellFormed_numeral (h : x.isFinite = true) : x.numeral.WellFormed := by
  unfold numeral
  split
  · refine ⟨.inl rfl, fun digits hdigits => ?_⟩
    rw [← Option.mem_some.mp hdigits]
    exact ⟨List.cons_ne_nil _ _, List.forall_mem_singleton.mpr rfl⟩
  · rename_i hzero
    exact wellFormed_numeralOf (digits_shortestDecimal h hzero)

/-- The numeral of a finite number spells that number. -/
theorem number_numeral (h : x.isFinite = true) : x.numeral.number x.negative = .double x := by
  unfold numeral
  split
  · rename_i hzero
    have hsame : zero x.negative = x := by
      obtain ⟨negative, exponent, fraction⟩ := x
      simp only [isZero, Bool.and_eq_true, beq_iff_eq] at hzero
      obtain ⟨hexponent, hfraction⟩ := hzero
      simp only [zero, mk.injEq, true_and, Fin.ext_iff]
      exact ⟨hexponent.symm, hfraction.symm⟩
    exact congrArg Json.double hsame
  · rename_i hzero
    rw [Numeral.number, numeralOf_ne_integer, if_neg Bool.false_ne_true,
      ofDecimal_congr x.negative (value_numeralOf (digits_shortestDecimal h hzero)),
      ofDecimal_shortestDecimal h]

end Binary64

namespace Json

/-- A finite number is read back from the text for it, the sign of a zero included. -/
theorem readNumber?_double {x : Binary64} (h : x.isFinite = true) :
    readNumber? x.text.toList = some (.double x) := by
  rw [Binary64.toList_text h, readNumber?_text (Binary64.wellFormed_numeral h),
    Binary64.number_numeral h]

end Json

end ApiTypes
