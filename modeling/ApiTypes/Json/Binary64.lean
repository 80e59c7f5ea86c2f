/-!
Double-precision numbers by the three fields of their binary format, with exact arithmetic on
naturals: rounding a quotient to the nearest number, reading a decimal, and the shortest decimal
that reads back.
-/

namespace ApiTypes

/-- A decimal numeral without its sign: `digits` times ten to the power `exponent`. -/
structure Decimal where
  digits : Nat
  exponent : Int
  deriving DecidableEq, Repr

/-- A double-precision number by its sign, biased exponent and fraction of 52 bits. The largest
exponent holds the infinities, with fraction zero, and the numbers that are no number. -/
structure Binary64 where
  negative : Bool
  exponent : Fin 2048
  fraction : Fin 0x10000000000000
  deriving DecidableEq, Repr

namespace Binary64

def zero (negative : Bool) : Binary64 :=
  ⟨negative, ⟨0, by decide⟩, ⟨0, by decide⟩⟩

def infinity (negative : Bool) : Binary64 :=
  ⟨negative, ⟨2047, by decide⟩, ⟨0, by decide⟩⟩

def nan : Binary64 :=
  ⟨false, ⟨2047, by decide⟩, ⟨0x8000000000000, by decide⟩⟩

instance : Inhabited Binary64 := ⟨zero false⟩

def isFinite (x : Binary64) : Bool :=
  x.exponent.val != 2047

def isNaN (x : Binary64) : Bool :=
  x.exponent.val == 2047 && x.fraction.val != 0

def isZero (x : Binary64) : Bool :=
  x.exponent.val == 0 && x.fraction.val == 0

/-- The whole number of units that make up a finite number's magnitude. -/
def significand (x : Binary64) : Nat :=
  if x.exponent.val = 0 then x.fraction.val else 0x10000000000000 + x.fraction.val

/-- The power of two that is the unit of a finite number's significand. -/
def unit (x : Binary64) : Int :=
  max (x.exponent.val : Int) 1 - 1075

/-! ## Quotients

A positive quotient is a pair of naturals, numerator and denominator.
-/

/-- The quotient measured in units of `base` to the power `k`. -/
def inUnits (base : Nat) (k : Int) (num den : Nat) : Nat × Nat :=
  (num * Nat.pow base (-k).toNat, den * Nat.pow base k.toNat)

def magnitude (x : Binary64) : Nat × Nat :=
  inUnits 2 (-x.unit) x.significand 1

/-- A quotient rounded to the nearest natural; a half goes to the even neighbour. -/
def roundQuotient (num den : Nat) : Nat :=
  let q := num / den
  let r := num % den
  if 2 * r < den then q else if den < 2 * r then q + 1 else q + q % 2

/-- The number whose exponent and fraction fields, read as one natural, are `fields`. From the
first infinity on, it is the infinity. -/
def ofFields (negative : Bool) (fields : Nat) : Binary64 :=
  if h : fields < 2047 * 0x10000000000000 then
    ⟨negative, ⟨fields / 0x10000000000000, by omega⟩,
      ⟨fields % 0x10000000000000, Nat.mod_lt _ (by decide)⟩⟩
  else infinity negative

/-- The exponent of the largest power of two that is at most a positive quotient. -/
def binaryOrder (num den : Nat) : Int :=
  -- The difference of the two orders is the order of the quotient or one more.
  let estimate : Int := (num.log2 : Int) - den.log2
  let (num, den) := inUnits 2 estimate num den
  if den ≤ num then estimate else estimate - 1

def ofQuotient (negative : Bool) (num den : Nat) : Binary64 :=
  if num = 0 then zero negative
  else
    let unit := max (binaryOrder num den - 52) (-1074)
    let (num, den) := inUnits 2 unit num den
    -- The leading bit of the rounded significand, and a carry beyond it, add to the exponent field.
    ofFields negative ((unit + 1074).toNat * 0x10000000000000 + roundQuotient num den)

/-! ## Decimals -/

/-- How many decimal digits a natural has; zero has one. -/
def digitCount (n : Nat) : Nat :=
  (Nat.toDigits 10 n).length

/-- The number nearest to a decimal. Beyond the range of the format no quotient is formed: from
ten to the power 310 on all is infinite, and below ten to the power -330 all is zero. -/
def ofDecimal (negative : Bool) (d : Decimal) : Binary64 :=
  if d.digits = 0 then zero negative
  else
    let place := digitCount d.digits + d.exponent
    if 310 < place then infinity negative
    else if place < -330 then zero negative
    else
      let (num, den) := inUnits 10 (-d.exponent) d.digits 1
      ofQuotient negative num den

/-- The least power of ten above a positive quotient. -/
def decimalPlace (num den : Nat) : Int :=
  let estimate : Int := (digitCount num : Int) - digitCount den
  let (num, den) := inUnits 10 estimate num den
  if num < den then estimate else estimate + 1

/-- Of the two decimals with `count` digits that enclose a finite number's magnitude, the one that
reads back as the number; of two such, the nearer, and at a tie the even one. -/
def nearestDecimal? (x : Binary64) (count : Nat) : Option Decimal :=
  let (num, den) := x.magnitude
  let exponent := decimalPlace num den - count
  let (num, den) := inUnits 10 exponent num den
  let low : Decimal := ⟨num / den, exponent⟩
  let high : Decimal := ⟨num / den + 1, exponent⟩
  let rest := num % den
  match ofDecimal x.negative low == x, ofDecimal x.negative high == x with
  | true, true =>
    if 2 * rest < den || (2 * rest == den && low.digits % 2 == 0) then some low else some high
  | true, false => some low
  | false, true => some high
  | false, false => none

def exactDecimal (x : Binary64) : Decimal :=
  if 0 ≤ x.unit then ⟨x.significand * Nat.pow 2 x.unit.toNat, 0⟩
  else ⟨x.significand * Nat.pow 5 (-x.unit).toNat, x.unit⟩

/-- The decimal with the fewest digits that reads back as a finite number. -/
def shortestDecimal (x : Binary64) : Decimal :=
  -- Seventeen digits always suffice.
  ((List.range 17).findSome? fun n => nearestDecimal? x (n + 1)).getD (exactDecimal x)

/-! ## Text -/

/-- The decimal orders that are written without an exponent: from 0.0001 up to below
10000000000000000. -/
def isPositional (order : Int) : Bool :=
  -4 ≤ order && order < 16

/-- An exponent as it is written: a sign and at least two digits. -/
def exponentText (order : Int) : String :=
  let digits := toString order.natAbs
  (if order < 0 then "-" else "+") ++ (if digits.length < 2 then "0" else "") ++ digits

def leadingDigits (d : Decimal) : List Char :=
  ((Nat.toDigits 10 d.digits).reverse.dropWhile (· == '0')).reverse

/-- A decimal as it is written: positional notation has a digit on each side of the point, and
exponents are used only outside the positional orders. -/
def decimalText (d : Decimal) : String :=
  let digits := leadingDigits d
  let place := digitCount d.digits + d.exponent
  let order := place - 1
  if isPositional order then
    if place ≤ 0 then
      String.ofList ("0.".toList ++ List.replicate (-place).toNat '0' ++ digits)
    else
      let whole := digits.take place.toNat
      let fraction := digits.drop place.toNat
      String.ofList (whole ++ List.replicate (place.toNat - whole.length) '0' ++ ['.'] ++
        if fraction.isEmpty then ['0'] else fraction)
  else
    let point := if digits.length < 2 then [] else '.' :: digits.drop 1
    String.ofList (digits.take 1 ++ point) ++ "e" ++ exponentText order

def text (x : Binary64) : String :=
  if x.isNaN then "nan"
  else
    (if x.negative then "-" else "") ++
      if !x.isFinite then "inf"
      else if x.isZero then "0.0"
      else decimalText x.shortestDecimal

/-! ## Comparison with integers -/

/-- The integer that a finite number without a fractional part is. -/
def toInt? (x : Binary64) : Option Int :=
  if !x.isFinite then none
  else
    let (num, den) := x.magnitude
    if num % den = 0 then
      some (if x.negative then -((num / den : Nat) : Int) else ((num / den : Nat) : Int))
    else none

end Binary64

end ApiTypes
