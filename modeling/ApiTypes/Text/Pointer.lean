import ApiTypes.Text.Split
import ApiTypes.Text.Utf8

/-!
The segments of a reference. Each is written with percent escapes of UTF-8 octets, and inside
those with `~1` for a slash and `~0` for a tilde.
-/

namespace ApiTypes.Text

def hexValue? (c : Char) : Option Nat :=
  if '0' ≤ c ∧ c ≤ '9' then some (c.toNat - '0'.toNat)
  else if 'a' ≤ c ∧ c ≤ 'f' then some (c.toNat - 'a'.toNat + 10)
  else if 'A' ≤ c ∧ c ≤ 'F' then some (c.toNat - 'A'.toNat + 10)
  else none

/-- One unit of a percent-encoded text: an octet, written out or escaped, or a character above
ASCII, which stands for itself. -/
inductive PercentUnit where
  | octet (b : Nat)
  | char (c : Char)
  deriving DecidableEq, Repr

/-- The units of a percent-encoded text. A percent sign without two hexadecimal digits after it is
an octet like any other. -/
def percentUnits : List Char → List PercentUnit
  | [] => []
  | '%' :: a :: b :: cs =>
    match hexValue? a, hexValue? b with
    | some high, some low => .octet (high * 16 + low) :: percentUnits cs
    | _, _ => .octet '%'.toNat :: percentUnits (a :: b :: cs)
  | c :: cs => (if c.toNat < 0x80 then .octet c.toNat else .char c) :: percentUnits cs

/-- The text of a run of units. A character above ASCII ends the octets before it. -/
def unitsTextFrom : Option Partial → List PercentUnit → List Char
  | none, [] => []
  | some _, [] => [replacement]
  | none, .char c :: us => c :: unitsTextFrom none us
  | some _, .char c :: us => replacement :: c :: unitsTextFrom none us
  | none, .octet b :: us =>
    let (chars, next) := beginOctet b
    chars ++ unitsTextFrom next us
  | some p, .octet b :: us =>
    let (chars, next) := p.continueOctet b
    chars ++ unitsTextFrom next us

def percentDecode (cs : List Char) : List Char :=
  unitsTextFrom none (percentUnits cs)

/-- Every `~` followed by `mark` becomes `c`. -/
def untilde (mark c : Char) : List Char → List Char
  | [] => []
  | '~' :: d :: cs => if d = mark then c :: untilde mark c cs else '~' :: untilde mark c (d :: cs)
  | d :: cs => d :: untilde mark c cs

def decodeSegment (cs : List Char) : List Char :=
  -- Tildes come last: the one that `~0` gives is no part of another escape.
  untilde '0' '~' (untilde '1' '/' (percentDecode cs))

/-- The names along the part of a reference after its root. -/
def pointerSegments (tail : String) : List String :=
  (splitWhen (· == '/') tail.toList).map fun segment => String.ofList (decodeSegment segment)

end ApiTypes.Text
