import ApiTypes.Text.Utf16

/-!
The encodings of a text with units of several octets. A text that begins with a character of ASCII
shows by the zeros among its first octets how wide a unit is and which way round it stands.
-/

namespace ApiTypes.Text

inductive OctetOrder where
  | greatFirst
  | smallFirst
  deriving DecidableEq, Repr

/-- An encoding with units of several octets: two in UTF-16, four in UTF-32. -/
inductive WideEncoding where
  | two (order : OctetOrder)
  | four (order : OctetOrder)
  deriving DecidableEq, Repr

/-- The encoding that the octets of a text show. A text without zeros in front has units of one
octet. -/
def WideEncoding.ofStart? : List Nat → Option WideEncoding
  | [a, b] =>
    if a = 0 then some (.two .greatFirst) else if b = 0 then some (.two .smallFirst) else none
  | a :: b :: c :: d :: _ =>
    if a = 0 then some (if b = 0 then .four .greatFirst else .two .greatFirst)
    else if b = 0 then some (if c = 0 ∧ d = 0 then .four .smallFirst else .two .smallFirst)
    else none
  | _ => none

def OctetOrder.join (order : OctetOrder) (a b : Nat) : Nat :=
  match order with
  | .greatFirst => a * 0x100 + b
  | .smallFirst => b * 0x100 + a

def OctetOrder.joinFour (order : OctetOrder) (a b c d : Nat) : Nat :=
  match order with
  | .greatFirst => order.join a b * 0x10000 + order.join c d
  | .smallFirst => order.join c d * 0x10000 + order.join a b

/-- The units of two octets each, unless an octet is left over. -/
def pairUnits? (order : OctetOrder) : List Nat → Option (List Nat)
  | [] => some []
  | a :: b :: rest => (pairUnits? order rest).map (order.join a b :: ·)
  | [_] => none

/-- The characters of units of four octets each, unless octets are left over or a unit lies beyond
the last character. -/
def quadChars? (order : OctetOrder) : List Nat → Option (List Char)
  | [] => some []
  | a :: b :: c :: d :: rest =>
    let unit := order.joinFour a b c d
    if unit < 0x110000 then (quadChars? order rest).map (unitChar unit :: ·) else none
  | _ => none

def WideEncoding.decode? (octets : List Nat) : WideEncoding → Option (List Char)
  | .two order => (pairUnits? order octets).map joinUnits
  | .four order => quadChars? order octets

end ApiTypes.Text
