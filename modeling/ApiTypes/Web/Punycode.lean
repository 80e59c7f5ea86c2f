/-!
Texts in the letters, digits and hyphens of ASCII. What is ASCII stands first; the other characters
follow as numbers that say, from one to the next in the order of their code points, how many places
in the text and code points lie between them.
-/

namespace ApiTypes.Web.Punycode

def digit (n : Nat) : Char :=
  if n < 26 then Char.ofNat ('a'.toNat + n) else Char.ofNat ('0'.toNat + (n - 26))

def digitValue? (c : Char) : Option Nat :=
  if c.isLower then some (c.toNat - 'a'.toNat)
  else if c.isUpper then some (c.toNat - 'A'.toNat)
  else if c.isDigit then some (c.toNat - '0'.toNat + 26)
  else none

/-- The least value of a digit after which another one follows. The bias is fitted to the size of
the numbers before. -/
def threshold (bias place : Nat) : Nat :=
  min 26 (max 1 (36 * (place + 1) - bias))

/-- Divides a number until it is small; the first argument bounds the number of steps. -/
def shrink : Nat → Nat → Nat → Nat × Nat
  | 0, divisions, n => (divisions, n)
  | fuel + 1, divisions, n =>
    if 455 < n then shrink fuel (divisions + 1) (n / 35) else (divisions, n)

/-- The bias after a number, `count` characters being known then. -/
def nextBias (isFirst : Bool) (count n : Nat) : Nat :=
  let n := if isFirst then n / 700 else n / 2
  let n := n + n / count
  let (divisions, n) := shrink n 0 n
  36 * divisions + 36 * n / (n + 38)

/-- The digits of a number from a place on; the first argument bounds their number. -/
def digitsFrom (bias : Nat) : Nat → Nat → Nat → List Char
  | 0, _, _ => []
  | fuel + 1, place, n =>
    let low := threshold bias place
    if n < low then [digit n]
    else
      digit (low + (n - low) % (36 - low)) :: digitsFrom bias fuel (place + 1) ((n - low) / (36 - low))

/-- The state of an encoding: the digits so far, the number of characters that they write together
with those of ASCII, the bias, and the number to be written next. -/
structure Progress where
  digits : List Char := []
  known : Nat
  isFirst : Bool := true
  bias : Nat := 72
  gap : Nat := 0

/-- Passes a character of the text, in search of the characters with the code point `code`. -/
def Progress.pass (code : Nat) (progress : Progress) (c : Char) : Progress :=
  if c.toNat < code then { progress with gap := progress.gap + 1 }
  else if c.toNat = code then
    { digits := progress.digits ++ digitsFrom progress.bias (progress.gap + 1) 0 progress.gap
      known := progress.known + 1
      isFirst := false
      bias := nextBias progress.isFirst (progress.known + 1) progress.gap
      gap := 0 }
  else progress

/-- Writes the characters of a text with the code points of an ascending list, none of which is
below `least`. -/
def encodeFrom (cs : List Char) (least : Nat) (progress : Progress) : List Nat → List Char
  | [] => progress.digits
  | code :: codes =>
    let start := { progress with gap := progress.gap + (code - least) * (progress.known + 1) }
    let progress := cs.foldl (Progress.pass code) start
    encodeFrom cs (code + 1) { progress with gap := progress.gap + 1 } codes

def isBasic (c : Char) : Bool := c.toNat < 0x80

/-- The code points of a text that are not in ASCII, in ascending order and each once. -/
def furtherCodes (cs : List Char) : List Nat :=
  (((cs.filter (!isBasic ·)).map Char.toNat).mergeSort).eraseDups

def encode (cs : List Char) : List Char :=
  let basic := cs.filter isBasic
  (if basic.isEmpty then [] else basic ++ ['-']) ++
    encodeFrom cs 0x80 { known := basic.length } (furtherCodes cs)

/-- The state of a decoding: the characters so far, the last code point, the place after the last
insertion, the bias, and the number that is being read, with the weight of its next digit. -/
structure Reading where
  chars : List Char
  code : Nat := 0x80
  position : Nat := 0
  bias : Nat := 72
  place : Nat := 0
  gap : Nat := 0
  weight : Nat := 1

/-- Puts in a character once its number is read, if there is such a character. -/
def Reading.insert? (reading : Reading) (gap : Nat) : Option Reading :=
  let count := reading.chars.length + 1
  let code := reading.code + (reading.position + gap) / count
  let position := (reading.position + gap) % count
  if code.isValidChar then
    some {
      chars := reading.chars.insertIdx position (Char.ofNat code)
      code
      position := position + 1
      bias := nextBias (reading.position == 0) count gap }
  else none

def Reading.next? (reading : Reading) (c : Char) : Option Reading := do
  let value ← digitValue? c
  let gap := reading.gap + value * reading.weight
  let low := threshold reading.bias reading.place
  if value < low then reading.insert? gap
  else return { reading with
    gap, place := reading.place + 1, weight := reading.weight * (36 - low) }

def cutLastHyphen (cs : List Char) : List Char × List Char :=
  match cs.reverse.span (· != '-') with
  | (digits, []) => ([], digits.reverse)
  | (digits, _ :: basic) => (basic.reverse, digits.reverse)

def decode? (cs : List Char) : Option (List Char) := do
  let (basic, digits) := cutLastHyphen cs
  let reading ← digits.foldlM Reading.next? { chars := basic }
  -- The last number has to be complete.
  if reading.place = 0 then return reading.chars else none

end ApiTypes.Web.Punycode
