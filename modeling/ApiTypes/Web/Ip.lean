import ApiTypes.Text.Numeral
import ApiTypes.Text.Pointer

/-!
Hosts that are written as numbers: four decimal ones with points between them, or eight hexadecimal
groups with colons between them.
-/

namespace ApiTypes.Web

open Text

/-- A decimal numeral up to 255, without zeros before it. -/
def isOctetNumeral (cs : List Char) : Bool :=
  cs.all Char.isDigit && 1 ≤ cs.length && cs.length ≤ 3 && (cs.head? != some '0' || cs == ['0']) &&
    digitsValue cs ≤ 255

def isIp4 (cs : List Char) : Bool :=
  let numerals := splitWhen (· == '.') cs
  numerals.length == 4 && numerals.all isOctetNumeral

/-- Whether a text can be read as four runs of digits with one character between two of them. -/
def looksLikeIp4 (cs : List Char) : Bool :=
  let runs := splitWhen (!·.isDigit) cs
  -- A run of digits can be read as several, since the character between two may be a digit too.
  let inside := runs.foldl (fun n run => n + (run.length - 1) / 2) 0
  runs.all (!·.isEmpty) && runs.length ≤ 4 && 4 ≤ runs.length + inside

def isHexGroup (cs : List Char) : Bool :=
  1 ≤ cs.length && cs.length ≤ 4 && cs.all fun c => (hexValue? c).isSome

/-- The number of hexadecimal groups that pieces make, if they do. The last piece may be four
decimal numbers in place of two groups. -/
def hexGroups? : List (List Char) → Option Nat
  | [] => some 0
  | [last] => if isHexGroup last then some 1 else if isIp4 last then some 2 else none
  | piece :: rest => if isHexGroup piece then (hexGroups? rest).map (· + 1) else none

def cutGap? : List Char → Option (List Char × List Char)
  | [] => none
  | ':' :: ':' :: rest => some ([], rest)
  | c :: rest => (cutGap? rest).map fun (left, right) => (c :: left, right)

/-- The pieces of a text between colons; the empty text has none. -/
def colonPieces (cs : List Char) : List (List Char) :=
  if cs.isEmpty then [] else splitWhen (· == ':') cs

/-- Eight groups with colons between them, or a double colon for at least one of the eight. -/
def isIp6 (cs : List Char) : Bool :=
  match cutGap? cs with
  | none => hexGroups? (colonPieces cs) == some 8
  | some (left, right) =>
    -- Four decimal numbers can only end the whole.
    (colonPieces left).all isHexGroup &&
      (hexGroups? (colonPieces right)).any fun groups => (colonPieces left).length + groups ≤ 7

/-- Eight groups, and perhaps the name of a zone after a percent sign. -/
def isZonedIp6 (cs : List Char) : Bool :=
  match cs.span (· != '%') with
  | (groups, []) => isIp6 groups
  | (groups, _ :: zone) => isIp6 groups && !zone.isEmpty && !zone.contains '%'

end ApiTypes.Web
