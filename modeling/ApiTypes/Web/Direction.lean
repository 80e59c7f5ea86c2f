import ApiTypes.Text.Marks

/-!
The direction in which the characters of a label run. Letters of both directions do not mix, so
that a label looks the same wherever it is shown.
-/

namespace ApiTypes.Web

open Text

inductive Direction where
  | left
  | right
  /-- A digit of a script that runs from right to left. -/
  | rightNumber
  | number
  /-- A mark, which runs with the letter before. -/
  | mark
  | neutral
  deriving DecidableEq, Repr

/-- The ranges of code points of the letters of labels that run from right to left, in ascending
order. -/
def rightRanges : CodeRanges := #[
    (0x5d0, 0x5f4), (0x620, 0x64a), (0x66e, 0x66f), (0x671, 0x6d5), (0x6e5, 0x6e6), (0x6ee, 0x6ef),
    (0x6fa, 0x710), (0x712, 0x72f), (0x74d, 0x7a5), (0x7b1, 0x7ea), (0x7f4, 0x7f5), (0x800, 0x815),
    (0x81a, 0x81a), (0x824, 0x824), (0x828, 0x828), (0x840, 0x858), (0x860, 0x88e), (0x8a0, 0x8c9),
    (0xfe73, 0xfe73), (0x10800, 0x10a00), (0x10a10, 0x10a35), (0x10a60, 0x10ae4),
    (0x10b00, 0x10d23), (0x10e80, 0x10ea9), (0x10eb0, 0x10eb1), (0x10f00, 0x10f45),
    (0x10f70, 0x10f81), (0x10fb0, 0x10ff6), (0x1e800, 0x1e8c4), (0x1e922, 0x1e943),
    (0x1e94b, 0x1e959)]

/-- The ranges of code points of the signs of labels without a direction, in ascending order. -/
def neutralRanges : CodeRanges := #[
    (0xb7, 0xb7), (0x2b9, 0x2ba), (0x2c6, 0x2cf), (0x2ec, 0x2ec), (0x375, 0x375), (0x200c, 0x200d),
    (0x2e2f, 0x2e2f), (0x30fb, 0x30fb), (0xa67f, 0xa67f), (0xa717, 0xa71f), (0xa788, 0xa788)]

/-- The marks without a place of their own that run from left to right all the same. -/
def leftMarks : Array Nat := #[
    0xcbf, 0xcc6, 0x11a07, 0x11a08, 0x11c3f]

namespace Direction

def ofChar (c : Char) : Direction :=
  if rightRanges.holds c.toNat then .right
  else if ('\u0660' ≤ c && c ≤ '\u0669') || (0x10d30 ≤ c.toNat && c.toNat ≤ 0x10d39) then .rightNumber
  else if c.isDigit || ('\u06f0' ≤ c && c ≤ '\u06f9') then .number
  else if c == '-' || neutralRanges.holds c.toNat then .neutral
  else if isNonspacingMark c && !leftMarks.contains c.toNat then .mark
  else .left

/-- Whether a run of directions, the last first, ends in a letter or a number, marks aside. -/
def endsRight (backward : List Direction) : Bool :=
  match backward.dropWhile (· == .mark) with
  | .right :: _ => true
  | .rightNumber :: _ => true
  | .number :: _ => true
  | _ => false

end Direction

/-- Whether the directions in a label agree. Once a character runs from right to left, the label has
to begin with such a letter, end in one or in a number, and have no letter of the other direction
and numbers of one kind only. -/
def directionsAgree (label : List Char) : Bool :=
  let directions := label.map Direction.ofChar
  if directions.contains .right || directions.contains .rightNumber then
    directions.head? == some .right && !directions.contains .left &&
      Direction.endsRight directions.reverse &&
      !(directions.contains .number && directions.contains .rightNumber)
  else true

end ApiTypes.Web
