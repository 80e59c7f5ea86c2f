/-!
Sets of characters as tables of ranges of code points.
-/

namespace ApiTypes.Text

abbrev CodeRanges := Array (Nat × Nat)

def CodeRanges.holds (ranges : CodeRanges) (n : Nat) : Bool :=
  ranges.any fun (first, last) => first ≤ n && n ≤ last

end ApiTypes.Text
