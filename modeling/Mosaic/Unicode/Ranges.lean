/-!
# Sets of characters as ranges

A property of characters is given by the ranges of code points that have it.
-/

namespace Mosaic

/-- Whether a character lies in one of the given ranges, both ends included. -/
def inRanges (ranges : List (Nat × Nat)) (c : Char) : Bool :=
  ranges.any fun (a, b) => a ≤ c.toNat && c.toNat ≤ b

end Mosaic
