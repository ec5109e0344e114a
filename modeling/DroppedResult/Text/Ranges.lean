/-!
# Sets of characters as ranges

A character class of the Unicode standard is written as its ranges of code
points, both ends included, in increasing order.
-/

namespace DroppedResult

/-- Ranges of code points, both ends included. -/
abbrev CodeRanges := List (Nat × Nat)

def CodeRanges.has (ranges : CodeRanges) (c : Char) : Bool :=
  ranges.any fun (lo, hi) => lo ≤ c.toNat && c.toNat ≤ hi

end DroppedResult
