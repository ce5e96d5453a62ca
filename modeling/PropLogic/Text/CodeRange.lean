/-!
# Tables of code points

A property of characters is a list of closed ranges of code points.
-/

namespace PropLogic.Text

/-- Whether the code point of `c` lies in one of the closed ranges. -/
def inRanges (ranges : List (Nat × Nat)) (c : Char) : Bool :=
  ranges.any fun (lo, hi) => lo ≤ c.toNat && c.toNat ≤ hi

end PropLogic.Text
