/-!
# Code point ranges

A character class is an increasing list of disjoint, closed intervals of code points.
-/

namespace Swimlane.Text

/-- Whether `n` lies in one of the intervals.  They are in increasing order, so the first
    interval that does not end before `n` decides. -/
def inRanges (n : Nat) : List (Nat × Nat) → Bool
  | [] => false
  | (low, high) :: rest => if n ≤ high then decide (low ≤ n) else inRanges n rest

end Swimlane.Text
