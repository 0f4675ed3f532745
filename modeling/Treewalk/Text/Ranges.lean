/-! # Sets of characters as sorted ranges -/

namespace Treewalk.Text

/-- Whether a code point lies in one of the ranges, which are sorted and disjoint. -/
def inRanges : List (Nat × Nat) → Nat → Bool
  | [], _ => false
  | (low, high) :: rest, c =>
    if c < low then false else if c ≤ high then true else inRanges rest c

end Treewalk.Text
