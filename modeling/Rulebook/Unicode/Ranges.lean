/-!
Sets of code points, listed as closed ranges in ascending order.
-/

namespace Rulebook.Unicode

/-- Membership in a list of ranges; the search stops at the first range above the code point. -/
def inRanges : List (Nat × Nat) → Nat → Bool
  | [], _ => false
  | (low, high) :: rest, code =>
      if code < low then false
      else if code ≤ high then true
      else inRanges rest code

end Rulebook.Unicode
