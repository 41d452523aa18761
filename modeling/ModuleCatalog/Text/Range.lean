/-!
# Sets of code points given by ranges

Properties of code points are tables of ranges in increasing order, so that a search may stop at the
first range that begins past the number it looks for.
-/

namespace ModuleCatalog

/-- Inclusive ranges of numbers, in increasing order. -/
abbrev RangeTable := List (Nat × Nat)

namespace RangeTable

/-- Whether a number lies in one of the ranges. -/
def contains : RangeTable → Nat → Bool
  | [], _ => false
  | (low, high) :: ranges, n =>
    if n < low then false else if n ≤ high then true else contains ranges n

end RangeTable

end ModuleCatalog
