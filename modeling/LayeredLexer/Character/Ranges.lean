/-
Sets of code points written as ascending lists of closed ranges, the
form in which character properties are published. Membership walks the
list and stops at the first range that begins above the code point, so
the common small code points are decided within a few steps.
-/

namespace LayeredLexer

/-- Closed ranges of code points, in ascending order. -/
abbrev Ranges := List (Nat × Nat)

/-- Whether one of the ranges holds `n`. -/
def Ranges.contains : Ranges → Nat → Bool
  | [], _ => false
  | (low, high) :: rest, n =>
    if n < low then false else n ≤ high || Ranges.contains rest n

end LayeredLexer
