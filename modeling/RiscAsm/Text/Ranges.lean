/-!
# Ranges of code points

Character classes are given as lists of closed ranges of code points.
-/

namespace RiscAsm

/-- Membership of a code point in one of the closed ranges. -/
def inRanges (ranges : List (Nat × Nat)) (n : Nat) : Bool :=
  ranges.any fun r => r.1 ≤ n && n ≤ r.2

end RiscAsm
