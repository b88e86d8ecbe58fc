/-!
Sets of characters given by ranges of code points.
-/

set_option autoImplicit false

namespace CostWatch.Text

/-- Inclusive ranges of code points, in increasing order. -/
abbrev Ranges := List (Nat × Nat)

def Ranges.contains (ranges : Ranges) (point : Nat) : Bool :=
  ranges.any fun range => range.1 ≤ point && point ≤ range.2

def Ranges.member (ascii : Char → Bool) (others : Ranges) (c : Char) : Bool :=
  if c.toNat < 128 then ascii c else others.contains c.toNat

end CostWatch.Text
