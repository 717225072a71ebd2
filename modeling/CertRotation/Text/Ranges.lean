/-!
# Sets of characters given by ranges

A property of characters is kept as the list of its ranges, each by its first and last number, in
ascending order.
-/

set_option autoImplicit false

namespace CertRotation.Text

/-- Whether `c` lies in one of `ranges`. -/
def inRanges (ranges : List (Nat × Nat)) (c : Char) : Bool :=
  ranges.any fun r => r.1 ≤ c.toNat && c.toNat ≤ r.2

end CertRotation.Text
