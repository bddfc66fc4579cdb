/-!
# Sets of characters

A set of characters given by the ranges of code points it is made of, as character properties are
published.
-/

namespace Unsugar

/-- Ranges of code points, both ends included. -/
abbrev CharSet := List (Nat × Nat)

namespace CharSet

/-- Whether a character lies in one of the ranges. -/
def contains (s : CharSet) (c : Char) : Bool :=
  s.any fun r => r.1 ≤ c.toNat && c.toNat ≤ r.2

end CharSet

end Unsugar
