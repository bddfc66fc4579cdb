/-!
# Decimal digits
-/

namespace Unsugar.Decimal

/-- The number that decimal digits spell. -/
def ofDigits (ds : List Char) : Nat :=
  ds.foldl (fun n d => n * 10 + (d.toNat - '0'.toNat)) 0

end Unsugar.Decimal
