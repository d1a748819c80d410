/-!
# Decimal digits
-/

namespace CrateTrace.Decimal

def digitValue (c : Char) : Nat := c.toNat - '0'.toNat

/-- The number that digits stand for. -/
def decimalValue (digits : List Char) : Nat :=
  digits.foldl (fun n d => 10 * n + digitValue d) 0

end CrateTrace.Decimal
