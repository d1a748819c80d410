import CrateTrace.Decimal.Digits

/-!
# The value of a numeral with a fraction or an exponent

The digits are gathered in 64 bits. Those that do not fit any more only count as places, and the
sum is scaled once by a power of ten.
-/

namespace CrateTrace.Decimal

/-- Puts digits behind a number while it fits in 64 bits, and returns those left over. -/
def gather (n : Nat) : List Char → Nat × List Char
  | [] => (n, [])
  | d :: digits =>
    if 10 * n + digitValue d < UInt64.size then gather (10 * n + digitValue d) digits
    else (n, d :: digits)

def powerOfTen (k : Nat) : Float := Float.ofScientific 1 false k

/-- Divides by a power of ten, in steps that a double can hold. -/
def divideByPower (x : Float) (k : Nat) : Float :=
  if k ≤ 308 then x / powerOfTen k
  else if x == 0.0 then x
  else divideByPower (x / powerOfTen 308) (k - 308)
termination_by k

/-- `x * 10 ^ exponent`, unless it is too large for a double. -/
def scale (x : Float) (exponent : Int) : Option Float :=
  if exponent < 0 then some (divideByPower x (-exponent).toNat)
  else if exponent ≤ 308 then
    let scaled := x * powerOfTen exponent.toNat
    if scaled.isInf then none else some scaled
  else if x == 0.0 then some x
  else none

/-- The value of `whole.part` times ten to the power `exponent`, without sign. -/
def readFloat (whole part : List Char) (exponent : Int) : Option Float :=
  let (n, excess) := gather 0 whole
  let (n, left) := gather n part
  scale (UInt64.ofNat n).toFloat (excess.length - (part.length - left.length : Nat) + exponent)

end CrateTrace.Decimal
