import CrateTrace.Decimal.Literal
import CrateTrace.Decimal.Shortest

/-!
# The double nearest to a number

Doubles are exact here: a significand and a power of two. Of two doubles that are as near the one
with an even significand is taken.
-/

namespace CrateTrace.Decimal

/-- The number `significand * 2 ^ exponent`. -/
structure Binary where
  significand : Nat
  exponent : Int
deriving DecidableEq, Repr

/-- A double that is a number or too large for one. -/
structure Double where
  negative : Bool
  /-- There is none when the double is infinite. -/
  magnitude : Option Binary
deriving DecidableEq, Repr

/-- A quotient rounded to an integer; halfway between two it goes to the even one. -/
def roundEven (n d : Nat) : Nat :=
  let past := 2 * (n % d)
  if past < d ∨ (past = d ∧ n / d % 2 = 0) then n / d else n / d + 1

/-- A quotient in units of `2 ^ exponent`. -/
def inUnits (n d : Nat) (exponent : Int) : Nat × Nat :=
  (n <<< (-exponent).toNat, d <<< exponent.toNat)

namespace Binary

def zero : Binary := ⟨0, 0⟩

/-- The finest unit, and the power of two that is out of reach. -/
def leastExponent : Int := -1074

def limit : Int := 1024

def isFinite (b : Binary) : Bool := b.exponent + (b.significand.log2 : Int) < limit

/-- The double nearest to `n / d`, if there is one that large. -/
def ofQuotient? (n d : Nat) : Option Binary :=
  if n = 0 then some zero
  else
    let low := (n.log2 : Int) - (d.log2 : Int) - 53
    let (a, b) := inUnits n d low
    let exponent := max (if a / b < 2 * leadingBit then low else low + 1) leastExponent
    let (a, b) := inUnits n d exponent
    some (Binary.mk (roundEven a b) exponent) |>.filter isFinite

/-- The same for a numeral. Powers of ten beyond every double are not raised. -/
def ofNumeral? (n : Numeral) : Option Binary :=
  if n.digits = 0 then some zero
  else if 400 < n.exponent then none
  else if n.exponent < -(n.digits.log2 : Int) - 400 then some zero
  else
    ofQuotient? (n.digits * Nat.pow 10 n.exponent.toNat) (Nat.pow 10 (-n.exponent).toNat)

end Binary

/-- Whether a double is large enough for a literal. -/
def Literal.isFinite (l : Literal) : Bool :=
  (Binary.ofNumeral? ⟨l.digits, l.scale⟩).isSome

end CrateTrace.Decimal
