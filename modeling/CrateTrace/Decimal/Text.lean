import CrateTrace.Decimal.Shortest

/-!
# Numerals as text

Messages write a double with all its places. JSON writes very large and very small ones with an
exponent, and always marks a double as such.
-/

namespace CrateTrace.Decimal

def isNegative (x : Float) : Bool := x.toBits >>> 63 == 1

def sign (x : Float) : String := if isNegative x then "-" else ""

def Numeral.text (n : Numeral) : List Char := Nat.toDigits 10 n.digits

/-- The power of ten of the first digit. -/
def Numeral.magnitude (n : Numeral) : Int := n.exponent + n.text.length - 1

/-- The digits before and after the point, when nothing is left out. -/
def Numeral.places (n : Numeral) : List Char × List Char :=
  if 0 ≤ n.exponent then (n.text ++ List.replicate n.exponent.toNat '0', [])
  else
    let places := (-n.exponent).toNat
    let padded := List.replicate (places + 1 - n.text.length) '0' ++ n.text
    (padded.take (padded.length - places), padded.drop (padded.length - places))

/-- All places of a double; an integral one has no point. -/
def plain (x : Float) : String :=
  if x.isNaN then "NaN"
  else if x.isInf then sign x ++ "inf"
  else
    match (shortest x).places with
    | (whole, []) => sign x ++ String.ofList whole
    | (whole, part) => sign x ++ String.ofList whole ++ "." ++ String.ofList part

/-- First digits at `10 ^ -5` to `10 ^ 15` are written with all places, and with `.0` if there are
none after the point. -/
def marked (x : Float) : String :=
  let n := shortest x
  if -5 ≤ n.magnitude ∧ n.magnitude ≤ 15 then
    match n.places with
    | (whole, []) => sign x ++ String.ofList whole ++ ".0"
    | (whole, part) => sign x ++ String.ofList whole ++ "." ++ String.ofList part
  else
    let significand :=
      match n.text with
      | first :: second :: rest => String.ofList (first :: '.' :: second :: rest)
      | digits => String.ofList digits
    let exponent := if n.magnitude < 0 then toString n.magnitude else "+" ++ toString n.magnitude
    sign x ++ significand ++ "e" ++ exponent

end CrateTrace.Decimal
