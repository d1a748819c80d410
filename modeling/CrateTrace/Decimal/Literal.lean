import CrateTrace.Decimal.Digits

/-!
# Decimal numbers as they are written

Digits, with or without a point among them, and perhaps a power of ten.
-/

namespace CrateTrace.Decimal

def withoutSign : List Char → List Char
  | '-' :: rest | '+' :: rest => rest
  | text => text

/-- The value of digits and nothing else. -/
def natural? (digits : List Char) : Option Nat :=
  if digits != [] && digits.all Char.isDigit then some (decimalValue digits) else none

structure Literal where
  /-- The digits before the point. -/
  whole : List Char
  /-- Those after it. -/
  part : List Char
  exponent : Int
deriving DecidableEq, Repr

namespace Literal

/-- Reads a number without its sign. There is a digit before the point or after it. -/
def ofText? (text : List Char) : Option Literal :=
  let (whole, rest) := text.span Char.isDigit
  let (part, rest) :=
    match rest with
    | '.' :: rest => rest.span Char.isDigit
    | rest => ([], rest)
  if whole.isEmpty && part.isEmpty then none
  else
    match rest with
    | [] => some ⟨whole, part, 0⟩
    | e :: rest =>
      if e ≠ 'e' ∧ e ≠ 'E' then none
      else
        (natural? (withoutSign rest)).map fun n =>
          ⟨whole, part, if rest.head? = some '-' then -(n : Int) else n⟩

/-- All digits as one number. -/
def digits (l : Literal) : Nat := decimalValue (l.whole ++ l.part)

/-- The power of ten by which that number is multiplied. -/
def scale (l : Literal) : Int := l.exponent - l.part.length

end Literal

end CrateTrace.Decimal
