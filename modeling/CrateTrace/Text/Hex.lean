/-!
# Hexadecimal text

Digits are lowercase.
-/

namespace CrateTrace.Text

def hexDigit (n : Nat) : Char :=
  if n < 10 then Char.ofNat ('0'.toNat + n) else Char.ofNat ('a'.toNat + (n - 10))

/-- The two digits of a byte. -/
def hexByte (b : UInt8) : List Char := [hexDigit (b.toNat / 16), hexDigit (b.toNat % 16)]

/-- The value of a lowercase digit. -/
def hexValue? (c : Char) : Option Nat :=
  if c.isDigit then some (c.toNat - '0'.toNat)
  else if 'a' ≤ c ∧ c ≤ 'f' then some (c.toNat - 'a'.toNat + 10)
  else none

/-- The number that lowercase digits stand for. -/
def hexNumber? (digits : List Char) : Option Nat :=
  digits.foldlM (fun n d => (hexValue? d).map (16 * n + ·)) 0

def readHexByte? (a b : Char) : Option UInt8 := do
  return UInt8.ofNat (16 * (← hexValue? a) + (← hexValue? b))

/-- The digits of a number, with zeros in front up to a width. -/
def hexPadded (width n : Nat) : String :=
  let digits := Nat.toDigits 16 n
  String.ofList (List.replicate (width - digits.length) '0' ++ digits)

/-- Bytes as text, and back. -/
def hexBytes (bytes : List UInt8) : String := String.ofList (bytes.flatMap hexByte)

def readHexBytes? : List Char → Option (List UInt8)
  | [] => some []
  | a :: b :: rest => do return (← readHexByte? a b) :: (← readHexBytes? rest)
  | [_] => none

end CrateTrace.Text
