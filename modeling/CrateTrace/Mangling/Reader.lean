import CrateTrace.Decimal.Digits
import CrateTrace.Text.Hex

/-!
# Parts of the newer mangling

Tags, numbers and identifiers, of which RFC 2603 makes up paths and types. Each is read from the front
of what is left of a symbol.
-/

namespace CrateTrace.Mangling

abbrev Scan := StateT (List Char) Option

def next : Scan Char
  | [] => none
  | c :: rest => some (c, rest)

/-! ## Numbers -/

def digit62? (c : Char) : Option Nat :=
  if c.isDigit then some (c.toNat - '0'.toNat)
  else if c.isLower then some (10 + (c.toNat - 'a'.toNat))
  else if c.isUpper then some (36 + (c.toNat - 'A'.toNat))
  else none

def isDigit62 (c : Char) : Bool := (digit62? c).isSome

def read62 (digits : List Char) : Nat :=
  digits.foldl (fun n d => 62 * n + (digit62? d).getD 0) 0

/-- A number in base 62 up to its `_`. No digits mean 0, so that digits stand for one less. -/
def number62 : Scan Nat := fun input =>
  let digits := input.takeWhile isDigit62
  match input.dropWhile isDigit62 with
  | '_' :: rest =>
    let n := if digits = [] then 0 else read62 digits + 1
    if n < UInt64.size then some (n, rest) else none
  | _ => none

/-- A number behind `tag`, counted from 1; without the tag it is 0. -/
def tagged62 (tag : Char) : Scan Nat
  | [] => some (0, [])
  | c :: rest =>
    if c = tag then
      (number62 rest).bind fun (n, rest) =>
        if n + 1 < UInt64.size then some (n + 1, rest) else none
    else some (0, c :: rest)

/-- What tells parts of one name apart. -/
def disambiguator : Scan Nat := tagged62 's'

/-! ## Identifiers -/

/-- An identifier; one with characters outside ASCII is written in punycode. -/
structure Ident where
  basic : List Char
  /-- The coded insertions, empty if there are none. -/
  gaps : List Char
deriving DecidableEq, Repr

def Ident.isEmpty (i : Ident) : Bool := i.basic.isEmpty && i.gaps.isEmpty

/-- Punycode has its last `_` between basic characters and insertions. -/
def splitPunycode (text : List Char) : Option Ident :=
  let gaps := (text.reverse.takeWhile (· ≠ '_')).reverse
  if gaps = [] then none else some ⟨text.take (text.length - gaps.length - 1), gaps⟩

/-- The decimal length of an identifier. No digit follows a zero. -/
def identLength : Scan Nat
  | '0' :: rest => some (0, rest)
  | c :: rest =>
    if c.isDigit then
      some (Decimal.decimalValue (c :: rest.takeWhile Char.isDigit), rest.dropWhile Char.isDigit)
    else none
  | [] => none

/-- What stands behind a tag that may be missing. -/
def behind (tag : Char) : List Char → List Char
  | [] => []
  | c :: rest => if c = tag then rest else c :: rest

def ident : Scan Ident := fun input => do
  let (length, rest) ← identLength (behind 'u' input)
  let text := behind '_' rest
  if length ≤ text.length then
    let name := text.take length
    let ident ← if input.head? = some 'u' then splitPunycode name else some ⟨name, []⟩
    return (ident, text.drop length)
  else none

/-- Only uppercase namespaces are kept: closures, shims and others without a name in the source. -/
def namespace? : Scan (Option Char)
  | [] => none
  | c :: rest =>
    if c.isUpper then some (some c, rest) else if c.isLower then some (none, rest) else none

/-! ## Constants -/

def isNibble (c : Char) : Bool := (Text.hexValue? c).isSome

/-- Hex digits up to a `_`. -/
def nibbles : Scan (List Char) := fun input =>
  match input.dropWhile isNibble with
  | '_' :: rest => some (input.takeWhile isNibble, rest)
  | _ => none

/-- The value of hex digits that fit in 64 bits. -/
def nibblesValue? (digits : List Char) : Option Nat :=
  let digits := digits.dropWhile (· == '0')
  if digits.length ≤ 16 then Text.hexNumber? digits else none

/-- The text whose bytes the digits give, two for each. -/
def nibblesText? (digits : List Char) : Option String :=
  (Text.readHexBytes? digits).bind fun bytes => String.fromUTF8? bytes.toByteArray

/-! ## Earlier parts -/

/-- The symbol from an earlier part on, whose place is given behind a `B`. -/
def earlier (symbol : List Char) : Scan (List Char) := fun input => do
  let (place, rest) ← number62 input
  if place < symbol.length - (input.length + 1) then some (symbol.drop place, rest) else none

end CrateTrace.Mangling
