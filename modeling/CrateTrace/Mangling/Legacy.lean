import CrateTrace.Decimal.Digits
import CrateTrace.Text.Hex

/-!
# The older mangling

A symbol is a list of elements, each behind its length in decimal, up to an `E`. In an element,
characters that a linker may not take are written as `$` escapes, and `..` stands for `::`. The last
element is a hash of the build and is not part of the name.
-/

namespace CrateTrace.Mangling.Legacy

/-! ## Elements -/

/-- The elements up to `E`, and what follows it. A length that takes more than 64 bits is more than
what follows, so that it is refused like every other length that is too large. -/
def elements (input : List Char) : Option (List (List Char) × List Char) :=
  match input with
  | [] => none
  | 'E' :: rest => some ([], rest)
  | c :: rest =>
    if c.isDigit then
      let digits := c :: rest.takeWhile Char.isDigit
      let behind := rest.dropWhile Char.isDigit
      let length := Decimal.decimalValue digits
      if length ≤ behind.length then
        (elements (behind.drop length)).map fun (more, suffix) =>
          (behind.take length :: more, suffix)
      else none
    else none
termination_by input.length
decreasing_by
  have := (List.dropWhile_suffix Char.isDigit (l := rest)).length_le
  simp only [List.length_drop, List.length_cons]
  omega

/-! ## Escapes -/

/-- The value of a run of lowercase hex digits, of which there is at least one. -/
def readHex? (digits : List Char) : Option Nat :=
  match digits with
  | [] => none
  | _ => Text.hexNumber? digits

/-- A number that is no surrogate and not too large for one is a character. -/
def scalar? (n : Nat) : Option Char := if n.isValidChar then some (Char.ofNat n) else none

def isControl (c : Char) : Bool := c.toNat < 0x20 || (0x7f ≤ c.toNat && c.toNat < 0xa0)

/-- What stands for the text between two `$`. -/
def unescape? (name : List Char) : Option Char :=
  match String.ofList name with
  | "SP" => some '@'
  | "BP" => some '*'
  | "RF" => some '&'
  | "LT" => some '<'
  | "GT" => some '>'
  | "LP" => some '('
  | "RP" => some ')'
  | "C" => some ','
  | _ =>
    match name with
    | 'u' :: digits => ((readHex? digits).bind scalar?).filter (!isControl ·)
    | _ => none

def isText (c : Char) : Bool := c != '$'

/-- The text of an element. From the first escape that is not one, all is taken as it stands. -/
def unescape (element : List Char) : List Char :=
  match element with
  | [] => []
  | '.' :: '.' :: rest => ':' :: ':' :: unescape rest
  | '$' :: rest =>
    match unescape? (rest.takeWhile isText), _h : rest.dropWhile isText with
    | some c, _ :: behind => c :: unescape behind
    | _, _ => '$' :: rest
  | c :: rest => c :: unescape rest
termination_by element.length
decreasing_by
  · simp only [List.length_cons]; omega
  · have := (List.dropWhile_suffix isText (l := rest)).length_le
    rw [_h] at this
    simp only [List.length_cons] at *
    omega
  · simp

/-- An element that starts with `_$` has its `_` only to be a proper identifier. -/
def elementText (element : List Char) : List Char :=
  match element with
  | '_' :: '$' :: rest => unescape ('$' :: rest)
  | element => unescape element

/-! ## Names -/

def isHash : List Char → Bool
  | 'h' :: digits =>
    digits.all fun c => c.isDigit || ('a' ≤ c && c ≤ 'f') || ('A' ≤ c && c ≤ 'F')
  | _ => false

/-- The elements without the hash. -/
def withoutHash (elements : List (List Char)) : List (List Char) :=
  if elements.getLast?.any isHash then elements.dropLast else elements

/-- The name of a symbol behind its mark, and its suffix. -/
def name? (symbol : List Char) : Option (List Char × List Char) :=
  if symbol.all (·.toNat < 128) then
    (elements symbol).map fun (all, suffix) =>
      ([':', ':'].intercalate ((withoutHash all).map elementText), suffix)
  else none

end CrateTrace.Mangling.Legacy
