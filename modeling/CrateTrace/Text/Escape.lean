import CrateTrace.Text.Hidden

/-!
# Characters in quotes
-/

namespace CrateTrace.Text

/-- Hex digits without leading zeros. -/
def hexDigits (n : Nat) : List Char := Nat.toDigits 16 n

/-- A character as it is written between quotes for a reader to see. -/
def escapeDebug (c : Char) : List Char :=
  match c with
  | '\x00' => ['\\', '0']
  | '\t' => ['\\', 't']
  | '\n' => ['\\', 'n']
  | '\r' => ['\\', 'r']
  | '\'' => ['\\', '\'']
  | '"' => ['\\', '"']
  | '\\' => ['\\', '\\']
  | c => if isHidden c then "\\u\x7b".toList ++ hexDigits c.toNat ++ ['\x7d'] else [c]

end CrateTrace.Text
