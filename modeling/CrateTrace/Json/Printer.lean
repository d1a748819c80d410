import CrateTrace.Decimal.Text
import CrateTrace.Json.Value
import CrateTrace.Text.Hex

/-!
# Writing JSON

Text is written without optional blanks, or spread over lines with two blanks per level.
-/

namespace CrateTrace.Json

/-- Quotes, backslashes and control characters are escaped, the usual ones by a letter. -/
def escape (c : Char) : String :=
  match c with
  | '"' => "\\\""
  | '\\' => "\\\\"
  | '\x08' => "\\b"
  | '\x0c' => "\\f"
  | '\n' => "\\n"
  | '\r' => "\\r"
  | '\t' => "\\t"
  | c =>
    if c.toNat < 0x20 then
      "\\u" ++ Text.hexPadded 4 c.toNat
    else String.singleton c

def quote (text : String) : String := "\"" ++ String.join (text.toList.map escape) ++ "\""

/-- A double that is no number has no JSON form and is written as `null`. -/
def floatText (x : Float) : String :=
  if x.isNaN || x.isInf then "null" else Decimal.marked x

mutual

def compact : Json → String
  | .null | .flawed => "null"
  | .bool b => if b then "true" else "false"
  | .int n => toString n
  | .float x => floatText x
  | .str text => quote text
  | .arr items => "[" ++ ",".intercalate (compactItems items) ++ "]"
  | .obj fields _ => "\x7b" ++ ",".intercalate (compactFields fields) ++ "\x7d"

def compactItems : List Json → List String
  | [] => []
  | item :: items => compact item :: compactItems items

def compactFields : List (String × Json) → List String
  | [] => []
  | (key, item) :: fields => (quote key ++ ":" ++ compact item) :: compactFields fields

end

/-- A new line, indented by two blanks per level. -/
def lineBreak (level : Nat) : String := "\n" ++ "".pushn ' ' (2 * level)

mutual

/-- A value on a line that is indented to `level`. -/
def prettyAt (level : Nat) : Json → String
  | .arr (item :: items) =>
    "[" ++ lineBreak (level + 1) ++
      ("," ++ lineBreak (level + 1)).intercalate (prettyItems (level + 1) (item :: items)) ++
      lineBreak level ++ "]"
  | .obj (field :: fields) _ =>
    "\x7b" ++ lineBreak (level + 1) ++
      ("," ++ lineBreak (level + 1)).intercalate (prettyFields (level + 1) (field :: fields)) ++
      lineBreak level ++ "\x7d"
  | j => compact j

def prettyItems (level : Nat) : List Json → List String
  | [] => []
  | item :: items => prettyAt level item :: prettyItems level items

def prettyFields (level : Nat) : List (String × Json) → List String
  | [] => []
  | (key, item) :: fields =>
    (quote key ++ ": " ++ prettyAt level item) :: prettyFields level fields

end

def pretty (j : Json) : String := prettyAt 0 j

end CrateTrace.Json
