import CrateTrace.Json.Printer
import CrateTrace.Yaml.Scalar

/-!
# Writing YAML

JSON values in block style: every entry of a list and every field on lines of its own.
-/

namespace CrateTrace.Yaml

def indent (width : Nat) : String := "".pushn ' ' width

/-- A text with a break at its end. -/
def endLine (text : String) : String :=
  if text.toList.getLast?.any isBreak then text else text ++ "\n"

/-- A value without parts. -/
def leaf (width : Nat) : Json → String
  | .str text => scalar width text
  | .arr _ => "[]"
  | .obj _ _ => "\x7b\x7d"
  | j => j.compact

mutual

/-- A value from where the cursor is to the end of its last line. Its other lines are indented by
`width` blanks. -/
def node (width : Nat) : Json → String
  | .arr (item :: items) => (indent width).intercalate (entries width (item :: items))
  | .obj (field :: fields) _ => (indent width).intercalate (lines width (field :: fields))
  | j => endLine (leaf width j)

def entries (width : Nat) : List Json → List String
  | [] => []
  | item :: items => ("- " ++ node (width + 2) item) :: entries width items

/-- The fields of an object. A list under a field is not indented, an object is. -/
def lines (width : Nat) : List (String × Json) → List String
  | [] => []
  | (key, value) :: fields =>
    let text :=
      match value with
      | .arr (_ :: _) => "\n" ++ indent width ++ node width value
      | .obj (_ :: _) _ => "\n" ++ indent (width + 2) ++ node (width + 2) value
      | value => " " ++ endLine (leaf (width + 2) value)
    (scalar width key ++ ":" ++ text) :: lines width fields

end

def text (j : Json) : String := node 0 j

end CrateTrace.Yaml
