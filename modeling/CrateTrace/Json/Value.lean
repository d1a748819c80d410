/-!
# JSON values
-/

namespace CrateTrace

/-- A JSON value. An object keeps the order of its fields, and a key may come twice. It is plain if no
key is written with the number of a character. -/
inductive Json where
  | null
  | bool (value : Bool)
  | int (value : Int)
  | float (value : Float)
  | str (text : String)
  | arr (items : List Json)
  | obj (fields : List (String × Json)) (plain : Bool := true)
  /-- Text of the right form without a value: a lone surrogate or a number out of range. It may be
  skipped, but not used. -/
  | flawed

namespace Json

def ofNat (n : Nat) : Json := .int n

/-- `null` for nothing. -/
def ofOption {α : Type} (f : α → Json) : Option α → Json
  | none => .null
  | some a => f a

def ofList {α : Type} (f : α → Json) (items : List α) : Json := .arr (items.map f)

mutual

/-- How deep arrays and objects nest, and whether nothing in them is flawed. -/
def soundDepth : Json → Nat × Bool
  | .arr items => let (d, ok) := soundDepthItems items; (d + 1, ok)
  | .obj fields _ => let (d, ok) := soundDepthFields fields; (d + 1, ok)
  | .flawed => (0, false)
  | _ => (0, true)

def soundDepthItems : List Json → Nat × Bool
  | [] => (0, true)
  | j :: items =>
    let (d, ok) := soundDepth j
    let (d', ok') := soundDepthItems items
    (max d d', ok && ok')

def soundDepthFields : List (String × Json) → Nat × Bool
  | [] => (0, true)
  | (_, j) :: fields =>
    let (d, ok) := soundDepth j
    let (d', ok') := soundDepthFields fields
    (max d d', ok && ok')

end

end Json

end CrateTrace
