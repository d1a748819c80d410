import CrateTrace.Json.Value

/-!
# Taking JSON values apart

Each function gives nothing if the value has another form. A record may be written as an object or
as the array of its fields.
-/

namespace CrateTrace.Json

def bool? : Json → Option Bool
  | .bool b => some b
  | _ => none

def string? : Json → Option String
  | .str text => some text
  | _ => none

/-- The name of a choice without contents, written alone or as the only key of an object. -/
def tag? : Json → Option String
  | .str name | .obj [(name, .null)] _ => some name
  | _ => none

/-- An integer between two bounds, both included. -/
def intIn? (low high : Int) : Json → Option Int
  | .int n => if low ≤ n ∧ n ≤ high then some n else none
  | _ => none

/-- A number that is not negative and below a limit. -/
def natBelow? (limit : Nat) (j : Json) : Option Nat := (j.intIn? 0 (limit - 1)).map Int.toNat

/-- A signed integer of 64 bits. -/
def int64? : Json → Option Int := intIn? Int64.minValue.toInt Int64.maxValue.toInt

def word? (j : Json) : Option UInt64 := (j.natBelow? UInt64.size).map UInt64.ofNat

/-- Any number, the nearest double for an integer. -/
def float? : Json → Option Float
  | .float x => some x
  | .int n =>
    let magnitude := (UInt64.ofNat n.natAbs).toFloat
    some (if n < 0 then -magnitude else magnitude)
  | _ => none

def char? (j : Json) : Option Char :=
  match j.string?.map String.toList with
  | some [c] => some c
  | _ => none

def list? {α : Type} (item? : Json → Option α) : Json → Option (List α)
  | .arr items => items.mapM item?
  | _ => none

def nullable? {α : Type} (some? : Json → Option α) : Json → Option (Option α)
  | .null => some none
  | j => (some? j).map some

/-- The values of an object by key; of two with one key the last. -/
def table? {α : Type} (item? : Json → Option α) : Json → Option (List (String × α))
  | .obj fields _ => fields.mapM fun (key, j) => (item? j).map (key, ·)
  | _ => none

/-- The same with numbers as keys, which must be plain. -/
def numbered? {α : Type} (key? : String → Option Nat) (item? : Json → Option α) :
    Json → Option (List (Nat × α))
  | .obj fields true => fields.mapM fun (key, j) => do return (← key? key, ← item? j)
  | _ => none

/-! ## Records -/

/-- The fields of a record, by name. -/
structure Fields where
  /-- The record is an object, so that fields may be left out. -/
  named : Bool
  fields : List (String × Json)

/-- A record with fields of these names, in this order. Other fields of an object are skipped; no
field may come twice. -/
def record? (names : List String) : Json → Option Fields
  | .obj fields _ =>
    if names.all fun name => (fields.filter (·.1 == name)).length ≤ 1 then some ⟨true, fields⟩
    else none
  | .arr items => if items.length ≤ names.length then some ⟨false, names.zip items⟩ else none
  | _ => none

/-- A record that only an object can be. -/
def object? (names : List String) (j : Json) : Option Fields :=
  (record? names j).filter Fields.named

namespace Fields

def find? (f : Fields) (name : String) : Option Json := (f.fields.find? (·.1 == name)).map (·.2)

def required {α : Type} (f : Fields) (name : String) (value? : Json → Option α) : Option α :=
  (f.find? name).bind value?

/-- A field that may be `null`, or missing from an object. -/
def optional {α : Type} (f : Fields) (name : String) (value? : Json → Option α) :
    Option (Option α) :=
  match f.find? name with
  | some j => nullable? value? j
  | none => if f.named then some none else none

/-- A field that may be left out. -/
def orElse {α : Type} (f : Fields) (name : String) (value? : Json → Option α) (default : α) :
    Option α :=
  match f.find? name with
  | some j => value? j
  | none => some default

end Fields

end CrateTrace.Json
