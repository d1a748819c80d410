import CrateTrace.Decimal.Reader
import CrateTrace.Json.Value
import CrateTrace.Parsed
import CrateTrace.Text.Hex

/-!
# Reading JSON

Strict JSON text: one value, blanks around it, nothing else.
-/

namespace CrateTrace.Json

def isSpace (c : Char) : Bool := c == ' ' || c == '\t' || c == '\n' || c == '\r'

/-- The input if it does not start with `text`, else what follows it. -/
def literal (text : String) (value : Json) (input : List Char) : Option (Parsed input Json) :=
  if h : 0 < text.length ∧ text.toList.isPrefixOf input then
    some ⟨value, input.drop text.length, by
      have hp := (List.isPrefixOf_iff_prefix.1 h.2).length_le
      have := h.1
      simp only [String.length_toList] at hp
      simp only [List.length_drop]
      omega⟩
  else none

/-! ## Strings -/

/-- The value of a hex digit of either case. -/
def hexValue? (c : Char) : Option Nat := Text.hexValue? c.toLower

def escaped? : Char → Option Char
  | '"' => some '"'
  | '\\' => some '\\'
  | '/' => some '/'
  | 'b' => some '\x08'
  | 'f' => some '\x0c'
  | 'n' => some '\n'
  | 'r' => some '\r'
  | 't' => some '\t'
  | _ => none

/-- A character as written, or the number of one written as `\u`. -/
inductive Unit16 where
  | char (c : Char)
  | code (n : Nat)

/-- Everything up to the closing quote. -/
def stringUnits (input : List Char) : Option (Parsed input (List Unit16)) :=
  match input with
  | [] => none
  | '"' :: rest => some ⟨[], rest, by simp⟩
  | '\\' :: 'u' :: a :: b :: c :: d :: rest =>
    match hexValue? a, hexValue? b, hexValue? c, hexValue? d with
    | some a, some b, some c, some d =>
      (stringUnits rest).map (·.widen (.code (((a * 16 + b) * 16 + c) * 16 + d) :: ·)
        (by simp; omega))
    | _, _, _, _ => none
  | '\\' :: c :: rest =>
    match escaped? c with
    | some c => (stringUnits rest).map (·.widen (.char c :: ·) (by simp; omega))
    | none => none
  | c :: rest =>
    if c.toNat < 0x20 || c == '\\' then none
    else (stringUnits rest).map (·.widen (.char c :: ·) (by simp))

def isHighSurrogate (n : Nat) : Bool := 0xD800 ≤ n && n < 0xDC00

def isLowSurrogate (n : Nat) : Bool := 0xDC00 ≤ n && n < 0xE000

/-- The text of a string, unless a surrogate stands alone in it. -/
def joinUnits : List Unit16 → Option (List Char)
  | [] => some []
  | .char c :: units => (joinUnits units).map (c :: ·)
  | .code n :: .code m :: units =>
    if isHighSurrogate n then
      if isLowSurrogate m then
        (joinUnits units).map (Char.ofNat (0x10000 + (n - 0xD800) * 0x400 + (m - 0xDC00)) :: ·)
      else none
    else if isLowSurrogate n then none
    else (joinUnits (.code m :: units)).map (Char.ofNat n :: ·)
  | .code n :: units =>
    if isHighSurrogate n || isLowSurrogate n then none
    else (joinUnits units).map (Char.ofNat n :: ·)

/-- What stands behind an opening quote; no text if a surrogate stands alone. -/
def string (input : List Char) : Option (Parsed input (Option String)) :=
  (stringUnits input).map (·.map fun units => (joinUnits units).map String.ofList)

def Unit16.isChar : Unit16 → Bool
  | .char _ => true
  | .code _ => false

/-- A key behind its opening quote, and whether it is plain. -/
def key (input : List Char) : Option (Parsed input (Option (String × Bool))) :=
  (stringUnits input).map (·.map fun units =>
    (joinUnits units).map fun text => (String.ofList text, units.all Unit16.isChar))

/-- The fields of an object, and whether their keys are plain; none if a key is flawed. -/
abbrev ObjectBody := Option (List (String × Json) × Bool)

def ObjectBody.field (key : Option (String × Bool)) (item : Json) : ObjectBody :=
  key.map fun (name, plain) => ([(name, item)], plain)

def ObjectBody.append (first rest : ObjectBody) : ObjectBody := do
  let (fields, plain) ← first
  let (others, othersPlain) ← rest
  return (fields ++ others, plain && othersPlain)

/-! ## Numbers -/

/-- The value of a numeral: an integer if it has neither fraction nor exponent and fits in 64
bits. There is no negative integer zero. -/
def number (negative : Bool) (whole part : List Char) (exponent : Option Int) : Json :=
  let n := Decimal.decimalValue whole
  if part = [] ∧ exponent = none ∧
      (if negative then 1 ≤ n ∧ Int64.minValue.toInt ≤ -n else n < UInt64.size) then
    .int (if negative then -n else n)
  else
    match Decimal.readFloat whole part (exponent.getD 0) with
    | some x => .float (if negative then -x else x)
    | none => .flawed

/-- The digits of a fraction behind its point, if there is one. -/
def fraction (input : List Char) : Option (List Char × Rest input) :=
  match input with
  | '.' :: rest =>
    match spanOf Char.isDigit rest with
    | ([], _) => none
    | (digits, rest') => some (digits, rest'.within '.')
  | input => some ([], .all input)

/-- Whether an exponent is negative, and its digits. -/
def exponentSign (input : List Char) : Bool × Rest input :=
  match input with
  | '-' :: rest => (true, .behind '-' rest)
  | '+' :: rest => (false, .behind '+' rest)
  | input => (false, .all input)

/-- The exponent, if there is one. -/
def exponent (input : List Char) : Option (Option Int × Rest input) :=
  match input with
  | [] => some (none, .all [])
  | e :: rest =>
    if e == 'e' || e == 'E' then
      let (negative, unsigned) := exponentSign rest
      match spanOf Char.isDigit unsigned.1 with
      | ([], _) => none
      | (digits, rest') =>
        let n := Decimal.decimalValue digits
        some (some (if negative then -n else n), (unsigned.andThen rest').within e)
    else some (none, .all (e :: rest))

/-- A number without its sign: no zero stands before other digits. -/
def magnitude (negative : Bool) (input : List Char) : Option (Parsed input Json) :=
  match input with
  | [] => none
  | first :: others =>
    if !first.isDigit || (first == '0' && others.head?.any Char.isDigit) then none
    else
      match spanOf Char.isDigit others with
      | (digits, ⟨rest, h⟩) =>
        match fraction rest with
        | none => none
        | some (part, ⟨rest', h'⟩) =>
          match exponent rest' with
          | none => none
          | some (exponent, ⟨rest'', h''⟩) =>
            some ⟨number negative (first :: digits) part exponent, rest'', by simp; omega⟩

/-! ## Values -/

mutual

def value (input : List Char) : Option (Parsed input Json) :=
  match input with
  | [] => none
  | '"' :: rest =>
    (string rest).map (·.widen (fun | some text => .str text | none => .flawed) (by simp))
  | '[' :: rest =>
    match dropOf isSpace rest with
    | ⟨inner, h⟩ =>
      if inner.head? = some ']' then some ⟨.arr [], inner.tail, by simp; omega⟩
      else (items inner).map (·.widen .arr (by simp; omega))
  | '\x7b' :: rest =>
    match dropOf isSpace rest with
    | ⟨inner, h⟩ =>
      if inner.head? = some '\x7d' then some ⟨.obj [], inner.tail, by simp; omega⟩
      else (fields inner).map
        (·.widen (fun | some (fields, plain) => .obj fields plain | none => .flawed)
          (by simp; omega))
  | '-' :: rest => (magnitude true rest).map (·.widen id (by simp))
  | c :: rest =>
    if c.isDigit then magnitude false (c :: rest)
    else
      match literal "null" .null (c :: rest) with
      | some p => some p
      | none =>
        match literal "true" (.bool true) (c :: rest) with
        | some p => some p
        | none => literal "false" (.bool false) (c :: rest)
termination_by 2 * input.length

/-- The items of an array, of which there is at least one, up to its `]`. -/
def items (input : List Char) : Option (Parsed input (List Json)) :=
  match value input with
  | none => none
  | some ⟨item, rest, h⟩ =>
    match dropOf isSpace rest with
    | ⟨[], _⟩ => none
    | ⟨next :: others, h'⟩ =>
      if next == ']' then some ⟨[item], others, by simp at h'; omega⟩
      else if next == ',' then
        match dropOf isSpace others with
        | ⟨inner, h''⟩ => (items inner).map (·.widen (item :: ·) (by simp at h'; omega))
      else none
termination_by 2 * input.length + 1
decreasing_by all_goals (try simp only [List.length_cons] at *); omega

/-- The fields of an object, of which there is at least one, up to its closing brace. -/
def fields (input : List Char) : Option (Parsed input ObjectBody) :=
  match input with
  | '"' :: first =>
    match key first with
    | none => none
    | some ⟨key, rest, h₀⟩ =>
      match dropOf isSpace rest with
      | ⟨[], _⟩ => none
      | ⟨colon :: rest, h₁⟩ =>
        if colon == ':' then
          match dropOf isSpace rest with
          | ⟨inner, h₂⟩ =>
            match value inner with
            | none => none
            | some ⟨item, rest, h₃⟩ =>
              match dropOf isSpace rest with
              | ⟨[], _⟩ => none
              | ⟨next :: others, h₄⟩ =>
                let field := ObjectBody.field key item
                if next == '\x7d' then
                  some ⟨field, others, by simp at *; omega⟩
                else if next == ',' then
                  match dropOf isSpace others with
                  | ⟨inner, h₅⟩ =>
                    (fields inner).map (·.widen field.append (by simp at *; omega))
                else none
        else none
  | _ => none
termination_by 2 * input.length + 1
decreasing_by all_goals (simp only [List.length_cons] at *; omega)

end

/-- The value of a whole text. -/
def ofText? (text : String) : Option Json :=
  match value (text.toList.dropWhile isSpace) with
  | some ⟨j, rest, _⟩ => if rest.all isSpace then some j else none
  | none => none

end CrateTrace.Json
