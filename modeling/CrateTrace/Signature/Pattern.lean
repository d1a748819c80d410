import CrateTrace.Text.Hex

/-!
# Signatures

A signature stands for the first 32 bytes of a function. Two signatures agree as far as both are
known.
-/

namespace CrateTrace.Signature

inductive Group where
  | byte (value : UInt8)
  /-- A byte that linking may change. -/
  | wildcard
  /-- No byte any more. -/
  | filler
deriving DecidableEq, Repr

structure Pattern where
  groups : List Group
deriving DecidableEq, Repr

/-- How many groups a signature has. -/
def groupCount : Nat := 32

/-! ## Text -/

def Group.text : Group → List Char
  | .byte b => Text.hexByte b
  | .wildcard => ['.', '.']
  | .filler => ['-', '-']

def groupsText (groups : List Group) : String := String.ofList (groups.flatMap Group.text)

def Pattern.text (p : Pattern) : String := groupsText p.groups

inductive PatternError where
  | length (found : Nat)
  | group (text : String) (offset : Nat)
deriving DecidableEq, Repr

def PatternError.message : PatternError → String
  | .length found => s!"signature must be 64 characters, found {found}"
  | .group text offset => s!"invalid signature group `{text}` at offset {offset}"

def Group.ofText? (a b : Char) : Option Group :=
  if a = '.' ∧ b = '.' then some .wildcard
  else if a = '-' ∧ b = '-' then some .filler
  else (Text.readHexByte? a b).map .byte

/-- The groups of a text whose first character stands at `offset`. -/
def groupsOf (offset : Nat) : List Char → Except PatternError (List Group)
  | a :: b :: rest =>
    match Group.ofText? a b with
    | none => .error (.group (String.ofList [a, b]) offset)
    | some group =>
      match groupsOf (offset + 2) rest with
      | .error e => .error e
      | .ok groups => .ok (group :: groups)
  | _ => .ok []

/-- A text of other length, or one with characters outside ASCII, is refused as a whole. -/
def Pattern.ofText (text : String) : Except PatternError Pattern :=
  let chars := text.toList
  if chars.length = 2 * groupCount ∧ chars.all (·.toNat < 128) then
    match groupsOf 0 chars with
    | .error e => .error e
    | .ok groups => .ok ⟨groups⟩
  else .error (.length chars.length)

def Pattern.isValid (text : String) : Bool := (Pattern.ofText text).isOk

/-! ## Agreement -/

def Group.isByte : Group → Bool
  | .byte _ => true
  | _ => false

/-- How many bytes of a signature are known. -/
def Pattern.concreteLength (p : Pattern) : Nat := p.groups.countP Group.isByte

/-- How many positions hold the same byte, unless two hold different ones. Nothing is compared
behind a filler. -/
def agreementOf : List Group → List Group → Option Nat
  | .filler :: _, _ | _, .filler :: _ | [], _ | _, [] => some 0
  | .wildcard :: as, _ :: bs | _ :: as, .wildcard :: bs => agreementOf as bs
  | .byte a :: as, .byte b :: bs => if a = b then (agreementOf as bs).map (· + 1) else none

def Pattern.agreement (a b : Pattern) : Option Nat := agreementOf a.groups b.groups

end CrateTrace.Signature
