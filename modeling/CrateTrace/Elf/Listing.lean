import CrateTrace.Elf.Extents
import CrateTrace.Json.Fields

/-!
# Listings

A listing holds what a disassembler found in the functions of an image: for the entry of each
function, in decimal digits, its instructions.
-/

namespace CrateTrace.Elf

open Program

def operand? (j : Json) : Option Operand := do
  let f ← j.object? ["imm", "mem", "disp"]
  match f.find? "imm" with
  | some value => return .immediate (← value.int64?)
  | none =>
    let base : BaseRegister :=
      match ← f.required "mem" Json.string? with
      | "rip" => .instructionPointer
      | "rsp" | "rbp" => .stack
      | _ => .other
    return .memory base (← f.required "disp" Json.int64?)

/-- An instruction of the code that starts at `entry`. -/
def disassembled? (code : List UInt8) (entry : UInt64) (j : Json) : Option Disassembled := do
  let f ← j.object? ["address", "size", "mnemonic", "op_str", "groups", "operands"]
  let address ← f.required "address" Json.word?
  let size ← f.required "size" (Json.natBelow? UInt64.size)
  let groups ← f.required "groups" (Json.list? Json.string?)
  return {
    address
    bytes := (code.drop (address - entry).toNat).take size
    mnemonic := ← f.required "mnemonic" Json.string?
    operandText := ← f.required "op_str" Json.string?
    isCall := groups.contains "call"
    isJump := groups.contains "jump"
    isReturn := groups.contains "ret"
    operands := ← f.required "operands" (Json.list? operand?) }

/-- The disassembler that knows the functions of a listing and nothing else. -/
def listed (listing : Json) : Disassembler := fun code entry =>
  match listing with
  | .obj functions _ =>
    match functions.lookup (toString entry.toNat) with
    | some body => (body.list? (disassembled? code entry)).getD []
    | none => []
  | _ => []

end CrateTrace.Elf
