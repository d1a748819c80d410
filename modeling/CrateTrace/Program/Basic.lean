/-!
# Disassembled programs

What the rest of the library needs to know of a program: its functions, their instructions and
blocks, and the references that instructions make.
-/

namespace CrateTrace.Program

structure Instruction where
  address : UInt64
  bytes : List UInt8
  text : String
deriving DecidableEq, Repr

/-- The address behind an instruction. Addresses wrap around. -/
def Instruction.next (i : Instruction) : UInt64 := i.address + UInt64.ofNat i.bytes.length

inductive ReferenceKind where
  | call (conditional : Bool)
  | jump (conditional : Bool)
  /-- A memory operand. Those relative to the stack pointer are marked. -/
  | data (stack : Bool)
deriving DecidableEq, Repr

structure Reference where
  source : UInt64
  target : UInt64
  kind : ReferenceKind
deriving DecidableEq, Repr

/-- The addresses of a function's body, without `stop`. The name is the symbol as found. -/
structure FunctionExtent where
  name : String
  entry : UInt64
  stop : UInt64
deriving DecidableEq, Repr

structure BlockEdge where
  target : UInt64
  conditional : Bool
deriving DecidableEq, Repr

structure BasicBlock where
  index : Nat
  start : UInt64
  instructions : List Instruction
  successors : List BlockEdge
deriving DecidableEq, Repr

/-- A program as a disassembler shows it. -/
structure View where
  functions : List FunctionExtent
  /-- The instructions that start at or after the first address and before the second. -/
  instructionsIn : UInt64 → UInt64 → List Instruction
  blocksOf : FunctionExtent → List BasicBlock
  referencesFrom : Instruction → List Reference

end CrateTrace.Program
