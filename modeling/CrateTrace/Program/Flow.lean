import CrateTrace.Keyed
import CrateTrace.Program.Basic
import CrateTrace.Text.Blank

/-!
# Control flow

What an instruction refers to and where control goes behind it, and the blocks into which this cuts
a function.
-/

namespace CrateTrace.Program

/-! ## Instructions -/

inductive BaseRegister where
  | instructionPointer
  | stack
  | other
deriving DecidableEq, Repr

inductive Operand where
  | immediate (value : Int)
  | memory (base : BaseRegister) (displacement : Int)
deriving DecidableEq, Repr

/-- An instruction as a disassembler gives it. -/
structure Disassembled where
  address : UInt64
  bytes : List UInt8
  mnemonic : String
  operandText : String
  isCall : Bool
  isJump : Bool
  isReturn : Bool
  operands : List Operand
deriving DecidableEq, Repr

/-- How control leaves an instruction. -/
inductive Flow where
  | next
  | jump (target : Option UInt64) (conditional : Bool)
  | return
deriving DecidableEq, Repr

structure Decoded where
  instruction : Instruction
  references : List Reference
  flow : Flow
deriving DecidableEq, Repr

namespace Disassembled

def instruction (d : Disassembled) : Instruction :=
  { address := d.address
    bytes := d.bytes
    text := String.ofList (Text.trim (d.mnemonic ++ " " ++ d.operandText).toList) }

def isConditional (d : Disassembled) : Bool := d.isJump && d.mnemonic != "jmp"

/-- An immediate operand is a target only of a call or a jump. -/
def target? (d : Disassembled) : Operand → Option UInt64
  | .immediate value => if d.isCall || d.isJump then some (UInt64.ofInt value) else none
  | .memory _ _ => none

def reference? (d : Disassembled) (operand : Operand) : Option Reference :=
  match operand with
  | .immediate _ =>
    (d.target? operand).map fun target =>
      ⟨d.address, target, if d.isCall then .call false else .jump d.isConditional⟩
  | .memory .instructionPointer displacement =>
    some ⟨d.address, d.instruction.next + UInt64.ofInt displacement, .data false⟩
  | .memory .stack displacement => some ⟨d.address, UInt64.ofInt displacement, .data true⟩
  | .memory .other _ => none

/-- The last target among the operands counts. -/
def flow (d : Disassembled) : Flow :=
  if d.isReturn then .return
  else if d.isJump then .jump (d.operands.filterMap d.target?).getLast? d.isConditional
  else .next

def decode (d : Disassembled) : Decoded :=
  ⟨d.instruction, d.operands.filterMap d.reference?, d.flow⟩

end Disassembled

/-! ## Blocks -/

def Decoded.address (d : Decoded) : UInt64 := d.instruction.address

/-- Where blocks start because of one instruction of a function: at a target inside, and behind a
jump or a return. -/
def Decoded.leaders (f : FunctionExtent) (d : Decoded) : List UInt64 :=
  match d.flow with
  | .next => []
  | .return => [d.instruction.next]
  | .jump target _ =>
    (target.filter fun t => f.entry ≤ t && t < f.stop).toList ++ [d.instruction.next]

def leaders (f : FunctionExtent) (body : List Decoded) : List UInt64 :=
  f.entry :: body.flatMap (Decoded.leaders f)

/-- Where control goes from a block that ends with this instruction. -/
def Decoded.successors (d : Decoded) : List BlockEdge :=
  match d.flow with
  | .next | .return => []
  | .jump target conditional =>
    (target.map fun t => ⟨t, conditional⟩).toList ++
      (if conditional then [⟨d.instruction.next, false⟩] else [])

def BasicBlock.push (b : BasicBlock) (i : Instruction) : BasicBlock :=
  { b with instructions := b.instructions ++ [i] }

def BasicBlock.goTo (b : BasicBlock) (edges : List BlockEdge) : BasicBlock :=
  { b with successors := b.successors ++ edges }

/-- The blocks of the rest of a body, when `count` blocks are done and one may be open. A block that
reaches a leader goes on there. -/
def blocksFrom (isLeader : UInt64 → Bool) (count : Nat) (current : Option BasicBlock) :
    List Decoded → List BasicBlock
  | [] => current.toList
  | d :: rest =>
    let reached := if isLeader d.address then current else none
    let done := (reached.map (·.goTo [⟨d.address, false⟩])).toList
    let count := count + done.length
    let kept := if isLeader d.address then none else current
    let block := (kept.getD ⟨count, d.address, [], []⟩).push d.instruction
    match d.flow with
    | .next => done ++ blocksFrom isLeader count (some block) rest
    | _ => done ++ block.goTo d.successors :: blocksFrom isLeader (count + 1) none rest

/-- The blocks of a function with this body, in the order of their addresses. -/
def blocksOfBody (f : FunctionExtent) (body : List Decoded) : List BasicBlock :=
  blocksFrom (fun address => (leaders f body).contains address) 0 none body

/-! ## Programs -/

/-- A program that was disassembled as a whole: its functions, and its instructions in the order of
their addresses. -/
structure Disassembly where
  functions : List FunctionExtent
  decoded : List (UInt64 × Decoded)

namespace Disassembly

/-- What starts at or after `start` and before `stop`. -/
def decodedIn (p : Disassembly) (start stop : UInt64) : List Decoded :=
  (p.decoded.filter fun (address, _) => start ≤ address && address < stop).map (·.2)

def instructionsIn (p : Disassembly) (start stop : UInt64) : List Instruction :=
  (p.decodedIn start stop).map (·.instruction)

def blocksOf (p : Disassembly) (f : FunctionExtent) : List BasicBlock :=
  blocksOfBody f (p.decodedIn f.entry f.stop)

def referencesFrom (p : Disassembly) (i : Instruction) : List Reference :=
  match Keyed.find? i.address p.decoded with
  | some d => d.references
  | none => []

def view (p : Disassembly) : View :=
  ⟨p.functions, p.instructionsIn, p.blocksOf, p.referencesFrom⟩

end Disassembly

end CrateTrace.Program
