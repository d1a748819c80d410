import CrateTrace.Program.Basic
import CrateTrace.Signature.Pattern

/-!
# Signatures of functions

A signature covers the instructions that start in the first 32 bytes of a function. Where the last
four bytes of an instruction are the distance to the one thing that it refers to, they are
wildcards, so that the signature stays the same when the program is linked elsewhere.
-/

namespace CrateTrace.Signature

open Program

/-- How many bytes behind the entry a signature looks at. -/
def windowBytes : UInt64 := 32

/-! ## Instructions -/

/-- References that a linker resolves. -/
def isRelocated (r : Reference) : Bool :=
  match r.kind with
  | .call false | .data false => true
  | _ => false

/-- The distance in four bytes, the lowest first. Only the topmost sixteenth of the values is
negative. -/
def relativeDisplacement (a b c d : UInt8) : Int :=
  let raw : Int := a.toNat + 0x100 * b.toNat + 0x10000 * c.toNat + 0x1000000 * d.toNat
  if 0xf0000000 ≤ raw then raw - 0x100000000 else raw

/-- The target of a distance that is counted from the next instruction. -/
def displaced (next : UInt64) (displacement : Int) : UInt64 := next + UInt64.ofInt displacement

/-- The last four bytes of an instruction are the distance to its only relocated reference. -/
def endsInDistance (i : Instruction) (references : List Reference) : Bool :=
  match references.filter isRelocated, i.bytes.drop (i.bytes.length - 4) with
  | [only], [a, b, c, d] =>
    5 ≤ i.bytes.length && displaced i.next (relativeDisplacement a b c d) == only.target
  | _, _ => false

/-- The groups of one instruction. -/
def encode (i : Instruction) (references : List Reference) : List Group :=
  if endsInDistance i references then
    (i.bytes.take (i.bytes.length - 4)).map .byte ++ List.replicate 4 .wildcard
  else i.bytes.map .byte

/-! ## Functions -/

/-- The signature of a run of instructions, cut or filled up to its length. -/
def ofWindow (window : List (Instruction × List Reference)) : Pattern :=
  let groups := (window.flatMap fun (i, references) => encode i references).take groupCount
  ⟨groups ++ List.replicate (groupCount - groups.length) .filler⟩

/-- The address before which the instructions of a signature start. -/
def windowLimit (f : FunctionExtent) : UInt64 :=
  if f.entry.toNat + windowBytes.toNat < f.stop.toNat then f.entry + windowBytes else f.stop

/-- The instructions that a signature covers, up to the first that the view gives out of range. -/
def windowOf (view : View) (f : FunctionExtent) : List Instruction :=
  (view.instructionsIn f.entry (windowLimit f)).takeWhile fun i =>
    f.entry ≤ i.address && i.address < windowLimit f

def ofFunction (view : View) (f : FunctionExtent) : Pattern :=
  ofWindow ((windowOf view f).map fun i => (i, view.referencesFrom i))

end CrateTrace.Signature
