import CrateTrace.Decimal.Digits
import CrateTrace.Json.Fields
import CrateTrace.Keyed
import CrateTrace.Mangling
import CrateTrace.Signature.Encoding

/-!
# Program dumps

What is written down of a program: for each function its symbol, its graph of blocks and, for a Rust
function, its signature.
-/

namespace CrateTrace.Program

structure FunctionDump where
  name : String
  isRust : Bool
  /-- From one block to another, with the code of the edge. -/
  edges : List (Nat × Nat × Nat)
  /-- The texts of the instructions by block, in the order of the blocks. -/
  blocks : List (Nat × List String)
  signature : String
deriving DecidableEq, Repr

/-- The functions of a program by the key of their entry, in the order of the keys. -/
abbrev Dump := List (String × FunctionDump)

/-- Where a function is listed: the hex digits of its entry, at least eight. -/
def entryKey (entry : UInt64) : String := Text.hexPadded 8 entry.toNat

def BlockEdge.code (e : BlockEdge) : Nat := if e.conditional then 1 else 0

/-- The block that starts at an address; the last one, should there be several. -/
def blockAt? (blocks : List BasicBlock) (address : UInt64) : Option Nat :=
  (blocks.reverse.find? (·.start == address)).map (·.index)

/-- The edges of a block. Those that leave the function are dropped. -/
def edgesOf (blocks : List BasicBlock) (block : BasicBlock) : List (Nat × Nat × Nat) :=
  block.successors.filterMap fun edge =>
    (blockAt? blocks edge.target).map fun index => (block.index, index, edge.code)

def dumpFunction (view : View) (f : FunctionExtent) : FunctionDump :=
  let blocks := view.blocksOf f
  let isRust := Mangling.hasMark f.name
  { name := f.name
    isRust
    edges := blocks.flatMap (edgesOf blocks)
    blocks := Keyed.ofPairs Keyed.natBefore <|
      blocks.map fun b => (b.index, b.instructions.map (·.text))
    signature := if isRust then (Signature.ofFunction view f).text else "" }

/-- Of functions with the same entry the last is kept. -/
def dump (view : View) : Dump :=
  Keyed.ofPairs Keyed.textBefore <|
    view.functions.map fun f => (entryKey f.entry, dumpFunction view f)

/-! ## JSON -/

def FunctionDump.toJson (f : FunctionDump) : Json :=
  .obj [("func_name", .str f.name), ("is_rust_func", .bool f.isRust),
    ("edges", Json.ofList (fun (a, b, c) => .arr [.ofNat a, .ofNat b, .ofNat c]) f.edges),
    ("bbs", .obj (f.blocks.map fun (index, texts) => (toString index, Json.ofList Json.str texts))),
    ("sig", .str f.signature)]

def Dump.toJson (d : Dump) : Json := .obj (d.map fun (key, f) => (key, f.toJson))

def edge? : Json → Option (Nat × Nat × Nat)
  | .arr [a, b, c] => do
    return (← a.natBelow? UInt64.size, ← b.natBelow? UInt64.size, ← c.natBelow? UInt8.size)
  | _ => none

/-- A block number as a key: decimal digits without a leading zero. -/
def blockIndex? (key : String) : Option Nat :=
  let digits := key.toList
  if digits ≠ [] ∧ digits.all Char.isDigit ∧ (digits.head? = some '0' → digits.length = 1) then
    let n := Decimal.decimalValue digits
    if n < UInt64.size then some n else none
  else none

def blocks? (j : Json) : Option (List (Nat × List String)) :=
  (j.numbered? blockIndex? (Json.list? Json.string?)).map (Keyed.ofPairs Keyed.natBefore)

def FunctionDump.ofJson? (j : Json) : Option FunctionDump := do
  let f ← j.record? ["func_name", "is_rust_func", "edges", "bbs", "sig"]
  return {
    name := ← f.required "func_name" Json.string?
    isRust := ← f.required "is_rust_func" Json.bool?
    edges := ← f.orElse "edges" (Json.list? edge?) []
    blocks := ← f.orElse "bbs" blocks? []
    signature := ← f.orElse "sig" Json.string? "" }

def Dump.ofJson? (j : Json) : Option Dump :=
  (j.table? FunctionDump.ofJson?).map (Keyed.ofPairs Keyed.textBefore)

end CrateTrace.Program
