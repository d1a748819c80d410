import CrateTrace.Elf.Image
import CrateTrace.Program.Flow

/-!
# Functions of an ELF image

Each sized function symbol gives a function, whose code is a range of the file. The headers may say
anything: a range is never larger than the symbol, its section or the file.
-/

namespace CrateTrace.Elf

open Program

/-! ## Ranges -/

/-- The largest address. -/
def maxWord : Nat := UInt64.size - 1

/-- The sum, but no more than the largest address. -/
def addCapped (a b : Nat) : Nat := min (a + b) maxWord

/-- The range of the file that holds `size` bytes at an address of a section. It is cut off at the
end of the section and of the file, and there is none if nothing is left. -/
def fileRange? (address size : UInt64) (s : SectionHeader) (fileSize : Nat) : Option (Nat × Nat) :=
  if address < s.address ∨ addCapped s.address.toNat s.size.toNat ≤ address.toNat then none
  else
    let inSection := address.toNat - s.address.toNat
    let start := addCapped s.offset.toNat inSection
    let available := s.size.toNat - inSection
    let stop := min (addCapped start (min size.toNat available)) fileSize
    if stop ≤ start then none else some (start, stop)

/-! ## Functions -/

/-- A function symbol and the range of the file that holds its code. -/
structure FunctionSymbol where
  name : String
  entry : UInt64
  start : Nat
  stop : Nat
deriving DecidableEq, Repr

def functionType : Nat := 2

/-- A symbol that stands for code of this file. -/
def Symbol.isDefinedFunction (s : Symbol) : Bool :=
  s.info % 16 == functionType && s.value != 0 && s.size != 0 && s.sectionIndex != 0 && s.name != ""

def Symbol.function? (image : Image) (fileSize : Nat) (s : Symbol) : Option FunctionSymbol :=
  if s.isDefinedFunction then
    match image.sections[s.sectionIndex]? with
    | none => none
    | some header =>
      (fileRange? s.value s.size header fileSize).map fun (start, stop) =>
        ⟨s.name, s.value, start, stop⟩
  else none

/-- The functions of an image in the order of their entries. Of symbols with the same entry the first
names the function. -/
def functionSymbols (image : Image) (fileSize : Nat) : List FunctionSymbol :=
  ((image.symbols.filterMap (Symbol.function? image fileSize)).foldl
    (fun table f => Keyed.insertNew Keyed.wordBefore f.entry f table) []).map (·.2)

/-- The sum of two words, if it is a word. -/
def plus? (a b : UInt64) : Option UInt64 :=
  if a.toNat + b.toNat < UInt64.size then some (a + b) else none

/-- The addresses of a function. There is none if the end would not be an address. -/
def FunctionSymbol.extent? (f : FunctionSymbol) : Option FunctionExtent :=
  (plus? f.entry (UInt64.ofNat (f.stop - f.start))).map (FunctionExtent.mk f.name f.entry)

/-! ## Programs -/

/-- A disassembler: the instructions of some code that starts at an address. -/
abbrev Disassembler := (code : List UInt8) → (entry : UInt64) → List Disassembled

def codeOf (bytes : ByteArray) (f : FunctionSymbol) : List UInt8 :=
  (bytes.extract f.start f.stop).toList

def x86_64 : Nat := 62

/-- The instructions of one function, put among those of other functions. -/
def addDecoded (table : List (UInt64 × Decoded)) (body : List Disassembled) :
    List (UInt64 × Decoded) :=
  body.foldl (fun table d => Keyed.insert Keyed.wordBefore d.address d.decode table) table

/-- Disassembles one more function. -/
def addFunction? (disassembler : Disassembler) (bytes : ByteArray) (p : Disassembly)
    (f : FunctionSymbol) : Option Disassembly :=
  f.extent?.map fun extent =>
    { functions := p.functions ++ [extent]
      decoded := addDecoded p.decoded (disassembler (codeOf bytes f) f.entry) }

inductive ImageError where
  | malformed
  | unsupported (reason : String)
deriving DecidableEq, Repr

def ImageError.message : ImageError → String
  | .malformed => "failed to parse object"
  | .unsupported reason => s!"unsupported binary: {reason}"

/-- Why no program is made of a file. -/
inductive Failure where
  | refused (reason : ImageError)
  /-- The end of a function would not be an address, at which the process stops. -/
  | overflow
deriving DecidableEq, Repr

/-- Disassembles every function of a file. -/
def disassemble (reader : ObjectReader) (disassembler : Disassembler) (bytes : ByteArray) :
    Except Failure Disassembly :=
  match reader bytes with
  | none => .error (.refused .malformed)
  | some .other => .error (.refused (.unsupported "only ELF files are supported"))
  | some (.elf image) =>
    if image.machine ≠ x86_64 then
      .error (.refused (.unsupported s!"machine type {image.machine} is not x86-64"))
    else
      let functions := functionSymbols image bytes.size
      match functions.foldlM (addFunction? disassembler bytes) ⟨[], []⟩ with
      | some p => .ok p
      | none => .error .overflow

end CrateTrace.Elf
