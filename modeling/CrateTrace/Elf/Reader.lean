import CrateTrace.Bytes
import CrateTrace.Elf.Image

/-!
# Reading ELF images

The sections and symbols of an ELF file. Addresses are wide or narrow in it, and numbers lie in
either order.
-/

namespace CrateTrace.Elf

/-! ## Numbers and text -/

/-- How numbers lie in a file. -/
structure Format where
  /-- The width of an address in bytes, 8 or 4. -/
  word : Nat
  highestFirst : Bool

/-- The number in the `width` bytes at an offset. -/
def natAt? (format : Format) (bytes : ByteArray) (offset width : Nat) : Option Nat :=
  let number := if format.highestFirst then Bytes.bigEndian else Bytes.littleEndian
  if offset + width ≤ bytes.size then some (number bytes offset width) else none

def wordAt? (format : Format) (bytes : ByteArray) (offset : Nat) : Option UInt64 :=
  (natAt? format bytes offset format.word).map UInt64.ofNat

/-- The bytes of a range that lies inside the file. -/
def slice? (bytes : ByteArray) (offset size : Nat) : Option ByteArray :=
  if offset + size ≤ bytes.size then some (bytes.extract offset (offset + size)) else none

def isContinuation (b : UInt8) : Bool := 0x80 ≤ b && b < 0xc0

/-- The name that starts at an offset of a string table, up to the next zero byte. An offset outside
the table, or inside a character, gives the empty name. -/
def nameAt (table : ByteArray) (offset : Nat) : String :=
  let tail := (table.extract offset table.size).toList
  if tail.head?.any isContinuation then ""
  else (String.fromUTF8? (tail.takeWhile (· ≠ 0)).toByteArray).getD ""

/-! ## Sections -/

def Format.sectionSize (format : Format) : Nat := 16 + 6 * format.word

def readSection? (format : Format) (bytes : ByteArray) (offset : Nat) : Option SectionHeader := do
  let word := format.word
  let _ ← natAt? format bytes offset format.sectionSize
  return {
    kind := ← natAt? format bytes (offset + 4) 4
    address := ← wordAt? format bytes (offset + 8 + word)
    offset := ← wordAt? format bytes (offset + 8 + 2 * word)
    size := ← wordAt? format bytes (offset + 8 + 3 * word)
    link := ← natAt? format bytes (offset + 8 + 4 * word) 4
    entrySize := ← wordAt? format bytes (offset + 16 + 5 * word) }

/-- The section headers at an offset. Without an offset there are none, and a count of zero means
that the first header holds the count as its size. -/
def readSections? (format : Format) (bytes : ByteArray) (offset count : Nat) :
    Option (List SectionHeader) :=
  if offset = 0 then some []
  else do
    let first ← readSection? format bytes offset
    let count := if count = 0 then first.size.toNat else count
    if bytes.size / format.sectionSize < count then none
    else
      let others ← (List.range (count - 1)).mapM fun i =>
        readSection? format bytes (offset + format.sectionSize * (i + 1))
      return first :: others

def noBits : Nat := 8

/-- A section lies inside the file and in the address space, unless it takes no room in the file. -/
def SectionHeader.isSound (s : SectionHeader) (fileSize : Nat) : Bool :=
  s.kind == noBits || s.size == 0 ||
    (s.offset.toNat + s.size.toNat ≤ fileSize && s.address.toNat + s.size.toNat < UInt64.size)

/-- An index that stands for the link of the first section. -/
def extendedIndex : Nat := 0xffff

/-- The string table in a section; an empty one if there is no such section. -/
def stringTable? (bytes : ByteArray) (sections : List SectionHeader) (index : Nat) :
    Option ByteArray :=
  let target :=
    if index = extendedIndex then sections.head?.bind fun first => sections[first.link]?
    else sections[index]?
  match target with
  | none => some ByteArray.empty
  | some s =>
    if s.isSound bytes.size then
      (slice? bytes s.offset.toNat s.size.toNat).filter ByteArray.validateUTF8
    else none

/-! ## Symbols -/

def Format.symbolSize (format : Format) : Nat := 8 + 2 * format.word

/-- The kind of a section that holds the symbols. -/
def symbolTable : Nat := 2

/-- Value and size stand behind the rest of a symbol if addresses are wide, and else before it. -/
def readSymbol? (format : Format) (bytes names : ByteArray) (offset : Nat) : Option Symbol := do
  let (rest, value) := if format.word = 8 then (offset + 4, offset + 8) else (offset + 12, offset + 4)
  return {
    name := nameAt names (← natAt? format bytes offset 4)
    info := ← natAt? format bytes rest 1
    sectionIndex := ← natAt? format bytes (rest + 2) 2
    value := ← wordAt? format bytes value
    size := ← wordAt? format bytes (value + format.word) }

/-- The symbols in a section. The size that the section gives for an entry only tells how many there
are. -/
def readSymbols? (format : Format) (bytes : ByteArray) (sections : List SectionHeader)
    (table : SectionHeader) : Option (List Symbol) := do
  let count := table.size.toNat / table.entrySize.toNat
  let offset := table.offset.toNat
  let entries ← if offset < bytes.size then slice? bytes offset (format.symbolSize * count) else none
  let names ← stringTable? bytes sections table.link
  (List.range count).mapM fun i => readSymbol? format entries names (format.symbolSize * i)

/-- The symbols of the last symbol table. -/
def allSymbols? (format : Format) (bytes : ByteArray) (sections : List SectionHeader) :
    Option (List Symbol) :=
  match sections.reverse.find? (·.kind == symbolTable) with
  | none => some []
  | some table => readSymbols? format bytes sections table

/-! ## Images -/

def identSize : Nat := 16

def magic : List UInt8 := [0x7f, 0x45, 0x4c, 0x46]

/-- The class and the data encoding of a file tell how numbers lie in it. -/
def formatOf? (bytes : ByteArray) : Option Format := do
  let word ←
    match Bytes.byteAt bytes 4 with
    | 1 => some 4
    | 2 => some 8
    | _ => none
  match Bytes.byteAt bytes 5 with
  | 1 => return ⟨word, false⟩
  | 2 => return ⟨word, true⟩
  | _ => none

def readImage? (bytes : ByteArray) : Option Image := do
  let format ← formatOf? bytes
  let word := format.word
  let _ ← natAt? format bytes 0 (40 + 3 * word)
  let offset ← natAt? format bytes (24 + 2 * word) word
  let sections ← readSections? format bytes offset (← natAt? format bytes (36 + 3 * word) 2)
  let _ ← stringTable? bytes sections (← natAt? format bytes (38 + 3 * word) 2)
  return {
    machine := ← natAt? format bytes 18 2
    sections
    symbols := ← allSymbols? format bytes sections }

/-- The reader of the program. A file is first told by its first bytes; then all of its tables have to
be sound. -/
def standardReader : ObjectReader := fun bytes =>
  if bytes.size < identSize then none
  else if (bytes.extract 0 4).toList ≠ magic then some .other
  else (readImage? bytes).map .elf

end CrateTrace.Elf
