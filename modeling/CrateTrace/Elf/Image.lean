/-!
# ELF images

The sections and symbols of a program file, as a reader of such files gives them.
-/

namespace CrateTrace.Elf

structure SectionHeader where
  kind : Nat
  address : UInt64
  offset : UInt64
  size : UInt64
  link : Nat
  entrySize : UInt64
deriving DecidableEq, Repr

structure Symbol where
  name : String
  /-- Binding and type. -/
  info : Nat
  sectionIndex : Nat
  value : UInt64
  size : UInt64
deriving DecidableEq, Repr

structure Image where
  machine : Nat
  sections : List SectionHeader
  symbols : List Symbol
deriving DecidableEq, Repr

/-- What a program file is. -/
inductive Object where
  | elf (image : Image)
  | other
deriving DecidableEq, Repr

/-- Reads program files. Nothing is made of a file that is cut off or contradicts itself. -/
abbrev ObjectReader := (bytes : ByteArray) → Option Object

end CrateTrace.Elf
