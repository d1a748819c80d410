import CrateTrace.Ingest.Source
import CrateTrace.Name.Kind
import CrateTrace.Program.Dump
import CrateTrace.Sha256

/-!
# Binary dumps

What is kept of the functions in the dump of a binary. Functions that are not written in Rust are
left out, and so are those of which not even the crate can be told.
-/

namespace CrateTrace.Ingest

open Mangling Name Program Store

/-- What a name that can be parsed is worth. -/
def statusOf (wants : String → Bool) (d : Declaration) (entry : FunctionDump) : Status :=
  match d.crateName with
  | none => .unknownFormat
  | some crate =>
    if !Signature.Pattern.isValid entry.signature then .unknownFormat
    else if entry.blocks.isEmpty then .badBinary
    else if wants crate then .ok
    else .unwantedCrate

def parsedFunction (wants : String → Bool) (binary : String) (address : UInt64)
    (fullName : String) (d : Declaration) (entry : FunctionDump) : BinaryFunction :=
  { crate := d.crateName.getD ""
    name := d.symbolName
    fullName
    kind := classify d
    status := statusOf wants d entry
    binary
    address
    signature := entry.signature
    matchedSource := none }

/-- The module and the last segment of a name that cannot be parsed. -/
def roughSplit (fullName : String) : String × String :=
  (Text.splitLast? "::" fullName).getD ("", fullName)

/-- A function whose name cannot be parsed is kept for its crate. -/
def unparsedFunction? (wants : String → Bool) (binary : String) (address : UInt64)
    (fullName : String) (entry : FunctionDump) : Option BinaryFunction :=
  (leadingCrate? fullName).map fun crate =>
    { crate
      name := (roughSplit fullName).2
      fullName
      kind := .normal (roughSplit fullName).1
      status := if wants crate then .unknownFormat else .unwantedCrate
      binary
      address
      signature := entry.signature
      matchedSource := none }

/-- The function of a dump entry, unless it is left out. -/
def functionOf? (demangler : Demangler) (wants : String → Bool) (binary key : String)
    (entry : FunctionDump) : Option BinaryFunction :=
  if !entry.isRust then none
  else
    match addressOfKey? key, demangle demangler entry.name with
    | some address, .ok fullName =>
      match parse fullName with
      | .ok d => some (parsedFunction wants binary address fullName d entry)
      | .error _ => unparsedFunction? wants binary address fullName entry
    | _, _ => none

def functionsOfDump (demangler : Demangler) (wants : String → Bool) (binary : String)
    (dump : Dump) : List BinaryFunction :=
  dump.filterMap fun (key, entry) => functionOf? demangler wants binary key entry

/-- Puts the functions of a dump into the store, in the order of the keys. -/
def fillBinary (demangler : Demangler) (s : Store) (binaryId : RowId) (wants : String → Bool)
    (binary : String) (dump : Dump) : Outcome × Store :=
  let functions := functionsOfDump demangler wants binary dump
  (.ingested functions.length (dump.length - functions.length),
    functions.foldl (·.addFunction binaryId) s)

/-- Ingests the dump of a binary. One that is there is only replaced by force. -/
def ingestDump (demangler : Demangler) (s : Store) (wants : String → Bool) (binary : Binary)
    (dump : Dump) (force : Bool) : Outcome × Store :=
  let (row, created, s') := s.ensureBinary binary
  if created then fillBinary demangler s' row.id wants binary.name dump
  else if force then
    fillBinary demangler ((s'.deleteFunctions row.id).setHash row.id binary.hash) row.id wants
      binary.name dump
  else (.alreadyPresent, s)

/-! ## Files -/

def readDump (path : String) (content : Except FileError ByteArray) : Except IngestError Dump :=
  match readText path content with
  | .error e => .error e
  | .ok text =>
    match (Json.ofText? text).bind Dump.ofJson? with
    | none => .error (.malformed path)
    | some dump => .ok dump

/-- The binary that a dump file is about, known by the name and the digest of the file, and its
dump. -/
def binaryDump (path : String) (content : Except FileError ByteArray) :
    Except IngestError (Binary × Dump) :=
  match Path.fileStem? path with
  | none => .error (.fileName path)
  | some name =>
    match content with
    | .error reason => .error (.unreadable path reason)
    | .ok bytes =>
      match readDump path content with
      | .error e => .error e
      | .ok dump => .ok (⟨name, some (Sha256.hex bytes)⟩, dump)

end CrateTrace.Ingest
