import CrateTrace.Command.Run
import CrateTrace.Elf.Listing
import CrateTrace.Elf.Reader
import CrateTrace.Json.Reader
import CrateTrace.Mangling.Standard
import Std.Time

/-!
# The program

Runs commands on the machine's own files. What a disassembler makes of a program file is read from a
listing beside it, the file of the same name with `.listing.json` behind it.
-/

open System

namespace CrateTrace.Main

open Workspace

/-- Some calls give the number of an error with a minus sign. -/
def fileError : IO.Error → FileError
  | .alreadyExists .. => .exists
  | .inappropriateType _ code _ =>
    if code == 21 || 0 - code == 21 then .isDirectory else .notDirectory
  | .invalidArgument .. => .nameTooLong
  | _ => .missing

/-- What an action gives, unless the machine refuses. -/
def attempt {α : Type} (action : IO α) : IO (Except FileError α) := do
  match ← action.toBaseIO with
  | .ok a => return .ok a
  | .error e => return .error (fileError e)

def readPath (path : FilePath) : IO ByteArray := IO.FS.readBinFile path

def entryKind (path : FilePath) : IO EntryKind := do
  match (← path.metadata).type with
  | .dir => return .directory
  | _ => return .file

def namesIn (path : FilePath) : IO (List String) := do
  let entries ← path.readDir
  return (entries.toList.map (·.fileName)).mergeSort (· ≤ ·)

/-- The listing beside a program file. Without one no instruction is known. -/
def listingOf (path : String) : IO Json := do
  match ← attempt (readPath (path ++ ".listing.json")) with
  | .ok bytes => return (((textOf bytes).toOption).bind Json.ofText?).getD .null
  | .error _ => return .null

def now : IO String := do
  let time := Std.Time.DateTime.ofTimestamp (← Std.Time.Timestamp.now) .UTC
  return time.format "uuuu-MM-dd'T'HH:mm:ss.SSSSSSSSSxxx"

instance : Host IO where
  currentDirectory := do return (← IO.currentDir).toString
  canonical? path := do
    match ← attempt (entryKind path) with
    | .ok _ => return some (← IO.FS.realPath path).toString
    | .error _ => return none
  kind path := attempt (entryKind path)
  names path := namesIn path
  read path := attempt (readPath path)
  write path bytes := attempt (IO.FS.writeBinFile path bytes)
  makeDirectories path := attempt (IO.FS.createDirAll path)
  demangler := Mangling.standard
  objectReader := Elf.standardReader
  disassembler path := do return Elf.listed (← listingOf path)
  time := now

end CrateTrace.Main

/-- Prints what the command prints. A failure is explained on the error stream, outermost reason first. -/
def main (arguments : List String) : IO UInt32 := do
  let result ← CrateTrace.Command.run (m := IO) arguments
  IO.print result.output
  for message in result.failure.getD [] do
    IO.eprintln s!"Error: {message}"
  return UInt32.ofNat result.code
