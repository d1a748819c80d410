import CrateTrace.Elf.Extents
import CrateTrace.FileError
import CrateTrace.Mangling

/-!
# What commands need

Commands read and write files, have symbols demangled and program files read and disassembled, and
note the time.
-/

namespace CrateTrace.Workspace

inductive EntryKind where
  | file
  | directory
deriving DecidableEq, Repr

/-- A machine that commands run on. -/
class Host (m : Type → Type) where
  /-- The absolute path of the directory in which the command was started. -/
  currentDirectory : m String
  /-- The path to a file or directory that is there, without `.` and `..`. -/
  canonical? (path : String) : m (Option String)
  kind (path : String) : m (Except FileError EntryKind)
  /-- The names in a directory. -/
  names (path : String) : m (List String)
  read (path : String) : m (Except FileError ByteArray)
  write (path : String) (bytes : ByteArray) : m (Except FileError Unit)
  /-- Makes a directory, and those above it that are missing. -/
  makeDirectories (path : String) : m (Except FileError Unit)
  demangler : Mangling.Demangler
  objectReader : Elf.ObjectReader
  /-- What disassembles the functions of a program file. -/
  disassembler (path : String) : m Elf.Disassembler
  /-- The time, as it is noted in the database. -/
  time : m String

/-- Why a command ends early. -/
inductive Failure where
  /-- What it was doing when it failed, outermost first, down to the cause. -/
  | error (chain : List String)
  /-- The process stops in the middle of its work. -/
  | panic
deriving DecidableEq, Repr

section

variable {m : Type → Type} [Monad m] {α : Type}

/-- Fails with what was being done in front of the reason. -/
def orFail (doing : String) (result : Except FileError α) : ExceptT Failure m α :=
  match result with
  | .ok a => pure a
  | .error reason => throw (.error [doing, reason.message])

variable [Host m]

def isFile (path : String) : m Bool := do return (← Host.kind path).toOption == some .file

def isDirectory (path : String) : m Bool := do return (← Host.kind path).toOption == some .directory

end

end CrateTrace.Workspace
