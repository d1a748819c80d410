import CrateTrace.Store.Columns

/-!
# The store

Crate versions with their source functions, binaries with their functions, the links between the two
kinds of functions, and the runs that made them. A link must lead to a source function that is there.
-/

namespace CrateTrace

open Store in
structure Store where
  crates : Table CrateVersion
  binaries : Table Binary
  sources : Table SourceColumns
  functions : Table BinaryColumns
  runs : Table RunColumns
deriving DecidableEq

namespace Store

def empty : Store := ⟨.empty, .empty, .empty, .empty, .empty⟩

/-! ## Crate versions -/

def findCrate? (s : Store) (unit : CrateVersion) : Option (Row CrateVersion) :=
  s.crates.find? (· == unit)

def addCrate (s : Store) (unit : CrateVersion) : Store :=
  { s with crates := s.crates.insert unit }

/-- The row of a crate version, whether it is new, and the store that has it. A number is given away
also for one that is there. -/
def ensureCrate (s : Store) (unit : CrateVersion) : Row CrateVersion × Bool × Store :=
  match s.findCrate? unit with
  | some row => (row, false, { s with crates := s.crates.skip })
  | none => (⟨s.crates.next, unit⟩, true, s.addCrate unit)

/-! ## Binaries -/

def findBinary? (s : Store) (name : String) : Option (Row Binary) :=
  s.binaries.find? (·.name == name)

def addBinary (s : Store) (binary : Binary) : Store :=
  { s with binaries := s.binaries.insert binary }

/-- The row of a binary, whether it is new, and the store that has it. A number is given away also
for one that is there, and that one keeps its hash. -/
def ensureBinary (s : Store) (binary : Binary) : Row Binary × Bool × Store :=
  match s.findBinary? binary.name with
  | some row => (row, false, { s with binaries := s.binaries.skip })
  | none => (⟨s.binaries.next, binary⟩, true, s.addBinary binary)

def setHash (s : Store) (binaryId : RowId) (hash : Option String) : Store :=
  { s with binaries := s.binaries.update binaryId fun b => { b with hash } }

/-! ## Source functions -/

def countSources (s : Store) (crateId : RowId) : Nat := s.sources.count (·.crateId == crateId)

/-- Puts a source function into the table, whatever crate version it is said to belong to. -/
def addSource (s : Store) (crateId : RowId) (f : SourceFunction) : Store :=
  { s with sources := s.sources.insert (.ofFunction crateId f) }

def insertSource (s : Store) (crateId : RowId) (f : SourceFunction) :
    Except StoreError (RowId × Store) :=
  if s.crates.contains crateId then .ok (s.sources.next, s.addSource crateId f)
  else .error .foreignKey

def setSignature (s : Store) (sourceId : RowId) (signature : String) : Store :=
  { s with sources := s.sources.update sourceId fun f => { f with signature := some signature } }

def BinaryColumns.unlink (f : BinaryColumns) (gone : RowId → Bool) : BinaryColumns :=
  { f with matchedSource := f.matchedSource.filter fun id => !gone id }

/-- Removes the source functions of a crate version and the links to them. -/
def deleteSources (s : Store) (crateId : RowId) : Store :=
  let gone := (s.sources.rows.filter (·.value.crateId == crateId)).map (·.id)
  { s with
    sources := s.sources.filter (·.value.crateId != crateId)
    functions := s.functions.modify fun r => r.value.unlink gone.contains }

/-! ## Functions of binaries -/

def countFunctions (s : Store) (binaryId : RowId) : Nat :=
  s.functions.count (·.binaryId == binaryId)

/-- Puts a function into the table, whatever binary it is said to belong to. -/
def addFunction (s : Store) (binaryId : RowId) (f : BinaryFunction) : Store :=
  { s with functions := s.functions.insert (.ofFunction binaryId f) }

def insertFunction (s : Store) (binaryId : RowId) (f : BinaryFunction) :
    Except StoreError (RowId × Store) :=
  if s.binaries.contains binaryId ∧ f.matchedSource.all s.sources.contains then
    .ok (s.functions.next, s.addFunction binaryId f)
  else .error .foreignKey

/-! ## Links -/

def isLinked (s : Store) (sourceId : RowId) : Bool :=
  s.functions.rows.any fun r => r.value.matchedSource == some sourceId

/-- Marks as matched just the source functions that are linked. -/
def refreshMatched (s : Store) : Store :=
  { s with sources := s.sources.modify fun r => { r.value with matched := s.isLinked r.id } }

/-- Removes the functions of a binary. Source functions that were linked to them only are not matched
any more. -/
def deleteFunctions (s : Store) (binaryId : RowId) : Store :=
  { s with functions := s.functions.filter (·.value.binaryId != binaryId) }.refreshMatched

/-- Links a function to a source function and marks that as matched. -/
def link (s : Store) (functionId sourceId : RowId) : Store :=
  { s with
    functions := s.functions.update functionId fun f => { f with matchedSource := some sourceId }
    sources := s.sources.update sourceId fun f => { f with matched := true } }

/-- A function that is there can only be linked to a source function that is there. -/
def setMatch (s : Store) (functionId sourceId : RowId) : Except StoreError Store :=
  if s.functions.contains functionId ∧ !s.sources.contains sourceId then .error .foreignKey
  else .ok (s.link functionId sourceId)

/-! ## Runs -/

def addRun (s : Store) (run : Run) : Store := { s with runs := s.runs.insert (.ofRun run) }

end Store

end CrateTrace
