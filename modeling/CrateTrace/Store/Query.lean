import CrateTrace.Store.Basic

/-!
# Listings

What the store answers. A row with a code that stands for nothing makes its listing fail.
-/

namespace CrateTrace.Store

/-! ## Rows as records -/

def Row.mapM {α β : Type} (f : α → Except StoreError β) (r : Row α) : Except StoreError (Row β) :=
  match f r.value with
  | .error e => .error e
  | .ok value => .ok ⟨r.id, value⟩

/-- The source functions in these rows, unless one of them cannot be read. -/
def sourcesOf (rows : List (Row SourceColumns)) : Except StoreError (List (Row SourceFunction)) :=
  rows.mapM (Row.mapM SourceColumns.function)

def functionsOf (rows : List (Row BinaryColumns)) : Except StoreError (List (Row BinaryFunction)) :=
  rows.mapM (Row.mapM BinaryColumns.function)

def FunctionColumns.hasStatus (c : FunctionColumns) (status : Status) : Bool :=
  c.status.isInteger status.code

/-! ## Order -/

/-- Addresses are stored as signed numbers, so those from `2 ^ 63` on come first. -/
def signedAddress (address : UInt64) : Int := address.toInt64.toInt

def addressLe (a b : Row BinaryColumns) : Bool :=
  signedAddress a.value.address ≤ signedAddress b.value.address

def nameLe (a b : Row CrateVersion) : Bool :=
  a.value.name < b.value.name ||
    (a.value.name == b.value.name && a.value.version ≤ b.value.version)

def binaryLe (a b : Row BinaryColumns) : Bool :=
  a.value.binary < b.value.binary || (a.value.binary == b.value.binary && addressLe a b)

/-! ## Crate versions and binaries -/

/-- By name, then by version. -/
def listCrates (s : Store) : List (Row CrateVersion) := s.crates.rows.mergeSort nameLe

def listBinaries (s : Store) : List (Row Binary) := s.binaries.rows

/-! ## Functions -/

/-- The source functions of a crate version that are `ok`. -/
def sourceFunctions (s : Store) (unit : CrateVersion) :
    Except StoreError (List (Row SourceFunction)) :=
  sourcesOf <| s.sources.rows.filter fun r =>
    r.value.crate == unit.name && r.value.version == unit.version && r.value.hasStatus .ok

/-- The functions of a crate that are `ok` and not linked yet. -/
def unmatchedFunctions (s : Store) (crate : String) :
    Except StoreError (List (Row BinaryFunction)) :=
  functionsOf <| s.functions.rows.filter fun r =>
    r.value.crate == crate && r.value.hasStatus .ok && r.value.matchedSource.isNone

/-- The functions of a crate with a status, linked or not. -/
def crateFunctions (s : Store) (crate : String) (status : Status) :
    Except StoreError (List (Row BinaryFunction)) :=
  functionsOf <| s.functions.rows.filter fun r =>
    r.value.crate == crate && r.value.hasStatus status

/-- The functions of a binary by address, those with one status only if it is given. -/
def binaryFunctions (s : Store) (binary : String) (status : Option Status) :
    Except StoreError (List (Row BinaryFunction)) :=
  functionsOf <| (s.functions.rows.filter fun r =>
    r.value.binary == binary && status.all r.value.hasStatus).mergeSort addressLe

/-! ## Links and runs -/

def linkOf? (s : Store) (r : Row BinaryColumns) : Option Link :=
  match r.value.matchedSource with
  | none => none
  | some sourceId =>
    (s.sources.get? sourceId).map fun source =>
      { binary := r.value.binary
        address := r.value.address
        binaryName := r.value.fullName
        crate := source.value.crate
        version := source.value.version
        sourceName := source.value.fullName }

/-- The links by binary and address, those into one crate only if it is given. -/
def listMatches (s : Store) (crate : Option String) : List Link :=
  ((s.functions.rows.mergeSort binaryLe).filterMap s.linkOf?).filter fun link =>
    crate.all (link.crate == ·)

def listRuns (s : Store) : Except StoreError (List Run) :=
  s.runs.rows.mapM fun r => r.value.run

/-! ## Counts -/

def stats (s : Store) : Stats :=
  { crates := s.crates.rows.length
    binaries := s.binaries.rows.length
    sourceFunctions := s.sources.rows.length
    binaryFunctions := s.functions.rows.length
    linkedBinaryFunctions := s.functions.count (·.matchedSource.isSome)
    matchedSourceFunctions := s.sources.count (·.matched) }

end CrateTrace.Store
