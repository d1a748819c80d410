import CrateTrace.Decimal.Nearest
import CrateTrace.Store.Error
import CrateTrace.Store.Record

/-!
# Columns

How records lie in the tables. Kinds and statuses are codes; a code that stands for nothing is kept
and found out when its row is read.
-/

namespace CrateTrace.Store

open Name

/-! ## Codes -/

/-- What a column of codes holds. -/
inductive Cell where
  | integer (value : Int)
  | real (value : Decimal.Double)
  | text (value : String)
deriving DecidableEq, Repr

def Cell.isInteger (cell : Cell) (n : Int) : Bool :=
  match cell with
  | .integer m => m == n
  | _ => false

/-- The code in a column of 32-bit integers. -/
def Cell.code (index : Nat) (column : String) : Cell → Except StoreError Int
  | .integer n =>
    if Int32.minValue.toInt ≤ n ∧ n ≤ Int32.maxValue.toInt then .ok n
    else .error (.outOfRange index n)
  | .real _ => .error (.notInteger "Real" index column)
  | .text _ => .error (.notInteger "Text" index column)

def Status.code : Status → Int
  | .ok => 0
  | .unknownFormat => 1
  | .badBinary => 2
  | .unwantedCrate => 3

def Status.ofCode? : Int → Option Status
  | 0 => some .ok
  | 1 => some .unknownFormat
  | 2 => some .badBinary
  | 3 => some .unwantedCrate
  | _ => none

theorem Status.ofCode_code (s : Status) : Status.ofCode? s.code = some s := by cases s <;> rfl

/-- A kind as a code and the texts that belong to it. -/
structure KindColumns where
  code : Int
  path : Option String
  implType : Option String
  implTrait : Option String
deriving DecidableEq, Repr

def KindColumns.ofKind : FunctionKind → KindColumns
  | .normal modulePath => ⟨0, some modulePath, none, none⟩
  | .method implType => ⟨1, none, some implType, none⟩
  | .traitImpl implType implTrait => ⟨2, none, some implType, some implTrait⟩
  | .closure parent => ⟨3, some parent, none, none⟩

/-- A missing text counts as an empty one. -/
def KindColumns.kind? (c : KindColumns) : Option FunctionKind :=
  match c.code with
  | 0 => some (.normal (c.path.getD ""))
  | 1 => some (.method (c.implType.getD ""))
  | 2 => some (.traitImpl (c.implType.getD "") (c.implTrait.getD ""))
  | 3 => some (.closure (c.path.getD ""))
  | _ => none

theorem KindColumns.kind_ofKind (k : FunctionKind) : (KindColumns.ofKind k).kind? = some k := by
  cases k <;> rfl

/-! ## Functions -/

structure FunctionColumns where
  crate : String
  name : String
  fullName : String
  kind : Cell
  path : Option String
  implType : Option String
  implTrait : Option String
  status : Cell
deriving DecidableEq, Repr

/-- Where a listing of functions has the code of the kind. -/
def kindIndex : Nat := 4

def statusIndex : Nat := 8

def FunctionColumns.ofFunction (f : Function) : FunctionColumns :=
  let kind := KindColumns.ofKind f.kind
  { crate := f.crate
    name := f.name
    fullName := f.fullName
    kind := .integer kind.code
    path := kind.path
    implType := kind.implType
    implTrait := kind.implTrait
    status := .integer f.status.code }

/-- The kind is read before the status. -/
def FunctionColumns.function (c : FunctionColumns) : Except StoreError Function :=
  match c.kind.code kindIndex "kind" with
  | .error e => .error e
  | .ok kindCode =>
    match KindColumns.kind? ⟨kindCode, c.path, c.implType, c.implTrait⟩ with
    | none => .error (.outOfRange kindIndex kindCode)
    | some kind =>
      match c.status.code statusIndex "status" with
      | .error e => .error e
      | .ok statusCode =>
        match Status.ofCode? statusCode with
        | none => .error (.outOfRange statusIndex statusCode)
        | some status => .ok ⟨c.crate, c.name, c.fullName, kind, status⟩

structure SourceColumns extends FunctionColumns where
  crateId : RowId
  version : String
  signature : Option String
  matched : Bool
deriving DecidableEq, Repr

def SourceColumns.ofFunction (crateId : RowId) (f : SourceFunction) : SourceColumns :=
  { FunctionColumns.ofFunction f.toFunction with
    crateId
    version := f.version
    signature := f.signature
    matched := f.matched }

def SourceColumns.function (c : SourceColumns) : Except StoreError SourceFunction :=
  match c.toFunctionColumns.function with
  | .error e => .error e
  | .ok f => .ok { f with version := c.version, signature := c.signature, matched := c.matched }

structure BinaryColumns extends FunctionColumns where
  binaryId : RowId
  binary : String
  address : UInt64
  signature : String
  matchedSource : Option RowId
deriving DecidableEq, Repr

def BinaryColumns.ofFunction (binaryId : RowId) (f : BinaryFunction) : BinaryColumns :=
  { FunctionColumns.ofFunction f.toFunction with
    binaryId
    binary := f.binary
    address := f.address
    signature := f.signature
    matchedSource := f.matchedSource }

def BinaryColumns.function (c : BinaryColumns) : Except StoreError BinaryFunction :=
  match c.toFunctionColumns.function with
  | .error e => .error e
  | .ok f =>
    .ok { f with
      binary := c.binary
      address := c.address
      signature := c.signature
      matchedSource := c.matchedSource }

/-! ## Runs -/

structure RunColumns where
  crate : String
  version : String
  linkedByName : Nat
  linkedBySignature : Nat
  unmatched : Nat
  failures : Nat
  status : String
  startedAt : String
  finishedAt : String
deriving DecidableEq, Repr

def RunColumns.ofRun (r : Run) : RunColumns :=
  { crate := r.crate
    version := r.version
    linkedByName := r.linkedByName
    linkedBySignature := r.linkedBySignature
    unmatched := r.unmatched
    failures := r.failures
    status := r.status.text
    startedAt := r.startedAt
    finishedAt := r.finishedAt }

/-- Where a listing of runs has the status. -/
def runStatusIndex : Nat := 6

def RunColumns.run (c : RunColumns) : Except StoreError Run :=
  match RunStatus.ofText? c.status with
  | none => .error (.unknownRunStatus runStatusIndex c.status)
  | some status =>
    .ok {
      crate := c.crate
      version := c.version
      linkedByName := c.linkedByName
      linkedBySignature := c.linkedBySignature
      unmatched := c.unmatched
      failures := c.failures
      status
      startedAt := c.startedAt
      finishedAt := c.finishedAt }

end CrateTrace.Store
