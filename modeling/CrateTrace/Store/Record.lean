import CrateTrace.Name.Kind
import CrateTrace.Store.Table

/-!
# Records

What is kept of crates, binaries and their functions, and of the passes that linked them.
-/

namespace CrateTrace.Store

open Name

/-! ## Functions -/

/-- What the analysis of a function came to. Only functions that are `ok` are matched. -/
inductive Status where
  | ok
  /-- The signature or the name is not of the usual form. -/
  | unknownFormat
  /-- The body could not be decoded. -/
  | badBinary
  /-- The crate is not among those that the project wants. -/
  | unwantedCrate
deriving DecidableEq, Repr

def Status.text : Status → String
  | .ok => "ok"
  | .unknownFormat => "unknown-format"
  | .badBinary => "bad-binary"
  | .unwantedCrate => "unwanted-crate"

def Status.ofText? : String → Option Status
  | "ok" => some .ok
  | "unknown-format" => some .unknownFormat
  | "bad-binary" => some .badBinary
  | "unwanted-crate" => some .unwantedCrate
  | _ => none

structure Function where
  crate : String
  /-- The last segment, without generic arguments. -/
  name : String
  fullName : String
  kind : FunctionKind
  status : Status
deriving DecidableEq, Repr

/-- A function of a crate version. -/
structure SourceFunction extends Function where
  version : String
  /-- The signature that a reference build gave it. -/
  signature : Option String
  /-- Whether a function of a binary is linked to it. -/
  matched : Bool
deriving DecidableEq, Repr

/-- A function of a binary. -/
structure BinaryFunction extends Function where
  binary : String
  address : UInt64
  signature : String
  /-- The source function that it is linked to. -/
  matchedSource : Option RowId
deriving DecidableEq, Repr

/-! ## Units -/

structure CrateVersion where
  name : String
  version : String
deriving DecidableEq, Repr

structure Binary where
  name : String
  /-- The digest of the dump that the functions come from. -/
  hash : Option String
deriving DecidableEq, Repr

/-! ## Links and runs -/

structure Link where
  binary : String
  address : UInt64
  binaryName : String
  crate : String
  version : String
  sourceName : String
deriving DecidableEq, Repr

inductive RunStatus where
  | committed
  | rolledBack
deriving DecidableEq, Repr

def RunStatus.text : RunStatus → String
  | .committed => "committed"
  | .rolledBack => "rolled-back"

def RunStatus.ofText? : String → Option RunStatus
  | "committed" => some .committed
  | "rolled-back" => some .rolledBack
  | _ => none

/-- What a matching pass came to. -/
structure Run where
  crate : String
  version : String
  linkedByName : Nat
  linkedBySignature : Nat
  unmatched : Nat
  failures : Nat
  status : RunStatus
  startedAt : String
  finishedAt : String
deriving DecidableEq, Repr

structure Stats where
  crates : Nat
  binaries : Nat
  sourceFunctions : Nat
  binaryFunctions : Nat
  linkedBinaryFunctions : Nat
  matchedSourceFunctions : Nat
deriving DecidableEq, Repr

end CrateTrace.Store
